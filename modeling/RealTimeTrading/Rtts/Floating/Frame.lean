/-
RealTimeTrading.Rtts.Floating.Frame — the frame of `types.rs` with its
numbers as the `f64`s they are, infinities and NaN included.

The other models of the trading loop take an `f64` for an exact rational.
Where a property turns on rounding, on overflow or on what is not a number,
the functions are modelled over these records instead, under their own names
in this namespace.
-/
import RealTimeTrading.Data.Binary64
import RealTimeTrading.Rtts.Scoring.EntryScoring

namespace RealTimeTrading.Rtts.Floating

open Data (F64)

structure TradeEvent where
  timestamp : Nat
  price : F64
  volume : F64
  side : Side

structure OrderBookState where
  bestBid : F64 := 0
  bestAsk : F64 := 0
  bidVolume : F64 := 0
  askVolume : F64 := 0
  topPressure : F64 := 0
  weightedImbalance : F64 := 0
  spread : F64 := 0
  spoofingScore : F64 := 0
  liquidityPull : F64 := 0
  absorption : F64 := 0

structure TapeState where
  delta : F64 := 0
  tradeFrequency : F64 := 0
  volumeBurst : F64 := 0
  exhaustion : F64 := 0
  continuation : F64 := 0
  lastPrice : F64 := 0

structure Features where
  weightedImbalance : F64 := 0
  orderFlowDelta : F64 := 0
  spreadDynamics : F64 := 0
  microPriceVelocity : F64 := 0
  liquidityShift : F64 := 0
  absorption : F64 := 0
  spoofingRisk : F64 := 0
  liquidityPull : F64 := 0

structure MarketRegime where
  volatility : F64
  spread : F64
  trendStrength : F64

structure MarketContext where
  regime : RegimeKind
  liquidityScore : F64
  stabilityScore : F64

structure FlowState where
  signal : FlowSignal
  continuationStrength : F64
  aggressiveRatio : F64 := 0
  exhaustion : F64 := 0

structure MicroTimingState where
  signal : TimingSignal
  tradeBurst : F64
  timingScore : F64

structure TriggerSnapshot where
  localHigh : F64 := 0
  dropPct : F64 := 0
  inObservation : Bool := false
  confirmed : Bool := false
  expectedEdge : F64 := 0
  shouldExit : Bool := false

structure ReversalSnapshot where
  state : ReversalState := .idle
  active : Bool := false
  confirmed : Bool := false
  direction : Direction := .flat
  confidence : F64 := 0
  expectedEdge : F64 := 0

structure ReversalClassifierSnapshot where
  reversalProbability : F64 := 0
  continuationProbability : F64 := 0
  chopProbability : F64 := 0
  intentScore : F64 := 0
  movementScore : F64 := 0
  readyLong : Bool := false
  readyShort : Bool := false

structure MicrostructureFrame where
  timestamp : Nat
  trade : Option TradeEvent
  book : OrderBookState
  tape : TapeState
  features : Features
  regime : MarketRegime
  context : MarketContext
  flow : FlowState
  timing : MicroTimingState
  trigger : TriggerSnapshot := {}
  reversal : ReversalSnapshot := {}
  reversalClassifier : ReversalClassifierSnapshot := {}
  stale : Bool := false

/-- The price both engines take: `mid_price` where there was no trade. -/
def marketPrice (frame : MicrostructureFrame) : F64 :=
  match frame.trade with
  | some trade => trade.price
  | none =>
    if 0 < frame.book.bestBid ∧ 0 < frame.book.bestAsk then
      (frame.book.bestBid + frame.book.bestAsk) * 0.5
    else frame.tape.lastPrice

def buyPressure (frame : MicrostructureFrame) : F64 :=
  max (max frame.tape.delta 0 + max frame.features.orderFlowDelta 0 * 0.65 +
    max frame.book.topPressure 0 * 2.5) 0

def sellPressure (frame : MicrostructureFrame) : F64 :=
  max (max (-frame.tape.delta) 0 + max (-frame.features.orderFlowDelta) 0 * 0.65 +
    max (-frame.book.topPressure) 0 * 2.5) 0

end RealTimeTrading.Rtts.Floating
