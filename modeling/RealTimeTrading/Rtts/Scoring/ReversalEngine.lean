/-
RealTimeTrading.Rtts.Scoring.ReversalEngine — `reversal_engine.rs`: after a
quick profit the engine watches the market for a turn, for a while and near
the price it left at.
-/
import RealTimeTrading.Rtts.Scoring.EntryScoring

namespace RealTimeTrading.Rtts

def Direction.side : Direction → Option Side
  | .long => some .buy
  | .short => some .sell
  | .flat => none

/-- `LearningSample`, with what the reversal engine reads besides. -/
structure ReversalSample extends LearningSample where
  timestamp : Nat
  direction : Direction

structure ReversalContext where
  state : ReversalState := .idle
  activationTime : Nat := 0
  lastExitPrice : ℚ := 0
  lastDirection : Side := .buy

structure ReversalEngine where
  context : ReversalContext := {}
  observationTimeoutMs : Nat
  maxPriceMovePct : ℚ
  previousBuyPressure : ℚ := 0
  previousSellPressure : ℚ := 0
  lastMarketPrice : ℚ := 0
  lastMarketTs : Nat := 0

namespace ReversalEngine

def defaultShortThresholdMs : Nat := 10000

def defaultMaxMovePct : ℚ := 0.0035

def new (observationTimeoutMs : Nat) : ReversalEngine :=
  { observationTimeoutMs := observationTimeoutMs, maxPriceMovePct := defaultMaxMovePct }

/-! ## Reading a frame -/

def marketPrice (frame : MicrostructureFrame) : ℚ :=
  match frame.trade with
  | some trade => trade.price
  | none =>
    if 0 < frame.book.bestBid ∧ 0 < frame.book.bestAsk then
      (frame.book.bestBid + frame.book.bestAsk) * 0.5
    else frame.tape.lastPrice

def buyPressure (frame : MicrostructureFrame) : ℚ :=
  max (max frame.tape.delta 0 + max frame.features.orderFlowDelta 0 * 0.65 +
    max frame.book.topPressure 0 * 2.5) 0

def sellPressure (frame : MicrostructureFrame) : ℚ :=
  max (max (-frame.tape.delta) 0 + max (-frame.features.orderFlowDelta) 0 * 0.65 +
    max (-frame.book.topPressure) 0 * 2.5) 0

def allowFlip (context : MarketContext) : Bool :=
  decide (context.regime ≠ .trendExpansion) && decide (context.regime ≠ .highVolatility) &&
    decide (0.42 < context.stabilityScore) && decide (0.38 < context.liquidityScore)

def newDominantTrend (frame : MicrostructureFrame) : Direction → Bool
  | .long =>
    decide (1.2 < frame.regime.trendStrength) && decide (0.8 < frame.features.microPriceVelocity) &&
      decide (0.4 < frame.features.orderFlowDelta)
  | .short =>
    decide (1.2 < frame.regime.trendStrength) &&
      decide (frame.features.microPriceVelocity < -0.8) &&
      decide (frame.features.orderFlowDelta < -0.4)
  | .flat => false

def reversalConfidence (frame : MicrostructureFrame) (confirmed : Bool) : ℚ :=
  if !confirmed then 0
  else
    clamp (0.35 * frame.flow.exhaustion + 0.30 * frame.book.absorption +
      0.20 * frame.timing.timingScore + 0.15 * frame.context.stabilityScore) 0 1

def reversalEdge (frame : MicrostructureFrame) : ℚ :=
  max (frame.flow.exhaustion * 1.4 + frame.book.absorption + frame.timing.timingScore * 0.8 -
    frame.regime.spread * 0.05 - frame.features.liquidityPull * 0.75) 0

/-! ## The engine -/

variable (engine : ReversalEngine)

/-- The context `observe_learning` sets, if it gets that far. -/
def activation (sample : ReversalSample) (frame : Option MicrostructureFrame) :
    Option ReversalContext :=
  let regimeIsTrend :=
    (frame.map fun value => decide (value.context.regime = .trendExpansion)).getD false
  if sample.pnl ≤ 0 ∨ defaultShortThresholdMs ≤ sample.durationMs ∨ regimeIsTrend = true then none
  else
    match sample.direction.side with
    | none => none
    | some lastDirection =>
      let price := ((frame.map marketPrice).filter fun value => decide (0 < value)).or
        (if 0 < engine.lastMarketPrice then some engine.lastMarketPrice else none)
      match price with
      | none => none
      | some price => some
        { state :=
            match lastDirection with
            | .buy => .observeLongToShort
            | .sell => .observeShortToLong
          activationTime := (frame.map (·.timestamp)).getD sample.timestamp
          lastExitPrice := price
          lastDirection := lastDirection }

def observeLearning (sample : ReversalSample) (frame : Option MicrostructureFrame) :
    ReversalEngine :=
  match engine.activation sample frame with
  | none => engine
  | some context => { engine with context := context }

def reset : ReversalEngine :=
  { engine with
    context := { engine.context with state := .idle, activationTime := 0, lastExitPrice := 0 } }

def expired (frame : MicrostructureFrame) : Bool :=
  if engine.context.state = .idle then false
  else if engine.observationTimeoutMs < frame.timestamp - engine.context.activationTime then true
  else
    let price := marketPrice frame
    let movePct :=
      clamp (|price - engine.context.lastExitPrice| / max engine.context.lastExitPrice epsilon) 0 1
    decide (engine.maxPriceMovePct < movePct)

/-- The two observations mirror each other: which trend ends them, whose pressure has to
fade and to which side the top of the book may lean instead of absorbing. -/
def observeFlip (frame : MicrostructureFrame) (blocked direction : Direction)
    (pressure previousPressure : ℚ) (leans : Bool) : ReversalSnapshot × ReversalEngine :=
  if engine.expired frame || !allowFlip frame.context || newDominantTrend frame blocked then
    ({}, engine.reset)
  else
    let confirmed :=
      decide (frame.flow.signal = .exhaustion ∨ frame.flow.signal = .weakContinuation) &&
      decide (pressure < previousPressure * 0.82) &&
      (decide (0.30 < frame.book.absorption) || leans) &&
      decide (frame.timing.signal = .optimal) &&
      decide (frame.context.regime ≠ .trendExpansion) &&
      decide (frame.features.spreadDynamics ≤ 0.65) && decide (frame.regime.volatility < 3.0)
    let snapshot : ReversalSnapshot :=
      { state := engine.context.state
        active := true
        confirmed := confirmed
        direction := direction
        confidence := reversalConfidence frame confirmed
        expectedEdge := if confirmed then reversalEdge frame else 0 }
    (snapshot, if confirmed then engine.reset else engine)

def observeLongToShort (frame : MicrostructureFrame) : ReversalSnapshot × ReversalEngine :=
  engine.observeFlip frame .long .short (buyPressure frame) engine.previousBuyPressure
    (decide (frame.book.topPressure < 0))

def observeShortToLong (frame : MicrostructureFrame) : ReversalSnapshot × ReversalEngine :=
  engine.observeFlip frame .short .long (sellPressure frame) engine.previousSellPressure
    (decide (0 < frame.book.topPressure))

def observeFrame (frame : MicrostructureFrame) : ReversalSnapshot × ReversalEngine :=
  let engine :=
    { engine with lastMarketPrice := marketPrice frame, lastMarketTs := frame.timestamp }
  let (snapshot, engine) :=
    match engine.context.state with
    | .idle => (({} : ReversalSnapshot), engine)
    | .observeLongToShort => engine.observeLongToShort frame
    | .observeShortToLong => engine.observeShortToLong frame
  (snapshot,
    { engine with
      previousBuyPressure := buyPressure frame
      previousSellPressure := sellPressure frame })

end ReversalEngine

end RealTimeTrading.Rtts
