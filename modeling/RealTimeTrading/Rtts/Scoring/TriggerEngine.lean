/-
RealTimeTrading.Rtts.Scoring.TriggerEngine — `trigger_engine.rs`: how far the
price has dropped from its local high, and the window in which a drop is
observed.

Prices are finite in this model, so `is_finite` holds of each.
-/
import RealTimeTrading.Rtts.Scoring.EntryScoring

namespace RealTimeTrading.Rtts

structure PercentTriggerState where
  localHigh : ℚ := 0
  dropPct : ℚ := 0
  inObservation : Bool := false

structure TriggerEngine where
  state : PercentTriggerState := {}
  previousSellPressure : ℚ := 0
  decayHighAlpha : ℚ := 0
  dropThreshold : ℚ := 0
  resetThreshold : ℚ := 0

namespace TriggerEngine

def new (dropThreshold resetThreshold : ℚ) : TriggerEngine :=
  { decayHighAlpha := 0.003
    dropThreshold := clamp dropThreshold 0.001 0.10
    resetThreshold := clamp resetThreshold 0.002 0.20 }

/-! ## Reading a frame -/

def midPrice (frame : MicrostructureFrame) : ℚ :=
  if 0 < frame.book.bestBid ∧ 0 < frame.book.bestAsk then
    (frame.book.bestBid + frame.book.bestAsk) * 0.5
  else frame.tape.lastPrice

/-- The price `observe` goes on with, if there is one. -/
def usablePrice (frame : MicrostructureFrame) : Option ℚ :=
  let price :=
    match frame.trade with
    | some trade => trade.price
    | none => midPrice frame
  if price ≤ 0 then none else some price

def sellPressure (frame : MicrostructureFrame) : ℚ :=
  max (max (-frame.tape.delta) 0 + max (-frame.features.orderFlowDelta) 0 * 0.65 +
    max (-frame.book.topPressure) 0 * 2.5) 0

def confirmReversal (frame : MicrostructureFrame) (previousSellPressure : ℚ) : Bool :=
  let flowOk := decide (frame.flow.signal = .exhaustion ∨ frame.flow.signal = .weakContinuation)
  let sellingWeakening := decide (sellPressure frame < previousSellPressure * 0.82) ||
    decide (0.42 < frame.tape.exhaustion)
  let orderbookOk := decide (0.28 < frame.book.absorption) ||
    (decide (frame.book.liquidityPull < 0.28) && decide (-0.12 < frame.book.topPressure) &&
      decide (0.45 < frame.context.stabilityScore))
  let timingOk := decide (frame.timing.signal = .optimal)
  flowOk && sellingWeakening && orderbookOk && timingOk

def markoutDegrading (frame : MicrostructureFrame) : Bool :=
  decide (frame.features.microPriceVelocity < -0.85) &&
    decide (frame.flow.continuationStrength < 0.38) &&
    decide (frame.features.orderFlowDelta < -0.45)

def flowFlip (frame : MicrostructureFrame) : Bool :=
  decide (frame.flow.signal = .reversalRisk ∨ frame.flow.signal = .exhaustion) &&
    decide (frame.book.weightedImbalance < -0.20)

def adverseSelectionRising (frame : MicrostructureFrame) : Bool :=
  decide (0.48 < frame.features.liquidityPull) || decide (0.42 < frame.book.spoofingScore)

def timingLost (frame : MicrostructureFrame) : Bool :=
  decide (frame.timing.signal = .missed ∨ frame.timing.signal = .wait)

def shouldExit (frame : MicrostructureFrame) (position : Position) : Bool :=
  if ¬position.isOpen then frame.trigger.shouldExit
  else
    let hardFallback :=
      decide (position.unrealizedPnl < -0.004 * |position.avgPrice| * |position.size|)
    markoutDegrading frame || flowFlip frame || adverseSelectionRising frame ||
      timingLost frame || hardFallback

def deriveExpectedEdge (frame : MicrostructureFrame) : ℚ :=
  max (frame.flow.exhaustion * 1.6 + frame.book.absorption * 1.2 + frame.timing.timingScore +
    frame.context.stabilityScore * 0.6 - frame.features.liquidityPull * 0.9 -
    frame.regime.spread * 0.04) 0

/-! ## The engine -/

variable (engine : TriggerEngine)

/-- `local_high` once this price is in. -/
def raisedHigh (price : ℚ) : ℚ :=
  if engine.state.localHigh ≤ 0 then price
  else
    max (max engine.state.localHigh price)
      (engine.state.localHigh * (1 - engine.decayHighAlpha))

/-- `drop_pct` as it is first computed for this price. -/
def computedDrop (price : ℚ) : ℚ :=
  clamp ((engine.raisedHigh price - price) / max (engine.raisedHigh price) epsilon) 0 1

/-- `in_observation` once this price is in. -/
def armed (price : ℚ) : Bool :=
  engine.state.inObservation || decide (engine.dropThreshold ≤ engine.computedDrop price)

/-- The state a usable frame leaves: observation ends with a confirmation or a recovery,
and a drop that is too deep starts it over from this price. -/
def settled (price : ℚ) (confirmed : Bool) : PercentTriggerState :=
  let state : PercentTriggerState :=
    { localHigh := engine.raisedHigh price
      dropPct := engine.computedDrop price
      inObservation := engine.armed price }
  if confirmed = true ∨ state.dropPct < engine.dropThreshold * 0.35 then
    { state with inObservation := false }
  else if state.inObservation = true ∧ engine.resetThreshold ≤ state.dropPct then
    { localHigh := price, dropPct := 0, inObservation := false }
  else state

def observe (frame : MicrostructureFrame) : TriggerSnapshot × TriggerEngine :=
  match usablePrice frame with
  | none => ({}, engine)
  | some price =>
    let confirmed := engine.armed price && confirmReversal frame engine.previousSellPressure
    let state := engine.settled price confirmed
    ({ localHigh := state.localHigh
       dropPct := state.dropPct
       inObservation := state.inObservation
       confirmed := confirmed
       expectedEdge := if confirmed then deriveExpectedEdge frame else 0
       shouldExit := shouldExit frame {} },
     { engine with state := state, previousSellPressure := sellPressure frame })

end TriggerEngine

end RealTimeTrading.Rtts
