/-
RealTimeTrading.Rtts.Position — `position.rs`: which order a signal calls
for, given the position held.
-/
import RealTimeTrading.Rtts.Accounting.Ledger

namespace RealTimeTrading.Rtts

open Accounting

def quoteToBase (quoteSize price : ℚ) : ℚ := quoteSize / max price epsilon

/-! ## Factors and guards -/

def flowSizeFactor (signal : ScoredDecision) : ℚ :=
  match signal.flow.signal with
  | .strongContinuation => 1
  | .weakContinuation => 0.65
  | .exhaustion => 0.25
  | .reversalRisk => 0

def contextSizeFactor (signal : ScoredDecision) : ℚ :=
  match signal.context.regime with
  | .lowLiquidity => 0.45
  | .highVolatility => 0.70
  | .trendExpansion => 1.20
  | .newsShock => 0
  | .normal => 1

def allowMicroEntry (signal : ScoredDecision) : Prop :=
  signal.tradingEnabled = true ∧ signal.edgeState ≠ .invalid ∧
    (signal.flow.signal = .strongContinuation ∨ signal.flow.signal = .weakContinuation) ∧
    (signal.timing.signal = .optimal ∨ signal.timing.signal = .neutral) ∧
    0.42 < signal.flow.continuationStrength ∧ 0.45 < signal.timing.timingScore

instance (signal : ScoredDecision) : Decidable (allowMicroEntry signal) := by
  unfold allowMicroEntry; infer_instance

def shouldForceExecutionExit (position : Position) (signal : ScoredDecision) : Prop :=
  position.isOpen ∧
    (signal.tradingEnabled = false ∨ signal.competitionState = .saturated ∨
      4 ≤ signal.negativeCaptureStreak ∨ signal.edgeCaptureMean < -0.05 ∨
      signal.executionAlphaMean < -1 ∨ 0.85 < signal.markoutDegradationScore)

instance (position : Position) (signal : ScoredDecision) :
    Decidable (shouldForceExecutionExit position signal) := by
  unfold shouldForceExecutionExit; infer_instance

def canScale (position : Position) (signal : ScoredDecision) (lastScore : ℚ) (desiredSide : Side)
    (maxEntries : Nat) : Prop :=
  position.isOpen ∧ position.side = some desiredSide ∧ position.entries < maxEntries ∧
    lastScore < signal.score ∧ 0.45 < signal.confidence ∧
    signal.flow.signal = .strongContinuation ∧ signal.timing.signal ≠ .missed ∧
    signum signal.features.orderFlowDelta = (if desiredSide = .buy then 1 else -1) ∧
    signum signal.features.weightedImbalance = (if desiredSide = .buy then 1 else -1) ∧
    -0.0001 ≤ position.unrealizedPnl ∧ signal.adversarialRisk < 0.55 ∧
    signal.context.regime ≠ .newsShock ∧ 0.35 < signal.context.liquidityScore

instance (position : Position) (signal : ScoredDecision) (lastScore : ℚ) (desiredSide : Side)
    (maxEntries : Nat) : Decidable (canScale position signal lastScore desiredSide maxEntries) := by
  unfold canScale; infer_instance

/-! ## Orders -/

def intentOrderType (reduceOnly : Bool) (signal : ScoredDecision) : OrderType :=
  if 0.62 < signal.urgency ∨ reduceOnly = true then .market else .limit

def intent (cfg : Config) (side : Side) (size : ℚ) (reduceOnly : Bool) (signal : ScoredDecision)
    (position : Position) : OrderIntent :=
  let orderType := intentOrderType reduceOnly signal
  { request :=
      { symbol := cfg.symbol
        side := side
        size := size
        price := some signal.market.price
        orderType := orderType
        postOnly := decide (orderType = .limit) && !reduceOnly
        reduceOnly := reduceOnly
        maxSlippageBps := max (signal.expectedSlippageBps * 1.8) 2 }
    reason := signal.decision
    score := signal.score
    lastPrice := signal.market.price
    positionBefore := position
    timestamp := signal.market.timestamp
    urgency := signal.urgency
    expectedSlippageBps := signal.expectedSlippageBps
    expectedDurationMs := signal.expectedDurationMs
    dataLatencyMs := signal.dataLatencyMs
    regime := signal.regime
    context := signal.context
    flow := signal.flow
    timing := signal.timing
    edgeState := signal.edgeState
    edgeReliabilityScore := signal.edgeReliabilityScore
    edgeHalfLifeSamples := signal.edgeHalfLifeSamples
    edgeCaptureMean := signal.edgeCaptureMean
    negativeCaptureStreak := signal.negativeCaptureStreak
    executionAlphaMean := signal.executionAlphaMean
    markoutDegradationScore := signal.markoutDegradationScore
    dynamicSizeMultiplier := signal.dynamicSizeMultiplier
    competitionState := signal.competitionState
    competitionScore := signal.competitionScore
    tradingEnabled := signal.tradingEnabled
    executionMode := match signal.competitionState with
      | .normal => if orderType = .market then .aggressive else .passive
      | .competitive => .passive
      | .saturated => .defensive
    queueEstimate := {}
    fillProbability := signal.fillProbability
    metaDecision := none }

/-- The size of a discretionary exit: all of it under adversarial risk, else
half of it, but no less than a base order. -/
def reduceSize (cfg : Config) (position : Position) (signal : ScoredDecision) : ℚ :=
  if 0.80 < signal.adversarialRisk then |position.size|
  else max (|position.size| * 0.50)
    (min |position.size| (quoteToBase cfg.baseOrderUsd signal.market.price))

def entrySize (cfg : Config) (signal : ScoredDecision) : ℚ :=
  quoteToBase
    (cfg.baseOrderUsd * signal.dynamicSizeMultiplier * 0.35 * max signal.confidence 0.35 *
      contextSizeFactor signal * flowSizeFactor signal)
    signal.market.price

def scaleSize (cfg : Config) (position : Position) (signal : ScoredDecision) : ℚ :=
  let regimeBoost := if signal.context.regime = .trendExpansion then 0.35 else 0
  let entryMultiplier := 0.55 + position.entries * 0.22 + signal.confidence * 0.20 + regimeBoost
  quoteToBase (cfg.baseOrderUsd * entryMultiplier * signal.dynamicSizeMultiplier)
    signal.market.price

/-- The order that closes `size` of the position. -/
def exitIntent (cfg : Config) (size : ℚ) (signal : ScoredDecision) (position : Position) :
    Option OrderIntent :=
  position.side.map fun side => intent cfg side.opposite size true signal position

/-- The match on the decision, once the direction names a side. -/
def decideOrderOn (cfg : Config) (position : Position) (signal : ScoredDecision) (lastScore : ℚ)
    (side : Side) : Option OrderIntent :=
  let scale :=
    if canScale position signal lastScore side cfg.maxEntries then
      some (intent cfg side (scaleSize cfg position signal) false signal position)
    else none
  match signal.decision with
  | .enterSmall =>
    if ¬ position.isOpen ∧ allowMicroEntry signal then
      some (intent cfg side (entrySize cfg signal) false signal position)
    else scale
  | .scaleIn => scale
  | .exit => if position.isOpen then exitIntent cfg |position.size| signal position else none
  | .ignore => none

def decideOrder (cfg : Config) (position : Position) (signal : ScoredDecision) (lastScore : ℚ) :
    Option OrderIntent :=
  if shouldForceExecutionExit position signal then exitIntent cfg |position.size| signal position
  else if signal.decision = .exit ∧ position.isOpen then
    exitIntent cfg (reduceSize cfg position signal) signal position
  else
    match signal.direction with
    | .long => decideOrderOn cfg position signal lastScore .buy
    | .short => decideOrderOn cfg position signal lastScore .sell
    | .flat => none

/-! ## The position, as the ledger has it -/

def syncPositionFromAccounting (accounting : AccountingEngine) (symbol : String)
    (position : Position) : Position :=
  let exposure := accounting.positionExposure symbol
  if |exposure.netQuantity| ≤ epsilon then {}
  else
    { position with
      size := exposure.netQuantity
      avgPrice := exposure.avgEntryPrice
      entries := exposure.openLots
      confidence := clamp (0.25 + exposure.openLots * 0.10) 0.25 1
      unrealizedPnl := exposure.unrealizedPnl }

end RealTimeTrading.Rtts
