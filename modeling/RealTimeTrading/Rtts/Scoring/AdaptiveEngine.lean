/-
RealTimeTrading.Rtts.Scoring.AdaptiveEngine — `score_frame` of
`adaptive_engine.rs`, with the weights and the threshold it takes from
`learning.rs`.

`f64::exp` and the clock of `data_age_ms` are parameters.
-/
import RealTimeTrading.Rtts.Scoring.EntryScoring

namespace RealTimeTrading.Rtts

/-! ## What was learned -/

structure AdaptiveWeights where
  velocity : ℚ := 1.10
  orderflow : ℚ := 0.95
  imbalance : ℚ := 0.85
  liquidity : ℚ := 0.65
  spread : ℚ := 0.75
  adversarial : ℚ := 1.15

structure LearningState where
  weights : AdaptiveWeights := {}
  hitRate : ℚ := 0.50
  slippageErrorBps : ℚ := 0
  threshold : ℚ := 0.70

namespace LearningState

/-- `LearningState::weights`. -/
def weightsIn (regime : MarketRegime) (learning : LearningState) : AdaptiveWeights :=
  let weights := learning.weights
  let weights :=
    if 2 < regime.volatility then
      { weights with
        velocity := weights.velocity * 0.85
        liquidity := weights.liquidity * 1.20
        adversarial := weights.adversarial * 1.25 }
    else weights
  let weights :=
    if 8 < regime.spread then
      { weights with
        spread := weights.spread * 1.50
        orderflow := weights.orderflow * 0.85 }
    else weights
  if learning.hitRate < 0.48 then
    { weights with
      adversarial := weights.adversarial * 1.20
      spread := weights.spread * 1.15 }
  else weights

/-- `LearningState::threshold`. -/
def thresholdIn (regime : MarketRegime) (learning : LearningState) : ℚ :=
  let regimePenalty := if 10 < regime.spread ∨ 3 < regime.volatility then 0.05 else 0
  clamp (learning.threshold + regimePenalty + max learning.slippageErrorBps 0 * 0.002) 0.62 0.86

end LearningState

namespace AdaptiveEngine

open EdgeValidation (EdgeValidationSnapshot)

/-! ## Small functions -/

def flowPenalty : FlowSignal → ℚ
  | .strongContinuation => 0
  | .weakContinuation => 0.18
  | .exhaustion => 0.55
  | .reversalRisk => 1.05

def timingPenalty : TimingSignal → ℚ
  | .optimal => 0
  | .neutral => 0.16
  | .wait => 0.42
  | .missed => 0.95

def inferDirection (frame : MicrostructureFrame) : Direction :=
  let flow := frame.features.orderFlowDelta + frame.features.microPriceVelocity
  let book := frame.features.weightedImbalance + frame.book.topPressure
  let combined := 0.60 * flow + 0.40 * book
  if 0.20 < combined then .long else if combined < -0.20 then .short else .flat

def midpoint (bestBid bestAsk : ℚ) : ℚ :=
  if 0 < bestBid ∧ 0 < bestAsk then (bestBid + bestAsk) * 0.5 else max bestBid bestAsk

def marketFromFrame (frame : MicrostructureFrame) : MarketEvent where
  timestamp := frame.timestamp
  price := (frame.trade.map (·.price)).getD (midpoint frame.book.bestBid frame.book.bestAsk)

def expectedDuration (regime : MarketRegime) (confidence tradeFrequency : ℚ) : Nat :=
  let base := if 2.5 < regime.volatility then 180 else 450
  let speed := clamp (tradeFrequency / 40) 0.5 2.5
  (clamp (base / speed * (1.15 - confidence * 0.45)) 80 1500).floor.toNat

def estimateSlippage (frame : MicrostructureFrame) (direction : Direction) : ℚ :=
  let topQty := match direction with
    | .long => frame.book.askVolume
    | .short => frame.book.bidVolume
    | .flat => min frame.book.bidVolume frame.book.askVolume
  let spreadBps := frame.book.spread * 10000
  let depthPenalty := min (1 / max topQty 0.1) 8
  clamp (spreadBps * 0.55 + depthPenalty + frame.features.liquidityPull * 4) 0.1 50

def urgency (score threshold : ℚ) (expectedDurationMs : Nat) (burst adversarial : ℚ) : ℚ :=
  let edge := max (score - threshold) 0
  clamp (edge * 2 + min burst 4 * 0.12 + 500 / expectedDurationMs * 0.20 - adversarial * 0.35) 0 1

def sigmoid (exp : ℚ → ℚ) (x : ℚ) : ℚ :=
  if 0 ≤ x then 1 / (1 + exp (-x)) else exp x / (1 + exp x)

/-! ## Parts of the score -/

/-- The classification the frame carries, if it carries one. -/
def classifierOf (weights : ReversalClassifierWeights) (frame : MicrostructureFrame) :
    ReversalClassifierSnapshot :=
  let snapshot := frame.reversalClassifier
  if 0 < snapshot.reversalProbability ∨ 0 < snapshot.continuationProbability ∨
      0 < snapshot.chopProbability then snapshot
  else ReversalClassifier.classify frame weights

def adversarialRisk (frame : MicrostructureFrame) : ℚ :=
  clamp (frame.features.spoofingRisk * 0.45 + frame.features.liquidityPull * 0.35 +
    frame.features.absorption * 0.20) 0 1

def rawScore (learning : LearningState) (frame : MicrostructureFrame) : ℚ :=
  let weights := learning.weightsIn frame.regime
  let sideFactor : ℚ := match inferDirection frame with
    | .long => 1
    | .short => -1
    | .flat => 0
  let liquiditySupport := clamp
    (frame.book.weightedImbalance * sideFactor - |min frame.features.liquidityShift 0| * 0.35)
    (-1) 1
  weights.velocity * frame.features.microPriceVelocity * sideFactor +
    weights.orderflow * frame.features.orderFlowDelta * sideFactor +
    weights.imbalance * frame.features.weightedImbalance * sideFactor +
    weights.liquidity * liquiditySupport + 0.35 * frame.tape.continuation +
    0.42 * frame.flow.continuationStrength + 0.28 * frame.timing.timingScore -
    weights.spread * (frame.regime.spread / 10) - weights.adversarial * adversarialRisk frame -
    flowPenalty frame.flow.signal - timingPenalty frame.timing.signal

def edgeDegrade (edgeSnapshot : EdgeValidationSnapshot) : ℚ :=
  (match edgeSnapshot.edgeState with
    | .valid => 1
    | .uncertain => 0.65
    | .invalid => 0) *
  (match edgeSnapshot.competitionState with
    | .normal => 1
    | .competitive => 0.75
    | .saturated => 0)

def scoreThreshold (learning : LearningState) (regime : MarketRegime)
    (edgeSnapshot : EdgeValidationSnapshot) : ℚ :=
  clamp
    (learning.thresholdIn regime +
      (match edgeSnapshot.edgeState with
        | .valid => 0
        | .uncertain => 0.05
        | .invalid => 0.18) +
      (match edgeSnapshot.competitionState with
        | .normal => 0
        | .competitive => 0.05
        | .saturated => 0.18)) 0.62 0.94

/-- The side a reversal enters, or the direction the frame shows. -/
def finalDirection (frame : MicrostructureFrame) (entryScoring : EntryScoringSnapshot)
    (triggerLongReady : Bool) (direction : Direction) : Direction :=
  if entryScoring.enterShort then .short
  else if entryScoring.enterLong ∧ frame.reversal.state ≠ .idle then frame.reversal.direction
  else if entryScoring.enterLong then .long
  else if triggerLongReady then .long
  else direction

/-! ## Scoring a frame -/

/-- `score_frame` ignores the frame before it looks at it. -/
def Locked (tradingDisabled : Bool) (edgeSnapshot : EdgeValidationSnapshot) : Prop :=
  tradingDisabled = true ∨ edgeSnapshot.edgeState = .invalid ∨
    edgeSnapshot.competitionState = .saturated

instance (tradingDisabled : Bool) (edgeSnapshot : EdgeValidationSnapshot) :
    Decidable (Locked tradingDisabled edgeSnapshot) := by
  unfold Locked; infer_instance

variable (exp : ℚ → ℚ) (modelWeights : RuntimeModelWeights)

def scoreFrame (cfg : Config) (learning : LearningState) (frame : MicrostructureFrame)
    (previousScore : ℚ) (tradingDisabled : Bool) (edgeSnapshot : EdgeValidationSnapshot)
    (now : Nat) : ScoredDecision :=
  let classifier := classifierOf modelWeights.reversalClassifier frame
  let entryScoring := EntryScoring.evaluate modelWeights.entryScoring frame edgeSnapshot
  let direction := inferDirection frame
  let adversarialRisk := adversarialRisk frame
  let score := clamp (sigmoid exp (rawScore learning frame)) 0 1
  let edgeDegrade := edgeDegrade edgeSnapshot
  let confidence := clamp (|score - 0.5| * 2 * (1 - adversarialRisk) * edgeDegrade) 0 1
  let threshold := scoreThreshold learning frame.regime edgeSnapshot
  let dataLatencyMs := now - frame.timestamp
  let staleOrSlow := frame.stale = true ∨ cfg.maxDataAgeMs < dataLatencyMs
  let expectedDurationMs := expectedDuration frame.regime confidence frame.tape.tradeFrequency
  let urgency :=
    urgency score threshold expectedDurationMs frame.tape.volumeBurst adversarialRisk *
      edgeDegrade * (1 - edgeSnapshot.competitionScore * 0.35)
  let triggerLongReady := entryScoring.enterLong && decide (frame.reversal.state = .idle) &&
    classifier.readyLong
  let reversalReady := entryScoring.enterLong || entryScoring.enterShort
  let decision : Decision :=
    if Locked tradingDisabled edgeSnapshot then .ignore
    else if staleOrSlow then .ignore
    else if frame.trigger.shouldExit then .exit
    else if reversalReady then .enterSmall
    else if triggerLongReady ∧ direction ≠ .short then .enterSmall
    else if frame.timing.signal = .missed then .ignore
    else if frame.flow.signal = .reversalRisk then .exit
    else if frame.timing.signal ≠ .optimal ∧ frame.flow.signal ≠ .strongContinuation then .ignore
    else if 0.82 < adversarialRisk then .exit
    else if score < 0.38 ∨ 0.18 < previousScore - score then .exit
    else if threshold < score ∧ previousScore + 0.025 < score ∧ 0.40 < confidence then .scaleIn
    else if threshold < score ∧ 0.35 < confidence then .enterSmall
    else .ignore
  { market := marketFromFrame frame
    features := frame.features.toFeatures
    regime := frame.regime
    context := frame.context
    flow := frame.flow.toFlowState
    timing := frame.timing
    direction := finalDirection frame entryScoring triggerLongReady direction
    confidence :=
      if reversalReady then
        max confidence (max (max entryScoring.confidence frame.reversal.confidence) 0.68)
      else if triggerLongReady then max confidence (max entryScoring.confidence 0.72)
      else confidence
    score :=
      if reversalReady then
        clamp (score + entryScoring.score * 0.18 + entryScoring.expectedEdge * 0.10) 0 1
      else if triggerLongReady then
        clamp (score + entryScoring.score * 0.12 + frame.trigger.expectedEdge * 0.08) 0 1
      else score
    decision := decision
    expectedDurationMs := expectedDurationMs
    urgency :=
      if reversalReady then max urgency (0.62 + entryScoring.score * 0.10)
      else if triggerLongReady then max urgency (0.60 + entryScoring.score * 0.08)
      else urgency
    expectedSlippageBps := estimateSlippage frame direction
    dataLatencyMs := dataLatencyMs
    adversarialRisk := adversarialRisk
    edgeState := edgeSnapshot.edgeState
    edgeReliabilityScore := edgeSnapshot.edgeReliabilityScore
    edgeHalfLifeSamples := edgeSnapshot.edgeHalfLifeSamples
    edgeCaptureMean := edgeSnapshot.edgeCaptureMean
    negativeCaptureStreak := edgeSnapshot.negativeCaptureStreak
    executionAlphaMean := edgeSnapshot.executionAlphaMean
    markoutDegradationScore :=
      edgeSnapshot.adverseSelectionLossMean + min edgeSnapshot.executionLossMean 1 * 0.25
    dynamicSizeMultiplier := edgeSnapshot.positionSizeMultiplier
    competitionState := edgeSnapshot.competitionState
    competitionScore := edgeSnapshot.competitionScore
    tradingEnabled := edgeSnapshot.tradingEnabled
    fillProbability := .lowFill }

end AdaptiveEngine

end RealTimeTrading.Rtts
