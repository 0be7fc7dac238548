/-
RealTimeTrading.Rtts.Scoring.EntryScoring — the frame a market update
makes, and the two scores of a reversal on it: `reversal_classifier.rs`
and `entry_scoring.rs`.

`model_weights::current` is a parameter, `weights`: it is whatever file the
process was started with.
-/
import RealTimeTrading.Rtts.Accounting.EdgeValidation

namespace RealTimeTrading.Rtts

/-! ## Frames -/

/-- `Features`, with what the scores of a frame read besides. -/
structure FrameFeatures extends Features where
  velocity : ℚ := 0
  volZ : ℚ := 0
  imbalance : ℚ := 0
  volatility : ℚ := 0
  spread : ℚ := 0
  spreadDynamics : ℚ := 0
  microPriceVelocity : ℚ := 0
  tradeClustering : ℚ := 0
  liquidityShift : ℚ := 0
  absorption : ℚ := 0
  spoofingRisk : ℚ := 0
  liquidityPull : ℚ := 0

/-- `FlowState`, with what the scores of a frame read besides. -/
structure FrameFlow extends FlowState where
  aggressiveRatio : ℚ := 0
  absorption : ℚ := 0
  exhaustion : ℚ := 0

structure OrderBookState where
  bestBid : ℚ := 0
  bestAsk : ℚ := 0
  bidVolume : ℚ := 0
  askVolume : ℚ := 0
  imbalance : ℚ := 0
  topPressure : ℚ := 0
  weightedImbalance : ℚ := 0
  spread : ℚ := 0
  spoofingScore : ℚ := 0
  liquidityPull : ℚ := 0
  absorption : ℚ := 0

structure TapeState where
  buyVolume : ℚ := 0
  sellVolume : ℚ := 0
  delta : ℚ := 0
  tradeFrequency : ℚ := 0
  volumeBurst : ℚ := 0
  exhaustion : ℚ := 0
  continuation : ℚ := 0
  lastPrice : ℚ := 0

structure TriggerSnapshot where
  localHigh : ℚ := 0
  dropPct : ℚ := 0
  inObservation : Bool := false
  confirmed : Bool := false
  expectedEdge : ℚ := 0
  shouldExit : Bool := false

inductive ReversalState where
  | idle
  | observeLongToShort
  | observeShortToLong
  deriving DecidableEq, Repr

structure ReversalSnapshot where
  state : ReversalState := .idle
  active : Bool := false
  confirmed : Bool := false
  direction : Direction := .flat
  confidence : ℚ := 0
  expectedEdge : ℚ := 0

structure ReversalClassifierSnapshot where
  reversalProbability : ℚ := 0
  continuationProbability : ℚ := 0
  chopProbability : ℚ := 0
  intentScore : ℚ := 0
  movementScore : ℚ := 0
  readyLong : Bool := false
  readyShort : Bool := false

structure EntryScoringSnapshot where
  enterLong : Bool := false
  enterShort : Bool := false
  wait : Bool := false
  score : ℚ := 0
  confidence : ℚ := 0
  expectedEdge : ℚ := 0

structure MicrostructureFrame where
  timestamp : Nat
  trade : Option TradeEvent
  book : OrderBookState
  tape : TapeState
  features : FrameFeatures
  regime : MarketRegime
  context : MarketContext
  flow : FrameFlow
  timing : MicroTimingState
  trigger : TriggerSnapshot
  reversal : ReversalSnapshot
  reversalClassifier : ReversalClassifierSnapshot
  stale : Bool

/-! ## Weights -/

structure ReversalClassifierWeights where
  movementDropPct : ℚ := 0.45
  movementVelocity : ℚ := 0.35
  movementVolumeBurst : ℚ := 0.20
  intentExhaustion : ℚ := 0.25
  intentWeakSignal : ℚ := 0.20
  intentAbsorption : ℚ := 0.20
  intentTiming : ℚ := 0.20
  intentLiquidityOk : ℚ := 0.15
  triggerObservationBonus : ℚ := 0.15
  continuationDirectionality : ℚ := 0.35
  continuationMomentum : ℚ := 0.25
  continuationImbalance : ℚ := 0.20
  continuationAggression : ℚ := 0.20
  readyBiasThreshold : ℚ := 0.55

structure EntryScoringWeights where
  reversalProbability : ℚ := 0.40
  intentScore : ℚ := 0.20
  triggerEdge : ℚ := 0.15
  reversalEdge : ℚ := 0.10
  edgeReliability : ℚ := 0.15
  minEnterScore : ℚ := 0.58
  minEnterConfidence : ℚ := 0.52
  minWaitProbability : ℚ := 0.45

structure RuntimeModelWeights where
  reversalClassifier : ReversalClassifierWeights := {}
  entryScoring : EntryScoringWeights := {}

/-! ## The reversal classifier -/

namespace ReversalClassifier

variable (frame : MicrostructureFrame) (weights : ReversalClassifierWeights)

def movementScore : ℚ :=
  let drop := clamp frame.trigger.dropPct 0 0.04 / 0.04
  let velocity := clamp |frame.features.microPriceVelocity| 0 2 / 2
  let volume := clamp frame.tape.volumeBurst 0 4 / 4
  clamp (weights.movementDropPct * drop + weights.movementVelocity * velocity +
    weights.movementVolumeBurst * volume) 0 1

def intentScore : ℚ :=
  let exhaustion := clamp frame.flow.exhaustion 0 1
  let weakOrExhausted : ℚ :=
    match frame.flow.signal with
    | .exhaustion | .weakContinuation => 1
    | .strongContinuation | .reversalRisk => 0
  let absorption := clamp frame.book.absorption 0 1
  let timing :=
    if frame.timing.signal = .optimal then clamp frame.timing.timingScore 0 1 else 0
  let liquidityOk :=
    (1 - clamp frame.features.liquidityPull 0 1) * clamp frame.context.stabilityScore 0 1
  clamp (weights.intentExhaustion * exhaustion + weights.intentWeakSignal * weakOrExhausted +
    weights.intentAbsorption * absorption + weights.intentTiming * timing +
    weights.intentLiquidityOk * liquidityOk) 0 1

def continuationScore : ℚ :=
  let directionality := clamp frame.flow.continuationStrength 0 1
  let momentum := clamp |frame.features.microPriceVelocity| 0 2 / 2
  let imbalance := clamp |frame.book.weightedImbalance| 0 1
  let aggression := clamp frame.flow.aggressiveRatio 0 1
  clamp (weights.continuationDirectionality * directionality +
    weights.continuationMomentum * momentum + weights.continuationImbalance * imbalance +
    weights.continuationAggression * aggression) 0 1

def classify : ReversalClassifierSnapshot :=
  let movementScore := movementScore frame weights
  let intentScore := intentScore frame weights
  let triggerBias :=
    if frame.trigger.inObservation then clamp frame.trigger.dropPct 0 0.04 / 0.04 else 0
  let reversalProbability := clamp
    (0.30 * movementScore + 0.55 * intentScore + weights.triggerObservationBonus * triggerBias) 0 1
  let continuationProbability := continuationScore frame weights
  let chopProbability := clamp (1 - max reversalProbability continuationProbability) 0 1
  { reversalProbability := reversalProbability
    continuationProbability := continuationProbability
    chopProbability := chopProbability
    intentScore := intentScore
    movementScore := movementScore
    readyLong :=
      decide (continuationProbability < reversalProbability) &&
      decide (chopProbability < reversalProbability) &&
      decide (weights.readyBiasThreshold < reversalProbability) &&
      decide (frame.features.microPriceVelocity ≤ 0.25) && decide (frame.tape.delta ≤ 0)
    readyShort :=
      decide (continuationProbability < reversalProbability) &&
      decide (chopProbability < reversalProbability) &&
      decide (weights.readyBiasThreshold < reversalProbability) &&
      decide (-0.25 ≤ frame.features.microPriceVelocity) && decide (0 ≤ frame.tape.delta) }

end ReversalClassifier

/-! ## Entry scoring -/

namespace EntryScoring

open EdgeValidation (EdgeValidationSnapshot)

def directionalGate (frame : MicrostructureFrame) : Bool :=
  match frame.reversal.state with
  | .observeLongToShort => frame.reversalClassifier.readyShort
  | .observeShortToLong | .idle => frame.reversalClassifier.readyLong

def evaluate (weights : EntryScoringWeights) (frame : MicrostructureFrame)
    (edgeSnapshot : EdgeValidationSnapshot) : EntryScoringSnapshot :=
  let classifier := frame.reversalClassifier
  let edgeGate := decide (edgeSnapshot.edgeState ≠ .invalid) && edgeSnapshot.tradingEnabled
  let competitionGate := decide (edgeSnapshot.competitionState ≠ .saturated)
  let contextGate := decide (frame.context.regime ≠ .trendExpansion)
  let score := clamp
    (weights.reversalProbability * classifier.reversalProbability +
      weights.intentScore * classifier.intentScore +
      weights.triggerEdge * min frame.trigger.expectedEdge 1 +
      weights.reversalEdge * min frame.reversal.expectedEdge 1 +
      weights.edgeReliability * edgeSnapshot.edgeReliabilityScore) 0 1
  let confidence := clamp
    (0.55 * classifier.intentScore + 0.25 * edgeSnapshot.edgeReliabilityScore +
      0.20 * (1 - edgeSnapshot.competitionScore)) 0 1
  let expectedEdge := max
    (max frame.trigger.expectedEdge frame.reversal.expectedEdge * classifier.reversalProbability *
      max edgeSnapshot.edgeReliabilityScore 0.1) 0
  let enter := directionalGate frame && edgeGate && competitionGate && contextGate &&
    decide (classifier.continuationProbability < classifier.reversalProbability) &&
    decide (weights.minEnterScore < score) && decide (weights.minEnterConfidence < confidence)
  { enterLong := enter && classifier.readyLong
    enterShort := enter && classifier.readyShort
    wait := !enter && decide (weights.minWaitProbability < classifier.reversalProbability) &&
      edgeGate && competitionGate
    score := score
    confidence := confidence
    expectedEdge := expectedEdge }

end EntryScoring

end RealTimeTrading.Rtts
