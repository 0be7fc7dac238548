/-
RealTimeTrading.Rtts.Accounting.EdgeValidation — `edge_validation.rs`: the
rolling windows of what trades were expected to earn and did earn, and
the verdict drawn from them.

`f64::sqrt` is a parameter. A window is a list, oldest value first. The
`f64::INFINITY` of `coefficient_of_variation` is `⊤`. A `HashMap` is
iterated in no particular order, so `snapshot`, which picks one of the
regime memories, is given the order it meets them in.
-/
import RealTimeTrading.Rtts.ExecutionController
import Mathlib.Data.List.Sort
import Mathlib.Order.WithBot
import Mathlib.Tactic.NormNum

namespace RealTimeTrading.Rtts.EdgeValidation

/-! ## Constants and records -/

def defaultWindow : Nat := 128

def minValidationSamples : Nat := 24

def noiseFloor : ℚ := 1e-4

/-- `std::f64::consts::LN_2`. -/
def ln2 : ℚ := 0.693147180559945309417232121458

inductive EdgeRegime where
  | stable
  | decaying
  | unstable
  deriving DecidableEq, Repr

structure EdgeValidationSnapshot where
  edgeState : EdgeState
  edgeRegime : EdgeRegime
  competitionState : CompetitionState
  tStatistic : ℚ
  ksStatistic : ℚ
  edgeReliabilityScore : ℚ
  sharpeLike : ℚ
  edgeHalfLifeSamples : ℚ
  edgeErrorMean : ℚ
  edgeErrorVariance : ℚ
  edgeErrorSkew : ℚ
  edgeCaptureMean : ℚ
  edgeCaptureVariance : ℚ
  negativeCaptureStreak : Nat
  executionAlphaMean : ℚ
  executionAlphaVariance : ℚ
  confidenceIntervalLow : ℚ
  confidenceIntervalHigh : ℚ
  competitionScore : ℚ
  edgeComponentMean : ℚ
  executionLossMean : ℚ
  feesRebatesMean : ℚ
  adverseSelectionLossMean : ℚ
  regimeReliability : ℚ
  regimePnlMean : ℚ
  regimeExecutionQuality : ℚ
  sampleCount : Nat
  positionSizeMultiplier : ℚ
  tradingEnabled : Bool
  deriving DecidableEq, Repr

structure RegimeMemory where
  reliabilityEwma : ℚ := 0
  pnlEwma : ℚ := 0
  executionQualityEwma : ℚ := 0
  captureEwma : ℚ := 0
  sampleCount : Nat := 0
  deriving DecidableEq, Repr

def ewma (current value alpha : ℚ) : ℚ := current * (1 - alpha) + value * alpha

def RegimeMemory.update (reliability pnl executionQuality capture : ℚ) (memory : RegimeMemory) :
    RegimeMemory :=
  if memory.sampleCount = 0 then
    { reliabilityEwma := reliability
      pnlEwma := pnl
      executionQualityEwma := executionQuality
      captureEwma := capture
      sampleCount := saturatingAddUsize memory.sampleCount 1 }
  else
    { reliabilityEwma := ewma memory.reliabilityEwma reliability 0.08
      pnlEwma := ewma memory.pnlEwma pnl 0.08
      executionQualityEwma := ewma memory.executionQualityEwma executionQuality 0.08
      captureEwma := ewma memory.captureEwma capture 0.08
      sampleCount := saturatingAddUsize memory.sampleCount 1 }

/-! ## Windows -/

/-- `push_capped` and `push_state_capped`: a full window drops its oldest value. -/
def pushCapped {A : Type} (queue : List A) (value : A) (capacity : Nat) : List A :=
  (if queue.length = capacity then queue.tail else queue) ++ [value]

def filterNoise (value : ℚ) : ℚ := if |value| ≤ noiseFloor then 0 else value

def mean (values : List ℚ) : ℚ := if values = [] then 0 else values.sum / values.length

structure Moments where
  mean : ℚ := 0
  variance : ℚ := 0
  skew : ℚ := 0
  deriving DecidableEq, Repr

def rollingMoments (sqrt : ℚ → ℚ) (values : List ℚ) : Moments :=
  if values = [] then {}
  else
    let n : ℚ := values.length
    let mean := mean values
    let m2 := (values.map fun value => (value - mean) * (value - mean)).sum
    let m3 := (values.map fun value => (value - mean) * (value - mean) * (value - mean)).sum
    let variance := if 1 < values.length then m2 / (n - 1) else 0
    let skew := if variance ≤ epsilon then 0 else m3 / n / sqrt variance ^ 3
    { mean := mean, variance := variance, skew := skew }

def rollingSharpeLike (sqrt : ℚ → ℚ) (values : List ℚ) : ℚ :=
  let moments := rollingMoments sqrt values
  if moments.variance ≤ epsilon then 0 else moments.mean / sqrt moments.variance

def oneSampleTStatistic (sqrt : ℚ → ℚ) (values : List ℚ) : ℚ :=
  let moments := rollingMoments sqrt values
  if values.length < 2 then 0
  else if moments.variance ≤ epsilon then
    if 0 < moments.mean then 10 else if moments.mean < 0 then -10 else 0
  else moments.mean / (sqrt moments.variance / sqrt values.length)

def confidenceInterval (sqrt : ℚ → ℚ) (values : List ℚ) : ℚ × ℚ :=
  let moments := rollingMoments sqrt values
  if values = [] then (0, 0)
  else
    let margin := 1.96 * sqrt moments.variance / sqrt values.length
    (moments.mean - margin, moments.mean + margin)

def estimateHalfLife (expected realized : List ℚ) : ℚ :=
  if expected = [] ∨ realized = [] then 0
  else
    let ratio := if noiseFloor < |mean expected| then |mean realized / mean expected| else 0
    if ratio ≤ epsilon then 0
    else
      let decay := max (1 - clamp ratio 0 0.999) 0.001
      clamp (ln2 / decay) 1 (expected.length * 2)

theorem length_dropWhile_lt {A : Type} {p : A → Bool} {a : A} (rest : List A) (h : p a = true) :
    ((a :: rest).dropWhile p).length < (a :: rest).length := by
  rw [List.dropWhile_cons_of_pos h]
  exact Nat.lt_succ_of_le (rest.dropWhile_sublist p).length_le

/-- The loop of `ks_statistic`: `i` of `n` and `j` of `m` values are behind the
two cursors, and the rest is still sorted. -/
def ksLoop (n m : Nat) (i j : Nat) : List ℚ → List ℚ → ℚ → ℚ
  | e :: es, r :: rs, maxDistance =>
    let value := min e r
    let expected := (e :: es).dropWhile fun v => decide (v ≤ value)
    let realized := (r :: rs).dropWhile fun v => decide (v ≤ value)
    let i := i + ((e :: es).length - expected.length)
    let j := j + ((r :: rs).length - realized.length)
    ksLoop n m i j expected realized (max maxDistance |(i : ℚ) / n - (j : ℚ) / m|)
  | _, _, maxDistance => maxDistance
termination_by expected realized => expected.length + realized.length
decreasing_by
  have hexpected := ((e :: es).dropWhile_sublist fun v => decide (v ≤ min e r)).length_le
  have hrealized := ((r :: rs).dropWhile_sublist fun v => decide (v ≤ min e r)).length_le
  rcases le_total e r with h | h
  · have hshorter : ((e :: es).dropWhile fun v => decide (v ≤ min e r)).length < (e :: es).length :=
      length_dropWhile_lt es (by simp [h])
    omega
  · have hshorter : ((r :: rs).dropWhile fun v => decide (v ≤ min e r)).length < (r :: rs).length :=
      length_dropWhile_lt rs (by simp [h])
    omega

def ksStatistic (expected realized : List ℚ) : ℚ :=
  if expected = [] ∨ realized = [] then 0
  else
    ksLoop expected.length realized.length 0 0 (expected.mergeSort fun a b => decide (a ≤ b))
      (realized.mergeSort fun a b => decide (a ≤ b)) 0

/-- `f64::INFINITY` when the mean is as good as zero. -/
def coefficientOfVariation (sqrt : ℚ → ℚ) (values : List ℚ) : WithTop ℚ :=
  let moments := rollingMoments sqrt values
  if |moments.mean| ≤ noiseFloor then ⊤
  else ((sqrt moments.variance / |moments.mean| : ℚ) : WithTop ℚ)

/-! ## Scores -/

def competitionScore (sqrt : ℚ → ℚ) (expectedEdges fillRates slippages outbidFlags : List ℚ) : ℚ :=
  let edgeMean := max (mean expectedEdges) 0
  let stableSignal := coefficientOfVariation sqrt expectedEdges < 1
  let highEdgePressure := clamp (edgeMean / 4) 0 1
  let fillPenalty := clamp (1 - mean fillRates) 0 1
  let outbidPenalty := clamp (mean outbidFlags) 0 1
  let stableSlippagePenalty :=
    if stableSignal then clamp (mean slippages / 12) 0 1 else clamp (mean slippages / 20) 0 1
  clamp (0.25 * highEdgePressure + 0.30 * fillPenalty + 0.25 * outbidPenalty
    + 0.20 * stableSlippagePenalty) 0 1

def reliabilityScore (edgeErrorMean edgeErrorVariance edgeErrorSkew sharpeLike captureMean
    competitionScore failureEma : ℚ) : ℚ :=
  let meanPenalty := clamp (|edgeErrorMean| / 10) 0 1
  let variancePenalty := clamp (edgeErrorVariance / 25) 0 1
  let skewPenalty := clamp (|edgeErrorSkew| / 4) 0 1
  let sharpeBonus := clamp ((sharpeLike + 1) / 3) 0 1
  let captureBonus := clamp ((captureMean + 0.5) / 1.5) 0 1
  let competitionPenalty := clamp competitionScore 0 1
  clamp ((0.40 * (1 - meanPenalty) + 0.18 * (1 - variancePenalty) + 0.07 * (1 - skewPenalty)
    + 0.20 * sharpeBonus + 0.10 * captureBonus - 0.15 * competitionPenalty)
    * (1 - clamp failureEma 0 0.95 * 0.35)) 0 1

def executionQuality (fillRate slippageBps competitionScore : ℚ) : ℚ :=
  clamp (0.50 * clamp fillRate 0 1 + 0.30 * (1 - clamp (|slippageBps| / 15) 0 1)
    + 0.20 * (1 - clamp competitionScore 0 1)) 0 1

def regimeBucket (regime : MarketRegime) : String :=
  if 10 < regime.spread then "wide_spread"
  else if 2.5 < regime.volatility then "high_vol"
  else if 1.5 < regime.trendStrength then "trending"
  else "normal"

/-! ## Classification -/

def classifyState (sampleCount minSamples : Nat) (tStatistic ksStatistic edgeErrorMean
    confidenceIntervalLow captureMean : ℚ) (negativeCaptureStreak : Nat) (reliability : ℚ) :
    EdgeState :=
  if sampleCount < minSamples then .uncertain
  else if 6 ≤ negativeCaptureStreak ∨ captureMean < -0.10 ∨
      (confidenceIntervalLow < 0 ∧ tStatistic < 0) ∨
      (0.72 < ksStatistic ∧ captureMean < 0.05 ∧ reliability < 0.50 ∧ 0.25 < |edgeErrorMean|) ∨
      reliability < 0.28 then .invalid
  else if 1.30 < tStatistic ∧ 0 < confidenceIntervalLow ∧
      (ksStatistic < 0.45 ∨ (0.75 < captureMean ∧ |edgeErrorMean| < 0.25 ∧ 0.75 < reliability)) ∧
      0.15 < captureMean ∧ 0.55 < reliability then .valid
  else .uncertain

def classifyRegime (reliability halfLife ksStatistic captureMean : ℚ) : EdgeRegime :=
  if reliability < 0.35 ∨ 0.70 < ksStatistic ∨ captureMean < 0 then .unstable
  else if halfLife < 16 ∨ reliability < 0.60 ∨ 0.45 < ksStatistic then .decaying
  else .stable

def classifyCompetition (score : ℚ) (fillRates : List ℚ) (negativeCaptureStreak : Nat) :
    CompetitionState :=
  let fillMean := mean fillRates
  if 0.75 ≤ score ∨ fillMean < 0.35 ∨ 8 ≤ negativeCaptureStreak then .saturated
  else if 0.45 ≤ score ∨ fillMean < 0.60 then .competitive
  else .normal

def dynamicPositionSizeMultiplier (edgeReliabilityScore : ℚ) (edgeState : EdgeState)
    (edgeRegime : EdgeRegime) (drawdownPct : ℚ) : ℚ :=
  let stateFactor : ℚ :=
    match edgeState with
    | .valid => 1
    | .uncertain => 0.65
    | .invalid => 0
  let regimeFactor : ℚ :=
    match edgeRegime with
    | .stable => 1
    | .decaying => 0.75
    | .unstable => 0.40
  let drawdownFactor := clamp (1 - drawdownPct * 1.35) 0 1
  clamp (clamp edgeReliabilityScore 0 1 * stateFactor * regimeFactor * drawdownFactor) 0 1

def positionSizeMultiplier (reliability : ℚ) (state : EdgeState) (regime : EdgeRegime)
    (competitionState : CompetitionState) (drawdownPct : ℚ) (regimeMemory : RegimeMemory) : ℚ :=
  let competitionFactor : ℚ :=
    match competitionState with
    | .normal => 1
    | .competitive => 0.65
    | .saturated => 0
  let regimeMemoryFactor :=
    if 8 ≤ regimeMemory.sampleCount then
      clamp (0.65 + regimeMemory.reliabilityEwma * 0.20 + regimeMemory.executionQualityEwma * 0.10
        + max regimeMemory.captureEwma 0 * 0.05) 0.35 1.10
    else 0.85
  clamp (dynamicPositionSizeMultiplier reliability state regime drawdownPct * competitionFactor
    * regimeMemoryFactor) 0 1.25

theorem dynamicPositionSizeMultiplier_invalid (edgeReliabilityScore : ℚ) (edgeRegime : EdgeRegime)
    (drawdownPct : ℚ) :
    dynamicPositionSizeMultiplier edgeReliabilityScore .invalid edgeRegime drawdownPct = 0 := by
  unfold dynamicPositionSizeMultiplier
  dsimp only
  rw [mul_zero, zero_mul, zero_mul, clamp_of_mem le_rfl zero_le_one]

/-! ## The engine -/

structure EdgeValidationEngine where
  capacity : Nat
  minSamples : Nat := minValidationSamples
  expectedEdges : List ℚ := []
  realizedMarkouts : List ℚ := []
  realizedPnls : List ℚ := []
  adjustedReturns : List ℚ := []
  edgeErrors : List ℚ := []
  captureRatios : List ℚ := []
  executionAlphas : List ℚ := []
  fillRates : List ℚ := []
  slippages : List ℚ := []
  outbidFlags : List ℚ := []
  edgeComponents : List ℚ := []
  executionLosses : List ℚ := []
  feesRebates : List ℚ := []
  adverseSelectionLosses : List ℚ := []
  competitionStates : List CompetitionState := []
  negativeCaptureStreak : Nat := 0
  regimeMemory : HashMap String RegimeMemory := ∅
  failureEma : ℚ := 0

namespace EdgeValidationEngine

def new (window : Nat) : EdgeValidationEngine := { capacity := max window 32 }

/-- `EdgeValidationEngine::default`. -/
def defaultEngine : EdgeValidationEngine := new defaultWindow

def severity : ExecutionFailureReason → ℚ
  | .queueTooDeep => 0.35
  | .outbid => 0.55
  | .latencyTooHigh => 0.65
  | .competitionSpike => 0.80
  | .liquidityPull => 0.70
  | .noFillTimeout => 0.75

def observeFailure (reason : ExecutionFailureReason) (engine : EdgeValidationEngine) :
    EdgeValidationEngine :=
  { engine with failureEma := ewma engine.failureEma (severity reason) 0.18 }

/-- The first half of `observe`: the windows and the streak, with the noise-filtered
profit and the capture ratio the rest of it goes on with. -/
def record (sample : LearningSample) (engine : EdgeValidationEngine) :
    (ℚ × ℚ) × EdgeValidationEngine :=
  let expectedEdge := filterNoise sample.expectedMarkout
  let realizedMarkout := filterNoise sample.realizedMarkout
  let realizedPnl := filterNoise sample.pnl
  let edgeError := expectedEdge - realizedMarkout
  let captureRatio :=
    if noiseFloor < |expectedEdge| then clamp (realizedPnl / expectedEdge) (-5) 5 else 0
  let adjustedReturn :=
    realizedPnl - |sample.actualSlippageBps| * 0.20 - (sample.durationMs : ℚ) * 0.0005
  let push (queue : List ℚ) (value : ℚ) : List ℚ := pushCapped queue value engine.capacity
  ((realizedPnl, captureRatio), { engine with
    expectedEdges := push engine.expectedEdges expectedEdge
    realizedMarkouts := push engine.realizedMarkouts realizedMarkout
    realizedPnls := push engine.realizedPnls realizedPnl
    adjustedReturns := push engine.adjustedReturns adjustedReturn
    edgeErrors := push engine.edgeErrors edgeError
    captureRatios := push engine.captureRatios captureRatio
    executionAlphas := push engine.executionAlphas (filterNoise sample.executionAlpha)
    fillRates := push engine.fillRates (clamp sample.fillRatio 0 1)
    slippages := push engine.slippages (max sample.actualSlippageBps 0)
    outbidFlags := push engine.outbidFlags
      (match sample.competitionState with
        | .competitive | .saturated => 1
        | .normal => 0)
    edgeComponents := push engine.edgeComponents sample.edgeComponent
    executionLosses := push engine.executionLosses (max sample.executionLoss 0)
    feesRebates := push engine.feesRebates sample.feesRebatesComponent
    adverseSelectionLosses :=
      push engine.adverseSelectionLosses (max sample.adverseSelectionLoss 0)
    competitionStates :=
      pushCapped engine.competitionStates sample.competitionState engine.capacity
    negativeCaptureStreak :=
      if captureRatio < -0.05 then saturatingAddUsize engine.negativeCaptureStreak 1
      else engine.negativeCaptureStreak - 1 })

/-! ### The verdict

`observe` and `snapshot` compute the same quantities from the windows, and
then a record that names a regime memory. -/

variable (sqrt : ℚ → ℚ) (engine : EdgeValidationEngine)

def competitionScore : ℚ :=
  EdgeValidation.competitionScore sqrt engine.expectedEdges engine.fillRates engine.slippages
    engine.outbidFlags

def competitionState : CompetitionState :=
  classifyCompetition (engine.competitionScore sqrt) engine.fillRates engine.negativeCaptureStreak

def reliability : ℚ :=
  let moments := rollingMoments sqrt engine.edgeErrors
  let captureMoments := rollingMoments sqrt engine.captureRatios
  let executionAlphaMoments := rollingMoments sqrt engine.executionAlphas
  reliabilityScore moments.mean moments.variance moments.skew
    (rollingSharpeLike sqrt engine.adjustedReturns)
    (captureMoments.mean
      + signum executionAlphaMoments.mean * min |executionAlphaMoments.mean| 1 * 0.15)
    (engine.competitionScore sqrt) engine.failureEma

def edgeRegime : EdgeRegime :=
  classifyRegime (engine.reliability sqrt)
    (estimateHalfLife engine.expectedEdges engine.realizedMarkouts)
    (ksStatistic engine.expectedEdges engine.realizedMarkouts)
    (rollingMoments sqrt engine.captureRatios).mean

def edgeState : EdgeState :=
  classifyState engine.realizedPnls.length engine.minSamples
    (oneSampleTStatistic sqrt engine.realizedPnls)
    (ksStatistic engine.expectedEdges engine.realizedMarkouts)
    (rollingMoments sqrt engine.edgeErrors).mean
    (confidenceInterval sqrt engine.realizedPnls).1
    (rollingMoments sqrt engine.captureRatios).mean engine.negativeCaptureStreak
    (engine.reliability sqrt)

/-- The record both functions end with. -/
def snapshotWith (regimeMemory : RegimeMemory) (drawdownPct : ℚ) : EdgeValidationSnapshot :=
  let moments := rollingMoments sqrt engine.edgeErrors
  let captureMoments := rollingMoments sqrt engine.captureRatios
  let executionAlphaMoments := rollingMoments sqrt engine.executionAlphas
  let interval := confidenceInterval sqrt engine.realizedPnls
  { edgeState := engine.edgeState sqrt
    edgeRegime := engine.edgeRegime sqrt
    competitionState := engine.competitionState sqrt
    tStatistic := oneSampleTStatistic sqrt engine.realizedPnls
    ksStatistic := ksStatistic engine.expectedEdges engine.realizedMarkouts
    edgeReliabilityScore := engine.reliability sqrt
    sharpeLike := rollingSharpeLike sqrt engine.adjustedReturns
    edgeHalfLifeSamples := estimateHalfLife engine.expectedEdges engine.realizedMarkouts
    edgeErrorMean := moments.mean
    edgeErrorVariance := moments.variance
    edgeErrorSkew := moments.skew
    edgeCaptureMean := captureMoments.mean
    edgeCaptureVariance := captureMoments.variance
    negativeCaptureStreak := engine.negativeCaptureStreak
    executionAlphaMean := executionAlphaMoments.mean
    executionAlphaVariance := executionAlphaMoments.variance
    confidenceIntervalLow := interval.1
    confidenceIntervalHigh := interval.2
    competitionScore := engine.competitionScore sqrt
    edgeComponentMean := mean engine.edgeComponents
    executionLossMean := mean engine.executionLosses
    feesRebatesMean := mean engine.feesRebates
    adverseSelectionLossMean := mean engine.adverseSelectionLosses
    regimeReliability := regimeMemory.reliabilityEwma
    regimePnlMean := regimeMemory.pnlEwma
    regimeExecutionQuality := regimeMemory.executionQualityEwma
    sampleCount := engine.realizedPnls.length
    positionSizeMultiplier :=
      positionSizeMultiplier (engine.reliability sqrt) (engine.edgeState sqrt)
        (engine.edgeRegime sqrt) (engine.competitionState sqrt) drawdownPct regimeMemory
    tradingEnabled :=
      decide (engine.edgeState sqrt ≠ .invalid) &&
        decide (engine.competitionState sqrt ≠ .saturated) }

/-- The second half of `observe` updates the memory of the sample's regime. -/
def observe (sample : LearningSample) (drawdownPct : ℚ) :
    EdgeValidationSnapshot × EdgeValidationEngine :=
  let ((realizedPnl, captureRatio), engine) := engine.record sample
  let regimeKey := regimeBucket sample.regime
  let quality :=
    executionQuality sample.fillRatio sample.actualSlippageBps (engine.competitionScore sqrt)
  let regimeMemory := ((engine.regimeMemory.lookup regimeKey).getD {}).update
    (engine.reliability sqrt) realizedPnl quality captureRatio
  let engine :=
    { engine with regimeMemory := engine.regimeMemory.insert regimeKey regimeMemory }
  (engine.snapshotWith sqrt regimeMemory drawdownPct, engine)

/-- `max_by_key` of the sample counts, the last one met among the largest, if any. -/
def busiest (met : List RegimeMemory) : RegimeMemory :=
  (met.foldl (fun best memory =>
    match best with
    | none => some memory
    | some b => if b.sampleCount ≤ memory.sampleCount then some memory else some b) none).getD {}

/-- `met` is the order in which `regime_memory.values()` lists the memories. -/
def snapshot (met : List RegimeMemory) (drawdownPct : ℚ) : EdgeValidationSnapshot :=
  engine.snapshotWith sqrt (busiest met) drawdownPct

end EdgeValidationEngine

end RealTimeTrading.Rtts.EdgeValidation
