/-
RealTimeTrading.Rtts.Floating.EdgeValidation — `edge_validation.rs` over `f64`.

Sums overflow and what is not a number spreads here, from the markouts and
the drawdown to the size factor. `f64::sqrt` is a parameter. `total_cmp`
sorts a NaN by its sign, which a `F64` does not have, so how many of a
window's NaNs are negative is one too. Where two windows both hold a NaN the
loop of `ks_statistic` may not end, and then neither does the call: `none`.
-/
import RealTimeTrading.Data.Binary64
import RealTimeTrading.Rtts.Accounting.EdgeValidation
import RealTimeTrading.Rtts.Floating.Frame

namespace RealTimeTrading.Rtts.Floating

open Data (F64)

structure LearningSample where
  actualSlippageBps : F64
  pnl : F64
  expectedMarkout : F64
  realizedMarkout : F64
  executionAlpha : F64
  fillRatio : F64
  edgeComponent : F64
  executionLoss : F64
  feesRebatesComponent : F64
  adverseSelectionLoss : F64
  competitionState : CompetitionState
  durationMs : Nat
  regime : MarketRegime

namespace EdgeValidation

open RealTimeTrading.Rtts.EdgeValidation (EdgeRegime minValidationSamples pushCapped)

/-! ## Constants and records -/

def noiseFloor : F64 := 1e-4

/-- `std::f64::consts::LN_2`. -/
def ln2 : F64 := 0.693147180559945309417232121458

structure EdgeValidationSnapshot where
  edgeState : EdgeState
  edgeRegime : EdgeRegime
  competitionState : CompetitionState
  tStatistic : F64
  ksStatistic : F64
  edgeReliabilityScore : F64
  sharpeLike : F64
  edgeHalfLifeSamples : F64
  edgeErrorMean : F64
  edgeErrorVariance : F64
  edgeErrorSkew : F64
  edgeCaptureMean : F64
  edgeCaptureVariance : F64
  negativeCaptureStreak : Nat
  executionAlphaMean : F64
  executionAlphaVariance : F64
  confidenceIntervalLow : F64
  confidenceIntervalHigh : F64
  competitionScore : F64
  edgeComponentMean : F64
  executionLossMean : F64
  feesRebatesMean : F64
  adverseSelectionLossMean : F64
  regimeReliability : F64
  regimePnlMean : F64
  regimeExecutionQuality : F64
  sampleCount : Nat
  positionSizeMultiplier : F64
  tradingEnabled : Bool

structure RegimeMemory where
  reliabilityEwma : F64 := 0
  pnlEwma : F64 := 0
  executionQualityEwma : F64 := 0
  captureEwma : F64 := 0
  sampleCount : Nat := 0

def ewma (current value alpha : F64) : F64 := current * (1 - alpha) + value * alpha

def RegimeMemory.update (reliability pnl executionQuality capture : F64) (memory : RegimeMemory) :
    RegimeMemory :=
  if memory.sampleCount = 0 then
    { reliabilityEwma := reliability
      pnlEwma := pnl
      executionQualityEwma := executionQuality
      captureEwma := capture
      sampleCount := saturatingAddUsize memory.sampleCount 1 }
  else
    { reliabilityEwma := ewma memory.reliabilityEwma reliability 0.08
      pnlEwma := ewma memory.pnlEwma pnl 0.08
      executionQualityEwma := ewma memory.executionQualityEwma executionQuality 0.08
      captureEwma := ewma memory.captureEwma capture 0.08
      sampleCount := saturatingAddUsize memory.sampleCount 1 }

/-! ## Windows -/

def filterNoise (value : F64) : F64 := if value.abs ≤ noiseFloor then 0 else value

def mean (values : List F64) : F64 := if values = [] then 0 else F64.sum values / values.length

structure Moments where
  mean : F64 := 0
  variance : F64 := 0
  skew : F64 := 0

def rollingMoments (sqrt : F64 → F64) (values : List F64) : Moments :=
  if values = [] then {}
  else
    let n : F64 := values.length
    let mean := mean values
    let m2 := F64.sum (values.map fun value => (value - mean) * (value - mean))
    let m3 := F64.sum (values.map fun value => (value - mean) * (value - mean) * (value - mean))
    let variance := if 1 < values.length then m2 / (n - 1) else 0
    let deviation := sqrt variance
    let skew :=
      if variance ≤ F64.epsilon then 0 else m3 / n / (deviation * deviation * deviation)
    { mean := mean, variance := variance, skew := skew }

def rollingSharpeLike (sqrt : F64 → F64) (values : List F64) : F64 :=
  let moments := rollingMoments sqrt values
  if moments.variance ≤ F64.epsilon then 0 else moments.mean / sqrt moments.variance

def oneSampleTStatistic (sqrt : F64 → F64) (values : List F64) : F64 :=
  let moments := rollingMoments sqrt values
  if values.length < 2 then 0
  else if moments.variance ≤ F64.epsilon then
    if 0 < moments.mean then 10 else if moments.mean < 0 then -10 else 0
  else moments.mean / (sqrt moments.variance / sqrt values.length)

def confidenceInterval (sqrt : F64 → F64) (values : List F64) : F64 × F64 :=
  let moments := rollingMoments sqrt values
  if values = [] then (0, 0)
  else
    let margin := 1.96 * sqrt moments.variance / sqrt values.length
    (moments.mean - margin, moments.mean + margin)

def estimateHalfLife (expected realized : List F64) : F64 :=
  if expected = [] ∨ realized = [] then 0
  else
    let ratio :=
      if noiseFloor < (mean expected).abs then (mean realized / mean expected).abs else 0
    if ratio ≤ F64.epsilon then 0
    else
      let decay := max (1 - ratio.clamp 0 0.999) 0.001
      (ln2 / decay).clamp 1 (expected.length * 2)

/-- `sort_by(f64::total_cmp)`, of a list with this many negative NaNs. -/
def totalSort (negativeNans : Nat) (values : List F64) : List F64 :=
  let nans := values.filter fun v => decide (v = .nan)
  nans.take negativeNans ++
    (values.filter fun v => decide (v ≠ .nan)).mergeSort (fun a b => decide (a ≤ b)) ++
    nans.drop negativeNans

/-- The loop of `ks_statistic`: `i` of `n` and `j` of `m` values are behind the
two cursors. It turns on the spot where neither of them moves. -/
def ksLoop (n m : Nat) (i j : Nat) : List F64 → List F64 → F64 → Option F64
  | e :: es, r :: rs, maxDistance =>
    let value := min e r
    let expected := (e :: es).dropWhile fun v => decide (v ≤ value)
    let realized := (r :: rs).dropWhile fun v => decide (v ≤ value)
    let i := i + ((e :: es).length - expected.length)
    let j := j + ((r :: rs).length - realized.length)
    if _h : expected.length + realized.length < (e :: es).length + (r :: rs).length then
      ksLoop n m i j expected realized (max maxDistance ((i : F64) / n - (j : F64) / m).abs)
    else none
  | _, _, maxDistance => some maxDistance
termination_by expected realized => expected.length + realized.length

def ksStatistic (negativeNans : List F64 → Nat) (expected realized : List F64) : Option F64 :=
  if expected = [] ∨ realized = [] then some 0
  else
    ksLoop expected.length realized.length 0 0 (totalSort (negativeNans expected) expected)
      (totalSort (negativeNans realized) realized) 0

def coefficientOfVariation (sqrt : F64 → F64) (values : List F64) : F64 :=
  let moments := rollingMoments sqrt values
  if moments.mean.abs ≤ noiseFloor then .posInf else sqrt moments.variance / moments.mean.abs

/-! ## Scores -/

def competitionScore (sqrt : F64 → F64) (expectedEdges fillRates slippages outbidFlags : List F64) :
    F64 :=
  let edgeMean := max (mean expectedEdges) 0
  let stableSignal := coefficientOfVariation sqrt expectedEdges < 1
  let highEdgePressure := F64.clamp (edgeMean / 4) 0 1
  let fillPenalty := F64.clamp (1 - mean fillRates) 0 1
  let outbidPenalty := F64.clamp (mean outbidFlags) 0 1
  let stableSlippagePenalty :=
    if stableSignal then F64.clamp (mean slippages / 12) 0 1
    else F64.clamp (mean slippages / 20) 0 1
  F64.clamp (0.25 * highEdgePressure + 0.30 * fillPenalty + 0.25 * outbidPenalty
    + 0.20 * stableSlippagePenalty) 0 1

def reliabilityScore (edgeErrorMean edgeErrorVariance edgeErrorSkew sharpeLike captureMean
    competitionScore failureEma : F64) : F64 :=
  let meanPenalty := F64.clamp (edgeErrorMean.abs / 10) 0 1
  let variancePenalty := F64.clamp (edgeErrorVariance / 25) 0 1
  let skewPenalty := F64.clamp (edgeErrorSkew.abs / 4) 0 1
  let sharpeBonus := F64.clamp ((sharpeLike + 1) / 3) 0 1
  let captureBonus := F64.clamp ((captureMean + 0.5) / 1.5) 0 1
  let competitionPenalty := F64.clamp competitionScore 0 1
  F64.clamp ((0.40 * (1 - meanPenalty) + 0.18 * (1 - variancePenalty) + 0.07 * (1 - skewPenalty)
    + 0.20 * sharpeBonus + 0.10 * captureBonus - 0.15 * competitionPenalty)
    * (1 - F64.clamp failureEma 0 0.95 * 0.35)) 0 1

def executionQuality (fillRate slippageBps competitionScore : F64) : F64 :=
  F64.clamp (0.50 * F64.clamp fillRate 0 1 + 0.30 * (1 - F64.clamp (slippageBps.abs / 15) 0 1)
    + 0.20 * (1 - F64.clamp competitionScore 0 1)) 0 1

def regimeBucket (regime : MarketRegime) : String :=
  if 10 < regime.spread then "wide_spread"
  else if 2.5 < regime.volatility then "high_vol"
  else if 1.5 < regime.trendStrength then "trending"
  else "normal"

/-! ## Classification -/

def classifyState (sampleCount minSamples : Nat) (tStatistic ksStatistic edgeErrorMean
    confidenceIntervalLow captureMean : F64) (negativeCaptureStreak : Nat) (reliability : F64) :
    EdgeState :=
  if sampleCount < minSamples then .uncertain
  else if 6 ≤ negativeCaptureStreak ∨ captureMean < -0.10 ∨
      (confidenceIntervalLow < 0 ∧ tStatistic < 0) ∨
      (0.72 < ksStatistic ∧ captureMean < 0.05 ∧ reliability < 0.50 ∧ 0.25 < edgeErrorMean.abs) ∨
      reliability < 0.28 then .invalid
  else if 1.30 < tStatistic ∧ 0 < confidenceIntervalLow ∧
      (ksStatistic < 0.45 ∨ (0.75 < captureMean ∧ edgeErrorMean.abs < 0.25 ∧ 0.75 < reliability)) ∧
      0.15 < captureMean ∧ 0.55 < reliability then .valid
  else .uncertain

def classifyRegime (reliability halfLife ksStatistic captureMean : F64) : EdgeRegime :=
  if reliability < 0.35 ∨ 0.70 < ksStatistic ∨ captureMean < 0 then .unstable
  else if halfLife < 16 ∨ reliability < 0.60 ∨ 0.45 < ksStatistic then .decaying
  else .stable

def classifyCompetition (score : F64) (fillRates : List F64) (negativeCaptureStreak : Nat) :
    CompetitionState :=
  let fillMean := mean fillRates
  if 0.75 ≤ score ∨ fillMean < 0.35 ∨ 8 ≤ negativeCaptureStreak then .saturated
  else if 0.45 ≤ score ∨ fillMean < 0.60 then .competitive
  else .normal

def dynamicPositionSizeMultiplier (edgeReliabilityScore : F64) (edgeState : EdgeState)
    (edgeRegime : EdgeRegime) (drawdownPct : F64) : F64 :=
  let stateFactor : F64 :=
    match edgeState with
    | .valid => 1
    | .uncertain => 0.65
    | .invalid => 0
  let regimeFactor : F64 :=
    match edgeRegime with
    | .stable => 1
    | .decaying => 0.75
    | .unstable => 0.40
  let drawdownFactor := F64.clamp (1 - drawdownPct * 1.35) 0 1
  F64.clamp (F64.clamp edgeReliabilityScore 0 1 * stateFactor * regimeFactor * drawdownFactor) 0 1

def positionSizeMultiplier (reliability : F64) (state : EdgeState) (regime : EdgeRegime)
    (competitionState : CompetitionState) (drawdownPct : F64) (regimeMemory : RegimeMemory) : F64 :=
  let competitionFactor : F64 :=
    match competitionState with
    | .normal => 1
    | .competitive => 0.65
    | .saturated => 0
  let regimeMemoryFactor :=
    if 8 ≤ regimeMemory.sampleCount then
      F64.clamp (0.65 + regimeMemory.reliabilityEwma * 0.20
        + regimeMemory.executionQualityEwma * 0.10 + max regimeMemory.captureEwma 0 * 0.05)
        0.35 1.10
    else 0.85
  F64.clamp (dynamicPositionSizeMultiplier reliability state regime drawdownPct * competitionFactor
    * regimeMemoryFactor) 0 1.25

/-! ## The engine -/

structure EdgeValidationEngine where
  capacity : Nat
  minSamples : Nat := minValidationSamples
  expectedEdges : List F64 := []
  realizedMarkouts : List F64 := []
  realizedPnls : List F64 := []
  adjustedReturns : List F64 := []
  edgeErrors : List F64 := []
  captureRatios : List F64 := []
  executionAlphas : List F64 := []
  fillRates : List F64 := []
  slippages : List F64 := []
  outbidFlags : List F64 := []
  edgeComponents : List F64 := []
  executionLosses : List F64 := []
  feesRebates : List F64 := []
  adverseSelectionLosses : List F64 := []
  competitionStates : List CompetitionState := []
  negativeCaptureStreak : Nat := 0
  regimeMemory : HashMap String RegimeMemory := ∅
  failureEma : F64 := 0

namespace EdgeValidationEngine

/-- A window is a `usize`. -/
def new (window : UInt64) : EdgeValidationEngine := { capacity := max window.toNat 32 }

def severity : ExecutionFailureReason → F64
  | .queueTooDeep => 0.35
  | .outbid => 0.55
  | .latencyTooHigh => 0.65
  | .competitionSpike => 0.80
  | .liquidityPull => 0.70
  | .noFillTimeout => 0.75

def observeFailure (reason : ExecutionFailureReason) (engine : EdgeValidationEngine) :
    EdgeValidationEngine :=
  { engine with failureEma := ewma engine.failureEma (severity reason) 0.18 }

/-- The first half of `observe`: the windows and the streak, with the noise-filtered
profit and the capture ratio the rest of it goes on with. -/
def record (sample : LearningSample) (engine : EdgeValidationEngine) :
    (F64 × F64) × EdgeValidationEngine :=
  let expectedEdge := filterNoise sample.expectedMarkout
  let realizedMarkout := filterNoise sample.realizedMarkout
  let realizedPnl := filterNoise sample.pnl
  let edgeError := expectedEdge - realizedMarkout
  let captureRatio :=
    if noiseFloor < expectedEdge.abs then F64.clamp (realizedPnl / expectedEdge) (-5) 5 else 0
  let adjustedReturn :=
    realizedPnl - sample.actualSlippageBps.abs * 0.20 - (sample.durationMs : F64) * 0.0005
  let push (queue : List F64) (value : F64) : List F64 := pushCapped queue value engine.capacity
  ((realizedPnl, captureRatio), { engine with
    expectedEdges := push engine.expectedEdges expectedEdge
    realizedMarkouts := push engine.realizedMarkouts realizedMarkout
    realizedPnls := push engine.realizedPnls realizedPnl
    adjustedReturns := push engine.adjustedReturns adjustedReturn
    edgeErrors := push engine.edgeErrors edgeError
    captureRatios := push engine.captureRatios captureRatio
    executionAlphas := push engine.executionAlphas (filterNoise sample.executionAlpha)
    fillRates := push engine.fillRates (F64.clamp sample.fillRatio 0 1)
    slippages := push engine.slippages (max sample.actualSlippageBps 0)
    outbidFlags := push engine.outbidFlags
      (match sample.competitionState with
        | .competitive | .saturated => 1
        | .normal => 0)
    edgeComponents := push engine.edgeComponents sample.edgeComponent
    executionLosses := push engine.executionLosses (max sample.executionLoss 0)
    feesRebates := push engine.feesRebates sample.feesRebatesComponent
    adverseSelectionLosses :=
      push engine.adverseSelectionLosses (max sample.adverseSelectionLoss 0)
    competitionStates :=
      pushCapped engine.competitionStates sample.competitionState engine.capacity
    negativeCaptureStreak :=
      if captureRatio < -0.05 then saturatingAddUsize engine.negativeCaptureStreak 1
      else engine.negativeCaptureStreak - 1 })

/-! ### The verdict

`observe` and `snapshot` compute the same quantities from the windows, and
then a record that names a regime memory. -/

variable (sqrt : F64 → F64) (negativeNans : List F64 → Nat) (engine : EdgeValidationEngine)

def competitionScore : F64 :=
  EdgeValidation.competitionScore sqrt engine.expectedEdges engine.fillRates engine.slippages
    engine.outbidFlags

def competitionState : CompetitionState :=
  classifyCompetition (engine.competitionScore sqrt) engine.fillRates engine.negativeCaptureStreak

def reliability : F64 :=
  let moments := rollingMoments sqrt engine.edgeErrors
  let captureMoments := rollingMoments sqrt engine.captureRatios
  let executionAlphaMoments := rollingMoments sqrt engine.executionAlphas
  reliabilityScore moments.mean moments.variance moments.skew
    (rollingSharpeLike sqrt engine.adjustedReturns)
    (captureMoments.mean
      + F64.signum executionAlphaMoments.mean * min executionAlphaMoments.mean.abs 1 * 0.15)
    (engine.competitionScore sqrt) engine.failureEma

/-- `ks_statistic`, if its loop ends. -/
def ks : Option F64 := ksStatistic negativeNans engine.expectedEdges engine.realizedMarkouts

def edgeRegime (ks : F64) : EdgeRegime :=
  classifyRegime (engine.reliability sqrt)
    (estimateHalfLife engine.expectedEdges engine.realizedMarkouts) ks
    (rollingMoments sqrt engine.captureRatios).mean

def edgeState (ks : F64) : EdgeState :=
  classifyState engine.realizedPnls.length engine.minSamples
    (oneSampleTStatistic sqrt engine.realizedPnls) ks
    (rollingMoments sqrt engine.edgeErrors).mean
    (confidenceInterval sqrt engine.realizedPnls).1
    (rollingMoments sqrt engine.captureRatios).mean engine.negativeCaptureStreak
    (engine.reliability sqrt)

/-- The record both functions end with. -/
def snapshotWith (ks : F64) (regimeMemory : RegimeMemory) (drawdownPct : F64) :
    EdgeValidationSnapshot :=
  let moments := rollingMoments sqrt engine.edgeErrors
  let captureMoments := rollingMoments sqrt engine.captureRatios
  let executionAlphaMoments := rollingMoments sqrt engine.executionAlphas
  let interval := confidenceInterval sqrt engine.realizedPnls
  { edgeState := engine.edgeState sqrt ks
    edgeRegime := engine.edgeRegime sqrt ks
    competitionState := engine.competitionState sqrt
    tStatistic := oneSampleTStatistic sqrt engine.realizedPnls
    ksStatistic := ks
    edgeReliabilityScore := engine.reliability sqrt
    sharpeLike := rollingSharpeLike sqrt engine.adjustedReturns
    edgeHalfLifeSamples := estimateHalfLife engine.expectedEdges engine.realizedMarkouts
    edgeErrorMean := moments.mean
    edgeErrorVariance := moments.variance
    edgeErrorSkew := moments.skew
    edgeCaptureMean := captureMoments.mean
    edgeCaptureVariance := captureMoments.variance
    negativeCaptureStreak := engine.negativeCaptureStreak
    executionAlphaMean := executionAlphaMoments.mean
    executionAlphaVariance := executionAlphaMoments.variance
    confidenceIntervalLow := interval.1
    confidenceIntervalHigh := interval.2
    competitionScore := engine.competitionScore sqrt
    edgeComponentMean := mean engine.edgeComponents
    executionLossMean := mean engine.executionLosses
    feesRebatesMean := mean engine.feesRebates
    adverseSelectionLossMean := mean engine.adverseSelectionLosses
    regimeReliability := regimeMemory.reliabilityEwma
    regimePnlMean := regimeMemory.pnlEwma
    regimeExecutionQuality := regimeMemory.executionQualityEwma
    sampleCount := engine.realizedPnls.length
    positionSizeMultiplier :=
      positionSizeMultiplier (engine.reliability sqrt) (engine.edgeState sqrt ks)
        (engine.edgeRegime sqrt ks) (engine.competitionState sqrt) drawdownPct regimeMemory
    tradingEnabled :=
      decide (engine.edgeState sqrt ks ≠ .invalid) &&
        decide (engine.competitionState sqrt ≠ .saturated) }

/-- The memory of the sample's regime, as the second half of `observe` leaves it:
`engine` already holds the sample, whose profit and capture ratio these are. -/
def remembered (sample : LearningSample) (realizedPnl captureRatio : F64) : RegimeMemory :=
  ((engine.regimeMemory.lookup (regimeBucket sample.regime)).getD {}).update
    (engine.reliability sqrt) realizedPnl
    (executionQuality sample.fillRatio sample.actualSlippageBps (engine.competitionScore sqrt))
    captureRatio

def observe (sample : LearningSample) (drawdownPct : F64) :
    Option (EdgeValidationSnapshot × EdgeValidationEngine) :=
  let ((realizedPnl, captureRatio), engine) := engine.record sample
  (engine.ks negativeNans).map fun ks =>
    let regimeMemory := engine.remembered sqrt sample realizedPnl captureRatio
    (engine.snapshotWith sqrt ks regimeMemory drawdownPct,
      { engine with
        regimeMemory := engine.regimeMemory.insert (regimeBucket sample.regime) regimeMemory })

/-- `max_by_key` of the sample counts, the last one met among the largest, if any. -/
def busiest (met : List RegimeMemory) : RegimeMemory :=
  (met.foldl (fun best memory =>
    match best with
    | none => some memory
    | some b => if b.sampleCount ≤ memory.sampleCount then some memory else some b) none).getD {}

/-- `met` is the order in which `regime_memory.values()` lists the memories. -/
def snapshot (met : List RegimeMemory) (drawdownPct : F64) : Option EdgeValidationSnapshot :=
  (engine.ks negativeNans).map fun ks => engine.snapshotWith sqrt ks (busiest met) drawdownPct

end EdgeValidationEngine

end EdgeValidation

end RealTimeTrading.Rtts.Floating
