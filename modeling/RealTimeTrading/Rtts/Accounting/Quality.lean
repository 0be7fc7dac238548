/-
RealTimeTrading.Rtts.Accounting.Quality — `accounting/quality.rs`: the
running moments of the edge error, and the reports made of them.

`f64::sqrt` and `f64::powf` are parameters. The count saturates at the
largest `u64`.
-/
import RealTimeTrading.Rtts.Accounting.Latency

namespace RealTimeTrading.Rtts.Accounting

/-- `u64::saturating_add`. -/
def saturatingAddU64 (n k : Nat) : Nat := min (n + k) (2 ^ 64 - 1)

structure DistributionMoments where
  mean : ℚ := 0
  variance : ℚ := 0
  skew : ℚ := 0

structure DecisionQualityReport where
  expectedMarkout : ℚ
  realizedMarkout : ℚ
  edgeError : ℚ
  edgeErrorDistribution : DistributionMoments
  edgeReliabilityScore : ℚ
  tradingEnabled : Bool

structure ExecutionQualityReport where
  fillRate : ℚ
  slippage : ℚ
  outbidRate : ℚ
  latencyDistribution : LatencyDistributionSnapshot

def executionQualityReport (fillRate slippage outbidRate : ℚ)
    (latencyDistribution : LatencyDistributionSnapshot) : ExecutionQualityReport where
  fillRate := clamp fillRate 0 1
  slippage := slippage
  outbidRate := clamp outbidRate 0 1
  latencyDistribution := latencyDistribution

def DistributionMoments.reliabilityScore (moments : DistributionMoments) : ℚ :=
  let meanPenalty := clamp (|moments.mean| / 10) 0 1
  let variancePenalty := clamp (moments.variance / 25) 0 1
  let skewPenalty := clamp (|moments.skew| / 4) 0 1
  clamp (1 - (0.45 * meanPenalty + 0.40 * variancePenalty + 0.15 * skewPenalty)) 0 1

structure EdgeReliabilityModel where
  count : Nat := 0
  mean : ℚ := 0
  m2 : ℚ := 0
  m3 : ℚ := 0

namespace EdgeReliabilityModel

/-- The third moment is updated with the second one of before. -/
def update (value : ℚ) (model : EdgeReliabilityModel) : EdgeReliabilityModel :=
  let previousCount : ℚ := model.count
  let newCount := saturatingAddU64 model.count 1
  let count : ℚ := newCount
  let delta := value - model.mean
  let deltaN := delta / count
  let term1 := delta * deltaN * previousCount
  { count := newCount
    mean := model.mean + deltaN
    m2 := model.m2 + term1
    m3 := model.m3 + (term1 * deltaN * (count - 2) - 3 * deltaN * model.m2) }

variable (sqrt : ℚ → ℚ) (powf : ℚ → ℚ → ℚ)

def moments (model : EdgeReliabilityModel) : DistributionMoments :=
  if model.count < 2 then { mean := model.mean }
  else
    { mean := model.mean
      variance := model.m2 / (model.count - 1 : Nat)
      skew :=
        if model.count < 3 ∨ |model.m2| ≤ epsilon then 0
        else sqrt model.count * model.m3 / powf model.m2 1.5 }

def observe (expectedMarkout realizedMarkout : ℚ) (model : EdgeReliabilityModel) :
    DecisionQualityReport × EdgeReliabilityModel :=
  let edgeError := expectedMarkout - realizedMarkout
  let model := model.update edgeError
  let moments := model.moments sqrt powf
  let reliability := moments.reliabilityScore
  ({ expectedMarkout := expectedMarkout
     realizedMarkout := realizedMarkout
     edgeError := edgeError
     edgeErrorDistribution := moments
     edgeReliabilityScore := reliability
     tradingEnabled := decide (0.35 ≤ reliability) }, model)

end EdgeReliabilityModel

end RealTimeTrading.Rtts.Accounting
