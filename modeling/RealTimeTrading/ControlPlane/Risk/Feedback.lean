/-
RealTimeTrading.ControlPlane.Risk.Feedback — the execution-feedback half
of the risk service: `feedback.go`, `mempool_pressure.go`,
`time_decay.go` and the small numeric helpers they share.

`math.Exp` is a parameter: `decayFactor` takes it as `exp`. Everything
else is exact rational arithmetic. The atomic counters are natural
numbers, and each engine method, whose fields Go leaves unsynchronised,
is one step.
-/
import Mathlib.Data.List.Infix
import RealTimeTrading.ControlPlane.Store

namespace RealTimeTrading.ControlPlane

/-! ## Numeric helpers -/

/-- The moving average of `intelligence.go`: the first sample replaces `0`. -/
def ema {K : Type} [Field K] [DecidableEq K] (prev value alpha : K) : K :=
  if prev = 0 then value else prev * (1 - alpha) + value * alpha

def clamp01 (v : ℚ) : ℚ := if v < 0 then 0 else if 1 < v then 1 else v

def absNonZero (v fallback : ℚ) : ℚ :=
  let v := if v < 0 then -v else v
  if v ≤ 1e-9 then fallback else v

/-- `strings.Contains`. -/
def containsString (s sub : String) : Bool := decide (sub.toList <:+: s.toList)

def defaultDecayTauMs : ℚ := 180

def decayFactor (exp : ℚ → ℚ) (latency : Duration) (tauMs : ℚ) : ℚ :=
  let tauMs := if tauMs ≤ 0 then defaultDecayTauMs else tauMs
  let ms : ℚ := (latency.microseconds : ℚ) / 1000
  let ms := if ms < 0 then 0 else ms
  exp (-ms / tauMs)

/-! ## Feedback -/

inductive FailureCategory where
  | riskReject
  | executionFail
  | outbidFail
  | staleSkip
  | marketCancel
  | partialFillLoss
  deriving DecidableEq, Repr

inductive RegimeState where
  | safe
  | degraded
  | hostile
  | contaminated
  deriving DecidableEq, Repr

structure FeedbackSnapshot where
  realEvents : Nat := 0
  contaminatedEvents : Nat := 0
  riskRejects : Nat := 0
  executionFails : Nat := 0
  outbidFails : Nat := 0
  staleSkips : Nat := 0
  marketCancels : Nat := 0
  partialFillLosses : Nat := 0
  realizedPnLEMA : ℚ := 0
  markout100EMA : ℚ := 0
  markout500EMA : ℚ := 0
  markout1sEMA : ℚ := 0
  markout5sEMA : ℚ := 0
  markoutDegradationScore : ℚ := 0
  adverseSelectionEMA : ℚ := 0
  slippageEMA : ℚ := 0
  slippageVarianceEMA : ℚ := 0
  executionFailureRateEMA : ℚ := 0
  outbidRateEMA : ℚ := 0
  partialFillLossRateEMA : ℚ := 0
  expectedRealizedMarkoutEMA : ℚ := 0
  regimeState : RegimeState := .safe
  deriving DecidableEq, Repr

structure FeedbackEngine where
  snapshot : FeedbackSnapshot := {}
  realEvents : Nat := 0
  contaminated : Nat := 0
  riskRejects : Nat := 0
  executionFails : Nat := 0
  outbidFails : Nat := 0
  staleSkips : Nat := 0
  marketCancels : Nat := 0
  partialFillLosses : Nat := 0
  realizedPnLEMA : ℚ := 0
  markout100EMA : ℚ := 0
  markout500EMA : ℚ := 0
  markout1sEMA : ℚ := 0
  markout5sEMA : ℚ := 0
  adverseSelectionEMA : ℚ := 0
  slippageEMA : ℚ := 0
  slippageVarianceEMA : ℚ := 0
  executionFailureRateEMA : ℚ := 0
  outbidRateEMA : ℚ := 0
  partialFillLossRateEMA : ℚ := 0
  expectedRealizedMarkoutEMA : ℚ := 0
  deriving DecidableEq, Repr

namespace FeedbackEngine

def degradation (e : FeedbackEngine) : ℚ :=
  let d := 0
  let d := if e.markout500EMA < e.markout100EMA then
      d + clamp01 ((e.markout100EMA - e.markout500EMA) / absNonZero e.markout100EMA 1) * 0.35
    else d
  let d := if e.markout1sEMA < e.markout500EMA then
      d + clamp01 ((e.markout500EMA - e.markout1sEMA) / absNonZero e.markout500EMA 1) * 0.30
    else d
  let d := if e.markout5sEMA < e.markout1sEMA then
      d + clamp01 ((e.markout1sEMA - e.markout5sEMA) / absNonZero e.markout1sEMA 1) * 0.25
    else d
  let d := if e.markout500EMA < 0 ∧ e.markout1sEMA < 0 then d + 0.25 else d
  clamp01 d

def regime (e : FeedbackEngine) : RegimeState :=
  if e.realEvents = 0 ∧ 0 < e.contaminated then .contaminated
  else if 0.72 < e.adverseSelectionEMA ∨ 36 < e.slippageVarianceEMA ∨
      (e.markout500EMA < 0 ∧ e.markout1sEMA < 0 ∧ e.markout5sEMA < 0) then .hostile
  else if 0.45 < e.degradation ∨ 0.35 < e.executionFailureRateEMA ∨ 0.30 < e.outbidRateEMA ∨
      0.25 < e.partialFillLossRateEMA then .degraded
  else .safe

def recompute (e : FeedbackEngine) : FeedbackEngine :=
  { e with snapshot :=
    { realEvents := e.realEvents
      contaminatedEvents := e.contaminated
      riskRejects := e.riskRejects
      executionFails := e.executionFails
      outbidFails := e.outbidFails
      staleSkips := e.staleSkips
      marketCancels := e.marketCancels
      partialFillLosses := e.partialFillLosses
      realizedPnLEMA := e.realizedPnLEMA
      markout100EMA := e.markout100EMA
      markout500EMA := e.markout500EMA
      markout1sEMA := e.markout1sEMA
      markout5sEMA := e.markout5sEMA
      markoutDegradationScore := e.degradation
      adverseSelectionEMA := e.adverseSelectionEMA
      slippageEMA := e.slippageEMA
      slippageVarianceEMA := e.slippageVarianceEMA
      executionFailureRateEMA := e.executionFailureRateEMA
      outbidRateEMA := e.outbidRateEMA
      partialFillLossRateEMA := e.partialFillLossRateEMA
      expectedRealizedMarkoutEMA := e.expectedRealizedMarkoutEMA
      regimeState := e.regime } }

def observeFailure (category : FailureCategory) (e : FeedbackEngine) : FeedbackEngine :=
  recompute <| match category with
    | .riskReject => { e with riskRejects := e.riskRejects + 1 }
    | .executionFail => { e with
        executionFails := e.executionFails + 1
        executionFailureRateEMA := ema e.executionFailureRateEMA 1 0.08 }
    | .outbidFail => { e with
        outbidFails := e.outbidFails + 1
        outbidRateEMA := ema e.outbidRateEMA 1 0.10 }
    | .staleSkip => { e with staleSkips := e.staleSkips + 1 }
    | .marketCancel => { e with
        marketCancels := e.marketCancels + 1
        executionFailureRateEMA := ema e.executionFailureRateEMA 0.65 0.08 }
    | .partialFillLoss => { e with
        partialFillLosses := e.partialFillLosses + 1
        partialFillLossRateEMA := ema e.partialFillLossRateEMA 1 0.10 }

def observeExecutionEvent (event : ExecutionEvent) (e : FeedbackEngine) : FeedbackEngine :=
  if event.simulated then recompute { e with contaminated := e.contaminated + 1 }
  else
    let realized :=
      if event.realizedPnL = 0 then event.markoutCurve.pnl500ms else event.realizedPnL
    let delta := event.slippageReal - e.slippageEMA
    let e := { e with
      realEvents := e.realEvents + 1
      realizedPnLEMA := ema e.realizedPnLEMA realized 0.06
      markout100EMA := ema e.markout100EMA event.markoutCurve.pnl100ms 0.06
      markout500EMA := ema e.markout500EMA event.markoutCurve.pnl500ms 0.06
      markout1sEMA := ema e.markout1sEMA event.markoutCurve.pnl1s 0.06
      markout5sEMA := ema e.markout5sEMA event.markoutCurve.pnl5s 0.06
      adverseSelectionEMA := ema e.adverseSelectionEMA event.adverseSelectionScore 0.08
      slippageEMA := ema e.slippageEMA event.slippageReal 0.08
      slippageVarianceEMA := ema e.slippageVarianceEMA (delta * delta) 0.06
      executionFailureRateEMA := ema e.executionFailureRateEMA 0 0.04
      outbidRateEMA := ema e.outbidRateEMA 0 0.04
      partialFillLossRateEMA := ema e.partialFillLossRateEMA 0 0.04
      expectedRealizedMarkoutEMA :=
        if event.expectedRealizedMarkout = 0 then e.expectedRealizedMarkoutEMA
        else ema e.expectedRealizedMarkoutEMA event.expectedRealizedMarkout 0.05 }
    let e := if containsString event.competitionFlag.toLower "outbid" then
        { e with
          outbidFails := e.outbidFails + 1
          outbidRateEMA := ema e.outbidRateEMA 1 0.10 }
      else e
    let e := if 0 < event.partialFillRatio ∧ event.partialFillRatio < 0.70 ∧
          event.markoutCurve.pnl500ms < 0 then
        { e with
          partialFillLosses := e.partialFillLosses + 1
          partialFillLossRateEMA := ema e.partialFillLossRateEMA 1 0.10 }
      else e
    recompute e

end FeedbackEngine

/-! ## Mempool pressure -/

/-- The 32-bit FNV-1a hash of a symbol's bytes. -/
def symbolHash (symbol : String) : UInt32 :=
  symbol.toUTF8.toList.foldl (fun h b => (h ^^^ b.toUInt32) * 16777619) 2166136261

structure MempoolPressureModel where
  burstEMA : ℚ := 0
  clusterEMA : ℚ := 0
  failEMA : ℚ := 0
  outbidEMA : ℚ := 0
  competitionEMA : ℚ := 0
  latencyPenaltyEMA : ℚ := 0
  lastSymbolHash : UInt32 := 0
  initialized : Bool := false

namespace MempoolPressureModel

def score (m : MempoolPressureModel) : ℚ :=
  clamp01 (0.34 * m.burstEMA + 0.20 * m.clusterEMA + 0.20 * m.failEMA + 0.14 * m.outbidEMA
    + 0.12 * m.latencyPenaltyEMA)

def observeMarket (symbol : String) (tradeVolume tradeVelocity : ℚ) (m : MempoolPressureModel) :
    MempoolPressureModel :=
  let hash := symbolHash symbol
  let cluster : ℚ := if m.initialized && hash == m.lastSymbolHash then 1 else 0
  let burst := clamp01 (|tradeVelocity| / 80 + tradeVolume / 25)
  let clusterEMA := ema m.clusterEMA cluster 0.04
  { m with
    lastSymbolHash := hash
    initialized := true
    burstEMA := ema m.burstEMA burst 0.08
    clusterEMA := clusterEMA
    competitionEMA := ema m.competitionEMA (clamp01 (0.60 * burst + 0.40 * clusterEMA)) 0.06 }

def observeExecutionFailure (m : MempoolPressureModel) : MempoolPressureModel :=
  { m with
    failEMA := ema m.failEMA 1 0.12
    outbidEMA := ema m.outbidEMA 1 0.10
    competitionEMA := ema m.competitionEMA 1 0.08 }

def observeExecutionSuccess (m : MempoolPressureModel) : MempoolPressureModel :=
  { m with
    failEMA := ema m.failEMA 0 0.04
    outbidEMA := ema m.outbidEMA 0 0.03
    latencyPenaltyEMA := ema m.latencyPenaltyEMA 0 0.03 }

def observeLatencyPenalty (penalty : ℚ) (m : MempoolPressureModel) : MempoolPressureModel :=
  { m with latencyPenaltyEMA := ema m.latencyPenaltyEMA (clamp01 penalty) 0.08 }

def competitionIntensityScore (m : MempoolPressureModel) : ℚ :=
  clamp01 (0.42 * m.competitionEMA + 0.28 * m.clusterEMA + 0.20 * m.burstEMA + 0.10 * m.failEMA)

def latencyAdvantagePenalty (m : MempoolPressureModel) : ℚ := clamp01 m.latencyPenaltyEMA

def outbidLikelihoodIndex (m : MempoolPressureModel) : ℚ :=
  clamp01 (0.45 * m.outbidEMA + 0.30 * m.burstEMA + 0.25 * m.failEMA)

end MempoolPressureModel

end RealTimeTrading.ControlPlane
