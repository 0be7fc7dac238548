/-
RealTimeTrading.ControlPlane.Risk.Intelligence — `ev_model.go` and
`intelligence.go`: the stress snapshot the market and execution feed, and
the second half of a risk decision.

A division by zero is `0` here where Go has an infinity or NaN; the code
divides by configuration limits (`MaxExposureUSD`) and by prices it has
already compared with `0`.
-/
import RealTimeTrading.ControlPlane.Risk.Feedback

namespace RealTimeTrading.ControlPlane

structure RiskConfig where
  maxExposureUSD : ℚ
  maxPositionUSD : ℚ
  maxDailyLossUSD : ℚ
  maxSignalAge : Duration
  latencyRejectAfter : Duration
  deriving DecidableEq, Repr

inductive CircuitState where
  | closed
  | degraded
  | opened
  deriving DecidableEq, Repr

/-! ## Expected value -/

structure ExpectedValue where
  ev : ℚ := 0
  adjustedEV : ℚ := 0
  inclusionProbability : ℚ := 0
  competitionAdjustedRisk : ℚ := 0
  timeDecayFactor : ℚ := 0
  deriving DecidableEq, Repr

structure IntelligenceSnapshot where
  exposureRiskScore : ℚ := 0
  mempoolPressureScore : ℚ := 0
  executionFragilityScore : ℚ := 0
  systemStressIndex : ℚ := 0
  riskMultiplier : ℚ := 1
  expectedValue : ExpectedValue := {}
  historicalInclusionRate : ℚ := 0
  competitionIntensityScore : ℚ := 0
  latencyAdvantagePenalty : ℚ := 0
  outbidLikelihoodIndex : ℚ := 0
  rejectionCount : Nat := 0
  circuitState : CircuitState := .closed
  feedback : FeedbackSnapshot := {}
  deriving DecidableEq, Repr

/-- Go's `ExpectedValueModel.Compute`, with the decay factor of `latency`. -/
def computeEV (req : ExecutionRequest) (price decay : ℚ) (snap : IntelligenceSnapshot) :
    ExpectedValue :=
  if price ≤ 0 ∨ req.size ≤ 0 then { competitionAdjustedRisk := 1 }
  else
    let target := req.price.getD price
    let priceDeviationBps := |target - price| / price * 10000
    let slippageEstimate := if req.maxSlippageBps ≤ 0 then 3 else req.maxSlippageBps
    let notional := req.size * price
    let sideEdge := 1.8 - priceDeviationBps * 0.12 - slippageEstimate * 0.20
    let rawEV := notional * sideEdge / 10000
    let inclusion :=
      clamp01 (snap.historicalInclusionRate * decay * (1 - snap.mempoolPressureScore * 0.45))
    let competitionRisk := clamp01 (0.42 * snap.competitionIntensityScore
      + 0.28 * snap.outbidLikelihoodIndex + 0.18 * snap.latencyAdvantagePenalty
      + 0.12 * snap.mempoolPressureScore)
    let competitionPenalty := notional * competitionRisk * slippageEstimate / 10000
    let riskPenalty :=
      notional * (0.55 * snap.systemStressIndex + 0.45 * snap.executionFragilityScore) / 10000
    { ev := rawEV
      adjustedEV := rawEV * inclusion - competitionPenalty - riskPenalty
      inclusionProbability := inclusion
      competitionAdjustedRisk := competitionRisk
      timeDecayFactor := decay }

/-! ## Decisions -/

structure RiskDecision where
  allowed : Bool
  sizeMultiplier : ℚ := 0
  expectedValue : ExpectedValue := {}
  riskScore : ℚ
  reason : String
  action : String
  reasonCategory : Option FailureCategory := none
  regimeState : RegimeState
  confidence : ℚ
  deriving DecidableEq, Repr

def riskAdjustedThreshold (snap : IntelligenceSnapshot) (feedback : FeedbackSnapshot) : ℚ :=
  0.001 + 0.20 * snap.mempoolPressureScore + 0.18 * snap.latencyAdvantagePenalty
    + 0.20 * clamp01 (feedback.slippageVarianceEMA / 36) + 0.22 * feedback.markoutDegradationScore
    + 0.20 * feedback.adverseSelectionEMA

/-- Go's `confidence`. -/
def confidenceOf (snap : IntelligenceSnapshot) (feedback : FeedbackSnapshot) : ℚ :=
  let dataConfidence : ℚ :=
    if 20 ≤ feedback.realEvents then 0.80
    else if 0 < feedback.realEvents then 0.45 + (feedback.realEvents : ℚ) * 0.015
    else 0.30
  let total := feedback.realEvents + feedback.contaminatedEvents
  let contaminationPenalty : ℚ :=
    if 0 < total then (feedback.contaminatedEvents : ℚ) / (total : ℚ) else 0
  clamp01 (dataConfidence * (1 - contaminationPenalty) * (1 - snap.systemStressIndex * 0.35))

/-- Go's `decision`. -/
def decisionOf (allowed : Bool) (mult : ℚ) (ev : ExpectedValue) (riskScore : ℚ) (reason : String)
    (category : Option FailureCategory) (regime : RegimeState) (conf : ℚ) : RiskDecision :=
  { allowed := allowed
    sizeMultiplier := mult
    expectedValue := ev
    riskScore := riskScore
    reason := reason
    action :=
      if allowed then (if 0 < mult ∧ mult < 1 then "degrade" else "allow") else "deny"
    reasonCategory := category
    regimeState := regime
    confidence := conf }

/-! ## The engine -/

structure IntelligenceEngine where
  cfg : RiskConfig
  mempool : MempoolPressureModel := {}
  snapshot : IntelligenceSnapshot
  lastPrice : ℚ := 0
  lastMarketTime : Time := 0
  volEMA : ℚ := 0
  latencyEMA : ℚ := 0
  rejectEMA : ℚ := 0
  failEMA : ℚ := 0
  rejections : Nat := 0
  failures : Nat := 0
  successes : Nat := 0
  inclusionEMA : ℚ := 0.50

namespace IntelligenceEngine

def new (cfg : RiskConfig) (feedback : FeedbackEngine) : IntelligenceEngine :=
  { cfg := cfg
    snapshot := { historicalInclusionRate := 0.50, feedback := feedback.snapshot } }

/-- Go's `recompute`: `marks = nil` keeps the last exposure score. -/
def recompute (store : Store) (feedback : FeedbackSnapshot) (marks : Option (GoMap Symbol ℚ))
    (mempool : ℚ) (e : IntelligenceEngine) : IntelligenceEngine :=
  let exposure := match marks with
    | some marks => clamp01 (store.grossExposureUSD marks / e.cfg.maxExposureUSD)
    | none => e.snapshot.exposureRiskScore
  let fragility := clamp01
    (0.30 * clamp01 (e.latencyEMA / ((e.cfg.latencyRejectAfter.milliseconds + 1 : ℤ) : ℚ))
      + 0.25 * e.failEMA + 0.15 * e.rejectEMA + 0.30 * feedback.executionFailureRateEMA)
  let vol := clamp01 (e.volEMA / 8)
  let markoutStress := clamp01 (0.35 * feedback.markoutDegradationScore
    + 0.30 * feedback.adverseSelectionEMA + 0.20 * clamp01 (feedback.slippageVarianceEMA / 36)
    + 0.15 * feedback.partialFillLossRateEMA)
  let stress := clamp01 (0.20 * exposure + 0.20 * mempool + 0.25 * fragility + 0.15 * vol
    + 0.20 * markoutStress)
  let state : CircuitState :=
    if 0.90 < stress ∨ 0.75 < e.failEMA ∨ feedback.regimeState = .hostile then .opened
    else if 0.55 < stress ∨ (0.45 < vol ∧ 0.45 < mempool) ∨ feedback.regimeState = .degraded then
      .degraded
    else .closed
  let mult := clamp01 (1 - stress * 0.65)
  let mult := if state = .degraded then min mult 0.60 else mult
  let mult := if state = .opened then 0 else mult
  { e with snapshot :=
    { exposureRiskScore := exposure
      mempoolPressureScore := mempool
      executionFragilityScore := fragility
      systemStressIndex := stress
      riskMultiplier := mult
      historicalInclusionRate := clamp01 e.inclusionEMA
      competitionIntensityScore := e.mempool.competitionIntensityScore
      latencyAdvantagePenalty := e.mempool.latencyAdvantagePenalty
      outbidLikelihoodIndex := e.mempool.outbidLikelihoodIndex
      rejectionCount := e.rejections
      circuitState := state
      feedback := feedback } }

/-- The price a market event stands for: its own, else the mid of the book. -/
def eventPrice (event : MarketEvent) : ℚ :=
  if event.price ≤ 0 then (event.bestBid + event.bestAsk) * 0.5 else event.price

def observeMarket (now : Time) (store : Store) (feedback : FeedbackSnapshot) (event : MarketEvent)
    (marks : GoMap Symbol ℚ) (e : IntelligenceEngine) : IntelligenceEngine :=
  let price := eventPrice event
  if price ≤ 0 then e
  else
    let now := if event.timestamp.isZero then now else event.timestamp
    let dt : ℚ := ((now - e.lastMarketTime : ℤ) : ℚ) / 1000000000
    let moved := decide (0 < e.lastPrice) && !e.lastMarketTime.isZero && decide (0 < dt)
    let velocity := if moved then (price - e.lastPrice) / e.lastPrice / dt else 0
    let volEMA := if moved then ema e.volEMA (|velocity| * 1000) 0.05 else e.volEMA
    let mempool := e.mempool.observeMarket event.symbol event.volume velocity
    recompute store feedback (some marks) mempool.score
      { e with volEMA := volEMA, lastPrice := price, lastMarketTime := now, mempool := mempool }

def observeExecution (exp : ℚ → ℚ) (store : Store) (feedback : FeedbackSnapshot)
    (latency : Duration) (rejected : Bool) (e : IntelligenceEngine) : IntelligenceEngine :=
  let e := { e with
    latencyEMA := ema e.latencyEMA ((latency.microseconds : ℚ) / 1000) 0.08
    mempool := e.mempool.observeLatencyPenalty (1 - decayFactor exp latency defaultDecayTauMs) }
  if rejected then
    let mempool := e.mempool.observeExecutionFailure
    recompute store feedback none mempool.score { e with
      rejections := e.rejections + 1
      failures := e.failures + 1
      rejectEMA := ema e.rejectEMA 1 0.10
      failEMA := ema e.failEMA 1 0.10
      inclusionEMA := ema e.inclusionEMA 0 0.06
      mempool := mempool }
  else
    let mempool := e.mempool.observeExecutionSuccess
    recompute store feedback none mempool.score { e with
      successes := e.successes + 1
      inclusionEMA := ema e.inclusionEMA 1 0.04
      rejectEMA := ema e.rejectEMA 0 0.04
      failEMA := ema e.failEMA 0 0.04
      mempool := mempool }

/-- The size multiplier with its reason and action, as the chain of degrading
conditions of `Evaluate` leaves them. -/
structure Degrade where
  mult : ℚ
  reason : String := "allowed"
  action : String := "allow"

def Degrade.apply (bound : ℚ) (reason : String) (cond : Prop) [Decidable cond] (d : Degrade) :
    Degrade :=
  if cond then { mult := min d.mult bound, reason := reason, action := "degrade" } else d

/-- The degrading conditions, in the order the code tests them. -/
def degrade (req : ExecutionRequest) (evNow evFinal : ExpectedValue) (snap : IntelligenceSnapshot) :
    Degrade :=
  let d : Degrade := { mult := snap.riskMultiplier }
  let d := d.apply 0.55 "regime_degraded" (snap.feedback.regimeState = .degraded)
  let d := d.apply 0.55 "marginal_ev_reduce" (evFinal.adjustedEV < evNow.ev * 0.15)
  let d := d.apply 0.45 "time_decay_reduce" (evFinal.timeDecayFactor < 0.55)
  let d := d.apply 0.50 "circuit_degraded" (snap.circuitState = .degraded)
  let d := d.apply 0.65 "mempool_pressure_reduce" (0.65 < snap.mempoolPressureScore)
  let d := d.apply 0.55 "execution_fragility_reduce" (0.55 < snap.executionFragilityScore)
  d.apply 0.50 "exposure_risk_reduce" (0.70 < snap.exposureRiskScore ∧ req.reduceOnly = false)

def evaluate (exp : ℚ → ℚ) (now : Time) (req : ExecutionRequest) (base : RiskDecision)
    (e : IntelligenceEngine) : RiskDecision :=
  let snap := e.snapshot
  let regime := snap.feedback.regimeState
  let conf := confidenceOf snap snap.feedback
  if base.allowed = false then base
  else if snap.circuitState = .opened ∨ 0.85 < snap.systemStressIndex then
    decisionOf false 0 snap.expectedValue snap.systemStressIndex "system_stress_open"
      (some .executionFail) regime conf
  else
    let price := req.price.getD 0
    let price := if price ≤ 0 ∧ 0 < e.lastPrice then e.lastPrice else price
    let latency : Duration := now - req.signalTime
    let evNow := computeEV req price (decayFactor exp latency defaultDecayTauMs) snap
    let evFinal :=
      computeEV req price (decayFactor exp (latency + 50 * millisecond) defaultDecayTauMs) snap
    let realizedThreshold := riskAdjustedThreshold snap snap.feedback
    let expectedRealizedMarkout :=
      if req.expectedRealizedMarkout = 0 then snap.feedback.expectedRealizedMarkoutEMA
      else req.expectedRealizedMarkout
    let deny (reason : String) (conf : ℚ) : RiskDecision :=
      decisionOf false 0 evFinal snap.systemStressIndex reason (some .riskReject) regime conf
    if req.reduceOnly = false ∧ expectedRealizedMarkout ≤ realizedThreshold then
      deny "expected_real_markout_below_threshold" conf
    else if regime = .hostile ∧ req.reduceOnly = false then deny "hostile_execution_regime" conf
    else if regime = .contaminated ∧ req.reduceOnly = false then
      deny "execution_truth_contaminated" 0.05
    else
      let d := degrade req evNow evFinal snap
      if d.mult ≤ 0.05 ∧ req.reduceOnly = false then deny "risk_multiplier_zero" conf
      else
        { decisionOf true d.mult evFinal snap.systemStressIndex d.reason none regime conf with
          action := d.action }

end IntelligenceEngine

end RealTimeTrading.ControlPlane
