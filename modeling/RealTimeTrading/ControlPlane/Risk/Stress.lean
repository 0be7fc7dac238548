/-
RealTimeTrading.ControlPlane.Risk.Stress — what is allowed under stress is
allowed under less.

Every score of the snapshot only ever stands on the side of a refusal or
of a smaller size, but for one: mempool pressure lowers the inclusion of
the expected value, and of an expected loss less is better. What the
pressure adds to the competition penalty outweighs that
(`adjustedEV_calmer`), so the whole of `Evaluate` is monotone.
-/
import Mathlib.Tactic.Linarith
import Mathlib.Tactic.NormNum
import Mathlib.Tactic.Positivity
import Mathlib.Tactic.Ring
import RealTimeTrading.ControlPlane.Risk.Gate
import RealTimeTrading.ControlPlane.Schedule

namespace RealTimeTrading.ControlPlane

theorem clamp01_of_mem {v : ℚ} (h0 : 0 ≤ v) (h1 : v ≤ 1) : clamp01 v = v := by
  unfold clamp01
  rw [if_neg (not_lt.mpr h0), if_neg (not_lt.mpr h1)]

/-! ## Snapshots -/

/-- The order of the constants. -/
def CircuitState.severity : CircuitState → Nat
  | .closed => 0
  | .degraded => 1
  | .opened => 2

theorem CircuitState.of_severity_le {a b : CircuitState} (h : a.severity ≤ b.severity) :
    a = .closed ∨ b = .opened ∨ a = b := by
  cases a <;> cases b <;> simp_all [severity]

namespace IntelligenceSnapshot

/-- All scores are between zero and one. -/
structure UnitScores (s : IntelligenceSnapshot) : Prop where
  exposure : 0 ≤ s.exposureRiskScore ∧ s.exposureRiskScore ≤ 1
  mempool : 0 ≤ s.mempoolPressureScore ∧ s.mempoolPressureScore ≤ 1
  fragility : 0 ≤ s.executionFragilityScore ∧ s.executionFragilityScore ≤ 1
  stress : 0 ≤ s.systemStressIndex ∧ s.systemStressIndex ≤ 1
  competition : 0 ≤ s.competitionIntensityScore ∧ s.competitionIntensityScore ≤ 1
  latency : 0 ≤ s.latencyAdvantagePenalty ∧ s.latencyAdvantagePenalty ≤ 1
  outbid : 0 ≤ s.outbidLikelihoodIndex ∧ s.outbidLikelihoodIndex ≤ 1

/-- With the same feedback and inclusion rate, `a` is no more stressed than `b`. -/
structure Calmer (a b : IntelligenceSnapshot) : Prop where
  feedback : a.feedback = b.feedback
  inclusion : a.historicalInclusionRate = b.historicalInclusionRate
  mempool : a.mempoolPressureScore ≤ b.mempoolPressureScore
  fragility : a.executionFragilityScore ≤ b.executionFragilityScore
  stress : a.systemStressIndex ≤ b.systemStressIndex
  exposure : a.exposureRiskScore ≤ b.exposureRiskScore
  competition : a.competitionIntensityScore ≤ b.competitionIntensityScore
  latency : a.latencyAdvantagePenalty ≤ b.latencyAdvantagePenalty
  outbid : a.outbidLikelihoodIndex ≤ b.outbidLikelihoodIndex
  circuit : a.circuitState.severity ≤ b.circuitState.severity
  multiplier : b.riskMultiplier ≤ a.riskMultiplier

/-- Go's `competitionRisk`, before it is clamped. -/
def competitionMix (s : IntelligenceSnapshot) : ℚ :=
  0.42 * s.competitionIntensityScore + 0.28 * s.outbidLikelihoodIndex
    + 0.18 * s.latencyAdvantagePenalty + 0.12 * s.mempoolPressureScore

theorem UnitScores.mix_mem {s : IntelligenceSnapshot} (h : s.UnitScores) :
    0 ≤ s.competitionMix ∧ s.competitionMix ≤ 1 := by
  unfold competitionMix
  constructor
  · linarith [h.competition.1, h.outbid.1, h.latency.1, h.mempool.1]
  · linarith [h.competition.2, h.outbid.2, h.latency.2, h.mempool.2]

section Calmer

variable {a b : IntelligenceSnapshot}

/-- Of all that competition gains, the pressure alone is at least this part. -/
theorem Calmer.mix_gain (h : a.Calmer b) :
    0.12 * (b.mempoolPressureScore - a.mempoolPressureScore) ≤
      b.competitionMix - a.competitionMix := by
  unfold competitionMix
  linarith [h.competition, h.outbid, h.latency]

theorem Calmer.not_opened (h : a.Calmer b) (hb : b.circuitState ≠ .opened) :
    a.circuitState ≠ .opened := by
  intro ha
  rcases CircuitState.of_severity_le h.circuit with hclosed | hopened | hsame
  · rw [ha] at hclosed
    cases hclosed
  · exact hb hopened
  · exact hb (hsame.symm.trans ha)

theorem Calmer.degraded (h : a.Calmer b) (hb : b.circuitState ≠ .opened)
    (ha : a.circuitState = .degraded) : b.circuitState = .degraded := by
  rcases CircuitState.of_severity_le h.circuit with hclosed | hopened | hsame
  · rw [ha] at hclosed
    cases hclosed
  · exact absurd hopened hb
  · exact hsame.symm.trans ha

theorem Calmer.threshold_le (h : a.Calmer b) :
    riskAdjustedThreshold a a.feedback ≤ riskAdjustedThreshold b b.feedback := by
  unfold riskAdjustedThreshold
  rw [h.feedback]
  linarith [h.mempool, h.latency]

end Calmer

end IntelligenceSnapshot

/-! ## The expected value of a priced request -/

section ExpectedValue

open IntelligenceSnapshot

/-- Go's `slippageEstimate`. -/
def slippageEstimate (req : ExecutionRequest) : ℚ :=
  if req.maxSlippageBps ≤ 0 then 3 else req.maxSlippageBps

theorem slippageEstimate_pos (req : ExecutionRequest) : 0 < slippageEstimate req := by
  unfold slippageEstimate
  split_ifs with h
  · norm_num
  · exact not_le.mp h

variable {req : ExecutionRequest} {price decay : ℚ}

/-- While the scores are fractions, nothing is clamped. -/
theorem adjustedEV_eq (hsize : 0 < req.size) (hprice : req.price = some price) (hpos : 0 < price)
    (hdecay : 0 ≤ decay ∧ decay ≤ 1) {s : IntelligenceSnapshot} (hs : s.UnitScores)
    (hrate : 0 ≤ s.historicalInclusionRate ∧ s.historicalInclusionRate ≤ 1) :
    (computeEV req price decay s).adjustedEV =
      req.size * price / 10000 *
        ((1.8 - slippageEstimate req * 0.20) *
            (s.historicalInclusionRate * decay * (1 - s.mempoolPressureScore * 0.45))
          - slippageEstimate req * s.competitionMix
          - (0.55 * s.systemStressIndex + 0.45 * s.executionFragilityScore)) := by
  have hsent : 0 ≤ s.historicalInclusionRate * decay ∧ s.historicalInclusionRate * decay ≤ 1 :=
    ⟨mul_nonneg hrate.1 hdecay.1, mul_le_one₀ hrate.2 hdecay.1 hdecay.2⟩
  have hclear : 0 ≤ 1 - s.mempoolPressureScore * 0.45 ∧
      1 - s.mempoolPressureScore * 0.45 ≤ 1 :=
    ⟨by linarith [hs.mempool.2], by linarith [hs.mempool.1]⟩
  have hinclusion := clamp01_of_mem (mul_nonneg hsent.1 hclear.1)
    (mul_le_one₀ hsent.2 hclear.1 hclear.2)
  have hmix := clamp01_of_mem hs.mix_mem.1 hs.mix_mem.2
  unfold competitionMix at hmix ⊢
  unfold computeEV slippageEstimate
  rw [if_neg (not_or.mpr ⟨not_le.mpr hpos, not_le.mpr hsize⟩)]
  dsimp only
  rw [hinclusion, hmix, hprice, Option.getD_some, sub_self, abs_zero]
  ring

/-- The raw value knows nothing of the snapshot, nor of the latency. -/
theorem ev_congr (decay' : ℚ) (a b : IntelligenceSnapshot) :
    (computeEV req price decay a).ev = (computeEV req price decay' b).ev := by
  unfold computeEV
  split_ifs <;> rfl

theorem timeDecayFactor_congr (a b : IntelligenceSnapshot) :
    (computeEV req price decay a).timeDecayFactor =
      (computeEV req price decay b).timeDecayFactor := by
  unfold computeEV
  split_ifs <;> rfl

/-- Less stress is worth more, whether a profit is expected or a loss. -/
theorem adjustedEV_calmer (hsize : 0 < req.size) (hprice : req.price = some price)
    (hpos : 0 < price) (hdecay : 0 ≤ decay ∧ decay ≤ 1) {a b : IntelligenceSnapshot}
    (hab : a.Calmer b) (ha : a.UnitScores) (hb : b.UnitScores)
    (hrate : 0 ≤ b.historicalInclusionRate ∧ b.historicalInclusionRate ≤ 1) :
    (computeEV req price decay b).adjustedEV ≤ (computeEV req price decay a).adjustedEV := by
  rw [adjustedEV_eq hsize hprice hpos hdecay hb hrate,
    adjustedEV_eq hsize hprice hpos hdecay ha (by rw [hab.inclusion]; exact hrate), hab.inclusion]
  refine mul_le_mul_of_nonneg_left ?_ (by positivity)
  have hslippage := slippageEstimate_pos req
  generalize slippageEstimate req = slippage at hslippage ⊢
  have hsent : 0 ≤ b.historicalInclusionRate * decay ∧ b.historicalInclusionRate * decay ≤ 1 :=
    ⟨mul_nonneg hrate.1 hdecay.1, mul_le_one₀ hrate.2 hdecay.1 hdecay.2⟩
  generalize b.historicalInclusionRate * decay = sent at hsent ⊢
  have hgain : slippage * (0.12 * (b.mempoolPressureScore - a.mempoolPressureScore)) ≤
      slippage * (b.competitionMix - a.competitionMix) :=
    mul_le_mul_of_nonneg_left hab.mix_gain hslippage.le
  -- a loss of `0.20 * slippage` is included by `0.45` of the pressure at most
  have hinclusion : 0 ≤ (b.mempoolPressureScore - a.mempoolPressureScore) *
      (0.81 * sent + slippage * (0.09 * (1 - sent) + 0.03)) := by
    have hpressure : 0 ≤ b.mempoolPressureScore - a.mempoolPressureScore :=
      sub_nonneg.mpr hab.mempool
    have hmissed : 0 ≤ 1 - sent := sub_nonneg.mpr hsent.2
    have hsent0 := hsent.1
    positivity
  linarith [hab.stress, hab.fragility]

end ExpectedValue

/-! ## Evaluate -/

namespace IntelligenceEngine

open IntelligenceSnapshot

/-- A condition that holds under less stress only if it holds under more. -/
theorem Degrade.apply_le {d d' : Degrade} {c c' : Prop} [Decidable c] [Decidable c'] {bound : ℚ}
    {reason : String} (hd : d'.mult ≤ d.mult) (hc : c → c') :
    (d'.apply bound reason c').mult ≤ (d.apply bound reason c).mult := by
  unfold Degrade.apply
  by_cases h' : c'
  · rw [if_pos h']
    split_ifs with h
    · exact min_le_min_right bound hd
    · exact (min_le_left _ _).trans hd
  · rw [if_neg h', if_neg fun h => h' (hc h)]
    exact hd

theorem degrade_le {req : ExecutionRequest} {a b : IntelligenceSnapshot} (hab : a.Calmer b)
    (hb : b.circuitState ≠ .opened) {evNow evFinal evNow' evFinal' : ExpectedValue}
    (hraw : evNow.ev = evNow'.ev) (hadjusted : evFinal'.adjustedEV ≤ evFinal.adjustedEV)
    (hdecay : evFinal.timeDecayFactor = evFinal'.timeDecayFactor) :
    (degrade req evNow' evFinal' b).mult ≤ (degrade req evNow evFinal a).mult := by
  unfold degrade
  dsimp only
  -- from the last condition to the first
  refine Degrade.apply_le ?_ fun h => ⟨h.1.trans_le hab.exposure, h.2⟩
  refine Degrade.apply_le ?_ fun h => h.trans_le hab.fragility
  refine Degrade.apply_le ?_ fun h => h.trans_le hab.mempool
  refine Degrade.apply_le ?_ fun h => hab.degraded hb h
  refine Degrade.apply_le ?_ fun h => by rwa [← hdecay]
  refine Degrade.apply_le ?_ fun h => by
    rw [← hraw]
    exact hadjusted.trans_lt h
  refine Degrade.apply_le ?_ fun h => by rwa [← hab.feedback]
  exact hab.multiplier

/-- The size of what is allowed. -/
theorem evaluate_sizeMultiplier {exp : ℚ → ℚ} {now : Time} {req : ExecutionRequest}
    {base : RiskDecision} {e : IntelligenceEngine}
    (h : (e.evaluate exp now req base).allowed = true) (hbase : base.allowed = true) :
    (e.evaluate exp now req base).sizeMultiplier = e.multiplier exp now req := by
  have hpassed := h
  unfold evaluate at hpassed ⊢
  dsimp only at hpassed ⊢
  rw [if_neg (by simp [hbase])] at hpassed ⊢
  rw [allowed_rule rfl, allowed_rule rfl, allowed_rule rfl, allowed_rule rfl,
    allowed_rule rfl] at hpassed
  obtain ⟨hsteady, hmarkout, hhostile, hcontaminated, hmult, -⟩ := hpassed
  rw [if_neg hsteady, if_neg hmarkout, if_neg hhostile, if_neg hcontaminated, if_neg hmult]
  rfl

/-- For a priced request, the multiplier is no smaller under less stress. -/
theorem multiplier_calmer {exp : ℚ → ℚ} {now : Time} {req : ExecutionRequest} {price : ℚ}
    (hsize : 0 < req.size) (hprice : req.price = some price) (hpos : 0 < price)
    (hdecay : 0 ≤ decayFactor exp (now - req.signalTime + 50 * millisecond) defaultDecayTauMs ∧
      decayFactor exp (now - req.signalTime + 50 * millisecond) defaultDecayTauMs ≤ 1)
    {a b : IntelligenceSnapshot} (hab : a.Calmer b) (ha : a.UnitScores) (hb : b.UnitScores)
    (hrate : 0 ≤ b.historicalInclusionRate ∧ b.historicalInclusionRate ≤ 1)
    (hclosed : b.circuitState ≠ .opened) (e : IntelligenceEngine) :
    ({ e with snapshot := b } : IntelligenceEngine).multiplier exp now req ≤
      ({ e with snapshot := a } : IntelligenceEngine).multiplier exp now req := by
  have hat : ∀ e : IntelligenceEngine, e.evPrice req = price := by
    intro e
    unfold evPrice
    rw [hprice, Option.getD_some, if_neg fun h => absurd h.1 (not_le.mpr hpos)]
  unfold multiplier
  dsimp only
  rw [hat, hat]
  exact degrade_le hab hclosed (ev_congr _ _ _)
    (adjustedEV_calmer hsize hprice hpos hdecay hab ha hb hrate) (timeDecayFactor_congr _ _)

/-- What is allowed under stress is allowed under less, in at least the size. -/
theorem evaluate_calmer {exp : ℚ → ℚ} {now : Time} {req : ExecutionRequest} {price : ℚ}
    (hsize : 0 < req.size) (hprice : req.price = some price) (hpos : 0 < price)
    (hdecay : 0 ≤ decayFactor exp (now - req.signalTime + 50 * millisecond) defaultDecayTauMs ∧
      decayFactor exp (now - req.signalTime + 50 * millisecond) defaultDecayTauMs ≤ 1)
    {a b : IntelligenceSnapshot} (hab : a.Calmer b) (ha : a.UnitScores) (hb : b.UnitScores)
    (hrate : 0 ≤ b.historicalInclusionRate ∧ b.historicalInclusionRate ≤ 1)
    (e : IntelligenceEngine) (base : RiskDecision)
    (hallowed : (({ e with snapshot := b } : IntelligenceEngine).evaluate exp now req
      base).allowed = true) :
    (({ e with snapshot := a } : IntelligenceEngine).evaluate exp now req base).allowed = true ∧
      (({ e with snapshot := b } : IntelligenceEngine).evaluate exp now req base).sizeMultiplier ≤
        (({ e with snapshot := a } : IntelligenceEngine).evaluate exp now req
          base).sizeMultiplier := by
  have hbase : base.allowed = true := by
    by_contra hdenied
    unfold evaluate at hallowed
    rw [if_pos (Bool.not_eq_true _ |>.mp hdenied)] at hallowed
    exact hdenied hallowed
  obtain ⟨⟨hclosed, hstress⟩, hworth⟩ := (evaluate_allowed_iff exp now req hbase _).mp hallowed
  have hmultiplier := multiplier_calmer hsize hprice hpos hdecay hab ha hb hrate hclosed e
  have hcalm : (({ e with snapshot := a } : IntelligenceEngine).evaluate exp now req
      base).allowed = true := by
    refine (evaluate_allowed_iff exp now req hbase _).mpr
      ⟨⟨hab.not_opened hclosed, hab.stress.trans hstress⟩, fun hreduce => ?_⟩
    have h := hworth hreduce
    have hjudged : ({ e with snapshot := a } : IntelligenceEngine).judgedMarkout req =
        ({ e with snapshot := b } : IntelligenceEngine).judgedMarkout req := by
      unfold judgedMarkout
      rw [show a.feedback = b.feedback from hab.feedback]
    exact {
      markout := by
        rw [hjudged]
        exact hab.threshold_le.trans_lt h.markout
      notHostile := by
        show a.feedback.regimeState ≠ .hostile
        rw [hab.feedback]
        exact h.notHostile
      notContaminated := by
        show a.feedback.regimeState ≠ .contaminated
        rw [hab.feedback]
        exact h.notContaminated
      multiplier := h.multiplier.trans_le hmultiplier }
  refine ⟨hcalm, ?_⟩
  rw [evaluate_sizeMultiplier hallowed hbase, evaluate_sizeMultiplier hcalm hbase]
  exact hmultiplier

end IntelligenceEngine

namespace Desk

open IntelligenceEngine IntelligenceSnapshot

def calmSnapshot : IntelligenceSnapshot := { historicalInclusionRate := 0.5 }

/-- The same averages in a crowded mempool. -/
def crowdedSnapshot : IntelligenceSnapshot :=
  { historicalInclusionRate := 0.5
    mempoolPressureScore := 0.7
    systemStressIndex := 0.6
    riskMultiplier := 0.6
    circuitState := .degraded }

theorem calm_calmer : calmSnapshot.Calmer crowdedSnapshot := by
  constructor <;> decide +kernel

theorem calmSnapshot_unitScores : calmSnapshot.UnitScores := by
  constructor <;> decide +kernel

theorem crowdedSnapshot_unitScores : crowdedSnapshot.UnitScores := by
  constructor <;> decide +kernel

def cleared : RiskDecision :=
  { allowed := true, riskScore := 0, reason := "allowed", action := "allow", regimeState := .safe
    confidence := 1 }

def engineAt (snapshot : IntelligenceSnapshot) : IntelligenceEngine :=
  { IntelligenceEngine.new riskConfig {} with snapshot := snapshot }

/-- The request is allowed in the crowd, so it is allowed out of it. -/
theorem request_allowed_calm :
    ((engineAt calmSnapshot).evaluate expCubic clock request cleared).allowed = true ∧
      ((engineAt crowdedSnapshot).evaluate expCubic clock request cleared).sizeMultiplier ≤
        ((engineAt calmSnapshot).evaluate expCubic clock request cleared).sizeMultiplier :=
  evaluate_calmer (by decide +kernel) rfl (by decide +kernel : (0 : ℚ) < 100)
    (by decide +kernel) calm_calmer calmSnapshot_unitScores crowdedSnapshot_unitScores
    (by decide +kernel) (IntelligenceEngine.new riskConfig {}) cleared (by decide +kernel)

end Desk

end RealTimeTrading.ControlPlane
