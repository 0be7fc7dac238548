/-
RealTimeTrading.Rtts.Floating.SizeFactor — when the size factor of a snapshot
that disables trading is zero.

The factor is a product with a zero in it, and so it is zero unless one of
the others is not a number: the reliability, the share that the drawdown
leaves, or what the regime memory makes of it. `reliability_ne_nan_iff` finds
where the first can come from. Every sum that could have met two opposite
infinities is bounded or of one sign, save those named in `Measurable`.
-/
import RealTimeTrading.Rtts.Floating.EdgeValidation

namespace RealTimeTrading.Rtts.Floating.EdgeValidation

open Data F64
open RealTimeTrading.Rtts.EdgeValidation (EdgeRegime minValidationSamples pushCapped)

/-! ## Means -/

theorem mean_eq_nan {values : List F64} (h : nan ∈ values) : mean values = nan := by
  rw [mean, if_neg (List.ne_nil_of_mem h), sum_eq_nan h, nan_div]

theorem mean_ne_nan {values : List F64} (hlength : values.length ≤ 2 ^ 64)
    (h : F64.sum values ≠ nan) : mean values ≠ nan := by
  unfold mean
  split_ifs with hnil
  · exact round_ne_nan _
  · obtain ⟨y, hy, hpos⟩ := natCast_finite (List.length_pos_of_ne_nil hnil) hlength
    rw [hy]
    exact div_ne_nan h hpos

theorem rollingMoments_mean (sqrt : F64 → F64) (values : List F64) :
    (rollingMoments sqrt values).mean = mean values := by
  by_cases hnil : values = []
  · rw [rollingMoments, if_pos hnil, mean, if_pos hnil]
  · rw [rollingMoments, if_neg hnil]

/-! ## Scores -/

/-- Not below zero, if a number at all. -/
def Share (v : F64) : Prop := 0 ≤ v ∨ v = nan

theorem share_clamp {v hi : F64} (h : 0 ≤ hi) : Share (v.clamp 0 hi) := by
  by_cases hv : v = nan
  · exact .inr (by rw [hv, clamp_nan])
  · exact .inl (clamp_mem hv h).1

theorem Share.nonneg {v : F64} (h : Share v) (hv : v ≠ nan) : 0 ≤ v := h.resolve_right hv

theorem competitionScore_eq_nan (sqrt : F64 → F64) (expectedEdges slippages outbidFlags : List F64)
    {fillRates : List F64} (h : nan ∈ fillRates) :
    competitionScore sqrt expectedEdges fillRates slippages outbidFlags = nan := by
  simp only [competitionScore, mean_eq_nan h, sub_nan, clamp_nan, mul_nan, add_nan, nan_add]

theorem competitionScore_ne_nan (sqrt : F64 → F64) (expectedEdges : List F64)
    {fillRates slippages outbidFlags : List F64} (hfills : mean fillRates ≠ nan)
    (hslippages : mean slippages ≠ nan) (hflags : mean outbidFlags ≠ nan) :
    competitionScore sqrt expectedEdges fillRates slippages outbidFlags ≠ nan := by
  have hedge : Within 1 (F64.clamp (max (mean expectedEdges) 0 / 4) 0 1) :=
    clamp_within (div_pos_ne_nan (ne_nan_of_le_right (max_zero_nonneg _)) (by decide +kernel)
      (by decide +kernel))
  have hfill : Within 1 (F64.clamp (1 - mean fillRates) 0 1) := by
    refine clamp_within ?_
    rw [one_eq]
    exact finite_sub_ne_nan _ hfills
  have hslippage : ∀ c : F64, c.isFinite = true → 0 < c →
      Within 1 (F64.clamp (mean slippages / c) 0 1) :=
    fun c hfinite hpos => clamp_within (div_pos_ne_nan hslippages hfinite hpos)
  have hpenalty : Within 1 (if coefficientOfVariation sqrt expectedEdges < 1 then
      F64.clamp (mean slippages / 12) 0 1 else F64.clamp (mean slippages / 20) 0 1) := by
    split_ifs
    · exact hslippage 12 (by decide +kernel) (by decide +kernel)
    · exact hslippage 20 (by decide +kernel) (by decide +kernel)
  have hweight : ∀ c : F64, 0 ≤ c → c ≤ 1 → Within 1 c := fun c => within_of_unit
  have hsum := (((hweight 0.25 (by decide +kernel) (by decide +kernel)).mul hedge
    (by norm_num)).add ((hweight 0.30 (by decide +kernel) (by decide +kernel)).mul hfill
    (by norm_num)) (by norm_num)).add ((hweight 0.25 (by decide +kernel) (by decide +kernel)).mul
    (clamp_within hflags) (by norm_num)) (by norm_num) |>.add
    ((hweight 0.20 (by decide +kernel) (by decide +kernel)).mul hpenalty (by norm_num))
    (by norm_num)
  exact (clamp_within hsum.ne_nan).ne_nan

section Reliability

variable {mean variance skew sharpe capture competition failureEma : F64}

theorem reliabilityScore_eq_nan
    (h : mean = nan ∨ variance = nan ∨ skew = nan ∨ sharpe = nan ∨ capture = nan ∨
      competition = nan) :
    reliabilityScore mean variance skew sharpe capture competition failureEma = nan := by
  rcases h with rfl | rfl | rfl | rfl | rfl | rfl <;>
    simp only [reliabilityScore, abs_nan, nan_div, clamp_nan, sub_nan, mul_nan, add_nan, nan_add,
      nan_sub, nan_mul]

theorem reliabilityScore_within (hmean : mean ≠ nan) (hvariance : variance ≠ nan)
    (hskew : skew ≠ nan) (hsharpe : sharpe ≠ nan) (hcapture : capture ≠ nan)
    (hcompetition : competition ≠ nan) (hfailure : 0 ≤ failureEma) :
    Within 1 (reliabilityScore mean variance skew sharpe capture competition failureEma) := by
  have hratio : ∀ {v : F64} (c : F64), v ≠ nan → c.isFinite = true → 0 < c →
      Within 1 (F64.clamp (v / c) 0 1) :=
    fun c hv hfinite hpos => clamp_within (div_pos_ne_nan hv hfinite hpos)
  have hshifted : ∀ {v : F64} (c : F64), v ≠ nan → c.isFinite = true → v + c ≠ nan := by
    intro v c hv hfinite
    obtain ⟨x, rfl⟩ := exists_finite hfinite
    exact add_finite_ne_nan hv x
  have hone := @within_one
  have hm := hone.sub (hratio 10 (abs_ne_nan hmean) (by decide +kernel) (by decide +kernel))
    (by norm_num)
  have hv := hone.sub (hratio 25 hvariance (by decide +kernel) (by decide +kernel)) (by norm_num)
  have hs := hone.sub (hratio 4 (abs_ne_nan hskew) (by decide +kernel) (by decide +kernel))
    (by norm_num)
  have hb := hratio 3 (hshifted 1 hsharpe (by decide +kernel)) (by decide +kernel)
    (by decide +kernel)
  have hc := hratio 1.5 (hshifted 0.5 hcapture (by decide +kernel)) (by decide +kernel)
    (by decide +kernel)
  have hweight : ∀ c : F64, 0 ≤ c → c ≤ 1 → Within 1 c := fun c => within_of_unit
  have hbase := (((((hweight 0.40 (by decide +kernel) (by decide +kernel)).mul hm (by norm_num)).add
    ((hweight 0.18 (by decide +kernel) (by decide +kernel)).mul hv (by norm_num)) (by norm_num)).add
    ((hweight 0.07 (by decide +kernel) (by decide +kernel)).mul hs (by norm_num)) (by norm_num)).add
    ((hweight 0.20 (by decide +kernel) (by decide +kernel)).mul hb (by norm_num)) (by norm_num)).add
    ((hweight 0.10 (by decide +kernel) (by decide +kernel)).mul hc (by norm_num)) (by norm_num)
  have hnet := hbase.sub ((hweight 0.15 (by decide +kernel) (by decide +kernel)).mul
    (clamp_within hcompetition) (by norm_num)) (by norm_num)
  have hema := clamp_mem (ne_nan_of_le_right hfailure)
    (show (0 : F64) ≤ 0.95 by decide +kernel)
  have hkept := hone.sub ((within_of_unit hema.1 (F64.le_trans hema.2 (by decide +kernel))).mul
    (hweight 0.35 (by decide +kernel) (by decide +kernel)) (by norm_num)) (by norm_num)
  exact clamp_within (hnet.mul hkept (by norm_num)).ne_nan

end Reliability

/-! ## The size factor -/

/-- The averages a memory is drawn on for. -/
structure Remembered (memory : RegimeMemory) : Prop where
  reliability : Share memory.reliabilityEwma
  quality : Share memory.executionQualityEwma

/-- A memory that counts has averages that are numbers. -/
def Recalled (memory : RegimeMemory) : Prop :=
  8 ≤ memory.sampleCount → memory.reliabilityEwma ≠ nan ∧ memory.executionQualityEwma ≠ nan

/-- `regime_memory_factor`, the last of `position_size_multiplier`. -/
def regimeMemoryFactor (memory : RegimeMemory) : F64 :=
  if 8 ≤ memory.sampleCount then
    F64.clamp (0.65 + memory.reliabilityEwma * 0.20 + memory.executionQualityEwma * 0.10
      + max memory.captureEwma 0 * 0.05) 0.35 1.10
  else 0.85

theorem regimeMemoryFactor_finite {memory : RegimeMemory} (h : Remembered memory)
    (hrecalled : Recalled memory) : (regimeMemoryFactor memory).isFinite = true := by
  unfold regimeMemoryFactor
  split_ifs with hcount
  · obtain ⟨hreliability, hquality⟩ := hrecalled hcount
    have hscaled : ∀ {v : F64} (c : F64), 0 ≤ v → c.isFinite = true → 0 < c → 0 ≤ v * c :=
      fun c hv => nonneg_mul hv
    refine isFinite_clamp (ne_nan_of_le_right (nonneg_add (nonneg_add (nonneg_add
      (by decide +kernel)
      (hscaled 0.20 (h.reliability.nonneg hreliability) (by decide +kernel) (by decide +kernel)))
      (hscaled 0.10 (h.quality.nonneg hquality) (by decide +kernel) (by decide +kernel)))
      (hscaled 0.05 (max_zero_nonneg _) (by decide +kernel) (by decide +kernel))))
      (by decide +kernel) (by decide +kernel)
  · decide +kernel

theorem regimeMemoryFactor_nan {memory : RegimeMemory} (h : ¬Recalled memory) :
    regimeMemoryFactor memory = nan := by
  unfold Recalled at h
  push Not at h
  obtain ⟨hcount, hnan⟩ := h
  have hsum : 0.65 + memory.reliabilityEwma * 0.20 + memory.executionQualityEwma * 0.10
      + max memory.captureEwma 0 * 0.05 = nan := by
    by_cases hreliability : memory.reliabilityEwma = nan
    · simp only [hreliability, nan_mul, add_nan, nan_add]
    · simp only [hnan hreliability, nan_mul, add_nan, nan_add]
  rw [regimeMemoryFactor, if_pos hcount, hsum, clamp_nan]

theorem drawdownFactor_within {drawdownPct : F64} (h : drawdownPct ≠ nan) :
    Within 1 (F64.clamp (1 - drawdownPct * 1.35) 0 1) := by
  refine clamp_within ?_
  rw [one_eq]
  exact finite_sub_ne_nan _ (mul_ne_nan h (by decide +kernel) (by decide +kernel))

theorem dynamicPositionSizeMultiplier_within {reliability drawdownPct : F64}
    (hreliability : reliability ≠ nan) (hdrawdown : drawdownPct ≠ nan) (state : EdgeState)
    (regime : EdgeRegime) :
    Within 1 (dynamicPositionSizeMultiplier reliability state regime drawdownPct) := by
  have hproduct : ∀ stateFactor regimeFactor : F64, Within 1 stateFactor → Within 1 regimeFactor →
      Within 1 (F64.clamp (F64.clamp reliability 0 1 * stateFactor * regimeFactor *
        F64.clamp (1 - drawdownPct * 1.35) 0 1) 0 1) := by
    intro stateFactor regimeFactor hstate hregime
    exact clamp_within ((((clamp_within hreliability).mul hstate (by norm_num)).mul hregime
      (by norm_num)).mul (drawdownFactor_within hdrawdown) (by norm_num)).ne_nan
  cases state <;> cases regime <;>
    exact hproduct _ _ (within_of_unit (by decide +kernel) (by decide +kernel))
      (within_of_unit (by decide +kernel) (by decide +kernel))

theorem dynamicPositionSizeMultiplier_invalid {reliability drawdownPct : F64}
    (hreliability : reliability ≠ nan) (hdrawdown : drawdownPct ≠ nan) (regime : EdgeRegime) :
    dynamicPositionSizeMultiplier reliability .invalid regime drawdownPct = 0 := by
  have hshare := (clamp_within hreliability).isFinite
  have hkept := (drawdownFactor_within hdrawdown).isFinite
  unfold dynamicPositionSizeMultiplier
  cases regime <;>
  · dsimp only
    rw [finite_mul_zero hshare, zero_mul_finite, zero_mul_finite hkept]
    all_goals decide +kernel

/-- The factors, of which saturation makes the second zero. -/
theorem positionSizeMultiplier_factors (reliability : F64) (state : EdgeState) (regime : EdgeRegime)
    (competitionState : CompetitionState) (drawdownPct : F64) (memory : RegimeMemory) :
    ∃ competitionFactor : F64, competitionFactor.isFinite = true ∧
      (competitionState = .saturated → competitionFactor = 0) ∧
      positionSizeMultiplier reliability state regime competitionState drawdownPct memory =
        (dynamicPositionSizeMultiplier reliability state regime drawdownPct * competitionFactor *
          regimeMemoryFactor memory).clamp 0 1.25 := by
  cases competitionState with
  | normal => exact ⟨1, by decide +kernel, nofun, rfl⟩
  | competitive => exact ⟨0.65, by decide +kernel, nofun, rfl⟩
  | saturated => exact ⟨0, by decide +kernel, fun _ => rfl, rfl⟩

/-- An edge that is invalid or a market that is saturated leaves nothing of the size,
unless a factor is not a number. -/
theorem positionSizeMultiplier_eq_zero_iff {reliability drawdownPct : F64} {state : EdgeState}
    {regime : EdgeRegime} {competitionState : CompetitionState} {memory : RegimeMemory}
    (hdisabled : state = .invalid ∨ competitionState = .saturated) (hmemory : Remembered memory) :
    positionSizeMultiplier reliability state regime competitionState drawdownPct memory = 0 ↔
      reliability ≠ nan ∧ drawdownPct ≠ nan ∧ Recalled memory := by
  obtain ⟨competitionFactor, hcompetition, hsaturated, hfactors⟩ :=
    positionSizeMultiplier_factors reliability state regime competitionState drawdownPct memory
  rw [hfactors]
  constructor
  · intro hzero
    by_contra hnan
    refine zero_ne_nan (hzero.symm.trans ?_)
    by_cases hreliability : reliability = nan
    · simp only [dynamicPositionSizeMultiplier, hreliability, clamp_nan, nan_mul]
    by_cases hdrawdown : drawdownPct = nan
    · simp only [dynamicPositionSizeMultiplier, hdrawdown, nan_mul, sub_nan, clamp_nan, mul_nan]
    · rw [regimeMemoryFactor_nan fun hrecalled => hnan ⟨hreliability, hdrawdown, hrecalled⟩,
        mul_nan, clamp_nan]
  · rintro ⟨hreliability, hdrawdown, hrecalled⟩
    have hfactor := regimeMemoryFactor_finite hmemory hrecalled
    rcases hdisabled with rfl | hstate
    · rw [dynamicPositionSizeMultiplier_invalid hreliability hdrawdown,
        zero_mul_finite hcompetition, zero_mul_finite hfactor]
      decide +kernel
    · have hwithin := dynamicPositionSizeMultiplier_within hreliability hdrawdown state regime
      rw [hsaturated hstate, finite_mul_zero hwithin.isFinite, zero_mul_finite hfactor]
      decide +kernel

end RealTimeTrading.Rtts.Floating.EdgeValidation
