/-
RealTimeTrading.Rtts.Accounting.ColdStart — the edge validator before it
has seen enough to judge by.

With fewer samples than `MIN_VALIDATION_SAMPLES` the edge is uncertain,
so trading depends on the competition alone. Clean samples leave nothing
to hold against it: the fill rates are all one, no flag is set and the
streak does not start (`Untainted`). Without any sample the mean of the
fill rates is `0`, and that reads as saturation.
-/
import Mathlib.Data.List.Induction
import Mathlib.Tactic.FieldSimp
import Mathlib.Tactic.Linarith
import RealTimeTrading.Rtts.Accounting.EdgeValidation

namespace RealTimeTrading.Rtts.EdgeValidation

/-! ## Observations -/

/-- What an engine is told, in the order it is told. -/
inductive Observation where
  | sample (sample : LearningSample) (drawdownPct : ℚ)
  | failure (reason : ExecutionFailureReason)

def EdgeValidationEngine.tell (sqrt : ℚ → ℚ) (engine : EdgeValidationEngine) :
    Observation → EdgeValidationEngine
  | .sample sample drawdownPct => (engine.observe sqrt sample drawdownPct).2
  | .failure reason => engine.observeFailure reason

/-- A new engine after these observations. -/
def told (sqrt : ℚ → ℚ) (window : Nat) (observations : List Observation) : EdgeValidationEngine :=
  observations.foldl (·.tell sqrt) (.new window)

def Observation.sample? : Observation → Option LearningSample
  | .sample learned _ => some learned
  | .failure _ => none

def samplesOf (observations : List Observation) : List LearningSample :=
  observations.filterMap (·.sample?)

/-- Filled whole, without competition, at no loss to what was expected. -/
structure Clean (sample : LearningSample) : Prop where
  filled : sample.fillRatio = 1
  competition : sample.competitionState = .normal
  capture : 0 ≤ sample.pnl * sample.expectedMarkout

/-! ## Windows of equal values -/

theorem pushCapped_replicate {A : Type} {n capacity : Nat} (h : n < capacity) (value : A) :
    pushCapped (List.replicate n value) value capacity = List.replicate (n + 1) value := by
  unfold pushCapped
  rw [List.length_replicate, if_neg h.ne, ← List.replicate_succ']

theorem length_pushCapped {A : Type} {queue : List A} {capacity : Nat}
    (h : queue.length < capacity) (value : A) :
    (pushCapped queue value capacity).length = queue.length + 1 := by
  unfold pushCapped
  rw [if_neg h.ne, List.length_append, List.length_singleton]

theorem mean_replicate {n : Nat} (hn : n ≠ 0) (value : ℚ) :
    mean (List.replicate n value) = value := by
  have hpos : (n : ℚ) ≠ 0 := Nat.cast_ne_zero.mpr hn
  unfold mean
  rw [if_neg (by simpa using hn), List.sum_replicate, List.length_replicate, nsmul_eq_mul]
  field_simp

/-! ## Capture -/

/-- The noise filter does not change a sign. -/
theorem filterNoise_mul_nonneg {a b : ℚ} (h : 0 ≤ a * b) : 0 ≤ filterNoise a * filterNoise b := by
  unfold filterNoise
  split_ifs
  · rw [zero_mul]
  · rw [zero_mul]
  · rw [mul_zero]
  · exact h

theorem Clean.captureRatio_nonneg {sample : LearningSample} (h : Clean sample)
    (engine : EdgeValidationEngine) : 0 ≤ (engine.record sample).1.2 := by
  have hcapture := filterNoise_mul_nonneg h.capture
  show 0 ≤ if noiseFloor < |filterNoise sample.expectedMarkout| then
      clamp (filterNoise sample.pnl / filterNoise sample.expectedMarkout) (-5) 5 else 0
  split_ifs
  · have hratio : 0 ≤ filterNoise sample.pnl / filterNoise sample.expectedMarkout := by
      rw [div_eq_mul_inv]
      rcases le_or_gt 0 (filterNoise sample.expectedMarkout) with hpos | hneg
      · rcases hpos.eq_or_lt with hzero | hpos
        · rw [← hzero, inv_zero, mul_zero]
        · exact mul_nonneg (nonneg_of_mul_nonneg_left hcapture hpos) (inv_nonneg.mpr hpos.le)
      · exact mul_nonneg_of_nonpos_of_nonpos (nonpos_of_mul_nonneg_left hcapture hneg)
          (inv_nonpos.mpr hneg.le)
    unfold clamp
    split_ifs
    · linarith
    · norm_num
    · exact hratio
  · exact le_rfl

/-! ## Clean engines -/

/-- An engine told of `n` samples, all of them clean. -/
structure Untainted (n : Nat) (engine : EdgeValidationEngine) : Prop where
  capacity : minValidationSamples ≤ engine.capacity
  minSamples : engine.minSamples = minValidationSamples
  samples : engine.realizedPnls.length = n
  fillRates : engine.fillRates = List.replicate n 1
  outbidFlags : engine.outbidFlags = List.replicate n 0
  streak : engine.negativeCaptureStreak = 0

theorem untainted_new (window : Nat) : Untainted 0 (.new window) where
  capacity := le_trans (by decide) (le_max_right window 32)
  minSamples := rfl
  samples := rfl
  fillRates := rfl
  outbidFlags := rfl
  streak := rfl

theorem Untainted.observeFailure {n : Nat} {engine : EdgeValidationEngine}
    (h : Untainted n engine) (reason : ExecutionFailureReason) :
    Untainted n (engine.observeFailure reason) :=
  ⟨h.capacity, h.minSamples, h.samples, h.fillRates, h.outbidFlags, h.streak⟩

theorem Untainted.observe {n : Nat} {engine : EdgeValidationEngine} (h : Untainted n engine)
    (hn : n < minValidationSamples) {sample : LearningSample} (hclean : Clean sample)
    (sqrt : ℚ → ℚ) (drawdownPct : ℚ) :
    Untainted (n + 1) (engine.observe sqrt sample drawdownPct).2 := by
  have hroom : n < engine.capacity := hn.trans_le h.capacity
  have hcapture := hclean.captureRatio_nonneg engine
  exact {
    capacity := h.capacity
    minSamples := h.minSamples
    samples := by
      show (pushCapped engine.realizedPnls _ engine.capacity).length = n + 1
      rw [length_pushCapped (h.samples.symm ▸ hroom), h.samples]
    fillRates := by
      show pushCapped engine.fillRates (clamp sample.fillRatio 0 1) engine.capacity = _
      rw [hclean.filled, clamp_of_mem zero_le_one le_rfl, h.fillRates, pushCapped_replicate hroom]
    outbidFlags := by
      simp only [EdgeValidationEngine.observe, EdgeValidationEngine.record, hclean.competition,
        h.outbidFlags]
      exact pushCapped_replicate hroom 0
    streak := by
      show (if (engine.record sample).1.2 < -0.05 then
        saturatingAddUsize engine.negativeCaptureStreak 1 else engine.negativeCaptureStreak - 1) = 0
      rw [if_neg (by linarith), h.streak] }

/-- Fewer than `MIN_VALIDATION_SAMPLES` samples, all clean, and any failures. -/
theorem untainted_told (sqrt : ℚ → ℚ) (window : Nat) (observations : List Observation)
    (hfew : (samplesOf observations).length < minValidationSamples)
    (hclean : ∀ sample ∈ samplesOf observations, Clean sample) :
    Untainted (samplesOf observations).length (told sqrt window observations) := by
  induction observations using List.reverseRecOn with
  | nil => exact untainted_new window
  | append_singleton earlier last ih =>
    simp only [samplesOf, List.filterMap_append, List.length_append, List.mem_append] at hfew hclean
    have hbefore := ih (by simp only [samplesOf]; omega) fun s hs => hclean s (Or.inl hs)
    simp only [told, List.foldl_append, List.foldl_cons, List.foldl_nil, samplesOf,
      List.filterMap_append, List.length_append]
    cases last with
    | failure reason => exact hbefore.observeFailure reason
    | sample sample drawdownPct =>
      have hlast : Clean sample := hclean sample (Or.inr (by simp [Observation.sample?]))
      exact hbefore.observe (by simp only [samplesOf]; omega) hlast sqrt drawdownPct

/-! ## The verdict -/

section Verdict

variable {n : Nat} {engine : EdgeValidationEngine} (sqrt : ℚ → ℚ)

theorem Untainted.edgeState (h : Untainted n engine) (hn : n < minValidationSamples) :
    engine.edgeState sqrt = .uncertain := by
  refine if_pos ?_
  rw [h.samples, h.minSamples]
  exact hn

/-- Clean samples: only the size of the edges and the slippage count. -/
theorem Untainted.competitionScore_le (h : Untainted n engine) (hn : n ≠ 0) :
    engine.competitionScore sqrt ≤ 0.45 := by
  have hpressure : ∀ v : ℚ, clamp v 0 1 ≤ 1 := fun v => clamp_le zero_le_one
  have hbound : ∀ v : ℚ, v ≤ 0.45 → clamp v 0 1 ≤ 0.45 := by
    intro v hv
    unfold clamp
    split_ifs <;> linarith
  unfold EdgeValidationEngine.competitionScore EdgeValidation.competitionScore
  rw [h.fillRates, h.outbidFlags, mean_replicate hn, mean_replicate hn]
  refine hbound _ ?_
  rw [sub_self, clamp_of_mem le_rfl zero_le_one]
  split_ifs
  · linarith [hpressure (max (mean engine.expectedEdges) 0 / 4),
      hpressure (mean engine.slippages / 12)]
  · linarith [hpressure (max (mean engine.expectedEdges) 0 / 4),
      hpressure (mean engine.slippages / 20)]

/-- Competition saturates an untainted engine only before its first sample. -/
theorem Untainted.saturated_iff (h : Untainted n engine) :
    engine.competitionState sqrt = .saturated ↔ n = 0 := by
  unfold EdgeValidationEngine.competitionState classifyCompetition
  rw [h.fillRates, h.streak]
  by_cases hn : n = 0
  · subst hn
    rw [if_pos (Or.inr (Or.inl (by norm_num [mean])))]
    exact iff_of_true rfl rfl
  · have hscore := h.competitionScore_le sqrt hn
    rw [mean_replicate hn, if_neg]
    · refine iff_of_false ?_ hn
      split_ifs <;> simp
    · rintro (hhigh | hlow | hstreak)
      · linarith
      · norm_num at hlow
      · omega

end Verdict

/-- Before there is evidence, clean samples keep trading enabled exactly if
there is one. -/
theorem tradingEnabled_iff (sqrt : ℚ → ℚ) (window : Nat) (observations : List Observation)
    (hfew : (samplesOf observations).length < minValidationSamples)
    (hclean : ∀ sample ∈ samplesOf observations, Clean sample) (met : List RegimeMemory)
    (drawdownPct : ℚ) :
    ((told sqrt window observations).snapshot sqrt met drawdownPct).tradingEnabled = true ↔
      samplesOf observations ≠ [] := by
  have h := untainted_told sqrt window observations hfew hclean
  show (decide (_ ≠ _) && decide (_ ≠ _)) = true ↔ _
  rw [h.edgeState sqrt hfew, Bool.and_eq_true, decide_eq_true_iff, decide_eq_true_iff, ne_eq, ne_eq,
    h.saturated_iff sqrt, List.length_eq_zero_iff]
  exact and_iff_right (by decide)

/-- Nothing learned, and trading is disabled. -/
theorem nothing_learned_disables : ¬ ∀ observations : List Observation,
    (samplesOf observations).length < minValidationSamples →
      (∀ sample ∈ samplesOf observations, Clean sample) →
      ((told id defaultWindow observations).snapshot id [] 0).tradingEnabled = true := by
  intro h
  exact absurd (h [] (by decide) (by simp [samplesOf])) (by decide +kernel)

/-- A trade that earned what it was expected to. -/
def firstSample : LearningSample :=
  { actualSlippageBps := 1
    pnl := 2
    expectedMarkout := 2
    realizedMarkout := 2
    executionAlpha := 0
    fillRatio := 1
    edgeComponent := 2
    executionLoss := 0
    feesRebatesComponent := 0
    adverseSelectionLoss := 0
    competitionState := .normal
    durationMs := 25
    regime := ⟨0, 0, 0⟩ }

/-- One sample, with `id` for the square root of `0` and of `1`. -/
theorem tradingEnabled_iff_first :
    ((told id defaultWindow [.sample firstSample 0]).snapshot id [] 0).tradingEnabled = true ↔
      samplesOf [.sample firstSample 0] ≠ [] := by
  refine tradingEnabled_iff id defaultWindow [.sample firstSample 0] (by decide) ?_ [] 0
  intro sample hsample
  obtain rfl : sample = firstSample := by simpa [samplesOf, Observation.sample?] using hsample
  exact ⟨rfl, rfl, by decide +kernel⟩

end RealTimeTrading.Rtts.EdgeValidation
