/-
RealTimeTrading.Rtts.Accounting.StreamingMoments — the running moments of
the edge error are those of all errors so far.

The model keeps its mean and the sums of squared and cubed deviations from
it (`Tracks`), which one more value moves by terms of their own last values
(`Tracks.update`). That needs the number of values: the counter stops at
the largest `u64`, and the next value after that is weighed wrongly.
-/
import RealTimeTrading.Data.Moments
import RealTimeTrading.Rtts.Accounting.EdgeValidation
import RealTimeTrading.Rtts.Accounting.Quality

namespace RealTimeTrading.Rtts.Accounting.EdgeReliabilityModel

open Data EdgeValidation

/-- The model after these errors. -/
def after (errors : List ℚ) : EdgeReliabilityModel :=
  errors.foldl (fun model error => model.update error) {}

theorem after_concat (errors : List ℚ) (error : ℚ) :
    after (errors ++ [error]) = (after errors).update error := List.foldl_concat _ _ _ _

/-- The model holds the number, the mean and the deviations of these errors. -/
structure Tracks (errors : List ℚ) (model : EdgeReliabilityModel) : Prop where
  count : model.count = errors.length
  mean : deviations 1 model.mean errors = 0
  m2 : model.m2 = deviations 2 model.mean errors
  m3 : model.m3 = deviations 3 model.mean errors

theorem tracks_new : Tracks [] {} := ⟨rfl, rfl, rfl, rfl⟩

/-- Below its bound the counter counts the value. -/
theorem saturatingAddU64_one {n : Nat} (h : n + 1 < 2 ^ 64) : saturatingAddU64 n 1 = n + 1 :=
  min_eq_left (Nat.le_sub_one_of_lt h)

theorem Tracks.update {errors : List ℚ} {model : EdgeReliabilityModel} (h : Tracks errors model)
    (hlength : errors.length + 1 < 2 ^ 64) (error : ℚ) :
    Tracks (errors ++ [error]) (model.update error) := by
  have hcount : saturatingAddU64 model.count 1 = errors.length + 1 := by
    rw [h.count, saturatingAddU64_one hlength]
  have hmodel : model.update error =
      { count := errors.length + 1
        mean := model.mean + (error - model.mean) / (errors.length + 1)
        m2 := model.m2 + (error - model.mean) * ((error - model.mean) / (errors.length + 1)) *
          errors.length
        m3 := model.m3 + ((error - model.mean) * ((error - model.mean) / (errors.length + 1)) *
          errors.length * ((error - model.mean) / (errors.length + 1)) * (errors.length + 1 - 2) -
            3 * ((error - model.mean) / (errors.length + 1)) * model.m2) } := by
    unfold EdgeReliabilityModel.update
    rw [hcount, h.count]
    push_cast
    rfl
  have hdelta : error - model.mean =
      (errors.length + 1) * ((error - model.mean) / (errors.length + 1)) :=
    (mul_div_cancel₀ _ (Nat.cast_add_one_ne_zero errors.length)).symm
  rw [hmodel]
  refine ⟨?_, ?_, ?_, ?_⟩
  · simp
  · exact deviations_one_concat h.mean hdelta
  · rw [squares_concat h.mean hdelta, h.m2]
  · rw [cubes_concat h.mean hdelta, h.m2, h.m3]

theorem tracks_after {errors : List ℚ} (hlength : errors.length < 2 ^ 64) :
    Tracks errors (after errors) := by
  induction errors using List.reverseRecOn with
  | nil => exact tracks_new
  | append_singleton errors error ih =>
    rw [List.length_append, List.length_singleton] at hlength
    rw [after_concat]
    exact (ih (by omega)).update hlength error

theorem Tracks.mean_eq {errors : List ℚ} {model : EdgeReliabilityModel} (h : Tracks errors model)
    (hne : errors ≠ []) : model.mean = errors.sum / errors.length := by
  have hlength : (errors.length : ℚ) ≠ 0 := by simpa using hne
  have hmean := h.mean
  rw [deviations_one, sub_eq_zero] at hmean
  rw [hmean, mul_div_cancel_left₀ _ hlength]

/-- Both variances divide by one less than the number of values. -/
theorem rollingMoments_variance (sqrt : ℚ → ℚ) {values : List ℚ} (h : 2 ≤ values.length) :
    (rollingMoments sqrt values).variance =
      deviations 2 (values.sum / values.length) values / ((values.length - 1 : Nat) : ℚ) := by
  have hne : values ≠ [] := by
    rintro rfl
    cases h
  have hmean : EdgeValidation.mean values = values.sum / values.length := if_neg hne
  have hcast : ((values.length - 1 : Nat) : ℚ) = values.length - 1 := Nat.cast_pred (by omega)
  rw [rollingMoments, if_neg hne, hcast]
  dsimp only
  rw [if_pos (by omega), hmean]
  simp only [deviations, sq]

/-- Up to the counter's bound, the running moments of any errors are their moments. -/
theorem streaming_moments (sqrt : ℚ → ℚ) (powf : ℚ → ℚ → ℚ) {errors : List ℚ} (hne : errors ≠ [])
    (hlength : errors.length < 2 ^ 64) :
    (after errors).mean = errors.sum / errors.length ∧
      (after errors).m2 = (errors.map fun v => (v - (after errors).mean) ^ 2).sum ∧
      (after errors).m3 = (errors.map fun v => (v - (after errors).mean) ^ 3).sum ∧
      (2 ≤ errors.length →
        ((after errors).moments sqrt powf).variance =
            (after errors).m2 / ((errors.length - 1 : Nat) : ℚ) ∧
          ((after errors).moments sqrt powf).variance = (rollingMoments sqrt errors).variance) := by
  have htracks := tracks_after hlength
  have hmean := htracks.mean_eq hne
  refine ⟨hmean, htracks.m2, htracks.m3, fun htwo => ?_⟩
  have hvariance : ((after errors).moments sqrt powf).variance =
      (after errors).m2 / ((errors.length - 1 : Nat) : ℚ) := by
    rw [moments, htracks.count, if_neg (by omega)]
  refine ⟨hvariance, ?_⟩
  rw [hvariance, htracks.m2, hmean, rollingMoments_variance sqrt htwo]

/-- Three errors that stand off their mean, with the root left out. -/
theorem streaming_moments_threeErrors :
    (after [1, 2, 4]).mean = 7 / 3 ∧ (after [1, 2, 4]).m2 = 14 / 3 ∧
      ((after [1, 2, 4]).moments id fun v _ => v).variance =
        (rollingMoments id [1, 2, 4]).variance := by
  obtain ⟨hmean, hm2, -, hvariance⟩ :=
    streaming_moments id (fun v _ => v) (by decide : ([1, 2, 4] : List ℚ) ≠ []) (by decide)
  have hmean : (after [1, 2, 4]).mean = 7 / 3 := hmean.trans (by decide +kernel)
  rw [hmean] at hm2
  exact ⟨hmean, hm2.trans (by decide +kernel), (hvariance (by decide)).2⟩

/-! ## The counter's bound -/

theorem after_zeros (n : Nat) :
    after (List.replicate n 0) = { count := min n (2 ^ 64 - 1) } := by
  induction n with
  | zero => rfl
  | succ n ih =>
    have hcount : saturatingAddU64 (min n (2 ^ 64 - 1)) 1 = min (n + 1) (2 ^ 64 - 1) := by
      unfold saturatingAddU64
      omega
    rw [List.replicate_succ', after_concat, ih, EdgeReliabilityModel.update]
    simp only [hcount]
    simp

/-- As many errors of zero as the counter counts, and one more error. -/
def uncounted : List ℚ := List.replicate (2 ^ 64 - 1) 0 ++ [1]

/-- The last error is weighed as if it were the one before it. -/
theorem uncounted_mean : (after uncounted).mean ≠ uncounted.sum / uncounted.length := by
  have hcount : saturatingAddU64 (2 ^ 64 - 1) 1 = 2 ^ 64 - 1 := by
    unfold saturatingAddU64
    omega
  have hmean : (after uncounted).mean = 1 / (2 ^ 64 - 1) := by
    rw [uncounted, after_concat, after_zeros, min_self, EdgeReliabilityModel.update]
    simp only [hcount]
    norm_num
  have hsum : uncounted.sum = 1 := by
    rw [uncounted, List.sum_append, List.sum_replicate, smul_zero, List.sum_singleton, zero_add]
  have hlength : (uncounted.length : ℚ) = 2 ^ 64 := by
    rw [uncounted, List.length_append, List.length_replicate, List.length_singleton]
    norm_num
  rw [hmean, hsum, hlength]
  norm_num

end RealTimeTrading.Rtts.Accounting.EdgeReliabilityModel
