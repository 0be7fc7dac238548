/-
RealTimeTrading.ExecutionLearning.Floating.Scores — the robust scores of a
series, and of its scores.

A score is a stored number from 0 to 1, whatever the series. A row with too
few rows before it has one half, so scoring it again changes nothing; in every
other row it does exactly if the score does not rest against the median and
the deviation of the scores (`score_again_iff`). The first thirty-eight rows
are too early in any table (`fewRows_settled`), and of a constant reading
every score is one half (`constant_settled`).
-/
import RealTimeTrading.ExecutionLearning.Floating.Features

namespace RealTimeTrading.ExecutionLearning.Floating

open Data (F64 Finite64 binary64 binary64_binary64)
open Data.F64

variable {n : Nat}

/-! ## Numbers -/

theorem fillna_ne_nan {v default : F64} (h : default ≠ nan) : fillna v default ≠ nan := by
  unfold fillna
  split_ifs with hv
  · exact h
  · exact hv

theorem fillna_of_ne {v : F64} (h : v ≠ nan) (default : F64) : fillna v default = v := if_neg h

theorem replaceInf_of_finite {v : F64} (h : v.isFinite = true) : replaceInf v = v := by
  obtain ⟨x, rfl⟩ := exists_finite h
  rfl

theorem replaceInf_of_not_finite {v : F64} (h : v.isFinite ≠ true) : replaceInf v = 0 := by
  cases v with
  | finite x => exact absurd rfl h
  | nan => rfl
  | negInf => exact (congrArg (fillna · 0) (if_pos (.inr rfl))).trans (fillna_of_ne zero_ne_nan 0)
  | posInf => exact (congrArg (fillna · 0) (if_pos (.inl rfl))).trans (fillna_of_ne zero_ne_nan 0)

theorem replaceInf_finite (v : F64) : (replaceInf v).isFinite = true := by
  by_cases h : v.isFinite = true
  · rwa [replaceInf_of_finite h]
  · rw [replaceInf_of_not_finite h]
    exact isFinite_zero

theorem finite_ne_nan {v : F64} (h : v.isFinite = true) : v ≠ nan := by
  rintro rfl
  cases h

theorem replaceInf_replaceInf (v : F64) : replaceInf (replaceInf v) = replaceInf v :=
  replaceInf_of_finite (replaceInf_finite v)

/-- A clipped number is clipped again to itself. -/
theorem clip_clip {v lo hi : F64} (hv : v ≠ nan) (h : lo ≤ hi) :
    clip (clip v lo hi) lo hi = clip v lo hi :=
  clamp_of_mem (clamp_mem hv h).1 (clamp_mem hv h).2

theorem clip01_finite {v : F64} (h : v ≠ nan) : (clip01 v).isFinite = true :=
  isFinite_clamp h isFinite_zero isFinite_one

theorem clip01_clip01 {v : F64} (h : v ≠ nan) : clip01 (clip01 v) = clip01 v :=
  clip_clip h zero_le_one

/-- Clipped and then written, a number is the same when it is clipped and written again. -/
theorem replaceInf_clip_again {v lo hi : F64} (h : lo ≤ 0) (h' : 0 ≤ hi)
    (hlo : lo.isFinite = true) (hhi : hi.isFinite = true) :
    replaceInf (clip (replaceInf (clip v lo hi)) lo hi) = replaceInf (clip v lo hi) := by
  by_cases hv : v = nan
  · subst hv
    have hnan : clip nan lo hi = nan := clamp_nan lo hi
    rw [hnan]
    show replaceInf (clip 0 lo hi) = 0
    rw [clip, clamp_of_mem h h']
    exact replaceInf_of_finite isFinite_zero
  · have hfinite : (clip v lo hi).isFinite = true := isFinite_clamp hv hlo hhi
    rw [replaceInf_of_finite hfinite, clip_clip hv (le_trans h h'), replaceInf_of_finite hfinite]

theorem replaceInf_clipLower_not_neg (v : F64) : ¬replaceInf (clipLower v 0) < 0 := by
  have hzero : ¬(0 : F64) < 0 := fun h => not_le_of_lt h zero_le_zero
  unfold clipLower
  split_ifs with h
  · rwa [replaceInf_of_finite isFinite_zero]
  · by_cases hfinite : v.isFinite = true
    · rwa [replaceInf_of_finite hfinite]
    · rwa [replaceInf_of_not_finite hfinite]

theorem le_clipLower {v lo : F64} (hv : v ≠ nan) (hlo : lo ≠ nan) : lo ≤ clipLower v lo := by
  unfold clipLower
  split_ifs with h
  · exact le_self hlo
  · exact le_of_not_lt hv hlo h

theorem clipLower_eq_posInf_iff {v lo : F64} (hlo : lo.isFinite = true) :
    clipLower v lo = posInf ↔ v = posInf := by
  obtain ⟨x, rfl⟩ := exists_finite hlo
  unfold clipLower
  split_ifs with h
  · refine iff_of_false nofun ?_
    rintro rfl
    exact Bool.false_ne_true h
  · rfl

/-! ## Rolling medians -/

theorem median_within {bound : ℕ} {values : List F64} (hbound : 2 * bound ≤ 2 ^ 53)
    (h : ∀ v ∈ values, Within bound v) : Within bound (median values) := by
  have hat : ∀ k, Within bound ((values.insertionSort (· ≤ ·)).getD k 0) := by
    intro k
    rw [List.getD_eq_getElem?_getD]
    cases hk : (values.insertionSort (· ≤ ·))[k]? with
    | none => exact within_zero.mono (Nat.zero_le bound)
    | some v => exact h v ((List.perm_insertionSort _ _).mem_iff.mp (List.mem_of_getElem? hk))
  unfold median
  dsimp only
  split_ifs
  · exact hat _
  · exact Within.half ((hat _).add (hat _) (by omega)) (by omega)

theorem rollingMedian_of_few {window : Nat} {values : Series n} {i : Fin n}
    (h : (observed window values i).length < 20) : rollingMedian window values i = nan :=
  if_neg (not_le.mpr h)

theorem rollingMedian_within {window bound : Nat} {values : Series n} {i : Fin n}
    (hbound : 2 * bound ≤ 2 ^ 53)
    (hvalues : ∀ j, (values j).isFinite = true → Within bound (values j))
    (h : 20 ≤ (observed window values i).length) :
    Within bound (rollingMedian window values i) := by
  unfold rollingMedian
  rw [if_pos h]
  refine median_within hbound fun v hv => ?_
  obtain ⟨hmem, hfinite⟩ := List.mem_filter.mp hv
  obtain ⟨j, -, rfl⟩ := List.mem_map.mp hmem
  exact hvalues j hfinite

theorem half_nonneg {v : F64} (h : 0 ≤ v) : 0 ≤ v / 2 := by
  have htwo : (2 : F64) = finite (whole 2 (by norm_num)) := round_whole (by norm_num)
  have hpos : 0 < (whole 2 (by norm_num)).1 := by norm_num [whole]
  rw [htwo]
  cases v with
  | nan | negInf =>
    rw [zero_eq] at h
    cases h
  | posInf =>
    rw [posInf_div hpos, zero_eq]
    rfl
  | finite x =>
    rw [zero_eq, finite_le_finite] at h
    rw [div_finite x hpos.ne']
    exact round_nonneg (div_nonneg h hpos.le)

theorem median_nonneg {values : List F64} (h : ∀ v ∈ values, 0 ≤ v) : 0 ≤ median values := by
  have hat : ∀ k, 0 ≤ (values.insertionSort (· ≤ ·)).getD k 0 := by
    intro k
    rw [List.getD_eq_getElem?_getD]
    cases hk : (values.insertionSort (· ≤ ·))[k]? with
    | none => exact zero_le_zero
    | some v => exact h v ((List.perm_insertionSort _ _).mem_iff.mp (List.mem_of_getElem? hk))
  unfold median
  dsimp only
  split_ifs
  · exact hat _
  · exact half_nonneg (nonneg_add (hat _) (hat _))

theorem abs_nonneg_of_ne {v : F64} (h : v ≠ nan) : 0 ≤ v.abs := by
  cases v with
  | nan => exact absurd rfl h
  | finite x => exact round_nonneg (abs_nonneg _)
  | negInf | posInf =>
    rw [zero_eq]
    rfl

theorem rollingDeviation_nonneg {window : Nat} {values : Series n} {i : Fin n}
    (h : 20 ≤ (observed window (deviation window values) i).length) :
    0 ≤ rollingMedian window (deviation window values) i := by
  unfold rollingMedian
  rw [if_pos h]
  refine median_nonneg fun v hv => ?_
  obtain ⟨hmem, hfinite⟩ := List.mem_filter.mp hv
  obtain ⟨j, -, rfl⟩ := List.mem_map.mp hmem
  refine abs_nonneg_of_ne fun hnan => ?_
  rw [deviation, hnan] at hfinite
  cases hfinite

/-- Where more values are finite, more are observed. -/
theorem length_observed_le {window : Nat} {values values' : Series n}
    (h : ∀ j, (values j).isFinite = true → (values' j).isFinite = true) (i : Fin n) :
    (observed window values i).length ≤ (observed window values' i).length := by
  unfold observed
  rw [← List.countP_eq_length_filter, ← List.countP_eq_length_filter, List.countP_map,
    List.countP_map]
  exact List.countP_mono_left fun j _ hj => h j hj

/-! ## Scores -/

section Scores

variable (window : Nat) (series : Series n)

theorem half_pos : (0.5 : F64).isFinite = true ∧ (0 : F64) < 0.5 := by decide +kernel

/-- A score is a stored number from 0 to 1. -/
theorem score_within (i : Fin n) : Within 1 (boundedFromZ (robustZ window series) i) := by
  have hz : robustZ window series i ≠ nan := finite_ne_nan (replaceInf_finite _)
  have hthree : (3 : F64) = finite (whole 3 (by norm_num)) := round_whole (by norm_num)
  have hthird : robustZ window series i / 3 ≠ nan := by
    rw [hthree]
    exact div_ne_nan hz (by norm_num [whole])
  have hone : robustZ window series i / 3 + 1 ≠ nan := by
    rw [one_eq]
    exact add_finite_ne_nan hthird one64
  exact clamp_within (mul_ne_nan hone half_pos.1 half_pos.2)

theorem robustZ_of_few {i : Fin n}
    (h : (observed window (deviation window (filled series)) i).length < 20) :
    robustZ window series i = 0 := by
  show replaceInf (_ / (1.4826 * rollingMedian window (deviation window (filled series)) i +
    1e-9)) = 0
  rw [rollingMedian_of_few h, mul_nan, nan_add]
  have hquotient : ∀ v : F64, v / nan = nan := fun v => by cases v <;> rfl
  rw [hquotient]
  rfl

variable {window series}

/-- Of stored numbers from 0 to 1 everything has a deviation that has a rolling median. -/
theorem deviation_within (h : ∀ j, Within 1 (series j)) {i : Fin n}
    (henough : 20 ≤ (observed window series i).length) :
    Within 2 (deviation window series i) :=
  ((h i).sub (rollingMedian_within (by norm_num) (fun j _ => h j) henough) (by norm_num)).abs

theorem deviation_of_few {i : Fin n} (h : (observed window series i).length < 20) :
    deviation window series i = nan := by
  rw [deviation, rollingMedian_of_few h, sub_nan, abs_nan]

/-- A score has a deviation where its reading has one. -/
theorem finite_deviation_of_filled {score : Series n} (h : ∀ j, Within 1 (score j)) (j : Fin n)
    (hfinite : (deviation window (filled series) j).isFinite = true) :
    (deviation window score j).isFinite = true := by
  have henough : 20 ≤ (observed window (filled series) j).length := by
    by_contra hfew
    rw [deviation_of_few (not_le.mp hfew)] at hfinite
    cases hfinite
  refine (deviation_within h (henough.trans ?_)).isFinite
  exact length_observed_le (fun k _ => (h k).isFinite) j

theorem neutral : clip01 ((0 / 3 + 1) * 0.5) = 0.5 := by decide +kernel

/-- Without deviations of its scores a row is neutral. -/
theorem score_of_few {score : Series n} (h : ∀ j, Within 1 (score j)) {i : Fin n}
    (hfew : (observed window (deviation window score) i).length < 20) :
    boundedFromZ (robustZ window series) i = 0.5 := by
  have hreadings : (observed window (deviation window (filled series)) i).length ≤
      (observed window (deviation window score) i).length :=
    length_observed_le (finite_deviation_of_filled h) i
  rw [boundedFromZ, robustZ_of_few window series (hreadings.trans_lt hfew), neutral]

end Scores

/-! ## Scores of scores -/

/-- Scoring leaves a score where it is, against this median and this scale. -/
def Rests (y m s : F64) : Prop := clip01 (((y - m) / s / 3 + 1) * 0.5) = y

/-- Wherever the scores have a rolling deviation, the score rests. -/
def Settled (reading : Series n) : Prop :=
  let score := boundedFromZ (robustZ 200 reading)
  ∀ i, rollingMedian 200 (deviation 200 score) i ≠ nan →
    Rests (score i) (rollingMedian 200 score i)
      (1.4826 * rollingMedian 200 (deviation 200 score) i + 1e-9)

theorem finite_deviation_within {window : Nat} {score : Series n} (h : ∀ j, Within 1 (score j))
    {j : Fin n} (hfinite : (deviation window score j).isFinite = true) :
    Within 2 (deviation window score j) := by
  refine deviation_within h ?_
  by_contra hfew
  rw [deviation_of_few (not_le.mp hfew)] at hfinite
  cases hfinite

theorem rollingMedian_ne_nan_iff {window : Nat} {values : Series n} {i : Fin n}
    (h : ∀ j, (values j).isFinite = true → Within 2 (values j)) :
    rollingMedian window values i ≠ nan ↔ 20 ≤ (observed window values i).length := by
  constructor
  · intro hmedian
    by_contra hfew
    exact hmedian (rollingMedian_of_few (not_le.mp hfew))
  · exact fun henough => (rollingMedian_within (by norm_num) h henough).ne_nan

theorem scale_constants : ∃ c e : Finite64, (1.4826 : F64) = finite c ∧ (1e-9 : F64) = finite e ∧
    (0 ≤ c.1 ∧ c.1 ≤ 2) ∧ 2⁻¹ ^ 30 ≤ e.1 ∧ e.1 ≤ 1 :=
  ⟨⟨binary64 1.4826, binary64_binary64 _, by decide +kernel⟩,
    ⟨binary64 1e-9, binary64_binary64 _, by decide +kernel⟩, by decide +kernel⟩

/-- The scale is at least what keeps it from zero. -/
theorem scale_finite {mad : F64} (hmad : Within 2 mad) (hnonneg : 0 ≤ mad) :
    ∃ s : Finite64, 1.4826 * mad + 1e-9 = finite s ∧ 2⁻¹ ^ 30 ≤ s.1 := by
  obtain ⟨d, rfl, hd⟩ := hmad
  rw [zero_eq, finite_le_finite] at hnonneg
  have hd0 : 0 ≤ d.1 := hnonneg
  have hd2 : d.1 ≤ 2 := (abs_le.mp hd).2
  obtain ⟨c, e, hc, he, ⟨hc0, hc2⟩, hlow, he1⟩ := scale_constants
  -- a product of at most 4 and then a sum of at most 5
  obtain ⟨p, hp, hp0, hp4⟩ := round_between (q := c.1 * d.1) zero64 (whole 4 (by norm_num))
    (mul_nonneg hc0 hd0) ((mul_le_mul hc2 hd2 hd0 zero_le_two).trans (by norm_num [whole]))
  have hp0' : 0 ≤ p.1 := hp0
  have hp4' : p.1 ≤ 4 := by simpa [whole] using hp4
  obtain ⟨s, hs, hs0, -⟩ := round_between (q := p.1 + e.1) e (whole 5 (by norm_num))
    (by linarith) (by simp only [whole]; push_cast; linarith)
  refine ⟨s, ?_, hlow.trans hs0⟩
  have hproduct : (finite c * finite d : F64) = finite p := hp
  rw [hc, hproduct, he]
  exact hs

/-- Between scores no quotient of a score overflows. -/
theorem quotient_finite {v mad : F64} (hv : Within 2 v) (hmad : Within 2 mad) (hnonneg : 0 ≤ mad) :
    (v / (1.4826 * mad + 1e-9)).isFinite = true := by
  obtain ⟨x, rfl, hx⟩ := hv
  obtain ⟨s, hs, hlow⟩ := scale_finite hmad hnonneg
  have hpos : 0 < s.1 := lt_of_lt_of_le (by positivity) hlow
  rw [hs, div_finite x hpos.ne']
  refine (round_within (n := 2 ^ 31) (by norm_num) ?_).isFinite
  rw [abs_div, abs_of_pos hpos, div_le_iff₀ hpos]
  calc |x.1| ≤ 2 ^ 31 * 2⁻¹ ^ 30 := hx.trans (by norm_num)
    _ ≤ ((2 ^ 31 : ℕ) : ℚ) * s.1 := by
      rw [Nat.cast_pow]
      exact mul_le_mul_of_nonneg_left hlow (by positivity)

theorem filled_of_within {series : Series n} (h : ∀ j, Within 1 (series j)) :
    filled series = series := funext fun j => fillna_of_ne (h j).ne_nan 0

/-- A score with deviations around it, scored against its median and scale. -/
theorem score_of_scores {score : Series n} (h : ∀ j, Within 1 (score j)) {i : Fin n}
    (henough : 20 ≤ (observed 200 (deviation 200 score) i).length) :
    boundedFromZ (robustZ 200 score) i =
      clip01 (((score i - rollingMedian 200 score i) /
        (1.4826 * rollingMedian 200 (deviation 200 score) i + 1e-9) / 3 + 1) * 0.5) := by
  have hscores : 20 ≤ (observed 200 score i).length :=
    henough.trans (length_observed_le (fun j _ => (h j).isFinite) i)
  have hmedian : Within 1 (rollingMedian 200 score i) :=
    rollingMedian_within (by norm_num) (fun j _ => h j) hscores
  have hmad : Within 2 (rollingMedian 200 (deviation 200 score) i) :=
    rollingMedian_within (by norm_num) (fun j hj => finite_deviation_within h hj) henough
  unfold boundedFromZ robustZ
  rw [filled_of_within h, replaceInf_of_finite (quotient_finite ((h i).sub hmedian (by norm_num))
    hmad (rollingDeviation_nonneg henough))]

/-- Scoring the scores again leaves them exactly if they are settled. -/
theorem score_again_iff (reading : Series n) :
    boundedFromZ (robustZ 200 (boundedFromZ (robustZ 200 reading))) =
      boundedFromZ (robustZ 200 reading) ↔ Settled reading := by
  have hwithin := score_within 200 reading
  have hfew : ∀ i,
      (observed 200 (deviation 200 (boundedFromZ (robustZ 200 reading))) i).length < 20 →
        boundedFromZ (robustZ 200 reading) i = 0.5 := fun _ => score_of_few hwithin
  unfold Settled
  dsimp only
  rw [funext_iff]
  refine forall_congr' fun i => ?_
  have hearly := hfew i
  generalize boundedFromZ (robustZ 200 reading) = score at hwithin hearly ⊢
  by_cases henough : 20 ≤ (observed 200 (deviation 200 score) i).length
  · rw [score_of_scores hwithin henough]
    refine ⟨fun hrests _ => hrests, fun hrests => hrests ?_⟩
    exact ((rollingMedian_ne_nan_iff fun j hj => finite_deviation_within hwithin hj).mpr henough)
  · have hnan := rollingMedian_of_few (not_le.mp henough)
    rw [hearly (not_le.mp henough), score_of_few hwithin (not_le.mp henough)]
    exact iff_of_true rfl fun hsome => absurd hnan hsome

/-! ## The first rows -/

/-- How many rows stand in an interval. -/
theorem countP_finRange (n a b : Nat) :
    (List.finRange n).countP (fun j => a ≤ j.val ∧ j.val < b) = min n b - a := by
  induction n with
  | zero => simp
  | succ n ih =>
    have hbefore : ((List.finRange n).map Fin.castSucc).countP
        (fun j => a ≤ j.val ∧ j.val < b) = min n b - a := by
      rw [List.countP_map]
      exact ih
    rw [List.finRange_succ_last, List.countP_append, hbefore, List.countP_singleton]
    simp only [Fin.val_last, decide_eq_true_eq]
    split_ifs with hlast
    · omega
    · omega

/-- A window has no row after its own. -/
theorem countP_rows_le (window a : Nat) (i : Fin n) :
    (rows window i).countP (fun j => a ≤ j.val) ≤ i.val + 1 - a := by
  have hcount := countP_finRange n a (i.val + 1)
  rw [Nat.min_eq_right i.isLt] at hcount
  rw [rows, List.countP_filter, ← hcount]
  refine List.countP_mono_left fun j _ hj => ?_
  simp only [Bool.and_eq_true, decide_eq_true_eq] at hj ⊢
  omega

theorem length_observed_le_row (window : Nat) (values : Series n) (i : Fin n) :
    (observed window values i).length ≤ i.val + 1 := by
  have hrows := countP_rows_le window 0 i
  rw [List.countP_eq_length.mpr fun j _ => decide_eq_true (Nat.zero_le _)] at hrows
  unfold observed
  rw [← List.countP_eq_length_filter, List.countP_map]
  exact List.countP_le_length.trans hrows

/-- The first nineteen rows have no rolling median, and the nineteen after them too few
deviations for one. -/
theorem few_deviations {window : Nat} {values : Series n} {i : Fin n} (hi : i.val < 38) :
    (observed window (deviation window values) i).length < 20 := by
  have hlate : ∀ j, (deviation window values j).isFinite = true → 19 ≤ j.val := by
    intro j hj
    by_contra hearly
    rw [deviation_of_few ((length_observed_le_row window values j).trans_lt (by omega))] at hj
    cases hj
  have hcount := countP_rows_le window 19 i
  unfold observed
  rw [← List.countP_eq_length_filter, List.countP_map]
  have hle : (rows window i).countP (F64.isFinite ∘ deviation window values) ≤
      (rows window i).countP fun j => 19 ≤ j.val :=
    List.countP_mono_left fun j _ hj => decide_eq_true (hlate j hj)
  omega

theorem fewRows_settled (hn : n < 39) (reading : Series n) : Settled reading := by
  intro i hsome
  have hi := i.isLt
  exact absurd (rollingMedian_of_few (few_deviations (by omega))) hsome

/-! ## Constant readings -/

section Constant

theorem median_eq_or {v : F64} {values : List F64} (h : ∀ u ∈ values, u = v)
    (hsome : values ≠ []) : median values = v ∨ median values = (v + v) / 2 := by
  have hlength : (values.insertionSort (· ≤ ·)).length = values.length :=
    List.length_insertionSort _ _
  have hpos := List.length_pos_iff.mpr hsome
  have hat : ∀ k < values.length, (values.insertionSort (· ≤ ·)).getD k 0 = v := by
    intro k hk
    rw [List.getD_eq_getElem?_getD, List.getElem?_eq_getElem (hlength.symm ▸ hk), Option.getD_some]
    exact h _ ((List.perm_insertionSort _ _).mem_iff.mp (List.getElem_mem _))
  unfold median
  dsimp only
  rw [hlength]
  split_ifs
  · exact .inl (hat _ (by omega))
  · right
    rw [hat _ (by omega), hat _ (by omega)]

/-- The mean of two equal values overflows where their sum does. -/
theorem rollingMedian_constant (window : Nat) (v : F64) (i : Fin n) :
    rollingMedian window (fun _ => v) i = v ∨
      (rollingMedian window (fun _ => v) i).isFinite ≠ true := by
  unfold rollingMedian
  split_ifs with henough
  · have hvalues : ∀ u ∈ observed window (fun _ => v) i, u = v ∧ u.isFinite = true := by
      intro u hu
      obtain ⟨hmem, hfinite⟩ := List.mem_filter.mp hu
      obtain ⟨j, -, rfl⟩ := List.mem_map.mp hmem
      exact ⟨rfl, hfinite⟩
    have hsome : observed window (fun _ => v) i ≠ [] :=
      List.ne_nil_of_length_pos (by omega)
    obtain ⟨u, hu⟩ := List.exists_mem_of_ne_nil _ hsome
    obtain ⟨rfl, hfinite⟩ := hvalues u hu
    obtain ⟨x, rfl⟩ := exists_finite hfinite
    rcases median_eq_or (fun w hw => (hvalues w hw).1) hsome with heq | heq
    · exact .inl heq
    · rw [heq]
      exact halve_double x
  · exact .inr nofun

theorem sub_not_finite {v m : F64} (h : m.isFinite ≠ true) : (v - m).isFinite ≠ true := by
  cases m with
  | finite x => exact absurd rfl h
  | nan | negInf | posInf => cases v <;> exact nofun

theorem abs_not_finite {v : F64} (h : v.isFinite ≠ true) : v.abs.isFinite ≠ true := by
  cases v with
  | finite x => exact absurd rfl h
  | nan | negInf | posInf => exact nofun

theorem div_not_finite {v : F64} (h : v.isFinite ≠ true) {s : Finite64} (hs : 0 < s.1) :
    (v / finite s).isFinite ≠ true := by
  cases v with
  | finite x => exact absurd rfl h
  | nan => exact nofun
  | negInf =>
    rw [negInf_div hs]
    exact nofun
  | posInf =>
    rw [posInf_div hs]
    exact nofun

theorem zero_div_finite {s : Finite64} (hs : s.1 ≠ 0) : 0 / finite s = 0 := by
  rw [zero_eq, div_finite zero64 hs, show zero64.1 = 0 from rfl, zero_div]
  exact round_stored zero64

theorem abs_zero64 : (0 : F64).abs = 0 := by
  rw [zero_eq, abs_finite]
  exact congrArg finite (Subtype.ext abs_zero)

theorem sub_self_finite (x : Finite64) : finite x - finite x = 0 := by
  rw [sub_finite, sub_self]
  rfl

/-- A constant has no deviation but zero. -/
theorem deviation_constant {window : Nat} {v u : F64} {i : Fin n}
    (hu : u ∈ observed window (deviation window fun _ => v) i) : v.isFinite = true ∧ u = 0 := by
  obtain ⟨hmem, hfinite⟩ := List.mem_filter.mp hu
  obtain ⟨j, -, rfl⟩ := List.mem_map.mp hmem
  rcases rollingMedian_constant window v j with heq | hne
  · rw [deviation, heq] at hfinite ⊢
    cases v with
    | finite x =>
      rw [sub_self_finite]
      exact ⟨rfl, abs_zero64⟩
    | nan | negInf | posInf => cases hfinite
  · exact absurd hfinite (abs_not_finite (sub_not_finite hne))

/-- Where all readings are the same, every score is neutral. -/
theorem score_constant (window : Nat) (v : F64) :
    boundedFromZ (robustZ window fun _ : Fin n => v) = fun _ => 0.5 := by
  funext i
  have hzero : robustZ window (fun _ => v) i = 0 := by
    by_cases hfew : (observed window (deviation window (filled fun _ => v)) i).length < 20
    · exact robustZ_of_few window _ hfew
    have henough := not_lt.mp hfew
    have hfilled : filled (fun _ : Fin n => v) = fun _ => fillna v 0 := rfl
    unfold robustZ
    dsimp only
    rw [hfilled] at henough ⊢
    generalize fillna v 0 = w at henough ⊢
    have hsome : observed window (deviation window fun _ => w) i ≠ [] :=
      List.ne_nil_of_length_pos (by omega)
    obtain ⟨u, hu⟩ := List.exists_mem_of_ne_nil _ hsome
    obtain ⟨x, rfl⟩ := exists_finite (deviation_constant hu).1
    have hmad : rollingMedian window (deviation window fun _ => finite x) i = 0 := by
      have hhalf : ((0 : F64) + 0) / 2 = 0 := by
        have htwo : (2 : F64) = finite (whole 2 (by norm_num)) := round_whole (by norm_num)
        have hsum : (0 : F64) + 0 = 0 := by
          rw [zero_eq]
          exact (congrArg F64.round (add_zero _)).trans (round_stored zero64)
        rw [hsum, htwo]
        exact zero_div_finite (by norm_num [whole])
      rw [rollingMedian, if_pos henough]
      rcases median_eq_or (fun w hw => (deviation_constant hw).2) hsome with heq | heq
      · exact heq
      · exact heq.trans hhalf
    obtain ⟨s, hs, hlow⟩ := scale_finite (within_zero.mono (Nat.zero_le 2)) zero_le_zero
    have hpos : 0 < s.1 := lt_of_lt_of_le (by positivity) hlow
    rw [hmad, hs]
    rcases rollingMedian_constant window (finite x) i with heq | hne
    · rw [heq, sub_self_finite, zero_div_finite hpos.ne']
      exact replaceInf_of_finite isFinite_zero
    · exact replaceInf_of_not_finite (div_not_finite (sub_not_finite hne) hpos)
  rw [boundedFromZ, hzero, neutral]

theorem constant_settled (v : F64) : Settled fun _ : Fin n => v := by
  rw [← score_again_iff, score_constant, score_constant]

end Constant

end RealTimeTrading.ExecutionLearning.Floating
