/-
RealTimeTrading.Data.Ecdf — the empirical distribution function of a list,
and how far two of them are apart.

`ecdf l x` is the share of `l` that is at most `x`. It jumps at the values of
`l` and is constant between them, so two of them are farthest apart at a value
of one of the lists (`isGreatest_ksDistance`), whatever larger order the points
are taken from (`isGreatest_gap_map`). The lemmas on `s ++ t` read a share off a
cursor that has `s` behind it.
-/
import RealTimeTrading.Data.Peak
import Mathlib.Algebra.Order.Field.Basic
import Mathlib.Algebra.Order.Ring.Rat
import Mathlib.Data.List.TakeWhile
import Mathlib.Data.Real.Basic
import Mathlib.Order.Bounds.Basic
import Mathlib.Tactic.Linarith
import Mathlib.Tactic.Ring

namespace RealTimeTrading.Data

variable {α : Type}

/-! ## The share of a list with a property -/

def share (p : α → Prop) [DecidablePred p] (l : List α) : ℚ :=
  (l.countP fun v => decide (p v)) / l.length

section Share

variable {p q : α → Prop} [DecidablePred p] [DecidablePred q] {l l' s t : List α}

theorem ratio_mono {k k' : ℕ} (h : k ≤ k') (n : ℕ) : (k : ℚ) / n ≤ k' / n :=
  div_le_div_of_nonneg_right (by exact_mod_cast h) (Nat.cast_nonneg n)

theorem share_nonneg (p : α → Prop) [DecidablePred p] (l : List α) : 0 ≤ share p l :=
  div_nonneg (Nat.cast_nonneg _) (Nat.cast_nonneg _)

theorem share_le_one (p : α → Prop) [DecidablePred p] (l : List α) : share p l ≤ 1 :=
  div_le_one_of_le₀ (by exact_mod_cast List.countP_le_length) (Nat.cast_nonneg _)

theorem share_mono (h : ∀ v ∈ l, p v → q v) : share p l ≤ share q l :=
  ratio_mono (List.countP_mono_left fun v hv hp => by
    simp only [decide_eq_true_eq] at hp ⊢
    exact h v hv hp) _

theorem share_congr (h : ∀ v ∈ l, p v ↔ q v) : share p l = share q l :=
  (share_mono fun v hv => (h v hv).mp).antisymm (share_mono fun v hv => (h v hv).mpr)

theorem share_perm (h : l.Perm l') : share p l = share p l' := by
  rw [share, share, h.countP_eq, h.length_eq]

theorem share_map {β : Type} (f : β → α) (l : List β) :
    share p (l.map f) = share (fun v => p (f v)) l := by
  rw [share, share, List.countP_map, List.length_map]
  rfl

theorem countP_eq_length_of_forall (h : ∀ v ∈ l, p v) :
    l.countP (fun v => decide (p v)) = l.length :=
  List.countP_eq_length.mpr fun v hv => decide_eq_true (h v hv)

theorem countP_eq_zero_of_forall (h : ∀ v ∈ l, ¬p v) : l.countP (fun v => decide (p v)) = 0 :=
  List.countP_eq_zero.mpr fun v hv => by simpa using h v hv

theorem share_eq_one (hl : l ≠ []) (h : ∀ v ∈ l, p v) : share p l = 1 := by
  rw [share, countP_eq_length_of_forall h]
  exact div_self (Nat.cast_ne_zero.mpr (mt List.length_eq_zero_iff.mp hl))

theorem share_eq_zero (h : ∀ v ∈ l, ¬p v) : share p l = 0 := by
  rw [share, countP_eq_zero_of_forall h, Nat.cast_zero, zero_div]

/-! ### Behind and ahead of a cursor -/

theorem le_share_front (hs : ∀ v ∈ s, p v) (t : List α) :
    (s.length : ℚ) / (s ++ t).length ≤ share p (s ++ t) := by
  refine ratio_mono ?_ _
  rw [List.countP_append, countP_eq_length_of_forall hs]
  exact Nat.le_add_right _ _

theorem share_front_le (ht : ∀ v ∈ t, ¬p v) (s : List α) :
    share p (s ++ t) ≤ (s.length : ℚ) / (s ++ t).length := by
  refine ratio_mono ?_ _
  rw [List.countP_append, countP_eq_zero_of_forall ht, Nat.add_zero]
  exact List.countP_le_length

theorem share_front (hs : ∀ v ∈ s, p v) (ht : ∀ v ∈ t, ¬p v) :
    share p (s ++ t) = (s.length : ℚ) / (s ++ t).length :=
  (share_front_le ht s).antisymm (le_share_front hs t)

end Share

variable [LinearOrder α]

theorem le_of_mem_takeWhile {l : List α} {x v : α}
    (h : v ∈ l.takeWhile fun w => decide (w ≤ x)) : v ≤ x :=
  of_decide_eq_true (p := v ≤ x) (List.mem_takeWhile_imp (p := fun w => decide (w ≤ x)) h)

/-- Past the values up to `x` a sorted list has no more of them. -/
theorem lt_of_mem_dropWhile {l : List α} (hl : l.Pairwise (· ≤ ·)) {x v : α}
    (h : v ∈ l.dropWhile fun w => decide (w ≤ x)) : x < v := by
  induction l with
  | nil => simp at h
  | cons a l ih =>
    have hcons := List.pairwise_cons.mp hl
    by_cases ha : a ≤ x
    · rw [List.dropWhile_cons_of_pos (by simpa using ha)] at h
      exact ih hcons.2 h
    · rw [List.dropWhile_cons_of_neg (by simpa using ha)] at h
      rcases List.mem_cons.mp h with rfl | h
      · exact not_le.mp ha
      · exact (not_le.mp ha).trans_le (hcons.1 v h)

/-! ## The empirical distribution function -/

/-- The share of the list that is at most `x`. -/
def ecdf (l : List α) (x : α) : ℚ := share (· ≤ x) l

theorem ecdf_map {β : Type} [LinearOrder β] {f : α → β} (hf : StrictMono f) (l : List α) (x : α) :
    ecdf (l.map f) (f x) = ecdf l x := by
  rw [ecdf, share_map]
  exact share_congr fun _ _ => hf.le_iff_le

/-! ## The distance of two of them -/

/-- How far the two distribution functions are apart at `x`. -/
def gap (a b : List α) (x : α) : ℚ := |ecdf a x - ecdf b x|

variable {a b : List α}

theorem gap_nonneg (a b : List α) (x : α) : 0 ≤ gap a b x := abs_nonneg _

theorem gap_comm (a b : List α) (x : α) : gap a b x = gap b a x := abs_sub_comm _ _

theorem gap_le_one (a b : List α) (x : α) : gap a b x ≤ 1 :=
  abs_sub_le_iff.mpr
    ⟨(sub_le_self _ (share_nonneg _ b)).trans (share_le_one _ a),
     (sub_le_self _ (share_nonneg _ a)).trans (share_le_one _ b)⟩

theorem gap_perm {a' b' : List α} (ha : a.Perm a') (hb : b.Perm b') (x : α) :
    gap a b x = gap a' b' x := by
  rw [gap, gap, ecdf, ecdf, ecdf, ecdf, share_perm ha, share_perm hb]

theorem gap_of_perm (h : a.Perm b) (x : α) : gap a b x = 0 := by
  rw [gap, ecdf, ecdf, share_perm h, sub_self, abs_zero]

/-- Once one list has ended, the distribution function of the other can only climb
towards it: a point ahead of both cursors sees at most the gap between them. -/
theorem gap_ahead {s t r : List α} {x : α} (hs : s ≠ []) (hsx : ∀ v ∈ s, v ≤ x)
    (htx : ∀ v ∈ t, v ≤ x) :
    gap s (t ++ r) x ≤ |(s.length : ℚ) / s.length - (t.length : ℚ) / (t ++ r).length| := by
  have hended : ecdf s x = 1 := share_eq_one hs hsx
  have hfull : (s.length : ℚ) / s.length = 1 :=
    div_self (Nat.cast_ne_zero.mpr (mt List.length_eq_zero_iff.mp hs))
  have hclimbs : (t.length : ℚ) / (t ++ r).length ≤ ecdf (t ++ r) x := le_share_front htx r
  have hbelow : ecdf (t ++ r) x ≤ 1 := share_le_one _ _
  rw [gap, hended, hfull, abs_of_nonneg (by linarith)]
  exact (sub_le_sub_left hclimbs 1).trans (le_abs_self _)

/-- The largest of the values of a list with a property, if there is one. -/
theorem exists_largest {l : List α} {p : α → Prop} (h : ∃ v ∈ l, p v) :
    ∃ v ∈ l, p v ∧ ∀ w ∈ l, p w → w ≤ v := by
  induction l with
  | nil => simp at h
  | cons u l ih =>
    by_cases hl : ∃ v ∈ l, p v
    · obtain ⟨v, hv, hpv, hlargest⟩ := ih hl
      by_cases hu : p u ∧ v ≤ u
      · refine ⟨u, List.mem_cons_self, hu.1, fun w hw hpw => ?_⟩
        rcases List.mem_cons.mp hw with rfl | hw
        · exact le_refl w
        · exact (hlargest w hw hpw).trans hu.2
      · refine ⟨v, List.mem_cons_of_mem _ hv, hpv, fun w hw hpw => ?_⟩
        rcases List.mem_cons.mp hw with rfl | hw
        · exact (not_le.mp fun hle => hu ⟨hpw, hle⟩).le
        · exact hlargest w hw hpw
    · obtain ⟨v, hv, hpv⟩ := h
      rcases List.mem_cons.mp hv with rfl | hv
      · refine ⟨v, List.mem_cons_self, hpv, fun w hw hpw => ?_⟩
        rcases List.mem_cons.mp hw with rfl | hw
        · exact le_refl w
        · exact absurd ⟨w, hw, hpw⟩ hl
      · exact absurd ⟨v, hv, hpv⟩ hl

/-- What an initial segment of the order sees is the gap at some value, or nothing. -/
theorem share_sub_eq_gap {p : α → Prop} [DecidablePred p] (hp : ∀ {v w}, p v → w ≤ v → p w) :
    |share p a - share p b| = 0 ∨ ∃ v ∈ a ++ b, |share p a - share p b| = gap a b v := by
  by_cases h : ∃ v ∈ a ++ b, p v
  · obtain ⟨v, hv, hpv, hlargest⟩ := exists_largest h
    have ha : share p a = ecdf a v := share_congr fun w hw =>
      ⟨hlargest w (List.mem_append_left b hw), hp hpv⟩
    have hb : share p b = ecdf b v := share_congr fun w hw =>
      ⟨hlargest w (List.mem_append_right a hw), hp hpv⟩
    exact .inr ⟨v, hv, by rw [gap, ha, hb]⟩
  · left
    rw [share_eq_zero fun v hv hpv => h ⟨v, List.mem_append_left b hv, hpv⟩,
      share_eq_zero fun v hv hpv => h ⟨v, List.mem_append_right a hv, hpv⟩, sub_self, abs_zero]

/-- The Kolmogorov-Smirnov distance: the largest gap at a value of either list. -/
def ksDistance (a b : List α) : ℚ := peak 0 ((a ++ b).map (gap a b))

theorem ksDistance_le_iff {bound : ℚ} :
    ksDistance a b ≤ bound ↔ 0 ≤ bound ∧ ∀ v ∈ a ++ b, gap a b v ≤ bound := by
  rw [ksDistance, peak_le_iff, List.forall_mem_map]

theorem ksDistance_perm_le {a' b' : List α} (ha : a.Perm a') (hb : b.Perm b') :
    ksDistance a b ≤ ksDistance a' b' := by
  have hbound := ksDistance_le_iff.mp (le_refl (ksDistance a' b'))
  refine ksDistance_le_iff.mpr ⟨hbound.1, fun v hv => ?_⟩
  rw [gap_perm ha hb]
  exact hbound.2 v ((ha.append hb).mem_iff.mp hv)

theorem ksDistance_perm {a' b' : List α} (ha : a.Perm a') (hb : b.Perm b') :
    ksDistance a b = ksDistance a' b' :=
  (ksDistance_perm_le ha hb).antisymm (ksDistance_perm_le ha.symm hb.symm)

theorem ksDistance_comm (a b : List α) : ksDistance a b = ksDistance b a := by
  refine le_antisymm ?_ ?_ <;>
  · refine ksDistance_le_iff.mpr ⟨(ksDistance_le_iff.mp le_rfl).1, fun v hv => ?_⟩
    rw [gap_comm]
    exact (ksDistance_le_iff.mp le_rfl).2 v (List.perm_append_comm.mem_iff.mp hv)

theorem ksDistance_le_one (a b : List α) : ksDistance a b ≤ 1 :=
  ksDistance_le_iff.mpr ⟨zero_le_one, fun v _ => gap_le_one a b v⟩

theorem ksDistance_nonneg (a b : List α) : 0 ≤ ksDistance a b :=
  (ksDistance_le_iff.mp le_rfl).1

theorem ksDistance_of_perm (h : a.Perm b) : ksDistance a b = 0 :=
  (ksDistance_le_iff.mpr ⟨le_rfl, fun v _ => (gap_of_perm h v).le⟩).antisymm
    (ksDistance_nonneg a b)

theorem share_sub_le_ksDistance {p : α → Prop} [DecidablePred p]
    (hp : ∀ {v w}, p v → w ≤ v → p w) : |share p a - share p b| ≤ ksDistance a b := by
  have hbound := ksDistance_le_iff.mp (le_refl (ksDistance a b))
  rcases share_sub_eq_gap hp with h | ⟨v, hv, h⟩
  · exact h ▸ hbound.1
  · exact h ▸ hbound.2 v hv

theorem gap_le_ksDistance (a b : List α) (x : α) : gap a b x ≤ ksDistance a b :=
  share_sub_le_ksDistance fun hv hw => hw.trans hv

theorem exists_gap_eq_ksDistance (ha : a ≠ []) : ∃ v ∈ a ++ b, gap a b v = ksDistance a b := by
  rcases peak_eq_or_mem 0 ((a ++ b).map (gap a b)) with hzero | hmem
  · obtain ⟨v, hv⟩ := List.exists_mem_of_ne_nil a ha
    refine ⟨v, List.mem_append_left b hv, (gap_le_ksDistance a b v).antisymm ?_⟩
    exact (le_of_eq hzero).trans (gap_nonneg a b v)
  · exact List.mem_map.mp hmem

/-- The distance is the maximum of the gap over every point there is. -/
theorem isGreatest_ksDistance (ha : a ≠ []) :
    IsGreatest (Set.range (gap a b)) (ksDistance a b) := by
  obtain ⟨v, -, hv⟩ := exists_gap_eq_ksDistance (b := b) ha
  exact ⟨⟨v, hv⟩, fun _ ⟨x, hx⟩ => hx ▸ gap_le_ksDistance a b x⟩

theorem gap_map {β : Type} [LinearOrder β] {f : α → β} (hf : StrictMono f) (a b : List α) (x : α) :
    gap (a.map f) (b.map f) (f x) = gap a b x := by
  rw [gap, gap, ecdf_map hf, ecdf_map hf]

theorem ksDistance_map {β : Type} [LinearOrder β] {f : α → β} (hf : StrictMono f)
    (a b : List α) : ksDistance (a.map f) (b.map f) = ksDistance a b := by
  rw [ksDistance, ksDistance, ← List.map_append, List.map_map]
  exact congrArg (peak 0) (List.map_congr_left fun v _ => gap_map hf a b v)

/-- Points between the values of the lists, from a larger order, see nothing more. -/
theorem isGreatest_gap_map {β : Type} [LinearOrder β] {f : α → β} (hf : StrictMono f)
    (ha : a ≠ []) : IsGreatest (Set.range (gap (a.map f) (b.map f))) (ksDistance a b) :=
  ksDistance_map hf a b ▸ isGreatest_ksDistance (mt List.map_eq_nil_iff.mp ha)

/-- Rational values as real numbers. -/
def inReals (values : List ℚ) : List ℝ := values.map Rat.cast

theorem isGreatest_gap_inReals {a b : List ℚ} (ha : a ≠ []) :
    IsGreatest (Set.range fun x : ℝ => gap (inReals a) (inReals b) x) (ksDistance a b) :=
  isGreatest_gap_map Rat.cast_strictMono ha

end RealTimeTrading.Data
