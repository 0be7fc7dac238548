/-
RealTimeTrading.Data.CursorMerge — two cursors that move through sorted lists
one value at a time, and a distance that is taken after every move.

On a tie the left cursor goes first. The distance is any function of the two
counts that grows with the first and falls with the second (`Distance`), such
as a difference of shares, rounded or not. `mergeLoop_le_iff` says what the
largest one is: the largest gap of the two counting functions, or the largest
lead of the left one where it has passed its copies of a value and the right
one has not.
-/
import Mathlib.Algebra.Order.Group.Unbundled.Abs
import Mathlib.Algebra.Order.Ring.Rat
import Mathlib.Data.List.MinMax
import Mathlib.Data.List.Sort
import Mathlib.Tactic.Linarith

namespace RealTimeTrading.Data

variable {α : Type}

theorem countP_split {s lhs : List α} {p : α → Bool} (hs : ∀ v ∈ s, p v = true) :
    (s ++ lhs).countP p = s.length + lhs.countP p := by
  rw [List.countP_append, List.countP_eq_length.mpr hs]

variable [LinearOrder α]

/-! ## Counts -/

/-- How many of the values are at most `x`. -/
def countLe (l : List α) (x : α) : ℕ := l.countP fun v => decide (v ≤ x)

/-- How many are below it. -/
def countLt (l : List α) (x : α) : ℕ := l.countP fun v => decide (v < x)

theorem countLe_le (l : List α) (x : α) : countLe l x ≤ l.length := List.countP_le_length

theorem countLt_le_countLe (l : List α) (x : α) : countLt l x ≤ countLe l x :=
  List.countP_mono_left fun v _ hv => by
    rw [decide_eq_true_eq] at hv ⊢
    exact hv.le

theorem countLe_perm {l l' : List α} (h : l.Perm l') (x : α) : countLe l x = countLe l' x :=
  h.countP_eq _

theorem countLt_perm {l l' : List α} (h : l.Perm l') (x : α) : countLt l x = countLt l' x :=
  h.countP_eq _

theorem countLe_eq_countLt {l : List α} {x : α} (h : x ∉ l) : countLe l x = countLt l x :=
  List.countP_congr fun v hv => by
    rw [decide_eq_true_eq, decide_eq_true_eq]
    exact ⟨fun hle => hle.lt_of_ne fun heq => h (heq ▸ hv), le_of_lt⟩

theorem countLe_map {β : Type} [LinearOrder β] {f : α → β} (hf : StrictMono f) (l : List α)
    (x : α) : countLe (l.map f) (f x) = countLe l x := by
  rw [countLe, List.countP_map]
  refine List.countP_congr fun v _ => ?_
  simp only [Function.comp_apply, hf.le_iff_le]

/-! ### A sorted list at a cursor -/

section Split

variable {s lhs : List α} {l x : α}

theorem behind_le (h : (s ++ l :: lhs).Pairwise (· ≤ ·)) : ∀ v ∈ s, v ≤ l :=
  fun v hv => (List.pairwise_append.mp h).2.2 v hv l List.mem_cons_self

theorem le_ahead (h : (s ++ l :: lhs).Pairwise (· ≤ ·)) : ∀ v ∈ l :: lhs, l ≤ v := by
  intro v hv
  rcases List.mem_cons.mp hv with rfl | hv
  · exact le_rfl
  · exact (List.pairwise_cons.mp (List.pairwise_append.mp h).2.1).1 v hv

theorem passed_le_countLe (h : (s ++ l :: lhs).Pairwise (· ≤ ·)) :
    s.length + 1 ≤ countLe (s ++ l :: lhs) l := by
  rw [countLe, countP_split fun v hv => decide_eq_true (behind_le h v hv), List.countP_cons,
    if_pos (decide_eq_true le_rfl)]
  omega

theorem passed_eq_countLe (h : (s ++ l :: lhs).Pairwise (· ≤ ·)) (hlast : l ∉ lhs) :
    countLe (s ++ l :: lhs) l = s.length + 1 := by
  have hnone : lhs.countP (fun v => decide (v ≤ l)) = 0 := by
    rw [List.countP_eq_zero]
    intro v hv hle
    rw [decide_eq_true_eq] at hle
    exact hlast (hle.antisymm (le_ahead h v (List.mem_cons_of_mem l hv)) ▸ hv)
  rw [countLe, countP_split fun v hv => decide_eq_true (behind_le h v hv), List.countP_cons,
    if_pos (decide_eq_true le_rfl), hnone]

theorem countLt_le_passed (h : ∀ v ∈ lhs, x ≤ v) : countLt (s ++ lhs) x ≤ s.length := by
  have hnone : lhs.countP (fun v => decide (v < x)) = 0 := by
    rw [List.countP_eq_zero]
    intro v hv hlt
    rw [decide_eq_true_eq] at hlt
    exact absurd hlt (h v hv).not_gt
  rw [countLt, List.countP_append, hnone]
  exact List.countP_le_length

theorem countLt_eq_passed (hs : ∀ v ∈ s, v < x) (h : ∀ v ∈ lhs, x ≤ v) :
    countLt (s ++ lhs) x = s.length := by
  refine (countLt_le_passed h).antisymm ?_
  rw [countLt, countP_split fun v hv => decide_eq_true (hs v hv)]
  omega

theorem countLe_eq_passed (hs : ∀ v ∈ s, v ≤ x) (h : ∀ v ∈ lhs, x < v) :
    countLe (s ++ lhs) x = s.length := by
  have hnone : lhs.countP (fun v => decide (v ≤ x)) = 0 := by
    rw [List.countP_eq_zero]
    intro v hv hle
    rw [decide_eq_true_eq] at hle
    exact absurd hle (h v hv).not_ge
  rw [countLe, countP_split fun v hv => decide_eq_true (hs v hv), hnone]
  omega

theorem passed_le_countLe_of_le (hs : ∀ v ∈ s, v ≤ x) (lhs : List α) :
    s.length ≤ countLe (s ++ lhs) x := by
  rw [countLe, countP_split fun v hv => decide_eq_true (hs v hv)]
  omega

end Split

/-! ## The loop -/

/-- A distance of counts, up to `n` of the one and `m` of the other. -/
structure Distance (d : ℕ → ℕ → ℚ) (n m : ℕ) : Prop where
  mono : ∀ {i i' : ℕ}, i ≤ i' → ∀ j, d i j ≤ d i' j
  anti : ∀ {j j' : ℕ}, j ≤ j' → ∀ i, d i j' ≤ d i j
  start : d 0 0 = 0
  finish : d n m = 0

def mergeLoop (d : ℕ → ℕ → ℚ) (i j : ℕ) : List α → List α → ℚ → ℚ
  | l :: lhs, r :: rhs, maxDistance =>
    if l ≤ r then mergeLoop d (i + 1) j lhs (r :: rhs) (max maxDistance |d (i + 1) j|)
    else mergeLoop d i (j + 1) (l :: lhs) rhs (max maxDistance |d i (j + 1)|)
  | _, _, maxDistance => maxDistance
termination_by lhs rhs => lhs.length + rhs.length

/-- How far the counting functions of `a` and `b` are apart at `x`. -/
def countGap (d : ℕ → ℕ → ℚ) (a b : List α) (x : α) : ℚ := |d (countLe a x) (countLe b x)|

/-- How far `a`, with its copies of `v`, leads `b` without them. -/
def countLead (d : ℕ → ℕ → ℚ) (a b : List α) (v : α) : ℚ := d (countLe a v) (countLt b v)

/-- The cursors of the loop: `s` and `t` are behind them. -/
structure Merging (d : ℕ → ℕ → ℚ) (s lhs t rhs : List α) (maxDistance : ℚ) : Prop where
  left : (s ++ lhs).Pairwise (· ≤ ·)
  right : (t ++ rhs).Pairwise (· ≤ ·)
  behindRight : ∀ v ∈ s, ∀ w ∈ rhs, v ≤ w
  behindLeft : ∀ v ∈ t, ∀ w ∈ lhs, v < w
  measured : |d s.length t.length| ≤ maxDistance

variable {d : ℕ → ℕ → ℚ} {s lhs t rhs : List α} {l r : α} {maxDistance bound : ℚ}

namespace Merging

theorem stepLeft (h : Merging d s (l :: lhs) t (r :: rhs) maxDistance) (hle : l ≤ r) :
    Merging d (s ++ [l]) lhs t (r :: rhs) (max maxDistance |d (s.length + 1) t.length|) where
  left := by simpa using h.left
  right := h.right
  behindRight v hv w hw := by
    have hahead := hle.trans (le_ahead h.right w hw)
    rcases List.mem_append.mp hv with hv | hv
    · exact h.behindRight v hv w hw
    · exact List.mem_singleton.mp hv ▸ hahead
  behindLeft v hv w hw := h.behindLeft v hv w (List.mem_cons_of_mem l hw)
  measured := by
    rw [List.length_append, List.length_singleton]
    exact le_max_right _ _

theorem stepRight (h : Merging d s (l :: lhs) t (r :: rhs) maxDistance) (hlt : r < l) :
    Merging d s (l :: lhs) (t ++ [r]) rhs (max maxDistance |d s.length (t.length + 1)|) where
  left := h.left
  right := by simpa using h.right
  behindRight v hv w hw := h.behindRight v hv w (List.mem_cons_of_mem r hw)
  behindLeft v hv w hw := by
    have hahead := hlt.trans_le (le_ahead h.left w hw)
    rcases List.mem_append.mp hv with hv | hv
    · exact h.behindLeft v hv w hw
    · exact List.mem_singleton.mp hv ▸ hahead
  measured := by
    rw [List.length_append, List.length_singleton]
    exact le_max_right _ _

/-- On the left cursor's move the right one has exactly the values below `l` behind it. -/
theorem right_passed (h : Merging d s (l :: lhs) t (r :: rhs) maxDistance) (hle : l ≤ r) :
    countLt (t ++ r :: rhs) l = t.length :=
  countLt_eq_passed (fun v hv => h.behindLeft v hv l List.mem_cons_self)
    fun v hv => hle.trans (le_ahead h.right v hv)

/-- On the right cursor's move the left one has exactly the values up to `r` behind it. -/
theorem left_passed (h : Merging d s (l :: lhs) t (r :: rhs) maxDistance) (hlt : r < l) :
    countLe (s ++ l :: lhs) r = s.length :=
  countLe_eq_passed (fun v hv => h.behindRight v hv r List.mem_cons_self)
    fun v hv => hlt.trans_le (le_ahead h.left v hv)

end Merging

/-! ### Between the values -/

/-- Counts that no value lies between are those at the last value before, if there is one. -/
theorem gap_between_le {a b : List α} (hbound : 0 ≤ bound) (hstart : d 0 0 = 0)
    (hgap : ∀ x ∈ a ++ b, countGap d a b x ≤ bound) (p : α → Bool)
    (hdown : ∀ v w, p w = true → v ≤ w → p v = true) :
    |d (a.countP p) (b.countP p)| ≤ bound := by
  cases hlast : ((a ++ b).filter p).maximum with
  | bot =>
    have hnone := List.maximum_eq_bot.mp hlast
    rw [List.filter_eq_nil_iff] at hnone
    have hzero : ∀ l : List α, (∀ v ∈ l, v ∈ a ++ b) → l.countP p = 0 := fun l hl =>
      List.countP_eq_zero.mpr fun v hv => hnone v (hl v hv)
    rw [hzero a fun v hv => List.mem_append_left b hv,
      hzero b fun v hv => List.mem_append_right a hv, hstart, abs_zero]
    exact hbound
  | coe y =>
    have hy := List.maximum_mem hlast
    rw [List.mem_filter] at hy
    have hcount : ∀ l : List α, (∀ v ∈ l, v ∈ a ++ b) → l.countP p = countLe l y := fun l hl =>
      List.countP_congr fun v hv => by
        rw [decide_eq_true_eq]
        exact ⟨fun hp => List.le_maximum_of_mem (List.mem_filter.mpr ⟨hl v hv, hp⟩) hlast,
          hdown v y hy.2⟩
    rw [hcount a fun v hv => List.mem_append_left b hv,
      hcount b fun v hv => List.mem_append_right a hv]
    exact hgap y hy.1

theorem gap_below_le {a b : List α} (hbound : 0 ≤ bound) (hstart : d 0 0 = 0)
    (hgap : ∀ x ∈ a ++ b, countGap d a b x ≤ bound) (x : α) :
    |d (countLt a x) (countLt b x)| ≤ bound :=
  gap_between_le hbound hstart hgap _ fun v w hw hle => by
    rw [decide_eq_true_eq] at hw ⊢
    exact hle.trans_lt hw

/-- The gap is largest at a value. -/
theorem gap_le_everywhere {a b : List α} (hbound : 0 ≤ bound) (hstart : d 0 0 = 0)
    (hgap : ∀ x ∈ a ++ b, countGap d a b x ≤ bound) (x : α) : countGap d a b x ≤ bound :=
  gap_between_le hbound hstart hgap _ fun v w hw hle => by
    rw [decide_eq_true_eq] at hw ⊢
    exact hle.trans hw

/-! ### From above -/

section Above

variable {n m : ℕ} (hd : Distance d n m)

include hd

theorem stepLeft_le (h : Merging d s (l :: lhs) t (r :: rhs) maxDistance) (hle : l ≤ r)
    (hbelow : |d (countLt (s ++ l :: lhs) l) (countLt (t ++ r :: rhs) l)| ≤ bound)
    (hlead : countLead d (s ++ l :: lhs) (t ++ r :: rhs) l ≤ bound) :
    |d (s.length + 1) t.length| ≤ bound := by
  have hpassed := hd.mono (passed_le_countLe h.left) t.length
  have hbefore :=
    hd.mono ((countLt_le_passed (s := s) (le_ahead h.left)).trans (Nat.le_succ _)) t.length
  rw [h.right_passed hle] at hbelow
  rw [countLead, h.right_passed hle] at hlead
  rw [abs_le] at hbelow ⊢
  exact ⟨hbelow.1.trans hbefore, hpassed.trans hlead⟩

theorem stepRight_le (h : Merging d s (l :: lhs) t (r :: rhs) maxDistance) (hlt : r < l)
    (hbelow : |d (countLt (s ++ l :: lhs) r) (countLt (t ++ r :: rhs) r)| ≤ bound)
    (hgap : countGap d (s ++ l :: lhs) (t ++ r :: rhs) r ≤ bound)
    (hlead : ∀ v ∈ s ++ l :: lhs, countLead d (s ++ l :: lhs) (t ++ r :: rhs) v ≤ bound) :
    |d s.length (t.length + 1)| ≤ bound := by
  have hlead : countLead d (s ++ l :: lhs) (t ++ r :: rhs) r ≤ bound := by
    by_cases hr : r ∈ s ++ l :: lhs
    · exact hlead r hr
    · rw [countLead, countLe_eq_countLt hr]
      exact (le_abs_self _).trans hbelow
  have hpassed := hd.anti (passed_le_countLe h.right) s.length
  have hbefore :=
    hd.anti ((countLt_le_passed (s := t) (le_ahead h.right)).trans (Nat.le_succ _)) s.length
  rw [countGap, h.left_passed hlt, abs_le] at hgap
  rw [countLead, h.left_passed hlt] at hlead
  rw [abs_le]
  exact ⟨hgap.1.trans hpassed, hbefore.trans hlead⟩

/-- Nothing the loop measures exceeds a bound on every gap and on every lead. -/
theorem mergeLoop_le {a b : List α} (hbound : 0 ≤ bound)
    (hgap : ∀ x ∈ a ++ b, countGap d a b x ≤ bound) (hlead : ∀ v ∈ a, countLead d a b v ≤ bound)
    (i j : ℕ) (lhs rhs : List α) (maxDistance : ℚ) :
    ∀ s t, s ++ lhs = a → t ++ rhs = b → s.length = i → t.length = j → maxDistance ≤ bound →
      Merging d s lhs t rhs maxDistance → mergeLoop d i j lhs rhs maxDistance ≤ bound := by
  have hbelow := gap_below_le hbound hd.start hgap
  fun_induction mergeLoop d i j lhs rhs maxDistance with
  | case1 i j l lhs r rhs maxDistance hle ih =>
    rintro s t rfl rfl rfl rfl hmax h
    exact ih (s ++ [l]) t (by simp) rfl (by simp) rfl
      (max_le hmax (stepLeft_le hd h hle (hbelow l) (hlead l (by simp)))) (h.stepLeft hle)
  | case2 i j l lhs r rhs maxDistance hle ih =>
    rintro s t rfl rfl rfl rfl hmax h
    have hlt : r < l := not_le.mp hle
    exact ih s (t ++ [r]) rfl (by simp) rfl (by simp)
      (max_le hmax (stepRight_le hd h hlt (hbelow r) (hgap r (by simp)) hlead)) (h.stepRight hlt)
  | case3 i j lhs rhs maxDistance hended =>
    rintro s t rfl rfl rfl rfl hmax h
    exact hmax

end Above

/-! ### From below -/

theorem le_stepLeft (h : Merging d s (l :: lhs) t (r :: rhs) maxDistance) (hle : l ≤ r)
    (hlast : l ∉ lhs) :
    countLead d (s ++ l :: lhs) (t ++ r :: rhs) l ≤ |d (s.length + 1) t.length| := by
  rw [countLead, passed_eq_countLe h.left hlast, h.right_passed hle]
  exact le_abs_self _

theorem gap_stepLeft (h : Merging d s (l :: lhs) t (r :: rhs) maxDistance) (hle : l ≤ r)
    (hlast : l ∉ lhs) (hother : l ∉ r :: rhs) :
    countGap d (s ++ l :: lhs) (t ++ r :: rhs) l = |d (s.length + 1) t.length| := by
  have hnot : l ∉ t ++ r :: rhs := fun hmem =>
    (List.mem_append.mp hmem).elim
      (fun hmem => (h.behindLeft l hmem l List.mem_cons_self).false) hother
  rw [countGap, passed_eq_countLe h.left hlast, countLe_eq_countLt hnot, h.right_passed hle]

theorem gap_stepRight (h : Merging d s (l :: lhs) t (r :: rhs) maxDistance) (hlt : r < l)
    (hlast : r ∉ rhs) :
    countGap d (s ++ l :: lhs) (t ++ r :: rhs) r = |d s.length (t.length + 1)| := by
  rw [countGap, passed_eq_countLe h.right hlast, h.left_passed hlt]

section Below

variable {a b : List α} (hd : Distance d a.length b.length)

include hd

/-- With all of `a` behind, the gaps that are left shrink. -/
theorem gap_le_of_left_ended (h : Merging d a [] t rhs maxDistance) (hb : t ++ rhs = b) {v : α}
    (hv : v ∈ rhs) : countGap d a b v ≤ maxDistance := by
  subst hb
  have hall : countLe a v = a.length :=
    List.countP_eq_length.mpr fun w hw => decide_eq_true (h.behindRight w hw v hv)
  have hpassed := hd.anti (passed_le_countLe_of_le (fun w hw =>
    (List.pairwise_append.mp h.right).2.2 w hw v hv) rhs) a.length
  have hfinish := hd.anti (countLe_le (t ++ rhs) v) a.length
  rw [hd.finish] at hfinish
  rw [countGap, hall, abs_of_nonneg hfinish]
  exact hpassed.trans ((le_abs_self _).trans h.measured)

theorem gap_le_of_right_ended (h : Merging d s lhs b [] maxDistance) (ha : s ++ lhs = a) {v : α}
    (hv : v ∈ lhs) : countGap d a b v ≤ maxDistance := by
  subst ha
  have hall : countLe b v = b.length :=
    List.countP_eq_length.mpr fun w hw => decide_eq_true (h.behindLeft w hw v hv).le
  have hpassed := hd.mono (passed_le_countLe_of_le (fun w hw =>
    (List.pairwise_append.mp h.left).2.2 w hw v hv) lhs) b.length
  have hfinish := hd.mono (countLe_le (s ++ lhs) v) b.length
  rw [hd.finish] at hfinish
  rw [countGap, hall, abs_of_nonpos hfinish]
  exact (neg_le_neg hpassed).trans ((neg_le_abs _).trans h.measured)

/-- With nothing of `b` left to come, `a` leads it no longer. -/
theorem lead_le_of_right_ended (h : Merging d s lhs b [] maxDistance) (ha : s ++ lhs = a) {v : α}
    (hv : v ∈ lhs) : countLead d a b v ≤ maxDistance := by
  subst ha
  have hall : countLt b v = b.length :=
    List.countP_eq_length.mpr fun w hw => decide_eq_true (h.behindLeft w hw v hv)
  have hfinish := hd.mono (countLe_le (s ++ lhs) v) b.length
  rw [hd.finish] at hfinish
  rw [countLead, hall]
  exact hfinish.trans ((abs_nonneg _).trans h.measured)

/-- It measures at least every gap and every lead that is still ahead. -/
theorem le_mergeLoop (i j : ℕ) (lhs rhs : List α) (maxDistance : ℚ) :
    ∀ s t, s ++ lhs = a → t ++ rhs = b → s.length = i → t.length = j →
      Merging d s lhs t rhs maxDistance →
      maxDistance ≤ mergeLoop d i j lhs rhs maxDistance ∧
      (∀ v ∈ lhs ++ rhs, countGap d a b v ≤ mergeLoop d i j lhs rhs maxDistance) ∧
      ∀ v ∈ lhs, countLead d a b v ≤ mergeLoop d i j lhs rhs maxDistance := by
  fun_induction mergeLoop d i j lhs rhs maxDistance with
  | case1 i j l lhs r rhs maxDistance hle ih =>
    rintro s t rfl rfl rfl rfl h
    obtain ⟨hmax, hgap, hlead⟩ := ih (s ++ [l]) t (by simp) rfl (by simp) rfl (h.stepLeft hle)
    have hmeasured := (le_max_right _ _).trans hmax
    refine ⟨(le_max_left _ _).trans hmax, fun v hv => ?_, fun v hv => ?_⟩
    · by_cases hahead : v ∈ lhs ++ r :: rhs
      · exact hgap v hahead
      · obtain rfl : v = l := (List.mem_cons.mp hv).resolve_right hahead
        rw [List.mem_append, not_or] at hahead
        exact (gap_stepLeft h hle hahead.1 hahead.2).trans_le hmeasured
    · by_cases hahead : v ∈ lhs
      · exact hlead v hahead
      · obtain rfl : v = l := (List.mem_cons.mp hv).resolve_right hahead
        exact (le_stepLeft h hle hahead).trans hmeasured
  | case2 i j l lhs r rhs maxDistance hle ih =>
    rintro s t rfl rfl rfl rfl h
    have hlt : r < l := not_le.mp hle
    obtain ⟨hmax, hgap, hlead⟩ := ih s (t ++ [r]) rfl (by simp) rfl (by simp) (h.stepRight hlt)
    have hmeasured := (le_max_right _ _).trans hmax
    refine ⟨(le_max_left _ _).trans hmax, fun v hv => ?_, hlead⟩
    by_cases hahead : v ∈ (l :: lhs) ++ rhs
    · exact hgap v hahead
    · rw [List.mem_append, not_or] at hahead
      obtain rfl : v = r := (List.mem_cons.mp
        ((List.mem_append.mp hv).resolve_left hahead.1)).resolve_right hahead.2
      exact (gap_stepRight h hlt hahead.2).trans_le hmeasured
  | case3 i j lhs rhs maxDistance hended =>
    intro s t ha hb hi hj h
    cases lhs with
    | nil =>
      rw [List.append_nil] at ha
      subst ha
      exact ⟨le_rfl, fun v hv => gap_le_of_left_ended hd h hb hv, by simp⟩
    | cons l lhs =>
      cases rhs with
      | nil =>
        rw [List.append_nil] at hb
        subst hb
        exact ⟨le_rfl, fun v hv => gap_le_of_right_ended hd h ha (by simpa using hv),
          fun v hv => lead_le_of_right_ended hd h ha hv⟩
      | cons r rhs => exact (hended l lhs r rhs rfl rfl).elim

/-- The loop over two sorted lists measures the largest gap or the largest lead. -/
theorem mergeLoop_le_iff (ha : a.Pairwise (· ≤ ·)) (hb : b.Pairwise (· ≤ ·)) :
    mergeLoop d 0 0 a b 0 ≤ bound ↔
      0 ≤ bound ∧ (∀ x ∈ a ++ b, countGap d a b x ≤ bound) ∧
        ∀ v ∈ a, countLead d a b v ≤ bound := by
  have hstart : Merging d [] a [] b 0 :=
    ⟨ha, hb, by simp, by simp, by rw [List.length_nil, hd.start, abs_zero]⟩
  constructor
  · intro hbound
    obtain ⟨hmax, hgap, hlead⟩ := le_mergeLoop hd 0 0 a b 0 [] [] rfl rfl rfl rfl hstart
    exact ⟨hmax.trans hbound, fun v hv => (hgap v hv).trans hbound,
      fun v hv => (hlead v hv).trans hbound⟩
  · rintro ⟨hbound, hgap, hlead⟩
    exact mergeLoop_le hd hbound hgap hlead 0 0 a b 0 [] [] rfl rfl rfl rfl hbound hstart

end Below

end RealTimeTrading.Data
