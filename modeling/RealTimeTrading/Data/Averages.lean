/-
RealTimeTrading.Data.Averages — running averages that start at zero and
take zero for not started.

Such an average follows the recurrence of an exponential one as long as it
is not zero by its samples. What it should be is an explicit weighted mean
(`weighted`), so it follows the recurrence exactly if every sample after a
mean of zero is zero too (`follows_iff`).
-/
import Mathlib.Algebra.BigOperators.Group.Finset.Basic
import Mathlib.Algebra.BigOperators.Ring.Finset
import Mathlib.Algebra.Field.Basic
import Mathlib.Data.List.GetD
import Mathlib.Tactic.LinearCombination
import Mathlib.Tactic.Ring

namespace RealTimeTrading.Data

section Prefixes

variable {A : Type} {l : List A} {i : Nat}

theorem take_add_two {a : A} (h : l[i + 1]? = some a) : l.take (i + 2) = l.take (i + 1) ++ [a] := by
  rw [List.take_add_one, h, Option.toList_some]

theorem take_succ_ne_nil (h : i < l.length) : l.take (i + 1) ≠ [] := by
  intro hnil
  rw [List.take_eq_nil_iff] at hnil
  rcases hnil with hzero | rfl
  · cases hzero
  · cases h

end Prefixes

variable {K : Type} [Field K]

section Averages

variable (f : K → K → K → K) (alpha : K)

/-- The average from zero over these samples. -/
def folded (samples : List K) : K := samples.foldl (fun average x => f average x alpha) 0

/-- The first average is the first sample, and each later one moves towards its sample. -/
structure Follows (samples : List K) : Prop where
  first : ∀ x ∈ samples.head?, folded f alpha (samples.take 1) = x
  next : ∀ i x, samples[i + 1]? = some x → folded f alpha (samples.take (i + 2)) =
    (1 - alpha) * folded f alpha (samples.take (i + 1)) + alpha * x

/-- The exponentially weighted mean: the first sample weighs what the others leave. -/
def weighted : List K → K
  | [] => 0
  | x :: rest => (1 - alpha) ^ rest.length * x +
      ∑ j ∈ Finset.range rest.length, alpha * (1 - alpha) ^ (rest.length - 1 - j) * rest.getD j 0

/-- A sample that follows a mean of zero is zero. -/
def ZeroStays (samples : List K) : Prop :=
  ∀ i x, samples[i + 1]? = some x → weighted alpha (samples.take (i + 1)) = 0 → x = 0

theorem weighted_concat {samples : List K} (h : samples ≠ []) (x : K) :
    weighted alpha (samples ++ [x]) = (1 - alpha) * weighted alpha samples + alpha * x := by
  obtain ⟨first, rest, rfl⟩ := List.exists_cons_of_ne_nil h
  have hearlier : ∀ j ∈ Finset.range rest.length,
      alpha * (1 - alpha) ^ (rest.length - j) * (rest ++ [x]).getD j 0 =
        (1 - alpha) * (alpha * (1 - alpha) ^ (rest.length - 1 - j) * rest.getD j 0) := by
    intro j hj
    have hj := Finset.mem_range.mp hj
    rw [List.getD_append _ _ _ _ hj, show rest.length - j = rest.length - 1 - j + 1 by omega,
      pow_succ]
    ring
  have hlast : (rest ++ [x]).getD rest.length 0 = x := by simp
  simp only [List.cons_append, weighted, List.length_append, List.length_cons, List.length_nil,
    zero_add, Nat.add_sub_cancel, Finset.sum_range_succ, Nat.sub_self, pow_zero, mul_one, hlast]
  rw [Finset.sum_congr rfl hearlier, ← Finset.mul_sum, pow_succ]
  ring

variable {f alpha} [DecidableEq K]

section Seeded

variable (hf : ∀ average x, f average x alpha =
  if average = 0 then x else average * (1 - alpha) + x * alpha)
include hf

/-- A step is the recurrence's unless it starts over at a sample that is not zero. -/
theorem step_iff (halpha : alpha ≠ 1) (average x : K) :
    f average x alpha = (1 - alpha) * average + alpha * x ↔ (average = 0 → x = 0) := by
  rw [hf]
  split_ifs with haverage
  · have hweight : 1 - alpha ≠ 0 := sub_ne_zero.mpr halpha.symm
    rw [haverage, mul_zero, zero_add, imp_iff_right rfl]
    constructor
    · intro h
      have hproduct : (1 - alpha) * x = 0 := by linear_combination h
      exact (mul_eq_zero.mp hproduct).resolve_left hweight
    · rintro rfl
      rw [mul_zero]
  · exact iff_of_true (by ring) fun h => absurd h haverage

theorem folded_take_one {samples : List K} {x : K} (h : samples.head? = some x) :
    folded f alpha (samples.take 1) = x := by
  obtain ⟨rest, rfl⟩ := List.head?_eq_some_iff.mp h
  show f 0 x alpha = x
  rw [hf, if_pos rfl]

/-- As long as each step is the recurrence's, the average is the weighted mean. -/
theorem folded_eq_weighted {samples : List K} {i : Nat}
    (hnext : ∀ j < i, ∀ x, samples[j + 1]? = some x →
      folded f alpha (samples.take (j + 2)) =
        (1 - alpha) * folded f alpha (samples.take (j + 1)) + alpha * x)
    (hi : i < samples.length) :
    folded f alpha (samples.take (i + 1)) = weighted alpha (samples.take (i + 1)) := by
  induction i with
  | zero =>
    obtain ⟨x, hx⟩ := Option.isSome_iff_exists.mp
      (List.isSome_head?.mpr (List.ne_nil_of_length_pos hi))
    rw [folded_take_one hf hx]
    obtain ⟨rest, rfl⟩ := List.head?_eq_some_iff.mp hx
    simp [weighted]
  | succ i ih =>
    have hbefore := ih (fun j hj => hnext j (by omega)) (by omega)
    have hx : samples[i + 1]? = some samples[i + 1] := List.getElem?_eq_getElem hi
    rw [hnext i (by omega) _ hx, take_add_two hx,
      weighted_concat alpha (take_succ_ne_nil (by omega)), hbefore]

/-- The average follows the recurrence exactly if zero stays. -/
theorem follows_iff (halpha : alpha ≠ 1) (samples : List K) :
    Follows f alpha samples ↔ ZeroStays alpha samples := by
  -- At each sample the two conditions agree once the average so far is the weighted mean.
  have hstep : ∀ i x, samples[i + 1]? = some x →
      folded f alpha (samples.take (i + 1)) = weighted alpha (samples.take (i + 1)) →
      (folded f alpha (samples.take (i + 2)) =
          (1 - alpha) * folded f alpha (samples.take (i + 1)) + alpha * x ↔
        (weighted alpha (samples.take (i + 1)) = 0 → x = 0)) := by
    intro i x hx hmean
    rw [take_add_two hx, folded, List.foldl_concat, ← hmean]
    exact step_iff hf halpha _ x
  have hlt : ∀ {i x}, samples[i + 1]? = some x → i < samples.length := by
    intro i x hx
    have hi := (List.getElem?_eq_some_iff.mp hx).1
    omega
  constructor
  · intro h i x hx
    exact (hstep i x hx (folded_eq_weighted hf (fun j _ => h.next j) (hlt hx))).mp (h.next i x hx)
  · intro h
    have hnext : ∀ i x, samples[i + 1]? = some x → folded f alpha (samples.take (i + 2)) =
        (1 - alpha) * folded f alpha (samples.take (i + 1)) + alpha * x := by
      intro i
      induction i using Nat.strongRecOn with
      | ind i ih =>
        intro x hx
        exact (hstep i x hx (folded_eq_weighted hf ih (hlt hx))).mpr (h i x hx)
    exact ⟨fun x hx => folded_take_one hf hx, hnext⟩

end Seeded

end Averages

end RealTimeTrading.Data
