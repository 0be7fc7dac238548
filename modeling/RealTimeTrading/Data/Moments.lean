/-
RealTimeTrading.Data.Moments — sums of powers of deviations, and how they
move with their centre.

About the mean the deviations add up to nothing. Moving the centre changes
the squares and the cubes by terms of lower powers, so one more value
updates both sums from their own last values (`squares_concat`,
`cubes_concat`), with no second pass over the others.
-/
import Mathlib.Algebra.BigOperators.Group.List.Basic
import Mathlib.Algebra.Field.Basic
import Mathlib.Tactic.FieldSimp
import Mathlib.Tactic.LinearCombination
import Mathlib.Tactic.Ring

namespace RealTimeTrading.Data

variable {K : Type} [Field K]

/-- The sum of the `k`-th powers of the deviations from a centre. -/
def deviations (k : Nat) (centre : K) (values : List K) : K :=
  (values.map fun v => (v - centre) ^ k).sum

theorem deviations_cons (k : Nat) (centre v : K) (values : List K) :
    deviations k centre (v :: values) = (v - centre) ^ k + deviations k centre values :=
  List.sum_cons

theorem deviations_concat (k : Nat) (centre v : K) (values : List K) :
    deviations k centre (values ++ [v]) = deviations k centre values + (v - centre) ^ k := by
  unfold deviations
  rw [List.map_append, List.sum_append, List.map_singleton, List.sum_singleton]

theorem deviations_one (centre : K) (values : List K) :
    deviations 1 centre values = values.sum - values.length * centre := by
  induction values with
  | nil => simp [deviations]
  | cons v values ih =>
    rw [deviations_cons, ih, List.sum_cons, List.length_cons]
    push_cast
    ring

/-- The squares about a centre that has moved by `d`. -/
theorem deviations_two_add (centre d : K) (values : List K) :
    deviations 2 (centre + d) values = deviations 2 centre values -
      2 * d * deviations 1 centre values + values.length * d ^ 2 := by
  induction values with
  | nil => simp [deviations]
  | cons v values ih =>
    simp only [deviations_cons, ih, List.length_cons]
    push_cast
    ring

/-- The cubes about a centre that has moved by `d`. -/
theorem deviations_three_add (centre d : K) (values : List K) :
    deviations 3 (centre + d) values = deviations 3 centre values -
      3 * d * deviations 2 centre values + 3 * d ^ 2 * deviations 1 centre values -
      values.length * d ^ 3 := by
  induction values with
  | nil => simp [deviations]
  | cons v values ih =>
    simp only [deviations_cons, ih, List.length_cons]
    push_cast
    ring

section Concat

variable {values : List K} {centre : K} (hcentre : deviations 1 centre values = 0)
include hcentre

/-- One more value, at `(n + 1) * d` from the mean of `n` values, moves the mean by `d`. -/
theorem deviations_one_concat {d v : K} (hv : v - centre = (values.length + 1) * d) :
    deviations 1 (centre + d) (values ++ [v]) = 0 := by
  rw [deviations_one] at hcentre
  rw [deviations_concat, deviations_one]
  linear_combination hcentre + hv

theorem squares_concat {d v : K} (hv : v - centre = (values.length + 1) * d) :
    deviations 2 (centre + d) (values ++ [v]) =
      deviations 2 centre values + (v - centre) * d * values.length := by
  rw [deviations_concat, deviations_two_add, hcentre, hv,
    show v - (centre + d) = values.length * d by linear_combination hv]
  ring

theorem cubes_concat {d v : K} (hv : v - centre = (values.length + 1) * d) :
    deviations 3 (centre + d) (values ++ [v]) = deviations 3 centre values +
      ((v - centre) * d * values.length * d * (values.length + 1 - 2) -
        3 * d * deviations 2 centre values) := by
  rw [deviations_concat, deviations_three_add, hcentre, hv,
    show v - (centre + d) = values.length * d by linear_combination hv]
  ring

end Concat

end RealTimeTrading.Data
