/-
RealTimeTrading.Data.Peak — the largest element of a list so far.

`peak` is a running maximum from a floor. A list whose last element is the
peak at every point is one in order (`atPeak_iff`).
-/
import Mathlib.Data.List.Induction
import Mathlib.Order.MinMax

namespace RealTimeTrading.Data

variable {α : Type} [LinearOrder α]

/-- The largest of the floor and the elements. -/
def peak (floor : α) (l : List α) : α := l.foldl max floor

variable {floor : α}

@[simp] theorem peak_nil : peak floor [] = floor := rfl

theorem peak_append (l l' : List α) : peak floor (l ++ l') = peak (peak floor l) l' :=
  List.foldl_append

theorem peak_concat (l : List α) (x : α) : peak floor (l ++ [x]) = max (peak floor l) x := by
  rw [peak_append]
  rfl

theorem peak_le_iff {l : List α} {bound : α} :
    peak floor l ≤ bound ↔ floor ≤ bound ∧ ∀ x ∈ l, x ≤ bound := by
  induction l using List.reverseRecOn with
  | nil => simp
  | append_singleton l x ih =>
    rw [peak_concat, max_le_iff, ih, and_assoc]
    simp only [List.mem_append, List.mem_singleton, or_imp, forall_and, forall_eq]

theorem peak_eq_or_mem (floor : α) (l : List α) : peak floor l = floor ∨ peak floor l ∈ l := by
  induction l using List.reverseRecOn with
  | nil => exact .inl rfl
  | append_singleton l x ih =>
    rw [peak_concat, List.mem_append, List.mem_singleton]
    rcases max_choice (peak floor l) x with h | h
    · rw [h]
      exact ih.imp_right .inl
    · exact .inr (.inr h)

/-- At every point the last element is the peak exactly if no element is below an
earlier one. -/
theorem atPeak_iff {l : List α} (hfloor : ∀ x ∈ l, floor ≤ x) :
    (∀ p, p <+: l → p.getLastD floor = peak floor p) ↔ l.Pairwise (· ≤ ·) := by
  induction l using List.reverseRecOn with
  | nil =>
    refine iff_of_true (fun p hp => ?_) List.Pairwise.nil
    rw [List.prefix_nil.mp hp]
    rfl
  | append_singleton l x ih =>
    have hx : floor ≤ x := hfloor x (List.mem_append_right _ (List.mem_singleton_self x))
    have ih := ih fun y hy => hfloor y (List.mem_append_left _ hy)
    rw [List.pairwise_append]
    constructor
    · intro h
      have hlast := h (l ++ [x]) List.prefix_rfl
      rw [List.getLastD_concat, peak_concat] at hlast
      have hbelow : peak floor l ≤ x := max_eq_right_iff.mp hlast.symm
      refine ⟨ih.mp fun p hp => h p (hp.trans (List.prefix_append _ _)),
        List.pairwise_singleton _ _, fun y hy z hz => ?_⟩
      rw [List.mem_singleton.mp hz]
      exact (peak_le_iff.mp hbelow).2 y hy
    · rintro ⟨hl, -, hbelow⟩ p hp
      rcases List.prefix_concat_iff.mp hp with rfl | hp
      · rw [List.getLastD_concat, peak_concat]
        exact (max_eq_right (peak_le_iff.mpr
          ⟨hx, fun y hy => hbelow y hy x (List.mem_singleton_self x)⟩)).symm
      · exact ih.mpr hl p hp

end RealTimeTrading.Data
