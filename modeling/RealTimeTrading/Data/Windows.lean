/-
RealTimeTrading.Data.Windows — queues that are dropped from the front.

Entries that are keyed, by a time for instance, are dropped below a cutoff.
That hides nothing from a reader that looks at no entry below it
(`LeftOf.filter_eq`), in whatever order the keys come. Where they come in
order, what is left is every entry from the cutoff on
(`dropWhile_lt_eq_filter`), so of several cutoffs only the last one counts
(`dropWhile_lt_trim`).

Entries that are dropped when they are done have left in order: what has
left and what waits are the two parts of one list (`takeWhile_map_of_fixed`).
-/
import Mathlib.Order.Lattice

namespace RealTimeTrading.Data

section Fronts

variable {A : Type} {p : A → Bool} {f : A → A} {l : List A}

/-- A change that leaves done entries alone makes more of the front done. -/
theorem takeWhile_map_of_fixed (h : ∀ a ∈ l, p a = true → f a = a) :
    (l.map f).takeWhile p = l.takeWhile p ++ ((l.dropWhile p).map f).takeWhile p ∧
      (l.map f).dropWhile p = ((l.dropWhile p).map f).dropWhile p := by
  have hdone : ∀ a ∈ l.takeWhile p, p a = true := fun a ha =>
    List.all_eq_true.mp List.all_takeWhile a ha
  have hfixed : (l.takeWhile p).map f = l.takeWhile p :=
    (List.map_congr_left fun a ha => h a ((List.takeWhile_sublist p).mem ha) (hdone a ha)).trans
      (List.map_id _)
  have hsplit : l.map f = l.takeWhile p ++ (l.dropWhile p).map f :=
    calc l.map f = (l.takeWhile p ++ l.dropWhile p).map f := by rw [List.takeWhile_append_dropWhile]
      _ = l.takeWhile p ++ (l.dropWhile p).map f := by rw [List.map_append, hfixed]
  rw [hsplit, List.takeWhile_append_of_pos hdone, List.dropWhile_append_of_pos hdone]
  exact ⟨rfl, rfl⟩

/-- A new entry that is not done waits behind the others. -/
theorem takeWhile_concat_of_not (l : List A) {a : A} (h : p a = false) :
    (l ++ [a]).takeWhile p = l.takeWhile p ∧ (l ++ [a]).dropWhile p = l.dropWhile p ++ [a] := by
  induction l with
  | nil => simp [h]
  | cons b l ih => cases hb : p b <;> simp [hb, ih]

end Fronts

variable {A K : Type} [LinearOrder K] (key : A → K)

/-- What is left of a list after entries below the cutoff have been dropped from its front. -/
def LeftOf (cutoff : K) (kept all : List A) : Prop :=
  ∃ gone, all = gone ++ kept ∧ ∀ a ∈ gone, key a < cutoff

namespace LeftOf

variable {key} {cutoff later : K} {kept all : List A}

theorem refl (cutoff : K) (all : List A) : LeftOf key cutoff all all := ⟨[], rfl, by simp⟩

theorem append (h : LeftOf key cutoff kept all) (new : List A) :
    LeftOf key cutoff (kept ++ new) (all ++ new) := by
  obtain ⟨gone, rfl, hgone⟩ := h
  exact ⟨gone, List.append_assoc _ _ _, hgone⟩

/-- Dropping up to a later cutoff leaves a part of the same list. -/
theorem dropWhile (h : LeftOf key cutoff kept all) (hle : cutoff ≤ later) :
    LeftOf key later (kept.dropWhile fun a => decide (key a < later)) all := by
  obtain ⟨gone, rfl, hgone⟩ := h
  refine ⟨gone ++ kept.takeWhile fun a => decide (key a < later), ?_, fun a ha => ?_⟩
  · rw [List.append_assoc, List.takeWhile_append_dropWhile]
  · rcases List.mem_append.mp ha with hearlier | hnow
    · exact lt_of_lt_of_le (hgone a hearlier) hle
    · exact of_decide_eq_true (List.all_eq_true.mp List.all_takeWhile a hnow)

/-- A reader of no entry below the cutoff finds the same ones. -/
theorem filter_eq (h : LeftOf key cutoff kept all) {p : A → Bool}
    (hp : ∀ a, p a = true → cutoff ≤ key a) : kept.filter p = all.filter p := by
  obtain ⟨gone, rfl, hgone⟩ := h
  have hnone : gone.filter p = [] := by
    rw [List.filter_eq_nil_iff]
    intro a ha hpa
    exact absurd (hp a hpa) (not_le.mpr (hgone a ha))
  rw [List.filter_append, hnone, List.nil_append]

theorem any_eq (h : LeftOf key cutoff kept all) {p : A → Bool}
    (hp : ∀ a, p a = true → cutoff ≤ key a) : kept.any p = all.any p := by
  have hany : ∀ l : List A, l.any p = (l.filter p).any fun _ => true := by
    intro l
    simp
  rw [hany, h.filter_eq hp, ← hany]

end LeftOf

theorem dropWhile_lt_eq_filter {l : List A} (hl : l.Pairwise fun a b => key a ≤ key b)
    (cutoff : K) :
    (l.dropWhile fun a => decide (key a < cutoff)) = l.filter fun a => decide (cutoff ≤ key a) := by
  induction l with
  | nil => rfl
  | cons a l ih =>
    obtain ⟨hfirst, hl⟩ := List.pairwise_cons.mp hl
    by_cases ha : key a < cutoff
    · rw [List.dropWhile_cons_of_pos (by simpa using ha), ih hl,
        List.filter_cons_of_neg (by simpa using ha)]
    · rw [List.dropWhile_cons_of_neg (by simpa using ha)]
      have hall : ∀ b ∈ a :: l, cutoff ≤ key b := by
        intro b hb
        rcases List.mem_cons.mp hb with rfl | hb
        · exact not_lt.mp ha
        · exact le_trans (not_lt.mp ha) (hfirst b hb)
      exact (List.filter_eq_self.mpr fun b hb => by simpa using hall b hb).symm

/-- What is in order from one cutoff on needs only the later cutoff after that. -/
theorem dropWhile_lt_trim {l : List A} (hl : l.Pairwise fun a b => key a ≤ key b) {first last : K}
    (h : first ≤ last) :
    ((l.filter fun a => decide (first ≤ key a)).dropWhile fun a => decide (key a < last)) =
      l.filter fun a => decide (last ≤ key a) := by
  rw [dropWhile_lt_eq_filter key (hl.filter _), List.filter_filter]
  refine List.filter_congr fun a _ => ?_
  have hearlier : last ≤ key a → first ≤ key a := le_trans h
  grind

end RealTimeTrading.Data
