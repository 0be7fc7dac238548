/-
RealTimeTrading.Data.Tally — totals of a list by key, in a map built in
one pass.

`tally` reads `0` where the map has no entry yet and adds to it. What the
map holds under a key is the sum over the elements with this key, and its
keys are the keys that occur, so its size counts them.
-/
import Mathlib.Algebra.BigOperators.Group.List.Basic
import Mathlib.Data.Finset.Card
import Mathlib.Data.List.AList

namespace RealTimeTrading.Data

variable {A K M : Type} [DecidableEq K] [AddCommMonoid M]

/-- Each element adds its amount to what its key has so far. -/
def tally (key : A → K) (amount : A → M) (l : List A) : AList fun _ : K => M :=
  l.foldl (fun m a => m.insert (key a) ((m.lookup (key a)).getD 0 + amount a)) ∅

/-- What the elements with this key add up to. -/
def totalOf (key : A → K) (amount : A → M) (k : K) (l : List A) : M :=
  (l.map fun a => if key a = k then amount a else 0).sum

section

variable {key : A → K} {amount : A → M}

@[simp] theorem totalOf_nil (k : K) : totalOf key amount k [] = 0 := rfl

@[simp] theorem totalOf_cons (k : K) (a : A) (l : List A) :
    totalOf key amount k (a :: l) = (if key a = k then amount a else 0) + totalOf key amount k l :=
  rfl

@[simp] theorem totalOf_append (k : K) (l l' : List A) :
    totalOf key amount k (l ++ l') = totalOf key amount k l + totalOf key amount k l' := by
  simp [totalOf]

theorem totalOf_eq_zero {k : K} {l : List A} (h : k ∉ l.map key) :
    totalOf key amount k l = 0 := by
  induction l with
  | nil => rfl
  | cons a rest ih =>
    rw [List.map_cons, List.mem_cons, not_or] at h
    rw [totalOf_cons, if_neg (Ne.symm h.1), ih h.2, add_zero]

theorem lookup_tally (l : List A) (k : K) :
    ((tally key amount l).lookup k).getD 0 = totalOf key amount k l := by
  have hfold : ∀ (l : List A) (m : AList fun _ : K => M),
      ((l.foldl (fun m a => m.insert (key a) ((m.lookup (key a)).getD 0 + amount a)) m).lookup
        k).getD 0 = (m.lookup k).getD 0 + totalOf key amount k l := by
    intro l
    induction l with
    | nil => intro m; simp
    | cons a rest ih =>
      intro m
      rw [List.foldl_cons, ih, totalOf_cons]
      by_cases h : key a = k
      · subst h
        rw [AList.lookup_insert, Option.getD_some, if_pos rfl, add_assoc]
      · rw [AList.lookup_insert_ne (Ne.symm h), if_neg h, zero_add]
  rw [tally, hfold]
  simp

theorem mem_tally (l : List A) (k : K) : k ∈ tally key amount l ↔ k ∈ l.map key := by
  have hfold : ∀ (l : List A) (m : AList fun _ : K => M),
      k ∈ l.foldl (fun m a => m.insert (key a) ((m.lookup (key a)).getD 0 + amount a)) m ↔
        k ∈ m ∨ k ∈ l.map key := by
    intro l
    induction l with
    | nil => intro m; simp
    | cons a rest ih =>
      intro m
      rw [List.foldl_cons, ih, AList.mem_insert, List.map_cons, List.mem_cons]
      tauto
  rw [tally, hfold]
  simp [← AList.lookup_isSome]

/-- The map has one entry for each key that occurs. -/
theorem length_tally (l : List A) :
    (tally key amount l).entries.length = (l.map key).toFinset.card := by
  have hkeys : (tally key amount l).keys.toFinset = (l.map key).toFinset := by
    ext k
    rw [List.mem_toFinset, List.mem_toFinset]
    exact mem_tally l k
  rw [← hkeys, List.toFinset_card_of_nodup (AList.keys_nodup _)]
  exact (List.length_map _).symm

/-- A property of all entries is one of the keys that occur and their totals. -/
theorem forall_mem_tally {P : K → M → Prop} (l : List A) :
    (∀ e ∈ (tally key amount l).entries, P e.1 e.2) ↔
      ∀ k ∈ l.map key, P k (totalOf key amount k l) := by
  constructor
  · intro h k hk
    have hmem : k ∈ tally key amount l := (mem_tally l k).mpr hk
    obtain ⟨v, hv⟩ := Option.isSome_iff_exists.mp (AList.lookup_isSome.mpr hmem)
    have hentry := h ⟨k, v⟩ (AList.mem_lookup_iff.mp hv)
    rwa [← lookup_tally, hv]
  · rintro h ⟨k, v⟩ hentry
    have hv : (tally key amount l).lookup k = some v := AList.mem_lookup_iff.mpr hentry
    have hmem : k ∈ tally key amount l := AList.lookup_isSome.mp (by rw [hv]; rfl)
    have hk := h k ((mem_tally l k).mp hmem)
    rwa [← lookup_tally, hv] at hk

end

end RealTimeTrading.Data
