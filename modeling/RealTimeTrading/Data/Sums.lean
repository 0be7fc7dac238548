/-
RealTimeTrading.Data.Sums — sums over lists and finite maps that are
changed in one place.

Each lemma says what a single write does to a total, with no subtraction,
so that it holds of counts as well as of amounts. A weighted mean lies
between the values it is taken over, and falls as weight moves to the least
of them (`sum_mul_le_of_transfer`).
-/
import Mathlib.Algebra.BigOperators.Group.List.Basic
import Mathlib.Algebra.BigOperators.Ring.List
import Mathlib.Algebra.Order.BigOperators.Group.List
import Mathlib.Algebra.Order.BigOperators.Ring.Finset
import Mathlib.Algebra.Order.Field.Basic
import Mathlib.Data.List.AList
import Mathlib.Tactic.Ring

namespace RealTimeTrading.Data

section Lists

variable {A M : Type} [AddCommMonoid M] (f : A → M)

/-- Replacing one element moves its value out of the total and the new one in. -/
theorem sum_map_set (l : List A) {i : Nat} {a : A} (h : l[i]? = some a) (b : A) :
    ((l.set i b).map f).sum + f a = (l.map f).sum + f b := by
  induction l generalizing i with
  | nil => simp at h
  | cons x rest ih =>
    cases i with
    | zero =>
      simp only [List.getElem?_cons_zero, Option.some.injEq] at h
      subst h
      simp only [List.set_cons_zero, List.map_cons, List.sum_cons]
      rw [add_right_comm, add_comm (f b), add_right_comm]
    | succ i =>
      have hrest := ih (i := i) (by simpa using h)
      simp only [List.set_cons_succ, List.map_cons, List.sum_cons]
      rw [add_assoc, hrest, ← add_assoc]

/-- Where one element spends what it has and what it is given, the books stay balanced. -/
theorem balanced_set [IsCancelAdd M] {l : List A} {i : Nat} {a b : A} (h : l[i]? = some a)
    {out given spent gained : M} (hbefore : out + (l.map f).sum = given)
    (hone : spent + f b = gained + f a) :
    out + spent + ((l.set i b).map f).sum = given + gained := by
  refine add_right_cancel (b := f a) ?_
  calc out + spent + ((l.set i b).map f).sum + f a
      = out + spent + (((l.set i b).map f).sum + f a) := add_assoc _ _ _
    _ = out + spent + ((l.map f).sum + f b) := by rw [sum_map_set f l h b]
    _ = (out + (l.map f).sum) + (spent + f b) := add_add_add_comm _ _ _ _
    _ = given + (gained + f a) := by rw [hbefore, hone]
    _ = given + gained + f a := (add_assoc _ _ _).symm

theorem sum_map_eraseIdx (l : List A) {i : Nat} {a : A} (h : l[i]? = some a) :
    ((l.eraseIdx i).map f).sum + f a = (l.map f).sum := by
  induction l generalizing i with
  | nil => simp at h
  | cons x rest ih =>
    cases i with
    | zero =>
      simp only [List.getElem?_cons_zero, Option.some.injEq] at h
      subst h
      simp only [List.eraseIdx_cons_zero, List.map_cons, List.sum_cons]
      exact add_comm _ _
    | succ i =>
      have hrest := ih (i := i) (by simpa using h)
      simp only [List.eraseIdx_cons_succ, List.map_cons, List.sum_cons]
      rw [add_assoc, hrest]

/-- A total is that of the elements with a property and that of the others. -/
theorem sum_map_filter_split (p : A → Bool) (l : List A) :
    (l.map f).sum = ((l.filter p).map f).sum + ((l.filter fun a => !p a).map f).sum := by
  induction l with
  | nil => simp
  | cons a l ih =>
    cases hp : p a
    · simp only [List.map_cons, List.sum_cons, List.filter_cons, hp, ih]
      simp [add_left_comm]
    · simp only [List.map_cons, List.sum_cons, List.filter_cons, hp, ih]
      simp [add_assoc]

end Lists

section Bounds

variable {A F : Type} [AddCommMonoid F] [PartialOrder F] [IsOrderedAddMonoid F] {f : A → F}

/-- Fewer values that are not negative have no greater total. -/
theorem sum_map_le_of_subperm {l l' : List A} (h : l.Subperm l') (hf : ∀ a ∈ l', 0 ≤ f a) :
    (l.map f).sum ≤ (l'.map f).sum := by
  obtain ⟨l₀, hperm, hsub⟩ := h
  rw [← (hperm.map f).sum_eq]
  exact (hsub.map f).sum_le_sum (List.forall_mem_map.mpr hf)

/-- Where only the elements with a property count, each for no more than `m`. -/
theorem sum_map_le_countP {l : List A} {p : A → Bool} {m : F}
    (h : ∀ a ∈ l, f a ≤ if p a then m else 0) : (l.map f).sum ≤ l.countP p • m := by
  induction l with
  | nil => simp
  | cons a l ih =>
    obtain ⟨ha, hl⟩ := List.forall_mem_cons.mp h
    rw [List.map_cons, List.sum_cons, List.countP_cons, add_nsmul, add_comm]
    refine add_le_add (ih hl) (ha.trans_eq ?_)
    split
    · rw [one_nsmul]
    · rw [zero_nsmul]

end Bounds

section Means

variable {A F : Type} [Field F] [LinearOrder F] [IsStrictOrderedRing F] {w v : A → F} {l : List A}

/-- A weighted mean is not below all the values. -/
theorem exists_le_weightedMean (hl : l ≠ []) (hw : ∀ a ∈ l, 0 < w a) :
    ∃ a ∈ l, v a ≤ (l.map fun a => w a * v a).sum / (l.map w).sum := by
  have hpos : 0 < (l.map w).sum :=
    List.sum_pos _ (List.forall_mem_map.mpr hw) (by simpa using hl)
  have hsum : (l.map fun a => w a * v a).sum ≤
      (l.map fun a => w a * ((l.map fun a => w a * v a).sum / (l.map w).sum)).sum := by
    rw [List.sum_map_mul_right, mul_div_cancel₀ _ hpos.ne']
  obtain ⟨a, ha, hle⟩ := List.exists_le_of_sum_le hl _ _ hsum
  exact ⟨a, ha, le_of_mul_le_mul_left hle (hw a ha)⟩

/-- A weighted mean is not above all the values. -/
theorem exists_weightedMean_le (hl : l ≠ []) (hw : ∀ a ∈ l, 0 < w a) :
    ∃ a ∈ l, (l.map fun a => w a * v a).sum / (l.map w).sum ≤ v a := by
  have hpos : 0 < (l.map w).sum :=
    List.sum_pos _ (List.forall_mem_map.mpr hw) (by simpa using hl)
  have hsum : (l.map fun a => w a * ((l.map fun a => w a * v a).sum / (l.map w).sum)).sum ≤
      (l.map fun a => w a * v a).sum := by
    rw [List.sum_map_mul_right, mul_div_cancel₀ _ hpos.ne']
  obtain ⟨a, ha, hle⟩ := List.exists_le_of_sum_le hl _ _ hsum
  exact ⟨a, ha, le_of_mul_le_mul_left hle (hw a ha)⟩

/-- Weight that moves to an entry of the least value, and values that only fall, lower the
weighted total. -/
theorem sum_mul_le_of_transfer {I : Type} [Fintype I] {w w' v v' : I → F} (least : I)
    (hleast : ∀ i, v least ≤ v i) (hw' : ∀ i, 0 ≤ w' i) (hv : ∀ i, v' i ≤ v i)
    (htotal : ∑ i, w' i = ∑ i, w i) (hmoved : ∀ i, i ≠ least → w' i ≤ w i) :
    ∑ i, w' i * v' i ≤ ∑ i, w i * v i := by
  -- Values above the least one lose weight, and the least one adds the same for each weight.
  have hshift : ∀ u : I → F,
      ∑ i, u i * v i = (∑ i, u i) * v least + ∑ i, u i * (v i - v least) := by
    intro u
    rw [Finset.sum_mul, ← Finset.sum_add_distrib]
    exact Finset.sum_congr rfl fun i _ => by ring
  have hexcess : ∀ i, w' i * (v i - v least) ≤ w i * (v i - v least) := by
    intro i
    by_cases hi : i = least
    · rw [hi, sub_self, mul_zero, mul_zero]
    · exact mul_le_mul_of_nonneg_right (hmoved i hi) (sub_nonneg.mpr (hleast i))
  calc ∑ i, w' i * v' i ≤ ∑ i, w' i * v i :=
        Finset.sum_le_sum fun i _ => mul_le_mul_of_nonneg_left (hv i) (hw' i)
    _ = (∑ i, w i) * v least + ∑ i, w' i * (v i - v least) := by rw [hshift, htotal]
    _ ≤ (∑ i, w i) * v least + ∑ i, w i * (v i - v least) :=
        add_le_add le_rfl (Finset.sum_le_sum fun i _ => hexcess i)
    _ = ∑ i, w i * v i := (hshift w).symm

end Means

section Maps

variable {K V M : Type} [AddCommMonoid M]

/-- The sum of `f` over the entries of a finite map. -/
def sumEntries (f : K → V → M) (m : AList fun _ : K => V) : M :=
  (m.entries.map fun e => f e.1 e.2).sum

@[simp] theorem sumEntries_empty (f : K → V → M) :
    sumEntries f (∅ : AList fun _ : K => V) = 0 := rfl

/-- One insertion: the old value under the key, if any, is moved out. -/
theorem sumEntries_insert [DecidableEq K] (f : K → V → M) (m : AList fun _ : K => V) (k : K)
    (v : V) :
    sumEntries f (m.insert k v) + (m.lookup k).elim 0 (f k) = sumEntries f m + f k v := by
  unfold sumEntries
  rw [AList.entries_insert, List.map_cons, List.sum_cons]
  by_cases hk : k ∈ m.keys
  · obtain ⟨old, before, after, -, hentries, herase⟩ := List.exists_of_kerase hk
    have hlookup : m.lookup k = some old := by
      refine AList.mem_lookup_iff.mpr ?_
      rw [hentries]
      exact List.mem_append_right _ List.mem_cons_self
    rw [hlookup, herase, hentries]
    simp only [List.map_append, List.map_cons, List.sum_append, List.sum_cons, Option.elim_some]
    rw [add_left_comm _ (f k old), add_comm (f k old), add_comm (f k v)]
    exact add_right_comm _ _ _
  · have hlookup : m.lookup k = none := AList.lookup_eq_none.mpr hk
    rw [hlookup, List.kerase_of_notMem_keys hk, Option.elim_none, add_zero, add_comm]

/-- Entry by entry, a difference of sums. -/
theorem sumEntries_sub {G : Type} [AddCommGroup G] (f g : K → V → G) (m : AList fun _ : K => V) :
    sumEntries (fun k v => f k v - g k v) m = sumEntries f m - sumEntries g m := by
  unfold sumEntries
  induction m.entries with
  | nil => simp
  | cons e rest ih =>
    simp only [List.map_cons, List.sum_cons, ih]
    exact add_sub_add_comm _ _ _ _ |>.symm

theorem sumEntries_add (f g : K → V → M) (m : AList fun _ : K => V) :
    sumEntries (fun k v => f k v + g k v) m = sumEntries f m + sumEntries g m := by
  unfold sumEntries
  exact List.sum_map_add

/-- A new entry adds its value. -/
theorem sumEntries_insert_new [DecidableEq K] (f : K → V → M) {m : AList fun _ : K => V} {k : K}
    (hk : k ∉ m) (v : V) : sumEntries f (m.insert k v) = sumEntries f m + f k v := by
  have hinsert := sumEntries_insert f m k v
  rwa [AList.lookup_eq_none.mpr hk, Option.elim_none, add_zero] at hinsert

/-- A sum that counts one key only. -/
theorem sumEntries_single [DecidableEq K] (k : K) (f : V → M) (m : AList fun _ : K => V) :
    sumEntries (fun k' v => if k' = k then f v else 0) m = (m.lookup k).elim 0 f := by
  induction m using AList.insertRec with
  | H0 => rfl
  | IH a b m ha ih =>
    rw [sumEntries_insert_new _ ha, ih]
    by_cases hak : a = k
    · rw [if_pos hak, ← hak, AList.lookup_eq_none.mpr ha, AList.lookup_insert, Option.elim_none,
        zero_add, Option.elim_some]
    · rw [if_neg hak, add_zero, AList.lookup_insert_ne (Ne.symm hak)]

/-- The entry of one key, and the others. -/
theorem sumEntries_split [DecidableEq K] (k : K) (f : K → V → M) (m : AList fun _ : K => V) :
    sumEntries f m =
      (m.lookup k).elim 0 (f k) + sumEntries (fun k' v => if k' = k then 0 else f k' v) m := by
  rw [← sumEntries_single, ← sumEntries_add]
  congr 1
  funext k' v
  by_cases hk : k' = k
  · simp [hk]
  · simp [hk]

/-- A sum over the keys two maps share, taken over the one or the other. -/
theorem sumEntries_comm [DecidableEq K] {W : Type} (f : K → V → W → M) (m : AList fun _ : K => V)
    (n : AList fun _ : K => W) :
    sumEntries (fun k v => (n.lookup k).elim 0 (f k v)) m =
      sumEntries (fun k w => (m.lookup k).elim 0 fun v => f k v w) n := by
  induction m using AList.insertRec with
  | H0 => simp [sumEntries]
  | IH a b m ha ih =>
    have hsplit : sumEntries (fun k w => ((m.insert a b).lookup k).elim 0 fun v => f k v w) n =
        sumEntries (fun k w => (m.lookup k).elim 0 fun v => f k v w) n +
          sumEntries (fun k w => if k = a then f a b w else 0) n := by
      rw [← sumEntries_add]
      congr 1
      funext k w
      by_cases hk : k = a
      · rw [hk, AList.lookup_insert, AList.lookup_eq_none.mpr ha, if_pos rfl, Option.elim_none,
          zero_add, Option.elim_some]
      · rw [AList.lookup_insert_ne hk, if_neg hk, add_zero]
    rw [sumEntries_insert_new _ ha, ih, hsplit, sumEntries_single]

end Maps

end RealTimeTrading.Data
