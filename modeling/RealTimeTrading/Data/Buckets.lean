/-
RealTimeTrading.Data.Buckets — a map filled from a list, in which a later
element takes the place of an earlier one under the same key.

The entries are those of the elements whose key no later one has
(`toList_filled_perm`), in the order of the keys (`toList_filled_eq`).
Each element that takes a place moves what was there out of the total
(`total_insert`), so nothing of the total is lost exactly if no two elements
share a key (`total_filled_eq_iff`).
-/
import RealTimeTrading.Data.Sums

namespace RealTimeTrading.Data

variable {A K V : Type} [LinearOrder K] (key : A → K) (value : A → V)

/-- What the elements leave, the last one under each key. -/
def filled (l : List A) : Std.TreeMap K V := l.foldl (fun m a => m.insert (key a) (value a)) ∅

theorem filled_concat (l : List A) (a : A) :
    filled key value (l ++ [a]) = (filled key value l).insert (key a) (value a) :=
  List.foldl_concat _ _ _ _

theorem mem_filled {l : List A} {k : K} : k ∈ filled key value l ↔ ∃ a ∈ l, key a = k := by
  induction l using List.reverseRecOn with
  | nil => exact iff_of_false Std.TreeMap.not_mem_emptyc (by simp)
  | append_singleton l a ih =>
    rw [filled_concat, Std.TreeMap.mem_insert, ih, Std.compare_eq_iff_eq]
    constructor
    · rintro (h | ⟨b, hb, h⟩)
      · exact ⟨a, List.mem_append_right _ (List.mem_singleton_self a), h⟩
      · exact ⟨b, List.mem_append_left _ hb, h⟩
    · rintro ⟨b, hb, h⟩
      rcases List.mem_append.mp hb with hbefore | hlast
      · exact Or.inr ⟨b, hbefore, h⟩
      · rw [List.mem_singleton.mp hlast] at h
        exact Or.inl h

theorem length_filled_le (l : List A) : (filled key value l).toList.length ≤ l.length := by
  rw [Std.TreeMap.length_toList]
  induction l using List.reverseRecOn with
  | nil => exact le_of_eq Std.TreeMap.size_emptyc
  | append_singleton l a ih =>
    rw [filled_concat, List.length_append, List.length_singleton]
    exact Std.TreeMap.size_insert_le.trans (Nat.add_le_add_right ih 1)

section Lasts

omit value

/-- The elements whose key no later one has. -/
def lasts : List A → List A
  | [] => []
  | a :: later => if key a ∈ later.map key then lasts later else a :: lasts later

theorem lasts_concat (l : List A) (a : A) :
    lasts key (l ++ [a]) = (lasts key l).filter (fun b => !(key a == key b)) ++ [a] := by
  induction l with
  | nil => rfl
  | cons b rest ih =>
    rw [List.cons_append, lasts, lasts, ih, List.map_append, List.map_singleton]
    by_cases hlater : key b ∈ rest.map key
    · rw [if_pos (List.mem_append_left _ hlater), if_pos hlater]
    · rw [if_neg hlater]
      by_cases hlast : key a = key b
      · rw [if_pos (List.mem_append_right _ (List.mem_singleton.mpr hlast.symm)),
          List.filter_cons_of_neg (by simp [hlast])]
      · have hneither : ¬key b ∈ rest.map key ++ [key a] := fun hmem =>
          (List.mem_append.mp hmem).elim hlater fun h => hlast (List.mem_singleton.mp h).symm
        rw [if_neg hneither, List.filter_cons_of_pos (by simp [hlast]), List.cons_append]

theorem lasts_sublist (l : List A) : (lasts key l).Sublist l := by
  induction l with
  | nil => exact List.Sublist.slnil
  | cons a later ih =>
    unfold lasts
    split_ifs
    · exact ih.cons a
    · exact ih.cons_cons a

theorem nodup_lasts (l : List A) : ((lasts key l).map key).Nodup := by
  induction l with
  | nil => exact List.nodup_nil
  | cons a later ih =>
    unfold lasts
    split_ifs with hlater
    · exact ih
    · rw [List.map_cons]
      exact List.nodup_cons.mpr ⟨fun h => hlater (((lasts_sublist key later).map key).subset h), ih⟩

theorem lasts_of_nodup {l : List A} (h : (l.map key).Nodup) : lasts key l = l := by
  induction l with
  | nil => rfl
  | cons a later ih =>
    obtain ⟨hlater, hrest⟩ := List.nodup_cons.mp h
    rw [lasts, if_neg hlater, ih hrest]

end Lasts

omit key value in
/-- A new entry leaves those under the other keys. -/
theorem toList_insert_perm (m : Std.TreeMap K V) (k : K) (v : V) :
    (m.insert k v).toList.Perm ((k, v) :: m.toList.filter fun e => !(k == e.1)) := by
  refine Std.TreeMap.toList_insert_perm.trans (List.Perm.of_eq (congrArg _ ?_))
  exact List.filter_congr fun e _ => by cases k == e.1 <;> simp

theorem toList_filled_perm (l : List A) :
    (filled key value l).toList.Perm ((lasts key l).map fun a => (key a, value a)) := by
  induction l using List.reverseRecOn with
  | nil => exact List.Perm.refl _
  | append_singleton l a ih =>
    rw [filled_concat, lasts_concat, List.map_append, List.map_singleton]
    refine (toList_insert_perm _ _ _).trans ?_
    refine (List.Perm.cons _ ?_).trans (List.perm_append_singleton _ _).symm
    have hothers := ih.filter fun e => !(key a == e.1)
    rwa [List.filter_map] at hothers

/-- The entries are read in the order of their keys, however the elements are arranged in it. -/
theorem toList_filled_eq {l arranged : List A} (hperm : arranged.Perm (lasts key l))
    (hkeys : arranged.Pairwise fun a b => key a ≤ key b) :
    (filled key value l).toList = arranged.map fun a => (key a, value a) := by
  have hnodup : (arranged.map key).Nodup := (hperm.map key).nodup_iff.mpr (nodup_lasts key l)
  have hascending : (filled key value l).toList.Pairwise fun e e' => e.1 < e'.1 :=
    Std.TreeMap.ordered_keys_toList.imp fun h => compare_lt_iff_lt.mp h
  have hdistinct : (arranged.map fun a => (key a, value a)).Pairwise fun e e' => e.1 < e'.1 := by
    rw [List.pairwise_map]
    exact hkeys.imp₂ (fun _ _ hle hne => lt_of_le_of_ne hle hne) (List.pairwise_map.mp hnodup)
  exact List.Perm.eq_of_pairwise (fun _ _ _ _ hab hba => absurd hab hba.asymm) hascending hdistinct
    ((toList_filled_perm key value l).trans (hperm.map _).symm)

section Total

variable [AddCommMonoid V]

/-- The sum of the values. -/
def total (m : Std.TreeMap K V) : V := (m.toList.map (·.2)).sum

/-- The entries under one key add up to the value there. -/
theorem sum_filter_key (m : Std.TreeMap K V) (k : K) :
    ((m.toList.filter (k == ·.1)).map (·.2)).sum = m.getD k 0 := by
  have hdistinct : (m.toList.filter (k == ·.1)).Nodup := by
    refine List.Nodup.filter _ (m.distinct_keys_toList.imp fun hkeys heq => hkeys ?_)
    rw [heq]
    exact Std.compare_eq_iff_eq.mpr rfl
  have hperm : (m.toList.filter (k == ·.1)).Perm (m[k]?.map (k, ·)).toList := by
    refine (List.perm_ext_iff_of_nodup hdistinct ?_).mpr ?_
    · cases m[k]? <;> simp
    · rintro ⟨k', v⟩
      rw [List.mem_filter, Std.TreeMap.mem_toList_iff_getElem?_eq_some, Option.mem_toList,
        Option.map_eq_some_iff]
      simp only [beq_iff_eq, Prod.mk.injEq]
      constructor
      · rintro ⟨hv, rfl⟩
        exact ⟨v, hv, rfl, rfl⟩
      · rintro ⟨v', hv, rfl, rfl⟩
        exact ⟨hv, rfl⟩
  rw [(hperm.map (·.2)).sum_eq, Std.TreeMap.getD_eq_getD_getElem?]
  cases m[k]? <;> simp

/-- The old value under the key, if any, is moved out. -/
theorem total_insert (m : Std.TreeMap K V) (k : K) (v : V) :
    total (m.insert k v) + m.getD k 0 = total m + v := by
  unfold total
  rw [((toList_insert_perm m k v).map (·.2)).sum_eq, List.map_cons, List.sum_cons,
    sum_map_filter_split (·.2) (k == ·.1) m.toList, sum_filter_key, add_comm v,
    add_comm (m.getD k 0)]
  exact add_right_comm _ _ _

end Total

section Positive

variable [AddCommGroup V] [LinearOrder V] {key value} {l : List A}

theorem pos_of_mem_filled (hpos : ∀ a ∈ l, 0 < value a) {k : K} (hk : k ∈ filled key value l) :
    0 < (filled key value l).getD k 0 := by
  induction l using List.reverseRecOn with
  | nil => exact absurd hk Std.TreeMap.not_mem_emptyc
  | append_singleton l a ih =>
    rw [filled_concat] at hk ⊢
    rw [Std.TreeMap.getD_insert]
    split_ifs with hkey
    · exact hpos a (List.mem_append_right _ (List.mem_singleton_self a))
    · rcases Std.TreeMap.mem_insert.mp hk with hnow | hbefore
      · exact absurd hnow hkey
      · exact ih (fun b hb => hpos b (List.mem_append_left _ hb)) hbefore

theorem getD_filled_nonneg (hpos : ∀ a ∈ l, 0 < value a) (k : K) :
    0 ≤ (filled key value l).getD k 0 := by
  by_cases hk : k ∈ filled key value l
  · exact (pos_of_mem_filled hpos hk).le
  · rw [Std.TreeMap.getD_eq_fallback hk]

variable [IsOrderedAddMonoid V]

theorem total_filled_le (hpos : ∀ a ∈ l, 0 < value a) :
    total (filled key value l) ≤ (l.map value).sum := by
  induction l using List.reverseRecOn with
  | nil => exact le_of_eq rfl
  | append_singleton l a ih =>
    have hbefore : ∀ b ∈ l, 0 < value b := fun b hb => hpos b (List.mem_append_left _ hb)
    have hinsert := total_insert (filled key value l) (key a) (value a)
    have hold : 0 ≤ (filled key value l).getD (key a) 0 := getD_filled_nonneg hbefore (key a)
    rw [filled_concat, List.map_append, List.sum_append, List.map_singleton, List.sum_singleton]
    calc total ((filled key value l).insert (key a) (value a))
        ≤ total ((filled key value l).insert (key a) (value a)) +
            (filled key value l).getD (key a) 0 := le_add_of_nonneg_right hold
      _ = total (filled key value l) + value a := hinsert
      _ ≤ (l.map value).sum + value a := add_le_add_left (ih hbefore) _

/-- Nothing is lost exactly if every element has a key of its own. -/
theorem total_filled_eq_iff (hpos : ∀ a ∈ l, 0 < value a) :
    total (filled key value l) = (l.map value).sum ↔ (l.map key).Nodup := by
  induction l using List.reverseRecOn with
  | nil => exact iff_of_true rfl List.nodup_nil
  | append_singleton l a ih =>
    have hbefore : ∀ b ∈ l, 0 < value b := fun b hb => hpos b (List.mem_append_left _ hb)
    have hinsert := total_insert (filled key value l) (key a) (value a)
    have hle : total (filled key value l) ≤ (l.map value).sum := total_filled_le hbefore
    rw [filled_concat, List.map_append, List.sum_append, List.map_singleton, List.sum_singleton,
      List.map_append, List.map_singleton, ← List.concat_eq_append, List.nodup_concat,
      ← ih hbefore]
    by_cases hkey : key a ∈ l.map key
    · have hmem := (mem_filled key value).mpr (List.mem_map.mp hkey)
      have hmoved : total ((filled key value l).insert (key a) (value a)) <
          (l.map value).sum + value a := by
        calc total ((filled key value l).insert (key a) (value a))
            < total ((filled key value l).insert (key a) (value a)) +
                (filled key value l).getD (key a) 0 :=
              lt_add_of_pos_right _ (pos_of_mem_filled hbefore hmem)
          _ = total (filled key value l) + value a := hinsert
          _ ≤ (l.map value).sum + value a := add_le_add_left hle _
      exact iff_of_false hmoved.ne fun h => h.1 hkey
    · have hnew : key a ∉ filled key value l := fun hmem =>
        hkey (List.mem_map.mpr ((mem_filled key value).mp hmem))
      rw [Std.TreeMap.getD_eq_fallback hnew, add_zero] at hinsert
      rw [hinsert, add_left_inj]
      exact (and_iff_right hkey).symm

theorem sum_lasts_eq_iff (hpos : ∀ a ∈ l, 0 < value a) :
    ((lasts key l).map value).sum = (l.map value).sum ↔ (l.map key).Nodup := by
  have htotal : total (filled key value l) = ((lasts key l).map value).sum := by
    have hsum := ((toList_filled_perm key value l).map (·.2)).sum_eq
    rwa [List.map_map] at hsum
  rw [← htotal]
  exact total_filled_eq_iff hpos

end Positive

end RealTimeTrading.Data
