/-
RealTimeTrading.Data.Ends — the ends of an ordered map, with a default for
the empty one.

The keys of a `Std.TreeMap` ascend, so the last is the greatest and the
first the least. A reader that falls back on a default reads the end of
`orDefault`. Two sets are apart exactly if their facing ends are
(`lt_iff_forall_lt`).
-/
import Mathlib.Order.Bounds.Basic
import Mathlib.Tactic.Linarith

namespace RealTimeTrading.Data

variable {K V : Type}

/-- The elements, or the default where there is none. -/
def orDefault (d : K) (s : Set K) : Set K := {k | k ∈ s ∨ s = ∅ ∧ k = d}

theorem orDefault_of_nonempty {d : K} {s : Set K} (h : s.Nonempty) : orDefault d s = s :=
  Set.ext fun _ => or_iff_left fun hempty => h.ne_empty hempty.1

theorem orDefault_empty (d : K) : orDefault d ∅ = {d} :=
  Set.ext fun k => by simp [orDefault]

variable [LinearOrder K]

section Keys

variable (m : Std.TreeMap K V)

theorem keys_getLast?_eq_some_iff {k : K} :
    m.keys.getLast? = some k ↔ IsGreatest {k | k ∈ m} k := by
  rw [← Std.TreeMap.maxKey?_eq_getLast?_keys, Std.TreeMap.maxKey?_eq_some_iff_mem_and_forall]
  simp only [Ordering.isLE_iff_ne_gt, compare_le_iff_le]
  rfl

theorem keys_head?_eq_some_iff {k : K} : m.keys.head? = some k ↔ IsLeast {k | k ∈ m} k := by
  rw [← Std.TreeMap.minKey?_eq_head?_keys, Std.TreeMap.minKey?_eq_some_iff_mem_and_forall]
  simp only [Ordering.isLE_iff_ne_gt, compare_le_iff_le]
  rfl

theorem keys_eq_nil_iff : m.keys = [] ↔ {k | k ∈ m} = ∅ := by
  rw [Set.eq_empty_iff_forall_notMem, List.eq_nil_iff_forall_not_mem]
  exact forall_congr' fun k => not_congr Std.TreeMap.mem_keys

theorem isGreatest_lastKey (d : K) :
    IsGreatest (orDefault d {k | k ∈ m}) (m.keys.getLast?.getD d) := by
  cases h : m.keys.getLast? with
  | none =>
    rw [(keys_eq_nil_iff m).mp (List.getLast?_eq_none_iff.mp h), orDefault_empty]
    exact isGreatest_singleton
  | some k =>
    have hk := (keys_getLast?_eq_some_iff m).mp h
    rw [orDefault_of_nonempty hk.nonempty]
    exact hk

theorem isLeast_firstKey (d : K) :
    IsLeast (orDefault d {k | k ∈ m}) (m.keys.head?.getD d) := by
  cases h : m.keys.head? with
  | none =>
    rw [(keys_eq_nil_iff m).mp (List.head?_eq_none_iff.mp h), orDefault_empty]
    exact isLeast_singleton
  | some k =>
    have hk := (keys_head?_eq_some_iff m).mp h
    rw [orDefault_of_nonempty hk.nonempty]
    exact hk

end Keys

theorem lt_iff_forall_lt {s t : Set K} {a b : K} (ha : IsGreatest s a) (hb : IsLeast t b) :
    a < b ↔ ∀ x ∈ s, ∀ y ∈ t, x < y := by
  constructor
  · intro hlt x hx y hy
    exact (ha.2 hx).trans_lt (hlt.trans_le (hb.2 hy))
  · intro h
    exact h a ha.1 b hb.1

end RealTimeTrading.Data
