/-
RealTimeTrading.Rtts.Accounting.KsStatistic — `ks_statistic` of the rolling
windows is the distance of their empirical distribution functions.

The loop of `edge_validation.rs` moves both cursors past the next value
before it measures, so it measures the gap at each value it reaches. A list
that ends leaves a tail of the other one, over which the gap only shrinks.
-/
import RealTimeTrading.Data.Ecdf
import RealTimeTrading.Rtts.Accounting.EdgeValidation

namespace RealTimeTrading.Rtts.EdgeValidation

open RealTimeTrading.Data

/-- The two cursors of the loop: `s` and `t` are behind them, all of it below
everything ahead, and the gap between them has been measured. -/
structure Cursors (s es t rs : List ℚ) (maxDistance : ℚ) : Prop where
  expected : (s ++ es).Pairwise (· ≤ ·)
  realized : (t ++ rs).Pairwise (· ≤ ·)
  behind : ∀ v ∈ s ++ t, ∀ w ∈ es ++ rs, v < w
  measured : |(s.length : ℚ) / (s ++ es).length - (t.length : ℚ) / (t ++ rs).length| ≤ maxDistance

variable {s es t rs : List ℚ} {maxDistance : ℚ}

namespace Cursors

theorem swap (h : Cursors s es t rs maxDistance) : Cursors t rs s es maxDistance where
  expected := h.realized
  realized := h.expected
  behind v hv w hw :=
    h.behind v (List.perm_append_comm.mem_iff.mp hv) w (List.perm_append_comm.mem_iff.mp hw)
  measured := (abs_sub_comm _ _).trans_le h.measured

/-- With `expected` at its end nothing ahead is farther apart than what was measured. -/
theorem gap_le_of_ended (h : Cursors s [] t rs maxDistance) (hs : s ≠ []) {v : ℚ} (hv : v ∈ rs) :
    gap (s ++ []) (t ++ rs) v ≤ maxDistance := by
  have hbehind : ∀ w ∈ s ++ t, w ≤ v := fun w hw => (h.behind w hw v hv).le
  have hmeasured := h.measured
  rw [List.append_nil] at hmeasured ⊢
  exact (gap_ahead hs (fun w hw => hbehind w (List.mem_append_left t hw))
    fun w hw => hbehind w (List.mem_append_right s hw)).trans hmeasured

end Cursors

/-- What is at most `value` in a sorted list stands in front. -/
theorem ecdf_takeWhile (hsorted : (s ++ es).Pairwise (· ≤ ·)) {value : ℚ}
    (hs : ∀ v ∈ s, v ≤ value) :
    ecdf (s ++ es) value =
      ((s ++ es.takeWhile fun v => decide (v ≤ value)).length : ℚ) / (s ++ es).length := by
  have hsplit : s ++ es = (s ++ es.takeWhile fun v => decide (v ≤ value)) ++
      es.dropWhile fun v => decide (v ≤ value) := by
    rw [List.append_assoc, List.takeWhile_append_dropWhile]
  conv_lhs => rw [hsplit]
  conv_rhs => rw [hsplit]
  refine share_front (fun v hv => ?_) fun v hv => ?_
  · rcases List.mem_append.mp hv with hv | hv
    · exact hs v hv
    · exact le_of_mem_takeWhile hv
  · exact not_le.mpr (lt_of_mem_dropWhile (List.pairwise_append.mp hsorted).2.1 hv)

/-- One round: both cursors pass `value`, the least of what was ahead, and the gap
between them is the one at `value`. -/
theorem Cursors.advance (h : Cursors s es t rs maxDistance) {value : ℚ} (hmem : value ∈ es ++ rs) :
    Cursors (s ++ es.takeWhile fun v => decide (v ≤ value))
      (es.dropWhile fun v => decide (v ≤ value))
      (t ++ rs.takeWhile fun v => decide (v ≤ value)) (rs.dropWhile fun v => decide (v ≤ value))
      (max maxDistance (gap (s ++ es) (t ++ rs) value)) := by
  have hbehind : ∀ v ∈ s ++ t, v ≤ value := fun v hv => (h.behind v hv value hmem).le
  have hs : ∀ v ∈ s, v ≤ value := fun v hv => hbehind v (List.mem_append_left t hv)
  have ht : ∀ v ∈ t, v ≤ value := fun v hv => hbehind v (List.mem_append_right s hv)
  refine ⟨?_, ?_, ?_, ?_⟩
  · rw [List.append_assoc, List.takeWhile_append_dropWhile]
    exact h.expected
  · rw [List.append_assoc, List.takeWhile_append_dropWhile]
    exact h.realized
  · have hpassed : ∀ v ∈ (s ++ es.takeWhile fun v => decide (v ≤ value)) ++
        (t ++ rs.takeWhile fun v => decide (v ≤ value)), v ≤ value := by
      intro v hv
      rcases List.mem_append.mp hv with hv | hv <;> rcases List.mem_append.mp hv with hv | hv
      · exact hs v hv
      · exact le_of_mem_takeWhile hv
      · exact ht v hv
      · exact le_of_mem_takeWhile hv
    intro v hv w hw
    refine (hpassed v hv).trans_lt ?_
    rcases List.mem_append.mp hw with hw | hw
    · exact lt_of_mem_dropWhile (List.pairwise_append.mp h.expected).2.1 hw
    · exact lt_of_mem_dropWhile (List.pairwise_append.mp h.realized).2.1 hw
  · refine le_max_of_le_right (le_of_eq ?_)
    rw [gap, ecdf_takeWhile h.expected hs, ecdf_takeWhile h.realized ht, List.append_assoc,
      List.takeWhile_append_dropWhile, List.append_assoc, List.takeWhile_append_dropWhile]

theorem length_takeWhile_eq_sub (l : List ℚ) (p : ℚ → Bool) :
    (l.takeWhile p).length = l.length - (l.dropWhile p).length := by
  have hsplit := congrArg List.length (l.takeWhile_append_dropWhile (p := p))
  rw [List.length_append] at hsplit
  omega

theorem mem_dropWhile_of_lt {l : List ℚ} {x v : ℚ} (hv : v ∈ l) (hx : x < v) :
    v ∈ l.dropWhile fun w => decide (w ≤ x) := by
  rw [← l.takeWhile_append_dropWhile (p := fun w => decide (w ≤ x))] at hv
  exact (List.mem_append.mp hv).resolve_left fun h => not_le.mpr hx (le_of_mem_takeWhile h)

theorem min_mem_append (e r : ℚ) (es rs : List ℚ) : min e r ∈ (e :: es) ++ (r :: rs) := by
  rcases min_choice e r with h | h
  · rw [h]
    exact List.mem_append_left _ List.mem_cons_self
  · rw [h]
    exact List.mem_append_right _ List.mem_cons_self

theorem min_le_of_mem {e r v : ℚ} (he : (e :: es).Pairwise (· ≤ ·))
    (hr : (r :: rs).Pairwise (· ≤ ·)) (hv : v ∈ (e :: es) ++ (r :: rs)) : min e r ≤ v := by
  rcases List.mem_append.mp hv with hv | hv <;> rcases List.mem_cons.mp hv with rfl | hv
  · exact min_le_left _ _
  · exact (min_le_left _ _).trans ((List.pairwise_cons.mp he).1 v hv)
  · exact min_le_right _ _
  · exact (min_le_right _ _).trans ((List.pairwise_cons.mp hr).1 v hv)

/-- The loop returns the larger of what it was given and the largest gap at a value
still ahead. -/
theorem ksLoop_le_iff {a b : List ℚ} (ha : a ≠ []) (hb : b ≠ []) {bound : ℚ} (i j : ℕ)
    (es rs : List ℚ) (maxDistance : ℚ) :
    ∀ s t, s ++ es = a → t ++ rs = b → s.length = i → t.length = j →
      Cursors s es t rs maxDistance →
      (ksLoop a.length b.length i j es rs maxDistance ≤ bound ↔
        maxDistance ≤ bound ∧ ∀ v ∈ es ++ rs, gap a b v ≤ bound) := by
  induction i, j, es, rs, maxDistance using ksLoop.induct a.length b.length with
  | case1 i j e es r rs maxDistance value expected realized i' j' ih =>
    rintro s t rfl rfl rfl rfl h
    have hmem : value ∈ (e :: es) ++ (r :: rs) := min_mem_append e r es rs
    have hbehind : ∀ v ∈ s ++ t, v ≤ value := fun v hv => (h.behind v hv value hmem).le
    have hi : (s ++ (e :: es).takeWhile fun v => decide (v ≤ value)).length = i' := by
      rw [List.length_append, length_takeWhile_eq_sub]
    have hj : (t ++ (r :: rs).takeWhile fun v => decide (v ≤ value)).length = j' := by
      rw [List.length_append, length_takeWhile_eq_sub]
    have hgap : |(i' : ℚ) / (s ++ e :: es).length - (j' : ℚ) / (t ++ r :: rs).length| =
        gap (s ++ e :: es) (t ++ r :: rs) value := by
      rw [gap, ecdf_takeWhile h.expected fun v hv => hbehind v (List.mem_append_left t hv), hi,
        ecdf_takeWhile h.realized fun v hv => hbehind v (List.mem_append_right s hv), hj]
    rw [hgap] at ih
    have hrest := ih _ _ (by rw [List.append_assoc, List.takeWhile_append_dropWhile])
      (by rw [List.append_assoc, List.takeWhile_append_dropWhile]) hi hj (h.advance hmem)
    rw [ksLoop.eq_def]
    show ksLoop _ _ i' j' expected realized
      (max maxDistance |(i' : ℚ) / (s ++ e :: es).length - (j' : ℚ) / (t ++ r :: rs).length|)
        ≤ bound ↔ _
    rw [hgap, hrest, max_le_iff, and_assoc]
    refine and_congr_right fun _ => ⟨fun hahead v hv => ?_, fun hahead => ⟨hahead value hmem, ?_⟩⟩
    · by_cases hle : v ≤ value
      · rw [hle.antisymm (min_le_of_mem (List.pairwise_append.mp h.expected).2.1
          (List.pairwise_append.mp h.realized).2.1 hv)]
        exact hahead.1
      · refine hahead.2 v (List.mem_append.mpr ((List.mem_append.mp hv).imp ?_ ?_))
        · exact fun hv => mem_dropWhile_of_lt hv (not_le.mp hle)
        · exact fun hv => mem_dropWhile_of_lt hv (not_le.mp hle)
    · exact fun v hv => hahead v (List.mem_append.mpr ((List.mem_append.mp hv).imp
        (fun hv => (List.dropWhile_sublist _).subset hv)
        fun hv => (List.dropWhile_sublist _).subset hv))
  | case2 i j es rs maxDistance hended =>
    rintro s t rfl rfl rfl rfl h
    have hloop : ksLoop (s ++ es).length (t ++ rs).length s.length t.length es rs maxDistance =
        maxDistance := by
      rw [ksLoop.eq_def]
      split
      · exact (hended _ _ _ _ rfl rfl).elim
      · rfl
    rw [hloop]
    refine ⟨fun hbound => ⟨hbound, fun v hv => ?_⟩, And.left⟩
    cases es with
    | nil =>
      rw [List.append_nil] at ha
      exact (h.gap_le_of_ended ha hv).trans hbound
    | cons e es =>
      cases rs with
      | nil =>
        rw [List.append_nil] at hb hv
        rw [gap_comm]
        exact (h.swap.gap_le_of_ended hb hv).trans hbound
      | cons r rs => exact (hended e es r rs rfl rfl).elim

/-- Before the first round. -/
theorem Cursors.start {a b : List ℚ} (ha : a.Pairwise (· ≤ ·)) (hb : b.Pairwise (· ≤ ·)) :
    Cursors [] a [] b 0 :=
  ⟨ha, hb, fun _ hv => absurd hv List.not_mem_nil, by simp⟩

theorem ksLoop_sorted {a b : List ℚ} (ha : a ≠ []) (hb : b ≠ []) (hasorted : a.Pairwise (· ≤ ·))
    (hbsorted : b.Pairwise (· ≤ ·)) : ksLoop a.length b.length 0 0 a b 0 = ksDistance a b := by
  refine eq_of_forall_ge_iff fun bound => ?_
  rw [ksDistance_le_iff]
  exact ksLoop_le_iff ha hb 0 0 a b 0 [] [] rfl rfl rfl rfl (.start hasorted hbsorted)

/-- `ks_statistic` is the Kolmogorov-Smirnov distance of the two windows. -/
theorem ksStatistic_eq_ksDistance {expected realized : List ℚ} (he : expected ≠ [])
    (hr : realized ≠ []) : ksStatistic expected realized = ksDistance expected realized := by
  have hexpected := expected.mergeSort_perm fun a b => decide (a ≤ b)
  have hrealized := realized.mergeSort_perm fun a b => decide (a ≤ b)
  rw [ksStatistic, if_neg (not_or.mpr ⟨he, hr⟩), ← hexpected.length_eq, ← hrealized.length_eq]
  rw [← ksDistance_perm hexpected hrealized]
  exact ksLoop_sorted (mt (fun h => (h ▸ hexpected).nil_eq.symm) he)
    (mt (fun h => (h ▸ hrealized).nil_eq.symm) hr)
    (List.pairwise_mergeSort' (· ≤ ·) expected) (List.pairwise_mergeSort' (· ≤ ·) realized)

/-- The statistic is the maximum, over every real point, of how far the two empirical
distribution functions are apart; it is symmetric, a share, and `0` between two orders
of the same values. -/
theorem ksStatistic_exact {expected realized : List ℚ} (he : expected ≠ [])
    (hr : realized ≠ []) :
    IsGreatest (Set.range fun x : ℝ => gap (inReals expected) (inReals realized) x)
      (ksStatistic expected realized) ∧
    ksStatistic expected realized = ksStatistic realized expected ∧
    0 ≤ ksStatistic expected realized ∧ ksStatistic expected realized ≤ 1 ∧
    (expected.Perm realized → ksStatistic expected realized = 0) := by
  rw [ksStatistic_eq_ksDistance he hr, ksStatistic_eq_ksDistance hr he]
  exact ⟨isGreatest_gap_inReals he, ksDistance_comm _ _, ksDistance_nonneg _ _,
    ksDistance_le_one _ _, ksDistance_of_perm⟩

/-- Two windows that tie on `1`, and two orders of one window. -/
theorem ksStatistic_exact_tied :
    IsGreatest (Set.range fun x : ℝ => gap (inReals [1, 1, 3]) (inReals [1, 2]) x)
      (ksStatistic [1, 1, 3] [1, 2]) ∧ ksStatistic [2, 1] [1, 2] = 0 :=
  ⟨(ksStatistic_exact (by decide) (by decide)).1,
   (ksStatistic_exact (by decide) (by decide)).2.2.2.2 (List.Perm.swap 1 2 [])⟩

end RealTimeTrading.Rtts.EdgeValidation
