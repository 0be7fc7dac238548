/-
RealTimeTrading.Rtts.Floating.Validation — `validation.rs`: the returns of
the shadow, paper and live modes compared two by two, over `f64`.

`f64::sqrt` is a parameter. A mean adds the values up in their order, so two
orders of one sample may have two means.
-/
import RealTimeTrading.Data.Binary64
import RealTimeTrading.Data.CursorMerge
import RealTimeTrading.Rtts.Types
import Mathlib.Data.Finset.Max
import Mathlib.Data.Real.Basic
import Mathlib.Order.Bounds.Basic

namespace RealTimeTrading.Rtts.Floating.Validation

open Data F64

inductive ValidationMode where
  | shadow
  | paper
  | live
  deriving DecidableEq, Repr

structure StatisticalTestResult where
  tStatistic : F64 := 0
  ksStatistic : F64 := 0
  passed : Bool := false

structure ValidationReport where
  comparisons : HashMap (ValidationMode × ValidationMode) StatisticalTestResult := ∅
  accepted : Bool := false

def mean (values : List F64) : F64 := F64.sum values / values.length

def sampleVariance (values : List F64) (mean : F64) : F64 :=
  if values.length < 2 then 0
  else
    F64.sum (values.map fun value =>
      let delta := value - mean
      delta * delta) / (values.length - 1 : ℕ)

/-- The `denom` of `welch_t_statistic`. -/
def standardError (sqrt : F64 → F64) (a b : List F64) : F64 :=
  sqrt (sampleVariance a (mean a) / a.length + sampleVariance b (mean b) / b.length)

def welchTStatistic (sqrt : F64 → F64) (a b : List F64) : F64 :=
  if a.length < 2 ∨ b.length < 2 then .posInf
  else
    let denom := standardError sqrt a b
    if denom ≤ F64.epsilon then 0 else (mean a - mean b) / denom

/-- The loop of `ks_statistic`: `i` of `n` and `j` of `m` values are behind the two
cursors, and only one of the cursors moves before the distance is taken. -/
def ksLoop (n m : Nat) (i j : Nat) : List F64 → List F64 → F64 → F64 → F64 → F64
  | l :: lhs, r :: rhs, cdfA, cdfB, maxDistance =>
    if l ≤ r then
      let i := i + 1
      let cdfA := (i : F64) / n
      ksLoop n m i j lhs (r :: rhs) cdfA cdfB (max maxDistance (cdfA - cdfB).abs)
    else
      let j := j + 1
      let cdfB := (j : F64) / m
      ksLoop n m i j (l :: lhs) rhs cdfA cdfB (max maxDistance (cdfA - cdfB).abs)
  | _, _, _, _, maxDistance => maxDistance
termination_by lhs rhs => lhs.length + rhs.length

/-- `sort_by` of `partial_cmp`, where what does not compare counts as equal. -/
def sorted (values : List F64) : List F64 := values.mergeSort fun x y => decide ¬y < x

def ksStatistic (a b : List F64) : F64 :=
  if a = [] ∨ b = [] then 1 else ksLoop a.length b.length 0 0 (sorted a) (sorted b) 0 0 0

/-- The body of the loop of `validate_modes`. -/
def compare (sqrt : F64 → F64) (tThreshold ksThreshold : F64) (report : ValidationReport)
    (pair : (ValidationMode × ValidationMode) × List F64 × List F64) : ValidationReport :=
  let (key, a, b) := pair
  let result : StatisticalTestResult :=
    { tStatistic := welchTStatistic sqrt a b, ksStatistic := ksStatistic a b, passed := true }
  let passed :=
    decide (result.tStatistic.abs ≤ tThreshold) && decide (result.ksStatistic ≤ ksThreshold)
  { comparisons := report.comparisons.insert key { result with passed := passed }
    accepted := report.accepted && passed }

def validateModes (sqrt : F64 → F64) (shadow paper live : List F64)
    (tThreshold ksThreshold : F64) : ValidationReport :=
  let pairs :=
    [((ValidationMode.shadow, ValidationMode.paper), shadow, paper),
     ((ValidationMode.shadow, ValidationMode.live), shadow, live),
     ((ValidationMode.paper, ValidationMode.live), paper, live)]
  pairs.foldl (compare sqrt tThreshold ksThreshold) { accepted := true }

/-! ## Shares -/

/-- `i as f64 / n as f64`. -/
def shareOf (i n : ℕ) : ℚ := binary64 (binary64 i / binary64 n)

/-- The difference of two shares, as it is stored. -/
def shareGap (n m i j : ℕ) : ℚ := binary64 (shareOf i n - shareOf j m)

theorem shareOf_mono {i i' : ℕ} (h : i ≤ i') (n : ℕ) : shareOf i n ≤ shareOf i' n :=
  binary64_mono (div_le_div_of_nonneg_right (binary64_mono (by exact_mod_cast h))
    (binary64_nonneg (Nat.cast_nonneg n)))

theorem shareOf_zero (n : ℕ) : shareOf 0 n = 0 := by
  rw [shareOf, Nat.cast_zero, binary64_zero, zero_div, binary64_zero]

theorem shareOf_self {n : ℕ} (h : 0 < n) : shareOf n n = 1 := by
  rw [shareOf, div_self (binary64_natCast_pos h).ne', binary64_one]

theorem shareOf_unit {i n : ℕ} (hn : 0 < n) (h : i ≤ n) : 0 ≤ shareOf i n ∧ shareOf i n ≤ 1 :=
  ⟨shareOf_zero n ▸ shareOf_mono (Nat.zero_le i) n, shareOf_self hn ▸ shareOf_mono h n⟩

theorem shareGap_self (n i : ℕ) : shareGap n n i i = 0 := by
  rw [shareGap, sub_self, binary64_zero]

theorem shareGap_distance {n m : ℕ} (hn : 0 < n) (hm : 0 < m) : Distance (shareGap n m) n m where
  mono h j := binary64_mono (sub_le_sub_right (shareOf_mono h n) _)
  anti h i := binary64_mono (sub_le_sub_left (shareOf_mono h m) _)
  start := by rw [shareGap, shareOf_zero, shareOf_zero, sub_self, binary64_zero]
  finish := by rw [shareGap, shareOf_self hn, shareOf_self hm, sub_self, binary64_zero]

theorem quotient_eq {i n : ℕ} (hn : 0 < n) (h : i ≤ n) (hmany : n ≤ 2 ^ 64) :
    ∃ x : Finite64, (i : F64) / (n : F64) = finite x ∧ x.1 = shareOf i n := by
  obtain ⟨y, hy, hyvalue⟩ := natCast_eq hmany
  obtain ⟨x, hx, hxvalue⟩ := natCast_eq (h.trans hmany)
  have hpos := binary64_natCast_pos hn
  have hquotient : |binary64 (i : ℚ) / binary64 (n : ℚ)| ≤ 1 := by
    rw [abs_of_nonneg (div_nonneg (binary64_nonneg (Nat.cast_nonneg i)) hpos.le)]
    exact div_le_one_of_le₀ (binary64_mono (by exact_mod_cast h)) hpos.le
  obtain ⟨z, hz, hzvalue, -⟩ := round_unit hquotient
  refine ⟨z, ?_, hzvalue⟩
  rw [hx, hy, div_finite x (hyvalue ▸ hpos.ne'), hxvalue, hyvalue]
  exact hz

theorem difference_eq {x y : Finite64} {i j n m : ℕ} (hx : x.1 = shareOf i n)
    (hy : y.1 = shareOf j m) (hn : 0 < n) (hm : 0 < m) (hi : i ≤ n) (hj : j ≤ m) :
    ∃ z : Finite64, finite x - finite y = finite z ∧ z.1 = shareGap n m i j := by
  have hi' := shareOf_unit hn hi
  have hj' := shareOf_unit hm hj
  have hunit : |shareOf i n - shareOf j m| ≤ 1 := by
    rw [abs_le]
    constructor <;> linarith
  obtain ⟨z, hz, hzvalue, -⟩ := round_unit hunit
  refine ⟨z, ?_, hzvalue⟩
  rw [sub_finite, hx, hy]
  exact hz

/-- One round of the loop measures the stored difference. -/
theorem measured_eq {x y : Finite64} {i j n m : ℕ} (hx : x.1 = shareOf i n)
    (hy : y.1 = shareOf j m) (hn : 0 < n) (hm : 0 < m) (hi : i ≤ n) (hj : j ≤ m) (top : Finite64) :
    ∃ z : Finite64, max (finite top) (finite x - finite y).abs = finite z ∧
      z.1 = max top.1 |shareGap n m i j| := by
  obtain ⟨w, hw, hwval⟩ := difference_eq hx hy hn hm hi hj
  rw [hw, abs_finite, ← hwval]
  exact max_finite_eq _ _

/-! ## The loop -/

/-- Over numbers the loop is that of two cursors and the stored difference of their
shares. -/
theorem ksLoop_eq {n m : ℕ} (hn : 0 < n) (hm : 0 < m) (hmany : n ≤ 2 ^ 64) (hmany' : m ≤ 2 ^ 64)
    (i j : ℕ) (lhs rhs : List Finite64) (maxDistance : ℚ) :
    ∀ a b top : Finite64, i + lhs.length = n → j + rhs.length = m → a.1 = shareOf i n →
      b.1 = shareOf j m → top.1 = maxDistance →
      ∃ z : Finite64, ksLoop n m i j (lhs.map finite) (rhs.map finite) (finite a) (finite b)
        (finite top) = finite z ∧ z.1 = mergeLoop (shareGap n m) i j lhs rhs maxDistance := by
  fun_induction mergeLoop (shareGap n m) i j lhs rhs maxDistance with
  | case1 i j l lhs r rhs maxDistance hle ih =>
    intro a b top hi hj ha hb htop
    rw [List.length_cons] at hi
    obtain ⟨a', ha', haval⟩ := quotient_eq (i := i + 1) hn (by omega) hmany
    obtain ⟨top', htop', htopval⟩ := measured_eq haval hb hn hm (by omega) (by omega) top
    obtain ⟨w, hw, hwval⟩ := ih a' b top' (by omega) hj haval hb (by rw [htopval, htop])
    refine ⟨w, ?_, hwval⟩
    rw [List.map_cons, List.map_cons, ksLoop, if_pos (finite_le_finite.mpr hle)]
    dsimp only
    rw [ha', htop']
    exact hw
  | case2 i j l lhs r rhs maxDistance hle ih =>
    intro a b top hi hj ha hb htop
    rw [List.length_cons] at hj
    obtain ⟨b', hb', hbval⟩ := quotient_eq (i := j + 1) hm (by omega) hmany'
    obtain ⟨top', htop', htopval⟩ := measured_eq ha hbval hn hm (by omega) (by omega) top
    obtain ⟨w, hw, hwval⟩ := ih a b' top' hi (by omega) ha hbval (by rw [htopval, htop])
    refine ⟨w, ?_, hwval⟩
    rw [List.map_cons, List.map_cons, ksLoop, if_neg (mt finite_le_finite.mp hle)]
    dsimp only
    rw [hb', htop']
    exact hw
  | case3 i j lhs rhs maxDistance hended =>
    intro a b top _ _ _ _ htop
    refine ⟨top, ?_, htop⟩
    cases lhs with
    | nil => simp only [List.map_nil, ksLoop]
    | cons l lhs =>
      cases rhs with
      | nil => simp only [List.map_cons, List.map_nil, ksLoop]
      | cons r rhs => exact (hended l lhs r rhs rfl rfl).elim

theorem sorted_finite (l : List Finite64) :
    sorted (l.map finite) = (l.mergeSort fun x y => decide (x ≤ y)).map finite := by
  rw [sorted, List.map_mergeSort]
  intro x _ y _
  rw [decide_eq_decide, finite_lt_finite]
  exact not_lt.symm

/-- The lists a statistic is taken of: not empty, and no longer than a slice can be. -/
structure Sample (l : List Finite64) : Prop where
  nonempty : l ≠ []
  fits : l.length ≤ 2 ^ 64

theorem Sample.pos {l : List Finite64} (h : Sample l) : 0 < l.length :=
  List.length_pos_of_ne_nil h.nonempty

/-- The statistic is the larger of the largest gap and the largest lead. -/
theorem ksStatistic_le_iff {a b : List Finite64} (ha : Sample a) (hb : Sample b) :
    ∃ z : Finite64, ksStatistic (a.map finite) (b.map finite) = finite z ∧
      ∀ bound, z.1 ≤ bound ↔ 0 ≤ bound ∧
        (∀ x ∈ a ++ b, countGap (shareGap a.length b.length) a b x ≤ bound) ∧
        ∀ v ∈ a, countLead (shareGap a.length b.length) a b v ≤ bound := by
  have hasorted := a.mergeSort_perm fun x y => decide (x ≤ y)
  have hbsorted := b.mergeSort_perm fun x y => decide (x ≤ y)
  obtain ⟨z, hz, hzval⟩ := ksLoop_eq ha.pos hb.pos ha.fits hb.fits 0 0
    (a.mergeSort fun x y => decide (x ≤ y)) (b.mergeSort fun x y => decide (x ≤ y)) 0
    zero64 zero64 zero64 (by rw [hasorted.length_eq, zero_add])
    (by rw [hbsorted.length_eq, zero_add]) (shareOf_zero _).symm (shareOf_zero _).symm rfl
  refine ⟨z, ?_, fun bound => ?_⟩
  · have hne : ¬(a.map finite = [] ∨ b.map finite = []) := by
      rw [List.map_eq_nil_iff, List.map_eq_nil_iff]
      exact not_or.mpr ⟨ha.nonempty, hb.nonempty⟩
    rw [ksStatistic, if_neg hne, sorted_finite, sorted_finite, List.length_map, List.length_map,
      zero_eq]
    exact hz
  · have hd : Distance (shareGap a.length b.length)
        (a.mergeSort fun x y => decide (x ≤ y)).length
        (b.mergeSort fun x y => decide (x ≤ y)).length := by
      rw [hasorted.length_eq, hbsorted.length_eq]
      exact shareGap_distance ha.pos hb.pos
    rw [hzval, mergeLoop_le_iff hd (List.pairwise_mergeSort' (· ≤ ·) a)
      (List.pairwise_mergeSort' (· ≤ ·) b)]
    simp only [countGap, countLead, countLe_perm hasorted, countLe_perm hbsorted,
      countLt_perm hbsorted, (hasorted.append hbsorted).mem_iff, hasorted.mem_iff]

/-! ## The real line -/

def inReals (l : List Finite64) : List ℝ := l.map fun v => (v.1 : ℝ)

theorem inReals_strictMono : StrictMono fun v : Finite64 => (v.1 : ℝ) :=
  fun _ _ h => Rat.cast_lt.mpr h

/-- How far the two empirical distribution functions are apart at `x`: their values and
the difference as `f64`s. -/
noncomputable def ecdfGap (a b : List Finite64) (x : ℝ) : ℚ :=
  countGap (shareGap a.length b.length) (inReals a) (inReals b) x

/-- How far `a`, with its copies of `v`, leads `b` without them. -/
def tieLead (a b : List Finite64) (v : Finite64) : ℚ :=
  countLead (shareGap a.length b.length) a b v

section RealLine

variable {a b : List Finite64} (ha : Sample a) (hb : Sample b)

theorem ecdfGap_value (a b : List Finite64) (v : Finite64) :
    ecdfGap a b (v.1 : ℝ) = countGap (shareGap a.length b.length) a b v := by
  rw [ecdfGap, countGap, countGap, inReals, inReals, countLe_map inReals_strictMono,
    countLe_map inReals_strictMono]

include ha hb

/-- On the whole line the gap is largest at a value. -/
theorem ecdfGap_le {bound : ℚ} (hbound : 0 ≤ bound)
    (h : ∀ x ∈ a ++ b, countGap (shareGap a.length b.length) a b x ≤ bound) (x : ℝ) :
    ecdfGap a b x ≤ bound := by
  refine gap_le_everywhere hbound (shareGap_distance ha.pos hb.pos).start ?_ x
  intro y hy
  rw [inReals, inReals, ← List.map_append, List.mem_map] at hy
  obtain ⟨v, hv, rfl⟩ := hy
  exact (ecdfGap_value a b v).trans_le (h v hv)

theorem exists_greatest_ecdfGap :
    ∃ top : Finite64, ∀ x, ecdfGap a b x ≤ ecdfGap a b (top.1 : ℝ) := by
  have hnonempty : (a ++ b).toFinset.Nonempty := by
    obtain ⟨v, hv⟩ := List.exists_mem_of_ne_nil a ha.nonempty
    exact ⟨v, by simp [hv]⟩
  obtain ⟨top, -, htop⟩ := Finset.exists_max_image (a ++ b).toFinset
    (countGap (shareGap a.length b.length) a b) hnonempty
  refine ⟨top, ecdfGap_le ha hb (abs_nonneg _) fun x hx => ?_⟩
  exact (htop x (List.mem_toFinset.mpr hx)).trans_eq (ecdfGap_value a b top).symm

/-- The statistic is the largest distance of the distribution functions exactly if no tie
leads by more than they are apart somewhere. -/
theorem ksStatistic_greatest_iff :
    ∃ z : Finite64, ksStatistic (a.map finite) (b.map finite) = finite z ∧
      (IsGreatest (Set.range (ecdfGap a b)) z.1 ↔
        ∀ v ∈ a, v ∈ b → ∃ x, tieLead a b v ≤ ecdfGap a b x) := by
  obtain ⟨z, hz, hle⟩ := ksStatistic_le_iff ha hb
  refine ⟨z, hz, ?_⟩
  obtain ⟨hnonneg, hgaps, hleads⟩ := (hle z.1).mp le_rfl
  constructor
  · rintro ⟨⟨x, hx⟩, -⟩ v hv _
    exact ⟨x, hx ▸ hleads v hv⟩
  · intro hties
    obtain ⟨top, htop⟩ := exists_greatest_ecdfGap ha hb
    have hupper : z.1 ≤ ecdfGap a b (top.1 : ℝ) := by
      refine (hle _).mpr ⟨abs_nonneg _, fun x _ => ecdfGap_value a b x ▸ htop x.1, fun v hv => ?_⟩
      by_cases hvb : v ∈ b
      · obtain ⟨x, hx⟩ := hties v hv hvb
        exact hx.trans (htop x)
      · have hgap : countLead (shareGap a.length b.length) a b v ≤
            countGap (shareGap a.length b.length) a b v := by
          rw [countLead, ← countLe_eq_countLt hvb]
          exact le_abs_self _
        exact (hgap.trans_eq (ecdfGap_value a b v).symm).trans (htop v.1)
    have hlower := ecdfGap_le ha hb hnonneg hgaps
    refine ⟨⟨top.1, (hlower _).antisymm hupper⟩, ?_⟩
    rintro _ ⟨x, rfl⟩
    exact hlower x

end RealLine

/-! ## Samples that are permutations of one another -/

/-- The share of the copies of `v`, as the difference of the shares up to and below it. -/
def copies (l : List Finite64) (v : Finite64) : F64 :=
  (countLe l v : F64) / (l.length : F64) - (countLt l v : F64) / (l.length : F64)

theorem copies_eq {l : List Finite64} (h : Sample l) (v : Finite64) :
    ∃ z : Finite64, copies l v = finite z ∧ z.1 = tieLead l l v := by
  obtain ⟨x, hx, hxval⟩ := quotient_eq h.pos (countLe_le l v) h.fits
  obtain ⟨y, hy, hyval⟩ := quotient_eq h.pos
    ((countLt_le_countLe l v).trans (countLe_le l v)) h.fits
  rw [copies, hx, hy]
  exact difference_eq hxval hyval h.pos h.pos (countLe_le l v)
    ((countLt_le_countLe l v).trans (countLe_le l v))

theorem copies_perm {l l' : List Finite64} (h : l.Perm l') (v : Finite64) :
    copies l v = copies l' v := by
  rw [copies, copies, countLe_perm h, countLt_perm h, h.length_eq]

theorem ksStatistic_le_iff_of_perm {a b : List Finite64} (hperm : a.Perm b) (ha : Sample a)
    {threshold : F64} (hthreshold : 0 ≤ threshold) :
    ksStatistic (a.map finite) (b.map finite) ≤ threshold ↔ ∀ v ∈ a, copies a v ≤ threshold := by
  have hb : Sample b := ⟨fun h => ha.nonempty (h ▸ hperm).eq_nil, hperm.length_eq ▸ ha.fits⟩
  obtain ⟨z, hz, hle⟩ := ksStatistic_le_iff ha hb
  rw [hz]
  have hcopies : ∀ v, ∃ w : Finite64, copies a v = finite w ∧
      w.1 = countLead (shareGap a.length b.length) a b v := fun v => by
    obtain ⟨w, hw, hwval⟩ := copies_eq ha v
    refine ⟨w, hw, hwval.trans ?_⟩
    rw [tieLead, countLead, countLead, countLt_perm hperm, hperm.length_eq]
  cases threshold with
  | nan => exact absurd rfl (ne_nan_of_le_right hthreshold)
  | negInf =>
    rw [zero_eq] at hthreshold
    exact absurd hthreshold Bool.false_ne_true
  | posInf =>
    refine iff_of_true rfl fun v _ => ?_
    obtain ⟨w, hw, -⟩ := hcopies v
    rw [hw]
    rfl
  | finite bound =>
    rw [zero_eq, finite_le_finite] at hthreshold
    have hgaps : ∀ x ∈ a ++ b, countGap (shareGap a.length b.length) a b x ≤ bound.1 := by
      intro x _
      rw [countGap, countLe_perm hperm, hperm.length_eq, shareGap_self, abs_zero]
      exact hthreshold
    rw [finite_le_finite]
    refine (hle bound.1).trans ⟨fun h v hv => ?_, fun h => ⟨hthreshold, hgaps, fun v hv => ?_⟩⟩
    · obtain ⟨w, hw, hwval⟩ := hcopies v
      rw [hw, finite_le_finite, hwval]
      exact h.2.2 v hv
    · obtain ⟨w, hw, hwval⟩ := hcopies v
      have hbelow := h v hv
      rwa [hw, finite_le_finite, hwval] at hbelow

/-- The two means are no more than so many standard errors apart, if there is one to
speak of. -/
def MeansAgree (sqrt : F64 → F64) (tThreshold : F64) (a b : List F64) : Prop :=
  standardError sqrt a b ≤ F64.epsilon ∨
    ((mean a - mean b) / standardError sqrt a b).abs ≤ tThreshold

theorem welch_le_iff (sqrt : F64 → F64) {tThreshold : F64} (ht : 0 ≤ tThreshold) {a b : List F64}
    (ha : 2 ≤ a.length) (hb : 2 ≤ b.length) :
    (welchTStatistic sqrt a b).abs ≤ tThreshold ↔ MeansAgree sqrt tThreshold a b := by
  have hlengths : ¬(a.length < 2 ∨ b.length < 2) := by omega
  rw [welchTStatistic, if_neg hlengths, MeansAgree]
  dsimp only
  split_ifs with hdenom
  · have hzero : F64.abs 0 = 0 := by decide +kernel
    rw [hzero]
    exact iff_of_true ht (.inl hdenom)
  · exact (or_iff_right hdenom).symm

section Perm

variable {shadow paper live : List Finite64} {tThreshold ksThreshold : F64}

/-- Three orders of one sample pass exactly if none of its values makes up more of it
than the threshold allows and the sums of the three orders are near enough. -/
theorem validateModes_perm_iff (sqrt : F64 → F64) (hpaper : shadow.Perm paper)
    (hlive : shadow.Perm live) (hlength : 2 ≤ shadow.length) (hfits : shadow.length ≤ 2 ^ 64)
    (ht : 0 ≤ tThreshold) (hks : 0 ≤ ksThreshold) :
    (validateModes sqrt (shadow.map finite) (paper.map finite) (live.map finite) tThreshold
        ksThreshold).accepted = true ↔
      (∀ v ∈ shadow, copies shadow v ≤ ksThreshold) ∧
        MeansAgree sqrt tThreshold (shadow.map finite) (paper.map finite) ∧
        MeansAgree sqrt tThreshold (shadow.map finite) (live.map finite) ∧
        MeansAgree sqrt tThreshold (paper.map finite) (live.map finite) := by
  have hshadow : Sample shadow := ⟨fun h => by simp [h] at hlength, hfits⟩
  have hpaper' : Sample paper :=
    ⟨fun h => hshadow.nonempty (h ▸ hpaper).eq_nil, hpaper.length_eq ▸ hfits⟩
  have hpaperlive : paper.Perm live := hpaper.symm.trans hlive
  have hcopies : (∀ v ∈ paper, copies paper v ≤ ksThreshold) ↔
      ∀ v ∈ shadow, copies shadow v ≤ ksThreshold := by
    simp only [hpaper.mem_iff, copies_perm hpaper]
  have hlong : ∀ {l : List Finite64}, shadow.Perm l → 2 ≤ (l.map finite).length := fun h => by
    rw [List.length_map, ← h.length_eq]
    exact hlength
  have haccepted : (validateModes sqrt (shadow.map finite) (paper.map finite) (live.map finite)
      tThreshold ksThreshold).accepted =
      (((true && (decide ((welchTStatistic sqrt (shadow.map finite) (paper.map finite)).abs ≤
            tThreshold) &&
          decide (ksStatistic (shadow.map finite) (paper.map finite) ≤ ksThreshold))) &&
        (decide ((welchTStatistic sqrt (shadow.map finite) (live.map finite)).abs ≤ tThreshold) &&
          decide (ksStatistic (shadow.map finite) (live.map finite) ≤ ksThreshold))) &&
        (decide ((welchTStatistic sqrt (paper.map finite) (live.map finite)).abs ≤ tThreshold) &&
          decide (ksStatistic (paper.map finite) (live.map finite) ≤ ksThreshold))) := rfl
  rw [haccepted]
  simp only [Bool.and_eq_true, decide_eq_true_eq, true_and,
    welch_le_iff sqrt ht (hlong (.refl shadow)) (hlong hpaper),
    welch_le_iff sqrt ht (hlong (.refl shadow)) (hlong hlive),
    welch_le_iff sqrt ht (hlong hpaper) (hlong hlive),
    ksStatistic_le_iff_of_perm hpaper hshadow hks, ksStatistic_le_iff_of_perm hlive hshadow hks,
    ksStatistic_le_iff_of_perm hpaperlive hpaper' hks, hcopies]
  tauto

end Perm

/-- When the mode validation is exact: no tie may lead by more than the distribution
functions are apart; of equal samples no value may be more frequent than the threshold,
and the sums of their orders may not differ by more than the other one allows. -/
theorem validation_exact_iff {a b : List Finite64} (ha : Sample a) (hb : Sample b)
    (sqrt : F64 → F64) {shadow paper live : List Finite64} {tThreshold ksThreshold : F64}
    (hpaper : shadow.Perm paper) (hlive : shadow.Perm live) (hlength : 2 ≤ shadow.length)
    (hfits : shadow.length ≤ 2 ^ 64) (ht : 0 ≤ tThreshold) (hks : 0 ≤ ksThreshold) :
    (∃ z : Finite64, ksStatistic (a.map finite) (b.map finite) = finite z ∧
      (IsGreatest (Set.range (ecdfGap a b)) z.1 ↔
        ∀ v ∈ a, v ∈ b → ∃ x, tieLead a b v ≤ ecdfGap a b x)) ∧
    ((validateModes sqrt (shadow.map finite) (paper.map finite) (live.map finite) tThreshold
        ksThreshold).accepted = true ↔
      (∀ v ∈ shadow, copies shadow v ≤ ksThreshold) ∧
        MeansAgree sqrt tThreshold (shadow.map finite) (paper.map finite) ∧
        MeansAgree sqrt tThreshold (shadow.map finite) (live.map finite) ∧
        MeansAgree sqrt tThreshold (paper.map finite) (live.map finite)) :=
  ⟨ksStatistic_greatest_iff ha hb, validateModes_perm_iff sqrt hpaper hlive hlength hfits ht hks⟩

/-- Two values that do not repeat pass at one half; the constant is the root of the one
number it is taken of. -/
theorem validation_exact_iff_half :
    (∃ z : Finite64, ksStatistic ([zero64].map finite) ([one64].map finite) = finite z ∧
      IsGreatest (Set.range (ecdfGap [zero64] [one64])) z.1) ∧
    (validateModes (fun _ => 0.7071067811865476) ([zero64, one64].map finite)
      ([one64, zero64].map finite) ([zero64, one64].map finite) 0 0.5).accepted = true := by
  have hexact := validation_exact_iff (a := [zero64]) (b := [one64]) ⟨by simp, by simp⟩
    ⟨by simp, by simp⟩ (fun _ => 0.7071067811865476) (List.Perm.swap one64 zero64 [])
    (List.Perm.refl [zero64, one64]) (by simp) (by simp) zero_le_zero
    (by decide +kernel : (0 : F64) ≤ 0.5)
  obtain ⟨⟨z, hz, hgreatest⟩, haccepted⟩ := hexact
  refine ⟨⟨z, hz, hgreatest.mpr fun v hv hv' => ?_⟩, haccepted.mpr ⟨?_, ?_, ?_, ?_⟩⟩
  · rw [List.mem_singleton] at hv hv'
    exact absurd (congrArg Subtype.val (hv.symm.trans hv')) (by decide +kernel)
  · decide +kernel
  · exact .inr (by decide +kernel)
  · exact .inr (by decide +kernel)
  · exact .inr (by decide +kernel)

/-- A tenth, two and three of them. -/
def tenths : List Finite64 :=
  [⟨binary64 0.1, binary64_binary64 _, by decide +kernel⟩,
    ⟨binary64 0.2, binary64_binary64 _, by decide +kernel⟩,
    ⟨binary64 0.3, binary64_binary64 _, by decide +kernel⟩]

/-- One value against itself is found at distance one, a repeated value is rejected
against itself, and so are three values in the other order, of which the sum is another. -/
theorem validation_overshoots :
    (¬∃ z : Finite64, ksStatistic ([zero64].map finite) ([zero64].map finite) = finite z ∧
      IsGreatest (Set.range (ecdfGap [zero64] [zero64])) z.1) ∧
    (validateModes (fun _ => 0) ([zero64, zero64].map finite) ([zero64, zero64].map finite)
      ([zero64, zero64].map finite) 0 0).accepted = false ∧
    (validateModes (fun _ => 0.08164965809277261) (tenths.map finite)
      (tenths.reverse.map finite) (tenths.map finite) 0 1).accepted = false := by
  refine ⟨?_, ?_, ?_⟩
  · rintro ⟨z, hz, ⟨x, hx⟩, -⟩
    obtain ⟨w, hw, hle⟩ := ksStatistic_le_iff (a := [zero64]) (b := [zero64]) ⟨by simp, by simp⟩
      ⟨by simp, by simp⟩
    obtain rfl : z = w := F64.finite.inj (hz.symm.trans hw)
    have hzero : z.1 = 0 := by
      rw [← hx, ecdfGap, countGap]
      exact (congrArg abs (shareGap_self _ _)).trans abs_zero
    have hlead := ((hle 0).mp hzero.le).2.2 zero64 (by simp)
    exact absurd hlead (by decide +kernel)
  · rw [← Bool.not_eq_true, validateModes_perm_iff _ (.refl _) (.refl _) (by simp) (by simp)
      zero_le_zero zero_le_zero]
    rintro ⟨hcopies, -⟩
    exact absurd (hcopies zero64 (by simp)) (by decide +kernel)
  · rw [← Bool.not_eq_true, validateModes_perm_iff _ (List.reverse_perm tenths).symm (.refl _)
      (by decide) (by decide) zero_le_zero zero_le_one]
    rintro ⟨-, hmeans, -⟩
    rcases hmeans with hdenom | hmeans
    · exact absurd hdenom (by decide +kernel)
    · exact absurd hmeans (by decide +kernel)

end RealTimeTrading.Rtts.Floating.Validation
