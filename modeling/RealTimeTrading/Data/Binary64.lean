/-
RealTimeTrading.Data.Binary64 — numbers of 64-bit floating point.

`binary64` rounds to the nearest number of 53 binary digits whose last place
is no finer than 2^-1074, and to the even one of two. It is monotone and
leaves fixed what it has once rounded, so comparisons survive it. A `F64` is
such a number below 2^1024, an infinity or not a number; every operation
rounds the exact result once. The two zeros are one here, which tells only
in a quotient by zero: its divisor counts as positive.
-/
import Mathlib.Algebra.Order.Floor.Ring
import Mathlib.Algebra.Order.Ring.Int
import Mathlib.Data.Int.Log
import Mathlib.Data.Rat.Floor
import Mathlib.Tactic.FieldSimp
import Mathlib.Tactic.Linarith
import Mathlib.Tactic.Positivity

namespace RealTimeTrading.Data

/-! ## Rounding to a whole number -/

/-- The nearest whole number, of two the even one. -/
def roundEven (x : ℚ) : ℤ :=
  if Int.fract x < 1 / 2 ∨ Int.fract x = 1 / 2 ∧ Even ⌊x⌋ then ⌊x⌋ else ⌊x⌋ + 1

theorem floor_le_roundEven (x : ℚ) : ⌊x⌋ ≤ roundEven x := by
  unfold roundEven
  split_ifs <;> omega

theorem roundEven_le_floor_add_one (x : ℚ) : roundEven x ≤ ⌊x⌋ + 1 := by
  unfold roundEven
  split_ifs <;> omega

theorem roundEven_intCast (n : ℤ) : roundEven n = n := by
  unfold roundEven
  rw [if_pos (.inl (by rw [Int.fract_intCast]; norm_num)), Int.floor_intCast]

theorem roundEven_mono {x y : ℚ} (h : x ≤ y) : roundEven x ≤ roundEven y := by
  rcases (Int.floor_le_floor h).lt_or_eq with hlt | heq
  · have hx := roundEven_le_floor_add_one x
    have hy := floor_le_roundEven y
    omega
  · have hfract : Int.fract x ≤ Int.fract y := by
      have hx := Int.self_sub_floor x
      have hy := Int.self_sub_floor y
      rw [← hx, ← hy, heq]
      linarith
    unfold roundEven
    rw [heq]
    split_ifs with hx hy hy
    · exact le_rfl
    · omega
    · -- If `y` is rounded down, so is `x`, whose fraction is no larger.
      exfalso
      refine hx ?_
      rcases hy with hy | ⟨hy, heven⟩
      · exact .inl (hfract.trans_lt hy)
      · rcases (hy ▸ hfract).lt_or_eq with hx | hx
        · exact .inl hx
        · exact .inr ⟨hx, heven⟩
    · exact le_rfl

theorem roundEven_neg (x : ℚ) : roundEven (-x) = -roundEven x := by
  by_cases hwhole : Int.fract x = 0
  · obtain ⟨n, rfl⟩ : ∃ n : ℤ, (n : ℚ) = x :=
      ⟨⌊x⌋, by rw [← Int.self_sub_fract x, hwhole, sub_zero]⟩
    rw [← Int.cast_neg, roundEven_intCast, roundEven_intCast]
  · have hfract : Int.fract (-x) = 1 - Int.fract x := Int.fract_neg hwhole
    have hfloor : ⌊-x⌋ = -⌊x⌋ - 1 := by
      have hneg := Int.self_sub_fract (-x)
      have hpos := Int.self_sub_fract x
      rw [hfract] at hneg
      have hcast : ((⌊-x⌋ : ℤ) : ℚ) = ((-⌊x⌋ - 1 : ℤ) : ℚ) := by
        push_cast
        linarith
      exact_mod_cast hcast
    have heven : Even (-⌊x⌋ - 1) ↔ ¬Even ⌊x⌋ := by
      rw [Int.even_sub, even_neg]
      simp
    unfold roundEven
    simp only [hfract, hfloor, heven]
    rcases lt_trichotomy (Int.fract x) (1 / 2) with hlt | hhalf | hgt
    · rw [if_neg, if_pos (.inl hlt)]
      · omega
      · rintro (h | ⟨h, -⟩) <;> linarith
    · have hother : 1 - (1 : ℚ) / 2 = 1 / 2 := by norm_num
      simp only [hhalf, hother, lt_irrefl, false_or, true_and]
      by_cases h : Even ⌊x⌋
      · rw [if_neg (not_not.mpr h), if_pos h]
        omega
      · rw [if_pos h, if_neg h]
        omega
    · rw [if_pos (.inl (by linarith)), if_neg]
      · omega
      · rintro (h | ⟨h, -⟩) <;> linarith

/-! ## Rounding to 53 digits -/

/-- The exponent of the last digit that is kept. -/
def lastPlace (q : ℚ) : ℤ := max (Int.log 2 |q| - 52) (-1074)

def binary64 (q : ℚ) : ℚ := roundEven (q / 2 ^ lastPlace q) * 2 ^ lastPlace q

theorem two_zpow_pos (e : ℤ) : (0 : ℚ) < 2 ^ e := zpow_pos two_pos e

theorem lastPlace_neg (q : ℚ) : lastPlace (-q) = lastPlace q := by
  unfold lastPlace
  rw [abs_neg]

theorem binary64_neg (q : ℚ) : binary64 (-q) = -binary64 q := by
  unfold binary64
  rw [lastPlace_neg, neg_div, roundEven_neg, Int.cast_neg, neg_mul]

theorem binary64_zero : binary64 0 = 0 := by
  unfold binary64
  rw [zero_div, show roundEven 0 = 0 from roundEven_intCast 0, Int.cast_zero, zero_mul]

theorem binary64_nonneg {q : ℚ} (h : 0 ≤ q) : 0 ≤ binary64 q := by
  have hquotient : 0 ≤ q / 2 ^ lastPlace q := div_nonneg h (two_zpow_pos _).le
  have hround : 0 ≤ roundEven (q / 2 ^ lastPlace q) :=
    (Int.floor_nonneg.mpr hquotient).trans (floor_le_roundEven _)
  exact mul_nonneg (Int.cast_nonneg hround) (two_zpow_pos _).le

/-- The kept digits are at most 53. -/
theorem abs_lt_lastPlace (q : ℚ) : |q| < 2 ^ (lastPlace q + 53) := by
  refine (Int.lt_zpow_succ_log_self one_lt_two |q|).trans_le ?_
  refine zpow_le_zpow_right₀ one_le_two ?_
  have hplace : Int.log 2 |q| - 52 ≤ lastPlace q := le_max_left _ _
  omega

theorem lastPlace_mono {q r : ℚ} (hq : 0 < q) (h : q ≤ r) : lastPlace q ≤ lastPlace r := by
  unfold lastPlace
  rw [abs_of_pos hq, abs_of_pos (hq.trans_le h)]
  exact max_le_max (sub_le_sub_right (Int.log_mono_right hq h) _) le_rfl

/-- A number that needs no more digits than are kept is left alone. -/
theorem binary64_of_places {m e : ℤ} (he : -1074 ≤ e) (hm : |m| ≤ 2 ^ 53) :
    binary64 (m * 2 ^ e) = m * 2 ^ e := by
  have hwhole : ∀ {x : ℚ} {n e : ℤ}, x = n * 2 ^ e → lastPlace x ≤ e → binary64 x = x := by
    rintro x n e rfl hle
    have hdigits : (n : ℚ) * 2 ^ e / 2 ^ lastPlace (n * 2 ^ e) =
        ((n * 2 ^ (e - lastPlace (n * 2 ^ e)).toNat : ℤ) : ℚ) := by
      rw [mul_div_assoc, ← zpow_sub₀ two_ne_zero, Int.cast_mul, Int.cast_pow, Int.cast_ofNat,
        ← zpow_natCast, Int.toNat_of_nonneg (sub_nonneg.mpr hle)]
    rw [binary64, hdigits, roundEven_intCast, ← hdigits,
      div_mul_cancel₀ _ (two_zpow_pos _).ne']
  rcases eq_or_ne m 0 with rfl | hne
  · rw [Int.cast_zero, zero_mul, binary64_zero]
  have habs : |(m : ℚ) * 2 ^ e| = (|m| : ℤ) * 2 ^ e := by
    rw [abs_mul, abs_of_pos (two_zpow_pos e), Int.cast_abs]
  have hpos : (0 : ℚ) < |(m : ℚ) * 2 ^ e| :=
    abs_pos.mpr (mul_ne_zero (Int.cast_ne_zero.mpr hne) (two_zpow_pos e).ne')
  rcases hm.lt_or_eq with hlt | heq
  · refine hwhole rfl (max_le ?_ he)
    have hbound : |(m : ℚ) * 2 ^ e| < 2 ^ (e + 53) := by
      rw [habs, add_comm, zpow_add₀ two_ne_zero]
      refine mul_lt_mul_of_pos_right ?_ (two_zpow_pos e)
      exact_mod_cast hlt
    have hlog := (Int.lt_zpow_iff_log_lt one_lt_two hpos).mp hbound
    omega
  · -- The power of two itself has one digit.
    have hpower : (m : ℚ) * 2 ^ e = ((Int.sign m : ℤ) : ℚ) * 2 ^ (e + 53) := by
      have hsign : m = Int.sign m * 2 ^ 53 := by rw [← heq, Int.sign_mul_abs]
      have hcast : (m : ℚ) = (Int.sign m : ℤ) * 2 ^ 53 := by exact_mod_cast hsign
      rw [hcast, zpow_add₀ two_ne_zero, mul_assoc, mul_comm (2 ^ e)]
      norm_num
    refine hwhole hpower (max_le ?_ (by omega))
    have hbound : |(m : ℚ) * 2 ^ e| < 2 ^ (e + 54) := by
      rw [habs, heq, show e + 54 = 54 + e by ring, zpow_add₀ two_ne_zero]
      refine mul_lt_mul_of_pos_right ?_ (two_zpow_pos e)
      norm_num
    have hlog := (Int.lt_zpow_iff_log_lt one_lt_two hpos).mp hbound
    omega

theorem binary64_intCast {n : ℤ} (h : |n| ≤ 2 ^ 53) : binary64 n = n := by
  simpa using binary64_of_places (e := 0) (by norm_num) h

theorem binary64_natCast {n : ℕ} (h : n ≤ 2 ^ 53) : binary64 n = n :=
  binary64_intCast (n := n) (by rw [Nat.abs_cast]; exact_mod_cast h)

theorem binary64_one : binary64 1 = 1 := by
  simpa using binary64_natCast (n := 1) (by norm_num)

theorem abs_roundEven_le (q : ℚ) : |roundEven (q / 2 ^ lastPlace q)| ≤ 2 ^ 53 := by
  have hbound : |q / 2 ^ lastPlace q| ≤ 2 ^ 53 := by
    rw [abs_div, abs_of_pos (two_zpow_pos _), div_le_iff₀ (two_zpow_pos _), ← zpow_natCast,
      ← zpow_add₀ two_ne_zero]
    refine (abs_lt_lastPlace q).le.trans_eq ?_
    rw [add_comm]
    rfl
  rw [abs_le] at hbound ⊢
  have hlow := roundEven_mono hbound.1
  have hhigh := roundEven_mono hbound.2
  rw [show (-2 ^ 53 : ℚ) = ((-2 ^ 53 : ℤ) : ℚ) by norm_num, roundEven_intCast] at hlow
  rw [show (2 ^ 53 : ℚ) = ((2 ^ 53 : ℤ) : ℚ) by norm_num, roundEven_intCast] at hhigh
  exact ⟨hlow, hhigh⟩

/-- What is rounded stays as it is. -/
theorem binary64_binary64 (q : ℚ) : binary64 (binary64 q) = binary64 q :=
  binary64_of_places (le_max_right _ _) (abs_roundEven_le q)

/-- Twice a stored number has no more digits. -/
theorem binary64_add_self {x : ℚ} (h : binary64 x = x) : binary64 (x + x) = x + x := by
  have hdouble : x + x = roundEven (x / 2 ^ lastPlace x) * 2 ^ (lastPlace x + 1) := by
    nth_rewrite 1 2 [← h]
    rw [binary64, zpow_add_one₀ two_ne_zero]
    ring
  have hplace : -1074 ≤ lastPlace x := le_max_right _ _
  rw [hdouble]
  exact binary64_of_places (by omega) (abs_roundEven_le x)

/-- Of two positive numbers the larger one is not rounded below the other. -/
theorem binary64_le_of_pos {q r : ℚ} (hq : 0 < q) (h : q ≤ r) : binary64 q ≤ binary64 r := by
  rcases (lastPlace_mono hq h).lt_or_eq with hlt | heq
  · -- The power of two where the wider places begin lies between.
    have hplace : lastPlace r = Int.log 2 r - 52 := by
      have hmin : -1074 ≤ lastPlace q := le_max_right _ _
      unfold lastPlace at hlt hmin ⊢
      rw [abs_of_pos (hq.trans_le h)] at hlt ⊢
      omega
    have hbelow : q ≤ 2 ^ (lastPlace r + 52) := by
      have hlast := (abs_lt_lastPlace q).le
      rw [abs_of_pos hq] at hlast
      exact hlast.trans (zpow_le_zpow_right₀ one_le_two (by omega))
    have habove : 2 ^ (lastPlace r + 52) ≤ r := by
      have hself := Int.zpow_log_le_self one_lt_two (hq.trans_le h)
      rw [hplace]
      simpa using hself
    have hpower : ∀ p : ℤ, p ≤ lastPlace r + 52 →
        (2 : ℚ) ^ (lastPlace r + 52) / 2 ^ p = ((2 ^ (lastPlace r + 52 - p).toNat : ℤ) : ℚ) := by
      intro p hp
      rw [← zpow_sub₀ two_ne_zero, Int.cast_pow, Int.cast_ofNat, ← zpow_natCast,
        Int.toNat_of_nonneg (by omega)]
    have hdown : binary64 q ≤ 2 ^ (lastPlace r + 52) := by
      have hround :=
        roundEven_mono (div_le_div_of_nonneg_right hbelow (two_zpow_pos (lastPlace q)).le)
      rw [hpower _ (by omega), roundEven_intCast] at hround
      unfold binary64
      rw [← le_div_iff₀ (two_zpow_pos _), hpower _ (by omega)]
      exact_mod_cast hround
    have hup : 2 ^ (lastPlace r + 52) ≤ binary64 r := by
      have hround :=
        roundEven_mono (div_le_div_of_nonneg_right habove (two_zpow_pos (lastPlace r)).le)
      rw [hpower _ (by omega), roundEven_intCast] at hround
      unfold binary64
      rw [← div_le_iff₀ (two_zpow_pos _), hpower _ (by omega)]
      exact_mod_cast hround
    exact hdown.trans hup
  · unfold binary64
    rw [heq]
    refine mul_le_mul_of_nonneg_right ?_ (two_zpow_pos _).le
    exact_mod_cast roundEven_mono (div_le_div_of_nonneg_right h (two_zpow_pos _).le)

theorem binary64_mono {q r : ℚ} (h : q ≤ r) : binary64 q ≤ binary64 r := by
  rcases lt_or_ge 0 q with hq | hq
  · exact binary64_le_of_pos hq h
  rcases lt_or_ge r 0 with hr | hr
  · have hneg := binary64_le_of_pos (neg_pos.mpr hr) (neg_le_neg h)
    rw [binary64_neg, binary64_neg] at hneg
    exact neg_le_neg_iff.mp hneg
  · have hlow : binary64 q ≤ 0 := by
      have hneg := binary64_nonneg (neg_nonneg.mpr hq)
      rw [binary64_neg] at hneg
      exact neg_nonneg.mp hneg
    exact hlow.trans (binary64_nonneg hr)

theorem binary64_abs (q : ℚ) : binary64 |q| = |binary64 q| := by
  rcases le_total 0 q with h | h
  · rw [abs_of_nonneg h, abs_of_nonneg (binary64_nonneg h)]
  · have hneg := binary64_nonneg (neg_nonneg.mpr h)
    rw [abs_of_nonpos h, binary64_neg]
    rw [binary64_neg] at hneg
    rw [abs_of_nonpos (neg_nonneg.mp hneg)]

/-! ## Floating-point numbers -/

/-- A number that is stored exactly. -/
abbrev Finite64 : Type := {x : ℚ // binary64 x = x ∧ |x| < 2 ^ 1024}

inductive F64 where
  | nan
  | negInf
  | finite (x : Finite64)
  | posInf
  deriving DecidableEq

namespace F64

/-- The exact result `q`, as it is stored. -/
def round (q : ℚ) : F64 :=
  if h : |binary64 q| < 2 ^ 1024 then .finite ⟨binary64 q, binary64_binary64 q, h⟩
  else if 0 < q then .posInf else .negInf

instance : OfScientific F64 := ⟨fun m s e => round (OfScientific.ofScientific m s e : ℚ)⟩

instance (n : ℕ) : OfNat F64 n := ⟨round n⟩

instance : NatCast F64 := ⟨fun n => round n⟩

instance : Inhabited F64 := ⟨0⟩

def isFinite : F64 → Bool
  | .finite _ => true
  | _ => false

/-! ### Arithmetic -/

protected def neg : F64 → F64
  | .nan => .nan
  | .negInf => .posInf
  | .finite x => round (-x.1)
  | .posInf => .negInf

instance : Neg F64 := ⟨F64.neg⟩

protected def add : F64 → F64 → F64
  | .nan, _ | _, .nan | .posInf, .negInf | .negInf, .posInf => .nan
  | .posInf, _ | _, .posInf => .posInf
  | .negInf, _ | _, .negInf => .negInf
  | .finite x, .finite y => round (x.1 + y.1)

instance : Add F64 := ⟨F64.add⟩

instance : Sub F64 := ⟨fun v w => v + -w⟩

/-- An infinity of the sign of `q`, of which there is none for zero. -/
def infinite (q : ℚ) : F64 := if 0 < q then .posInf else if q < 0 then .negInf else .nan

protected def mul : F64 → F64 → F64
  | .nan, _ | _, .nan => .nan
  | .posInf, .posInf | .negInf, .negInf => .posInf
  | .posInf, .negInf | .negInf, .posInf => .negInf
  | .posInf, .finite x | .finite x, .posInf => infinite x.1
  | .negInf, .finite x | .finite x, .negInf => infinite (-x.1)
  | .finite x, .finite y => round (x.1 * y.1)

instance : Mul F64 := ⟨F64.mul⟩

protected def div : F64 → F64 → F64
  | .nan, _ | _, .nan => .nan
  | .posInf, .posInf | .posInf, .negInf | .negInf, .posInf | .negInf, .negInf => .nan
  | .finite _, .posInf | .finite _, .negInf => 0
  | .posInf, .finite y => if y.1 < 0 then .negInf else .posInf
  | .negInf, .finite y => if y.1 < 0 then .posInf else .negInf
  | .finite x, .finite y => if y.1 = 0 then infinite x.1 else round (x.1 / y.1)

instance : Div F64 := ⟨F64.div⟩

protected def abs : F64 → F64
  | .nan => .nan
  | .negInf | .posInf => .posInf
  | .finite x => round |x.1|

/-! ### Order -/

/-- Not a number is below nothing and above nothing. -/
protected def lt : F64 → F64 → Bool
  | .finite x, .finite y => decide (x.1 < y.1)
  | .negInf, .finite _ | .negInf, .posInf | .finite _, .posInf => true
  | _, _ => false

protected def le : F64 → F64 → Bool
  | .finite x, .finite y => decide (x.1 ≤ y.1)
  | .negInf, .negInf | .negInf, .finite _ | .negInf, .posInf => true
  | .finite _, .posInf | .posInf, .posInf => true
  | _, _ => false

instance : LT F64 := ⟨fun v w => v.lt w = true⟩

instance : LE F64 := ⟨fun v w => v.le w = true⟩

instance (v w : F64) : Decidable (v < w) := inferInstanceAs (Decidable (v.lt w = true))

instance (v w : F64) : Decidable (v ≤ w) := inferInstanceAs (Decidable (v.le w = true))

/-- Of a number and none, the number. -/
protected def max : F64 → F64 → F64
  | .nan, w => w
  | v, .nan => v
  | v, w => if v < w then w else v

instance : Max F64 := ⟨F64.max⟩

protected def min : F64 → F64 → F64
  | .nan, w => w
  | v, .nan => v
  | v, w => if w < v then w else v

instance : Min F64 := ⟨F64.min⟩

/-- The sign as a number, of zero the positive one. -/
def signum (v : F64) : F64 := if v = .nan then .nan else if v < 0 then -1 else 1

/-- The values added up one after the other. -/
def sum (values : List F64) : F64 := values.foldl (· + ·) 0

/-- What is not a number stays so. -/
def clamp (v lo hi : F64) : F64 := if v < lo then lo else if hi < v then hi else v

/-- The distance of 1 to the next larger number. -/
def epsilon : F64 := round (2 ^ (-52 : ℤ))

/-! ### Comparing -/

section Order

variable {u v w : F64}

theorem finite_lt_finite {x y : Finite64} : finite x < finite y ↔ x.1 < y.1 := decide_eq_true_iff

theorem finite_le_finite {x y : Finite64} : finite x ≤ finite y ↔ x.1 ≤ y.1 := decide_eq_true_iff

theorem ne_nan_of_le_left (h : v ≤ w) : v ≠ nan := by
  rintro rfl
  cases w <;> cases h

theorem ne_nan_of_le_right (h : v ≤ w) : w ≠ nan := by
  rintro rfl
  cases v <;> cases h

theorem ne_nan_of_lt_left (h : v < w) : v ≠ nan := by
  rintro rfl
  cases w <;> cases h

/-- Two numbers compare one way or the other. -/
theorem le_of_not_lt (hv : v ≠ nan) (hw : w ≠ nan) (h : ¬v < w) : w ≤ v := by
  cases v <;> cases w <;> first | exact absurd rfl ‹_› | rfl | exact absurd rfl h | skip
  exact finite_le_finite.mpr (not_lt.mp fun hlt => h (finite_lt_finite.mpr hlt))

theorem lt_of_not_le (hv : v ≠ nan) (hw : w ≠ nan) (h : ¬v ≤ w) : w < v := by
  cases v <;> cases w <;> first | exact absurd rfl ‹_› | rfl | exact absurd rfl h | skip
  exact finite_lt_finite.mpr (not_le.mp fun hle => h (finite_le_finite.mpr hle))

theorem not_le_of_lt (h : v < w) : ¬w ≤ v := by
  intro hle
  cases v <;> cases w <;>
    first | exact absurd h Bool.false_ne_true | exact absurd hle Bool.false_ne_true | skip
  exact (finite_lt_finite.mp h).not_ge (finite_le_finite.mp hle)

theorem le_self (hv : v ≠ nan) : v ≤ v := by
  cases v with
  | nan => exact absurd rfl hv
  | finite x => exact finite_le_finite.mpr le_rfl
  | negInf | posInf => rfl

theorem le_trans (huv : u ≤ v) (hvw : v ≤ w) : u ≤ w := by
  cases u <;> cases v <;> cases w <;>
    first
    | rfl
    | exact absurd huv Bool.false_ne_true
    | exact absurd hvw Bool.false_ne_true
    | skip
  exact finite_le_finite.mpr ((finite_le_finite.mp huv).trans (finite_le_finite.mp hvw))

theorem le_of_lt (h : v < w) : v ≤ w := by
  cases v <;> cases w <;> first | rfl | exact absurd h Bool.false_ne_true | skip
  exact finite_le_finite.mpr (finite_lt_finite.mp h).le

theorem max_def (hv : v ≠ nan) (hw : w ≠ nan) : max v w = if v < w then w else v := by
  cases v <;> cases w <;> first | exact absurd rfl ‹_› | rfl

theorem le_max_left (hv : v ≠ nan) (w : F64) : v ≤ max v w := by
  by_cases hw : w = nan
  · subst hw
    cases v <;> exact le_self hv
  · rw [max_def hv hw]
    split_ifs with h
    · exact le_of_lt h
    · exact le_self hv

theorem le_max_right (v : F64) (hw : w ≠ nan) : w ≤ max v w := by
  by_cases hv : v = nan
  · subst hv
    exact le_self hw
  · rw [max_def hv hw]
    split_ifs with h
    · exact le_self hw
    · exact le_of_not_lt hv hw h

end Order

/-! ### Rounding a result -/

section Round

variable {q : ℚ}

/-- What lies between two stored numbers is stored between them. -/
theorem round_between (lo hi : Finite64) (hlo : lo.1 ≤ q) (hhi : q ≤ hi.1) :
    ∃ x : Finite64, round q = finite x ∧ lo.1 ≤ x.1 ∧ x.1 ≤ hi.1 := by
  have hbelow := binary64_mono hlo
  have habove := binary64_mono hhi
  rw [lo.2.1] at hbelow
  rw [hi.2.1] at habove
  have hbound : |binary64 q| < 2 ^ 1024 :=
    abs_lt.mpr ⟨(abs_lt.mp lo.2.2).1.trans_le hbelow, habove.trans_lt (abs_lt.mp hi.2.2).2⟩
  exact ⟨_, dif_pos hbound, hbelow, habove⟩

theorem round_ne_nan (q : ℚ) : round q ≠ nan := by
  unfold round
  split_ifs <;> simp

/-- A stored number is stored as it is. -/
theorem round_stored (x : Finite64) : round x.1 = finite x := by
  have hbound : |binary64 x.1| < 2 ^ 1024 := x.2.1.symm ▸ x.2.2
  unfold round
  rw [dif_pos hbound]
  exact congrArg finite (Subtype.ext x.2.1)

/-- A whole number of up to 53 digits. -/
def whole (n : ℤ) (h : |n| ≤ 2 ^ 53) : Finite64 :=
  ⟨n, binary64_intCast h, by
    have hcast : (|n| : ℚ) ≤ 2 ^ 53 := by exact_mod_cast h
    exact hcast.trans_lt (pow_lt_pow_right₀ one_lt_two (by norm_num))⟩

def zero64 : Finite64 := ⟨0, binary64_zero, by rw [abs_zero]; positivity⟩

def one64 : Finite64 :=
  ⟨1, binary64_one, by rw [abs_one]; exact one_lt_pow₀ one_lt_two (by norm_num)⟩

theorem zero_eq : (0 : F64) = finite zero64 := round_stored zero64

theorem one_eq : (1 : F64) = finite one64 := by
  rw [← round_stored]
  exact congrArg round Nat.cast_one

theorem round_whole {n : ℕ} (h : |(n : ℤ)| ≤ 2 ^ 53) : round (n : ℚ) = finite (whole n h) := by
  rw [← round_stored]
  exact congrArg round (Int.cast_natCast n).symm

theorem isFinite_zero : (0 : F64).isFinite = true := by
  rw [zero_eq]
  rfl

theorem isFinite_one : (1 : F64).isFinite = true := by
  rw [one_eq]
  rfl

theorem exists_finite {v : F64} (h : v.isFinite = true) : ∃ x : Finite64, v = finite x := by
  cases v with
  | finite x => exact ⟨x, rfl⟩
  | nan | negInf | posInf => cases h

/-- Between stored numbers there are only stored numbers. -/
theorem finite_of_between {v : F64} {lo hi : Finite64} (hlo : finite lo ≤ v) (hhi : v ≤ finite hi) :
    ∃ x : Finite64, v = finite x ∧ lo.1 ≤ x.1 ∧ x.1 ≤ hi.1 := by
  cases v with
  | finite x => exact ⟨x, rfl, finite_le_finite.mp hlo, finite_le_finite.mp hhi⟩
  | nan | negInf => exact absurd hlo Bool.false_ne_true
  | posInf => exact absurd hhi Bool.false_ne_true

theorem zero_le_zero : (0 : F64) ≤ 0 := by decide +kernel

theorem zero_le_one : (0 : F64) ≤ 1 := by decide +kernel

theorem neg_finite (x : Finite64) :
    -(finite x) = finite ⟨-x.1, by rw [binary64_neg, x.2.1], by rw [abs_neg]; exact x.2.2⟩ :=
  round_stored ⟨-x.1, _⟩

theorem sub_finite (x y : Finite64) : finite x - finite y = round (x.1 - y.1) := by
  show finite x + -(finite y) = _
  rw [neg_finite, sub_eq_add_neg]
  rfl

theorem div_finite (x : Finite64) {y : Finite64} (hy : y.1 ≠ 0) :
    finite x / finite y = round (x.1 / y.1) := if_neg hy

theorem abs_finite (x : Finite64) :
    F64.abs (finite x) =
      finite ⟨|x.1|, by rw [binary64_abs, x.2.1], by rw [abs_abs]; exact x.2.2⟩ :=
  round_stored ⟨|x.1|, by rw [binary64_abs, x.2.1], by rw [abs_abs]; exact x.2.2⟩

/-- Within 1 nothing overflows. -/
theorem round_unit (h : |q| ≤ 1) :
    ∃ x : Finite64, round q = finite x ∧ x.1 = binary64 q ∧ |x.1| ≤ 1 := by
  rw [abs_le] at h
  have hlow := binary64_mono h.1
  have hhigh := binary64_mono h.2
  rw [binary64_neg, binary64_one] at hlow
  rw [binary64_one] at hhigh
  have hunit : |binary64 q| ≤ 1 := abs_le.mpr ⟨hlow, hhigh⟩
  exact ⟨_, dif_pos (hunit.trans_lt (one_lt_pow₀ one_lt_two (by norm_num))), rfl, hunit⟩

theorem max_finite_eq (x y : Finite64) :
    ∃ z : Finite64, max (finite x) (finite y) = finite z ∧ z.1 = max x.1 y.1 := by
  rw [max_def (by simp) (by simp)]
  split_ifs with h
  · exact ⟨y, rfl, (max_eq_right (finite_lt_finite.mp h).le).symm⟩
  · exact ⟨x, rfl, (max_eq_left (not_lt.mp fun hlt => h (finite_lt_finite.mpr hlt))).symm⟩

/-- The larger of two stored numbers. -/
theorem max_finite (x y : Finite64) :
    ∃ z : Finite64, max (finite x) (finite y) = finite z ∧ x.1 ≤ z.1 ∧ y.1 ≤ z.1 := by
  rw [max_def (by simp) (by simp)]
  split_ifs with h
  · exact ⟨y, rfl, (finite_lt_finite.mp h).le, le_rfl⟩
  · exact ⟨x, rfl, le_rfl, not_lt.mp fun hlt => h (finite_lt_finite.mpr hlt)⟩

/-- The guard of a divisor. -/
theorem max_epsilon (x : Finite64) :
    ∃ z : Finite64, max (finite x) epsilon = finite z ∧ x.1 ≤ z.1 ∧ 0 < z.1 := by
  obtain ⟨eps, heps⟩ := exists_finite (v := epsilon) (by decide +kernel)
  have hpos : (0 : F64) < epsilon := by decide +kernel
  rw [heps, zero_eq, finite_lt_finite] at hpos
  obtain ⟨z, hz, hx, hepsilon⟩ := max_finite x eps
  exact ⟨z, heps ▸ hz, hx, hpos.trans_le hepsilon⟩

theorem abs_ne_nan {v : F64} (h : v ≠ nan) : v.abs ≠ nan := by
  cases v with
  | nan => exact absurd rfl h
  | finite x => exact round_ne_nan _
  | negInf | posInf => exact nofun

theorem posInf_div {y : Finite64} (hy : 0 < y.1) : posInf / finite y = posInf := by
  show (if y.1 < 0 then negInf else posInf) = posInf
  exact if_neg hy.not_gt

theorem negInf_div {y : Finite64} (hy : 0 < y.1) : negInf / finite y = negInf := by
  show (if y.1 < 0 then posInf else negInf) = negInf
  exact if_neg hy.not_gt

/-- A number doubled and halved is the same again, unless the double is too large. -/
theorem halve_double (x : Finite64) : (finite x + finite x) / 2 = finite x ∨
    ((finite x + finite x) / 2).isFinite ≠ true := by
  have htwo : (2 : F64) = finite (whole 2 (by norm_num)) := round_whole (by norm_num)
  have hpos : 0 < (whole 2 (by norm_num)).1 := by norm_num [whole]
  have hstored := binary64_add_self x.2.1
  have hsum : finite x + finite x = round (x.1 + x.1) := rfl
  rw [hsum, htwo]
  by_cases hbound : |x.1 + x.1| < 2 ^ 1024
  · have hdouble : round (x.1 + x.1) = finite ⟨x.1 + x.1, hstored, hbound⟩ :=
      round_stored ⟨x.1 + x.1, hstored, hbound⟩
    have hhalf : (x.1 + x.1) / (whole 2 (by norm_num)).1 = x.1 := by
      rw [whole]
      push_cast
      ring
    left
    rw [hdouble, div_finite _ hpos.ne', hhalf, round_stored]
  · right
    have hoverflow : ¬|binary64 (x.1 + x.1)| < 2 ^ 1024 := by rwa [hstored]
    unfold round
    rw [dif_neg hoverflow]
    split_ifs
    · rw [posInf_div hpos]
      exact nofun
    · rw [negInf_div hpos]
      exact nofun

theorem div_ne_nan {v : F64} (hv : v ≠ nan) {y : Finite64} (hy : 0 < y.1) :
    v / finite y ≠ nan := by
  cases v with
  | nan => exact absurd rfl hv
  | finite x =>
    rw [div_finite x hy.ne']
    exact round_ne_nan _
  | negInf =>
    rw [negInf_div hy]
    exact nofun
  | posInf =>
    rw [posInf_div hy]
    exact nofun

end Round

section Clamp

variable {v lo hi : F64}

theorem clamp_of_mem (hlo : lo ≤ v) (hhi : v ≤ hi) : v.clamp lo hi = v := by
  unfold clamp
  rw [if_neg fun h => not_le_of_lt h hlo, if_neg fun h => not_le_of_lt h hhi]

/-- A clamped number lies between the bounds. -/
theorem clamp_mem (hv : v ≠ nan) {lo hi : F64} (h : lo ≤ hi) :
    lo ≤ v.clamp lo hi ∧ v.clamp lo hi ≤ hi := by
  have hlo := ne_nan_of_le_left h
  have hhi := ne_nan_of_le_right h
  unfold clamp
  split_ifs with hlow hhigh
  · exact ⟨le_self hlo, h⟩
  · exact ⟨h, le_self hhi⟩
  · exact ⟨le_of_not_lt hv hlo hlow, le_of_not_lt hhi hv hhigh⟩

end Clamp

/-! ### What is not a number -/

section Nan

variable {v w : F64}

@[simp] theorem nan_add (v : F64) : nan + v = nan := by cases v <;> rfl

@[simp] theorem add_nan (v : F64) : v + nan = nan := by cases v <;> rfl

@[simp] theorem nan_sub (v : F64) : nan - v = nan := nan_add _

@[simp] theorem sub_nan (v : F64) : v - nan = nan := add_nan v

@[simp] theorem nan_mul (v : F64) : nan * v = nan := by cases v <;> rfl

@[simp] theorem mul_nan (v : F64) : v * nan = nan := by cases v <;> rfl

@[simp] theorem nan_div (v : F64) : nan / v = nan := by cases v <;> rfl

@[simp] theorem abs_nan : F64.abs nan = nan := rfl

@[simp] theorem signum_nan : signum nan = nan := rfl

@[simp] theorem clamp_nan (lo hi : F64) : clamp nan lo hi = nan := by
  unfold clamp
  cases lo <;> cases hi <;> rfl

theorem zero_ne_nan : (0 : F64) ≠ nan := round_ne_nan _

theorem neg_ne_nan (h : v ≠ nan) : -v ≠ nan := by
  cases v with
  | nan => exact absurd rfl h
  | finite x => exact round_ne_nan _
  | negInf | posInf => exact nofun

/-- Only two opposite infinities have no sum. -/
theorem add_finite_ne_nan (h : v ≠ nan) (x : Finite64) : v + finite x ≠ nan := by
  cases v with
  | nan => exact absurd rfl h
  | finite y => exact round_ne_nan _
  | negInf | posInf => exact nofun

theorem finite_add_ne_nan (x : Finite64) (h : v ≠ nan) : finite x + v ≠ nan := by
  cases v with
  | nan => exact absurd rfl h
  | finite y => exact round_ne_nan _
  | negInf | posInf => exact nofun

theorem finite_sub_ne_nan (x : Finite64) (h : v ≠ nan) : finite x - v ≠ nan :=
  finite_add_ne_nan x (neg_ne_nan h)

/-- A positive factor leaves an infinity one. -/
theorem mul_ne_nan (h : v ≠ nan) (hfinite : w.isFinite = true) (hpos : 0 < w) : v * w ≠ nan := by
  obtain ⟨y, rfl⟩ := exists_finite hfinite
  rw [zero_eq, finite_lt_finite] at hpos
  have hy : 0 < y.1 := hpos
  have hinfinite : infinite y.1 ≠ nan ∧ infinite (-y.1) ≠ nan := by
    have hlt : -y.1 < 0 := neg_lt_zero.mpr hy
    exact ⟨by rw [infinite, if_pos hy]; exact nofun,
      by rw [infinite, if_neg hlt.not_gt, if_pos hlt]; exact nofun⟩
  cases v with
  | nan => exact absurd rfl h
  | finite x => exact round_ne_nan _
  | negInf => exact hinfinite.2
  | posInf => exact hinfinite.1

theorem div_pos_ne_nan (h : v ≠ nan) (hfinite : w.isFinite = true) (hpos : 0 < w) :
    v / w ≠ nan := by
  obtain ⟨y, rfl⟩ := exists_finite hfinite
  rw [zero_eq, finite_lt_finite] at hpos
  exact div_ne_nan h hpos

theorem zero_mul_finite (h : v.isFinite = true) : 0 * v = 0 := by
  obtain ⟨x, rfl⟩ := exists_finite h
  rw [zero_eq]
  show round (0 * x.1) = _
  rw [zero_mul]
  exact zero_eq

theorem finite_mul_zero (h : v.isFinite = true) : v * 0 = 0 := by
  obtain ⟨x, rfl⟩ := exists_finite h
  rw [zero_eq]
  show round (x.1 * 0) = _
  rw [mul_zero]
  exact zero_eq

theorem isFinite_clamp {lo hi : F64} (h : v ≠ nan) (hlo : lo.isFinite = true)
    (hhi : hi.isFinite = true) : (v.clamp lo hi).isFinite = true := by
  have hlow : lo ≠ nan := by
    rintro rfl
    cases hlo
  have hhigh : hi ≠ nan := by
    rintro rfl
    cases hhi
  unfold clamp
  split_ifs with hless hmore
  · exact hlo
  · exact hhi
  · obtain ⟨x, rfl⟩ := exists_finite hlo
    obtain ⟨y, rfl⟩ := exists_finite hhi
    obtain ⟨z, rfl, -⟩ := finite_of_between (le_of_not_lt h hlow hless)
      (le_of_not_lt hhigh h hmore)
    rfl

/-- One value that is not a number makes the whole sum so. -/
theorem sum_eq_nan {values : List F64} (h : nan ∈ values) : sum values = nan := by
  have hstays : ∀ (l : List F64) (total : F64), total = nan ∨ nan ∈ l →
      l.foldl (· + ·) total = nan := by
    intro l
    induction l with
    | nil =>
      rintro total (rfl | h)
      · rfl
      · cases h
    | cons v l ih =>
      rintro total (rfl | h)
      · exact ih _ (.inl (nan_add v))
      · rcases List.mem_cons.mp h with rfl | h
        · exact ih _ (.inl (add_nan total))
        · exact ih _ (.inr h)
  exact hstays values 0 (.inr h)

theorem sum_ne_nan {values : List F64} (h : ∀ v ∈ values, v.isFinite = true) :
    sum values ≠ nan := by
  have hstays : ∀ (l : List F64) (total : F64), total ≠ nan → (∀ v ∈ l, v.isFinite = true) →
      l.foldl (· + ·) total ≠ nan := by
    intro l
    induction l with
    | nil => exact fun total htotal _ => htotal
    | cons v l ih =>
      intro total htotal h
      obtain ⟨x, rfl⟩ := exists_finite (h v List.mem_cons_self)
      exact ih _ (add_finite_ne_nan htotal x) fun w hw => h w (List.mem_cons_of_mem _ hw)
  exact hstays values 0 (round_ne_nan _) h

/-- Where no sum on the way is rounded, the whole sum is exact. -/
theorem sum_map_round {values : List ℚ} (hvalues : ∀ q ∈ values, ∃ x : Finite64, x.1 = q)
    (hsums : ∀ first, first <+: values → ∃ x : Finite64, x.1 = first.sum) :
    sum (values.map round) = round values.sum := by
  induction values using List.reverseRecOn with
  | nil => rfl
  | append_singleton before q ih =>
    have hbefore := ih (fun r hr => hvalues r (List.mem_append_left _ hr))
      fun first hfirst => hsums first (hfirst.trans (List.prefix_append before [q]))
    obtain ⟨x, hx⟩ := hsums before (List.prefix_append before [q])
    obtain ⟨y, rfl⟩ := hvalues q (List.mem_append_right _ (List.mem_singleton_self q))
    calc sum ((before ++ [y.1]).map round)
        = sum (before.map round) + round y.1 := by
          rw [List.map_append, List.map_singleton, sum, List.foldl_concat, sum]
      _ = finite x + finite y := by rw [hbefore, ← hx, round_stored, round_stored]
      _ = round (before ++ [y.1]).sum := by
          rw [List.sum_append, List.sum_singleton, ← hx]
          rfl

end Nan

/-! ### Not below zero -/

section Nonneg

variable {v w : F64}

theorem round_nonneg {q : ℚ} (h : 0 ≤ q) : 0 ≤ round q := by
  have hround := binary64_nonneg h
  rw [zero_eq]
  unfold round
  split_ifs with hbound hpos
  · exact finite_le_finite.mpr hround
  · rfl
  · have hzero := le_antisymm (not_lt.mp hpos) h
    exact absurd (by rw [hzero, binary64_zero, abs_zero]; positivity) hbound

theorem nonneg_add (hv : 0 ≤ v) (hw : 0 ≤ w) : 0 ≤ v + w := by
  rw [zero_eq] at *
  cases v with
  | nan | negInf => exact absurd hv Bool.false_ne_true
  | posInf =>
    cases w with
    | nan | negInf => exact absurd hw Bool.false_ne_true
    | finite y | posInf => rfl
  | finite x =>
    cases w with
    | nan | negInf => exact absurd hw Bool.false_ne_true
    | posInf => rfl
    | finite y =>
      rw [← zero_eq]
      exact round_nonneg (add_nonneg (finite_le_finite.mp hv) (finite_le_finite.mp hw))

theorem nonneg_mul (hv : 0 ≤ v) (hfinite : w.isFinite = true) (hpos : 0 < w) : 0 ≤ v * w := by
  obtain ⟨y, rfl⟩ := exists_finite hfinite
  rw [zero_eq] at *
  have hy : 0 < y.1 := finite_lt_finite.mp hpos
  cases v with
  | nan | negInf => exact absurd hv Bool.false_ne_true
  | posInf =>
    show finite zero64 ≤ infinite y.1
    rw [infinite, if_pos hy]
    rfl
  | finite x =>
    rw [← zero_eq]
    exact round_nonneg (mul_nonneg (finite_le_finite.mp hv) hy.le)

theorem nonneg_sum {values : List F64} (h : ∀ v ∈ values, 0 ≤ v) : 0 ≤ sum values := by
  have hstays : ∀ (l : List F64) (total : F64), 0 ≤ total → (∀ v ∈ l, 0 ≤ v) →
      0 ≤ l.foldl (· + ·) total := by
    intro l
    induction l with
    | nil => exact fun total htotal _ => htotal
    | cons v l ih =>
      intro total htotal h
      exact ih _ (nonneg_add htotal (h v List.mem_cons_self))
        fun w hw => h w (List.mem_cons_of_mem _ hw)
  exact hstays values 0 zero_le_zero h

theorem max_zero_nonneg (v : F64) : 0 ≤ max v 0 := le_max_right v (round_ne_nan _)

theorem natCast_eq {n : ℕ} (h : n ≤ 2 ^ 64) :
    ∃ y : Finite64, (n : F64) = finite y ∧ y.1 = binary64 n := by
  have hhigh : binary64 (2 ^ 64) = 2 ^ 64 := by
    simpa using binary64_of_places (m := 1) (e := 64) (by norm_num) (by norm_num)
  have hless : |(2 : ℚ) ^ 64| < 2 ^ 1024 := by
    rw [abs_of_nonneg (by positivity)]
    exact pow_lt_pow_right₀ one_lt_two (by norm_num)
  have hmost : (n : ℚ) ≤ 2 ^ 64 := by exact_mod_cast h
  have hround := binary64_mono hmost
  rw [hhigh] at hround
  have hbound : |binary64 (n : ℚ)| < 2 ^ 1024 := by
    rw [abs_of_nonneg (binary64_nonneg (Nat.cast_nonneg n))]
    rw [abs_of_nonneg (by positivity)] at hless
    exact hround.trans_lt hless
  exact ⟨_, dif_pos hbound, rfl⟩

theorem binary64_natCast_pos {n : ℕ} (hpos : 0 < n) : 0 < binary64 (n : ℚ) := by
  have hone : (1 : ℚ) ≤ n := by exact_mod_cast hpos
  have hround := binary64_mono hone
  rw [binary64_one] at hround
  exact one_pos.trans_le hround

/-- The number of values is one to divide by. -/
theorem natCast_finite {n : ℕ} (hpos : 0 < n) (h : n ≤ 2 ^ 64) :
    ∃ y : Finite64, (n : F64) = finite y ∧ 0 < y.1 := by
  obtain ⟨y, hy, hvalue⟩ := natCast_eq h
  exact ⟨y, hy, hvalue ▸ binary64_natCast_pos hpos⟩

end Nonneg

/-! ### Bounded magnitude -/

section Within

variable {v w : F64} {m n : ℕ}

/-- A stored number of at most this magnitude. -/
def Within (n : ℕ) (v : F64) : Prop := ∃ x : Finite64, v = finite x ∧ |x.1| ≤ n

theorem Within.ne_nan (h : Within n v) : v ≠ nan := by
  obtain ⟨x, rfl, -⟩ := h
  exact nofun

theorem Within.isFinite (h : Within n v) : v.isFinite = true := by
  obtain ⟨x, rfl, -⟩ := h
  rfl

theorem Within.mono (h : Within m v) (hle : m ≤ n) : Within n v := by
  obtain ⟨x, rfl, hx⟩ := h
  exact ⟨x, rfl, hx.trans (by exact_mod_cast hle)⟩

theorem round_within {q : ℚ} (hn : n ≤ 2 ^ 53) (h : |q| ≤ n) : Within n (round q) := by
  have hcast : |(n : ℤ)| ≤ 2 ^ 53 := by rw [Nat.abs_cast]; exact_mod_cast hn
  rw [abs_le] at h
  obtain ⟨x, hx, hlo, hhi⟩ := round_between (whole (-n) (by rwa [abs_neg])) (whole n hcast)
    (by simpa [whole] using h.1) (by simpa [whole] using h.2)
  exact ⟨x, hx, abs_le.mpr ⟨by simpa [whole] using hlo, by simpa [whole] using hhi⟩⟩

theorem Within.neg (h : Within n v) : Within n (-v) := by
  obtain ⟨x, rfl, hx⟩ := h
  rw [neg_finite]
  exact ⟨_, rfl, by rwa [abs_neg]⟩

theorem Within.add (hv : Within m v) (hw : Within n w) (hn : m + n ≤ 2 ^ 53) :
    Within (m + n) (v + w) := by
  obtain ⟨x, rfl, hx⟩ := hv
  obtain ⟨y, rfl, hy⟩ := hw
  refine round_within hn ((abs_add_le _ _).trans ?_)
  rw [Nat.cast_add]
  exact add_le_add hx hy

theorem Within.sub (hv : Within m v) (hw : Within n w) (hn : m + n ≤ 2 ^ 53) :
    Within (m + n) (v - w) := hv.add hw.neg hn

theorem Within.mul (hv : Within m v) (hw : Within n w) (hn : m * n ≤ 2 ^ 53) :
    Within (m * n) (v * w) := by
  obtain ⟨x, rfl, hx⟩ := hv
  obtain ⟨y, rfl, hy⟩ := hw
  refine round_within hn ?_
  rw [abs_mul, Nat.cast_mul]
  exact mul_le_mul hx hy (abs_nonneg _) (Nat.cast_nonneg _)

theorem Within.half (h : Within (m + m) v) (hm : m ≤ 2 ^ 53) : Within m (v / 2) := by
  obtain ⟨x, rfl, hx⟩ := h
  have htwo : (2 : F64) = finite (whole 2 (by norm_num)) := round_whole (by norm_num)
  have hval : (whole 2 (by norm_num)).1 = 2 := by norm_num [whole]
  have hne : (whole 2 (by norm_num)).1 ≠ 0 := by norm_num [whole]
  rw [htwo, div_finite x hne, hval]
  refine round_within hm ?_
  rw [abs_div, abs_two, div_le_iff₀ two_pos, mul_two]
  exact_mod_cast hx

theorem Within.abs (h : Within m v) : Within m v.abs := by
  obtain ⟨x, rfl, hx⟩ := h
  rw [abs_finite]
  exact ⟨_, rfl, by rwa [abs_abs]⟩

theorem within_zero : Within 0 (0 : F64) := ⟨zero64, zero_eq, by simp [zero64]⟩

theorem within_one : Within 1 (1 : F64) := ⟨one64, one_eq, by simp [one64]⟩

/-- What a check of the order finds within 1. -/
theorem within_of_between (hlo : -1 ≤ v) (hhi : v ≤ 1) : Within 1 v := by
  have hneg : (-1 : F64) = finite ⟨-1, by rw [binary64_neg, binary64_one], by
      rw [abs_neg, abs_one]; exact one_lt_pow₀ one_lt_two (by norm_num)⟩ := by
    rw [one_eq, neg_finite]
    rfl
  rw [hneg] at hlo
  rw [one_eq] at hhi
  obtain ⟨x, rfl, hlow, hhigh⟩ := finite_of_between hlo hhi
  exact ⟨x, rfl, abs_le.mpr ⟨by simpa using hlow, by simpa [one64] using hhigh⟩⟩

theorem within_of_unit (hlo : 0 ≤ v) (hhi : v ≤ 1) : Within 1 v :=
  within_of_between (le_trans (by decide +kernel) hlo) hhi

theorem clamp_within (hv : v ≠ nan) : Within 1 (v.clamp 0 1) :=
  within_of_unit (clamp_mem hv zero_le_one).1 (clamp_mem hv zero_le_one).2

theorem signum_within (h : v ≠ nan) : Within 1 (signum v) := by
  unfold signum
  rw [if_neg h]
  split_ifs
  · exact within_one.neg
  · exact within_one

/-- The magnitude, cut at 1. -/
theorem min_abs_within (h : v ≠ nan) : Within 1 (min v.abs 1) := by
  have habs : 0 ≤ v.abs := by
    cases v with
    | nan => exact absurd rfl h
    | finite x => exact round_nonneg (abs_nonneg _)
    | negInf | posInf => decide +kernel
  have hmin : min v.abs 1 = if 1 < v.abs then 1 else v.abs := by
    have hne := ne_nan_of_le_right habs
    rw [one_eq]
    cases hv : v.abs with
    | nan => exact absurd hv hne
    | finite y | negInf | posInf => rfl
  rw [hmin]
  split_ifs with hlarge
  · exact within_one
  · exact within_of_unit habs (le_of_not_lt (round_ne_nan _) (ne_nan_of_le_right habs) hlarge)

end Within

end F64

end RealTimeTrading.Data
