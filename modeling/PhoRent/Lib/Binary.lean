import Mathlib.Algebra.Order.Field.Power
import Mathlib.Algebra.Order.Floor.Ring
import Mathlib.Data.Int.Log
import Mathlib.Data.Rat.Floor
import Mathlib.Tactic.Linarith
import Mathlib.Tactic.Positivity

/-!
# Binary floating-point numbers

A format has a precision and a range of exponents, and its finite numbers are
the rationals `m * 2 ^ e` with a significand of that many bits. The exact
result of an operation is rounded to the nearest of them, a tie to the even
significand. From halfway between the largest finite number and the next power
of two on there is no finite result: the operation overflows.
-/

namespace Binary

/-- `prec` bits of significand, exponents from `low` to `high`. -/
structure Format where
  prec : ℕ
  low : ℤ
  high : ℤ
  prec_pos : 0 < prec
  low_nonpos : low ≤ 0
  high_nonneg : 0 ≤ high

@[simps]
def double : Format := ⟨53, -1074, 971, by decide, by decide, by decide⟩

/-! ## Rounding to an integer -/

/-- The nearest integer, in a tie the even one. -/
def roundEven (x : ℚ) : ℤ :=
  if x - ⌊x⌋ < 1 / 2 ∨ x - ⌊x⌋ = 1 / 2 ∧ ⌊x⌋ % 2 = 0 then ⌊x⌋ else ⌊x⌋ + 1

theorem roundEven_near (x : ℚ) :
    (roundEven x : ℚ) - 1 / 2 ≤ x ∧ x ≤ roundEven x + 1 / 2 := by
  have hlow := Int.floor_le x
  have hhigh := Int.lt_floor_add_one x
  rw [roundEven]
  split
  · next h =>
      have hle : x - ⌊x⌋ ≤ 1 / 2 := h.elim le_of_lt fun h => h.1.le
      constructor <;> linarith
  · next h =>
      have hge := not_lt.mp (not_or.mp h).1
      push_cast
      constructor <;> linarith

theorem roundEven_lt {x : ℚ} {n : ℤ} (h : x + 1 / 2 < n) :
    roundEven x < n := by
  have hnear := (roundEven_near x).1
  have hlt : (roundEven x : ℚ) < n := by linarith
  exact Int.cast_lt.mp hlt

theorem lt_roundEven {x : ℚ} {n : ℤ} (h : (n : ℚ) + 1 / 2 < x) :
    n < roundEven x := by
  have hnear := (roundEven_near x).2
  have hlt : (n : ℚ) < roundEven x := by linarith
  exact Int.cast_lt.mp hlt

theorem roundEven_le {x : ℚ} {n : ℤ} (h : x ≤ n) : roundEven x ≤ n := by
  refine Int.lt_add_one_iff.mp (roundEven_lt ?_)
  push_cast
  linarith

theorem le_roundEven {x : ℚ} {n : ℤ} (h : (n : ℚ) ≤ x) : n ≤ roundEven x := by
  refine Int.sub_one_lt_iff.mp (lt_roundEven ?_)
  push_cast
  linarith

theorem abs_roundEven_lt {x : ℚ} {n : ℤ} (h : |x| + 1 / 2 < n) :
    |roundEven x| < n := by
  obtain ⟨hlow, hhigh⟩ := abs_lt.mp (lt_sub_iff_add_lt.mpr h)
  refine abs_lt.mpr ⟨lt_roundEven ?_, roundEven_lt (by linarith)⟩
  push_cast
  linarith

theorem abs_roundEven_le {x : ℚ} {n : ℤ} (h : |x| ≤ n) :
    |roundEven x| ≤ n := by
  obtain ⟨hlow, hhigh⟩ := abs_le.mp h
  refine abs_le.mpr ⟨le_roundEven ?_, roundEven_le hhigh⟩
  push_cast
  exact hlow

theorem roundEven_intCast (n : ℤ) : roundEven n = n :=
  le_antisymm (roundEven_le le_rfl) (le_roundEven le_rfl)

namespace Format

variable (f : Format)

def Finite (q : ℚ) : Prop :=
  ∃ m e : ℤ, |m| < 2 ^ f.prec ∧ f.low ≤ e ∧ e ≤ f.high ∧ q = m * 2 ^ e

/-- Results from here on overflow. -/
def overflow : ℚ := 2 ^ (f.high + f.prec) - 2 ^ (f.high - 1)

/-- The exponent of the numbers next to `q`. -/
def exponent (q : ℚ) : ℤ := max (Int.log 2 |q| + 1 - f.prec) f.low

/-- The number nearest to `q`, if the range of exponents had no upper end. -/
def nearest (q : ℚ) : ℚ :=
  roundEven (q / 2 ^ f.exponent q) * 2 ^ f.exponent q

variable {f} {q : ℚ}

/-- A number has no more than `prec` bits above its exponent. -/
theorem abs_lt_exponent (f : Format) (q : ℚ) :
    |q| < 2 ^ (f.exponent q + f.prec) := by
  have hlog := Int.lt_zpow_succ_log_self (b := 2) (by decide) |q|
  refine lt_of_lt_of_le hlog ?_
  refine zpow_le_zpow_right₀ (by norm_num) ?_
  have hle : Int.log 2 |q| + 1 - f.prec ≤ f.exponent q := le_max_left ..
  omega

theorem exponent_le {e : ℤ} (hlow : f.low ≤ e) (h : |q| < 2 ^ (e + f.prec))
    (hq : q ≠ 0) : f.exponent q ≤ e := by
  have hlog := (Int.lt_zpow_iff_log_lt (b := 2) (by decide)
    (abs_pos.mpr hq)).mp h
  exact max_le (by omega) hlow

theorem exponent_le_high (h : |q| < f.overflow) : f.exponent q ≤ f.high := by
  have hprec := f.prec_pos
  rcases eq_or_ne q 0 with rfl | hq
  · rw [exponent, abs_zero, Int.log_zero_right]
    exact max_le (by have := f.high_nonneg; omega)
      (f.low_nonpos.trans f.high_nonneg)
  · have hpos : (0 : ℚ) < 2 ^ (f.high - 1) := by positivity
    rw [overflow] at h
    exact exponent_le (f.low_nonpos.trans f.high_nonneg) (by linarith) hq

theorem Finite.neg (h : f.Finite q) : f.Finite (-q) := by
  obtain ⟨m, e, hm, hlow, hhigh, rfl⟩ := h
  exact ⟨-m, e, by rwa [abs_neg], hlow, hhigh, by push_cast; ring⟩

theorem Finite.abs_lt_overflow (h : f.Finite q) : |q| < f.overflow := by
  obtain ⟨m, e, hm, hlow, hhigh, rfl⟩ := h
  have hpow : (0 : ℚ) < 2 ^ e := by positivity
  have hm' : |(m : ℚ)| ≤ 2 ^ f.prec - 1 := by
    have hle : |m| ≤ 2 ^ f.prec - 1 := by omega
    exact_mod_cast hle
  have hhalf : (0 : ℚ) < 2 ^ f.high := by positivity
  calc |(m : ℚ) * 2 ^ e| = |(m : ℚ)| * 2 ^ e := by rw [abs_mul, abs_of_pos hpow]
    _ ≤ (2 ^ f.prec - 1) * 2 ^ f.high :=
        mul_le_mul hm' (zpow_le_zpow_right₀ (by norm_num) hhigh) hpow.le
          ((abs_nonneg _).trans hm')
    _ = 2 ^ (f.high + f.prec) - 2 ^ f.high := by
        rw [zpow_add₀ two_ne_zero, zpow_natCast]
        ring
    _ < f.overflow := by
        rw [overflow, zpow_sub_one₀ two_ne_zero]
        linarith

theorem finite_intCast {n : ℤ} (h : |n| < 2 ^ f.prec) : f.Finite n :=
  ⟨n, 0, h, f.low_nonpos, f.high_nonneg, by simp⟩

theorem nearest_of_finite (h : f.Finite q) : f.nearest q = q := by
  obtain ⟨m, e, hm, hlow, hhigh, rfl⟩ := h
  rcases eq_or_ne ((m : ℚ) * 2 ^ e) 0 with h0 | h0
  · rw [h0, nearest, zero_div]
    have hzero := roundEven_intCast 0
    rw [Int.cast_zero] at hzero
    rw [hzero, Int.cast_zero, zero_mul]
  · have hpow : (0 : ℚ) < 2 ^ e := by positivity
    have habs : |(m : ℚ) * 2 ^ e| < 2 ^ (e + f.prec) := by
      rw [abs_mul, abs_of_pos hpow, zpow_add₀ two_ne_zero, mul_comm,
        zpow_natCast]
      exact mul_lt_mul_of_pos_left (by exact_mod_cast hm) hpow
    obtain ⟨k, hk⟩ := Int.eq_ofNat_of_zero_le
      (sub_nonneg.mpr (exponent_le hlow habs h0))
    have hquot : (m : ℚ) * 2 ^ e / 2 ^ f.exponent (m * 2 ^ e) =
        ((m * 2 ^ k : ℤ) : ℚ) := by
      rw [mul_div_assoc, ← zpow_sub₀ two_ne_zero, hk]
      push_cast
      rw [zpow_natCast]
    rw [nearest, hquot, roundEven_intCast, ← hquot,
      div_mul_cancel₀ _ (by positivity)]

/-- A result that does not overflow is rounded to a number of the format. -/
theorem finite_nearest (h : |q| < f.overflow) : f.Finite (f.nearest q) := by
  have hpow : (0 : ℚ) < 2 ^ f.exponent q := by positivity
  have hlow : f.low ≤ f.exponent q := le_max_right ..
  have hhigh : f.exponent q ≤ f.high := exponent_le_high h
  have hquot : |q / 2 ^ f.exponent q| = |q| / 2 ^ f.exponent q := by
    rw [abs_div, abs_of_pos hpow]
  have hle : |roundEven (q / 2 ^ f.exponent q)| ≤ 2 ^ f.prec := by
    refine abs_roundEven_le ?_
    rw [hquot, div_le_iff₀ hpow, Int.cast_pow, Int.cast_ofNat, ← zpow_natCast,
      ← zpow_add₀ two_ne_zero, add_comm]
    exact (f.abs_lt_exponent q).le
  rcases hle.lt_or_eq with hlt | heq
  · exact ⟨_, _, hlt, hlow, hhigh, rfl⟩
  -- the significand has been rounded up to the next power of two
  have hne : f.exponent q ≠ f.high := by
    intro he
    refine (abs_roundEven_lt ?_).ne heq
    rw [hquot, he, ← lt_sub_iff_add_lt, div_lt_iff₀ (he ▸ hpow)]
    refine h.trans_le (le_of_eq ?_)
    rw [overflow, zpow_add₀ two_ne_zero, zpow_sub_one₀ two_ne_zero,
      zpow_natCast]
    push_cast
    ring
  obtain ⟨p, hp⟩ := Nat.exists_eq_succ_of_ne_zero f.prec_pos.ne'
  have hsign : roundEven (q / 2 ^ f.exponent q) =
      (roundEven (q / 2 ^ f.exponent q)).sign * 2 ^ p * 2 := by
    rw [mul_assoc, ← pow_succ, ← Nat.succ_eq_add_one, ← hp, ← heq,
      Int.sign_mul_abs]
  refine ⟨(roundEven (q / 2 ^ f.exponent q)).sign * 2 ^ p, f.exponent q + 1, ?_,
    by omega, by omega, ?_⟩
  · have hlt : (2 : ℤ) ^ p < 2 ^ f.prec := by
      rw [hp, pow_succ]
      have hpos : (0 : ℤ) < 2 ^ p := by positivity
      omega
    rcases Int.sign_trichotomy (roundEven (q / 2 ^ f.exponent q)) with
      hs | hs | hs <;> rw [hs] <;> simp [hlt]
  · rw [nearest, zpow_add_one₀ two_ne_zero]
    nth_rewrite 1 [hsign]
    push_cast
    ring

theorem nearest_intCast (f : Format) (n : ℤ) : ∃ k : ℤ, f.nearest n = k := by
  rcases le_or_gt 0 (f.exponent n) with he | he
  · obtain ⟨e, he⟩ := Int.eq_ofNat_of_zero_le he
    refine ⟨roundEven (n / 2 ^ f.exponent n) * 2 ^ e, ?_⟩
    rw [nearest, he]
    push_cast
    rw [zpow_natCast]
  · have hlt := f.abs_lt_exponent n
    have hlt' : |(n : ℚ)| < 2 ^ (f.prec : ℤ) :=
      hlt.trans (zpow_lt_zpow_right₀ (by norm_num) (by omega))
    rw [zpow_natCast] at hlt'
    exact ⟨n, nearest_of_finite (finite_intCast (by exact_mod_cast hlt'))⟩

theorem nearest_nonneg (f : Format) (h : 0 ≤ q) : 0 ≤ f.nearest q := by
  have hle : 0 ≤ roundEven (q / 2 ^ f.exponent q) :=
    le_roundEven (by rw [Int.cast_zero]; positivity)
  rw [nearest]
  have hcast : (0 : ℚ) ≤ roundEven (q / 2 ^ f.exponent q) := by
    exact_mod_cast hle
  positivity

theorem nearest_pos (f : Format) (h : 1 ≤ q) : 0 < f.nearest q := by
  have hexp : (2 : ℚ) ^ f.exponent q ≤ q := by
    have hq : 0 < q := by linarith
    rw [exponent, abs_of_pos hq]
    rcases max_choice (Int.log 2 q + 1 - f.prec) f.low with he | he <;> rw [he]
    · have hprec := f.prec_pos
      refine le_trans ?_ (Int.zpow_log_le_self (b := 2) (by decide) hq)
      exact zpow_le_zpow_right₀ (by norm_num) (by omega)
    · exact (zpow_le_one_of_nonpos₀ (by norm_num) f.low_nonpos).trans h
  have hle : 1 ≤ roundEven (q / 2 ^ f.exponent q) := by
    refine le_roundEven ?_
    rw [Int.cast_one, one_le_div (by positivity)]
    exact hexp
  have hcast : (0 : ℚ) < roundEven (q / 2 ^ f.exponent q) := by
    exact_mod_cast hle
  rw [nearest]
  positivity

end Format

/-- A finite number of the format. -/
@[ext]
structure Num (f : Format) where
  val : ℚ
  finite : f.Finite val
  deriving DecidableEq

namespace Num

variable {f : Format}

@[simps]
def neg (a : Num f) : Num f := ⟨-a.val, a.finite.neg⟩

/-- A result that does not overflow. -/
@[simps]
def round (q : ℚ) (h : |q| < f.overflow) : Num f :=
  ⟨f.nearest q, Format.finite_nearest h⟩

theorem round_of_finite {q : ℚ} (hq : f.Finite q) :
    round q hq.abs_lt_overflow = ⟨q, hq⟩ :=
  Num.ext (Format.nearest_of_finite hq)

end Num

end Binary
