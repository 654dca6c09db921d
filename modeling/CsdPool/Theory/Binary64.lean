/-
# Theory.Binary64 — floating-point values over the rationals

An `f64` is a finite rational, an infinity or not a number; the two zeros are one.  Every
operation is the exact one followed by `ofRat`, rounding to nearest with ties to even and
overflow to infinity.  Comparisons with a value that is no number are false.

`clamp` is the one operation that may panic, when its bounds are out of order.  What the users
of this module need of all this is where no result is not a number (`div_ne_nan`,
`mul_ne_nan`, `clamp_ne_nan`), and that a value between finite bounds is finite.
-/
import Mathlib.Data.Int.Log
import Mathlib.Data.Rat.Floor
import Mathlib.Tactic.FieldSimp
import Mathlib.Tactic.Linarith

namespace CsdPool.Theory

set_option autoImplicit false

/-- The signs of the two zeros, and the payloads of what is not a number, are left out. -/
inductive F64
  | finite (q : ℚ)
  | infinite (negative : Bool)
  | nan
  deriving DecidableEq

namespace F64

/-! ## Rounding -/

/-- The distance of two neighbours around `q`; the exponent stops at the subnormal numbers. -/
def ulp (q : ℚ) : ℚ := (2 : ℚ) ^ max (Int.log 2 |q| - 52) (-1074)

/-- The nearest whole number, and of two equally near ones the even one. -/
def roundHalfEven (q : ℚ) : ℤ :=
  let below := ⌊q⌋
  if q - below < 1 / 2 then below
  else if 1 / 2 < q - below then below + 1
  else if below % 2 = 0 then below
  else below + 1

/-- What an operation comes to: its exact result, moved to the nearest neighbour, or an infinity
where no finite one is left. -/
def ofRat (q : ℚ) : F64 :=
  let rounded := roundHalfEven (q / ulp q) * ulp q
  if 2 ^ 1024 ≤ |rounded| then infinite (decide (q < 0)) else finite rounded

/-- `n as f64`. -/
def ofNat (n : Nat) : F64 := ofRat n

/-- The value of what is finite. -/
def toRat : F64 → ℚ
  | finite q => q
  | infinite _ | nan => 0

/-! ## Tests -/

def isFinite : F64 → Bool
  | finite _ => true
  | infinite _ | nan => false

/-- False as soon as one side is not a number. -/
def lt : F64 → F64 → Bool
  | finite a, finite b => decide (a < b)
  | infinite a, infinite b => a && !b
  | finite _, infinite b => !b
  | infinite a, finite _ => a
  | nan, _ | _, nan => false

def le : F64 → F64 → Bool
  | finite a, finite b => decide (a ≤ b)
  | infinite a, infinite b => a || !b
  | finite _, infinite b => !b
  | infinite a, finite _ => a
  | nan, _ | _, nan => false

/-! ## Arithmetic -/

def neg : F64 → F64
  | finite q => finite (-q)
  | infinite negative => infinite (!negative)
  | nan => nan

def abs : F64 → F64
  | finite q => finite |q|
  | infinite _ => infinite false
  | nan => nan

/-- Two infinities of opposite signs have no sum. -/
def add : F64 → F64 → F64
  | finite a, finite b => ofRat (a + b)
  | infinite a, infinite b => if a = b then infinite a else nan
  | finite _, infinite b => infinite b
  | infinite a, finite _ => infinite a
  | nan, _ | _, nan => nan

def sub (a b : F64) : F64 := add a b.neg

/-- A zero times an infinity has no value. -/
def mul : F64 → F64 → F64
  | finite a, finite b => ofRat (a * b)
  | infinite a, infinite b => infinite (a != b)
  | finite a, infinite b => if a = 0 then nan else infinite (decide (a < 0) != b)
  | infinite a, finite b => if b = 0 then nan else infinite (a != decide (b < 0))
  | nan, _ | _, nan => nan

/-- A division by zero is an infinity with the sign of the dividend, and nothing for zero itself. -/
def div : F64 → F64 → F64
  | finite a, finite b =>
      if b = 0 then
        if a = 0 then nan else infinite (decide (a < 0))
      else ofRat (a / b)
  | infinite _, infinite _ => nan
  | finite _, infinite _ => finite 0
  | infinite a, finite b => infinite (a != decide (b < 0))
  | nan, _ | _, nan => nan

/-! ## Whole numbers and bounds -/

/-- For the operations that leave an infinity as it is. -/
def mapFinite (f : ℚ → ℤ) : F64 → F64
  | finite q => finite (f q)
  | infinite negative => infinite negative
  | nan => nan

/-- Half away from zero. -/
def roundRat (q : ℚ) : ℤ := if 0 ≤ q then ⌊q + 1 / 2⌋ else ⌈q - 1 / 2⌉

def round : F64 → F64 := mapFinite roundRat

def floor : F64 → F64 := mapFinite fun q => ⌊q⌋

def ceil : F64 → F64 := mapFinite fun q => ⌈q⌉

/-- What is not a number gives way to the other. -/
def max (a b : F64) : F64 :=
  match a, b with
  | nan, b => b
  | a, nan => a
  | a, b => if lt a b then b else a

/-- `None` is the panic of `assert!(min <= max)`. -/
def clamp (value min max : F64) : Option F64 :=
  if le min max then
    some (if lt value min then min else if lt max value then max else value)
  else none

/-! ## Where numbers stay numbers -/

theorem ofRat_ne_nan (q : ℚ) : ofRat q ≠ nan := by
  unfold ofRat
  dsimp only
  split
  · exact F64.noConfusion
  · exact F64.noConfusion

/-- A nonzero finite number divided by any number is a number. -/
theorem div_ne_nan {a b : F64} {q : ℚ} (dividend : a = finite q) (nonzero : q ≠ 0)
    (number : b ≠ nan) : div a b ≠ nan := by
  rw [dividend]
  cases b with
  | finite b =>
      unfold div
      dsimp only
      rw [if_neg nonzero]
      split
      · exact F64.noConfusion
      · exact ofRat_ne_nan _
  | infinite _ => exact F64.noConfusion
  | nan => exact absurd rfl number

/-- A nonzero finite number times any number is a number. -/
theorem mul_ne_nan {a b : F64} {q : ℚ} (factor : a = finite q) (nonzero : q ≠ 0)
    (number : b ≠ nan) : mul a b ≠ nan := by
  rw [factor]
  cases b with
  | finite b => exact ofRat_ne_nan _
  | infinite _ =>
      unfold mul
      dsimp only
      rw [if_neg nonzero]
      exact F64.noConfusion
  | nan => exact absurd rfl number

/-- What compares is a number on both sides. -/
theorem ne_nan_of_lt {a b : F64} (less : lt a b = true) : a ≠ nan ∧ b ≠ nan := by
  constructor
  · rintro rfl
    cases less
  · rintro rfl
    cases a <;> cases less

theorem ne_nan_of_le {a b : F64} (less : le a b = true) : a ≠ nan ∧ b ≠ nan := by
  constructor
  · rintro rfl
    cases less
  · rintro rfl
    cases a <;> cases less

/-- A clamp that does not panic keeps numbers numbers, since its bounds were comparable. -/
theorem clamp_ne_nan {value min max clamped : F64} (number : value ≠ nan)
    (ran : clamp value min max = some clamped) : clamped ≠ nan := by
  unfold clamp at ran
  split at ran
  · rename_i ordered
    obtain ⟨low, high⟩ := ne_nan_of_le ordered
    cases ran
    split
    · exact low
    · split
      · exact high
      · exact number
  · cases ran

/-- A number between finite bounds is finite: one of the bounds, or itself. -/
theorem clamp_finite {value clamped : F64} {low high : ℚ} (number : value ≠ nan)
    (ran : clamp value (finite low) (finite high) = some clamped) :
    clamped = finite low ∨ clamped = finite high ∨
      ∃ q, value = finite q ∧ clamped = finite q ∧ low ≤ q ∧ q ≤ high := by
  unfold clamp at ran
  split at ran
  · cases ran
    split
    · exact .inl rfl
    · rename_i notBelow
      split
      · exact .inr (.inl rfl)
      · rename_i notAbove
        cases value with
        | finite q =>
            have atLeast : low ≤ q := by simpa [lt] using notBelow
            have atMost : q ≤ high := by simpa [lt] using notAbove
            exact .inr (.inr ⟨q, rfl, rfl, atLeast, atMost⟩)
        | infinite negative =>
            cases negative with
            | true => exact absurd rfl notBelow
            | false => exact absurd rfl notAbove
        | nan => exact absurd rfl number
  · cases ran

theorem clamp_isSome {value min max : F64} (ordered : le min max = true) :
    (clamp value min max).isSome = true := by
  unfold clamp
  rw [if_pos ordered]
  rfl

theorem ulp_pos (q : ℚ) : 0 < ulp q := by
  unfold ulp
  exact zpow_pos (by norm_num) _

theorem ulp_le {q : ℚ} (large : 1 ≤ q) : ulp q ≤ q := by
  have positive : 0 < q := lt_of_lt_of_le one_pos large
  have exponent : 0 ≤ Int.log 2 |q| := by
    rw [abs_of_pos positive]
    have one : Int.log 2 (1 : ℚ) = 0 := Int.log_one_right 2
    rw [← one]
    exact Int.log_mono_right one_pos large
  calc ulp q ≤ (2 : ℚ) ^ Int.log 2 |q| := by
        unfold ulp
        apply zpow_le_zpow_right₀ (by norm_num)
        apply max_le
        · omega
        · omega
    _ ≤ q := by
        rw [abs_of_pos positive]
        exact Int.zpow_log_le_self (by norm_num) positive

theorem le_roundHalfEven (q : ℚ) : ⌊q⌋ ≤ roundHalfEven q := by
  unfold roundHalfEven
  dsimp only
  split
  · exact le_rfl
  · split
    · omega
    · split
      · exact le_rfl
      · omega

theorem roundHalfEven_le (q : ℚ) : roundHalfEven q ≤ ⌊q⌋ + 1 := by
  unfold roundHalfEven
  dsimp only
  split
  · omega
  · split
    · exact le_rfl
    · split
      · omega
      · exact le_rfl

/-- A machine word is in the range of finite values. -/
theorem ofNat_finite {n : Nat} (word : n < 2 ^ 64) : ∃ q, ofNat n = finite q := by
  rcases Nat.eq_zero_or_pos n with rfl | positive
  · exact ⟨0, by decide +kernel⟩
  have large : (1 : ℚ) ≤ n := by exact_mod_cast positive
  have spacing := ulp_pos (n : ℚ)
  have ratio : (1 : ℚ) ≤ n / ulp n := (one_le_div spacing).2 (ulp_le large)
  have floor : (0 : ℤ) ≤ ⌊(n : ℚ) / ulp n⌋ := Int.floor_nonneg.2 (le_trans zero_le_one ratio)
  have nonneg : (0 : ℚ) ≤ roundHalfEven ((n : ℚ) / ulp n) := by
    exact_mod_cast le_trans floor (le_roundHalfEven _)
  have close : (roundHalfEven ((n : ℚ) / ulp n) : ℚ) ≤ n / ulp n + 1 := by
    calc (roundHalfEven ((n : ℚ) / ulp n) : ℚ) ≤ ⌊(n : ℚ) / ulp n⌋ + 1 := by
          exact_mod_cast roundHalfEven_le _
      _ ≤ n / ulp n + 1 := by linarith [Int.floor_le ((n : ℚ) / ulp n)]
  have bounded : (roundHalfEven ((n : ℚ) / ulp n) : ℚ) * ulp n < 2 ^ 1024 := by
    calc (roundHalfEven ((n : ℚ) / ulp n) : ℚ) * ulp n ≤ (n / ulp n + 1) * ulp n :=
          mul_le_mul_of_nonneg_right close spacing.le
      _ = n + ulp n := by field_simp
      _ ≤ n + n := by linarith [ulp_le large]
      _ < 2 ^ 65 := by
          have below : (n : ℚ) < 2 ^ 64 := by exact_mod_cast word
          linarith
      _ ≤ 2 ^ 1024 := pow_le_pow_right₀ (by norm_num) (by norm_num)
  refine ⟨_, if_neg ?_⟩
  rw [abs_of_nonneg (mul_nonneg nonneg spacing.le)]
  exact not_le.2 bounded

/-- A positive count is not rounded away. -/
theorem ofNat_ne_zero {n : Nat} (positive : 0 < n) : ofNat n ≠ finite 0 := by
  have large : (1 : ℚ) ≤ n := by exact_mod_cast positive
  have ratio : (1 : ℚ) ≤ n / ulp n := (one_le_div (ulp_pos _)).2 (ulp_le large)
  have rounded : 1 ≤ roundHalfEven ((n : ℚ) / ulp n) :=
    le_trans (Int.le_floor.2 (by exact_mod_cast ratio)) (le_roundHalfEven _)
  have nonzero : ((roundHalfEven ((n : ℚ) / ulp n) : ℤ) : ℚ) * ulp n ≠ 0 := by
    apply mul_ne_zero
    · exact_mod_cast (by omega : roundHalfEven ((n : ℚ) / ulp n) ≠ 0)
    · exact ne_of_gt (ulp_pos _)
  unfold ofNat ofRat
  dsimp only
  split
  · exact F64.noConfusion
  · intro zero
    exact nonzero (F64.finite.inj zero)

end F64

end CsdPool.Theory
