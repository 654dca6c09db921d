/-
# Theory.Decimal — reading digits under a bound

Digits are read from the left, and reading stops as soon as the value so far does not fit.  The
value only grows, so this is the same as reading all of them and comparing at the end
(`readDigits_eq`).  Digits that are written read back (`digitsValue_toDigits`,
`digitsValue_leftpad`).
-/
import Mathlib.Algebra.Order.Ring.Nat

namespace CsdPool.Theory

set_option autoImplicit false

/-- The number decimal digits denote. -/
def digitsValue (text : List Char) : Nat := Nat.ofDigitChars 10 text 0

/-- One more digit, if it is one and the value still fits. -/
def pushDigit (bound value : Nat) (c : Char) : Option Nat :=
  if c.isDigit && decide (10 * value + (c.toNat - '0'.toNat) < bound) then
    some (10 * value + (c.toNat - '0'.toNat))
  else none

/-- A number read digit by digit, as long as it stays within a bound. -/
def readDigits (bound : Nat) (text : List Char) : Option Nat := text.foldlM (pushDigit bound) 0

theorem ofDigitChars_eq (text : List Char) (value : Nat) :
    Nat.ofDigitChars 10 text value = 10 ^ text.length * value + digitsValue text :=
  Nat.ofDigitChars_eq_ofDigitChars_zero

/-- Digits in front count for as many places as stand behind them. -/
theorem digitsValue_append (text more : List Char) :
    digitsValue (text ++ more) = 10 ^ more.length * digitsValue text + digitsValue more := by
  unfold digitsValue
  rw [Nat.ofDigitChars_append, ofDigitChars_eq]
  rfl

theorem digitsValue_cons (c : Char) (rest : List Char) :
    digitsValue (c :: rest) =
      10 ^ rest.length * (c.toNat - '0'.toNat) + digitsValue rest := by
  unfold digitsValue
  rw [Nat.ofDigitChars_cons, ofDigitChars_eq, Nat.mul_zero, Nat.zero_add]
  rfl

theorem digitsValue_zeros (n : Nat) : digitsValue (List.replicate n '0') = 0 := by
  unfold digitsValue
  rw [Nat.ofDigitChars_replicate_zero]
  rfl

/-- A number is what its digits denote. -/
theorem digitsValue_toDigits (n : Nat) : digitsValue (Nat.toDigits 10 n) = n :=
  Nat.ofDigitChars_ten_toDigits

/-- Zeros in front change nothing. -/
theorem digitsValue_leftpad (width : Nat) (text : List Char) :
    digitsValue (text.leftpad width '0') = digitsValue text := by
  rw [List.leftpad, digitsValue_append, digitsValue_zeros, Nat.mul_zero, Nat.zero_add]

theorem digitsValue_lt {text : List Char} (digits : text.all Char.isDigit = true) :
    digitsValue text < 10 ^ text.length := by
  induction text with
  | nil => exact Nat.one_pos
  | cons c rest ih =>
      rw [List.all_cons, Bool.and_eq_true_iff] at digits
      have tail := ih digits.2
      have upper : c.toNat ≤ '9'.toNat := (Char.isDigit_iff_toNat.1 digits.1).2
      have digit : c.toNat - '0'.toNat ≤ 9 := by
        simp only [Char.reduceToNat] at upper ⊢
        omega
      have scaled : 10 ^ rest.length * (c.toNat - '0'.toNat) ≤ 10 ^ rest.length * 9 :=
        Nat.mul_le_mul_left _ digit
      rw [digitsValue_cons, List.length_cons, Nat.pow_succ]
      omega

theorem all_isDigit_toDigits (n : Nat) : (Nat.toDigits 10 n).all Char.isDigit = true := by
  rw [List.all_eq_true]
  intro c member
  exact Nat.isDigit_of_mem_toDigits (by decide) (by decide) member

theorem all_isDigit_leftpad {text : List Char} (digits : text.all Char.isDigit = true)
    (width : Nat) : (text.leftpad width '0').all Char.isDigit = true := by
  rw [List.leftpad, List.all_append, digits, Bool.and_true, List.all_replicate]
  simp

/-- A value that has grown past the bound stays there. -/
theorem foldlM_pushDigit {bound : Nat} (text : List Char) (digits : text.all Char.isDigit = true)
    (value : Nat) (fits : value < bound) :
    text.foldlM (pushDigit bound) value =
      if Nat.ofDigitChars 10 text value < bound then some (Nat.ofDigitChars 10 text value)
      else none := by
  induction text generalizing value with
  | nil => simp [fits]
  | cons c rest ih =>
      rw [List.all_cons, Bool.and_eq_true_iff] at digits
      rw [List.foldlM_cons, Nat.ofDigitChars_cons, pushDigit, digits.1, Bool.true_and]
      by_cases small : 10 * value + (c.toNat - '0'.toNat) < bound
      · rw [if_pos (by simpa using small)]
        exact ih digits.2 _ small
      · rw [if_neg (by simpa using small), if_neg]
        · rfl
        · have grown : 10 * value + (c.toNat - '0'.toNat) ≤
              10 ^ rest.length * (10 * value + (c.toNat - '0'.toNat)) :=
            Nat.le_mul_of_pos_left _ (Nat.pow_pos (by decide))
          rw [ofDigitChars_eq]
          omega

/-- **Reading under a bound.** -/
theorem readDigits_eq {bound : Nat} {text : List Char} (positive : 0 < bound)
    (digits : text.all Char.isDigit = true) :
    readDigits bound text = if digitsValue text < bound then some (digitsValue text) else none :=
  foldlM_pushDigit text digits 0 positive

end CsdPool.Theory
