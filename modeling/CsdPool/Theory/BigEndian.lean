/-
# Theory.BigEndian — byte strings as numbers

A byte string with its most significant byte first.  Strings of one length compare as their
numbers do (`le_iff_value_le`), and the long division that goes through the bytes once, with
the remainder so far in hand, is the division of the numbers (`value_quotient`).
-/
import CsdPool.Theory.Positional
import Mathlib.Tactic.Ring

namespace CsdPool.Theory.BigEndian

set_option autoImplicit false

/-- The number bytes denote, the first of them the highest. -/
def value : List UInt8 → Nat
  | [] => 0
  | byte :: rest => byte.toNat * 256 ^ rest.length + value rest

/-- Bytes are digits to the base 256. -/
theorem value_eq (bytes : List UInt8) : value bytes = Positional.value UInt8.toNat 256 bytes := by
  induction bytes with
  | nil => rfl
  | cons byte rest ih => rw [value, ih, Positional.value]

/-- The bytes as an alphabet of digits, with none left out. -/
theorem bytes : Positional.Alphabet UInt8.toNat 256 fun _ => True where
  below byte _ := byte.toNat_lt
  ordered _ _ _ _ := UInt8.lt_iff_toNat_lt
  injective _ _ _ _ := UInt8.toNat_inj.1

theorem value_lt (text : List UInt8) : value text < 256 ^ text.length := by
  rw [value_eq]
  exact bytes.value_lt fun _ _ => trivial

/-! ## The order -/

/-- Texts of one length are in the order of their numbers. -/
theorem lt_iff_value_lt {xs ys : List UInt8} (length : xs.length = ys.length) :
    xs < ys ↔ value xs < value ys := by
  rw [value_eq, value_eq]
  exact bytes.lt_iff_value_lt length (fun _ _ => trivial) fun _ _ => trivial

theorem le_iff_value_le {xs ys : List UInt8} (length : xs.length = ys.length) :
    xs ≤ ys ↔ value xs ≤ value ys := by
  rw [← Nat.not_lt, ← lt_iff_value_lt length.symm]
  rfl

/-! ## Long division -/

/-- Division by hand: the remainder so far is carried in front of the next byte. -/
def quotient (divisor : Nat) : Nat → List UInt8 → List UInt8
  | _, [] => []
  | remainder, byte :: rest =>
      let dividend := 256 * remainder + byte.toNat
      UInt8.ofNat (dividend / divisor) :: quotient divisor (dividend % divisor) rest

theorem length_quotient (divisor remainder : Nat) (bytes : List UInt8) :
    (quotient divisor remainder bytes).length = bytes.length := by
  induction bytes generalizing remainder with
  | nil => rfl
  | cons byte rest ih => simp only [quotient, List.length_cons, ih]

/-- Each quotient digit is a byte, since the remainder is below the divisor. -/
theorem value_quotient {divisor : Nat} (positive : 0 < divisor) :
    ∀ {remainder : Nat} (bytes : List UInt8), remainder < divisor →
      value (quotient divisor remainder bytes) =
        (remainder * 256 ^ bytes.length + value bytes) / divisor := by
  intro remainder bytes
  induction bytes generalizing remainder with
  | nil =>
      intro below
      show 0 = (remainder * 1 + 0) / divisor
      rw [Nat.mul_one, Nat.add_zero, Nat.div_eq_of_lt below]
  | cons byte rest ih =>
      intro below
      have digit : byte.toNat < 256 := byte.toNat_lt
      have fits : (256 * remainder + byte.toNat) / divisor < 256 := by
        apply (Nat.div_lt_iff_lt_mul positive).2
        omega
      have exact : (UInt8.ofNat ((256 * remainder + byte.toNat) / divisor)).toNat =
          (256 * remainder + byte.toNat) / divisor := by
        rw [UInt8.toNat_ofNat']
        exact Nat.mod_eq_of_lt fits
      have split := Nat.div_add_mod (256 * remainder + byte.toNat) divisor
      have whole : remainder * 256 ^ (rest.length + 1) +
          (byte.toNat * 256 ^ rest.length + value rest) =
          ((256 * remainder + byte.toNat) % divisor * 256 ^ rest.length + value rest) +
            divisor * ((256 * remainder + byte.toNat) / divisor * 256 ^ rest.length) := by
        calc remainder * 256 ^ (rest.length + 1) + (byte.toNat * 256 ^ rest.length + value rest)
            = (256 * remainder + byte.toNat) * 256 ^ rest.length + value rest := by ring
          _ = (divisor * ((256 * remainder + byte.toNat) / divisor) +
                (256 * remainder + byte.toNat) % divisor) * 256 ^ rest.length + value rest := by
              rw [split]
          _ = _ := by ring
      show (UInt8.ofNat ((256 * remainder + byte.toNat) / divisor)).toNat *
          256 ^ (quotient divisor ((256 * remainder + byte.toNat) % divisor) rest).length +
            value (quotient divisor ((256 * remainder + byte.toNat) % divisor) rest) =
        (remainder * 256 ^ (rest.length + 1) +
          (byte.toNat * 256 ^ rest.length + value rest)) / divisor
      rw [length_quotient, exact, ih (Nat.mod_lt _ positive), whole,
        Nat.add_mul_div_left _ _ positive, Nat.add_comm]

end CsdPool.Theory.BigEndian
