/-
# Theory.Positional — numerals and their order

A numeral is a list of digits, the most significant first, over any alphabet that is ordered as
its digits' values are (`Alphabet`).  Numerals of one length compare as their values do
(`lt_iff_value_lt`).  Without leading zeros the longer numeral is the greater
(`le_iff_value_le_of_normal`), and equal values are equal numerals (`eq_iff_value_eq_of_normal`).
-/
import Mathlib.Algebra.Order.Ring.Nat

namespace CsdPool.Theory.Positional

set_option autoImplicit false

variable {α : Type}

def value (digit : α → Nat) (base : Nat) : List α → Nat
  | [] => 0
  | a :: rest => digit a * base ^ rest.length + value digit base rest

/-- The letters that are digits in use: they are below the base, and as letters they are ordered
as their values. -/
structure Alphabet [LT α] (digit : α → Nat) (base : Nat) (letter : α → Prop) : Prop where
  below : ∀ a, letter a → digit a < base
  ordered : ∀ a b, letter a → letter b → (a < b ↔ digit a < digit b)
  injective : ∀ a b, letter a → letter b → digit a = digit b → a = b

theorem value_map {β : Type} (digit : β → Nat) (base : Nat) (f : α → β) (text : List α) :
    value digit base (text.map f) = value (digit ∘ f) base text := by
  induction text with
  | nil => rfl
  | cons a rest ih => simp only [List.map_cons, value, List.length_map, ih, Function.comp_apply]

/-- Leading zeros do not count. -/
theorem value_dropWhile (digit : α → Nat) (base : Nat) {zero : α → Bool}
    (zeros : ∀ a, zero a = true → digit a = 0) (text : List α) :
    value digit base (text.dropWhile zero) = value digit base text := by
  induction text with
  | nil => rfl
  | cons a rest ih =>
      rw [List.dropWhile_cons]
      split
      · rename_i isZero
        rw [ih, value, zeros a isZero, Nat.zero_mul, Nat.zero_add]
      · rfl

section Order

variable [LT α] {digit : α → Nat} {base : Nat} {letter : α → Prop}

theorem Alphabet.value_lt (alphabet : Alphabet digit base letter) {text : List α}
    (letters : ∀ a ∈ text, letter a) : value digit base text < base ^ text.length := by
  induction text with
  | nil => exact Nat.one_pos
  | cons a rest ih =>
      rw [List.forall_mem_cons] at letters
      have below := alphabet.below a letters.1
      have tail := ih letters.2
      have room : (digit a + 1) * base ^ rest.length ≤ base * base ^ rest.length :=
        Nat.mul_le_mul_right _ below
      rw [Nat.add_mul, Nat.one_mul] at room
      rw [value, List.length_cons, Nat.pow_succ']
      omega

/-- The first digit decides, or the rest does. -/
theorem Alphabet.value_cons_lt (alphabet : Alphabet digit base letter) {a b : α}
    {rest rest' : List α} (length : rest.length = rest'.length)
    (letters : ∀ c ∈ a :: rest, letter c) (letters' : ∀ c ∈ b :: rest', letter c) :
    value digit base (a :: rest) < value digit base (b :: rest') ↔
      a < b ∨ a = b ∧ value digit base rest < value digit base rest' := by
  rw [List.forall_mem_cons] at letters letters'
  have low := alphabet.value_lt letters.2
  have low' := alphabet.value_lt letters'.2
  rw [alphabet.ordered a b letters.1 letters'.1, value, value, length]
  rw [length] at low
  rcases Nat.lt_trichotomy (digit a) (digit b) with less | same | more
  · have room : (digit a + 1) * base ^ rest'.length ≤ digit b * base ^ rest'.length :=
      Nat.mul_le_mul_right _ less
    rw [Nat.add_mul, Nat.one_mul] at room
    constructor
    · intro _
      exact .inl less
    · intro _
      omega
  · have equal : a = b := alphabet.injective a b letters.1 letters'.1 same
    rw [same]
    constructor
    · intro smaller
      exact .inr ⟨equal, by omega⟩
    · rintro (before | ⟨-, smaller⟩)
      · omega
      · omega
  · have room : (digit b + 1) * base ^ rest'.length ≤ digit a * base ^ rest'.length :=
      Nat.mul_le_mul_right _ more
    rw [Nat.add_mul, Nat.one_mul] at room
    constructor
    · intro smaller
      omega
    · rintro (before | ⟨equal, -⟩)
      · omega
      · rw [equal] at more
        omega

theorem Alphabet.lt_iff_value_lt (alphabet : Alphabet digit base letter) :
    ∀ {xs ys : List α}, xs.length = ys.length → (∀ a ∈ xs, letter a) → (∀ a ∈ ys, letter a) →
      (xs < ys ↔ value digit base xs < value digit base ys)
  | [], [], _, _, _ => by simp [value]
  | x :: xs, y :: ys, length, letters, letters' => by
      have shorter : xs.length = ys.length := Nat.succ.inj length
      have tail := alphabet.lt_iff_value_lt shorter
        (fun a member => letters a (List.mem_cons_of_mem _ member))
        (fun a member => letters' a (List.mem_cons_of_mem _ member))
      rw [List.cons_lt_cons_iff, alphabet.value_cons_lt shorter letters letters', tail]

theorem Alphabet.le_iff_value_le (alphabet : Alphabet digit base letter) {xs ys : List α}
    (length : xs.length = ys.length) (letters : ∀ a ∈ xs, letter a) (letters' : ∀ a ∈ ys, letter a) :
    xs ≤ ys ↔ value digit base xs ≤ value digit base ys := by
  rw [← Nat.not_lt, ← alphabet.lt_iff_value_lt length.symm letters' letters]
  rfl

/-- Numerals of one length have one spelling for each value. -/
theorem Alphabet.eq_of_value_eq (alphabet : Alphabet digit base letter) :
    ∀ {xs ys : List α}, xs.length = ys.length → (∀ a ∈ xs, letter a) → (∀ a ∈ ys, letter a) →
      value digit base xs = value digit base ys → xs = ys
  | [], [], _, _, _, _ => rfl
  | x :: xs, y :: ys, length, letters, letters', same => by
      have shorter : xs.length = ys.length := Nat.succ.inj length
      have split := alphabet.value_cons_lt shorter letters letters'
      have split' := alphabet.value_cons_lt shorter.symm letters' letters
      rw [same] at split split'
      have first : x = y := by
        apply alphabet.injective x y (letters x List.mem_cons_self) (letters' y List.mem_cons_self)
        have notBefore := mt (fun before => split.2 (.inl before)) (Nat.lt_irrefl _)
        have notAfter := mt (fun after => split'.2 (.inl after)) (Nat.lt_irrefl _)
        rw [alphabet.ordered _ _ (letters x List.mem_cons_self) (letters' y List.mem_cons_self)]
          at notBefore
        rw [alphabet.ordered _ _ (letters' y List.mem_cons_self) (letters x List.mem_cons_self)]
          at notAfter
        omega
      subst first
      rw [value, value, shorter, Nat.add_left_cancel_iff] at same
      rw [alphabet.eq_of_value_eq shorter (fun a member => letters a (List.mem_cons_of_mem _ member))
        (fun a member => letters' a (List.mem_cons_of_mem _ member)) same]

/-! ## Without leading zeros -/

/-- No leading zero. -/
def Normal (digit : α → Nat) (text : List α) : Prop := ∀ a, text.head? = some a → digit a ≠ 0

/-- A longer numeral in normal form is the greater. -/
theorem Alphabet.value_lt_of_length_lt (alphabet : Alphabet digit base letter) {xs ys : List α}
    (shorter : xs.length < ys.length) (letters : ∀ a ∈ xs, letter a) (normal : Normal digit ys)
    (letters' : ∀ a ∈ ys, letter a) : value digit base xs < value digit base ys := by
  cases ys with
  | nil => cases shorter
  | cons y ys =>
      have leading : 1 ≤ digit y := Nat.one_le_iff_ne_zero.2 (normal y rfl)
      have positive : 0 < base :=
        Nat.lt_of_le_of_lt (Nat.zero_le _) (alphabet.below y (letters' y List.mem_cons_self))
      have wide : base ^ xs.length ≤ base ^ ys.length :=
        Nat.pow_le_pow_right positive (Nat.le_of_lt_succ shorter)
      have first : 1 * base ^ ys.length ≤ digit y * base ^ ys.length :=
        Nat.mul_le_mul_right _ leading
      have small := alphabet.value_lt letters
      rw [value]
      omega

theorem Alphabet.le_iff_value_le_of_normal (alphabet : Alphabet digit base letter) {xs ys : List α}
    (normal : Normal digit xs) (normal' : Normal digit ys) (letters : ∀ a ∈ xs, letter a)
    (letters' : ∀ a ∈ ys, letter a) :
    (xs.length > ys.length ∨ xs.length = ys.length ∧ ys ≤ xs) ↔
      value digit base ys ≤ value digit base xs := by
  rcases Nat.lt_trichotomy xs.length ys.length with less | same | more
  · have smaller := alphabet.value_lt_of_length_lt less letters normal' letters'
    constructor
    · rintro (greater | ⟨equal, -⟩)
      · omega
      · omega
    · intro _
      omega
  · rw [← alphabet.le_iff_value_le same.symm letters' letters, and_iff_right same, or_iff_right]
    omega
  · have smaller := alphabet.value_lt_of_length_lt more letters' normal letters
    constructor
    · intro _
      omega
    · intro _
      exact .inl more

theorem Alphabet.eq_iff_value_eq_of_normal (alphabet : Alphabet digit base letter) {xs ys : List α}
    (normal : Normal digit xs) (normal' : Normal digit ys) (letters : ∀ a ∈ xs, letter a)
    (letters' : ∀ a ∈ ys, letter a) :
    xs = ys ↔ value digit base xs = value digit base ys := by
  constructor
  · rintro rfl
    rfl
  · intro same
    rcases Nat.lt_trichotomy xs.length ys.length with less | equal | more
    · have smaller := alphabet.value_lt_of_length_lt less letters normal' letters'
      omega
    · exact alphabet.eq_of_value_eq equal letters letters' same
    · have smaller := alphabet.value_lt_of_length_lt more letters' normal letters
      omega

end Order

end CsdPool.Theory.Positional
