/-
# Amounts — CSD texts and base units

`parse_csd_base_units` stands twice in the source, for the workers and for the API, and the two
differ in the type of their error only; `format_unsigned_csd` writes what both read back
(`parse_format`).

An amount is digits with an optional point and at most eight digits after it (`IsAmount`).  The
whole part is checked against overflow before the fraction is added, and the sum is not: what
begins with the largest whole part that passes and goes on past the last base unit wraps around
(`amountExact_iff`).  Release arithmetic is modelled; a debug build stops there instead.
-/
import Mathlib.Data.Rat.Defs
import Mathlib.Tactic.FieldSimp
import Mathlib.Tactic.NormNum
import CsdPool.Accounting
import CsdPool.Text
import CsdPool.Theory.Decimal

namespace CsdPool

open Theory (digitsValue readDigits)

set_option autoImplicit false

/-- `WorkerError::InvalidAmount`. -/
inductive WorkerError
  | invalidAmount (value : String)
  deriving DecidableEq, Repr

/-- `ApiError::InvalidAmount`. -/
inductive ApiError
  | invalidAmount (value : String)
  deriving DecidableEq, Repr

def csdBaseUnits : Nat := 100000000

/-- `text.parse::<u128>()`: a leading `+` is allowed, an empty text is not. -/
def u128FromStr (text : List Char) : Option Nat :=
  let digits := match text with
    | '+' :: digits => digits
    | digits => digits
  if digits.isEmpty then none else readDigits (2 ^ 128) digits

/-- `n.checked_mul(m)` for a `u128`. -/
def checkedMul (n m : Nat) : Option Nat := if n * m < 2 ^ 128 then some (n * m) else none

section Parse

variable {ε : Type} (invalidAmount : String → ε)

/-- The body both copies have. -/
def parseCsdBaseUnitsWith (value : String) : Except ε Nat :=
  let trimmed := trim value
  let parts := trimmed.toList.splitOn '.'
  let whole := (parts[0]?).getD []
  let frac := (parts[1]?).getD []
  if (parts[2]?).isSome || whole.isEmpty || !whole.all Char.isDigit || !frac.all Char.isDigit ||
      decide (8 < frac.length) then
    .error (invalidAmount trimmed)
  else
    match (u128FromStr whole).bind fun n => checkedMul n csdBaseUnits with
    | none => .error (invalidAmount trimmed)
    | some wholeUnits =>
        let fracPadded := frac ++ List.replicate (8 - frac.length) '0'
        match if fracPadded.isEmpty then some 0 else u128FromStr fracPadded with
        | none => .error (invalidAmount trimmed)
        | some fracUnits => .ok (u128 (wholeUnits + fracUnits))

end Parse

namespace Workers

def parseCsdBaseUnits : String → Except WorkerError Nat :=
  parseCsdBaseUnitsWith .invalidAmount

def formatUnsignedCsd (amountBaseUnits : Nat) : String :=
  String.ofList (Nat.toDigits 10 (amountBaseUnits / csdBaseUnits) ++
    '.' :: (Nat.toDigits 10 (amountBaseUnits % csdBaseUnits)).leftpad 8 '0')

end Workers

namespace Api

def parseCsdBaseUnits : String → Except ApiError Nat := parseCsdBaseUnitsWith .invalidAmount

end Api

/-! ## Amounts -/

/-- The text is an amount with this whole part and this fraction. -/
structure IsAmount (text whole frac : List Char) : Prop where
  nonempty : whole ≠ []
  wholeDigits : whole.all Char.isDigit = true
  fracDigits : frac.all Char.isDigit = true
  short : frac.length ≤ 8
  written : text = whole ∧ frac = [] ∨ text = whole ++ '.' :: frac

/-- The number of an amount, in CSD. -/
def amountValue (whole frac : List Char) : ℚ :=
  digitsValue whole + digitsValue frac / 10 ^ frac.length

/-- The text is an amount of `n` base units. -/
def Denotes (text : List Char) (n : Nat) : Prop :=
  ∃ whole frac, IsAmount text whole frac ∧ (n : ℚ) = amountValue whole frac * 10 ^ 8

/-- What a fraction adds, in base units. -/
def fracUnits (frac : List Char) : Nat := digitsValue frac * 10 ^ (8 - frac.length)

def baseUnits (whole frac : List Char) : Nat :=
  digitsValue whole * csdBaseUnits + fracUnits frac

variable {text whole frac : List Char}

theorem baseUnits_eq (short : frac.length ≤ 8) :
    (baseUnits whole frac : ℚ) = amountValue whole frac * 10 ^ 8 := by
  have scale : (10 : ℚ) ^ 8 = 10 ^ frac.length * 10 ^ (8 - frac.length) := by
    rw [← pow_add]
    congr 1
    omega
  have positive : (10 : ℚ) ^ frac.length ≠ 0 := pow_ne_zero _ (by norm_num)
  have fraction : (digitsValue frac : ℚ) / 10 ^ frac.length * 10 ^ 8 =
      digitsValue frac * 10 ^ (8 - frac.length) := by
    rw [scale, ← mul_assoc, div_mul_cancel₀ _ positive]
  unfold baseUnits fracUnits amountValue csdBaseUnits
  rw [add_mul, fraction]
  push_cast
  norm_num

theorem fracUnits_lt (digits : frac.all Char.isDigit = true) (short : frac.length ≤ 8) :
    fracUnits frac < csdBaseUnits := by
  have value := Theory.digitsValue_lt digits
  have positive : 0 < 10 ^ (8 - frac.length) := Nat.pow_pos (by decide)
  have scale : csdBaseUnits = 10 ^ frac.length * 10 ^ (8 - frac.length) := by
    rw [← Nat.pow_add, show frac.length + (8 - frac.length) = 8 by omega]
    rfl
  rw [scale]
  exact Nat.mul_lt_mul_of_pos_right value positive

theorem point_not_digit {digits : List Char} (all : digits.all Char.isDigit = true) :
    '.' ∉ digits := by
  intro member
  exact absurd (List.all_eq_true.1 all '.' member) (by decide)

/-- An amount comes apart at its point, and in no other way. -/
theorem IsAmount.parts (amount : IsAmount text whole frac) :
    text.splitOn '.' = [whole] ∧ frac = [] ∨ text.splitOn '.' = [whole, frac] := by
  have noPoint := point_not_digit amount.wholeDigits
  rcases amount.written with ⟨rfl, empty⟩ | rfl
  · exact .inl ⟨List.splitOn_eq_singleton noPoint, empty⟩
  · refine .inr ?_
    rw [List.splitOn_append_cons_self_of_not_mem noPoint,
      List.splitOn_eq_singleton (point_not_digit amount.fracDigits)]

theorem IsAmount.unique {whole' frac' : List Char} (amount : IsAmount text whole frac)
    (amount' : IsAmount text whole' frac') : whole = whole' ∧ frac = frac' := by
  rcases amount.parts with ⟨parts, empty⟩ | parts
  · rcases amount'.parts with ⟨parts', empty'⟩ | parts'
    · simp_all
    · simp_all
  · rcases amount'.parts with ⟨parts', empty'⟩ | parts'
    · simp_all
    · simp_all

theorem denotes_iff {n : Nat} (amount : IsAmount text whole frac) :
    Denotes text n ↔ n = baseUnits whole frac := by
  constructor
  · rintro ⟨whole', frac', amount', value⟩
    obtain ⟨rfl, rfl⟩ := amount.unique amount'
    rw [← baseUnits_eq amount.short] at value
    exact_mod_cast value
  · rintro rfl
    exact ⟨whole, frac, amount, baseUnits_eq amount.short⟩

/-! ## Parsing -/

theorem u128FromStr_digits (nonempty : text ≠ []) (digits : text.all Char.isDigit = true) :
    u128FromStr text =
      if digitsValue text < 2 ^ 128 then some (digitsValue text) else none := by
  cases text with
  | nil => exact absurd rfl nonempty
  | cons c rest =>
      have signless : c ≠ '+' := by
        rintro rfl
        rw [List.all_cons, Bool.and_eq_true_iff] at digits
        exact absurd digits.1 (by decide)
      unfold u128FromStr
      split
      · rename_i here
        exact absurd (List.cons.inj here).1 signless
      · exact Theory.readDigits_eq (by decide) digits

theorem wholeUnits_eq (nonempty : whole ≠ []) (digits : whole.all Char.isDigit = true) :
    ((u128FromStr whole).bind fun n => checkedMul n csdBaseUnits) =
      if digitsValue whole * csdBaseUnits < 2 ^ 128 then some (digitsValue whole * csdBaseUnits)
      else none := by
  rw [u128FromStr_digits nonempty digits]
  by_cases small : digitsValue whole < 2 ^ 128
  · rw [if_pos small, Option.bind_some, checkedMul]
  · have large : ¬ digitsValue whole * csdBaseUnits < 2 ^ 128 := fun fits =>
      small (Nat.lt_of_le_of_lt (Nat.le_mul_of_pos_right _ (by decide)) fits)
    rw [if_neg small, if_neg large, Option.bind_none]

/-- The padded fraction is the fraction in base units. -/
theorem u128FromStr_padded (digits : frac.all Char.isDigit = true) (short : frac.length ≤ 8) :
    u128FromStr (frac ++ List.replicate (8 - frac.length) '0') = some (fracUnits frac) := by
  have padded : (frac ++ List.replicate (8 - frac.length) '0').all Char.isDigit = true := by
    rw [List.all_append, digits, Bool.true_and, List.all_replicate]
    simp
  have width : (frac ++ List.replicate (8 - frac.length) '0').length = 8 := by
    rw [List.length_append, List.length_replicate]
    omega
  have nonempty : frac ++ List.replicate (8 - frac.length) '0' ≠ [] := by
    rw [← List.length_pos_iff, width]
    decide
  have value : digitsValue (frac ++ List.replicate (8 - frac.length) '0') = fracUnits frac := by
    rw [Theory.digitsValue_append, Theory.digitsValue_zeros, List.length_replicate, Nat.add_zero,
      Nat.mul_comm]
    rfl
  have fits : fracUnits frac < 2 ^ 128 :=
    Nat.lt_trans (fracUnits_lt digits short) (by decide)
  rw [u128FromStr_digits nonempty padded, value, if_pos fits]

section Parsed

variable {ε : Type} {invalidAmount : String → ε} {value : String}

theorem parse_of_amount (amount : IsAmount (trim value).toList whole frac) :
    parseCsdBaseUnitsWith invalidAmount value =
      if digitsValue whole * csdBaseUnits < 2 ^ 128 then .ok (u128 (baseUnits whole frac))
      else .error (invalidAmount (trim value)) := by
  have parts : (((trim value).toList.splitOn '.')[0]?).getD [] = whole ∧
      (((trim value).toList.splitOn '.')[1]?).getD [] = frac ∧
      (((trim value).toList.splitOn '.')[2]?).isSome = false := by
    rcases amount.parts with ⟨parts, rfl⟩ | parts
    · rw [parts]
      exact ⟨rfl, rfl, rfl⟩
    · rw [parts]
      exact ⟨rfl, rfl, rfl⟩
  have nonempty : whole.isEmpty = false := by
    rw [List.isEmpty_eq_false_iff]
    exact amount.nonempty
  have short : decide (8 < frac.length) = false := decide_eq_false (Nat.not_lt.2 amount.short)
  have padded : (frac ++ List.replicate (8 - frac.length) '0').isEmpty = false := by
    rw [List.isEmpty_eq_false_iff, ← List.length_pos_iff, List.length_append,
      List.length_replicate]
    have := amount.short
    omega
  unfold parseCsdBaseUnitsWith
  dsimp only
  rw [parts.1, parts.2.1, parts.2.2, nonempty, amount.wholeDigits, amount.fracDigits, short,
    padded, u128FromStr_padded amount.fracDigits amount.short,
    wholeUnits_eq amount.nonempty amount.wholeDigits]
  by_cases fits : digitsValue whole * csdBaseUnits < 2 ^ 128
  · rw [if_pos fits, if_pos fits]
    rfl
  · rw [if_neg fits, if_neg fits]
    rfl

/-- What is parsed at all is an amount. -/
theorem amount_of_parsed {n : Nat} (parsed : parseCsdBaseUnitsWith invalidAmount value = .ok n) :
    ∃ whole frac, IsAmount (trim value).toList whole frac := by
  unfold parseCsdBaseUnitsWith at parsed
  dsimp only at parsed
  split at parsed
  · cases parsed
  · rename_i passed
    simp only [Bool.or_eq_true, not_or, Bool.not_eq_true, decide_eq_false_iff_not,
      Bool.not_eq_false', List.isEmpty_eq_false_iff] at passed
    obtain ⟨⟨⟨⟨two, nonempty⟩, wholeDigits⟩, fracDigits⟩, short⟩ := passed
    refine ⟨_, _, nonempty, wholeDigits, fracDigits, Nat.not_lt.1 short, ?_⟩
    have joined : ['.'].intercalate ((trim value).toList.splitOn '.') = (trim value).toList :=
      List.intercalate_splitOn '.'
    cases parts : (trim value).toList.splitOn '.' with
    | nil => exact absurd parts (List.splitOn_ne_nil _ _)
    | cons whole rest =>
        rw [parts] at joined two
        cases rest with
        | nil =>
            refine .inl ⟨?_, rfl⟩
            rw [← joined]
            simp
        | cons frac rest =>
            cases rest with
            | nil =>
                refine .inr ?_
                rw [← joined]
                simp
            | cons _ _ => cases two

/-- The type of the error does not show in what is read. -/
theorem parse_copies {ε' : Type} (invalidAmount' : String → ε') (n : Nat) :
    parseCsdBaseUnitsWith invalidAmount value = .ok n ↔
      parseCsdBaseUnitsWith invalidAmount' value = .ok n := by
  by_cases amount : ∃ whole frac, IsAmount (trim value).toList whole frac
  · obtain ⟨whole, frac, amount⟩ := amount
    rw [parse_of_amount amount, parse_of_amount amount]
    by_cases fits : digitsValue whole * csdBaseUnits < 2 ^ 128
    · rw [if_pos fits, if_pos fits, Except.ok.injEq, Except.ok.injEq]
    · rw [if_neg fits, if_neg fits]
      constructor <;> (intro refused; cases refused)
  · constructor
    · intro parsed
      exact absurd (amount_of_parsed parsed) amount
    · intro parsed
      exact absurd (amount_of_parsed parsed) amount


end Parsed

/-- What the text of an amount should be read as, and that nothing else is read. -/
def AmountExact {ε : Type} (parse : String → Except ε Nat) (value : String) : Prop :=
  ∀ n, parse value = .ok n ↔ Denotes (trim value).toList n ∧ n < 2 ^ 128

/-- The largest whole part that passes, with a fraction past the last base unit. -/
def PastEdge (text : List Char) : Prop :=
  ∃ whole frac, IsAmount text whole frac ∧ digitsValue whole = 2 ^ 128 / csdBaseUnits ∧
    2 ^ 128 % csdBaseUnits ≤ fracUnits frac

theorem amountExact_iff {ε : Type} (invalidAmount : String → ε) (value : String) :
    AmountExact (parseCsdBaseUnitsWith invalidAmount) value ↔ ¬ PastEdge (trim value).toList := by
  by_cases amount : ∃ whole frac, IsAmount (trim value).toList whole frac
  · obtain ⟨whole, frac, amount⟩ := amount
    have fraction := fracUnits_lt amount.fracDigits amount.short
    have edge : PastEdge (trim value).toList ↔
        digitsValue whole * csdBaseUnits < 2 ^ 128 ∧ 2 ^ 128 ≤ baseUnits whole frac := by
      have sum : baseUnits whole frac = digitsValue whole * csdBaseUnits + fracUnits frac := rfl
      unfold csdBaseUnits at sum fraction ⊢
      constructor
      · rintro ⟨whole', frac', amount', atEdge, past⟩
        obtain ⟨rfl, rfl⟩ := amount.unique amount'
        unfold csdBaseUnits at atEdge past
        omega
      · rintro ⟨fits, past⟩
        refine ⟨whole, frac, amount, ?_, ?_⟩
        · unfold csdBaseUnits
          omega
        · unfold csdBaseUnits
          omega
    unfold AmountExact
    rw [edge, parse_of_amount amount]
    by_cases fits : digitsValue whole * csdBaseUnits < 2 ^ 128
    · rw [if_pos fits]
      constructor
      · rintro exact_ ⟨-, past⟩
        obtain ⟨denoted, small⟩ := (exact_ _).1 rfl
        rw [(denotes_iff amount).1 denoted] at small
        omega
      · intro inside n
        have small : baseUnits whole frac < 2 ^ 128 := by
          by_contra past
          exact inside ⟨fits, Nat.not_lt.1 past⟩
        rw [u128_of_lt small, denotes_iff amount, Except.ok.injEq]
        constructor
        · rintro rfl
          exact ⟨rfl, small⟩
        · rintro ⟨rfl, -⟩
          rfl
    · rw [if_neg fits]
      constructor
      · rintro - ⟨fits', -⟩
        exact fits fits'
      · intro _ n
        rw [denotes_iff amount]
        constructor
        · intro refused
          cases refused
        · rintro ⟨rfl, small⟩
          have whole_le : digitsValue whole * csdBaseUnits ≤ baseUnits whole frac :=
            Nat.le_add_right _ _
          omega
  · have none_ : ∀ n, parseCsdBaseUnitsWith invalidAmount value ≠ .ok n :=
      fun n parsed => amount (amount_of_parsed parsed)
    constructor
    · rintro - ⟨whole, frac, isAmount, -⟩
      exact amount ⟨whole, frac, isAmount⟩
    · intro _ n
      constructor
      · intro parsed
        exact absurd parsed (none_ n)
      · rintro ⟨⟨whole, frac, isAmount, -⟩, -⟩
        exact absurd ⟨whole, frac, isAmount⟩ amount

/-! ## Writing -/

theorem isDigit_not_blank {c : Char} (digit : c.isDigit = true) : isWhitespace c = false := by
  apply not_blank_of_hexdigit
  have bounds := Char.isDigit_iff_toNat.1 digit
  unfold isAsciiHexdigit
  simp only [Bool.or_eq_true, Bool.and_eq_true, decide_eq_true_eq, Char.le_def,
    UInt32.le_iff_toNat_le]
  exact .inl (.inl bounds)

/-- The fraction is written with eight digits. -/
theorem width_fracDigits (n : Nat) :
    ((Nat.toDigits 10 (n % csdBaseUnits)).leftpad 8 '0').length = 8 := by
  have digits : (Nat.toDigits 10 (n % csdBaseUnits)).length ≤ 8 :=
    (Nat.length_toDigits_le_iff (by decide) (by decide)).2 (Nat.mod_lt _ (by decide))
  rw [List.leftpad, List.length_append, List.length_replicate]
  omega

theorem baseUnits_digits (n : Nat) :
    baseUnits (Nat.toDigits 10 (n / csdBaseUnits))
      ((Nat.toDigits 10 (n % csdBaseUnits)).leftpad 8 '0') = n := by
  rw [baseUnits, fracUnits, Theory.digitsValue_toDigits, Theory.digitsValue_leftpad,
    Theory.digitsValue_toDigits, width_fracDigits, Nat.sub_self, Nat.pow_zero, Nat.mul_one,
    Nat.div_add_mod']

theorem amountValue_digits (n : Nat) :
    amountValue (Nat.toDigits 10 (n / csdBaseUnits))
      ((Nat.toDigits 10 (n % csdBaseUnits)).leftpad 8 '0') = (n : ℚ) / 10 ^ 8 := by
  have units : (n : ℚ) = amountValue (Nat.toDigits 10 (n / csdBaseUnits))
      ((Nat.toDigits 10 (n % csdBaseUnits)).leftpad 8 '0') * 10 ^ 8 := by
    rw [← baseUnits_eq (width_fracDigits n).le, baseUnits_digits]
  rw [units, mul_div_cancel_right₀ _ (by norm_num)]

theorem format_isAmount (n : Nat) :
    IsAmount (trim (Workers.formatUnsignedCsd n)).toList (Nat.toDigits 10 (n / csdBaseUnits))
      ((Nat.toDigits 10 (n % csdBaseUnits)).leftpad 8 '0') := by
  have wholeDigits := Theory.all_isDigit_toDigits (n / csdBaseUnits)
  have fracDigits :=
    Theory.all_isDigit_leftpad (Theory.all_isDigit_toDigits (n % csdBaseUnits)) 8
  have written : (Workers.formatUnsignedCsd n).toList = Nat.toDigits 10 (n / csdBaseUnits) ++
      '.' :: (Nat.toDigits 10 (n % csdBaseUnits)).leftpad 8 '0' := String.toList_ofList
  have trimmed : trim (Workers.formatUnsignedCsd n) = Workers.formatUnsignedCsd n := by
    apply trim_of_noBlanks
    rw [written]
    intro c member
    rcases List.mem_append.1 member with inWhole | rest
    · exact isDigit_not_blank (List.all_eq_true.1 wholeDigits c inWhole)
    · rcases List.mem_cons.1 rest with rfl | inFrac
      · decide
      · exact isDigit_not_blank (List.all_eq_true.1 fracDigits c inFrac)
  refine ⟨Nat.toDigits_ne_nil, wholeDigits, fracDigits, (width_fracDigits n).le, ?_⟩
  rw [trimmed, written]
  exact .inr rfl

theorem parse_format {ε : Type} (invalidAmount : String → ε) {n : Nat} (typed : n < 2 ^ 128) :
    parseCsdBaseUnitsWith invalidAmount (Workers.formatUnsignedCsd n) = .ok n := by
  have amount := format_isAmount n
  have fits : digitsValue (Nat.toDigits 10 (n / csdBaseUnits)) * csdBaseUnits < 2 ^ 128 := by
    rw [Theory.digitsValue_toDigits]
    exact Nat.lt_of_le_of_lt (Nat.div_mul_le_self _ _) typed
  rw [parse_of_amount amount, if_pos fits, baseUnits_digits, u128_of_lt typed]

/-- **Amounts.**  Both copies read a text as exactly its amount, or refuse it, unless the amount
begins with the largest whole part and runs past the last base unit; and what is written reads
back. -/
theorem csd_amounts (value : String) (n : Nat) :
    (AmountExact Workers.parseCsdBaseUnits value ∧ AmountExact Api.parseCsdBaseUnits value ↔
      ¬ PastEdge (trim value).toList) ∧
    (Workers.parseCsdBaseUnits value = .ok n ↔ Api.parseCsdBaseUnits value = .ok n) ∧
    (n < 2 ^ 128 →
      Workers.parseCsdBaseUnits (Workers.formatUnsignedCsd n) = .ok n ∧
      Api.parseCsdBaseUnits (Workers.formatUnsignedCsd n) = .ok n) := by
  refine ⟨?_, parse_copies _ n, fun typed => ⟨parse_format _ typed, parse_format _ typed⟩⟩
  unfold Workers.parseCsdBaseUnits Api.parseCsdBaseUnits
  rw [amountExact_iff, amountExact_iff, and_self_iff]

/-- The last amount and its text. -/
theorem csd_amounts_last :
    Workers.parseCsdBaseUnits (Workers.formatUnsignedCsd (2 ^ 128 - 1)) = .ok (2 ^ 128 - 1) :=
  ((csd_amounts "" (2 ^ 128 - 1)).2.2 (by decide)).1

def pastEdge : String := "3402823669209384634633746074317.68211456"

/-- One base unit more than there are is read as none. -/
theorem past_edge_wraps :
    Workers.parseCsdBaseUnits pastEdge = .ok 0 ∧ Denotes (trim pastEdge).toList (2 ^ 128) ∧
      ¬ AmountExact Workers.parseCsdBaseUnits pastEdge := by
  have amount : IsAmount (trim pastEdge).toList "3402823669209384634633746074317".toList
      "68211456".toList :=
    ⟨by decide +kernel, by decide +kernel, by decide +kernel, by decide +kernel,
      .inr (by decide +kernel)⟩
  refine ⟨by decide +kernel, (denotes_iff amount).2 (by decide +kernel), ?_⟩
  unfold Workers.parseCsdBaseUnits
  rw [amountExact_iff, not_not]
  exact ⟨_, _, amount, by decide +kernel, by decide +kernel⟩

end CsdPool
