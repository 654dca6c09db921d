/-
# Text — the standard-library string functions the pool calls

`str` methods act on the characters (`String.toList`).  The byte tests the
source makes (`len()`, `bytes().all(...)`) are only used together with an
all-ASCII test, where bytes and characters coincide.  `hexEncode`/`hexDecode`
are `hex::encode` (lower case) and `hex::decode` (either case, even length).
-/
import Mathlib.Data.String.Basic

namespace CsdPool

set_option autoImplicit false

/-- `u8::is_ascii_hexdigit`. -/
def isAsciiHexdigit (c : Char) : Bool :=
  ('0' ≤ c && c ≤ '9') || ('a' ≤ c && c ≤ 'f') || ('A' ≤ c && c ≤ 'F')

/-- `[0-9a-f]`, the character class of the schema's check constraints. -/
def isLowerHexdigit (c : Char) : Bool :=
  ('0' ≤ c && c ≤ '9') || ('a' ≤ c && c ≤ 'f')

/-- `value ~ '^[0-9a-f]{n}$'`. -/
def matchesLowerHex (n : Nat) (value : String) : Bool :=
  value.toList.length == n && value.toList.all isLowerHexdigit

def stripPrefixChars : List Char → List Char → Option (List Char)
  | [], text => some text
  | _ :: _, [] => none
  | p :: ps, c :: cs => if p = c then stripPrefixChars ps cs else none

/-- `text.strip_prefix(pattern)`. -/
def stripPrefix (pattern text : String) : Option String :=
  (stripPrefixChars pattern.toList text.toList).map String.ofList

/-- Drop a nonempty pattern from the front as often as it occurs. -/
def trimStartChars (pattern : List Char) : Nat → List Char → List Char
  | 0, text => text
  | fuel + 1, text =>
      match stripPrefixChars pattern text with
      | some rest => trimStartChars pattern fuel rest
      | none => text

/-- `text.trim_start_matches(pattern)`; the length bounds the number of matches. -/
def trimStartMatches (pattern text : String) : String :=
  String.ofList (trimStartChars pattern.toList text.toList.length text.toList)

/-- `char::is_whitespace`: the characters of the Unicode property `White_Space`. -/
def isWhitespace (c : Char) : Bool :=
  (0x09 ≤ c.toNat && c.toNat ≤ 0x0d) || (0x2000 ≤ c.toNat && c.toNat ≤ 0x200a) ||
    [0x20, 0x85, 0xa0, 0x1680, 0x2028, 0x2029, 0x202f, 0x205f, 0x3000].contains c.toNat

/-- `text.trim()`. -/
def trim (text : String) : String :=
  String.ofList ((text.toList.dropWhile isWhitespace).reverse.dropWhile isWhitespace).reverse

/-- `text` without one `0x` or `0X` in front. -/
def stripMark (text : String) : String :=
  ((stripPrefix "0x" text).orElse fun _ => stripPrefix "0X" text).getD text

def toAsciiLowercase (text : String) : String :=
  String.ofList (text.toList.map Char.toLower)

def eqIgnoreAsciiCase (a b : String) : Bool :=
  a.toList.map Char.toLower == b.toList.map Char.toLower

def containsChars (pattern : List Char) : List Char → Bool
  | [] => pattern.isEmpty
  | c :: cs => (stripPrefixChars pattern (c :: cs)).isSome || containsChars pattern cs

/-- `text.contains(pattern)`. -/
def containsText (text pattern : String) : Bool :=
  containsChars pattern.toList text.toList

/-! ## Hex -/

def hexDigitChar (n : Nat) : Char :=
  if n < 10 then Char.ofNat (48 + n) else Char.ofNat (87 + n)

def hexEncode (bytes : List UInt8) : String :=
  String.ofList (bytes.flatMap fun b => [hexDigitChar (b.toNat / 16), hexDigitChar (b.toNat % 16)])

/-- The value of a hex digit in either case. -/
def hexDigitValue (c : Char) : Option Nat :=
  if '0' ≤ c ∧ c ≤ '9' then some (c.toNat - 48)
  else if 'a' ≤ c ∧ c ≤ 'f' then some (c.toNat - 87)
  else if 'A' ≤ c ∧ c ≤ 'F' then some (c.toNat - 55)
  else none

def hexDecodeChars : List Char → Option (List UInt8)
  | [] => some []
  | [_] => none
  | hi :: lo :: rest =>
      match hexDigitValue hi, hexDigitValue lo, hexDecodeChars rest with
      | some h, some l, some bytes => some (UInt8.ofNat (16 * h + l) :: bytes)
      | _, _, _ => none

def hexDecode (text : String) : Option (List UInt8) := hexDecodeChars text.toList

/-! ## Characters -/

/-- The ASCII characters, for what a table decides. -/
theorem ascii_cases {c : Char} (ascii : c.toNat < 128) : ∃ n : Fin 128, Char.ofNat n = c :=
  ⟨⟨c.toNat, ascii⟩, Char.ofNat_toNat c⟩

/-- Only the upper-case letters of ASCII change. -/
theorem toLower_of_wide {c : Char} (wide : ¬ c.toNat < 128) : c.toLower = c := by
  unfold Char.toLower
  rw [dif_neg]
  intro upper
  have bound := UInt32.le_iff_toNat_le.1 upper.2
  exact wide (Nat.lt_of_le_of_lt bound (by decide))

theorem isAsciiHexdigit_lt {c : Char} (digit : isAsciiHexdigit c = true) : c.toNat < 128 := by
  simp only [isAsciiHexdigit, Bool.or_eq_true, Bool.and_eq_true, decide_eq_true_eq,
    Char.le_def, UInt32.le_iff_toNat_le] at digit
  rcases digit with (decimal | lower) | upper
  · exact Nat.lt_of_le_of_lt decimal.2 (by decide)
  · exact Nat.lt_of_le_of_lt lower.2 (by decide)
  · exact Nat.lt_of_le_of_lt upper.2 (by decide)

/-! ## One number, one lower-case spelling -/

theorem lower_digits_table : ∀ n : Fin 128,
    (hexDigitValue (Char.ofNat n)).all (fun v =>
      decide (v < 16) && decide ((Char.ofNat n).toLower = hexDigitChar v)) = true := by
  decide

theorem isAsciiHexdigit_of_value {c : Char} {v : Nat} (value : hexDigitValue c = some v) :
    isAsciiHexdigit c = true := by
  unfold hexDigitValue at value
  unfold isAsciiHexdigit
  simp only [Bool.or_eq_true, Bool.and_eq_true, decide_eq_true_eq]
  split at value
  · rename_i decimal
    exact .inl (.inl decimal)
  · split at value
    · rename_i lower
      exact .inl (.inr lower)
    · split at value
      · rename_i upper
        exact .inr upper
      · cases value

/-- A hex digit in lower case is the digit `hex::encode` writes for its value. -/
theorem toLower_hexDigit {c : Char} {v : Nat} (value : hexDigitValue c = some v) :
    v < 16 ∧ c.toLower = hexDigitChar v := by
  obtain ⟨n, rfl⟩ := ascii_cases (isAsciiHexdigit_lt (isAsciiHexdigit_of_value value))
  have entry := lower_digits_table n
  rw [value] at entry
  exact ⟨of_decide_eq_true (Bool.and_eq_true_iff.1 entry).1,
    of_decide_eq_true (Bool.and_eq_true_iff.1 entry).2⟩

theorem toLower_of_hexDecodeChars : ∀ {text : List Char} {bytes : List UInt8},
    hexDecodeChars text = some bytes →
      text.map Char.toLower =
        bytes.flatMap fun b => [hexDigitChar (b.toNat / 16), hexDigitChar (b.toNat % 16)]
  | [], bytes, decoded => by
      cases decoded
      rfl
  | [_], bytes, decoded => by cases decoded
  | hi :: lo :: rest, bytes, decoded => by
      unfold hexDecodeChars at decoded
      split at decoded
      · rename_i h l tail high low decodedTail
        cases decoded
        obtain ⟨boundHigh, lowerHigh⟩ := toLower_hexDigit high
        obtain ⟨boundLow, lowerLow⟩ := toLower_hexDigit low
        have byte : (UInt8.ofNat (16 * h + l)).toNat = 16 * h + l := by
          rw [UInt8.toNat_ofNat']
          omega
        have quotient : (16 * h + l) / 16 = h := by omega
        have remainder : (16 * h + l) % 16 = l := by omega
        rw [List.map_cons, List.map_cons, List.flatMap_cons, byte, quotient, remainder, lowerHigh,
          lowerLow, toLower_of_hexDecodeChars decodedTail]
        rfl
      · cases decoded

/-- What decodes has one lower-case spelling: that of its bytes. -/
theorem toAsciiLowercase_of_hexDecode {text : String} {bytes : List UInt8}
    (decoded : hexDecode text = some bytes) : toAsciiLowercase text = hexEncode bytes := by
  unfold toAsciiLowercase hexEncode
  rw [toLower_of_hexDecodeChars decoded]

theorem toLower_digits_table : ∀ n : Fin 128,
    hexDigitValue (Char.ofNat n).toLower = hexDigitValue (Char.ofNat n) := by
  decide

/-- The case of a letter does not matter to its value as a digit. -/
theorem hexDigitValue_toLower (c : Char) : hexDigitValue c.toLower = hexDigitValue c := by
  by_cases ascii : c.toNat < 128
  · obtain ⟨n, rfl⟩ := ascii_cases ascii
    exact toLower_digits_table n
  · rw [toLower_of_wide ascii]

theorem hexDecodeChars_toLower : ∀ text : List Char,
    hexDecodeChars (text.map Char.toLower) = hexDecodeChars text
  | [] => rfl
  | [_] => rfl
  | hi :: lo :: rest => by
      rw [List.map_cons, List.map_cons, hexDecodeChars, hexDecodeChars, hexDigitValue_toLower,
        hexDigitValue_toLower, hexDecodeChars_toLower rest]

theorem hexDigitValue_isSome {c : Char} (digit : isAsciiHexdigit c = true) :
    (hexDigitValue c).isSome = true := by
  simp only [isAsciiHexdigit, Bool.or_eq_true, Bool.and_eq_true, decide_eq_true_eq] at digit
  unfold hexDigitValue
  split
  · rfl
  · split
    · rfl
    · split
      · rfl
      · rename_i decimal lower upper
        rcases digit with (decimal' | lower') | upper'
        · exact absurd decimal' decimal
        · exact absurd lower' lower
        · exact absurd upper' upper

/-- Hex digits in pairs decode. -/
theorem hexDecodeChars_isSome : ∀ {n : Nat} {text : List Char},
    text.length = 2 * n → text.all isAsciiHexdigit = true →
      (hexDecodeChars text).isSome = true
  | 0, text, length, _ => by
      rw [List.length_eq_zero_iff.1 length]
      rfl
  | n + 1, text, length, digits => by
      match text with
      | [] => rfl
      | [_] =>
          rw [List.length_singleton] at length
          omega
      | hi :: lo :: rest =>
          rw [List.all_cons, List.all_cons, Bool.and_eq_true_iff, Bool.and_eq_true_iff] at digits
          obtain ⟨high, low, tail⟩ := digits
          have shorter : rest.length = 2 * n := by
            rw [List.length_cons, List.length_cons] at length
            omega
          obtain ⟨h, valueHigh⟩ := Option.isSome_iff_exists.1 (hexDigitValue_isSome high)
          obtain ⟨l, valueLow⟩ := Option.isSome_iff_exists.1 (hexDigitValue_isSome low)
          obtain ⟨bytes, decoded⟩ := Option.isSome_iff_exists.1
            (hexDecodeChars_isSome shorter tail)
          unfold hexDecodeChars
          rw [valueHigh, valueLow, decoded]
          rfl

/-! ## One spelling -/

theorem written_digits_table : ∀ v : Fin 16,
    hexDigitValue (hexDigitChar v) = some v.val ∧ isLowerHexdigit (hexDigitChar v) = true := by
  decide

/-- What is written in hex reads back. -/
theorem hexDecode_hexEncode (bytes : List UInt8) : hexDecode (hexEncode bytes) = some bytes := by
  unfold hexDecode hexEncode
  rw [String.toList_ofList]
  induction bytes with
  | nil => rfl
  | cons byte rest ih =>
      have size := byte.toNat_lt
      obtain ⟨high, -⟩ := written_digits_table ⟨byte.toNat / 16, by omega⟩
      obtain ⟨low, -⟩ := written_digits_table ⟨byte.toNat % 16, by omega⟩
      dsimp only at high low
      have whole : 16 * (byte.toNat / 16) + byte.toNat % 16 = byte.toNat := by omega
      rw [List.flatMap_cons, List.cons_append, List.cons_append, List.nil_append, hexDecodeChars,
        high, low, ih]
      dsimp only
      rw [whole, UInt8.ofNat_toNat]

/-- And it is written in the one spelling. -/
theorem matchesLowerHex_hexEncode (bytes : List UInt8) :
    matchesLowerHex (2 * bytes.length) (hexEncode bytes) = true := by
  unfold matchesLowerHex hexEncode
  rw [String.toList_ofList]
  induction bytes with
  | nil => rfl
  | cons byte rest ih =>
      rw [Bool.and_eq_true_iff, beq_iff_eq] at ih ⊢
      have size := byte.toNat_lt
      obtain ⟨-, high⟩ := written_digits_table ⟨byte.toNat / 16, by omega⟩
      obtain ⟨-, low⟩ := written_digits_table ⟨byte.toNat % 16, by omega⟩
      dsimp only at high low
      rw [List.flatMap_cons, List.length_append, List.all_append, ih.1, ih.2]
      refine ⟨?_, by simp [high, low]⟩
      simp only [List.length_cons, List.length_nil]
      omega

theorem lowerHex_table : ∀ n : Fin 128,
    isLowerHexdigit (Char.ofNat n) = true → (Char.ofNat n).toLower = Char.ofNat n := by
  decide

theorem toLower_of_lowerHex {c : Char} (lower : isLowerHexdigit c = true) : c.toLower = c := by
  have ascii : c.toNat < 128 := by
    simp only [isLowerHexdigit, Bool.or_eq_true, Bool.and_eq_true, decide_eq_true_eq,
      Char.le_def, UInt32.le_iff_toNat_le] at lower
    rcases lower with digit | digit
    · exact Nat.lt_of_le_of_lt digit.2 (by decide)
    · exact Nat.lt_of_le_of_lt digit.2 (by decide)
  obtain ⟨n, rfl⟩ := ascii_cases ascii
  exact lowerHex_table n lower

theorem toAsciiLowercase_of_lowerHex {n : Nat} {text : String}
    (lower : matchesLowerHex n text = true) : toAsciiLowercase text = text := by
  have digits := (Bool.and_eq_true_iff.1 lower).2
  have same : text.toList.map Char.toLower = text.toList := by
    apply (List.map_congr_left ?_).trans (List.map_id _)
    intro c member
    exact toLower_of_lowerHex (List.all_eq_true.1 digits c member)
  unfold toAsciiLowercase
  rw [same, String.ofList_toList]

/-- Equal numbers in the admitted spelling are equal texts. -/
theorem hexDecode_unique {n : Nat} {a b : String} {bytes : List UInt8}
    (lower : matchesLowerHex n a = true) (lower' : matchesLowerHex n b = true)
    (decoded : hexDecode a = some bytes) (decoded' : hexDecode b = some bytes) : a = b := by
  rw [← toAsciiLowercase_of_lowerHex lower, ← toAsciiLowercase_of_lowerHex lower',
    toAsciiLowercase_of_hexDecode decoded, toAsciiLowercase_of_hexDecode decoded']

/-! ## Prefixes -/

theorem stripPrefixChars_iff {pattern text rest : List Char} :
    stripPrefixChars pattern text = some rest ↔ text = pattern ++ rest := by
  induction pattern generalizing text with
  | nil => simp [stripPrefixChars]
  | cons p ps ih =>
      cases text with
      | nil => simp [stripPrefixChars]
      | cons c cs =>
          unfold stripPrefixChars
          by_cases same : p = c
          · rw [if_pos same, ih, same, List.cons_append, List.cons.injEq]
            tauto
          · rw [if_neg same, List.cons_append, List.cons.injEq]
            simp [Ne.symm same]

theorem stripPrefix_iff {pattern text rest : String} :
    stripPrefix pattern text = some rest ↔ text.toList = pattern.toList ++ rest.toList := by
  unfold stripPrefix
  rw [Option.map_eq_some_iff, ← stripPrefixChars_iff]
  constructor
  · rintro ⟨chars, stripped, rfl⟩
    rwa [String.toList_ofList]
  · intro stripped
    exact ⟨rest.toList, stripped, String.ofList_toList⟩

theorem stripPrefix_none {pattern text : String} :
    stripPrefix pattern text = none ↔ ∀ rest, text.toList ≠ pattern.toList ++ rest := by
  rw [Option.eq_none_iff_forall_not_mem]
  constructor
  · intro none_ rest same
    refine none_ (String.ofList rest) (stripPrefix_iff.2 ?_)
    rwa [String.toList_ofList]
  · intro none_ rest stripped
    exact none_ _ (stripPrefix_iff.1 stripped)

theorem hexEncode_digits (bytes : List UInt8) :
    ∀ c ∈ (hexEncode bytes).toList, isLowerHexdigit c = true :=
  List.all_eq_true.1 (Bool.and_eq_true_iff.1 (matchesLowerHex_hexEncode bytes)).2

theorem hexEncode_ne_nil {bytes : List UInt8} (present : bytes ≠ []) :
    (hexEncode bytes).toList ≠ [] := by
  have length := beq_iff_eq.1 (Bool.and_eq_true_iff.1 (matchesLowerHex_hexEncode bytes)).1
  have positive := List.length_pos_iff.2 present
  exact List.ne_nil_of_length_pos (by omega)

/-- A hex text has no front with anything but hex digits in it. -/
theorem stripPrefix_hexEncode {pattern : String} (bytes : List UInt8) {c : Char}
    (inPattern : c ∈ pattern.toList) (notDigit : isLowerHexdigit c = false) :
    stripPrefix pattern (hexEncode bytes) = none := by
  refine stripPrefix_none.2 fun rest same => ?_
  have digit := hexEncode_digits bytes c (by rw [same]; exact List.mem_append_left _ inPattern)
  rw [notDigit] at digit
  cases digit

theorem isAsciiHexdigit_of_lower {c : Char} (lower : isLowerHexdigit c = true) :
    isAsciiHexdigit c = true := by
  unfold isAsciiHexdigit
  unfold isLowerHexdigit at lower
  rw [lower]
  rfl

theorem stripMark_split (text : String) : ∃ mark : List Char,
    (mark = [] ∨ mark = ['0', 'x'] ∨ mark = ['0', 'X']) ∧
      text.toList = mark ++ (stripMark text).toList := by
  unfold stripMark
  cases lower : stripPrefix "0x" text with
  | some rest => exact ⟨['0', 'x'], .inr (.inl rfl), stripPrefix_iff.1 lower⟩
  | none =>
      cases upper : stripPrefix "0X" text with
      | some rest => exact ⟨['0', 'X'], .inr (.inr rfl), stripPrefix_iff.1 upper⟩
      | none => exact ⟨[], .inl rfl, rfl⟩

/-- A single character comes off the front as long as it is there. -/
theorem trimStartChars_singleton (c : Char) :
    ∀ {fuel : Nat} {text : List Char}, text.length ≤ fuel →
      trimStartChars [c] fuel text = text.dropWhile (c = ·)
  | 0, text, long => by
      rw [List.length_eq_zero_iff.1 (Nat.le_zero.1 long)]
      rfl
  | fuel + 1, [], _ => rfl
  | fuel + 1, d :: rest, long => by
      rw [trimStartChars, stripPrefixChars, List.dropWhile_cons]
      by_cases same : c = d
      · rw [if_pos same, if_pos (decide_eq_true same)]
        exact trimStartChars_singleton c (Nat.le_of_succ_le_succ long)
      · rw [if_neg same, if_neg (by simpa using same)]

/-! ## Blanks -/

theorem dropWhile_of_head {p : Char → Bool} {text : List Char}
    (head : ∀ c, text.head? = some c → p c = false) : text.dropWhile p = text := by
  cases text with
  | nil => rfl
  | cons c rest => rw [List.dropWhile_cons, head c rfl, if_neg Bool.false_ne_true]

theorem trim_of_noBlanks {text : String}
    (blankless : ∀ c ∈ text.toList, isWhitespace c = false) : trim text = text := by
  have front : text.toList.dropWhile isWhitespace = text.toList :=
    dropWhile_of_head fun c head => blankless c (List.mem_of_head? head)
  have back : text.toList.reverse.dropWhile isWhitespace = text.toList.reverse :=
    dropWhile_of_head fun c head =>
      blankless c (List.mem_reverse.1 (List.mem_of_head? head))
  rw [trim, front, back, List.reverse_reverse, String.ofList_toList]

theorem blank_table : ∀ n : Fin 128,
    (isWhitespace (Char.ofNat n) = true → (Char.ofNat n).toLower = Char.ofNat n ∧
      isAsciiHexdigit (Char.ofNat n) = false) := by
  decide

theorem toLower_of_blank {c : Char} (blank : isWhitespace c = true) : c.toLower = c := by
  by_cases ascii : c.toNat < 128
  · obtain ⟨n, rfl⟩ := ascii_cases ascii
    exact (blank_table n blank).1
  · exact toLower_of_wide ascii

theorem not_blank_of_hexdigit {c : Char} (digit : isAsciiHexdigit c = true) :
    isWhitespace c = false := by
  by_contra blank
  obtain ⟨n, rfl⟩ := ascii_cases (isAsciiHexdigit_lt digit)
  rw [(blank_table n (by simpa using blank)).2] at digit
  cases digit

/-- What decodes is pairs of hex digits. -/
theorem hexDecodeChars_digits : ∀ {text : List Char} {bytes : List UInt8},
    hexDecodeChars text = some bytes →
      text.length = 2 * bytes.length ∧ text.all isAsciiHexdigit = true
  | [], bytes, decoded => by
      cases decoded
      exact ⟨rfl, rfl⟩
  | [_], bytes, decoded => by cases decoded
  | hi :: lo :: rest, bytes, decoded => by
      unfold hexDecodeChars at decoded
      split at decoded
      · rename_i h l tail high low decodedTail
        cases decoded
        obtain ⟨length, digits⟩ := hexDecodeChars_digits decodedTail
        rw [List.all_cons, List.all_cons, isAsciiHexdigit_of_value high,
          isAsciiHexdigit_of_value low, digits]
        simp only [List.length_cons, length]
        exact ⟨by omega, rfl⟩
      · cases decoded

end CsdPool
