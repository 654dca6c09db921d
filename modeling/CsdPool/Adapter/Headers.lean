/-
# Adapter.Headers — what the node reads is what the pool wrote

The texts that pass between the pool and an adapter node: a number as eight hex digits, a byte
string as hex, a header as 84 bytes of hex.  Each reads back as what was written, and no hex text
begins with the mark that `normalized_hash` takes off.
-/
import CsdPool.Adapter.PoolJobs
import CsdPool.Theory.BigEndian

namespace CsdPool.Adapter

set_option autoImplicit false

/-! ## Little-endian bytes -/

/-- The bytes of a number denote what fits of it. -/
theorem leValue_toLeBytes (width n : Nat) :
    leValue (toLeBytes width n).toList = n % 256 ^ width := by
  induction width generalizing n with
  | zero => simp [toLeBytes, leValue, Nat.mod_one]
  | succ width ih =>
      have rest := ih (n / 256)
      have split : n % 256 ^ (width + 1) = n % 256 + 256 * (n / 256 % 256 ^ width) := by
        rw [Nat.pow_succ', Nat.mod_mul]
      unfold leValue at rest ⊢
      rw [toLeBytes_succ, List.foldr_cons, rest, UInt8.toNat_ofNat', split]

theorem ofNat_leValue_u32 (n : UInt32) :
    UInt32.ofNat (leValue (toLeBytes 4 n.toNat).toList) = n := by
  have word : n.toNat < 256 ^ 4 := n.toNat_lt
  rw [leValue_toLeBytes, Nat.mod_eq_of_lt word, UInt32.ofNat_toNat]

theorem ofNat_leValue_u64 (n : UInt64) :
    UInt64.ofNat (leValue (toLeBytes 8 n.toNat).toList) = n := by
  have word : n.toNat < 256 ^ 8 := n.toNat_lt
  rw [leValue_toLeBytes, Nat.mod_eq_of_lt word, UInt64.ofNat_toNat]

theorem value_append_byte (bytes : List UInt8) (last : UInt8) :
    Theory.BigEndian.value (bytes ++ [last]) =
      Theory.BigEndian.value bytes * 256 + last.toNat := by
  induction bytes with
  | nil => simp [Theory.BigEndian.value]
  | cons byte rest ih =>
      rw [List.cons_append, Theory.BigEndian.value, ih, Theory.BigEndian.value, List.length_append,
        List.length_singleton]
      ring

theorem value_reverse (bytes : List UInt8) :
    Theory.BigEndian.value bytes.reverse = leValue bytes := by
  induction bytes with
  | nil => rfl
  | cons byte rest ih =>
      rw [List.reverse_cons, value_append_byte, ih]
      show leValue rest * 256 + byte.toNat = byte.toNat + 256 * leValue rest
      ring

/-! ## Hex digits -/

/-- Reading the digits of a byte string on top of a number so far. -/
theorem foldlM_pushHexDigit_hexEncode (bytes : List UInt8) (a : Nat)
    (fits : a * 256 ^ bytes.length + Theory.BigEndian.value bytes < 2 ^ 32) :
    (hexEncode bytes).toList.foldlM pushHexDigit a =
      some (a * 256 ^ bytes.length + Theory.BigEndian.value bytes) := by
  unfold hexEncode
  rw [String.toList_ofList]
  induction bytes generalizing a with
  | nil => simp [Theory.BigEndian.value]
  | cons byte rest ih =>
      have size := byte.toNat_lt
      obtain ⟨high, -⟩ := written_digits_table ⟨byte.toNat / 16, by omega⟩
      obtain ⟨low, -⟩ := written_digits_table ⟨byte.toNat % 16, by omega⟩
      dsimp only at high low
      have whole : 16 * (16 * a + byte.toNat / 16) + byte.toNat % 16 = 256 * a + byte.toNat := by
        omega
      have regrouped : a * 256 ^ (byte :: rest).length + Theory.BigEndian.value (byte :: rest) =
          (256 * a + byte.toNat) * 256 ^ rest.length + Theory.BigEndian.value rest := by
        rw [Theory.BigEndian.value, List.length_cons]
        ring
      have powerPos : 1 ≤ 256 ^ rest.length := Nat.one_le_pow _ _ (by decide)
      have below : 256 * a + byte.toNat < 2 ^ 32 := by
        have lower : 256 * a + byte.toNat ≤ (256 * a + byte.toNat) * 256 ^ rest.length :=
          Nat.le_mul_of_pos_right _ powerPos
        omega
      have pushedHigh : pushHexDigit a (hexDigitChar (byte.toNat / 16)) =
          some (16 * a + byte.toNat / 16) := by
        unfold pushHexDigit
        rw [high]
        exact if_pos (by omega)
      have pushedLow : pushHexDigit (16 * a + byte.toNat / 16) (hexDigitChar (byte.toNat % 16)) =
          some (256 * a + byte.toNat) := by
        unfold pushHexDigit
        rw [low]
        show (if _ then some _ else none) = _
        rw [whole]
        exact if_pos below
      rw [regrouped] at fits ⊢
      rw [List.flatMap_cons, List.cons_append, List.cons_append, List.nil_append,
        List.foldlM_cons, pushedHigh]
      show List.foldlM pushHexDigit _ _ = _
      rw [List.foldlM_cons, pushedLow]
      exact ih (256 * a + byte.toNat) fits

theorem utf8ByteSize_ofList {chars : List Char} (ascii : ∀ c ∈ chars, c.toNat < 128) :
    (String.ofList chars).utf8ByteSize = chars.length := by
  induction chars with
  | nil => rfl
  | cons c rest ih =>
      have one : c.utf8Size = 1 := by
        rw [Char.utf8Size_eq_one_iff, UInt32.le_iff_toNat_le]
        exact Nat.le_of_lt_succ (ascii c (List.mem_cons_self ..))
      have split : String.ofList (c :: rest) = String.singleton c ++ String.ofList rest := by
        apply String.toList_inj.1
        simp
      rw [split, String.utf8ByteSize_append, String.utf8ByteSize_singleton, one,
        ih fun d member => ascii d (List.mem_cons_of_mem _ member), List.length_cons]
      omega

/-- Two digits for each byte. -/
theorem utf8ByteSize_hexEncode (bytes : List UInt8) :
    (hexEncode bytes).utf8ByteSize = 2 * bytes.length := by
  have ascii : ∀ c ∈ (hexEncode bytes).toList, c.toNat < 128 := by
    intro c member
    have digit := hexEncode_digits bytes c member
    unfold isLowerHexdigit at digit
    simp only [Bool.or_eq_true, Bool.and_eq_true, decide_eq_true_eq] at digit
    have byte : c.toNat ≤ 'f'.toNat := by
      rcases digit with digit | digit
      · exact le_trans digit.2 (by decide)
      · exact digit.2
    exact lt_of_le_of_lt byte (by decide)
  have size := utf8ByteSize_ofList ascii
  rw [String.ofList_toList] at size
  rw [size, beq_iff_eq.1 (Bool.and_eq_true_iff.1 (matchesLowerHex_hexEncode bytes)).1]

/-- A text of digits has no sign. -/
theorem u32FromStrRadix16_hexEncode {bytes : List UInt8} (present : bytes ≠ [])
    (fits : Theory.BigEndian.value bytes < 2 ^ 32) :
    u32FromStrRadix16 (hexEncode bytes) =
      some (UInt32.ofNat (Theory.BigEndian.value bytes)) := by
  have read := foldlM_pushHexDigit_hexEncode bytes 0 (by omega)
  rw [Nat.zero_mul, Nat.zero_add] at read
  have digits := hexEncode_digits bytes
  have nonempty := hexEncode_ne_nil present
  unfold u32FromStrRadix16
  dsimp only
  split
  · rename_i rest here
    have sign := digits '+' (by rw [here]; exact List.mem_cons_self ..)
    exact absurd sign (by decide)
  · rw [read, if_neg (by rwa [List.isEmpty_iff])]
    rfl

/-- **Eight digits read back as the number they were written from.** -/
theorem parseU32Hex_hex08 (field : String) (n : UInt32) :
    parseU32Hex field (hex08 n) = .ok n := by
  have present : (toLeBytes 4 n.toNat).toList.reverse ≠ [] := by
    intro none_
    have length := congrArg List.length none_
    rw [List.length_reverse, List.Vector.toList_length] at length
    exact absurd length (by decide)
  have word : n.toNat < 256 ^ 4 := n.toNat_lt
  have value : Theory.BigEndian.value (toLeBytes 4 n.toNat).toList.reverse = n.toNat := by
    rw [value_reverse, leValue_toLeBytes, Nat.mod_eq_of_lt word]
  unfold parseU32Hex hex08
  rw [u32FromStrRadix16_hexEncode present (by rw [value]; exact n.toNat_lt), value,
    UInt32.ofNat_toNat]

/-- Nothing is taken off a hex text. -/
theorem normalizedHash_hexEncode (bytes : List UInt8) :
    normalizedHash (hexEncode bytes) = hexEncode bytes := by
  unfold normalizedHash
  rw [stripPrefix_hexEncode bytes (c := 'x') (by decide) (by decide)]
  rfl

theorem eqIgnoreAsciiCase_self (text : String) : eqIgnoreAsciiCase text text = true := by
  unfold eqIgnoreAsciiCase
  exact beq_self_eq_true _

/-! ## Headers -/

theorem toList_bytes (header : BlockHeader) :
    header.bytes.toList = (toLeBytes 4 header.version.toNat).toList ++ header.prev.toList ++
      header.merkle.toList ++ (toLeBytes 8 header.time.toNat).toList ++
        (toLeBytes 4 header.bits.toNat).toList ++ (toLeBytes 4 header.nonce.toNat).toList := by
  exact toList_header84 ..

/-- What stands after a front. -/
theorem slice_eq {n start width : Nat} {bytes : Bytes n} (front : List UInt8)
    (piece : Bytes width) (begins : front ++ piece.toList <+: bytes.toList)
    (length : front.length = start) (fits : start + width ≤ n) :
    slice bytes start width fits = piece := by
  obtain ⟨back, split⟩ := begins
  apply List.Vector.eq
  show (bytes.toList.drop start).take width = piece.toList
  rw [← split, List.append_assoc, List.drop_left' length, List.take_left' piece.toList_length]

/-- **A header reads back from its hex.** -/
theorem decodePoolHeader_bytes (header : BlockHeader) :
    decodePoolHeader (hexEncode header.bytes.toList) = .ok header := by
  let v := (toLeBytes 4 header.version.toNat).toList
  let t := (toLeBytes 8 header.time.toNat).toList
  let b := (toLeBytes 4 header.bits.toNat).toList
  have pieces : header.bytes.toList = v ++ header.prev.toList ++ header.merkle.toList ++ t ++ b ++
      (toLeBytes 4 header.nonce.toNat).toList := toList_bytes header
  have widths : v.length = 4 ∧ t.length = 8 ∧ b.length = 4 := by
    simp only [v, t, b, List.Vector.toList_length, and_self]
  have version : slice header.bytes 0 4 (by decide) = toLeBytes 4 header.version.toNat :=
    slice_eq [] _ (by rw [pieces]; simp only [List.append_assoc, List.nil_append, v,
      List.prefix_append]) rfl _
  have prev : slice header.bytes 4 32 (by decide) = header.prev :=
    slice_eq v _ (by rw [pieces]; simp only [List.append_assoc, List.prefix_append_right_inj,
      List.prefix_append]) widths.1 _
  have merkle : slice header.bytes 36 32 (by decide) = header.merkle :=
    slice_eq (v ++ header.prev.toList) _ (by rw [pieces]; simp only [List.append_assoc,
      List.prefix_append_right_inj, List.prefix_append])
      (by simp only [List.length_append, widths, List.Vector.toList_length]) _
  have time : slice header.bytes 68 8 (by decide) = toLeBytes 8 header.time.toNat :=
    slice_eq (v ++ header.prev.toList ++ header.merkle.toList) _ (by rw [pieces]; simp only
      [List.append_assoc, List.prefix_append_right_inj, List.prefix_append, t])
      (by simp only [List.length_append, widths, List.Vector.toList_length]) _
  have bits : slice header.bytes 76 4 (by decide) = toLeBytes 4 header.bits.toNat :=
    slice_eq (v ++ header.prev.toList ++ header.merkle.toList ++ t) _ (by rw [pieces]; simp only
      [List.append_assoc, List.prefix_append_right_inj, List.prefix_append, b])
      (by simp only [List.length_append, widths, List.Vector.toList_length]) _
  have nonce : slice header.bytes 80 4 (by decide) = toLeBytes 4 header.nonce.toNat :=
    slice_eq (v ++ header.prev.toList ++ header.merkle.toList ++ t ++ b) _
      ⟨[], by rw [pieces, List.append_nil]⟩
      (by simp only [List.length_append, widths, List.Vector.toList_length]) _
  unfold decodePoolHeader
  rw [normalizedHash_hexEncode, hexDecode_hexEncode]
  dsimp only
  rw [dif_pos header.bytes.toList_length]
  have whole : (⟨header.bytes.toList, header.bytes.toList_length⟩ : Bytes 84) = header.bytes := rfl
  rw [whole, version, prev, merkle, time, bits, nonce, ofNat_leValue_u32, ofNat_leValue_u64,
    ofNat_leValue_u32, ofNat_leValue_u32]

end CsdPool.Adapter
