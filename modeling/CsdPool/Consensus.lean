/-
# Consensus — work templates, headers and share verification

`csd-pool-consensus`.  A share is verified by rebuilding what the miner hashed:
coinbase, its txid, the merkle root over the job's branch, the 84-byte header, and
its double digest, which is compared with a target as a byte string (big-endian, so
the order is that of the numbers).

The digest is `sha2::Sha256`, an argument of everything here; a digest of
fixed-width bytes makes every length below a type.  Difficulties are rationals: a
session's difficulty is finite, so the `is_finite` test of `target_for_difficulty`
never fails on one.
-/
import CsdPool.Text
import Mathlib.Data.Rat.Floor
import Mathlib.Data.Vector.Basic
import Mathlib.Tactic.Ring

namespace CsdPool

set_option autoImplicit false

/-- A byte array of a fixed length. -/
abbrev Bytes (n : Nat) := List.Vector UInt8 n

/-- A hash or a target, as its 32 bytes. -/
abbrev Hash32 := Bytes 32

/-- `Sha256::digest`. -/
abbrev Digest := List UInt8 → Hash32

inductive ConsensusError
  | wrongLength (field : String) (expected actual : Nat)
  | invalidHex (field : String)
  | invalidIntegerHex (field : String)
  | lowDifficultyShare
  deriving DecidableEq, Repr

/-- What a share is checked against: the fields of the header that the pool fixes, the two targets,
and the parts the coinbase and the merkle root are made of. -/
structure WorkTemplate where
  jobId : String
  version : UInt32
  prev : Hash32
  time : UInt64
  bits : UInt32
  shareTarget : Hash32
  networkTarget : Hash32
  coinbasePrefix : List UInt8
  coinbaseSuffix : List UInt8
  merkleBranch : List Hash32
  deriving DecidableEq

/-- What a miner chooses. -/
structure SubmitSolution where
  extranonce2Le : Bytes 4
  ntime : UInt32
  nonce : UInt32
  deriving DecidableEq

/-- A share that met its target, with what was computed on the way. -/
structure VerifiedShare where
  hash : Hash32
  header : Bytes 84
  coinbaseTxid : Hash32
  merkleRoot : Hash32
  isBlockCandidate : Bool
  deriving DecidableEq

/-! ## Reading hex -/

/-- The decoded bytes of a hex text that denotes exactly `n` of them. -/
def decodeHex (n : Nat) (field value : String) : Except ConsensusError (Bytes n) :=
  match hexDecode value with
  | none => .error (.invalidHex field)
  | some bytes =>
      if length : bytes.length = n then .ok ⟨bytes, length⟩
      else .error (.wrongLength field n bytes.length)

def decodeHash32Hex (field value : String) : Except ConsensusError Hash32 := decodeHex 32 field value

/-- The text gives the bytes from the last to the first. -/
def decodePrevHashFromStratum (value : String) : Except ConsensusError Hash32 :=
  (decodeHash32Hex "prev_hash_be_hex" value).map fun hash =>
    ⟨hash.toList.reverse, by rw [List.length_reverse, hash.toList_length]⟩

/-- One digit of `u32::from_str_radix(text, 16)`: the value so far must fit. -/
def pushHexDigit (value : Nat) (c : Char) : Option Nat :=
  (hexDigitValue c).bind fun digit =>
    if 16 * value + digit < 2 ^ 32 then some (16 * value + digit) else none

/-- `u32::from_str_radix(text, 16)`: a leading `+` is allowed, an empty text is not,
and there may be any number of digits in either case. -/
def u32FromStrRadix16 (text : String) : Option UInt32 :=
  let digits := match text.toList with
    | '+' :: digits => digits
    | digits => digits
  if digits.isEmpty then none else (digits.foldlM pushHexDigit 0).map UInt32.ofNat

/-- A number in hex, as `ntime` and `nonce` are sent. -/
def parseU32Hex (field value : String) : Except ConsensusError UInt32 :=
  match u32FromStrRadix16 value with
  | some n => .ok n
  | none => .error (.invalidIntegerHex field)

/-- Four bytes in hex, in the order they are written; exactly eight digits. -/
def parseLeU32HexBytes (field value : String) : Except ConsensusError (Bytes 4) :=
  decodeHex 4 field value

/-- The bytes a field of bytes holds. -/
theorem hexDecode_of_parsed {field text : String} {bytes : Bytes 4}
    (parsed : parseLeU32HexBytes field text = .ok bytes) : hexDecode text = some bytes.toList := by
  unfold parseLeU32HexBytes decodeHex at parsed
  split at parsed
  · cases parsed
  · rename_i decoded here
    split at parsed
    · cases parsed
      exact here
    · cases parsed

/-- What was encoded decodes to itself. -/
theorem decodeHex_hexEncode {n : Nat} (field : String) (bytes : Bytes n) :
    decodeHex n field (hexEncode bytes.toList) = .ok bytes := by
  unfold decodeHex
  rw [hexDecode_hexEncode]
  dsimp only
  rw [dif_pos bytes.toList_length]
  rfl

theorem pushHexDigit_some {value next : Nat} {c : Char} (pushed : pushHexDigit value c = some next) :
    ∃ digit, hexDigitValue c = some digit ∧ next = 16 * value + digit ∧ next < 2 ^ 32 := by
  obtain ⟨digit, known, rest⟩ := Option.bind_eq_some_iff.1 pushed
  split at rest
  · rename_i fits
    cases rest
    exact ⟨digit, known, rfl, fits⟩
  · cases rest

/-- The digits can be read off the value, given how many there are. -/
theorem foldlM_pushHexDigit_unique : ∀ {xs ys : List Char} {a b value : Nat},
    xs.length = ys.length → xs.all isLowerHexdigit = true → ys.all isLowerHexdigit = true →
    xs.foldlM pushHexDigit a = some value → ys.foldlM pushHexDigit b = some value →
      a = b ∧ xs = ys
  | [], [], a, b, value, _, _, _, left, right => by
      cases left
      cases right
      exact ⟨rfl, rfl⟩
  | x :: xs, y :: ys, a, b, value, length, lower, lower', left, right => by
      rw [List.all_cons, Bool.and_eq_true_iff] at lower lower'
      rw [List.foldlM_cons] at left right
      obtain ⟨a', pushed, left⟩ := Option.bind_eq_some_iff.1 left
      obtain ⟨b', pushed', right⟩ := Option.bind_eq_some_iff.1 right
      obtain ⟨same, rest⟩ := foldlM_pushHexDigit_unique (Nat.succ.inj length) lower.2 lower'.2 left
        right
      obtain ⟨d, known, is, -⟩ := pushHexDigit_some pushed
      obtain ⟨d', known', is', -⟩ := pushHexDigit_some pushed'
      obtain ⟨bound, digit⟩ := toLower_hexDigit known
      obtain ⟨bound', digit'⟩ := toLower_hexDigit known'
      have values : a = b ∧ d = d' := by omega
      refine ⟨values.1, ?_⟩
      rw [rest, ← toLower_of_lowerHex lower.1, ← toLower_of_lowerHex lower'.1, digit, digit', values.2]

theorem foldlM_pushHexDigit_lt {xs : List Char} {a value : Nat} (word : a < 2 ^ 32)
    (read : xs.foldlM pushHexDigit a = some value) : value < 2 ^ 32 := by
  induction xs generalizing a with
  | nil =>
      cases read
      exact word
  | cons x rest ih =>
      rw [List.foldlM_cons] at read
      obtain ⟨next, pushed, later⟩ := Option.bind_eq_some_iff.1 read
      obtain ⟨-, -, -, fits⟩ := pushHexDigit_some pushed
      exact ih fits later

/-- Without a sign the digits are the text. -/
theorem u32FromStrRadix16_lowerHex {n : Nat} {text : String} {value : UInt32}
    (lower : matchesLowerHex n text = true) (read : u32FromStrRadix16 text = some value) :
    ∃ v, text.toList.foldlM pushHexDigit 0 = some v ∧ UInt32.ofNat v = value := by
  have digits := (Bool.and_eq_true_iff.1 lower).2
  unfold u32FromStrRadix16 at read
  dsimp only at read
  split at read
  · rename_i rest here
    rw [here, List.all_cons, Bool.and_eq_true_iff] at digits
    exact absurd digits.1 (by decide)
  · split at read
    · cases read
    · obtain ⟨v, folded, is⟩ := Option.map_eq_some_iff.1 read
      exact ⟨v, folded, is⟩

/-- In lower-case digits of one length a number has one text. -/
theorem parseU32Hex_unique {n : Nat} {field a b : String} {value : UInt32}
    (lower : matchesLowerHex n a = true) (lower' : matchesLowerHex n b = true)
    (parsed : parseU32Hex field a = .ok value) (parsed' : parseU32Hex field b = .ok value) :
    a = b := by
  have read : ∀ {text : String}, parseU32Hex field text = .ok value →
      u32FromStrRadix16 text = some value := by
    intro text ok
    unfold parseU32Hex at ok
    split at ok
    · rename_i here
      cases ok
      exact here
    · cases ok
  obtain ⟨v, folded, is⟩ := u32FromStrRadix16_lowerHex lower (read parsed)
  obtain ⟨v', folded', is'⟩ := u32FromStrRadix16_lowerHex lower' (read parsed')
  have small := foldlM_pushHexDigit_lt (by decide) folded
  have small' := foldlM_pushHexDigit_lt (by decide) folded'
  have same : v = v' := by
    have words := congrArg UInt32.toNat (is.trans is'.symm)
    rw [UInt32.toNat_ofNat', UInt32.toNat_ofNat', Nat.mod_eq_of_lt small,
      Nat.mod_eq_of_lt small'] at words
    exact words
  obtain ⟨length, digits⟩ := Bool.and_eq_true_iff.1 lower
  obtain ⟨length', digits'⟩ := Bool.and_eq_true_iff.1 lower'
  rw [← same] at folded'
  obtain ⟨-, texts⟩ := foldlM_pushHexDigit_unique
    ((beq_iff_eq.1 length).trans (beq_iff_eq.1 length').symm) digits digits' folded folded'
  exact String.toList_inj.1 texts

/-! ## Little-endian integers -/

/-- `n.to_le_bytes()` for an integer of `width` bytes. -/
def toLeBytes (width n : Nat) : Bytes width :=
  List.Vector.ofFn fun i => UInt8.ofNat (n / 256 ^ i.val)

/-- The bytes determine every integer that fits them. -/
theorem toLeBytes_inj {width n m : Nat} (fits : n < 256 ^ width) (fits' : m < 256 ^ width)
    (same : toLeBytes width n = toLeBytes width m) : n = m := by
  have digits : ∀ i < width, n / 256 ^ i % 256 = m / 256 ^ i % 256 := by
    intro i below
    have byte := congrArg (fun bytes => bytes.get ⟨i, below⟩) same
    simp only [toLeBytes, List.Vector.get_ofFn] at byte
    simpa [UInt8.toNat_ofNat'] using congrArg UInt8.toNat byte
  have low : ∀ k ≤ width, n % 256 ^ k = m % 256 ^ k := by
    intro k
    induction k with
    | zero => simp [Nat.mod_one]
    | succ k ih =>
        intro le
        rw [Nat.mod_pow_succ, Nat.mod_pow_succ, ih (by omega), digits k (by omega)]
  have whole := low width le_rfl
  rwa [Nat.mod_eq_of_lt fits, Nat.mod_eq_of_lt fits'] at whole

theorem toLeBytes_succ (width n : Nat) :
    (toLeBytes (width + 1) n).toList = UInt8.ofNat n :: (toLeBytes width (n / 256)).toList := by
  unfold toLeBytes
  rw [List.Vector.toList_ofFn, List.Vector.toList_ofFn, List.ofFn_succ]
  have low : UInt8.ofNat (n / 256 ^ ((0 : Fin (width + 1)) : Nat)) = UInt8.ofNat n := by simp
  have high : ∀ i : Fin width, UInt8.ofNat (n / 256 ^ (i.succ : Nat)) =
      UInt8.ofNat (n / 256 / 256 ^ (i : Nat)) := by
    intro i
    rw [Nat.div_div_eq_div_mul, Fin.val_succ, Nat.pow_succ']
  rw [low]
  simp only [high]

/-- What `bytes` denote with `high` above them. -/
def leValueAbove (high : Nat) (bytes : List UInt8) : Nat :=
  bytes.foldr (fun byte value => byte.toNat + 256 * value) high

/-- The number is spelled by the bytes it was read from. -/
theorem toLeBytes_leValueAbove (bytes : List UInt8) (width high : Nat) :
    (toLeBytes (bytes.length + width) (leValueAbove high bytes)).toList =
      bytes ++ (toLeBytes width high).toList := by
  induction bytes with
  | nil =>
      rw [List.length_nil, Nat.zero_add]
      rfl
  | cons byte rest ih =>
      have small := byte.toNat_lt
      have size : (byte :: rest).length + width = (rest.length + width) + 1 := by
        rw [List.length_cons]
        omega
      have first : ∀ m : Nat, UInt8.ofNat (byte.toNat + 256 * m) = byte := by
        intro m
        apply UInt8.toNat_inj.1
        rw [UInt8.toNat_ofNat']
        omega
      have later : ∀ m : Nat, (byte.toNat + 256 * m) / 256 = m := by
        intro m
        omega
      have value : leValueAbove high (byte :: rest) =
          byte.toNat + 256 * leValueAbove high rest := rfl
      rw [size, toLeBytes_succ, value, first, later, ih, List.cons_append]

theorem leValueAbove_lt (bytes : List UInt8) : leValueAbove 0 bytes < 256 ^ bytes.length := by
  induction bytes with
  | nil => exact Nat.one_pos
  | cons byte rest ih =>
      have small := byte.toNat_lt
      unfold leValueAbove at ih ⊢
      rw [List.foldr_cons, List.length_cons, Nat.pow_succ]
      omega

theorem leValueAbove_eq (high : Nat) (bytes : List UInt8) :
    leValueAbove high bytes = leValueAbove 0 bytes + 256 ^ bytes.length * high := by
  unfold leValueAbove
  induction bytes with
  | nil => simp
  | cons byte rest ih =>
      rw [List.foldr_cons, ih, List.foldr_cons, List.length_cons, Nat.pow_succ]
      ring

/-- `u32::from_le_bytes`. -/
def fromLeBytes (bytes : Bytes 4) : UInt32 :=
  UInt32.ofNat (bytes.toList.foldr (fun byte value => byte.toNat + 256 * value) 0)

theorem toNat_fromLeBytes (bytes : Bytes 4) :
    (fromLeBytes bytes).toNat = leValueAbove 0 bytes.toList := by
  have small := leValueAbove_lt bytes.toList
  rw [bytes.toList_length] at small
  exact (UInt32.toNat_ofNat' ..).trans (Nat.mod_eq_of_lt small)

/-! ## Coinbase, merkle root and header -/

section Header

variable (digest : Digest)

/-- The digest of the digest. -/
def sha256d (bytes : List UInt8) : Hash32 := digest (digest bytes).toList

/-- The coinbase transaction: the extranonce stands between the two parts, as eight bytes with the
lowest first. -/
def coinbaseBytes (coinbasePrefix : List UInt8) (extranonce : UInt64)
    (coinbaseSuffix : List UInt8) : List UInt8 :=
  coinbasePrefix ++ (toLeBytes 8 extranonce.toNat).toList ++ coinbaseSuffix

/-- The leaf of the merkle tree that the extranonce decides. -/
def coinbaseTxid (coinbasePrefix : List UInt8) (extranonce : UInt64)
    (coinbaseSuffix : List UInt8) : Hash32 :=
  sha256d digest (coinbaseBytes coinbasePrefix extranonce coinbaseSuffix)

/-- The session's half is the low one, the miner's the high one. -/
def composeExtranonce (extranonce1Le extranonce2Le : Bytes 4) : UInt64 :=
  let low := (fromLeBytes extranonce1Le).toUInt64
  let high := (fromLeBytes extranonce2Le).toUInt64
  low ||| (high <<< 32)

/-- The leaf is the leftmost of its tree, so each sibling goes to its right. -/
def merkleRootFromBranch (leaf : Hash32) (branch : List Hash32) : Hash32 :=
  branch.foldl (fun current sibling => sha256d digest (current.toList ++ sibling.toList)) leaf

/-- The header, 84 bytes: the time takes eight of them and the numbers are written with the lowest
byte first. -/
def header84 (version : UInt32) (prev merkle : Hash32) (time : UInt64) (bits nonce : UInt32) :
    Bytes 84 :=
  toLeBytes 4 version.toNat ++ prev ++ merkle ++ toLeBytes 8 time.toNat ++
    toLeBytes 4 bits.toNat ++ toLeBytes 4 nonce.toNat

def headerHash (header : Bytes 84) : Hash32 := sha256d digest header.toList

end Header

theorem toNat_composeExtranonce (extranonce1Le extranonce2Le : Bytes 4) :
    (composeExtranonce extranonce1Le extranonce2Le).toNat =
      (fromLeBytes extranonce1Le).toNat + 2 ^ 32 * (fromLeBytes extranonce2Le).toNat := by
  have low := (fromLeBytes extranonce1Le).toNat_lt
  have high := (fromLeBytes extranonce2Le).toNat_lt
  unfold composeExtranonce
  rw [UInt64.toNat_or, UInt64.toNat_shiftLeft, UInt32.toNat_toUInt64, UInt32.toNat_toUInt64]
  show _ ||| _ <<< 32 % 2 ^ 64 = _
  rw [Nat.shiftLeft_eq, Nat.mod_eq_of_lt (by omega), Nat.or_comm, Nat.mul_comm,
    ← Nat.two_pow_add_eq_or_of_lt low, Nat.add_comm]

/-- The composed extranonce goes out as the bytes it came in, `extranonce1` first. -/
theorem toLeBytes_composeExtranonce (extranonce1Le extranonce2Le : Bytes 4) :
    (toLeBytes 8 (composeExtranonce extranonce1Le extranonce2Le).toNat).toList =
      extranonce1Le.toList ++ extranonce2Le.toList := by
  have both := toLeBytes_leValueAbove (extranonce1Le.toList ++ extranonce2Le.toList) 0 0
  have value : leValueAbove 0 (extranonce1Le.toList ++ extranonce2Le.toList) =
      (composeExtranonce extranonce1Le extranonce2Le).toNat := by
    have append : leValueAbove 0 (extranonce1Le.toList ++ extranonce2Le.toList) =
        leValueAbove (leValueAbove 0 extranonce2Le.toList) extranonce1Le.toList :=
      List.foldr_append ..
    rw [append, leValueAbove_eq, toNat_composeExtranonce, toNat_fromLeBytes, toNat_fromLeBytes,
      extranonce1Le.toList_length]
    rfl
  rw [value, List.length_append, extranonce1Le.toList_length, extranonce2Le.toList_length] at both
  exact both.trans (List.append_nil _)

/-- **The coinbase, byte for byte.** -/
theorem coinbaseBytes_composeExtranonce (coinbasePrefix : List UInt8)
    (extranonce1Le extranonce2Le : Bytes 4) (coinbaseSuffix : List UInt8) :
    coinbaseBytes coinbasePrefix (composeExtranonce extranonce1Le extranonce2Le) coinbaseSuffix =
      coinbasePrefix ++ (extranonce1Le.toList ++ extranonce2Le.toList) ++ coinbaseSuffix := by
  unfold coinbaseBytes
  rw [toLeBytes_composeExtranonce]

/-- **The header, byte for byte.** -/
theorem toList_header84 (version : UInt32) (prev merkle : Hash32) (time : UInt64)
    (bits nonce : UInt32) :
    (header84 version prev merkle time bits nonce).toList =
      (toLeBytes 4 version.toNat).toList ++ prev.toList ++ merkle.toList ++
        (toLeBytes 8 time.toNat).toList ++ (toLeBytes 4 bits.toNat).toList ++
          (toLeBytes 4 nonce.toNat).toList := by
  unfold header84
  simp only [List.Vector.toList_append]

/-! ## Targets -/

/-- `hash <= target` on byte arrays is lexicographic. -/
def hashLeqTarget (hash target : Hash32) : Bool := decide (hash.toList ≤ target.toList)

/-- Long division of a big-endian byte string: `rem` is the remainder so far. -/
def divBytes (divisor : Nat) : Nat → List UInt8 → List UInt8
  | _, [] => []
  | rem, byte :: rest =>
      let acc := 256 * rem + byte.toNat
      UInt8.ofNat (acc / divisor) :: divBytes divisor (acc % divisor) rest

theorem length_divBytes (divisor rem : Nat) (bytes : List UInt8) :
    (divBytes divisor rem bytes).length = bytes.length := by
  induction bytes generalizing rem with
  | nil => rfl
  | cons byte rest ih => simp only [divBytes, List.length_cons, ih]

/-- A divisor of zero or one leaves the target as it is. -/
def divTargetByU64 (target : Hash32) (divisor : Nat) : Hash32 :=
  if divisor ≤ 1 then target
  else ⟨divBytes divisor 0 target.toList, by rw [length_divBytes, target.toList_length]⟩

/-- `u64::MAX`. -/
def u64Max : Nat := 2 ^ 64 - 1

/-- `difficulty.round() as u64`, half away from zero and saturating. -/
def roundToU64 (difficulty : ℚ) : Nat := min ⌊difficulty + 1 / 2⌋.toNat u64Max

/-- The base target divided by the rounded difficulty; a difficulty of at most one keeps the base.
-/
def targetForDifficulty (baseTarget : Hash32) (difficulty : ℚ) : Hash32 :=
  if difficulty ≤ 1 then baseTarget
  else
    let divisor := if 2 ^ 64 ≤ difficulty then u64Max else roundToU64 difficulty
    divTargetByU64 baseTarget (max divisor 1)

/-! ## Verification -/

section Verify

variable (digest : Digest)

/-- The share a solution makes of a template, before any target is looked at. -/
def solvedShare (template : WorkTemplate) (extranonce1Le : Bytes 4) (solution : SubmitSolution) :
    VerifiedShare :=
  let extranonce := composeExtranonce extranonce1Le solution.extranonce2Le
  let txid := coinbaseTxid digest template.coinbasePrefix extranonce template.coinbaseSuffix
  let merkleRoot := merkleRootFromBranch digest txid template.merkleBranch
  let header := header84 template.version template.prev merkleRoot solution.ntime.toUInt64
    template.bits solution.nonce
  let hash := headerHash digest header
  { hash := hash
    header := header
    coinbaseTxid := txid
    merkleRoot := merkleRoot
    isBlockCandidate := hashLeqTarget hash template.networkTarget }

/-- The target the share was assigned decides alone; whether the network's is met is told with the
share and not asked before. -/
def verifyShareAgainstTarget (template : WorkTemplate) (extranonce1Le : Bytes 4)
    (solution : SubmitSolution) (assignedTarget : Hash32) :
    Except ConsensusError VerifiedShare :=
  let share := solvedShare digest template extranonce1Le solution
  if hashLeqTarget share.hash assignedTarget then .ok share else .error .lowDifficultyShare

/-- The template's share target divided by the difficulty. -/
def verifyShareWithDifficulty (template : WorkTemplate) (extranonce1Le : Bytes 4)
    (solution : SubmitSolution) (difficulty : ℚ) : Except ConsensusError VerifiedShare :=
  verifyShareAgainstTarget digest template extranonce1Le solution
    (targetForDifficulty template.shareTarget difficulty)

variable {digest} {template : WorkTemplate} {extranonce1Le : Bytes 4}
  {solution : SubmitSolution} {share : VerifiedShare}

theorem verifyShareAgainstTarget_ok {assignedTarget : Hash32}
    (verified : verifyShareAgainstTarget digest template extranonce1Le solution assignedTarget =
      .ok share) :
    share = solvedShare digest template extranonce1Le solution ∧
      hashLeqTarget share.hash assignedTarget = true := by
  unfold verifyShareAgainstTarget at verified
  dsimp only at verified
  split at verified
  · rename_i meets
    cases verified
    exact ⟨rfl, meets⟩
  · cases verified

end Verify

end CsdPool
