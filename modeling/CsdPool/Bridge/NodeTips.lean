/-
# Bridge.NodeTips — one tip under four readers

A node answers its health with the hash of its tip in the display order, its height and its
chainwork, all as it likes to write them.  The tip sentinel and the fan-out guard trim the hash
and drop a `0x` or `0X`; the template provider and the template-age alert only drop a `0x`.  All
four fold the case and keep the byte order, so they agree on every spelling but the ones with
blanks or with `0X` (`tipsAgree_iff`).

Chainwork is a number of any size.  The sentinel compares it as one, by length and then by text
without leading zeros (`chainworkAtLeast_iff`); the fan-out guard compares the texts as sent, so
two spellings of one number are a mismatch (`eligibility_mismatch_iff`).
-/
import CsdPool.Bridge.Candidate
import CsdPool.Theory.Positional

namespace CsdPool

set_option autoImplicit false

/-- What the bridge reads of a node's health. -/
structure NodeHealth where
  height : Option Nat
  tip : Option String
  chainwork : Option String
  peers : Option Nat
  deriving DecidableEq, Repr

namespace Bridge

/-! ## The tip sentinel -/

/-- The sentinel's reading of a tip: 64 hex digits, without the blanks around them and the mark, in
lower case. -/
def canonicalHealthHash (value : String) : Except String String :=
  let value := stripMark (trim value)
  if value.toList.length ≠ 64 || !value.toList.all isAsciiHexdigit then
    .error "tip sentinel tip is not canonical 32-byte hex"
  else .ok (toAsciiLowercase value)

/-- The sentinel's reading of a chainwork: its significant digits, in lower case. -/
def canonicalChainwork (value : String) : Except String String :=
  let value := stripMark (trim value)
  if value.toList.isEmpty || !value.toList.all isAsciiHexdigit then
    .error "tip sentinel chainwork is not hex"
  else
    let normalized := trimStartMatches "0" value
    .ok (if normalized.toList.isEmpty then "0" else toAsciiLowercase normalized)

/-- Two numbers compared by their digits: the longer is the larger, and of one length the order of
the texts decides. -/
def chainworkAtLeast (left right : String) : Bool :=
  let left := (trimStartMatches "0" left).toList
  let right := (trimStartMatches "0" right).toList
  decide (left.length > right.length) || (left.length == right.length && !decide (left < right))

/-- A node's tip as the sentinel keeps it. -/
structure ObservedNodeTip where
  height : Nat
  tipHex : String
  chainworkHex : String
  deriving DecidableEq, Repr

/-- All three fields must be there and must be readable. -/
def ObservedNodeTip.fromHealth (health : NodeHealth) : Except String ObservedNodeTip := do
  let height ← health.height.elim (.error "tip sentinel health is missing height") .ok
  let tipHex ← (health.tip.elim (.error "tip sentinel health is missing tip") .ok) >>=
    canonicalHealthHash
  let chainworkHex ←
    (health.chainwork.elim (.error "tip sentinel health is missing chainwork") .ok) >>=
      canonicalChainwork
  return ⟨height, tipHex, chainworkHex⟩

/-- The tips of both nodes, seen together. -/
structure TipSentinelObservation where
  primary : ObservedNodeTip
  secondary : ObservedNodeTip
  deriving DecidableEq, Repr

/-- A parent is given up when the authority has moved off it, or when the secondary is higher, or is
as high on another tip with at least as much work. -/
def tipSentinelInvalidatesParent (currentParent : Hash32) (observation : TipSentinelObservation) :
    Bool :=
  if observation.primary.tipHex ≠ hexEncode currentParent.toList then true
  else
    decide (observation.secondary.height > observation.primary.height) ||
      (observation.secondary.height == observation.primary.height &&
        decide (observation.secondary.tipHex ≠ observation.primary.tipHex) &&
        chainworkAtLeast observation.secondary.chainworkHex observation.primary.chainworkHex)

/-! ## The fan-out guard -/

/-- `decoded.try_into().ok()`. -/
def tryIntoBytes (n : Nat) (bytes : List UInt8) : Option (Bytes n) :=
  if length : bytes.length = n then some ⟨bytes, length⟩ else none

namespace CanonicalBlockHash

/-- The fan-out guard's reading of a tip: 32 bytes after an optional mark, whatever the case. -/
def fromDisplayHex (value : String) : Option Hash32 :=
  (hexDecode (stripMark (trim value))).bind (tryIntoBytes 32)

/-- The parent is bytes 4 to 36 of the header. -/
def fromCandidateHeader (candidate : BlockCandidateSubmitRequest) : Option Hash32 :=
  (hexDecode candidate.headerHex).bind fun header =>
    if header.length ≠ 84 then none else tryIntoBytes 32 ((header.drop 4).take 32)

end CanonicalBlockHash

/-- `ParallelHealthSnapshot`: the answers of the two nodes, and how long ago they came. -/
structure ParallelHealthSnapshot where
  primary : Option NodeHealth
  secondary : Option NodeHealth
  elapsed : Nat
  deriving DecidableEq, Repr

/-- The field is there and is not empty. -/
def hasText (value : Option String) : Bool := value.any fun value => value ≠ ""

def primaryComplete (health : NodeHealth) : Bool :=
  health.height.isSome && hasText health.tip && hasText health.chainwork

/-- Of the secondary the number of its peers must be known as well. -/
def secondaryComplete (health : NodeHealth) : Bool :=
  primaryComplete health && health.peers.isSome

/-- Whether a candidate may go to the secondary. The checks are made in this order and the first
that fails gives the reason; the tips are compared as bytes and the chainworks as texts. -/
def secondarySubmitEligibility (health : Option ParallelHealthSnapshot) (maxAge : Nat)
    (candidate : BlockCandidateSubmitRequest) : Except String Unit :=
  match health with
  | none => .error "health_not_ready"
  | some health =>
      if health.elapsed > maxAge then .error "health_stale"
      else
        match health.primary, health.secondary with
        | some primary, some secondary =>
            if !primaryComplete primary || !secondaryComplete secondary then
              .error "health_incomplete"
            else if secondary.peers = some 0 then .error "secondary_no_peers"
            else
              match primary.tip.bind CanonicalBlockHash.fromDisplayHex,
                secondary.tip.bind CanonicalBlockHash.fromDisplayHex with
              | some primaryTip, some secondaryTip =>
                  if primary.height ≠ secondary.height ∨ primaryTip ≠ secondaryTip ∨
                      primary.chainwork ≠ secondary.chainwork then
                    .error "chain_state_mismatch"
                  else
                    match CanonicalBlockHash.fromCandidateHeader candidate with
                    | none => .error "candidate_parent_unavailable"
                    | some candidateParent =>
                        if primaryTip ≠ candidateParent then .error "candidate_parent_mismatch"
                        else .ok ()
              | _, _ => .error "health_incomplete"
        | _, _ => .error "health_unavailable"

/-! ## The template provider and the template-age alert -/

/-- `LiveTemplateProvider::current_tip`. -/
def currentTip (health : NodeHealth) : Except ConsensusError (Option Hash32) :=
  match health.tip with
  | none => .ok none
  | some tip => (decodeHash32Hex "node_tip" ((stripPrefix "0x" tip).getD tip)).map some

/-- The alert's reading of a tip, against a job's parent in the order of Stratum. -/
def nodeTipMatchesJobPrevHash (tip jobPrevHash : String) : Bool :=
  match hexDecode ((stripPrefix "0x" tip).getD tip) with
  | none => false
  | some bytes =>
      if bytes.length ≠ 32 then false
      else eqIgnoreAsciiCase (hexEncode bytes.reverse) jobPrevHash

/-! ## Numbers -/

/-- The number hex digits denote. -/
def hexNumber (digits : List Char) : Nat :=
  Theory.Positional.value (fun c => (hexDigitValue c).getD 0) 16 digits

/-- The number a chainwork text denotes, if it denotes one. -/
def chainworkNumber (value : String) : Option Nat :=
  let digits := (stripMark (trim value)).toList
  if digits.isEmpty || !digits.all isAsciiHexdigit then none else some (hexNumber digits)

theorem lowerHex_cases {c : Char} (lower : isLowerHexdigit c = true) :
    ∃ v : Fin 16, c = hexDigitChar v := by
  have digit : isAsciiHexdigit c = true := by
    unfold isLowerHexdigit at lower
    unfold isAsciiHexdigit
    rw [lower, Bool.true_or]
  obtain ⟨v, value⟩ := Option.isSome_iff_exists.1 (hexDigitValue_isSome digit)
  obtain ⟨bound, written⟩ := toLower_hexDigit value
  exact ⟨⟨v, bound⟩, (toLower_of_lowerHex lower).symm.trans written⟩

theorem hexDigitChar_table : ∀ v w : Fin 16,
    (hexDigitChar v < hexDigitChar w ↔ v < w) ∧
      (hexDigitValue (hexDigitChar v)).getD 0 = v.val := by
  decide

/-- As characters the lower-case digits are ordered as their values. -/
theorem lowerHex : Theory.Positional.Alphabet (fun c => (hexDigitValue c).getD 0) 16
    fun c => isLowerHexdigit c = true where
  below c lower := by
    obtain ⟨v, rfl⟩ := lowerHex_cases lower
    rw [(hexDigitChar_table v v).2]
    exact v.isLt
  ordered c d lower lower' := by
    obtain ⟨v, rfl⟩ := lowerHex_cases lower
    obtain ⟨w, rfl⟩ := lowerHex_cases lower'
    rw [(hexDigitChar_table v w).1, (hexDigitChar_table v v).2, (hexDigitChar_table w w).2,
      Fin.lt_def]
  injective c d lower lower' same := by
    obtain ⟨v, rfl⟩ := lowerHex_cases lower
    obtain ⟨w, rfl⟩ := lowerHex_cases lower'
    rw [(hexDigitChar_table v v).2, (hexDigitChar_table w w).2] at same
    rw [Fin.ext same]

theorem zero_table : ∀ n : Fin 128,
    ((Char.ofNat n).toLower = '0' ↔ Char.ofNat n = '0') ∧
    (isAsciiHexdigit (Char.ofNat n) = true → isLowerHexdigit (Char.ofNat n).toLower = true) ∧
    (isAsciiHexdigit (Char.ofNat n) = true → (hexDigitValue (Char.ofNat n)).getD 0 = 0 →
      Char.ofNat n = '0') := by
  decide

theorem toLower_zero_iff {c : Char} : c.toLower = '0' ↔ c = '0' := by
  by_cases ascii : c.toNat < 128
  · obtain ⟨n, rfl⟩ := ascii_cases ascii
    exact (zero_table n).1
  · rw [toLower_of_wide ascii]

theorem lowerHex_of_hexdigit {c : Char} (digit : isAsciiHexdigit c = true) :
    isLowerHexdigit c.toLower = true := by
  obtain ⟨n, rfl⟩ := ascii_cases (isAsciiHexdigit_lt digit)
  exact (zero_table n).2.1 digit

theorem zero_of_value {c : Char} (digit : isAsciiHexdigit c = true)
    (zero : (hexDigitValue c).getD 0 = 0) : c = '0' := by
  obtain ⟨n, rfl⟩ := ascii_cases (isAsciiHexdigit_lt digit)
  exact (zero_table n).2.2 digit zero

theorem hexNumber_toLower (digits : List Char) :
    hexNumber (digits.map Char.toLower) = hexNumber digits := by
  unfold hexNumber
  rw [Theory.Positional.value_map]
  congr 1
  funext c
  rw [Function.comp_apply, hexDigitValue_toLower]

/-! ## Chainwork -/

theorem stopped_at {p : Char → Bool} {text : List Char} {c : Char}
    (head : (text.dropWhile p).head? = some c) : p c = false := by
  have stopped := List.head?_dropWhile_not p text
  rwa [head] at stopped

/-- The digits of a chainwork text without leading zeros, in lower case. -/
def significant (value : String) : List Char :=
  ((stripMark (trim value)).toList.dropWhile ('0' = ·)).map Char.toLower

theorem hexNumber_significant (value : String) :
    hexNumber (significant value) = hexNumber (stripMark (trim value)).toList := by
  unfold significant
  rw [hexNumber_toLower]
  apply Theory.Positional.value_dropWhile
  intro c isZero
  rw [← of_decide_eq_true isZero]
  rfl

theorem dropWhile_significant (value : String) :
    (significant value).dropWhile ('0' = ·) = significant value := by
  apply dropWhile_of_head
  intro c head
  unfold significant at head
  rw [List.head?_map, Option.map_eq_some_iff] at head
  obtain ⟨d, first, rfl⟩ := head
  have nonzero : ¬ '0' = d := of_decide_eq_false (stopped_at first)
  rwa [decide_eq_false_iff_not, eq_comm, toLower_zero_iff, eq_comm]

/-- What a chainwork text that is read is made of. -/
structure ReadChainwork (value text : String) : Prop where
  number : chainworkNumber value = some (hexNumber (significant value))
  letters : ∀ c ∈ significant value, isLowerHexdigit c = true
  written : text = if (significant value).isEmpty then "0" else String.ofList (significant value)

/-- What the sentinel keeps of a chainwork. -/
theorem canonicalChainwork_ok {value text : String}
    (read : canonicalChainwork value = .ok text) : ReadChainwork value text := by
  unfold canonicalChainwork at read
  dsimp only at read
  split at read
  · cases read
  · rename_i digits
    have letters : (stripMark (trim value)).toList.all isAsciiHexdigit = true := by
      rw [Bool.or_eq_true, not_or, Bool.not_eq_true, Bool.not_eq_true', Bool.not_eq_false] at digits
      exact digits.2
    refine ⟨?_, ?_, ?_⟩
    · unfold chainworkNumber
      dsimp only
      rw [if_neg digits, hexNumber_significant]
    · intro c member
      obtain ⟨d, inside, rfl⟩ := List.mem_map.1 member
      exact lowerHex_of_hexdigit
        (List.all_eq_true.1 letters d ((List.dropWhile_sublist _).subset inside))
    · have text_ := Except.ok.inj read
      subst text_
      have trimmed : (trimStartMatches "0" (stripMark (trim value))).toList =
          (stripMark (trim value)).toList.dropWhile ('0' = ·) := by
        rw [trimStartMatches, String.toList_ofList]
        exact trimStartChars_singleton '0' (Nat.le_refl _)
      rw [toAsciiLowercase, trimmed]
      unfold significant
      rw [List.isEmpty_map]

theorem ReadChainwork.normal {value text : String} (read : ReadChainwork value text) :
    Theory.Positional.Normal (fun c => (hexDigitValue c).getD 0) (significant value) := by
  intro c head zero
  have digit : isAsciiHexdigit c = true := by
    have lower := read.letters c (List.mem_of_head? head)
    unfold isLowerHexdigit at lower
    unfold isAsciiHexdigit
    rw [lower, Bool.true_or]
  rw [← dropWhile_significant] at head
  exact of_decide_eq_false (stopped_at head) (zero_of_value digit zero).symm

theorem ReadChainwork.trimmed {value text : String} (read : ReadChainwork value text) :
    (trimStartMatches "0" text).toList = significant value := by
  rw [trimStartMatches, String.toList_ofList]
  have drop : trimStartChars "0".toList text.toList.length text.toList =
      text.toList.dropWhile ('0' = ·) := trimStartChars_singleton '0' (Nat.le_refl _)
  rw [drop, read.written]
  split
  · rename_i empty
    rw [List.isEmpty_iff.1 empty]
    rfl
  · rw [String.toList_ofList, dropWhile_significant]

/-- Chainworks are compared as the numbers they denote, whatever their size. -/
theorem chainworkAtLeast_iff {left right leftText rightText : String} {n m : Nat}
    (readLeft : canonicalChainwork left = .ok leftText)
    (readRight : canonicalChainwork right = .ok rightText)
    (number : chainworkNumber left = some n) (number' : chainworkNumber right = some m) :
    chainworkAtLeast leftText rightText = true ↔ m ≤ n := by
  have left_ := canonicalChainwork_ok readLeft
  have right_ := canonicalChainwork_ok readRight
  rw [left_.number, Option.some.injEq] at number
  rw [right_.number, Option.some.injEq] at number'
  unfold chainworkAtLeast
  dsimp only
  rw [left_.trimmed, right_.trimmed, Bool.or_eq_true_iff, Bool.and_eq_true_iff, beq_iff_eq,
    decide_eq_true_eq, Bool.not_eq_true', decide_eq_false_iff_not, ← number, ← number']
  exact lowerHex.le_iff_value_le_of_normal left_.normal right_.normal left_.letters right_.letters

/-- One number, one canonical text. -/
theorem canonicalChainwork_eq_iff {left right leftText rightText : String} {n m : Nat}
    (readLeft : canonicalChainwork left = .ok leftText)
    (readRight : canonicalChainwork right = .ok rightText)
    (number : chainworkNumber left = some n) (number' : chainworkNumber right = some m) :
    leftText = rightText ↔ n = m := by
  have left_ := canonicalChainwork_ok readLeft
  have right_ := canonicalChainwork_ok readRight
  rw [left_.number, Option.some.injEq] at number
  rw [right_.number, Option.some.injEq] at number'
  have same := lowerHex.eq_iff_value_eq_of_normal left_.normal right_.normal left_.letters
    right_.letters
  rw [← number, ← number']
  refine Iff.trans ⟨fun texts => ?_, fun digits => ?_⟩ same
  · rw [← left_.trimmed, texts, right_.trimmed]
  · rw [left_.written, right_.written, digits]

/-! ## Tips -/

theorem tryIntoBytes_iff {n : Nat} {bytes : List UInt8} {tip : Bytes n} :
    tryIntoBytes n bytes = some tip ↔ bytes = tip.toList := by
  unfold tryIntoBytes
  constructor
  · intro taken
    split at taken
    · cases taken
      rfl
    · cases taken
  · rintro rfl
    rw [dif_pos tip.toList_length]
    rfl

/-- The guard reads the bytes behind the blanks and the mark. -/
theorem fromDisplayHex_iff {value : String} {tip : Hash32} :
    CanonicalBlockHash.fromDisplayHex value = some tip ↔
      hexDecode (stripMark (trim value)) = some tip.toList := by
  unfold CanonicalBlockHash.fromDisplayHex
  rw [Option.bind_eq_some_iff]
  constructor
  · rintro ⟨bytes, decoded, taken⟩
    obtain rfl := tryIntoBytes_iff.1 taken
    exact decoded
  · intro decoded
    exact ⟨_, decoded, tryIntoBytes_iff.2 rfl⟩

theorem decodeHex_iff {n : Nat} (field : String) {value : String} {tip : Bytes n} :
    decodeHex n field value = .ok tip ↔ hexDecode value = some tip.toList := by
  unfold decodeHex
  constructor
  · intro decoded
    split at decoded
    · cases decoded
    · split at decoded
      · cases decoded
        assumption
      · cases decoded
  · intro decoded
    rw [decoded]
    dsimp only
    rw [dif_pos tip.toList_length]
    rfl

theorem decoded_of_digits {value : String} (length : value.toList.length = 64)
    (digits : value.toList.all isAsciiHexdigit = true) :
    ∃ tip : Hash32, hexDecode value = some tip.toList := by
  obtain ⟨bytes, decoded⟩ := Option.isSome_iff_exists.1
    (hexDecodeChars_isSome (n := 32) length digits)
  have half := (hexDecodeChars_digits decoded).1
  exact ⟨⟨bytes, by omega⟩, decoded⟩

theorem canonicalHealthHash_iff {value text : String} :
    canonicalHealthHash value = .ok text ↔
      ∃ tip, CanonicalBlockHash.fromDisplayHex value = some tip ∧
        text = hexEncode tip.toList := by
  simp only [fromDisplayHex_iff]
  unfold canonicalHealthHash
  dsimp only
  constructor
  · intro read
    split at read
    · cases read
    · rename_i digits
      rw [Bool.or_eq_true, not_or, decide_eq_true_eq, not_not, Bool.not_eq_true,
        Bool.not_eq_false'] at digits
      obtain ⟨tip, decoded⟩ := decoded_of_digits digits.1 digits.2
      refine ⟨tip, decoded, ?_⟩
      rw [← Except.ok.inj read]
      exact toAsciiLowercase_of_hexDecode decoded
  · rintro ⟨tip, decoded, rfl⟩
    obtain ⟨length, digits⟩ := hexDecodeChars_digits decoded
    rw [tip.toList_length] at length
    rw [if_neg, toAsciiLowercase_of_hexDecode decoded]
    rw [length, digits]
    decide

/-- Bytes are told apart by their texts. -/
theorem hexEncode_injective {bytes bytes' : List UInt8}
    (same : hexEncode bytes = hexEncode bytes') : bytes = bytes' := by
  have decoded := hexDecode_hexEncode bytes
  rw [same, hexDecode_hexEncode] at decoded
  exact (Option.some.inj decoded).symm

/-- The template provider strips the mark `0x` alone, and no blanks. -/
theorem currentTip_iff {value : String} {health : NodeHealth} {tip : Hash32}
    (answered : health.tip = some value) :
    currentTip health = .ok (some tip) ↔
      hexDecode ((stripPrefix "0x" value).getD value) = some tip.toList := by
  unfold currentTip decodeHash32Hex
  rw [answered, ← decodeHex_iff "node_tip"]
  dsimp only
  cases decodeHex 32 "node_tip" ((stripPrefix "0x" value).getD value) with
  | error failure => simp [Except.map]
  | ok read => simp [Except.map]

/-- Against the parent of a job the tip is compared in the byte order of the header. -/
theorem nodeTipMatches_iff {tip prevText : String} {prev : Hash32}
    (parent : decodePrevHashFromStratum prevText = .ok prev) :
    nodeTipMatchesJobPrevHash tip prevText = true ↔
      hexDecode ((stripPrefix "0x" tip).getD tip) = some prev.toList := by
  have reversed : hexDecode prevText = some prev.toList.reverse := by
    unfold decodePrevHashFromStratum at parent
    cases decoded : decodeHash32Hex "prev_hash_be_hex" prevText with
    | error failure =>
        rw [decoded] at parent
        cases parent
    | ok hash =>
        rw [decoded] at parent
        have same : hash.toList.reverse = prev.toList :=
          congrArg List.Vector.toList (Except.ok.inj parent)
        rw [← same, (decodeHex_iff _).1 decoded, List.reverse_reverse]
  have lowered : ∀ bytes : List UInt8,
      eqIgnoreAsciiCase (hexEncode bytes) prevText = true ↔ bytes = prev.toList.reverse := by
    intro bytes
    have left := toLower_of_hexDecodeChars (hexDecode_hexEncode bytes)
    have right := toLower_of_hexDecodeChars reversed
    unfold eqIgnoreAsciiCase
    rw [beq_iff_eq, left, right]
    constructor
    · intro same
      exact hexEncode_injective (congrArg String.ofList same)
    · rintro rfl
      rfl
  unfold nodeTipMatchesJobPrevHash
  cases decoded : hexDecode ((stripPrefix "0x" tip).getD tip) with
  | none => simp
  | some bytes =>
      dsimp only
      rw [Option.some.injEq]
      split
      · rename_i short
        simp only [Bool.false_eq_true, false_iff]
        rintro rfl
        exact short prev.toList_length
      · rw [lowered, List.reverse_inj]

/-- What the sentinel keeps of an answer: its height, the bytes of its tip and the number of its
chainwork. -/
structure Observed (health : NodeHealth) (seen : ObservedNodeTip) (tip : Hash32) (work : Nat) :
    Prop where
  height : health.height = some seen.height
  read : health.tip.bind CanonicalBlockHash.fromDisplayHex = some tip
  tipHex : seen.tipHex = hexEncode tip.toList
  number : health.chainwork.bind chainworkNumber = some work
  canonical : ∃ chainwork, health.chainwork = some chainwork ∧
    canonicalChainwork chainwork = .ok seen.chainworkHex

theorem observed_of_fromHealth {health : NodeHealth} {seen : ObservedNodeTip}
    (kept : ObservedNodeTip.fromHealth health = .ok seen) :
    ∃ tip work, Observed health seen tip work := by
  obtain ⟨height, tip, chainwork, peers⟩ := health
  unfold ObservedNodeTip.fromHealth at kept
  cases height with
  | none => cases kept
  | some height =>
      cases tip with
      | none => cases kept
      | some tip =>
          cases hash : canonicalHealthHash tip with
          | error failure =>
              simp [bind, Except.bind, hash] at kept
          | ok tipHex =>
              cases chainwork with
              | none => simp [bind, Except.bind, hash] at kept
              | some chainwork =>
                  cases work : canonicalChainwork chainwork with
                  | error failure => simp [bind, Except.bind, hash, work] at kept
                  | ok chainworkHex =>
                      simp [bind, Except.bind, hash, work, pure, Except.pure] at kept
                      subst kept
                      obtain ⟨bytes, read, written⟩ := canonicalHealthHash_iff.1 hash
                      refine ⟨bytes, hexNumber (significant chainwork), rfl, ?_, written, ?_,
                        chainwork, rfl, work⟩
                      · rw [Option.bind_some]
                        exact read
                      · rw [Option.bind_some]
                        exact (canonicalChainwork_ok work).number

/-- The sentinel decides on heights, bytes and numbers alone. -/
theorem invalidates_iff {primary secondary : NodeHealth} {seen seen' : ObservedNodeTip}
    {tip tip' : Hash32} {work work' : Nat} (observed : Observed primary seen tip work)
    (observed' : Observed secondary seen' tip' work') (parent : Hash32) :
    tipSentinelInvalidatesParent parent ⟨seen, seen'⟩ = true ↔
      tip ≠ parent ∨ seen'.height > seen.height ∨
        seen'.height = seen.height ∧ tip' ≠ tip ∧ work' ≥ work := by
  have spelled : ∀ a b : Hash32, hexEncode a.toList = hexEncode b.toList ↔ a = b := by
    intro a b
    constructor
    · intro same
      exact List.Vector.toList_injective (hexEncode_injective same)
    · rintro rfl
      rfl
  have atLeast : chainworkAtLeast seen'.chainworkHex seen.chainworkHex = true ↔ work ≤ work' := by
    obtain ⟨chainwork, answered, read⟩ := observed.canonical
    obtain ⟨chainwork', answered', read'⟩ := observed'.canonical
    have number := observed.number
    have number' := observed'.number
    rw [answered, Option.bind_some] at number
    rw [answered', Option.bind_some] at number'
    exact chainworkAtLeast_iff read' read number' number
  unfold tipSentinelInvalidatesParent
  dsimp only
  rw [observed.tipHex, observed'.tipHex]
  by_cases same : tip = parent
  · subst same
    rw [if_neg (not_not.2 rfl), Bool.or_eq_true_iff, Bool.and_eq_true_iff, Bool.and_eq_true_iff,
      atLeast, decide_eq_true_eq, decide_eq_true_eq, beq_iff_eq, Ne, spelled, and_assoc]
    simp
  · rw [if_pos (mt (spelled _ _).1 same)]
    simp [same]

/-! ## Agreement on the tip -/

/-- All readers take the text for the same 32 bytes, and so for the parent of the same jobs. -/
structure TipsAgree (value : String) : Prop where
  sentinel : ∀ text, canonicalHealthHash value = .ok text ↔
    ∃ tip, CanonicalBlockHash.fromDisplayHex value = some tip ∧ text = hexEncode tip.toList
  provider : ∀ (health : NodeHealth) (tip : Hash32), health.tip = some value →
    (currentTip health = .ok (some tip) ↔ CanonicalBlockHash.fromDisplayHex value = some tip)
  alert : ∀ (prevText : String) (prev : Hash32), decodePrevHashFromStratum prevText = .ok prev →
    (nodeTipMatchesJobPrevHash value prevText = true ↔
      CanonicalBlockHash.fromDisplayHex value = some prev)

/-- 64 hex digits, after a mark or none, between any blanks. -/
def SpellsTip (value : String) : Prop :=
  (stripMark (trim value)).toList.length = 64 ∧
    (stripMark (trim value)).toList.all isAsciiHexdigit = true

/-- Neither blanks nor `0X`. -/
def PlainTip (value : String) : Prop := trim value = value ∧ stripPrefix "0X" value = none

theorem stripMark_of_plain {value : String} (plain : PlainTip value) :
    stripMark (trim value) = (stripPrefix "0x" value).getD value := by
  rw [plain.1, stripMark, plain.2]
  cases stripPrefix "0x" value <;> rfl

theorem plain_of_decoded {value : String} {bytes : List UInt8}
    (decoded : hexDecode ((stripPrefix "0x" value).getD value) = some bytes) : PlainTip value := by
  have digits := List.all_eq_true.1 (hexDecodeChars_digits decoded).2
  have blankDigits : ∀ c ∈ ((stripPrefix "0x" value).getD value).toList,
      isWhitespace c = false := fun c member => not_blank_of_hexdigit (digits c member)
  constructor
  · apply trim_of_noBlanks
    cases stripped : stripPrefix "0x" value with
    | none =>
        rw [stripped] at blankDigits
        exact blankDigits
    | some rest =>
        rw [stripped] at blankDigits
        rw [stripPrefix_iff.1 stripped]
        intro c member
        rcases List.mem_append.1 member with mark | inside
        · have marks : "0x".toList.all (fun d => !isWhitespace d) = true := by decide
          exact (Bool.not_eq_true' _).mp (List.all_eq_true.1 marks c mark)
        · exact blankDigits c inside
  · rw [stripPrefix_none]
    intro rest upper
    have unmarked : stripPrefix "0x" value = none := by
      rw [stripPrefix_none]
      intro rest' lower
      rw [upper] at lower
      have second := (List.cons.inj (List.cons.inj lower).2).1
      exact absurd second (by decide)
    rw [unmarked, Option.getD_none, upper] at digits
    exact absurd (digits 'X' (by simp)) (by decide)

theorem spellsTip_iff {value : String} :
    SpellsTip value ↔ ∃ tip, CanonicalBlockHash.fromDisplayHex value = some tip := by
  simp only [fromDisplayHex_iff]
  constructor
  · rintro ⟨length, digits⟩
    exact decoded_of_digits length digits
  · rintro ⟨tip, decoded⟩
    obtain ⟨length, digits⟩ := hexDecodeChars_digits decoded
    rw [tip.toList_length] at length
    exact ⟨length, digits⟩

/-- The readers part over a tip that is spelled with blanks or another mark. -/
theorem tipsAgree_iff {value : String} :
    TipsAgree value ↔ (SpellsTip value → PlainTip value) := by
  constructor
  · intro agree spells
    obtain ⟨tip, read⟩ := spellsTip_iff.1 spells
    have provided := (agree.provider ⟨none, some value, none, none⟩ tip rfl).2 read
    exact plain_of_decoded ((currentTip_iff rfl).1 provided)
  · intro plain
    have same : ∀ tip : Hash32, hexDecode ((stripPrefix "0x" value).getD value) = some tip.toList ↔
        CanonicalBlockHash.fromDisplayHex value = some tip := by
      intro tip
      constructor
      · intro decoded
        rwa [fromDisplayHex_iff, stripMark_of_plain (plain_of_decoded decoded)]
      · intro read
        rwa [← stripMark_of_plain (plain (spellsTip_iff.2 ⟨tip, read⟩)), ← fromDisplayHex_iff]
    refine ⟨fun text => canonicalHealthHash_iff, ?_, ?_⟩
    · intro health tip answered
      rw [currentTip_iff answered, same]
    · intro prevText prev parent
      rw [nodeTipMatches_iff parent, same]

/-! ## Agreement on the chain -/

/-- The two nodes differ in height, in the bytes of the tip or in the number of the chainwork. -/
def ReallyDiffer (primary secondary : NodeHealth) : Prop :=
  primary.height ≠ secondary.height ∨
    primary.tip.bind CanonicalBlockHash.fromDisplayHex ≠
      secondary.tip.bind CanonicalBlockHash.fromDisplayHex ∨
    ¬ ∃ work, primary.chainwork.bind chainworkNumber = some work ∧
      secondary.chainwork.bind chainworkNumber = some work

/-- The answers that come to be compared: fresh, whole, with a peer and with tips of 32 bytes. -/
structure Compared (health : Option ParallelHealthSnapshot) (maxAge : Nat)
    (primary secondary : NodeHealth) : Prop where
  fresh : ∃ elapsed ≤ maxAge, health = some ⟨some primary, some secondary, elapsed⟩
  whole : primaryComplete primary = true ∧ secondaryComplete secondary = true
  peered : secondary.peers ≠ some 0
  tips : ∃ primaryTip secondaryTip,
    primary.tip.bind CanonicalBlockHash.fromDisplayHex = some primaryTip ∧
      secondary.tip.bind CanonicalBlockHash.fromDisplayHex = some secondaryTip

/-- One chainwork in two spellings, and no difference otherwise. -/
structure Respelled (primary secondary : NodeHealth) : Prop where
  respelled : primary.chainwork ≠ secondary.chainwork
  height : primary.height = secondary.height
  tip : primary.tip.bind CanonicalBlockHash.fromDisplayHex =
    secondary.tip.bind CanonicalBlockHash.fromDisplayHex
  work : ∃ work, primary.chainwork.bind chainworkNumber = some work ∧
    secondary.chainwork.bind chainworkNumber = some work

variable {health : Option ParallelHealthSnapshot} {maxAge : Nat}
  {candidate : BlockCandidateSubmitRequest}

theorem eligibility_mismatch_iff :
    secondarySubmitEligibility health maxAge candidate = .error "chain_state_mismatch" ↔
      ∃ primary secondary, Compared health maxAge primary secondary ∧
        (primary.height ≠ secondary.height ∨
          primary.tip.bind CanonicalBlockHash.fromDisplayHex ≠
            secondary.tip.bind CanonicalBlockHash.fromDisplayHex ∨
          primary.chainwork ≠ secondary.chainwork) := by
  unfold secondarySubmitEligibility
  constructor
  · intro mismatch
    split at mismatch
    · simp at mismatch
    · rename_i snapshot
      split at mismatch
      · simp at mismatch
      · rename_i fresh
        split at mismatch
        · rename_i primary secondary first second
          split at mismatch
          · simp at mismatch
          · rename_i whole
            split at mismatch
            · simp at mismatch
            · rename_i peered
              split at mismatch
              · rename_i primaryTip secondaryTip readPrimary readSecondary
                split at mismatch
                · rename_i differ
                  rw [Bool.or_eq_true, not_or, Bool.not_eq_true, Bool.not_eq_true,
                    Bool.not_eq_false', Bool.not_eq_false'] at whole
                  refine ⟨primary, secondary, ⟨⟨_, Nat.not_lt.1 fresh, ?_⟩, whole, peered,
                    ⟨_, _, readPrimary, readSecondary⟩⟩, ?_⟩
                  · rw [← first, ← second]
                  · rwa [readPrimary, readSecondary, (Option.some_injective _).ne_iff]
                · split at mismatch
                  · simp at mismatch
                  · split at mismatch
                    · simp at mismatch
                    · cases mismatch
              · simp at mismatch
        · simp at mismatch
  · rintro ⟨primary, secondary, ⟨⟨elapsed, fresh, rfl⟩, whole, peered, tips⟩, differ⟩
    obtain ⟨primaryTip, secondaryTip, readPrimary, readSecondary⟩ := tips
    rw [readPrimary, readSecondary, (Option.some_injective _).ne_iff] at differ
    dsimp only
    rw [if_neg (Nat.not_lt.2 fresh), if_neg (by simp [whole]), if_neg peered, readPrimary,
      readSecondary]
    dsimp only
    rw [if_pos differ]

/-- A mismatch is reported only of nodes that really differ. -/
def MismatchReal (health : Option ParallelHealthSnapshot) (maxAge : Nat)
    (candidate : BlockCandidateSubmitRequest) : Prop :=
  secondarySubmitEligibility health maxAge candidate = .error "chain_state_mismatch" →
    ∃ primary secondary elapsed, health = some ⟨some primary, some secondary, elapsed⟩ ∧
      ReallyDiffer primary secondary

theorem mismatchReal_iff :
    MismatchReal health maxAge candidate ↔
      ∀ primary secondary, Compared health maxAge primary secondary →
        ¬ Respelled primary secondary := by
  unfold MismatchReal
  rw [eligibility_mismatch_iff]
  constructor
  · intro real primary secondary compared respelled
    obtain ⟨primary', secondary', elapsed, same, differ⟩ :=
      real ⟨primary, secondary, compared, .inr (.inr respelled.respelled)⟩
    obtain ⟨elapsed', -, here⟩ := compared.fresh
    rw [here] at same
    cases same
    rcases differ with height | tip | work
    · exact height respelled.height
    · exact tip respelled.tip
    · exact work respelled.work
  · rintro unspelled ⟨primary, secondary, compared, differ⟩
    obtain ⟨elapsed, -, here⟩ := compared.fresh
    refine ⟨primary, secondary, elapsed, here, ?_⟩
    rcases differ with height | tip | chainwork
    · exact .inl height
    · exact .inr (.inl tip)
    · unfold ReallyDiffer
      by_contra same
      rw [not_or, not_or, not_not, not_not, not_not] at same
      exact unspelled primary secondary compared ⟨chainwork, same.1, same.2.1, same.2.2⟩

/-- **One tip under four readers.**  Chainworks are read and compared as numbers; the readers of
a tip agree on it exactly if it is written without blanks and without `0X`; and the fan-out guard
reports a mismatch that is none exactly of one chainwork in two spellings. -/
theorem node_tips_read (value left right : String) :
    (∀ leftText rightText, canonicalChainwork left = .ok leftText →
      canonicalChainwork right = .ok rightText →
      ∃ n m, chainworkNumber left = some n ∧ chainworkNumber right = some m ∧
        (chainworkAtLeast leftText rightText = true ↔ m ≤ n) ∧ (leftText = rightText ↔ n = m)) ∧
    (TipsAgree value ↔ (SpellsTip value → PlainTip value)) ∧
    ∀ health maxAge candidate, MismatchReal health maxAge candidate ↔
      ∀ primary secondary, Compared health maxAge primary secondary →
        ¬ Respelled primary secondary := by
  refine ⟨?_, tipsAgree_iff, fun health maxAge candidate => mismatchReal_iff⟩
  intro leftText rightText readLeft readRight
  have number := (canonicalChainwork_ok readLeft).number
  have number' := (canonicalChainwork_ok readRight).number
  exact ⟨_, _, number, number', chainworkAtLeast_iff readLeft readRight number number',
    canonicalChainwork_eq_iff readLeft readRight number number'⟩

/-- Two sizes and two spellings of a chainwork. -/
theorem node_tips_read_sample :
    ∃ n m, chainworkNumber " 0X0100" = some n ∧ chainworkNumber "0x00fF" = some m ∧
      (chainworkAtLeast "100" "ff" = true ↔ m ≤ n) ∧ ("100" = "ff" ↔ n = m) :=
  (node_tips_read "" _ _).1 _ _ (by decide +kernel) (by decide +kernel)

/-- A tip that the sentinel reads and the template provider does not. -/
def upperMarkTip : String := "0X0101010101010101010101010101010101010101010101010101010101010101"

def sameWork (chainwork : String) : NodeHealth where
  height := some 7
  tip := some upperMarkTip
  chainwork := some chainwork
  peers := some 3

/-- The sentinel and the fan-out guard read a tip with `0X`, which to the template provider and the
template-age alert is none; and of one chainwork in two spellings a mismatch is reported. -/
theorem spelling_divides_readers :
    ¬ TipsAgree upperMarkTip ∧
    ∀ candidate, ¬ MismatchReal
      (some ⟨some (sameWork "0xff"), some (sameWork "00FF"), 0⟩) 0 candidate := by
  have read : CanonicalBlockHash.fromDisplayHex upperMarkTip = some (List.Vector.replicate 32 1) := by
    decide +kernel
  refine ⟨fun agree => ?_, fun candidate real => ?_⟩
  · have plain := tipsAgree_iff.1 agree (spellsTip_iff.2 ⟨_, read⟩)
    exact absurd plain.2 (by decide +kernel)
  · refine mismatchReal_iff.1 real (sameWork "0xff") (sameWork "00FF")
      ⟨⟨0, Nat.le_refl 0, rfl⟩, by decide, by decide, ⟨_, _, read, read⟩⟩
      ⟨by decide, rfl, rfl, ⟨255, by decide +kernel, by decide +kernel⟩⟩

end Bridge

end CsdPool
