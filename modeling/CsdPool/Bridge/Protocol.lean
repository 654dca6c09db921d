/-
# Bridge.Protocol — the Stratum tuples and their lines

A `mining.notify` is an array of nine elements and a `mining.submit` one of five.  `parse` and the
builders are written apart, one position at a time; what a parser reads is exactly what the
builder puts out for it (`parse_notify_iff`, `parse_submit_iff`), so that each inverts the other
on the tuples of the right kinds (`NotifyTuple`, `SubmitTuple`).

The encoding of a value as text belongs to `serde_json`; a line is the text and one line feed.
-/
import CsdPool.Bridge.Submit
import CsdPool.Theory.Lines
import CsdPool.Theory.Transaction

namespace CsdPool.Bridge

open Theory (bind_ok)

set_option autoImplicit false

/-- Why a tuple or a line is refused, with the name of what was looked at. -/
inductive ProtocolError
  | expectedArray (field : String)
  | wrongLength (field : String) (expected actual : Nat)
  | notString (field : String)
  | notBool (field : String)
  | invalidHex (field : String)
  | json (error : String)
  deriving DecidableEq, Repr

/-- A request; a notification is one without an id. -/
structure Protocol.Request where
  id : Option Nat
  method : String
  params : Json

structure Protocol.Response where
  id : Option Nat
  result : Json
  error : Option Json

/-- The field is the name the error gives. -/
def asArray (value : Json) (field : String) : Except ProtocolError (List Json) :=
  value.asArray.elim (.error (.expectedArray field)) .ok

/-- The check of `arr.len()` both parsers make. -/
def checkLength (arr : List Json) (field : String) (expected : Nat) : Except ProtocolError Unit :=
  if arr.length ≠ expected then .error (.wrongLength field expected arr.length) else .ok ()

/-- The length is checked before any element is read. -/
def strAt (arr : List Json) (index : Nat) (field : String) : Except ProtocolError String :=
  (arr[index]?.bind Json.asStr).elim (.error (.notString field)) .ok

def boolAt (arr : List Json) (index : Nat) (field : String) : Except ProtocolError Bool :=
  (arr[index]?.bind Json.asBool).elim (.error (.notBool field)) .ok

/-- A text that is not hex is named by its field; the bytes themselves are not kept. -/
def validateHex (field value : String) : Except ProtocolError Unit :=
  (hexDecode value).elim (.error (.invalidHex field)) fun _ => .ok ()

/-- The loop over the hex fields. -/
def validateFields : List (String × String) → Except ProtocolError Unit
  | [] => .ok ()
  | (field, value) :: rest => do
      validateHex field value
      validateFields rest

/-- A branch is a text of hex. -/
def parseBranch (v : Json) : Except ProtocolError String := do
  let h ← v.asStr.elim (.error (.notString "merkle_branch")) .ok
  validateHex "merkle_branch" h
  return h

/-- The branches, up to the first that is refused. -/
def parseBranches : List Json → Except ProtocolError (List String)
  | [] => .ok []
  | v :: rest => do
      let h ← parseBranch v
      let hs ← parseBranches rest
      return h :: hs

/-- The nine elements in their order, but the branches last: an element of the wrong kind is
reported before a text that is not hex, and a branch after both. -/
def NotifyParams.parse (params : Json) : Except ProtocolError NotifyParams := do
  let arr ← asArray params "mining.notify params"
  checkLength arr "mining.notify params" 9
  let jobId ← strAt arr 0 "job_id"
  let prevHashBeHex ← strAt arr 1 "prev_hash_be_hex"
  let coinb1Hex ← strAt arr 2 "coinb1_hex"
  let coinb2Hex ← strAt arr 3 "coinb2_hex"
  let versionHex ← strAt arr 5 "version_hex"
  let nbitsHex ← strAt arr 6 "nbits_hex"
  let ntimeHex ← strAt arr 7 "ntime_hex"
  let cleanJobs ← boolAt arr 8 "clean_jobs"
  validateFields [("prev_hash_be_hex", prevHashBeHex), ("coinb1_hex", coinb1Hex),
    ("coinb2_hex", coinb2Hex), ("version_hex", versionHex), ("nbits_hex", nbitsHex),
    ("ntime_hex", ntimeHex)]
  let branches ← asArray (arr[4]?.getD .null) "merkle_branches_hex"
  let merkleBranchesHex ← parseBranches branches
  return {
    jobId, prevHashBeHex, coinb1Hex, coinb2Hex, merkleBranchesHex, versionHex, nbitsHex, ntimeHex,
    cleanJobs }

/-- The five elements in their order, and the hex of the last three after all of them. -/
def SubmitParams.parse (params : Json) : Except ProtocolError SubmitParams := do
  let arr ← asArray params "mining.submit params"
  checkLength arr "mining.submit params" 5
  let workerName ← strAt arr 0 "worker_name"
  let jobId ← strAt arr 1 "job_id"
  let extranonce2Hex ← strAt arr 2 "extranonce2_hex"
  let ntimeHex ← strAt arr 3 "ntime_hex"
  let nonceHex ← strAt arr 4 "nonce_hex"
  validateFields [("extranonce2_hex", extranonce2Hex), ("ntime_hex", ntimeHex),
    ("nonce_hex", nonceHex)]
  return { workerName, jobId, extranonce2Hex, ntimeHex, nonceHex }

/-- The notification of a job. -/
def notify (params : NotifyParams) : Protocol.Request where
  id := none
  method := "mining.notify"
  params := .array [.string params.jobId, .string params.prevHashBeHex, .string params.coinb1Hex,
    .string params.coinb2Hex, .array (params.merkleBranchesHex.map .string),
    .string params.versionHex, .string params.nbitsHex, .string params.ntimeHex,
    .bool params.cleanJobs]

/-- The request of a submit, under the sender's id. -/
def submitRequest (id : Nat) (submit : SubmitParams) : Protocol.Request where
  id := some id
  method := "mining.submit"
  params := .array [.string submit.workerName, .string submit.jobId,
    .string submit.extranonce2Hex, .string submit.ntimeHex, .string submit.nonceHex]

def idValue (id : Option Nat) : Json := id.elim .null fun n => .number (.unsigned n)

/-- What `#[derive(Serialize)]` writes of a request. -/
def Protocol.Request.toValue (request : Protocol.Request) : Json :=
  .object [("id", idValue request.id), ("method", .string request.method),
    ("params", request.params)]

def Protocol.Response.toValue (response : Protocol.Response) : Json :=
  .object [("id", idValue response.id), ("result", response.result),
    ("error", response.error.getD .null)]

/-- The text of a value and one line feed. -/
def serializeLine (serde : SerdeJson) (value : Json) : Except ProtocolError String := do
  let line ← (serde.toText value).mapError .json
  return line ++ "\n"

/-! ## The tuples -/

/-- Hex digits in pairs, in either case. -/
def HexText (text : String) : Prop :=
  2 ∣ text.toList.length ∧ text.toList.all isAsciiHexdigit = true

instance (text : String) : Decidable (HexText text) :=
  inferInstanceAs (Decidable (2 ∣ text.toList.length ∧ _))

/-- What the parser checks of a notify beyond the kinds of its elements. -/
structure NotifyParams.HexValid (p : NotifyParams) : Prop where
  prevHash : HexText p.prevHashBeHex
  coinb1 : HexText p.coinb1Hex
  coinb2 : HexText p.coinb2Hex
  branches : ∀ h ∈ p.merkleBranchesHex, HexText h
  version : HexText p.versionHex
  nbits : HexText p.nbitsHex
  ntime : HexText p.ntimeHex

/-- What the parser checks of a submit beyond the kinds of its elements. -/
structure SubmitParams.HexValid (p : SubmitParams) : Prop where
  extranonce2 : HexText p.extranonce2Hex
  ntime : HexText p.ntimeHex
  nonce : HexText p.nonceHex

def IsText (v : Json) : Prop := ∃ s, v = .string s

def IsHex (v : Json) : Prop := ∃ s, v = .string s ∧ HexText s

def IsHexArray (v : Json) : Prop := ∃ items, v = .array items ∧ ∀ item ∈ items, IsHex item

def IsBool (v : Json) : Prop := ∃ b, v = .bool b

/-- Nine elements of the kinds of a `mining.notify`. -/
def NotifyTuple (v : Json) : Prop :=
  ∃ jobId prevHash coinb1 coinb2 branches version nbits ntime cleanJobs,
    v = .array [jobId, prevHash, coinb1, coinb2, branches, version, nbits, ntime, cleanJobs] ∧
    IsText jobId ∧ IsHex prevHash ∧ IsHex coinb1 ∧ IsHex coinb2 ∧ IsHexArray branches ∧
    IsHex version ∧ IsHex nbits ∧ IsHex ntime ∧ IsBool cleanJobs

/-- Five elements of the kinds of a `mining.submit`. -/
def SubmitTuple (v : Json) : Prop :=
  ∃ workerName jobId extranonce2 ntime nonce,
    v = .array [workerName, jobId, extranonce2, ntime, nonce] ∧
    IsText workerName ∧ IsText jobId ∧ IsHex extranonce2 ∧ IsHex ntime ∧ IsHex nonce

/-! ## Elements -/

theorem asArray_ok {v : Json} {field : String} {arr : List Json} :
    asArray v field = .ok arr ↔ v = .array arr := by
  cases v <;> simp [asArray, Json.asArray]

theorem checkLength_ok {arr : List Json} {field : String} {expected : Nat} {u : Unit} :
    checkLength arr field expected = .ok u ↔ arr.length = expected := by
  unfold checkLength
  by_cases same : arr.length = expected
  · simp [same]
  · simp [same]

theorem strAt_ok {arr : List Json} {index : Nat} {field s : String} :
    strAt arr index field = .ok s ↔ arr[index]? = some (.string s) := by
  unfold strAt
  cases arr[index]? with
  | none => simp
  | some v => cases v <;> simp [Json.asStr]

theorem boolAt_ok {arr : List Json} {index : Nat} {field : String} {b : Bool} :
    boolAt arr index field = .ok b ↔ arr[index]? = some (.bool b) := by
  unfold boolAt
  cases arr[index]? with
  | none => simp
  | some v => cases v <;> simp [Json.asBool]

/-- What can be decoded are the pairs of hex digits. -/
theorem hexDecode_iff {text : String} : (hexDecode text).isSome = true ↔ HexText text := by
  constructor
  · intro decoded
    obtain ⟨bytes, decoded⟩ := Option.isSome_iff_exists.1 decoded
    obtain ⟨length, digits⟩ := hexDecodeChars_digits decoded
    exact ⟨⟨_, length⟩, digits⟩
  · rintro ⟨⟨half, length⟩, digits⟩
    exact hexDecodeChars_isSome length digits

theorem validateHex_ok {field value : String} {u : Unit} :
    validateHex field value = .ok u ↔ HexText value := by
  rw [← hexDecode_iff]
  unfold validateHex
  cases hexDecode value <;> simp

/-- The loop passes exactly if every field does. -/
theorem validateFields_ok {fields : List (String × String)} {u : Unit} :
    validateFields fields = .ok u ↔ ∀ field ∈ fields, HexText field.2 := by
  induction fields with
  | nil => simp [validateFields]
  | cons field rest ih =>
      rw [validateFields, bind_ok, List.forall_mem_cons, ← ih]
      constructor
      · rintro ⟨_, valid, later⟩
        exact ⟨validateHex_ok.1 valid, later⟩
      · rintro ⟨valid, later⟩
        exact ⟨(), validateHex_ok.2 valid, later⟩

theorem parseBranch_ok {v : Json} {h : String} :
    parseBranch v = .ok h ↔ v = .string h ∧ HexText h := by
  unfold parseBranch
  rw [bind_ok]
  constructor
  · rintro ⟨s, read, later⟩
    obtain ⟨_, valid, same⟩ := bind_ok.1 later
    cases v <;> cases read
    cases same
    exact ⟨rfl, validateHex_ok.1 valid⟩
  · rintro ⟨rfl, valid⟩
    exact ⟨h, rfl, bind_ok.2 ⟨(), validateHex_ok.2 valid, rfl⟩⟩

/-- The branches are read exactly if each is a text of hex, and are read as they stand. -/
theorem parseBranches_ok {items : List Json} {hs : List String} :
    parseBranches items = .ok hs ↔ items = hs.map .string ∧ ∀ h ∈ hs, HexText h := by
  induction items generalizing hs with
  | nil =>
      cases hs <;> simp [parseBranches]
  | cons v rest ih =>
      rw [parseBranches, bind_ok]
      constructor
      · rintro ⟨h, first, later⟩
        obtain ⟨hs', others, same⟩ := bind_ok.1 later
        cases same
        obtain ⟨rfl, valid⟩ := parseBranch_ok.1 first
        obtain ⟨rfl, valid'⟩ := ih.1 others
        exact ⟨rfl, List.forall_mem_cons.2 ⟨valid, valid'⟩⟩
      · rintro ⟨same, valid⟩
        cases hs with
        | nil => cases same
        | cons h hs =>
            obtain ⟨rfl, rfl⟩ := List.cons.inj same
            obtain ⟨valid, valid'⟩ := List.forall_mem_cons.1 valid
            exact ⟨h, parseBranch_ok.2 ⟨rfl, valid⟩, bind_ok.2 ⟨hs, ih.2 ⟨rfl, valid'⟩, rfl⟩⟩

/-! ## Both directions -/

/-- What the builder makes of valid parameters is read back. -/
theorem parse_notify_of_valid {p : NotifyParams} (valid : p.HexValid) :
    NotifyParams.parse (notify p).params = .ok p := by
  unfold NotifyParams.parse
  simp only [bind_ok]
  refine ⟨_, rfl, (), rfl, _, rfl, _, rfl, _, rfl, _, rfl, _, rfl, _, rfl, _, rfl, _, rfl, (), ?_,
    _, rfl, p.merkleBranchesHex, parseBranches_ok.2 ⟨rfl, valid.branches⟩, rfl⟩
  rw [validateFields_ok]
  simpa using ⟨valid.prevHash, valid.coinb1, valid.coinb2, valid.version, valid.nbits, valid.ntime⟩

/-- **The notify parser.** -/
theorem parse_notify_iff {v : Json} {p : NotifyParams} :
    NotifyParams.parse v = .ok p ↔ v = (notify p).params ∧ p.HexValid := by
  constructor
  · intro parsed
    unfold NotifyParams.parse at parsed
    simp only [bind_ok] at parsed
    obtain ⟨arr, isArray, _, length, jobId, at0, prevHash, at1, coinb1, at2, coinb2, at3, version,
      at5, nbits, at6, ntime, at7, cleanJobs, at8, _, valid, branches, at4, hashes, read, same⟩ :=
      parsed
    cases same
    obtain rfl := asArray_ok.1 isArray
    rw [checkLength_ok] at length
    rw [strAt_ok] at at0 at1 at2 at3 at5 at6 at7
    rw [boolAt_ok] at at8
    rw [asArray_ok] at at4
    obtain ⟨rfl, validBranches⟩ := parseBranches_ok.1 read
    rw [validateFields_ok] at valid
    simp only [List.forall_mem_cons, List.not_mem_nil, false_implies, implies_true,
      and_true] at valid
    obtain ⟨v1, v2, v3, v5, v6, v7⟩ := valid
    refine ⟨?_, v1, v2, v3, validBranches, v5, v6, v7⟩
    match arr, length with
    | [a0, a1, a2, a3, a4, a5, a6, a7, a8], _ =>
        cases at0
        cases at1
        cases at2
        cases at3
        cases at5
        cases at6
        cases at7
        cases at8
        cases at4
        rfl
  · rintro ⟨rfl, valid⟩
    exact parse_notify_of_valid valid

/-- What the builder makes of valid parameters is read back, under whatever id it was sent. -/
theorem parse_submit_of_valid {p : SubmitParams} (id : Nat) (valid : p.HexValid) :
    SubmitParams.parse (submitRequest id p).params = .ok p := by
  unfold SubmitParams.parse
  simp only [bind_ok]
  refine ⟨_, rfl, (), rfl, _, rfl, _, rfl, _, rfl, _, rfl, _, rfl, (), ?_, rfl⟩
  rw [validateFields_ok]
  simpa using ⟨valid.extranonce2, valid.ntime, valid.nonce⟩

/-- **The submit parser.** -/
theorem parse_submit_iff {v : Json} {p : SubmitParams} (id : Nat) :
    SubmitParams.parse v = .ok p ↔ v = (submitRequest id p).params ∧ p.HexValid := by
  constructor
  · intro parsed
    unfold SubmitParams.parse at parsed
    simp only [bind_ok] at parsed
    obtain ⟨arr, isArray, _, length, worker, at0, jobId, at1, extranonce2, at2, ntime, at3, nonce,
      at4, _, valid, same⟩ := parsed
    cases same
    obtain rfl := asArray_ok.1 isArray
    rw [checkLength_ok] at length
    rw [strAt_ok] at at0 at1 at2 at3 at4
    rw [validateFields_ok] at valid
    simp only [List.forall_mem_cons, List.not_mem_nil, false_implies, implies_true,
      and_true] at valid
    obtain ⟨v2, v3, v4⟩ := valid
    refine ⟨?_, v2, v3, v4⟩
    match arr, length with
    | [a0, a1, a2, a3, a4], _ =>
        cases at0
        cases at1
        cases at2
        cases at3
        cases at4
        rfl
  · rintro ⟨rfl, valid⟩
    exact parse_submit_of_valid id valid

theorem hexArray_iff {v : Json} :
    IsHexArray v ↔ ∃ hs : List String, v = .array (hs.map .string) ∧ ∀ h ∈ hs, HexText h := by
  constructor
  · rintro ⟨items, rfl, hex⟩
    induction items with
    | nil => exact ⟨[], rfl, fun h member => (by cases member)⟩
    | cons item items ih =>
        obtain ⟨⟨h, rfl, valid⟩, hex'⟩ := List.forall_mem_cons.1 hex
        obtain ⟨hs, same, valid'⟩ := ih hex'
        cases same
        exact ⟨h :: hs, rfl, List.forall_mem_cons.2 ⟨valid, valid'⟩⟩
  · rintro ⟨hs, rfl, valid⟩
    refine ⟨_, rfl, fun item member => ?_⟩
    obtain ⟨h, inHs, rfl⟩ := List.mem_map.1 member
    exact ⟨h, rfl, valid h inHs⟩

/-- Nine elements of the right kinds are what the builder puts out for valid parameters. -/
theorem notifyTuple_iff {v : Json} :
    NotifyTuple v ↔ ∃ p : NotifyParams, v = (notify p).params ∧ p.HexValid := by
  constructor
  · rintro ⟨_, _, _, _, _, _, _, _, _, rfl, ⟨jobId, rfl⟩, ⟨prevHash, rfl, v1⟩, ⟨coinb1, rfl, v2⟩,
      ⟨coinb2, rfl, v3⟩, branches, ⟨version, rfl, v5⟩, ⟨nbits, rfl, v6⟩, ⟨ntime, rfl, v7⟩,
      ⟨cleanJobs, rfl⟩⟩
    obtain ⟨hs, rfl, v4⟩ := hexArray_iff.1 branches
    exact ⟨⟨jobId, prevHash, coinb1, coinb2, hs, version, nbits, ntime, cleanJobs⟩, rfl,
      v1, v2, v3, v4, v5, v6, v7⟩
  · rintro ⟨p, rfl, valid⟩
    exact ⟨_, _, _, _, _, _, _, _, _, rfl, ⟨_, rfl⟩, ⟨_, rfl, valid.prevHash⟩,
      ⟨_, rfl, valid.coinb1⟩, ⟨_, rfl, valid.coinb2⟩, hexArray_iff.2 ⟨_, rfl, valid.branches⟩,
      ⟨_, rfl, valid.version⟩, ⟨_, rfl, valid.nbits⟩, ⟨_, rfl, valid.ntime⟩, ⟨_, rfl⟩⟩

/-- Five elements of the right kinds are what the builder puts out for valid parameters. -/
theorem submitTuple_iff {v : Json} (id : Nat) :
    SubmitTuple v ↔ ∃ p : SubmitParams, v = (submitRequest id p).params ∧ p.HexValid := by
  constructor
  · rintro ⟨_, _, _, _, _, rfl, ⟨worker, rfl⟩, ⟨jobId, rfl⟩, ⟨extranonce2, rfl, v2⟩,
      ⟨ntime, rfl, v3⟩, ⟨nonce, rfl, v4⟩⟩
    exact ⟨⟨worker, jobId, extranonce2, ntime, nonce⟩, rfl, v2, v3, v4⟩
  · rintro ⟨p, rfl, valid⟩
    exact ⟨_, _, _, _, _, rfl, ⟨_, rfl⟩, ⟨_, rfl⟩, ⟨_, rfl, valid.extranonce2⟩,
      ⟨_, rfl, valid.ntime⟩, ⟨_, rfl, valid.nonce⟩⟩

/-! ## Lines -/

/-- `serde_json` escapes control characters in what it writes. -/
def EscapesControls (serde : SerdeJson) : Prop :=
  ∀ value text, serde.toText value = .ok text → ∀ c ∈ text.toList, 0x20 ≤ c.toNat

/-- What `serde_json` writes it reads back. -/
def DecodesEncoded (serde : SerdeJson) : Prop :=
  ∀ value text, serde.toText value = .ok text → serde.fromText text = .ok value

/-- Whenever the value has a text, it has a line: the text, which decodes to the value, and the
one newline at its end. -/
def OneLine (serde : SerdeJson) (value : Json) : Prop :=
  ∀ text, serde.toText value = .ok text →
    serializeLine serde value = .ok (text ++ "\n") ∧
    Theory.Lines.IsLine '\n' (text ++ "\n").toList ∧ serde.fromText text = .ok value

/-- The escapes leave no line feed inside of a text, so the one at its end is the only one. -/
theorem oneLine {serde : SerdeJson} (controls : EscapesControls serde)
    (decodes : DecodesEncoded serde) (value : Json) : OneLine serde value := by
  intro text written
  refine ⟨?_, ⟨text.toList, String.toList_append, ?_⟩, decodes value text written⟩
  · unfold serializeLine
    rw [written]
    rfl
  · intro newline
    exact absurd (controls value text written '\n' newline) (by decide)

/-- **The Stratum codec.**  The parsers and the builders invert each other on exactly the tuples
of the right kinds, and every message is one line. -/
theorem stratum_codec {serde : SerdeJson} (controls : EscapesControls serde)
    (decodes : DecodesEncoded serde) :
    (∀ p : NotifyParams, p.HexValid → NotifyParams.parse (notify p).params = .ok p) ∧
    (∀ (id : Nat) (p : SubmitParams), p.HexValid →
      SubmitParams.parse (submitRequest id p).params = .ok p) ∧
    (∀ v : Json, ((∃ p, NotifyParams.parse v = .ok p) ↔ NotifyTuple v) ∧
      ∀ p, NotifyParams.parse v = .ok p → (notify p).params = v) ∧
    (∀ v : Json, ((∃ p, SubmitParams.parse v = .ok p) ↔ SubmitTuple v) ∧
      ∀ id p, SubmitParams.parse v = .ok p → (submitRequest id p).params = v) ∧
    (∀ request : Protocol.Request, OneLine serde request.toValue) ∧
    ∀ response : Protocol.Response, OneLine serde response.toValue := by
  refine ⟨fun p valid => parse_notify_of_valid valid,
    fun id p valid => parse_submit_of_valid id valid, fun v => ⟨?_, fun p parsed => ?_⟩,
    fun v => ⟨?_, fun id p parsed => ?_⟩, fun request => oneLine controls decodes _,
    fun response => oneLine controls decodes _⟩
  · simp only [parse_notify_iff, notifyTuple_iff]
  · exact (parse_notify_iff.1 parsed).1.symm
  · simp only [parse_submit_iff 0, submitTuple_iff 0]
  · exact ((parse_submit_iff id).1 parsed).1.symm

def sampleSubmit : SubmitParams := ⟨"abc", "job1", "01020304", "665544cc", "0a0b0c0d"⟩

def sampleText : String :=
  "\x7b\"id\":1,\"method\":\"mining.submit\"," ++
    "\"params\":[\"abc\",\"job1\",\"01020304\",\"665544cc\",\"0a0b0c0d\"]\x7d"

/-- The encoding of the sample, and of nothing else. -/
def sampleSerde : SerdeJson where
  toText
    | .object [("id", .number (.unsigned 1)), ("method", .string "mining.submit"), ("params",
        .array [.string "abc", .string "job1", .string "01020304", .string "665544cc",
          .string "0a0b0c0d"])] => .ok sampleText
    | _ => .error "not the sample"
  fromText text :=
    if text = sampleText then .ok (submitRequest 1 sampleSubmit).toValue
    else .error "not the sample"

theorem stratum_codec_sample :
    SubmitParams.parse (submitRequest 1 sampleSubmit).params = .ok sampleSubmit ∧
      serializeLine sampleSerde (submitRequest 1 sampleSubmit).toValue =
        .ok (sampleText ++ "\n") := by
  have codec := @stratum_codec sampleSerde
    (by
      intro value text written
      unfold sampleSerde at written
      dsimp only at written
      split at written
      · cases written
        have printed : sampleText.toList.all (fun c => decide (0x20 ≤ c.toNat)) = true := by
          decide +kernel
        exact fun c member => of_decide_eq_true (List.all_eq_true.1 printed c member)
      · cases written)
    (by
      intro value text written
      unfold sampleSerde at written ⊢
      dsimp only at written ⊢
      split at written
      · cases written
        rw [if_pos rfl]
        rfl
      · cases written)
  exact ⟨codec.2.1 1 sampleSubmit ⟨by decide, by decide, by decide⟩,
    (codec.2.2.2.2.1 (submitRequest 1 sampleSubmit) sampleText rfl).1⟩

end CsdPool.Bridge
