/-
# Payout.SignerService — the signer the payout workers call

`POST /api/payout/sign` of `csd-pool-signer`: the bearer token, the checks of the request and
the mock transaction made of it.  The token is compared without an early exit; the comparison is
still equality of the two texts (`authorize_iff`).

Which requests it signs is `validateSignRequest_ok`; what it answers passes the checks of the
worker that asked (`mock_accepted`).

The canonical text of a request is `serde_json`'s.
-/
import CsdPool.Consensus
import CsdPool.Payout.Signer
import Mathlib.Data.Nat.Bitwise

namespace CsdPool.SignerService

set_option autoImplicit false

inductive SignerError
  | unauthorized
  | badRequest (message : String)
  | json (error : String)
  deriving DecidableEq, Repr

/-- `as_bytes`. -/
def asBytes (text : String) : List UInt8 := text.toByteArray.data.toList

/-- The loop over the longer of the two. -/
def constantTimeEq (left right : List UInt8) : Bool :=
  (List.range (max left.length right.length)).foldl
    (fun diff index => diff ||| ((left[index]?.getD 0) ^^^ (right[index]?.getD 0)).toNat)
    (left.length ^^^ right.length) == 0

/-- `authorization` is the header, when it is there, and its text, when it has one. -/
def authorize (authorization : Option (Option String)) (token : Option String) :
    Except SignerError Unit :=
  match token with
  | none => .ok ()
  | some expected =>
      match authorization with
      | none => .error .unauthorized
      | some none => .error .unauthorized
      | some (some value) =>
          if ((stripPrefix "Bearer " value).map fun actual =>
              constantTimeEq (asBytes actual) (asBytes expected)).getD false then .ok ()
          else .error .unauthorized

def isAddr20 (value : String) : Bool :=
  value.toList.length == 40 && value.toList.all isAsciiHexdigit

/-- One output of the `try_fold`. -/
def addOutput (total : Nat) (output : SignPayoutOutput) : Except SignerError Nat :=
  if !isAddr20 output.address then .error (.badRequest "output address must be 40 hex chars")
  else if output.amountBaseUnits = 0 then .error (.badRequest "output amount must be positive")
  else if total + output.amountBaseUnits < 2 ^ 128 then .ok (total + output.amountBaseUnits)
  else .error (.badRequest "output total overflow")

def validateSignRequest (request : SignPayoutRequest) : Except SignerError Unit :=
  if (trim request.batchId).toList.isEmpty then .error (.badRequest "batch_id is required")
  else if request.outputs.isEmpty then .error (.badRequest "outputs are required")
  else
    match request.outputs.foldlM addOutput 0 with
    | .error error => .error error
    | .ok total =>
        if total ≠ request.totalBaseUnits then
          .error (.badRequest "output total does not match batch total")
        else .ok ()

/-- The request as JSON, its fields in the order of the structure. -/
def requestJson (request : SignPayoutRequest) : Json :=
  .object [
    ("batch_id", .string request.batchId),
    ("total_base_units", .number (.unsigned request.totalBaseUnits)),
    ("outputs", .array (request.outputs.map fun output => .object [
      ("address", .string output.address),
      ("amount_base_units", .number (.unsigned output.amountBaseUnits))]))]

def sha256dHex (digest : Digest) (bytes : List UInt8) : String :=
  hexEncode (sha256d digest bytes).toList

def signPayout (digest : Digest) (serde : SerdeJson) (token : Option String)
    (authorization : Option (Option String)) (request : SignPayoutRequest) :
    Except SignerError SignedPayoutResponse := do
  authorize authorization token
  validateSignRequest request
  match serde.toText (requestJson request) with
  | .error error => .error (.json error)
  | .ok canonical =>
      let rawTxHex := hexEncode (asBytes "csd-payout-mock-v1:" ++ asBytes canonical)
      .ok { rawTxHex := some rawTxHex, nodeTx := none, txid := sha256dHex digest (asBytes rawTxHex) }

/-! ## The token -/

theorem foldl_or_eq_zero (diffs : List Nat) (diff : Nat) :
    diffs.foldl (· ||| ·) diff = 0 ↔ diff = 0 ∧ ∀ d ∈ diffs, d = 0 := by
  induction diffs generalizing diff with
  | nil => simp
  | cons d diffs ih =>
      rw [List.foldl_cons, ih, Nat.or_eq_zero_iff, List.forall_mem_cons, and_assoc]

/-- Looking at every byte is looking whether they are the same. -/
theorem constantTimeEq_iff (left right : List UInt8) :
    constantTimeEq left right = true ↔ left = right := by
  have folded := foldl_or_eq_zero
    ((List.range (max left.length right.length)).map fun index =>
      ((left[index]?.getD 0) ^^^ (right[index]?.getD 0)).toNat) (left.length ^^^ right.length)
  rw [List.foldl_map] at folded
  rw [constantTimeEq, beq_iff_eq, folded]
  constructor
  · rintro ⟨lengths, bytes⟩
    have sameLength : left.length = right.length := Nat.eq_of_xor_eq_zero lengths
    refine List.ext_getElem sameLength fun index inLeft inRight => ?_
    have same := bytes _ (List.mem_map_of_mem (List.mem_range.2 (lt_max_of_lt_left inLeft)))
    rw [List.getElem?_eq_getElem inLeft, List.getElem?_eq_getElem inRight, Option.getD_some,
      Option.getD_some, ← UInt8.toNat_zero, UInt8.toNat_inj] at same
    exact UInt8.xor_eq_zero_iff.1 same
  · rintro rfl
    refine ⟨Nat.xor_self _, fun diff member => ?_⟩
    obtain ⟨index, -, rfl⟩ := List.mem_map.1 member
    rw [UInt8.xor_self]
    rfl

theorem asBytes_inj {left right : String} : asBytes left = asBytes right ↔ left = right := by
  refine ⟨fun same => String.toByteArray_inj.1 (ByteArray.ext ?_), fun same => same ▸ rfl⟩
  exact Array.toList_inj.1 same

/-- **The signer answers who sends its token.** -/
theorem authorize_iff (authorization : Option (Option String)) (token : Option String) :
    authorize authorization token = .ok () ↔
      ∀ expected, token = some expected → authorization = some (some ("Bearer " ++ expected)) := by
  cases token with
  | none => simp [authorize]
  | some expected =>
      have sent : ∀ value : String, ((stripPrefix "Bearer " value).map fun actual =>
          constantTimeEq (asBytes actual) (asBytes expected)).getD false = true ↔
            value = "Bearer " ++ expected := by
        intro value
        rw [← String.toList_inj, String.toList_append, ← stripPrefix_iff]
        cases stripPrefix "Bearer " value with
        | none => simp
        | some actual =>
            rw [Option.map_some, Option.getD_some, constantTimeEq_iff, asBytes_inj,
              Option.some.injEq]
      rcases authorization with _ | _ | value
      · simp [authorize]
      · simp [authorize]
      · rw [authorize]
        simp only [Option.some.injEq, forall_eq', ← sent]
        split <;> simp_all

/-! ## The request -/

theorem addOutput_ok {total total' : Nat} {output : SignPayoutOutput} :
    addOutput total output = .ok total' ↔
      (isAddr20 output.address = true ∧ output.amountBaseUnits ≠ 0) ∧
        total' = total + output.amountBaseUnits ∧ total' < 2 ^ 128 := by
  unfold addOutput
  cases isAddr20 output.address with
  | false => simp
  | true =>
      by_cases zero : output.amountBaseUnits = 0
      · simp [zero]
      · by_cases within : total + output.amountBaseUnits < 2 ^ 128
        · rw [if_neg (by simp), if_neg zero, if_pos within, Except.ok.injEq]
          exact ⟨fun same => ⟨⟨rfl, zero⟩, same.symm, same ▸ within⟩, fun h => h.2.1.symm⟩
        · rw [if_neg (by simp), if_neg zero, if_neg within]
          exact ⟨nofun, fun ⟨_, same, small⟩ => absurd (same ▸ small) within⟩

/-- The checked sum is the sum, where no prefix of it overflows. -/
theorem foldlM_addOutput_ok {outputs : List SignPayoutOutput} {start total : Nat}
    (within : start < 2 ^ 128) :
    outputs.foldlM addOutput start = .ok total ↔
      (∀ output ∈ outputs, isAddr20 output.address = true ∧ output.amountBaseUnits ≠ 0) ∧
        total = start + (outputs.map SignPayoutOutput.amountBaseUnits).sum ∧
          total < 2 ^ 128 := by
  induction outputs generalizing start with
  | nil =>
      show Except.ok start = .ok total ↔ _
      rw [Except.ok.injEq]
      constructor
      · rintro rfl
        exact ⟨nofun, rfl, within⟩
      · rintro ⟨-, same, -⟩
        exact same.symm
  | cons output rest ih =>
      rw [Theory.foldlM_ok_cons, List.forall_mem_cons, List.map_cons, List.sum_cons]
      constructor
      · rintro ⟨mid, first, later⟩
        obtain ⟨legal, rfl, small⟩ := addOutput_ok.1 first
        obtain ⟨legals, rfl, fits⟩ := (ih small).1 later
        exact ⟨⟨legal, legals⟩, by omega, fits⟩
      · rintro ⟨⟨legal, legals⟩, same, fits⟩
        have small : start + output.amountBaseUnits < 2 ^ 128 := by omega
        exact ⟨_, addOutput_ok.2 ⟨legal, rfl, small⟩, (ih small).2 ⟨legals, by omega, fits⟩⟩

/-- **What the signer asks of a request.** -/
theorem validateSignRequest_ok (request : SignPayoutRequest) :
    validateSignRequest request = .ok () ↔
      (trim request.batchId).toList ≠ [] ∧ request.outputs ≠ [] ∧
        (∀ output ∈ request.outputs, isAddr20 output.address = true ∧
          output.amountBaseUnits ≠ 0) ∧
        request.totalBaseUnits = (request.outputs.map SignPayoutOutput.amountBaseUnits).sum ∧
          request.totalBaseUnits < 2 ^ 128 := by
  unfold validateSignRequest
  by_cases blank : (trim request.batchId).toList = []
  · simp [blank]
  rw [if_neg (by simpa using blank)]
  by_cases none_ : request.outputs = []
  · simp [none_]
  rw [if_neg (by simpa using none_)]
  have sum := @foldlM_addOutput_ok request.outputs 0 request.totalBaseUnits (by decide)
  rw [Nat.zero_add] at sum
  have folded : request.outputs.foldlM addOutput 0 = .ok request.totalBaseUnits ↔
      (match request.outputs.foldlM addOutput 0 with
        | .error error => .error error
        | .ok total =>
            if total ≠ request.totalBaseUnits then
              .error (.badRequest "output total does not match batch total")
            else .ok ()) = Except.ok () := by
    cases request.outputs.foldlM addOutput 0 with
    | error error => simp
    | ok total =>
        dsimp only
        split <;> simp_all
  rw [← folded, sum]
  exact ⟨fun h => ⟨blank, none_, h⟩, fun h => h.2.2⟩

/-- The signer answers authorised requests that pass its checks, as soon as `serde_json` does. -/
theorem signPayout_ok (digest : Digest) {serde : SerdeJson} (token : Option String)
    (authorization : Option (Option String)) {request : SignPayoutRequest} {canonical : String}
    (written : serde.toText (requestJson request) = .ok canonical) :
    (∃ response, signPayout digest serde token authorization request = .ok response) ↔
      authorize authorization token = .ok () ∧ validateSignRequest request = .ok () := by
  unfold signPayout
  cases authorize authorization token with
  | error error => simp [bind, Except.bind]
  | ok _ =>
      cases validateSignRequest request with
      | error error => simp [bind, Except.bind]
      | ok _ => simp [bind, Except.bind, written]

/-! ## The answer -/

/-- A mock transaction is hex, and so is its id. -/
theorem signPayout_shape {digest : Digest} {serde : SerdeJson} {token : Option String}
    {authorization : Option (Option String)} {request : SignPayoutRequest}
    {response : SignedPayoutResponse}
    (signed : signPayout digest serde token authorization request = .ok response) :
    ∃ bytes : List UInt8, bytes ≠ [] ∧ response.rawTxHex = some (hexEncode bytes) ∧
      response.nodeTx = none ∧ response.txid = sha256dHex digest (asBytes (hexEncode bytes)) := by
  unfold signPayout at signed
  obtain ⟨-, -, signed⟩ := Theory.bind_ok.1 signed
  obtain ⟨-, -, signed⟩ := Theory.bind_ok.1 signed
  split at signed
  · cases signed
  · rename_i canonical written
    cases signed
    refine ⟨_, ?_, rfl, rfl, rfl⟩
    have mark : asBytes "csd-payout-mock-v1:" ≠ [] := by decide
    simp [mark]

/-- **The worker takes a mock transaction**, and reads back from its row what was signed. -/
theorem mock_accepted {digest : Digest} {serde : SerdeJson} {token : Option String}
    {authorization : Option (Option String)} {request : SignPayoutRequest}
    {response : SignedPayoutResponse} (asked : SignPayoutRequest)
    (signed : signPayout digest serde token authorization request = .ok response) :
    ∃ raw, response.rawTxHex = some raw ∧ acceptedStorageValue serde response asked = .ok raw ∧
      readStoredTx serde raw = .rawTx raw := by
  obtain ⟨bytes, present, raw, noNode, txid⟩ := signPayout_shape signed
  refine ⟨hexEncode bytes, raw, ?_, ?_⟩
  · have txidLength : response.txid.toList.length = 64 := by
      have shape := matchesLowerHex_hexEncode (sha256d digest (asBytes (hexEncode bytes))).toList
      rw [matchesLowerHex, Bool.and_eq_true_iff, beq_iff_eq, List.Vector.toList_length] at shape
      rw [txid]
      exact shape.1
    have txidDigits : response.txid.toList.all isAsciiHexdigit = true := by
      rw [txid, List.all_eq_true]
      exact fun c member => isAsciiHexdigit_of_lower (hexEncode_digits _ c member)
    have rawLength : (hexEncode bytes).toList.length = 2 * bytes.length :=
      beq_iff_eq.1 (Bool.and_eq_true_iff.1 (matchesLowerHex_hexEncode bytes)).1
    have rawDigits : (hexEncode bytes).toList.all isAsciiHexdigit = true := by
      rw [List.all_eq_true]
      exact fun c member => isAsciiHexdigit_of_lower (hexEncode_digits _ c member)
    have rawSome : (hexEncode bytes).toList.isEmpty = false := by
      simpa using hexEncode_ne_nil present
    have unmarked : stripPrefix "0x" response.txid = none := by
      rw [txid]
      exact stripPrefix_hexEncode _ (c := 'x') (by decide) (by decide)
    have validated : validateSignedPayoutResponse response asked = .ok {} := by
      unfold validateSignedPayoutResponse
      rw [unmarked, noNode, raw]
      simp [txidLength, txidDigits, rawSome, rawLength, rawDigits]
    unfold acceptedStorageValue signedPayoutStorageValue
    rw [validated, noNode, raw, Option.filter_some, rawSome]
    rfl
  · unfold readStoredTx
    rw [show stripPrefix nodeTxStoragePrefix (hexEncode bytes) = none from
      stripPrefix_hexEncode bytes (c := 's') (by decide) (by decide)]

end CsdPool.SignerService
