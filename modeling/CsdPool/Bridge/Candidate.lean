/-
# Bridge.Candidate — a block candidate's request and its record

The request that goes to the node, the answer that comes back and the row that is
recorded for the reconciler.  A submission that gets no answer is recorded as a
refusal with a `transport_error`; `initial_status` reads that as an open outcome, and a refusal
by a node that has the block but could not relay it as `relay_failed`, so only a plain refusal makes
a candidate `orphaned` (`record_polled_iff`).

`submit_response_json` is the response as `serde_json::to_value` writes it, with the
flattened `extra` merged over the named fields.  The candidate payload and the effort
go into columns that nothing here reads and are left out.
-/
import CsdPool.Bridge.Submit

namespace CsdPool

set_option autoImplicit false

namespace Json

/-- `Map::insert`. -/
def insertField (fields : List (String × Json)) (key : String) (value : Json) :
    List (String × Json) :=
  fields.filter (fun field => field.1 ≠ key) ++ [(key, value)]

theorem get?_insertField_ne {fields : List (String × Json)} {key other : String} {value : Json}
    (ne : key ≠ other) :
    (object (insertField fields key value)).get? other = (object fields).get? other := by
  unfold get? insertField
  dsimp only
  rw [List.find?_append, List.find?_filter, List.find?_singleton]
  have same : (fun field : String × Json =>
      decide (decide (field.1 ≠ key) = true ∧ decide (field.1 = other) = true)) =
      fun field => decide (field.1 = other) := by
    funext field
    by_cases here : field.1 = other
    · simp [here, ne.symm]
    · simp [here]
  rw [same, if_neg (by simpa using ne), Option.or_none]

end Json

/-- `response.extra.as_object().cloned().unwrap_or_default()`. -/
def SubmitBlockResponse.extraFields (response : SubmitBlockResponse) : List (String × Json) :=
  response.extra.asObject.getD []

/-- `serde_json::to_value(response)`: an `extra` that is no object adds nothing. -/
def SubmitBlockResponse.toValue (response : SubmitBlockResponse) : Json :=
  let named := [("ok", Json.bool response.ok), ("hash", response.hash.elim .null .string)]
  .object (response.extraFields ++
    named.filter fun field => response.extraFields.all fun extra => extra.1 ≠ field.1)

namespace SubmitBlockResponse

theorem get?_extraFields (response : SubmitBlockResponse) (key : String) :
    (Json.object response.extraFields).get? key = response.extra.get? key := by
  unfold extraFields
  cases response.extra <;> rfl

theorem get?_toValue {response : SubmitBlockResponse} {key : String}
    (extra : key ≠ "ok" ∧ key ≠ "hash") :
    response.toValue.get? key = response.extra.get? key := by
  rw [← get?_extraFields]
  unfold toValue Json.get?
  dsimp only
  rw [List.find?_append]
  have none : (([("ok", Json.bool response.ok), ("hash", response.hash.elim .null .string)].filter
      fun field => response.extraFields.all fun extra => decide (extra.1 ≠ field.1)).find?
        fun field => decide (field.1 = key)) = none := by
    rw [List.find?_eq_none]
    intro field member
    have named := List.mem_of_mem_filter member
    simp only [List.mem_cons, List.not_mem_nil, or_false] at named
    rcases named with rfl | rfl
    · simpa using extra.1.symm
    · simpa using extra.2.symm
  rw [none, Option.or_none]

/-- The `ok` that a record shows: that of the flattened `extra` before the named one. -/
def saysOk (response : SubmitBlockResponse) : Option Bool :=
  (response.toValue.get? "ok").bind Json.asBool

/-- `ok` is looked up in the extra fields first. -/
theorem get?_ok_toValue (response : SubmitBlockResponse) :
    response.toValue.get? "ok" =
      ((Json.object response.extraFields).get? "ok").or (some (.bool response.ok)) := by
  unfold toValue Json.get?
  dsimp only
  rw [List.find?_append, List.filter_cons]
  cases found : response.extraFields.find? fun field => decide (field.1 = "ok") with
  | some field => rfl
  | none =>
      have absent : (response.extraFields.all fun extra => decide (extra.1 ≠ "ok")) = true := by
        rw [List.all_eq_true]
        intro field member
        simpa using List.find?_eq_none.1 found field member
      rw [if_pos absent]
      rfl

/-- What an answer says when a node it was sent to gave none: the pool's own report of a
failed call, or the outcome of either call of a parallel submission. -/
def reportsLostAnswer (response : SubmitBlockResponse) : Bool :=
  (response.extra.get? "transport_error").isSome ||
    ([["parallel_submit", "primary_submit", "outcome"],
      ["parallel_submit", "secondary_submit", "outcome"]].filterMap fun pointer =>
        (response.extra.pointer pointer).bind Json.asStr).any fun outcome =>
      outcome == "transport_error" || outcome == "timeout"

/-- What an answer says when a node that has the block could not relay it: the answer's own status,
or that of either call of a parallel submission. -/
def reportsRelayFailure (response : SubmitBlockResponse) : Bool :=
  nodeResponseHasLocalCanonicalRelayFailure response.extra ||
    (response.extra.pointer ["parallel_submit", "primary_submit", "response"]).any
      nodeResponseHasLocalCanonicalRelayFailure ||
    (response.extra.pointer ["parallel_submit", "secondary_submit", "response"]).any
      nodeResponseHasLocalCanonicalRelayFailure

end SubmitBlockResponse

/-- The answer says no, and nothing else: no call was lost, and no node says that it has the
block. -/
def plainlyRefuses : Except String SubmitBlockResponse → Bool
  | .error _ => false
  | .ok response => response.saysOk == some false && !response.reportsLostAnswer &&
      !response.reportsRelayFailure

namespace Bridge

structure BlockCandidateSubmitRequest where
  jobId : String
  workerName : String
  headerHex : String
  hashHex : String
  coinbaseTxidHex : String
  coinbaseHex : String
  merkleRootHex : String
  extranonce2Hex : String
  ntimeHex : String
  nonceHex : String
  deriving DecidableEq, Repr

structure BlockCandidateSubmission where
  candidate : BlockCandidateSubmitRequest
  candidateMaterial : Option CandidateTemplateMaterial
  deriving DecidableEq, Repr

inductive BridgeError
  | repository (error : RepositoryError)
  | panicked
  deriving DecidableEq, Repr

/-! ## The request -/

/-- The request, or the panic of the `expect` on `extranonce2`. -/
def blockCandidateSubmitRequest (job : PoolJob) (miner : Address) (submit : SubmitParams)
    (share : VerifiedShare) (extranonce1Le : Bytes 4) :
    Except BridgeError BlockCandidateSubmitRequest :=
  match parseLeU32HexBytes "extranonce2" submit.extranonce2Hex with
  | .error _ => .error .panicked
  | .ok extranonce2Le =>
      let extranonce := composeExtranonce extranonce1Le extranonce2Le
      .ok {
        jobId := submit.jobId
        workerName := workerNameFromSubmit miner submit.workerName
        headerHex := hexEncode share.header.toList
        hashHex := hexEncode share.hash.toList
        coinbaseTxidHex := hexEncode share.coinbaseTxid.toList
        coinbaseHex := hexEncode
          (coinbaseBytes job.template.coinbasePrefix extranonce job.template.coinbaseSuffix)
        merkleRootHex := hexEncode share.merkleRoot.toList
        extranonce2Hex := submit.extranonce2Hex
        ntimeHex := submit.ntimeHex
        nonceHex := submit.nonceHex }

theorem decodeHex_ok_field {n : Nat} {field value : String} {bytes : Bytes n}
    (decoded : decodeHex n field value = .ok bytes) (other : String) :
    decodeHex n other value = .ok bytes := by
  unfold decodeHex at decoded ⊢
  split at decoded
  · cases decoded
  · split at decoded
    · rename_i length
      rw [dif_pos length]
      exact decoded
    · cases decoded

/-- The `expect` holds for every submit that was verified. -/
theorem blockCandidateSubmitRequest_ok {digest : Digest} {job : PoolJob} (miner : Address)
    {submit : SubmitParams} {share : VerifiedShare} {extranonce1Le : Bytes 4}
    {vardiff : VardiffState} {now : Nat} {difficulty : ℚ}
    (verified : verifySubmitForVardiff digest job.template extranonce1Le submit vardiff now =
      .ok (share, difficulty)) :
    ∃ request, blockCandidateSubmitRequest job miner submit share extranonce1Le = .ok request ∧
      request.jobId = submit.jobId ∧ request.headerHex = hexEncode share.header.toList ∧
        request.hashHex = hexEncode share.hash.toList := by
  obtain ⟨solution, parsed, -⟩ := verifySubmitForVardiff_ok verified
  have decoded : parseLeU32HexBytes "extranonce2" submit.extranonce2Hex =
      .ok solution.extranonce2Le :=
    decodeHex_ok_field (solutionFromSubmit_ok parsed).1 _
  unfold blockCandidateSubmitRequest
  rw [decoded]
  exact ⟨_, rfl, rfl, rfl, rfl⟩

/-! ## The answer and the record -/

/-- The clock readings around one submission. -/
structure CandidateObservation where
  detectedUnixMs : Nat
  detectedToSubmitStartUs : Nat
  nodeRoundtripUs : Nat

def attachCandidateObservability (observation : CandidateObservation)
    (response : SubmitBlockResponse) : SubmitBlockResponse :=
  { response with
    extra := .object (Json.insertField response.extraFields "pool_observability" (.object [
      ("candidate_detected_unix_ms", .number (.unsigned observation.detectedUnixMs)),
      ("candidate_detected_to_submit_start_us",
        .number (.unsigned observation.detectedToSubmitStartUs)),
      ("node_roundtrip_us", .number (.unsigned observation.nodeRoundtripUs))])) }

/-- One call of `submit_candidate`: whether the node took the block, and what came back. -/
structure NodeCall where
  accepted : Bool
  answer : Except String SubmitBlockResponse

/-- The response a record is made of: a call without an answer is reported as failed. -/
def reportedResponse (observation : CandidateObservation) (hashHex : String)
    (answer : Except String SubmitBlockResponse) : SubmitBlockResponse :=
  attachCandidateObservability observation <|
    match answer with
    | .ok response => response
    | .error err =>
        { ok := false
          hash := some hashHex
          extra := .object [("transport_error", .string err), ("retryable", .bool true)] }

def blockCandidateRecord (miner : Address) (submission : BlockCandidateSubmission)
    (response : SubmitBlockResponse) : BlockCandidateRecord where
  hashHex := response.hash.getD submission.candidate.hashHex
  jobId := submission.candidate.jobId
  miner := miner
  workerName := submission.candidate.workerName
  rewardBaseUnits := 0
  submitResponseJson := response.toValue

section Reported

variable {observation : CandidateObservation} {hashHex : String}

theorem get?_attach {response : SubmitBlockResponse} {key : String}
    (ne : key ≠ "pool_observability") :
    (attachCandidateObservability observation response).extra.get? key =
      response.extra.get? key := by
  rw [← SubmitBlockResponse.get?_extraFields response]
  exact Json.get?_insertField_ne ne.symm

theorem saysOk_attach {response : SubmitBlockResponse} :
    (attachCandidateObservability observation response).saysOk = response.saysOk := by
  unfold SubmitBlockResponse.saysOk
  rw [SubmitBlockResponse.get?_ok_toValue, SubmitBlockResponse.get?_ok_toValue,
    SubmitBlockResponse.get?_extraFields, SubmitBlockResponse.get?_extraFields,
    get?_attach (by decide)]
  rfl

/-- A refusal is read off a record as it is off the answer. -/
theorem plainlyRefused_record {miner : Address} {submission : BlockCandidateSubmission}
    {response : SubmitBlockResponse} :
    (blockCandidateRecord miner submission
        (attachCandidateObservability observation response)).plainlyRefused =
      plainlyRefuses (.ok response) := by
  have through : ∀ key, key ≠ "ok" ∧ key ≠ "hash" → key ≠ "pool_observability" →
      (attachCandidateObservability observation response).toValue.get? key =
        response.extra.get? key := fun key named ne =>
    (SubmitBlockResponse.get?_toValue named).trans (get?_attach ne)
  have okRead : (attachCandidateObservability observation response).saysOk = response.saysOk :=
    saysOk_attach
  unfold SubmitBlockResponse.saysOk at okRead
  unfold BlockCandidateRecord.plainlyRefused BlockCandidateRecord.hasAmbiguousSubmitOutcome
    BlockCandidateRecord.hasLocalCanonicalRelayFailure plainlyRefuses
    SubmitBlockResponse.reportsLostAnswer SubmitBlockResponse.reportsRelayFailure
    nodeResponseHasLocalCanonicalRelayFailure SubmitBlockResponse.saysOk
  simp only [blockCandidateRecord, okRead, List.filterMap_cons, List.filterMap_nil, Json.pointer,
    through "status" (by decide) (by decide), through "node_observability" (by decide) (by decide),
    through "transport_error" (by decide) (by decide),
    through "parallel_submit" (by decide) (by decide)]

/-- **Which candidates start in a status the reconciler polls**: all but those that were plainly
refused, whether an answer arrived or not. -/
theorem record_polled_iff (miner : Address) (submission : BlockCandidateSubmission)
    (answer : Except String SubmitBlockResponse) :
    (blockCandidateRecord miner submission
        (reportedResponse observation hashHex answer)).initialStatus ∈ Db.polledStatuses ↔
      plainlyRefuses answer = false := by
  rw [BlockCandidateRecord.initialStatus_polled_iff]
  unfold reportedResponse
  cases answer with
  | error err =>
      dsimp only
      rw [plainlyRefused_record]
      exact iff_of_true rfl rfl
  | ok response =>
      dsimp only
      rw [plainlyRefused_record]

end Reported

end Bridge

end CsdPool
