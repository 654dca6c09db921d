/-
# Bridge.InitialStatus — what status a candidate starts in

The record reads four things off the assembled response: whether either node accepted, by
whom, whether a node kept the block without relaying it, and whether an answer was lost.  Each
is what the audits say (`ok_read`, `acceptedBy_read`, `localCanonical_read`, `lost_read`), and
the status is decided on them in the order of `parallelStatus`.

`candidate_status` reads the order back: an acceptance by the secondary alone comes before
everything else, also before a relay that failed.  An answer counts as a refusal when it is a
JSON object that does not accept: its HTTP status and a missing `ok` are not looked at
(`status_unsettled`).
-/
import CsdPool.Bridge.ParallelSubmit

namespace CsdPool

set_option autoImplicit false

namespace Json

/-- A field that was put in is read back. -/
theorem get?_insertField_self {fields : List (String × Json)} {key : String} {value : Json} :
    (object (insertField fields key value)).get? key = some value := by
  unfold get? insertField
  dsimp only
  have others : ((fields.filter fun field => decide (field.1 ≠ key)).find?
      fun field => decide (field.1 = key)) = none := by
    rw [List.find?_eq_none]
    intro field member
    have apart := (List.mem_filter.1 member).2
    simpa using apart
  rw [List.find?_append, others, Option.none_or, List.find?_singleton, if_pos (by simp)]
  rfl

/-- Fields of other names do not matter to a reading. -/
theorem get?_foldl_insertField {key : String} (fields : List (String × Json)) :
    ∀ extra : List (String × Json), (∀ field ∈ fields, field.1 ≠ key) →
      (object (fields.foldl (fun extra field => insertField extra field.1 field.2) extra)).get? key =
        (object extra).get? key := by
  induction fields with
  | nil => intro extra _; rfl
  | cons field rest ih =>
      intro extra apart
      rw [List.foldl_cons, ih _ fun other member => apart other (List.mem_cons_of_mem _ member)]
      exact get?_insertField_ne (apart field List.mem_cons_self)

end Json

namespace SubmitBlockResponse

/-- The fields that have a name are taken out of the `extra` of an answer. -/
theorem deserialize_flat {body : Json} {response : SubmitBlockResponse}
    (parsed : deserialize body = .ok response) : response.extra.get? "ok" = none := by
  unfold deserialize at parsed
  split at parsed
  · rename_i fields
    simp only [bind, Except.bind, pure, Except.pure] at parsed
    split at parsed
    · cases parsed
    · split at parsed
      · cases parsed
      · split at parsed
        · cases parsed
        · split at parsed
          · cases parsed
          · cases parsed
            apply (Json.get?_foldl_insertField _ [] ?_).trans rfl
            intro field member
            have named := (List.mem_filter.1 member).2
            exact (of_decide_eq_true named).1
  · cases parsed

end SubmitBlockResponse

/-- The named fields of an answer never stand in its `extra`. -/
theorem parseSubmitBlockResponse_flat {httpStatus : Nat} {body : Json}
    {response : SubmitBlockResponse}
    (parsed : parseSubmitBlockResponse httpStatus body = .ok response) :
    response.extra.get? "ok" = none := by
  unfold parseSubmitBlockResponse at parsed
  cases read : SubmitBlockResponse.deserialize body with
  | error err =>
      rw [read] at parsed
      cases parsed
  | ok answer =>
      rw [read] at parsed
      have flat := SubmitBlockResponse.deserialize_flat read
      simp only [bind, Except.bind, pure, Except.pure] at parsed
      split at parsed
      · cases parsed
        exact flat
      · cases parsed
        show (Json.object (Json.insertField answer.extraFields "http_status" _)).get? "ok" = none
        rw [Json.get?_insertField_ne (by decide), SubmitBlockResponse.get?_extraFields]
        exact flat

namespace Bridge

/-! ## Audits -/

/-- The answer that arrived. -/
def Exchange.response (exchange : Exchange) : Option SubmitBlockResponse :=
  exchange.result.bind Except.toOption

theorem Exchange.response_flat {exchange : Exchange} {response : SubmitBlockResponse}
    (arrived : exchange.response = some response) : response.extra.get? "ok" = none := by
  cases exchange with
  | answered httpStatus body =>
      change (parseSubmitBlockResponse httpStatus body).toOption = some response at arrived
      cases parsed : parseSubmitBlockResponse httpStatus body with
      | error _ =>
          rw [parsed] at arrived
          cases arrived
      | ok answer =>
          rw [parsed] at arrived
          cases arrived
          exact parseSubmitBlockResponse_flat parsed
  | failed _ => cases arrived
  | timedOut => cases arrived

namespace SubmitAudit

/-- The call was made and no answer is known. -/
def lost (audit : SubmitAudit) : Bool :=
  audit.outcome == .transportError || audit.outcome == .timeout

/-- The named fields of its response never stand in the `extra`. -/
def Flat (audit : SubmitAudit) : Prop :=
  ∀ response, audit.response = some response → response.extra.get? "ok" = none

end SubmitAudit

section Audit

variable {node role : String} {times : SubmitTimes} {timeoutMs : Nat} {exchange : Exchange}

/-- The audit of a call has the answer that arrived, and no other. -/
theorem submitToNode_response :
    (submitToNode node role times timeoutMs exchange).response = exchange.response := by
  unfold submitToNode Exchange.response
  split
  · rename_i here
    rw [here]
    rfl
  · rename_i here
    rw [here]
    rfl
  · rename_i here
    rw [here]
    rfl

/-- An answer is never booked as a call that was lost. -/
theorem submitOutcome_answered (response : SubmitBlockResponse) :
    submitOutcome response ≠ .transportError ∧ submitOutcome response ≠ .timeout := by
  unfold submitOutcome
  split
  · exact ⟨by decide, by decide⟩
  · split
    · exact ⟨by decide, by decide⟩
    · exact ⟨by decide, by decide⟩

/-- A call is lost exactly when no answer arrived. -/
theorem submitToNode_lost :
    (submitToNode node role times timeoutMs exchange).lost = exchange.response.isNone := by
  unfold submitToNode Exchange.response SubmitAudit.lost
  split
  · rename_i response here
    obtain ⟨reached, inTime⟩ := submitOutcome_answered response
    rw [here]
    simp [reached, inTime, Except.toOption]
  · rename_i here
    rw [here]
    rfl
  · rename_i here
    rw [here]
    rfl

end Audit

/-! ## The rules in their order -/

/-- The status on the four things that are read, as the record decides it. -/
def parallelStatus (authorityOk secondaryOk relayFailed lost : Bool) : BlockStatus :=
  if !authorityOk && secondaryOk then .submittedSecondary
  else if relayFailed then
    if authorityOk then .submittedDegraded else .relayFailed
  else if !authorityOk && !lost then .orphaned
  else .submitted

theorem parallelStatus_submittedSecondary : ∀ authorityOk secondaryOk relayFailed lost,
    parallelStatus authorityOk secondaryOk relayFailed lost = .submittedSecondary ↔
      authorityOk = false ∧ secondaryOk = true := by
  decide

theorem parallelStatus_submittedDegraded : ∀ authorityOk secondaryOk relayFailed lost,
    parallelStatus authorityOk secondaryOk relayFailed lost = .submittedDegraded ↔
      relayFailed = true ∧ authorityOk = true := by
  decide

theorem parallelStatus_relayFailed : ∀ authorityOk secondaryOk relayFailed lost,
    parallelStatus authorityOk secondaryOk relayFailed lost = .relayFailed ↔
      relayFailed = true ∧ authorityOk = false ∧ secondaryOk = false := by
  decide

theorem parallelStatus_orphaned : ∀ authorityOk secondaryOk relayFailed lost,
    parallelStatus authorityOk secondaryOk relayFailed lost = .orphaned ↔
      authorityOk = false ∧ secondaryOk = false ∧ relayFailed = false ∧ lost = false := by
  decide

/-! ## What the record reads -/

section Read

variable {authority secondary hashHex : String} {primaryAudit secondaryAudit : SubmitAudit}
  {claim : SecondaryCandidateClaim} {reports : SubmitReports} {observation : CandidateObservation}
  {miner : Address} {submission : BlockCandidateSubmission}

/-- The response of a call as the record keeps it. -/
def recordedResponse (authority secondary hashHex : String)
    (primaryAudit secondaryAudit : SubmitAudit) (claim : SecondaryCandidateClaim)
    (reports : SubmitReports) (observation : CandidateObservation) (miner : Address)
    (submission : BlockCandidateSubmission) : BlockCandidateRecord :=
  blockCandidateRecord miner submission (reportedResponse observation hashHex
    (.ok (parallelResponse authority secondary primaryAudit secondaryAudit hashHex claim reports)))

/-- What the chosen answer says under any other name is read off the record as it stood. -/
theorem extra_read {k : String} (named : k ≠ "ok" ∧ k ≠ "hash")
    (observed : k ≠ "pool_observability") (audits : k ≠ "parallel_submit") :
    (recordedResponse authority secondary hashHex primaryAudit secondaryAudit claim reports
        observation miner submission).submitResponseJson.get? k =
      (chosenResponse primaryAudit secondaryAudit hashHex).extra.get? k := by
  calc (recordedResponse authority secondary hashHex primaryAudit secondaryAudit claim reports
          observation miner submission).submitResponseJson.get? k
      = (parallelResponse authority secondary primaryAudit secondaryAudit hashHex claim
          reports).extra.get? k := (SubmitBlockResponse.get?_toValue named).trans
            (get?_attach observed)
    _ = (Json.object (chosenResponse primaryAudit secondaryAudit hashHex).extraFields).get? k :=
        Json.get?_insertField_ne audits.symm
    _ = (chosenResponse primaryAudit secondaryAudit hashHex).extra.get? k :=
        SubmitBlockResponse.get?_extraFields _ _

/-- Both audits stand in the record. -/
theorem parallel_read :
    (recordedResponse authority secondary hashHex primaryAudit secondaryAudit claim reports
        observation miner submission).submitResponseJson.get? "parallel_submit" =
      some (parallelSubmitJson authority secondary primaryAudit secondaryAudit claim reports) := by
  apply (SubmitBlockResponse.get?_toValue (by decide)).trans
  apply (get?_attach (by decide)).trans
  exact Json.get?_insertField_self

theorem chosenResponse_flat (flat : primaryAudit.Flat) (flat' : secondaryAudit.Flat) :
    (chosenResponse primaryAudit secondaryAudit hashHex).extra.get? "ok" = none := by
  unfold chosenResponse
  dsimp only
  split
  · cases arrived : secondaryAudit.response with
    | none => rfl
    | some response => exact flat' response arrived
  · cases arrived : primaryAudit.response with
    | none => rfl
    | some response => exact flat response arrived

/-- The record says that a node accepted exactly if one did. -/
theorem ok_read (flat : primaryAudit.Flat) (flat' : secondaryAudit.Flat) :
    ((recordedResponse authority secondary hashHex primaryAudit secondaryAudit claim reports
        observation miner submission).submitResponseJson.get? "ok").bind Json.asBool =
      some (primaryAudit.ok || secondaryAudit.ok) := by
  have absent : (attachCandidateObservability observation (parallelResponse authority secondary
      primaryAudit secondaryAudit hashHex claim reports)).extra.get? "ok" = none := by
    apply (get?_attach (by decide)).trans
    apply (Json.get?_insertField_ne (by decide)).trans
    rw [SubmitBlockResponse.get?_extraFields]
    exact chosenResponse_flat flat flat'
  show ((attachCandidateObservability observation _).toValue.get? "ok").bind Json.asBool = _
  rw [SubmitBlockResponse.get?_ok_toValue, SubmitBlockResponse.get?_extraFields, absent]
  rfl

theorem audits_read :
    (parallelSubmitJson authority secondary primaryAudit secondaryAudit claim reports).get?
        "primary_submit" = some (submitAuditJson primaryAudit) ∧
      (parallelSubmitJson authority secondary primaryAudit secondaryAudit claim reports).get?
        "secondary_submit" = some (submitAuditJson secondaryAudit) := by
  constructor
  · simp [Json.get?, parallelSubmitJson]
  · simp [Json.get?, parallelSubmitJson]

theorem auditJson_read (audit : SubmitAudit) :
    (submitAuditJson audit).get? "outcome" = some (.string audit.outcome.text) ∧
      (submitAuditJson audit).get? "response" =
        some (audit.response.elim .null SubmitBlockResponse.toValue) := by
  constructor
  · simp [Json.get?, submitAuditJson]
  · simp [Json.get?, submitAuditJson]

/-- The record names who accepted. -/
theorem acceptedBy_read :
    ((recordedResponse authority secondary hashHex primaryAudit secondaryAudit claim reports
        observation miner submission).submitResponseJson.pointer
          ["parallel_submit", "accepted_by"]).bind Json.asStr =
      some (acceptedBy primaryAudit.ok secondaryAudit.ok) := by
  rw [Json.pointer, parallel_read]
  simp [Json.pointer, Json.get?, parallelSubmitJson, Json.asStr]

theorem nodeResponse_toValue (response : SubmitBlockResponse) :
    CsdPool.nodeResponseHasLocalCanonicalRelayFailure response.toValue =
      nodeResponseHasLocalCanonicalRelayFailure response := by
  unfold CsdPool.nodeResponseHasLocalCanonicalRelayFailure
    nodeResponseHasLocalCanonicalRelayFailure
  simp only [Json.pointer, SubmitBlockResponse.get?_toValue (show "status" ≠ "ok" ∧
    "status" ≠ "hash" by decide), SubmitBlockResponse.get?_toValue (show "node_observability" ≠
    "ok" ∧ "node_observability" ≠ "hash" by decide)]

/-- The two copies of the test agree on an audit. -/
theorem audit_localCanonical (audit : SubmitAudit) :
    CsdPool.nodeResponseHasLocalCanonicalRelayFailure
        (audit.response.elim .null SubmitBlockResponse.toValue) = audit.localCanonical := by
  unfold SubmitAudit.localCanonical
  cases audit.response with
  | none => rfl
  | some response => exact nodeResponse_toValue response

/-- The record has the mark of a block kept without a relay if one of the audits has it. -/
theorem localCanonical_read :
    (recordedResponse authority secondary hashHex primaryAudit secondaryAudit claim reports
        observation miner submission).hasLocalCanonicalRelayFailure =
      (primaryAudit.localCanonical || secondaryAudit.localCanonical) := by
  have own : CsdPool.nodeResponseHasLocalCanonicalRelayFailure
      (recordedResponse authority secondary hashHex primaryAudit secondaryAudit claim reports
        observation miner submission).submitResponseJson =
      nodeResponseHasLocalCanonicalRelayFailure
        (chosenResponse primaryAudit secondaryAudit hashHex) := by
    unfold CsdPool.nodeResponseHasLocalCanonicalRelayFailure
      nodeResponseHasLocalCanonicalRelayFailure
    simp only [Json.pointer, extra_read (k := "status") (by decide) (by decide) (by decide),
      extra_read (k := "node_observability") (by decide) (by decide) (by decide)]
  have covered : nodeResponseHasLocalCanonicalRelayFailure
      (chosenResponse primaryAudit secondaryAudit hashHex) = true →
      (primaryAudit.localCanonical || secondaryAudit.localCanonical) = true := by
    unfold chosenResponse SubmitAudit.localCanonical
    dsimp only
    split
    · cases secondaryAudit.response with
      | none => intro wrong; cases wrong
      | some response => intro here; simpa using .inr here
    · cases primaryAudit.response with
      | none => intro wrong; cases wrong
      | some response => intro here; simpa using .inl here
  unfold BlockCandidateRecord.hasLocalCanonicalRelayFailure
  simp only [Json.pointer, parallel_read, audits_read, auditJson_read, own, Option.bind_some,
    Option.any_some, audit_localCanonical, Bool.or_assoc]
  cases here : nodeResponseHasLocalCanonicalRelayFailure
      (chosenResponse primaryAudit secondaryAudit hashHex) with
  | false => rfl
  | true =>
      rw [covered here]
      rfl

theorem lost_text (outcome : SubmitOutcome) :
    (outcome.text == "transport_error" || outcome.text == "timeout") =
      (outcome == .transportError || outcome == .timeout) := by
  cases outcome <;> decide

theorem lost_read :
    (recordedResponse authority secondary hashHex primaryAudit secondaryAudit claim reports
        observation miner submission).hasAmbiguousSubmitOutcome =
      (((chosenResponse primaryAudit secondaryAudit hashHex).extra.get? "transport_error").isSome ||
        (primaryAudit.lost || secondaryAudit.lost)) := by
  unfold BlockCandidateRecord.hasAmbiguousSubmitOutcome
  simp only [Json.pointer, parallel_read, audits_read, auditJson_read, Option.bind_some,
    extra_read (k := "transport_error") (by decide) (by decide) (by decide),
    List.filterMap_cons, List.filterMap_nil, Json.asStr, List.any_cons, List.any_nil,
    Bool.or_false, lost_text]
  rfl

theorem initialStatus_read (flat : primaryAudit.Flat) (flat' : secondaryAudit.Flat) :
    (recordedResponse authority secondary hashHex primaryAudit secondaryAudit claim reports
        observation miner submission).initialStatus =
      parallelStatus primaryAudit.ok secondaryAudit.ok
        (primaryAudit.localCanonical || secondaryAudit.localCanonical)
        (((chosenResponse primaryAudit secondaryAudit hashHex).extra.get?
          "transport_error").isSome || (primaryAudit.lost || secondaryAudit.lost)) := by
  unfold BlockCandidateRecord.initialStatus
  simp only [ok_read flat flat', acceptedBy_read, localCanonical_read, lost_read]
  unfold parallelStatus
  generalize (primaryAudit.localCanonical || secondaryAudit.localCanonical) = relay
  cases primaryAudit.ok with
  | true =>
      cases relay with
      | true => cases secondaryAudit.ok <;> simp [acceptedBy]
      | false => cases secondaryAudit.ok <;> simp [acceptedBy]
  | false =>
      cases relay with
      | true => cases secondaryAudit.ok <;> simp [acceptedBy]
      | false => cases secondaryAudit.ok <;> simp [acceptedBy]

end Read

/-! ## The status of a call -/

namespace Exchange

def accepted (exchange : Exchange) : Bool := exchange.response.any fun response => response.ok

/-- The node reported the block local canonical with a failed relay. -/
def relayFailed (exchange : Exchange) : Bool :=
  exchange.response.any nodeResponseHasLocalCanonicalRelayFailure

end Exchange

namespace SecondaryAttempt

def exchange : SecondaryAttempt → Option Exchange
  | .skipped _ => none
  | .asked exchange => some exchange

def accepted (attempt : SecondaryAttempt) : Bool := attempt.exchange.any Exchange.accepted

end SecondaryAttempt

namespace ParallelCall

/-- The nodes that were asked. -/
def attempted (call : ParallelCall) : List Exchange :=
  call.authority :: call.secondary.exchange.toList

def relayFailed (call : ParallelCall) : Bool := call.attempted.any Exchange.relayFailed

end ParallelCall

section Call

variable (submitter : ParallelSubmitter) (call : ParallelCall) (hashHex : String)
  (observation : CandidateObservation) (miner : Address) (submission : BlockCandidateSubmission)

/-- The record of a call of `submit_candidate`. -/
def ParallelSubmitter.record : BlockCandidateRecord :=
  blockCandidateRecord miner submission
    (reportedResponse observation hashHex (.ok (submitter.submitCandidate call hashHex)))

theorem primaryAudit_read :
    (submitter.primaryAudit call).response = call.authority.response ∧
      (submitter.primaryAudit call).lost = call.authority.response.isNone :=
  ⟨submitToNode_response, submitToNode_lost⟩

theorem secondaryAudit_read :
    (submitter.secondaryAudit call).response = call.secondary.exchange.bind Exchange.response ∧
      (submitter.secondaryAudit call).lost =
        call.secondary.exchange.any fun exchange => exchange.response.isNone := by
  unfold ParallelSubmitter.secondaryAudit SecondaryAttempt.exchange
  cases call.secondary with
  | skipped _ => exact ⟨rfl, rfl⟩
  | asked exchange => exact ⟨submitToNode_response, submitToNode_lost⟩

theorem audits_flat :
    (submitter.primaryAudit call).Flat ∧ (submitter.secondaryAudit call).Flat := by
  constructor
  · intro response arrived
    rw [(primaryAudit_read submitter call).1] at arrived
    exact Exchange.response_flat arrived
  · intro response arrived
    rw [(secondaryAudit_read submitter call).1] at arrived
    obtain ⟨exchange, -, answer⟩ := Option.bind_eq_some_iff.1 arrived
    exact Exchange.response_flat answer

theorem audits_accepted :
    (submitter.primaryAudit call).ok = call.authority.accepted ∧
      (submitter.secondaryAudit call).ok = call.secondary.accepted := by
  unfold SubmitAudit.ok Exchange.accepted SecondaryAttempt.accepted
  rw [(primaryAudit_read submitter call).1, (secondaryAudit_read submitter call).1]
  refine ⟨rfl, ?_⟩
  cases call.secondary with
  | skipped _ => rfl
  | asked exchange => rfl

theorem audits_relayFailed :
    ((submitter.primaryAudit call).localCanonical || (submitter.secondaryAudit call).localCanonical)
      = call.relayFailed := by
  unfold SubmitAudit.localCanonical ParallelCall.relayFailed ParallelCall.attempted
    Exchange.relayFailed
  rw [(primaryAudit_read submitter call).1, (secondaryAudit_read submitter call).1, List.any_cons]
  congr 1
  cases call.secondary with
  | skipped _ => rfl
  | asked exchange => simp [SecondaryAttempt.exchange]

/-- **The status a candidate starts in**, for every answer of either node: `submitted_secondary`
exactly when only the secondary accepted; `submitted_degraded` exactly when a node reported the
block local canonical with a failed relay and the authority accepted; `relay_failed` exactly when
a node reported it and none accepted; and `orphaned` only if every node that was asked answered,
and none accepted or reported it. -/
theorem candidate_status (submitter : ParallelSubmitter) (call : ParallelCall) (hashHex : String)
    (observation : CandidateObservation) (miner : Address) (submission : BlockCandidateSubmission) :
    let status := (submitter.record call hashHex observation miner submission).initialStatus
    (status = .submittedSecondary ↔
        call.authority.accepted = false ∧ call.secondary.accepted = true) ∧
      (status = .submittedDegraded ↔
        call.relayFailed = true ∧ call.authority.accepted = true) ∧
      (status = .relayFailed ↔ call.relayFailed = true ∧ call.authority.accepted = false ∧
        call.secondary.accepted = false) ∧
      (status = .orphaned → call.attempted ≠ [] ∧ ∀ exchange ∈ call.attempted,
        exchange.response.isSome = true ∧ exchange.accepted = false ∧
          exchange.relayFailed = false) := by
  intro status
  have read : status = parallelStatus call.authority.accepted call.secondary.accepted
      call.relayFailed
      (((chosenResponse (submitter.primaryAudit call) (submitter.secondaryAudit call)
        hashHex).extra.get? "transport_error").isSome ||
          (call.authority.response.isNone || call.secondary.exchange.any fun exchange =>
            exchange.response.isNone)) := by
    have flat := audits_flat submitter call
    apply (initialStatus_read flat.1 flat.2).trans
    rw [(audits_accepted submitter call).1, (audits_accepted submitter call).2,
      audits_relayFailed, (primaryAudit_read submitter call).2,
      (secondaryAudit_read submitter call).2]
  rw [read]
  refine ⟨parallelStatus_submittedSecondary _ _ _ _, parallelStatus_submittedDegraded _ _ _ _,
    parallelStatus_relayFailed _ _ _ _, ?_⟩
  intro orphaned
  obtain ⟨refused, refused', unreported, answered⟩ := (parallelStatus_orphaned _ _ _ _).1 orphaned
  obtain ⟨-, answered⟩ := Bool.or_eq_false_iff.1 answered
  obtain ⟨here, there⟩ := Bool.or_eq_false_iff.1 answered
  have silent := List.any_eq_false.1 unreported
  refine ⟨by simp [ParallelCall.attempted], ?_⟩
  intro exchange member
  refine ⟨?_, ?_, by simpa using silent exchange member⟩
  · rcases List.mem_cons.1 member with rfl | asked
    · simpa [Option.isSome_iff_ne_none] using here
    · rw [Option.mem_toList.1 asked] at there
      simpa [Option.isSome_iff_ne_none] using there
  · rcases List.mem_cons.1 member with rfl | asked
    · exact refused
    · unfold SecondaryAttempt.accepted at refused'
      rw [Option.mem_toList.1 asked] at refused'
      exact refused'

end Call

/-! ## What is not looked at -/

namespace Exchange

/-- A refusal in so many words, from a node that was able to answer. -/
def definitiveRejection : Exchange → Bool
  | .answered httpStatus body =>
      !(500 ≤ httpStatus && httpStatus < 600) && (body.get? "ok").bind Json.asBool == some false
  | .failed _ | .timedOut => false

/-- The node reported the block local canonical, whatever became of the relay. -/
def localCanonical (exchange : Exchange) : Bool :=
  exchange.response.any fun response =>
    nodeResponseHasLocalCanonicalRelayFailure response ||
      (response.extra.pointer ["node_observability", "local_canonical"]).bind Json.asBool ==
        some true

end Exchange

/-- A status that follows the answers by their meaning alone: nothing is orphaned on less than
definitive rejections, and each special status says one thing. -/
structure StatusSettled (call : ParallelCall) (status : BlockStatus) : Prop where
  orphaned : status = .orphaned → call.attempted ≠ [] ∧ ∀ exchange ∈ call.attempted,
    exchange.accepted = false ∧ exchange.localCanonical = false ∧
      exchange.definitiveRejection = true
  submittedSecondary : status = .submittedSecondary ↔
    call.authority.accepted = false ∧ call.secondary.accepted = true
  relayFailed : status = .relayFailed ↔ call.relayFailed = true ∧ call.authority.accepted = false
  submittedDegraded : status = .submittedDegraded ↔
    call.relayFailed = true ∧ call.authority.accepted = true

namespace Sample

def parallelSubmitter : ParallelSubmitter := ⟨"node-a", "node-b", 2000, 750⟩

def blockHash : String := String.ofList (List.replicate 64 '0')

def candidateSubmission : BlockCandidateSubmission :=
  { candidate :=
      { jobId := "job"
        workerName := "rig"
        headerHex := ""
        hashHex := blockHash
        coinbaseTxidHex := ""
        coinbaseHex := ""
        merkleRootHex := ""
        extranonce2Hex := "00000000"
        ntimeHex := "00000000"
        nonceHex := "00000000" }
    candidateMaterial := none }

def parallelCall (authority : Exchange) (secondary : SecondaryAttempt) : ParallelCall :=
  { authority, secondary
    authorityTimes := ⟨0, 0, 0⟩
    secondaryTimes := ⟨0, 0, 0⟩
    claim := .notAttempted "continuous_bounded" none none
    reports := ⟨.null, none, none, .null, .null⟩ }

def statusOfCall (call : ParallelCall) : BlockStatus :=
  (parallelSubmitter.record call blockHash ⟨0, 0, 0⟩ "miner" candidateSubmission).initialStatus

/-- The authority is overloaded and says nothing about the block. -/
def overloaded : ParallelCall :=
  parallelCall (.answered 503 (.object [("error", .string "overloaded")]))
    (.skipped "secondary_no_peers")

/-- The authority has the block, relayed, and does not say `ok`. -/
def relayed : ParallelCall :=
  parallelCall (.answered 200 (.object [("ok", .bool false), ("node_observability", .object [
      ("local_canonical", .bool true), ("relay_ack", .object [("ok", .bool true)])])]))
    (.skipped "secondary_no_peers")

/-- The authority could not relay the block, and the secondary accepted it. -/
def relayedBySecondary : ParallelCall :=
  parallelCall (.answered 200 (.object [("ok", .bool false),
      ("status", .string "accepted_local_relay_failed")]))
    (.asked (.answered 200 (.object [("ok", .bool true)])))

end Sample

/-- An overloaded authority orphans the candidate, and so does one that has the block; and a
failed relay the secondary makes up for is no `relay_failed`. -/
theorem status_unsettled :
    ¬ StatusSettled Sample.overloaded (Sample.statusOfCall Sample.overloaded) ∧
      ¬ StatusSettled Sample.relayed (Sample.statusOfCall Sample.relayed) ∧
      ¬ StatusSettled Sample.relayedBySecondary
        (Sample.statusOfCall Sample.relayedBySecondary) := by
  refine ⟨?_, ?_, ?_⟩
  · intro settled
    have orphaned : Sample.statusOfCall Sample.overloaded = .orphaned := by decide +kernel
    have definitive := ((settled.orphaned orphaned).2 _ List.mem_cons_self).2.2
    exact absurd definitive (by decide +kernel)
  · intro settled
    have orphaned : Sample.statusOfCall Sample.relayed = .orphaned := by decide +kernel
    have unknown := ((settled.orphaned orphaned).2 _ List.mem_cons_self).2.1
    exact absurd unknown (by decide +kernel)
  · intro settled
    have secondary : Sample.statusOfCall Sample.relayedBySecondary ≠ .relayFailed := by
      decide +kernel
    exact secondary (settled.relayFailed.2 (by decide +kernel))

end Bridge

end CsdPool
