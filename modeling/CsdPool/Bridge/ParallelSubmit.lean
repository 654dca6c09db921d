/-
# Bridge.ParallelSubmit — one response made of two answers

The stateless parallel submitter asks the authority always and the secondary when its gates
are open, and makes one response of what came back: the body of the node that accepted (the
authority's when both or none did), `ok` when either accepted, and under `parallel_submit` the
audit of both calls.  The record of the candidate reads the status off that object.

A node's answer is an HTTP status and a body.  `SubmitBlockResponse` takes `ok` and `hash` out
of the body, each with a default, and keeps the other members in `extra`; a status that is no
success only adds `http_status`.  A body that is no such object is an error of the call, like a
connection that broke.  The clock readings, the health reports and the breaker's counters go
into the response as they are and come in as one argument each.
-/
import CsdPool.Bridge.Candidate
import CsdPool.Bridge.SecondaryClaim

namespace CsdPool

set_option autoImplicit false

/-! ## A node's answer -/

namespace SubmitBlockResponse

/-- The value of a named field; serde refuses a field that is given twice. -/
def namedField (fields : List (String × Json)) (name : String) : Except String (Option Json) :=
  match fields.filter fun field => field.1 = name with
  | [] => .ok none
  | [field] => .ok (some field.2)
  | _ => .error ("duplicate field `" ++ name ++ "`")

/-- A missing `ok` is `false`, by its default; a null is an error. -/
def deserializeOk : Option Json → Except String Bool
  | none => .ok false
  | some (.bool ok) => .ok ok
  | some _ => .error "invalid type: expected a boolean"

/-- A missing hash and a null are none. -/
def deserializeHash : Option Json → Except String (Option String)
  | none | some .null => .ok none
  | some (.string hash) => .ok (some hash)
  | some _ => .error "invalid type: expected a string"

/-- The members that are no named field, each key once. -/
def flattened (fields : List (String × Json)) : List (String × Json) :=
  (fields.filter fun field => field.1 ≠ "ok" ∧ field.1 ≠ "hash").foldl
    (fun extra field => Json.insertField extra field.1 field.2) []

/-- `serde_json::from_slice` on a body that is JSON, its members in the order of the text. -/
def deserialize : Json → Except String SubmitBlockResponse
  | .object fields => do
      let ok ← deserializeOk (← namedField fields "ok")
      let hash ← deserializeHash (← namedField fields "hash")
      return { ok, hash, extra := .object (flattened fields) }
  | _ => .error "invalid type: expected struct SubmitBlockResponse"

end SubmitBlockResponse

/-- `StatusCode::is_success`. -/
def isSuccess (httpStatus : Nat) : Bool := 200 ≤ httpStatus && httpStatus < 300

/-- An answer with an error status is parsed as any other, and carries the status with it. -/
def parseSubmitBlockResponse (httpStatus : Nat) (body : Json) :
    Except String SubmitBlockResponse := do
  let parsed ← SubmitBlockResponse.deserialize body
  if isSuccess httpStatus then return parsed
  else
    return { parsed with
      extra := .object (Json.insertField parsed.extraFields "http_status"
        (.number (.unsigned httpStatus))) }

namespace Bridge

/-- What comes of one request to a node within its time: an answer that is JSON, an error
(no connection, a body cut short or no JSON), or nothing. -/
inductive Exchange
  | answered (httpStatus : Nat) (body : Json)
  | failed (error : String)
  | timedOut

/-- `submit_candidate` and `submit_full_candidate` of an endpoint, under the timeout. -/
def Exchange.result : Exchange → Option (Except String SubmitBlockResponse)
  | .answered httpStatus body => some (parseSubmitBlockResponse httpStatus body)
  | .failed error => some (.error error)
  | .timedOut => none

/-! ## Audits -/

/-- The bridge's copy of the test the record makes. -/
def nodeResponseHasLocalCanonicalRelayFailure (response : SubmitBlockResponse) : Bool :=
  (response.extra.get? "status").bind Json.asStr == some "accepted_local_relay_failed" ||
    ((response.extra.pointer ["node_observability", "local_canonical"]).bind Json.asBool ==
        some true &&
      (response.extra.pointer ["node_observability", "relay_ack", "ok"]).bind Json.asBool ==
        some false)

/-- How a submission to one node went. -/
inductive SubmitOutcome
  | accepted
  | localCanonicalRelayFailed
  | rejected
  | transportError
  | timeout
  | skipped
  deriving DecidableEq, Repr

/-- The names the audits use. -/
def SubmitOutcome.text : SubmitOutcome → String
  | .accepted => "accepted"
  | .localCanonicalRelayFailed => "local_canonical_relay_failed"
  | .rejected => "rejected"
  | .transportError => "transport_error"
  | .timeout => "timeout"
  | .skipped => "skipped"

/-- An answer that reports an acceptance is accepted, whatever else it tells. -/
def submitOutcome (response : SubmitBlockResponse) : SubmitOutcome :=
  if response.ok then .accepted
  else if nodeResponseHasLocalCanonicalRelayFailure response then .localCanonicalRelayFailed
  else .rejected

/-- The clock readings of an audit. -/
structure SubmitTimes where
  startedUnixMs : Nat
  finishedUnixMs : Nat
  elapsedUs : Nat

/-- What is recorded of one submission. -/
structure SubmitAudit where
  node : String
  role : String
  times : SubmitTimes
  outcome : SubmitOutcome
  response : Option SubmitBlockResponse
  error : Option String
  skipReason : Option String

section Audit

variable (node role : String) (times : SubmitTimes)

/-- `submit_cached_to_node` and `submit_full_to_node`. -/
def submitToNode (timeoutMs : Nat) (exchange : Exchange) : SubmitAudit :=
  match exchange.result with
  | some (.ok response) =>
      { node, role, times
        outcome := submitOutcome response
        response := some response
        error := none
        skipReason := none }
  | some (.error error) =>
      { node, role, times
        outcome := .transportError
        response := none
        error := some error
        skipReason := none }
  | none =>
      { node, role, times
        outcome := .timeout
        response := none
        error := some ("submit timeout after " ++ toString timeoutMs ++ " ms")
        skipReason := none }

/-- The audit of a node that was not asked, with the reason. -/
def skippedSubmitAudit (reason : String) : SubmitAudit :=
  { node, role, times
    outcome := .skipped
    response := none
    error := none
    skipReason := some reason }

end Audit

def textOrNull (text : Option String) : Json := text.elim .null .string

def countOrNull (count : Option Nat) : Json := count.elim .null fun n => .number (.unsigned n)

/-- An audit as the response carries it. -/
def submitAuditJson (audit : SubmitAudit) : Json := .object [
  ("node", .string audit.node),
  ("role", .string audit.role),
  ("started_unix_ms", .number (.unsigned audit.times.startedUnixMs)),
  ("finished_unix_ms", .number (.unsigned audit.times.finishedUnixMs)),
  ("elapsed_us", .number (.unsigned audit.times.elapsedUs)),
  ("outcome", .string audit.outcome.text),
  ("response", audit.response.elim .null SubmitBlockResponse.toValue),
  ("error", textOrNull audit.error),
  ("skip_reason", textOrNull audit.skipReason)]

/-! ## The response -/

/-- The status of a submission to both nodes, by who accepted and, where one did not, by how it
went. -/
def parallelSubmitStatus (primaryOk secondaryOk : Bool) (primary secondary : SubmitAudit) :
    String :=
  match primaryOk, secondaryOk, secondary.outcome with
  | true, true, _ => "both_accepted"
  | true, false, .skipped => "authority_accepted_secondary_skipped"
  | true, false, .localCanonicalRelayFailed =>
      "authority_accepted_secondary_local_canonical_relay_failed"
  | true, false, _ => "authority_accepted_secondary_failed"
  | false, true, _ =>
      if primary.outcome = .localCanonicalRelayFailed then
        "secondary_accepted_authority_local_canonical_relay_failed"
      else "secondary_accepted_authority_failed"
  | false, false, .localCanonicalRelayFailed =>
      if primary.outcome = .localCanonicalRelayFailed then "both_local_canonical_relay_failed"
      else "secondary_local_canonical_relay_failed"
  | false, false, outcome =>
      if primary.outcome = .localCanonicalRelayFailed then
        "authority_local_canonical_relay_failed"
      else if outcome = .skipped then "authority_failed_secondary_skipped"
      else "both_failed"

/-- Who accepted. -/
def acceptedBy : Bool → Bool → String
  | true, true => "both"
  | true, false => "authority"
  | false, true => "secondary"
  | false, false => "none"

/-- What the health monitor and the breaker report, as it goes into the response. -/
structure SubmitReports where
  circuit : Json
  healthAgeMs : Option Nat
  candidateParentHealth : Option Json
  primaryHealth : Json
  secondaryHealth : Json

namespace SubmitAudit

def ok (audit : SubmitAudit) : Bool := audit.response.any fun response => response.ok

/-- The node reported the block in its own chain and its relay failed. -/
def localCanonical (audit : SubmitAudit) : Bool :=
  audit.response.any nodeResponseHasLocalCanonicalRelayFailure

end SubmitAudit

section Response

variable (authority secondary : String) (primaryAudit secondaryAudit : SubmitAudit)

/-- The value under `parallel_submit`. -/
def parallelSubmitJson (claim : SecondaryCandidateClaim) (reports : SubmitReports) : Json :=
  .object [
    ("enabled", .bool true),
    ("authority", .string authority),
    ("secondary", .string secondary),
    ("status", .string
      (parallelSubmitStatus primaryAudit.ok secondaryAudit.ok primaryAudit secondaryAudit)),
    ("authority_ok", .bool primaryAudit.ok),
    ("secondary_ok", .bool secondaryAudit.ok),
    ("accepted_by", .string (acceptedBy primaryAudit.ok secondaryAudit.ok)),
    ("local_canonical_nodes", .object [
      ("authority", .bool primaryAudit.localCanonical),
      ("secondary", .bool secondaryAudit.localCanonical)]),
    ("secondary_candidate_control", .object [
      ("mode", .string claim.mode),
      ("persistent_global_switch",
        .string "CSD_POOL_STATELESS_PARALLEL_CANDIDATE_SUBMIT_ENABLED"),
      ("claim_key", .string claim.claimKey),
      ("claimed", .bool claim.claimed),
      ("persistence", .string claim.persistence),
      ("error", textOrNull claim.error),
      ("circuit", reports.circuit)]),
    ("secondary_candidate_budget", .object [
      ("configured", countOrNull claim.configured),
      ("before", countOrNull claim.before),
      ("claimed", .bool claim.claimed),
      ("remaining", countOrNull claim.remaining),
      ("persistence", .string claim.persistence),
      ("error", textOrNull claim.error)]),
    ("health_age_ms", countOrNull reports.healthAgeMs),
    ("candidate_parent_health", reports.candidateParentHealth.getD .null),
    ("primary_health", reports.primaryHealth),
    ("secondary_health", reports.secondaryHealth),
    ("primary_submit", submitAuditJson primaryAudit),
    ("secondary_submit", submitAuditJson secondaryAudit)]

/-- The response the two audits start from. -/
def chosenResponse (hashHex : String) : SubmitBlockResponse :=
  let fallback : SubmitBlockResponse :=
    { ok := false
      hash := some hashHex
      extra := .object [("status", .string "authority_submit_failed"), ("retryable", .bool true)] }
  if secondaryAudit.ok && !primaryAudit.ok then secondaryAudit.response.getD fallback
  else primaryAudit.response.getD fallback

/-- `ParallelNodeBlockSubmitter::submit_candidate` from its two audits on. -/
def parallelResponse (hashHex : String) (claim : SecondaryCandidateClaim)
    (reports : SubmitReports) : SubmitBlockResponse :=
  let response := chosenResponse primaryAudit secondaryAudit hashHex
  { ok := primaryAudit.ok || secondaryAudit.ok
    hash := response.hash
    extra := .object (Json.insertField response.extraFields "parallel_submit"
      (parallelSubmitJson authority secondary primaryAudit secondaryAudit claim reports)) }

end Response

/-- What the secondary's gates decided, and what came of the request if they let it pass. -/
inductive SecondaryAttempt
  | skipped (reason : String)
  | asked (exchange : Exchange)

/-- The submitter's settings. -/
structure ParallelSubmitter where
  primary : String
  secondary : String
  primaryTimeoutMs : Nat
  secondaryTimeoutMs : Nat

/-- Everything one call of `submit_candidate` meets. -/
structure ParallelCall where
  authority : Exchange
  secondary : SecondaryAttempt
  authorityTimes : SubmitTimes
  secondaryTimes : SubmitTimes
  claim : SecondaryCandidateClaim
  reports : SubmitReports

namespace ParallelSubmitter

variable (submitter : ParallelSubmitter) (call : ParallelCall)

def primaryAudit : SubmitAudit :=
  submitToNode submitter.primary "authority" call.authorityTimes submitter.primaryTimeoutMs
    call.authority

def secondaryAudit : SubmitAudit :=
  match call.secondary with
  | .skipped reason =>
      skippedSubmitAudit submitter.secondary "best_effort" call.secondaryTimes reason
  | .asked exchange =>
      submitToNode submitter.secondary "best_effort" call.secondaryTimes
        submitter.secondaryTimeoutMs exchange

def submitCandidate (hashHex : String) : SubmitBlockResponse :=
  parallelResponse submitter.primary submitter.secondary (submitter.primaryAudit call)
    (submitter.secondaryAudit call) hashHex call.claim call.reports

end ParallelSubmitter

end Bridge

end CsdPool
