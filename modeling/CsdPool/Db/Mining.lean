/-
# Db.Mining — jobs, shares and block candidates

`upsert_job`, `insert_share` and `record_block_candidate`.  A check constraint is
tested before the unique index, a foreign key after the row went in, so a row that
meets an equal key never gets to its foreign keys.  The session of a share is
bound only after `open_session` committed its row and is not checked here.

A share's difficulty is bound as the text `f64::to_string` gives it and cast to `numeric`: the
row holds the value of the shortest decimal that reads back as the double (`ShareRecord.row`).

`BlockCandidateRecord.initialStatus` reads the node's answer: only a plain refusal makes a
candidate `orphaned` at birth; everything ambiguous is a status the reconciler polls.
-/
import CsdPool.Db.Blocks
import CsdPool.Node
import CsdPool.Theory.ShortestDecimal

namespace CsdPool

open Theory (Keyed Table)

set_option autoImplicit false

structure BlockCandidateRecord where
  hashHex : String
  jobId : String
  miner : Address
  workerName : String
  rewardBaseUnits : Nat
  submitResponseJson : Json

namespace Json

/-- `value.pointer("/a/b")` for reference tokens that are no array indices. -/
def pointer : List String → Json → Option Json
  | [], value => some value
  | token :: tokens, value => (value.get? token).bind (pointer tokens)

end Json

/-! ## The initial status of a candidate -/

def nodeResponseHasLocalCanonicalRelayFailure (response : Json) : Bool :=
  (response.get? "status").bind Json.asStr == some "accepted_local_relay_failed" ||
    ((response.pointer ["node_observability", "local_canonical"]).bind Json.asBool == some true &&
      (response.pointer ["node_observability", "relay_ack", "ok"]).bind Json.asBool == some false)

namespace BlockCandidateRecord

def hasLocalCanonicalRelayFailure (block : BlockCandidateRecord) : Bool :=
  let response := block.submitResponseJson
  nodeResponseHasLocalCanonicalRelayFailure response ||
    (response.pointer ["parallel_submit", "primary_submit", "response"]).any
      nodeResponseHasLocalCanonicalRelayFailure ||
    (response.pointer ["parallel_submit", "secondary_submit", "response"]).any
      nodeResponseHasLocalCanonicalRelayFailure

def hasAmbiguousSubmitOutcome (block : BlockCandidateRecord) : Bool :=
  let response := block.submitResponseJson
  (response.get? "transport_error").isSome ||
    ([["parallel_submit", "primary_submit", "outcome"],
      ["parallel_submit", "secondary_submit", "outcome"]].filterMap fun pointer =>
        (response.pointer pointer).bind Json.asStr).any fun outcome =>
      outcome == "transport_error" || outcome == "timeout"

def initialStatus (block : BlockCandidateRecord) : BlockStatus :=
  let submitOk := (block.submitResponseJson.get? "ok").bind Json.asBool
  let acceptedBy :=
    (block.submitResponseJson.pointer ["parallel_submit", "accepted_by"]).bind Json.asStr
  if submitOk == some true && acceptedBy == some "secondary" then .submittedSecondary
  else if submitOk == some true && block.hasLocalCanonicalRelayFailure then .submittedDegraded
  else if block.hasLocalCanonicalRelayFailure then .relayFailed
  else if submitOk == some false && !block.hasAmbiguousSubmitOutcome then .orphaned
  else .submitted

/-- The answer says no, and neither that it was lost nor that the node has the block. -/
def plainlyRefused (block : BlockCandidateRecord) : Bool :=
  (block.submitResponseJson.get? "ok").bind Json.asBool == some false &&
    !block.hasAmbiguousSubmitOutcome && !block.hasLocalCanonicalRelayFailure

/-- **A candidate starts in a status the reconciler polls unless it is plainly refused.** -/
theorem initialStatus_polled_iff (block : BlockCandidateRecord) :
    block.initialStatus ∈ Db.polledStatuses ↔ block.plainlyRefused = false := by
  unfold initialStatus plainlyRefused
  dsimp only
  split
  · rename_i secondary
    rw [Bool.and_eq_true, beq_iff_eq] at secondary
    simp [secondary.1, Db.polledStatuses]
  · split
    · rename_i degraded
      rw [Bool.and_eq_true] at degraded
      simp [degraded.2, Db.polledStatuses]
    · split
      · rename_i relay
        simp [relay, Db.polledStatuses]
      · rename_i relay
        rw [Bool.not_eq_true] at relay
        split
        · rename_i refused
          simp [refused, relay, Db.polledStatuses]
        · rename_i open_
          rw [Bool.not_eq_true] at open_
          simp [open_, Db.polledStatuses]

end BlockCandidateRecord

/-! ## Jobs and shares -/

/-- The row of a share.  Its difficulty is a double and is bound as `difficulty.to_string()`. -/
def ShareRecord.row (share : ShareRecord) : ShareRecord :=
  { share with difficulty := Theory.F64.shortest share.difficulty }

@[simp] theorem ShareRecord.key_row (share : ShareRecord) :
    Keyed.key share.row = Keyed.key share := rfl

namespace Db

/-- The check constraints on `jobs`. -/
def jobAdmitted (job : JobRecord) : Bool :=
  matchesLowerHex 64 job.prevHashBeHex && matchesLowerHex 8 job.versionHex &&
    matchesLowerHex 8 job.nbitsHex && matchesLowerHex 8 job.ntimeHex &&
    ["tip_change", "heartbeat"].contains job.jobReason

def upsertJob (db : Db) (job : JobRecord) : Except RepositoryError Db :=
  if jobAdmitted job then .ok { db with jobs := db.jobs.put job } else .error .sql

/-- The check constraints on `shares`. -/
def shareAdmitted (share : ShareRecord) : Bool :=
  matchesLowerHex 8 share.extranonce2Hex && matchesLowerHex 8 share.ntimeHex &&
    matchesLowerHex 8 share.nonceHex

/-- `Ok(inserted)` and the database after it. -/
def insertShare (db : Db) (share : ShareRecord) : Except RepositoryError (Bool × Db) :=
  match minerIdInTx share.miner with
  | .error e => .error e
  | .ok _ =>
      if shareAdmitted share then
        let (shares, inserted) := db.shares.insert share.row
        if inserted && !db.jobs.contains share.jobId then .error .sql
        else .ok (inserted, { db with shares })
      else .error .sql

/-! ## Block candidates -/

def candidateRow (block : BlockCandidateRecord) (now : Nat) : BlockRow where
  hash := block.hashHex
  jobId := some block.jobId
  status := block.initialStatus
  height := none
  confirmations := 0
  rewardBaseUnits := block.rewardBaseUnits
  submittedAt := some now
  confirmedAt := none
  orphanedAt := if block.initialStatus = .orphaned then some now else none

/-- `Ok(inserted)` and the database after it. -/
def recordBlockCandidate (db : Db) (block : BlockCandidateRecord) (now : Nat) :
    Except RepositoryError (Bool × Db) :=
  match minerIdInTx block.miner with
  | .error e => .error e
  | .ok _ =>
      let (blocks, inserted) := db.blocks.insert (candidateRow block now)
      if inserted && !db.jobs.contains block.jobId then .error .sql
      else .ok (inserted, { db with blocks })

/-! ## What the statements do -/

theorem upsertJob_ok {db db' : Db} {job : JobRecord} (upserted : db.upsertJob job = .ok db') :
    db' = { db with jobs := db.jobs.put job } := by
  unfold upsertJob at upserted
  split at upserted
  · cases upserted; rfl
  · cases upserted

theorem insertShare_ok {db db' : Db} {share : ShareRecord} {inserted : Bool}
    (ok : db.insertShare share = .ok (inserted, db')) :
    db' = { db with shares := (db.shares.insert share.row).1 } ∧
      inserted = (db.shares.insert share.row).2 ∧ shareAdmitted share = true := by
  unfold insertShare at ok
  split at ok
  · cases ok
  · split at ok
    · rename_i admitted
      dsimp only at ok
      split at ok
      · cases ok
      · cases ok
        exact ⟨rfl, rfl, admitted⟩
    · cases ok

/-- Exactly when a share is inserted: a legal miner, the spellings the constraints admit,
a key no share has, and a job that is there. -/
theorem insertShare_inserted {db db' : Db} {share : ShareRecord} :
    db.insertShare share = .ok (true, db') ↔
      (matchesLowerHex 40 share.miner = true ∧ shareAdmitted share = true ∧
        db.shares.find? (Keyed.key share) = none ∧ db.jobs.contains share.jobId = true) ∧
      db' = { db with shares := (db.shares.insert share.row).1 } := by
  constructor
  · intro ok
    obtain ⟨written, inserted, admitted⟩ := insertShare_ok ok
    refine ⟨⟨?_, admitted, Table.insert_snd_iff (r := share.row) |>.1 inserted.symm, ?_⟩, written⟩
    · unfold insertShare at ok
      split at ok
      · cases ok
      · rename_i upserted
        exact (minerIdInTx_ok upserted).2
    · unfold insertShare at ok
      split at ok
      · cases ok
      · rw [if_pos admitted] at ok
        dsimp only at ok
        rw [← inserted, Bool.true_and] at ok
        split at ok
        · cases ok
        · rename_i known
          simpa using known
  · rintro ⟨⟨legal, admitted, fresh, known⟩, rfl⟩
    unfold insertShare minerIdInTx
    rw [if_pos legal]
    dsimp only
    rw [if_pos admitted, Table.insert_snd_iff (r := share.row) |>.2 fresh, known]
    rfl

/-- **What recording a candidate does.**  Afterwards a row stands under the hash:
the one that was there, or the candidate's own. -/
theorem recordBlockCandidate_ok {db db' : Db} {block : BlockCandidateRecord} {now : Nat}
    {inserted : Bool} (ok : db.recordBlockCandidate block now = .ok (inserted, db')) :
    db' = { db with blocks := (db.blocks.insert (candidateRow block now)).1 } ∧
      inserted = (db.blocks.insert (candidateRow block now)).2 := by
  unfold recordBlockCandidate at ok
  split at ok
  · cases ok
  · dsimp only at ok
    split at ok
    · cases ok
    · cases ok
      exact ⟨rfl, rfl⟩

/-- A candidate of a legal miner on a job that is there is always recorded. -/
theorem recordBlockCandidate_total {db : Db} {block : BlockCandidateRecord}
    (legal : matchesLowerHex 40 block.miner = true)
    (known : db.jobs.contains block.jobId = true) (now : Nat) :
    ∃ result, db.recordBlockCandidate block now = .ok result := by
  unfold recordBlockCandidate minerIdInTx
  rw [if_pos legal]
  dsimp only
  rw [known, Bool.not_true, Bool.and_false]
  exact ⟨_, rfl⟩

theorem find?_recordBlockCandidate {db db' : Db} {block : BlockCandidateRecord} {now : Nat}
    {inserted : Bool} (ok : db.recordBlockCandidate block now = .ok (inserted, db'))
    (hash : String) :
    db'.blocks.find? hash =
      if block.hashHex = hash ∧ db.blocks.find? hash = none then some (candidateRow block now)
      else db.blocks.find? hash := by
  obtain ⟨rfl, -⟩ := recordBlockCandidate_ok ok
  exact Table.find?_insert db.blocks (candidateRow block now) hash

end Db

end CsdPool
