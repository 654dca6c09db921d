/-
# Bridge.Session — what a session does with a verified submit

From `verify_submit_for_vardiff` to the reply: the job is upserted, the share inserted,
and only a share that was inserted goes on to `submit_block_candidate` and
`record_block_candidate`.

* Each repository call is one transaction.  It finds whatever the other sessions and
  the workers committed meanwhile (`others`), and it can fail with nothing written, or
  with everything written and only the acknowledgement lost.  No statement of the pool
  deletes a job.
* A call that fails ends the session (`?`); its effects so far stay, so a step is an
  `EStateM` action on the database and the candidates sent.
* Rejected submits are events in a table that nothing here reads; only their failure is
  modelled.  Metrics, logs and the difficulty after an accepted share are left out.
-/
import CsdPool.Bridge.Candidate
import CsdPool.Theory.Sha256

namespace CsdPool.Bridge

open Theory (Keyed Table)

set_option autoImplicit false

/-! ## Repository calls -/

/-- How a repository call can go wrong: nothing was written, or everything was and only the answer
is missing. -/
inductive Fault
  | none
  | failed
  | unacknowledged
  deriving DecidableEq, Repr

/-- A repository call as it falls out in one step: its fault, and what the other sessions and the
workers have committed by the time it runs. -/
structure Call where
  fault : Fault
  others : Db → Db
  keepsJobs : ∀ db jobId, db.jobs.contains jobId = true → (others db).jobs.contains jobId = true

/-- A call that nothing goes on next to. -/
def Call.quiet (fault : Fault) : Call := ⟨fault, id, fun _ _ held => held⟩

/-- The configured `MiningRepository` and how its calls fare in this step. -/
structure Repository where
  upsertJob : Call
  insertShare : Call
  insertShareEvent : Call
  recordBlockCandidate : Call
  now : Nat

/-- What a session brings to the handling of a submit. -/
structure Session where
  repository : Option Repository
  blockSubmitter : Option NodeCall
  miner : Address
  sessionId : Option String
  extranonce1Le : Bytes 4
  vardiff : VardiffState
  now : Nat
  observation : CandidateObservation

/-- What a step works on: the database, and every candidate sent to a node so far. -/
structure World where
  db : Db
  candidates : List BlockCandidateSubmission

abbrev Action := EStateM BridgeError World

/-- The statement runs on the database as the others have left it. A call that fails throws, and
what was written up to there stays. -/
def Call.perform {α : Type} (call : Call) (statement : Db → Except RepositoryError (α × Db)) :
    Action α := fun world =>
  let db := call.others world.db
  match statement db with
  | .error e => .error (.repository e) { world with db }
  | .ok (result, written) =>
      match call.fault with
      | .none => .ok result { world with db := written }
      | .failed => .error (.repository .sql) { world with db }
      | .unacknowledged => .error (.repository .sql) { world with db := written }

/-! ## The branch of `mining.submit` -/

/-- The job first, then its share; `true` if the share was a new one. Without a repository every
share is. -/
def persistAcceptedShare (session : Session) (job : PoolJob) (submit : SubmitParams)
    (share : VerifiedShare) (difficulty : ℚ) : Action Bool :=
  match session.repository with
  | none => pure true
  | some repository => do
      repository.upsertJob.perform fun db =>
        (db.upsertJob (jobRecordFromPoolJob job (JobReason.fromJob job))).map fun db => ((), db)
      repository.insertShare.perform fun db =>
        db.insertShare
          (shareRecordFromSubmit session.sessionId session.miner submit share difficulty)

/-- The row of a refused share is read by nothing here, so only its failure shows. -/
def persistShareEvent (session : Session) : Action Unit :=
  match session.repository with
  | none => pure ()
  | some repository =>
      repository.insertShareEvent.perform fun db =>
        (minerIdInTx session.miner).map fun _ => ((), db)

/-- The node has the candidate from here on, whatever becomes of the session. -/
def sendCandidate (submission : BlockCandidateSubmission) : Action Unit :=
  modify fun world => { world with candidates := world.candidates ++ [submission] }

/-- The call that records what became of a submission. -/
def recordCandidate (session : Session) (submission : BlockCandidateSubmission)
    (node : NodeCall) : Action Unit :=
  match session.repository with
  | none => pure ()
  | some repository => do
      let record := blockCandidateRecord session.miner submission
        (reportedResponse session.observation submission.candidate.hashHex node.answer)
      let _ ← repository.recordBlockCandidate.perform fun db =>
        db.recordBlockCandidate record repository.now
      pure ()

/-- A request that cannot be built ends the session before the node hears of the block. -/
def submitBlockCandidate (session : Session) (job : PoolJob) (submit : SubmitParams)
    (share : VerifiedShare) : Action Unit :=
  match session.blockSubmitter with
  | none => pure ()
  | some node =>
      match blockCandidateSubmitRequest job session.miner submit share session.extranonce1Le with
      | .error e => throw e
      | .ok request => do
          let submission := ⟨request, job.candidateMaterial⟩
          sendCandidate submission
          recordCandidate session submission node

/-- The code and message of an error reply. -/
abbrev Reply := Option (Nat × String)

/-- A submit from its verification to its reply. Only a share that the database took as new goes on
to the node. -/
def handleSubmit (digest : Digest) (session : Session) (job : PoolJob) (submit : SubmitParams) :
    Action Reply :=
  match verifySubmitForVardiff digest job.template session.extranonce1Le submit session.vardiff
      session.now with
  | .error _ => do
      persistShareEvent session
      pure (some (23, "low difficulty share"))
  | .ok (share, difficulty) => do
      let persisted ← persistAcceptedShare session job submit share difficulty
      if persisted then
        if share.isBlockCandidate then
          submitBlockCandidate session job submit share
        pure none
      else
        persistShareEvent session
        pure (some (22, "duplicate share"))

/-! ## Taking a step apart -/

namespace Step

variable {α β : Type}

/-- The state a step leaves, whether it returns or fails. -/
def world : EStateM.Result BridgeError World α → World
  | .ok _ w => w
  | .error _ w => w

/-- Whether the step threw, which ends the session. -/
def failed : EStateM.Result BridgeError World α → Bool
  | .ok _ _ => false
  | .error _ _ => true

/-- Two steps after each other, the first of which returns. -/
theorem bind_of_ok {x : Action α} {f : α → Action β} {w w' : World} {a : α}
    (ran : x w = .ok a w') : (x >>= f) w = f a w' := by
  show EStateM.bind x f w = f a w'
  unfold EStateM.bind
  rw [ran]

/-- What follows a step that throws does not run. -/
theorem bind_of_error {x : Action α} {f : α → Action β} {w w' : World} {e : BridgeError}
    (ran : x w = .error e w') : (x >>= f) w = .error e w' := by
  show EStateM.bind x f w = .error e w'
  unfold EStateM.bind
  rw [ran]

theorem world_bind_pure (x : Action α) (b : β) (w : World) :
    world ((x >>= fun _ => pure b) w) = world (x w) := by
  cases ran : x w with
  | ok a mid => rw [bind_of_ok ran]; rfl
  | error e mid => rw [bind_of_error ran]; rfl

theorem failed_bind_pure (x : Action α) (b : β) (w : World) :
    failed ((x >>= fun _ => pure b) w) = failed (x w) := by
  cases ran : x w with
  | ok a mid => rw [bind_of_ok ran]; rfl
  | error e mid => rw [bind_of_error ran]; rfl

end Step

section Perform

variable {α : Type} {call : Call} {statement : Db → Except RepositoryError (α × Db)} {w : World}

/-- A sound call whose statement goes through leaves what the statement wrote. -/
theorem perform_of_ok {result : α} {written : Db}
    (ok : statement (call.others w.db) = .ok (result, written)) (sound : call.fault = .none) :
    call.perform statement w = .ok result { w with db := written } := by
  unfold Call.perform
  dsimp only
  rw [ok]
  dsimp only
  rw [sound]

/-- A call that returns had no fault, and its statement went through on the database it met. -/
theorem perform_ok {result : α} {w' : World} (ran : call.perform statement w = .ok result w') :
    call.fault = .none ∧
      ∃ written, statement (call.others w.db) = .ok (result, written) ∧
        w' = { w with db := written } := by
  unfold Call.perform at ran
  dsimp only at ran
  split at ran
  · cases ran
  · rename_i ok
    split at ran
    · rename_i sound
      cases ran
      exact ⟨sound, _, ok, rfl⟩
    · cases ran
    · cases ran

/-- A repository call sends nothing to the node. -/
theorem perform_candidates : (Step.world (call.perform statement w)).candidates = w.candidates := by
  unfold Call.perform
  dsimp only
  split
  · rfl
  · split <;> rfl

end Perform

/-! ## A session on a chain of the easiest work -/

namespace Sample

def miner : Address := "1111111111111111111111111111111111111111"

/-- A target that every second hash meets. -/
def target : Hash32 := .cons 0x7f (.replicate 31 0xff)

def job : PoolJob where
  notify :=
    { jobId := "job-1"
      prevHashBeHex := "2222222222222222222222222222222222222222222222222222222222222222"
      coinb1Hex := "aa"
      coinb2Hex := "bb"
      merkleBranchesHex := []
      versionHex := "20000000"
      nbitsHex := "207fffff"
      ntimeHex := "665544cc"
      cleanJobs := true }
  template :=
    { jobId := "job-1"
      version := 0x20000000
      prev := .replicate 32 0x22
      time := 0x665544cc
      bits := 0x207fffff
      shareTarget := target
      networkTarget := target
      coinbasePrefix := [0xaa]
      coinbaseSuffix := [0xbb]
      merkleBranch := [] }
  candidateMaterial := none
  named := rfl

/-- The job under another id, on the parent of 32 bytes `parent`. -/
def jobOn (jobId : String) (parent : UInt8) : PoolJob where
  notify := { job.notify with jobId }
  template := { job.template with jobId, prev := .replicate 32 parent }
  candidateMaterial := none
  named := rfl

/-- A submit whose nonce is spelled this way. -/
def submit (nonceHex : String) : SubmitParams where
  workerName := miner
  jobId := "job-1"
  extranonce2Hex := "00000001"
  ntimeHex := "665544cc"
  nonceHex := nonceHex

def solution : SubmitSolution where
  extranonce2Le := ⟨[0, 0, 0, 1], rfl⟩
  ntime := 0x665544cc
  nonce := 0x0a0b0c0b

/-- The node takes the block and says so. -/
def node : NodeCall where
  accepted := true
  answer := .ok ⟨true, none, .object []⟩

def session : Session where
  repository := some ⟨.quiet .none, .quiet .none, .quiet .none, .quiet .none, 0⟩
  blockSubmitter := some node
  miner := miner
  sessionId := none
  extranonce1Le := ⟨[1, 0, 0, 0], rfl⟩
  vardiff := ⟨1, none, none⟩
  now := 0
  observation := ⟨0, 0, 0⟩

def world : World := ⟨.migrated, []⟩

def share : VerifiedShare :=
  solvedShare Theory.Sha256.digest job.template session.extranonce1Le solution

theorem meets : hashLeqTarget share.hash job.template.networkTarget = true := by decide +kernel

/-- However the nonce is spelled, a submit of this solution is accepted. -/
theorem verified {nonceHex : String} (spells : solutionFromSubmit (submit nonceHex) = .ok solution) :
    verifySubmitForVardiff Theory.Sha256.digest job.template session.extranonce1Le
      (submit nonceHex) session.vardiff session.now = .ok (share, 1) := by
  apply verifySubmitForVardiff_of_met spells
  have assigned : targetForDifficulty job.template.shareTarget session.vardiff.currentDifficulty =
      job.template.networkTarget := if_pos le_rfl
  rw [assigned]
  exact meets

end Sample

end CsdPool.Bridge
