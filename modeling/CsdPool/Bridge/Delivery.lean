/-
# Bridge.Delivery — which candidates reach the node, and which records survive

`submit_candidate` is called only after `upsert_job` and `insert_share` went through and
the share was new.  The database decides that on the texts of the submit and on a key
without `extranonce1`, so a header that meets the network target is withheld exactly
when the constraints refuse its spelling, when its key is taken, or when a call fails
(`persistAcceptedShare_iff`).  The record behind the submission is a call of its own:
when that fails, what `reconcile_blocks` finds is a row that was there already, or the
one whose acknowledgement was lost, unless the node's answer makes it `orphaned`
(`record_kept_iff`).  Nothing is assumed of the answer: a node may have the block and say no.
-/
import CsdPool.Bridge.Session

namespace CsdPool.Bridge

open Theory (Keyed Table)

set_option autoImplicit false

/-! ## Steps that send nothing -/

namespace Step

variable {α β : Type}

theorem bind_ok {x : Action α} {f : α → Action β} {w w' : World} {b : β} :
    (x >>= f) w = .ok b w' ↔ ∃ a mid, x w = .ok a mid ∧ f a mid = .ok b w' := by
  constructor
  · intro ran
    cases first : x w with
    | ok a mid =>
        rw [bind_of_ok first] at ran
        exact ⟨a, mid, rfl, ran⟩
    | error e mid => rw [bind_of_error first] at ran; cases ran
  · rintro ⟨a, mid, first, later⟩
    rw [bind_of_ok first, later]

/-- An action that never calls `submit_candidate`. -/
def Silent (x : Action α) : Prop := ∀ w, (world (x w)).candidates = w.candidates

theorem silent_pure (a : α) : Silent (pure a) := fun _ => rfl

theorem silent_perform {call : Call} {statement : Db → Except RepositoryError (α × Db)} :
    Silent (call.perform statement) := fun _ => perform_candidates

theorem silent_bind {x : Action α} {f : α → Action β} (first : Silent x)
    (later : ∀ a, Silent (f a)) : Silent (x >>= f) := by
  intro w
  have kept := first w
  cases ran : x w with
  | ok a mid =>
      rw [ran] at kept
      rw [bind_of_ok ran, later a mid]
      exact kept
  | error e mid =>
      rw [ran] at kept
      rw [bind_of_error ran]
      exact kept

end Step

open Step

theorem persistAcceptedShare_silent (session : Session) (job : PoolJob) (submit : SubmitParams)
    (share : VerifiedShare) (difficulty : ℚ) :
    Silent (persistAcceptedShare session job submit share difficulty) := by
  unfold persistAcceptedShare
  split
  · exact silent_pure true
  · exact silent_bind silent_perform fun _ => silent_perform

theorem persistShareEvent_silent (session : Session) : Silent (persistShareEvent session) := by
  unfold persistShareEvent
  split
  · exact silent_pure ()
  · exact silent_perform

/-! ## When a verified share is persisted -/

namespace Repository

/-- The database after the job was upserted. -/
def afterUpsert (repository : Repository) (job : PoolJob) (db : Db) : Db :=
  let found := repository.upsertJob.others db
  { found with jobs := found.jobs.put (jobRecordFromPoolJob job (JobReason.fromJob job)) }

/-- The database `insert_share` finds. -/
def atInsert (repository : Repository) (job : PoolJob) (db : Db) : Db :=
  repository.insertShare.others (repository.afterUpsert job db)

/-- The database after the share was inserted. -/
def afterInsert (repository : Repository) (job : PoolJob) (share : ShareRecord) (db : Db) : Db :=
  let found := repository.atInsert job db
  { found with shares := (found.shares.insert share.row).1 }

/-- The database `record_block_candidate` finds. -/
def atRecord (repository : Repository) (job : PoolJob) (share : ShareRecord) (db : Db) : Db :=
  repository.recordBlockCandidate.others (repository.afterInsert job share db)

end Repository

/-- The key of a submit's share in the database. -/
def submitKey (session : Session) (submit : SubmitParams) : ShareKey where
  jobId := submit.jobId
  miner := session.miner
  workerName := workerNameFromSubmit session.miner submit.workerName
  extranonce2Hex := submit.extranonce2Hex
  ntimeHex := submit.ntimeHex
  nonceHex := submit.nonceHex

/-- What it takes for `persist_accepted_share` to answer `Ok(true)`. -/
structure Repository.Persists (repository : Repository) (session : Session) (job : PoolJob)
    (submit : SubmitParams) (db : Db) : Prop where
  upserts : repository.upsertJob.fault = .none
  jobAdmitted : Db.jobAdmitted (jobRecordFromPoolJob job (JobReason.fromJob job)) = true
  inserts : repository.insertShare.fault = .none
  miner : matchesLowerHex 40 session.miner = true
  spelled : matchesLowerHex 8 submit.extranonce2Hex = true ∧
    matchesLowerHex 8 submit.ntimeHex = true ∧ matchesLowerHex 8 submit.nonceHex = true
  fresh : (repository.atInsert job db).shares.find? (submitKey session submit) = none

section Persist

variable {session : Session} {job : PoolJob} {submit : SubmitParams} {share : VerifiedShare}
  {difficulty : ℚ} {repository : Repository} {w : World}

theorem shareAdmitted_submit :
    Db.shareAdmitted (shareRecordFromSubmit session.sessionId session.miner submit share
        difficulty) = true ↔
      matchesLowerHex 8 submit.extranonce2Hex = true ∧
        matchesLowerHex 8 submit.ntimeHex = true ∧ matchesLowerHex 8 submit.nonceHex = true := by
  simp only [Db.shareAdmitted, shareRecordFromSubmit, Bool.and_eq_true, and_assoc]

theorem contains_afterUpsert (repository : Repository) (job : PoolJob) (db : Db) :
    (repository.afterUpsert job db).jobs.contains job.notify.jobId = true := by
  unfold Repository.afterUpsert
  dsimp only
  rw [Table.contains_eq_isSome, Table.find?_put]
  simp [Keyed.key, jobRecordFromPoolJob]

theorem contains_atInsert (repository : Repository) (job : PoolJob) (db : Db) :
    (repository.atInsert job db).jobs.contains job.notify.jobId = true :=
  repository.insertShare.keepsJobs _ _ (contains_afterUpsert repository job db)

theorem contains_atRecord (repository : Repository) (job : PoolJob) (record : ShareRecord)
    (db : Db) : (repository.atRecord job record db).jobs.contains job.notify.jobId = true :=
  repository.recordBlockCandidate.keepsJobs _ _ (contains_atInsert repository job db)

/-- **Exactly the persisted shares go on.**  The submit is one on the job it was
verified against. -/
theorem persistAcceptedShare_iff (configured : session.repository = some repository)
    (named : job.template.jobId = submit.jobId) {w' : World} :
    persistAcceptedShare session job submit share difficulty w = .ok true w' ↔
      repository.Persists session job submit w.db ∧
        w' = { w with
          db := repository.afterInsert job
            (shareRecordFromSubmit session.sessionId session.miner submit share difficulty)
            w.db } := by
  have jobId : submit.jobId = job.notify.jobId := named.symm.trans job.named
  unfold persistAcceptedShare
  rw [configured]
  dsimp only
  constructor
  · intro ran
    obtain ⟨⟨⟩, mid, upserted, inserted⟩ := bind_ok.1 ran
    obtain ⟨upserts, written, upsert, rfl⟩ := perform_ok upserted
    obtain ⟨inserts, written', insert, rfl⟩ := perform_ok inserted
    have admitted : Db.jobAdmitted (jobRecordFromPoolJob job (JobReason.fromJob job)) = true ∧
        written = repository.afterUpsert job w.db := by
      unfold Db.upsertJob at upsert
      split at upsert
      · rename_i admitted
        cases upsert
        exact ⟨admitted, rfl⟩
      · cases upsert
    obtain ⟨legalJob, rfl⟩ := admitted
    obtain ⟨⟨legal, admitted, fresh, -⟩, rfl⟩ := Db.insertShare_inserted.1 insert
    exact ⟨⟨upserts, legalJob, inserts, legal, shareAdmitted_submit.1 admitted, fresh⟩, rfl⟩
  · rintro ⟨persists, rfl⟩
    have upserted : repository.upsertJob.perform (fun db =>
        (db.upsertJob (jobRecordFromPoolJob job (JobReason.fromJob job))).map fun db => ((), db))
          w = .ok () { w with db := repository.afterUpsert job w.db } := by
      apply perform_of_ok
      · unfold Db.upsertJob
        rw [if_pos persists.jobAdmitted]
        rfl
      · exact persists.upserts
    rw [bind_of_ok upserted]
    apply perform_of_ok
    · apply Db.insertShare_inserted.2
      refine ⟨⟨persists.miner, shareAdmitted_submit.2 persists.spelled, persists.fresh, ?_⟩, rfl⟩
      show (repository.atInsert job w.db).jobs.contains submit.jobId = true
      rw [jobId]
      exact contains_atInsert repository job w.db
    · exact persists.inserts

end Persist

/-! ## Which records survive -/

/-- Under this hash stands a row that `reconcile_blocks` lists. -/
def Reconcilable (db : Db) (hash : String) : Prop := ∃ row ∈ db.pollable, row.hash = hash

theorem reconcilable_iff {db : Db} {hash : String} :
    Reconcilable db hash ↔
      ∃ row, db.blocks.find? hash = some row ∧ row.status ∈ Db.polledStatuses := by
  constructor
  · rintro ⟨row, listed, rfl⟩
    obtain ⟨member, polled⟩ := Db.mem_pollable.1 listed
    exact ⟨row, Table.find?_of_mem member, polled⟩
  · rintro ⟨row, found, polled⟩
    exact ⟨row, Db.mem_pollable.2 ⟨Table.mem_of_find? found, polled⟩, Table.key_of_find? found⟩

/-- The call records, or a row that is polled stands there already, or the call records a row that
will be polled and only its acknowledgement is lost. -/
def Call.KeepsRecord (call : Call) (hash : String)
    (answer : Except String SubmitBlockResponse) (found : Db) : Prop :=
  call.fault = .none ∨ Reconcilable found hash ∨
    (call.fault = .unacknowledged ∧ found.blocks.find? hash = none ∧
      plainlyRefuses answer = false)

/-- **A failing `record_block_candidate`** leaves a row for the reconciler exactly when it
was there before or was committed after all. -/
theorem record_kept_iff {call : Call} {block : BlockCandidateRecord} {now : Nat} {w : World}
    (legal : matchesLowerHex 40 block.miner = true)
    (known : (call.others w.db).jobs.contains block.jobId = true)
    {answer : Except String SubmitBlockResponse}
    (polled : block.initialStatus ∈ Db.polledStatuses ↔ plainlyRefuses answer = false) :
    (failed (call.perform (fun db => db.recordBlockCandidate block now) w) = true →
      Reconcilable (world (call.perform (fun db => db.recordBlockCandidate block now) w)).db
        block.hashHex) ↔
      call.KeepsRecord block.hashHex answer (call.others w.db) := by
  obtain ⟨⟨inserted, written⟩, ok⟩ := Db.recordBlockCandidate_total legal known now
  unfold Call.perform Call.KeepsRecord
  dsimp only
  rw [ok]
  cases call.fault with
  | none => simp [failed]
  | failed => simp [failed, world]
  | unacknowledged =>
      simp only [failed, world, forall_const, reduceCtorEq, true_and, false_or]
      rw [reconcilable_iff, reconcilable_iff, Db.find?_recordBlockCandidate ok]
      cases there : (call.others w.db).blocks.find? block.hashHex with
      | none => simpa [Db.candidateRow] using polled
      | some row => simp

/-- The hash a call's record goes under: the one the node named, or the header's own. -/
def NodeCall.recordHash (node : NodeCall) (share : VerifiedShare) : String :=
  match node.answer with
  | .ok response => response.hash.getD (hexEncode share.hash.toList)
  | .error _ => hexEncode share.hash.toList

theorem hashHex_record {miner : Address} {submission : BlockCandidateSubmission} {node : NodeCall}
    {observation : CandidateObservation} {share : VerifiedShare}
    (own : submission.candidate.hashHex = hexEncode share.hash.toList) :
    (blockCandidateRecord miner submission
      (reportedResponse observation submission.candidate.hashHex node.answer)).hashHex =
        node.recordHash share := by
  unfold blockCandidateRecord reportedResponse NodeCall.recordHash attachCandidateObservability
  dsimp only
  cases node.answer with
  | ok response => rw [own]
  | error err => exact own

/-! ## The branch as a whole -/

section Submit

variable {digest : Digest} {session : Session} {job : PoolJob} {submit : SubmitParams}
  {share : VerifiedShare} {difficulty : ℚ} {node : NodeCall} {w : World}

/-- A candidate of this header has been handed to `submit_candidate`. -/
def Sent (share : VerifiedShare) (w : World) : Prop :=
  ∃ submission ∈ w.candidates, submission.candidate.headerHex = hexEncode share.header.toList

/-- A persisted candidate is sent, and what follows is the call that records it. -/
theorem handleSubmit_of_persisted {mid : World}
    (verified : verifySubmitForVardiff digest job.template session.extranonce1Le submit
      session.vardiff session.now = .ok (share, difficulty))
    (candidate : share.isBlockCandidate = true)
    (persisted : persistAcceptedShare session job submit share difficulty w = .ok true mid) :
    handleSubmit digest session job submit w =
      (submitBlockCandidate session job submit share >>= fun _ => pure none) mid := by
  unfold handleSubmit
  rw [verified]
  dsimp only
  rw [bind_of_ok persisted, if_pos rfl, if_pos candidate]

/-- Without `Ok(true)` from `persist_accepted_share` the step sends nothing. -/
theorem handleSubmit_of_unpersisted
    (verified : verifySubmitForVardiff digest job.template session.extranonce1Le submit
      session.vardiff session.now = .ok (share, difficulty))
    (refused : ∀ mid, persistAcceptedShare session job submit share difficulty w ≠ .ok true mid) :
    (world (handleSubmit digest session job submit w)).candidates = w.candidates := by
  have kept := persistAcceptedShare_silent session job submit share difficulty w
  unfold handleSubmit
  rw [verified]
  dsimp only
  cases ran : persistAcceptedShare session job submit share difficulty w with
  | error e mid =>
      rw [ran] at kept
      rw [bind_of_error ran]
      exact kept
  | ok persisted mid =>
      cases persisted with
      | true => exact absurd ran (refused mid)
      | false =>
          rw [ran] at kept
          rw [bind_of_ok ran, if_neg Bool.false_ne_true, world_bind_pure]
          exact (persistShareEvent_silent session mid).trans kept

/-- Once a verified candidate gets here it is sent, whatever becomes of its record. -/
theorem submitBlockCandidate_run
    (verified : verifySubmitForVardiff digest job.template session.extranonce1Le submit
      session.vardiff session.now = .ok (share, difficulty))
    (configured : session.blockSubmitter = some node) :
    ∃ submission : BlockCandidateSubmission,
      submission.candidate.jobId = submit.jobId ∧
      submission.candidate.headerHex = hexEncode share.header.toList ∧
      submission.candidate.hashHex = hexEncode share.hash.toList ∧
      ∀ mid, submitBlockCandidate session job submit share mid =
        recordCandidate session submission node
          { mid with candidates := mid.candidates ++ [submission] } := by
  obtain ⟨request, built, jobId, headerHex, hashHex⟩ :=
    blockCandidateSubmitRequest_ok session.miner verified
  refine ⟨⟨request, job.candidateMaterial⟩, jobId, headerHex, hashHex, fun mid => ?_⟩
  unfold submitBlockCandidate
  rw [configured]
  dsimp only
  rw [built]
  rfl

theorem recordCandidate_silent (session : Session) (submission : BlockCandidateSubmission)
    (node : NodeCall) : Silent (recordCandidate session submission node) := by
  unfold recordCandidate
  split
  · exact silent_pure ()
  · exact silent_bind silent_perform fun _ => silent_pure ()

/-- Behind an accepted submission, the failing record call is the only thing that can lose
the block. -/
theorem recordCandidate_kept_iff {repository : Repository} {submission : BlockCandidateSubmission}
    (repositories : session.repository = some repository)
    (legal : matchesLowerHex 40 session.miner = true)
    (known : (repository.recordBlockCandidate.others w.db).jobs.contains
      submission.candidate.jobId = true)
    (own : submission.candidate.hashHex = hexEncode share.hash.toList) :
    (failed (recordCandidate session submission node w) = true →
      Reconcilable (world (recordCandidate session submission node w)).db
        (node.recordHash share)) ↔
      repository.recordBlockCandidate.KeepsRecord (node.recordHash share) node.answer
        (repository.recordBlockCandidate.others w.db) := by
  have hash : (blockCandidateRecord session.miner submission
      (reportedResponse session.observation submission.candidate.hashHex node.answer)).hashHex =
        node.recordHash share := hashHex_record own
  unfold recordCandidate
  rw [repositories]
  dsimp only
  rw [world_bind_pure, failed_bind_pure, ← hash]
  exact record_kept_iff legal known (record_polled_iff ..)

/-- `persist_accepted_share` answers `Ok(true)`: there is no repository, or both calls go
through and the share is new. -/
def Persistable (session : Session) (job : PoolJob) (submit : SubmitParams) (db : Db) : Prop :=
  ∀ repository, session.repository = some repository → repository.Persists session job submit db

/-- `persist_accepted_share` touches the database only. -/
theorem persisted_iff (named : job.template.jobId = submit.jobId) :
    (∃ mid, persistAcceptedShare session job submit share difficulty w = .ok true mid) ↔
      Persistable session job submit w.db := by
  cases configured : session.repository with
  | none =>
      unfold persistAcceptedShare Persistable
      rw [configured]
      constructor
      · intro _ other some
        cases some
      · intro _
        exact ⟨w, rfl⟩
  | some repository =>
      constructor
      · rintro ⟨mid, ran⟩ other same
        rw [configured] at same
        cases same
        exact ((persistAcceptedShare_iff configured named).1 ran).1
      · intro ready
        exact ⟨_, (persistAcceptedShare_iff configured named).2 ⟨ready repository configured, rfl⟩⟩

/-- What the pool owes a verified candidate. -/
structure CandidateReaches (digest : Digest) (session : Session) (job : PoolJob)
    (submit : SubmitParams) (share : VerifiedShare) (node : NodeCall) (w : World) : Prop where
  sent : Sent share (world (handleSubmit digest session job submit w))
  recorded : node.accepted = true →
    (world (handleSubmit digest session job submit w)).candidates ≠ w.candidates →
      failed (handleSubmit digest session job submit w) = true →
        Reconcilable (world (handleSubmit digest session job submit w)).db (node.recordHash share)

/-- When the code pays it. -/
structure Delivers (session : Session) (job : PoolJob) (submit : SubmitParams)
    (share : VerifiedShare) (difficulty : ℚ) (node : NodeCall) (w : World) : Prop where
  reached : Sent share w ∨ Persistable session job submit w.db
  kept : node.accepted = true → Persistable session job submit w.db →
    ∀ repository, session.repository = some repository →
      repository.recordBlockCandidate.KeepsRecord (node.recordHash share) node.answer
        (repository.atRecord job
          (shareRecordFromSubmit session.sessionId session.miner submit share difficulty) w.db)

/-- A persisted candidate: the step is its submission and the call that records it. -/
theorem candidate_reaches_of_persisted {mid : World}
    (verified : verifySubmitForVardiff digest job.template session.extranonce1Le submit
      session.vardiff session.now = .ok (share, difficulty))
    (candidate : share.isBlockCandidate = true)
    (configured : session.blockSubmitter = some node)
    (named : job.template.jobId = submit.jobId)
    (persisted : persistAcceptedShare session job submit share difficulty w = .ok true mid) :
    CandidateReaches digest session job submit share node w ↔
      (node.accepted = true → ∀ repository, session.repository = some repository →
        repository.recordBlockCandidate.KeepsRecord (node.recordHash share) node.answer
          (repository.atRecord job
            (shareRecordFromSubmit session.sessionId session.miner submit share difficulty)
            w.db)) := by
  obtain ⟨submission, jobId, headerHex, hashHex, submitted⟩ :=
    submitBlockCandidate_run verified configured
  have whole := handleSubmit_of_persisted verified candidate persisted
  have kept : mid.candidates = w.candidates := by
    have silent := persistAcceptedShare_silent session job submit share difficulty w
    rw [persisted] at silent
    exact silent
  have left : world (handleSubmit digest session job submit w) =
      world (recordCandidate session submission node
        { mid with candidates := mid.candidates ++ [submission] }) := by
    rw [whole, world_bind_pure, submitted]
  have fails : failed (handleSubmit digest session job submit w) =
      failed (recordCandidate session submission node
        { mid with candidates := mid.candidates ++ [submission] }) := by
    rw [whole, failed_bind_pure, submitted]
  have candidates : (world (handleSubmit digest session job submit w)).candidates =
      w.candidates ++ [submission] := by
    rw [left, recordCandidate_silent, kept]
  have grew : (world (handleSubmit digest session job submit w)).candidates ≠ w.candidates := by
    rw [candidates]
    simp
  have sent : Sent share (world (handleSubmit digest session job submit w)) :=
    ⟨submission, by rw [candidates]; simp, headerHex⟩
  have shape : CandidateReaches digest session job submit share node w ↔
      (node.accepted = true → failed (handleSubmit digest session job submit w) = true →
        Reconcilable (world (handleSubmit digest session job submit w)).db
          (node.recordHash share)) :=
    ⟨fun reaches accepted => reaches.recorded accepted grew,
      fun recorded => ⟨sent, fun accepted _ => recorded accepted⟩⟩
  rw [shape, left, fails]
  cases repositories : session.repository with
  | none =>
      have calm : failed (recordCandidate session submission node
          { mid with candidates := mid.candidates ++ [submission] }) = false := by
        unfold recordCandidate
        rw [repositories]
        rfl
      simp [calm]
  | some repository =>
      obtain ⟨persists, rfl⟩ := (persistAcceptedShare_iff repositories named).1 persisted
      have known : (repository.atRecord job
          (shareRecordFromSubmit session.sessionId session.miner submit share difficulty)
          w.db).jobs.contains submission.candidate.jobId = true := by
        rw [jobId, ← named, job.named]
        exact contains_atRecord repository job _ w.db
      let recording : World := ⟨repository.afterInsert job
        (shareRecordFromSubmit session.sessionId session.miner submit share difficulty) w.db,
        w.candidates ++ [submission]⟩
      have records : (failed (recordCandidate session submission node recording) = true →
          Reconcilable (world (recordCandidate session submission node recording)).db
            (node.recordHash share)) ↔ _ :=
        recordCandidate_kept_iff repositories persists.miner known hashHex
      constructor
      · intro recorded accepted other same
        cases same
        exact records.1 (recorded accepted)
      · intro keeps accepted
        exact records.2 (keeps accepted repository rfl)

/-- **Exactly which verified candidates reach the node, and which accepted ones keep a
record**: the two database writes before the submission must go through, unless the same
header was sent before; a failing record call must find or leave a polled row. -/
theorem candidate_reaches
    (verified : verifySubmitForVardiff digest job.template session.extranonce1Le submit
      session.vardiff session.now = .ok (share, difficulty))
    (meets : hashLeqTarget share.hash job.template.networkTarget = true)
    (configured : session.blockSubmitter = some node)
    (named : job.template.jobId = submit.jobId) :
    CandidateReaches digest session job submit share node w ↔
      Delivers session job submit share difficulty node w := by
  have candidate : share.isBlockCandidate = true := by
    obtain ⟨solution, -, rfl⟩ := verifySubmitForVardiff_ok verified
    exact meets
  by_cases ready : Persistable session job submit w.db
  · obtain ⟨mid, persisted⟩ := (persisted_iff named).2 ready
    rw [candidate_reaches_of_persisted verified candidate configured named persisted]
    exact ⟨fun kept => ⟨.inr ready, fun accepted _ => kept accepted⟩,
      fun delivers accepted => delivers.kept accepted ready⟩
  · have same := handleSubmit_of_unpersisted verified (w := w) fun mid ran =>
      ready ((persisted_iff named).1 ⟨mid, ran⟩)
    constructor
    · intro reaches
      refine ⟨.inl ?_, fun _ persistable => absurd persistable ready⟩
      have sent := reaches.sent
      unfold Sent at sent
      rw [same] at sent
      exact sent
    · intro delivers
      refine ⟨?_, fun _ grew => absurd same grew⟩
      unfold Sent
      rw [same]
      exact delivers.reached.resolve_right ready

end Submit

/-- The sample's submit, spelled as the columns check it, before a node that answers. -/
theorem candidate_reaches_sample :
    CandidateReaches Theory.Sha256.digest Sample.session Sample.job (Sample.submit "0a0b0c0b")
      Sample.share Sample.node Sample.world := by
  apply (candidate_reaches (Sample.verified (by decide)) Sample.meets rfl rfl).2
  refine ⟨.inr ?_, ?_⟩
  · intro repository same
    cases same
    exact ⟨rfl, by decide, rfl, by decide, by decide, rfl⟩
  · intro _ _ repository same
    cases same
    exact .inl rfl

/-- **A verified block the node never hears of**: the nonce is spelled in upper case, which
the parser reads and the constraint on `shares` refuses. -/
theorem candidate_withheld :
    ∃ (session : Session) (job : PoolJob) (submit : SubmitParams) (share : VerifiedShare)
      (difficulty : ℚ) (node : NodeCall) (w : World),
      verifySubmitForVardiff Theory.Sha256.digest job.template session.extranonce1Le submit
          session.vardiff session.now = .ok (share, difficulty) ∧
        hashLeqTarget share.hash job.template.networkTarget = true ∧
        session.blockSubmitter = some node ∧ job.template.jobId = submit.jobId ∧
        ¬ CandidateReaches Theory.Sha256.digest session job submit share node w := by
  refine ⟨Sample.session, Sample.job, Sample.submit "0A0B0C0B", Sample.share, 1, Sample.node,
    Sample.world, Sample.verified (by decide), Sample.meets, rfl, rfl, ?_⟩
  intro reaches
  have refused : ¬ Persistable Sample.session Sample.job (Sample.submit "0A0B0C0B")
      Sample.world.db := fun ready => absurd (ready _ rfl).spelled (by decide)
  have nothing := handleSubmit_of_unpersisted (w := Sample.world) (Sample.verified (by decide))
    fun mid ran => refused ((persisted_iff rfl).1 ⟨mid, ran⟩)
  obtain ⟨submission, member, -⟩ := reaches.sent
  rw [nothing] at member
  cases member

end CsdPool.Bridge
