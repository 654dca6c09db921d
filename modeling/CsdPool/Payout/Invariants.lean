/-
# Payout.Invariants — what holds in every reachable state

No condition on the run: these are the facts every claim about payouts starts
from.

* `inserts_known`, `rows_known`: batches are created as `needs_approval` or, at
  most at the threshold, as `created`, and a row without a signature carries no
  transaction.
* `held_known`: a batch a run holds exists with the recipients the run read;
  what a submitting run holds has been signed and keeps its stored transaction,
  what a reconciling run holds has been submitted.
* `recipients_legal`: every recipient's miner passes the schema's check, so a
  closing transaction cannot fail by itself; `recipients_owned`: every recipient
  belongs to a batch.
* `severed_known`: of a dead process there is at most one statement left, and
  nothing after it.
* `lock_held`: a signing run past the advisory lock holds it, as long as its process lives;
  there is one such run.
-/
import CsdPool.Payout.Steps

namespace CsdPool.Payout

open Theory (Keyed Table Machine)

set_option autoImplicit false

variable {cfg : Config} {s s' : State} {e : Event}

/-! ## Creation -/

theorem createDecision_status {batchId : String} {used : Nat} {balances : List MinerBalance}
    {draft : PayoutBatchDraft} {status : PayoutStatus}
    (decided : createDecision cfg batchId used balances = some (draft, status)) :
    status = .needsApproval ∨
      (status = .created ∧ draft.totalBaseUnits ≤ cfg.manualPayoutApprovalBaseUnits) := by
  unfold createDecision at decided
  dsimp only at decided
  split at decided
  · cases decided
  · split at decided
    · cases decided
    · split at decided
      · cases decided
      · split at decided
        · cases decided
          exact .inl rfl
        · rename_i within
          cases decided
          exact .inr ⟨rfl, by simpa [payoutBatchDraft] using within⟩

/-- Only `create_payouts` after its decision stands before its insert. -/
theorem read_createInsert {env : Env} {db : Db} {pc : Pc} {draft : PayoutBatchDraft}
    {status : PayoutStatus} (next : (pc.read cfg env db).next = some (.createInsert draft status)) :
    ∃ used balances, pc = .createSelect used ∧
      createDecision cfg env.batchId used balances = some (draft, status) := by
  obtain ⟨worker, -, -⟩ := read_holds next
  cases pc with
  | createBegin => rw [Pc.read] at next; split at next <;> cases next
  | createUsage =>
      rw [Pc.read] at next
      obtain ⟨used, impossible⟩ := createUsed_next next
      cases impossible
  | createSelect used =>
      rw [Pc.read] at next
      obtain ⟨balances, draft', status', decided, same⟩ := createSelected_next next
      cases same
      exact ⟨used, balances, rfl, decided⟩
  | createInsert _ _ => cases next
  | markFailed _ _ => cases next
  | unlock _ _ => cases next
  | _ => cases worker

theorem afterWrite_insert {pc pc' : Pc} {updated : Bool} {draft : PayoutBatchDraft}
    {status : PayoutStatus} (next : pc.afterWrite updated = some pc') :
    pc'.write ≠ some (.createLocked draft status) := by
  cases pc with
  | unlock caller _ => cases caller <;> cases next <;> simp [Pc.write, Caller.resume]
  | cancelUpdate _ =>
      simp only [Pc.afterWrite] at next
      split at next <;> cases next
      simp [Pc.write]
  | _ => cases next <;> simp [Pc.write]

/-- A run comes to an insert by a read. -/
theorem arrives_insert {pid : Nat} {pc' : Pc} {draft : PayoutBatchDraft} {status : PayoutStatus}
    (arrives : Arrives cfg s pid e pc') (inserts : pc'.write = some (.createLocked draft status)) :
    ∃ env pc, e = .run pid env ∧ s.At pid pc ∧ pc.write = none ∧
      (pc.read cfg env s.db).next = some pc' := by
  cases arrives with
  | @spawned entry _ => cases entry <;> cases inserts
  | wrote _ _ _ next => exact absurd inserts (afterWrite_insert next)
  | @read env pc _ here reads next => exact ⟨env, pc, rfl, here, reads, next⟩

/-- A batch that the creating worker is about to insert waits for approval, or is within the
threshold. -/
def InsertsKnown (cfg : Config) (s : State) : Prop :=
  ∀ pid draft status, s.At pid (.createInsert draft status) →
    status = .needsApproval ∨
      (status = .created ∧ draft.totalBaseUnits ≤ cfg.manualPayoutApprovalBaseUnits)

/-- The decision that leads to the insert is the only way there. -/
theorem inserts_known (reached : (payoutMachine cfg).Reachable s) : InsertsKnown cfg s := by
  refine reached.invariant (I := InsertsKnown cfg) ?_ ?_
  · rintro s rfl pid draft status here
    cases here
  · intro s e s' _ known _ step pid draft status there
    rcases at_step (step_stepped step) there with ⟨before, -⟩ | arrives
    · exact known pid draft status before
    · obtain ⟨env, pc, -, -, -, next⟩ := arrives_insert arrives rfl
      obtain ⟨used, balances, -, decided⟩ := read_createInsert next
      exact createDecision_status decided

/-! ## Rows -/

/-- What every stored batch has: no status of a dry run, and a stored transaction only from signing
on. -/
structure RowKnown (r : PayoutBatchRow) : Prop where
  notDryRun : r.status ≠ .dryRunOk
  unsigned : r.status = .needsApproval ∨ r.status = .created → r.rawTxHash = none

theorem RowChange.known {r r' : PayoutBatchRow} (change : RowChange s e r r')
    (known : RowKnown r) : RowKnown r' := by
  cases change with
  | same => exact known
  | approved _ source => exact ⟨by simp, fun _ => known.unsigned (.inl source)⟩
  | signed _ _ _ _ => exact ⟨by simp, by simp⟩
  | submitted _ _ _ _ => exact ⟨by simp, by simp⟩
  | confirmed _ _ _ _ => exact ⟨by simp, by simp⟩
  | failed _ _ _ _ => exact ⟨by simp, by simp⟩
  | cancelled _ _ _ _ => exact ⟨by simp, by simp⟩

/-- The status a batch is inserted with. -/
theorem Inserted.status {r : PayoutBatchRow} (inserted : Inserted s e r)
    (reached : (payoutMachine cfg).Reachable s) :
    r.status = .needsApproval ∨ r.status = .created := by
  obtain ⟨⟨pid, env, pc, draft, -, here, writes, -⟩, -⟩ := inserted
  cases pc with
  | createInsert draft' status =>
      simp only [Pc.write, Option.some.injEq, Write.createLocked.injEq] at writes
      rcases inserts_known reached pid draft' status here with waiting | ⟨created, -⟩
      · exact .inl (writes.2 ▸ waiting)
      · exact .inr (writes.2 ▸ created)
  | retryInsert draft' =>
      simp only [Pc.write, Option.some.injEq, Write.createLocked.injEq] at writes
      exact .inr writes.2.symm
  | _ => cases writes

def RowsKnown (s : State) : Prop :=
  ∀ id r, s.db.payoutBatches.find? id = some r → RowKnown r

/-- Batches come in unsigned, and each change keeps what is known of them. -/
theorem rows_known (reached : (payoutMachine cfg).Reachable s) : RowsKnown s := by
  refine reached.invariant (I := RowsKnown) ?_ ?_
  · rintro s rfl id r found
    cases found
  · intro s e s' before known _ step id r' found
    rcases row_before (step_stepped step) found with ⟨r, old, change⟩ | inserted
    · exact change.known (known id r old)
    · have status := inserted.status before
      obtain ⟨⟨pid, env, pc, draft, -, -, -, shape⟩, -⟩ := inserted
      refine ⟨?_, fun _ => by rw [shape]⟩
      rcases status with h | h
      · rw [h]; simp
      · rw [h]; simp

/-! ## Held batches -/

/-- The batch has been signed at some time. -/
def pastSigned : PayoutStatus → Bool
  | .signed | .submitted | .confirmed | .failed | .cancelled => true
  | _ => false

/-- The batch has been submitted at some time. -/
def pastSubmitted : PayoutStatus → Bool
  | .submitted | .confirmed | .failed => true
  | _ => false

/-- A batch that was signed stays so, and keeps its transaction. -/
theorem RowChange.pastSigned {r r' : PayoutBatchRow} (change : RowChange s e r r')
    (past : pastSigned r.status = true) :
    Payout.pastSigned r'.status = true ∧ r'.rawTxHash = r.rawTxHash := by
  cases change with
  | same => exact ⟨past, rfl⟩
  | approved _ source => rw [source] at past; cases past
  | signed _ _ _ source => rw [source] at past; cases past
  | submitted _ _ _ _ => exact ⟨rfl, rfl⟩
  | confirmed _ _ _ _ => exact ⟨rfl, rfl⟩
  | failed _ _ _ _ => exact ⟨rfl, rfl⟩
  | cancelled _ _ _ _ => exact ⟨rfl, rfl⟩

/-- No batch goes back from being submitted. -/
theorem RowChange.pastSubmitted {r r' : PayoutBatchRow} (change : RowChange s e r r')
    (past : pastSubmitted r.status = true) : Payout.pastSubmitted r'.status = true := by
  cases change with
  | same => exact past
  | approved _ source => rw [source] at past; cases past
  | signed _ _ _ source => rw [source] at past; cases past
  | submitted _ _ _ _ => rfl
  | confirmed _ _ _ _ => rfl
  | failed _ _ _ _ => rfl
  | cancelled _ _ _ source =>
      simp only [Db.cancellable, List.mem_cons, List.not_mem_nil, or_false] at source
      rcases source with h | h | h <;> rw [h] at past <;> cases past

/-- What the database still says of a batch that a worker's run holds. -/
structure HeldBy (worker : Worker) (batch : PayoutBatchRecord) (db : Db) (r : PayoutBatchRow) :
    Prop where
  found : db.payoutBatches.find? batch.batchId = some r
  recipients : batch.recipients =
    (db.recipientsOf batch.batchId).map fun r => ⟨r.miner, r.address, r.amountBaseUnits⟩
  submit : worker = .submit → pastSigned r.status = true ∧ r.rawTxHash = batch.rawTxHash
  reconcile : worker = .reconcile → pastSubmitted r.status = true

/-- A batch that a worker holds is in the database, with the recipients the worker read. -/
def HeldKnown (s : State) : Prop :=
  ∀ pid pc, s.At pid pc → ∀ b ∈ pc.holds, ∃ r, HeldBy pc.worker b s.db r

/-- What was listed is held as it stands in the database. -/
theorem Listed.heldBy {db : Db} {worker : Worker} {batch : PayoutBatchRecord}
    (listed : Listed db worker.lists batch) : ∃ r, HeldBy worker batch db r := by
  obtain ⟨row, found, status, shape⟩ := listed
  have id : row.id = batch.batchId := Table.key_of_find? found
  refine ⟨row, found, ?_, ?_, ?_⟩
  · rw [shape]
    simp [Db.hydratePayoutBatchRecord]
  · rintro rfl
    rw [List.mem_singleton.1 status, shape]
    exact ⟨rfl, rfl⟩
  · rintro rfl
    rw [List.mem_singleton.1 status]
    rfl

theorem HeldBy.step {worker : Worker} {batch : PayoutBatchRecord} {r : PayoutBatchRow}
    (held : HeldBy worker batch s.db r) (stepped : Stepped cfg s e s') :
    ∃ r', HeldBy worker batch s'.db r' := by
  obtain ⟨r', found, change⟩ := row_step stepped held.found
  refine ⟨r', found, ?_, ?_, ?_⟩
  · rw [recipients_step stepped held.found]
    exact held.recipients
  · intro submit
    obtain ⟨past, raw⟩ := held.submit submit
    obtain ⟨past', raw'⟩ := change.pastSigned past
    exact ⟨past', raw'.trans raw⟩
  · intro reconcile
    exact change.pastSubmitted (held.reconcile reconcile)

/-- A worker's record may fall behind in its status, not in its recipients, and a submitting
worker's not in its transaction. -/
theorem held_known (reached : (payoutMachine cfg).Reachable s) : HeldKnown s := by
  refine reached.invariant (I := HeldKnown) ?_ ?_
  · rintro s rfl pid pc here
    cases here
  · intro s e s' _ known _ step pid pc' there b holds
    have stepped := step_stepped step
    rcases held_step stepped there holds with ⟨pc, here, worker, before⟩ | ⟨db, listed⟩
    · obtain ⟨r, held⟩ := known pid pc here b before
      rw [← worker]
      exact held.step stepped
    · rw [db]
      exact listed.heldBy

/-! ## Recipients -/

/-- **Where recipient rows come from**: one draft, in front of its insert. -/
theorem recipients_added (stepped : Stepped cfg s e s') :
    s'.db.payoutRecipients = s.db.payoutRecipients ∨
      ∃ pid env pc draft status books, e = .run pid env ∧ s.At pid pc ∧
        pc.write = some (.createLocked draft status) ∧
        draft.recipients.foldlM (Db.insertRecipient draft.batchId)
          (s.db.books, s.db.payoutRecipients) = .ok (books, s'.db.payoutRecipients) ∧
        s'.db.payoutBatches.find? draft.batchId ≠ none := by
  cases stepped with
  | @wrote pid env pc w updated db here writes committed =>
      rw [State.resume_db]
      rcases exec_cases committed with ⟨draft, status, rfl, ok⟩ |
        ⟨batchId, statuses, set, keeps, ok⟩ | ⟨entries, books, -, -, rfl⟩
      · rcases Db.createLocked_ok ok with ⟨-, rfl⟩ | ⟨-, fresh, books, recipients, folded, rfl⟩
        · exact .inl rfl
        · refine .inr ⟨pid, env, pc, draft, status, books, rfl, here, writes, folded, ?_⟩
          show (s.db.payoutBatches.insert _).1.find? draft.batchId ≠ none
          rw [Table.find?_insert, if_pos ⟨rfl, fresh⟩]
          exact Option.some_ne_none _
      · cases ok
        exact .inl rfl
      · exact .inl rfl
  | _ => exact .inl rfl

/-- Every recipient row names its miner by forty lower-case hex digits. -/
def RecipientsLegal (s : State) : Prop :=
  ∀ row ∈ s.db.payoutRecipients.rows, matchesLowerHex 40 row.miner = true

theorem recipients_legal (reached : (payoutMachine cfg).Reachable s) : RecipientsLegal s := by
  refine reached.invariant (I := RecipientsLegal) ?_ ?_
  · rintro s rfl row member
    cases member
  · intro s e s' _ legal _ step row member
    rcases recipients_added (step_stepped step) with same |
      ⟨pid, env, pc, draft, status, books, -, -, -, folded, -⟩
    · exact legal row (same ▸ member)
    · rw [Db.insertRecipients_rows folded, List.mem_append] at member
      rcases member with old | new
      · exact legal row old
      · obtain ⟨recipient, inDraft, rfl⟩ := List.mem_map.1 new
        exact Db.insertRecipients_legal folded recipient inDraft

/-- Every recipient belongs to a batch. -/
def RecipientsOwned (s : State) : Prop :=
  ∀ row ∈ s.db.payoutRecipients.rows, s.db.payoutBatches.find? row.batchId ≠ none

/-- A recipient comes in with its batch, and no batch is ever deleted. -/
theorem recipients_owned (reached : (payoutMachine cfg).Reachable s) : RecipientsOwned s := by
  refine reached.invariant (I := RecipientsOwned) ?_ ?_
  · rintro s rfl row member
    cases member
  · intro s e s' _ owned _ step row member
    have stepped := step_stepped step
    have kept : row ∈ s.db.payoutRecipients.rows →
        s'.db.payoutBatches.find? row.batchId ≠ none := by
      intro old
      obtain ⟨r, found⟩ := Option.ne_none_iff_exists'.1 (owned row old)
      obtain ⟨r', found', -⟩ := row_step stepped found
      rw [found']
      exact Option.some_ne_none _
    rcases recipients_added stepped with same |
      ⟨pid, env, pc, draft, status, books, -, -, -, folded, there⟩
    · exact kept (same ▸ member)
    · rw [Db.insertRecipients_rows folded, List.mem_append] at member
      rcases member with old | new
      · exact kept old
      · obtain ⟨recipient, inDraft, rfl⟩ := List.mem_map.1 new
        exact there

/-- The closing entries of a held batch name legal miners. -/
theorem closing_legal {worker : Worker} {batch : PayoutBatchRecord} {r : PayoutBatchRow}
    (legal : RecipientsLegal s) (held : HeldBy worker batch s.db r) :
    (∀ entry ∈ Db.unlockEntries batch, Books.LegalMiner entry) ∧
      ∀ entry ∈ Db.paidEntries batch, Books.LegalMiner entry := by
  have miners : ∀ recipient ∈ batch.recipients, matchesLowerHex 40 recipient.miner = true := by
    intro recipient member
    rw [held.recipients] at member
    obtain ⟨row, inRows, rfl⟩ := List.mem_map.1 member
    exact legal row (Db.mem_recipientsOf.1 inRows).1
  constructor
  · intro entry member miner named
    obtain ⟨recipient, inBatch, rfl⟩ := List.mem_map.1 member
    cases named
    exact miners recipient inBatch
  · intro entry member miner named
    obtain ⟨recipient, inBatch, rfl⟩ := List.mem_map.1 member
    cases named
    exact miners recipient inBatch

/-! ## Severed runs -/

/-- A severed run stands before its statement. -/
def SeveredKnown (s : State) : Prop :=
  ∀ pid ∈ s.severed, ∃ pc w, s.At pid pc ∧ pc.write = some w

/-- Whatever a severed run does, it is over. -/
theorem severed_ends {pid : Nat} {env : Env} {pc : Pc} {w : Write}
    (stepped : Stepped cfg s (.run pid env) s') (here : s.At pid pc) (writes : pc.write = some w)
    (gone : pid ∈ s.severed) : pid ∉ s'.severed := by
  have finished (t : State) : pid ∉ (t.finish pid).severed := fun member =>
    absurd (List.mem_filter.1 member).2 (by simp)
  rcases write_step stepped here writes with ⟨updated, db, -, rfl⟩ | ⟨-, rfl⟩
  · rw [State.onward, if_pos gone]
    exact finished _
  · exact finished _

theorem severed_known (reached : (payoutMachine cfg).Reachable s) : SeveredKnown s := by
  refine reached.invariant (I := SeveredKnown) ?_ ?_
  · rintro s rfl pid member
    cases member
  · intro s e s' _ known _ step pid gone'
    have stepped := step_stepped step
    by_cases gone : pid ∈ s.severed
    · obtain ⟨pc, w, here, writes⟩ := known pid gone
      refine ⟨pc, w, stays stepped here ?_ ?_, writes⟩
      · rintro env rfl
        exact severed_ends stepped here writes gone gone'
      · rintro rfl
        cases stepped with
        | crashed _ => exact absurd (List.mem_filter.1 gone').2 (by simp)
    · cases stepped with
      | severed here writes =>
          rcases List.mem_cons.1 gone' with rfl | old
          · exact ⟨_, _, here, writes⟩
          · exact absurd old gone
      | @wrote pid' env pc' w updated db here writes committed =>
          cases next : s.onward pid' (pc'.afterWrite updated) with
          | some pc'' =>
              rw [next] at gone'
              exact absurd gone' gone
          | none =>
              rw [next] at gone'
              exact absurd (List.mem_filter.1 gone').1 gone
      | failed _ _ _ => exact absurd (List.mem_filter.1 gone').1 gone
      | finished _ _ _ => exact absurd (List.mem_filter.1 gone').1 gone
      | crashed _ => exact absurd (List.mem_filter.1 gone').1 gone
      | _ => exact absurd gone' gone

/-- A run that reads is alive. -/
theorem alive_of_reads (reached : (payoutMachine cfg).Reachable s) {pid : Nat} {pc : Pc}
    (here : s.At pid pc) (reads : pc.write = none) : pid ∉ s.severed := by
  intro gone
  obtain ⟨pc', w, there, writes⟩ := severed_known reached pid gone
  rw [State.at_unique there here, reads] at writes
  cases writes

/-! ## The advisory lock -/

/-- Between taking the lock and the commit that releases it. -/
def Pc.inSigning : Pc → Bool
  | .signInflight | .signList | .signCall _ | .signMark _ _ _ | .signCommit => true
  | .markFailed .sign _ | .unlock .sign _ => true
  | _ => false

/-- A live run between the lock and its commit is the one that has the lock. -/
def LockHeld (s : State) : Prop :=
  ∀ pid pc, s.At pid pc → pc.inSigning = true → pid ∉ s.severed → s.signingLock = some pid

theorem afterWrite_inSigning {pc pc' : Pc} {updated : Bool}
    (next : pc.afterWrite updated = some pc') (inside : pc'.inSigning = true) :
    pc.inSigning = true := by
  cases pc with
  | signMark _ _ _ => rfl
  | markFailed caller _ => cases caller <;> cases next <;> first | rfl | cases inside
  | unlock caller _ => cases caller <;> cases next <;> first | rfl | cases inside
  | cancelUpdate _ =>
      simp only [Pc.afterWrite] at next
      split at next
      · cases next; cases inside
      · cases next
  | _ => cases next <;> cases inside

theorem read_inSigning {env : Env} {db : Db} {pc pc' : Pc}
    (next : (pc.read cfg env db).next = some pc') (inside : pc'.inSigning = true) :
    pc.inSigning = true ∨ (pc = .signLock ∧ pc.read cfg env db = .lock pc') := by
  obtain ⟨worker, -, -⟩ := read_holds next
  have sign : pc.worker = .sign := by
    rw [← worker]
    cases pc' with
    | markFailed caller _ => cases caller <;> first | rfl | cases inside
    | unlock caller _ => cases caller <;> first | rfl | cases inside
    | _ => first | rfl | cases inside
  cases pc with
  | signBegin =>
      rw [Pc.read] at next
      split at next <;> cases next
      cases inside
  | signLock =>
      rw [Pc.read] at next
      cases next
      exact .inr ⟨rfl, rfl⟩
  | signInflight => exact .inl rfl
  | signList => exact .inl rfl
  | signCall _ => exact .inl rfl
  | signMark _ _ _ => exact .inl rfl
  | signCommit => exact .inl rfl
  | markFailed caller _ => cases next
  | unlock caller _ => cases next
  | _ => cases sign

theorem release_other {pid pid' : Nat} (other : pid ≠ pid')
    (locked : s.signingLock = some pid) : s.release pid' = some pid := by
  rw [State.release, locked, if_neg (by simpa using other)]

theorem finish_signingLock {pid pid' : Nat} (other : pid ≠ pid')
    (locked : s.signingLock = some pid) : (s.finish pid').signingLock = some pid :=
  release_other other locked

theorem resume_signingLock {pid pid' : Nat} {pc' : Pc} {next : Option Pc}
    (there : (s.resume pid' next).At pid pc') (locked : s.signingLock = some pid) :
    (s.resume pid' next).signingLock = some pid := by
  cases next with
  | some pc => exact locked
  | none => exact finish_signingLock (State.at_finish.1 there).1 locked

/-- A run keeps the lock as long as it lives. -/
theorem lock_kept {pid : Nat} {pc' : Pc} (stepped : Stepped cfg s e s') (there : s'.At pid pc')
    (alive : pid ∉ s'.severed) (locked : s.signingLock = some pid) :
    s'.signingLock = some pid := by
  cases stepped with
  | wrote _ _ _ => exact resume_signingLock there locked
  | failed _ _ _ => exact finish_signingLock (State.at_finish.1 there).1 locked
  | finished _ _ _ => exact finish_signingLock (State.at_finish.1 there).1 locked
  | crashed _ => exact finish_signingLock (State.at_finish.1 there).1 locked
  | severed _ _ =>
      refine release_other ?_ locked
      rintro rfl
      exact alive List.mem_cons_self
  | locked _ _ _ free => rw [free] at locked; cases locked
  | spawned _ => exact locked
  | moved _ _ _ => exact locked
  | sent _ _ _ => exact locked
  | accepted _ => exact locked
  | dropped _ => exact locked
  | approved => exact locked
  | switched => exact locked
  | rewarded _ _ => exact locked

/-- A run that gets past the lock has it. -/
theorem lock_taken {pid : Nat} {env : Env} {pc pc' : Pc}
    (stepped : Stepped cfg s (.run pid env) s') (here : s.At pid pc) (reads : pc.write = none)
    (locks : pc.read cfg env s.db = .lock pc') : s'.signingLock = some pid := by
  cases stepped with
  | locked _ _ _ _ => rfl
  | wrote there writes _ => rw [State.at_unique there here, reads] at writes; cases writes
  | failed there writes _ => rw [State.at_unique there here, reads] at writes; cases writes
  | moved there _ decided => rw [State.at_unique there here, locks] at decided; cases decided
  | sent there _ decided => rw [State.at_unique there here, locks] at decided; cases decided
  | finished there _ decided => rw [State.at_unique there here, locks] at decided; cases decided

/-- **One signing run at a time.** -/
theorem lock_held (reached : (payoutMachine cfg).Reachable s) : LockHeld s := by
  refine reached.invariant (I := LockHeld) ?_ ?_
  · rintro s rfl pid pc here
    cases here
  · intro s e s' _ held _ step pid pc' there inside alive
    have stepped := step_stepped step
    have before_alive : pid ∉ s.severed := fun gone => alive (severed_kept stepped there gone)
    rcases at_step stepped there with ⟨before, -⟩ | arrives
    · exact lock_kept stepped there alive (held pid pc' before inside before_alive)
    · cases arrives with
      | @spawned entry _ => cases entry <;> cases inside
      | wrote here _ _ next =>
          exact lock_kept stepped there alive
            (held pid _ here (afterWrite_inSigning next inside) before_alive)
      | read here reads next =>
          rcases read_inSigning next inside with earlier | ⟨-, locks⟩
          · exact lock_kept stepped there alive (held pid _ here earlier before_alive)
          · exact lock_taken stepped here reads locks

/-- Of the live runs one at most is between the lock and its commit. -/
theorem signing_unique (reached : (payoutMachine cfg).Reachable s) {pid pid' : Nat} {pc pc' : Pc}
    (here : s.At pid pc) (there : s.At pid' pc') (inside : pc.inSigning = true)
    (inside' : pc'.inSigning = true) (alive : pid ∉ s.severed) (alive' : pid' ∉ s.severed) :
    pid = pid' := by
  have mine := lock_held reached pid pc here inside alive
  rw [lock_held reached pid' pc' there inside' alive'] at mine
  exact (Option.some.inj mine).symm

end CsdPool.Payout
