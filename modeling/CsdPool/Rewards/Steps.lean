/-
# Rewards.Steps — what one step can do

The inversion lemmas every invariant of the reward machine is derived from.

* `step_stepped`: the shapes of a step.
* `at_step`: how a run gets to a program counter, and that nobody else moves it.
* `books_step`: the ledger changes by an append of `State.appending`, by a locked
  batch, or not at all.
* `blocks_step`: a block row is inserted by `record_block_candidate`, overwritten
  by `State.updating`, or stays.
-/
import CsdPool.Rewards.Machine

namespace CsdPool.Rewards

open Theory (Keyed Table Machine)

set_option autoImplicit false

variable {s s' : State} {e : Event}

/-! ## Processes -/

namespace State

@[simp] theorem resume_db (s : State) (pid : Nat) (next : Option Pc) :
    (s.resume pid next).db = s.db := by
  cases next <;> rfl

/-- A process that resumes is at its next program counter, or gone; no other process has moved. -/
theorem at_resume {pid pid' : Nat} {next : Option Pc} {pc' : Pc} :
    (s.resume pid next).At pid' pc' ↔
      (pid' = pid ∧ next = some pc') ∨ (pid' ≠ pid ∧ s.At pid' pc') := by
  cases next with
  | some pc =>
      unfold At resume
      simp only [Table.find?_put]
      by_cases same : pid' = pid
      · subst same
        simp [Keyed.key]
      · simp [Keyed.key, same, Ne.symm same]
  | none =>
      unfold At resume
      simp only [Table.find?_erase]
      by_cases same : pid' = pid
      · simp [same]
      · simp [same]

/-- A process is in one place. -/
theorem at_unique {pid : Nat} {pc pc' : Pc} (here : s.At pid pc) (there : s.At pid pc') :
    pc = pc' := by
  have same := here.symm.trans there
  simpa using same

theorem at_of_find? {pid : Nat} {proc : Proc} (found : s.procs.find? pid = some proc) :
    s.At pid proc.pc := by
  have same : proc.pid = pid := Table.key_of_find? found
  unfold At
  rw [found, ← same]

theorem running_of_at {pid : Nat} {env : Env} {pc : Pc} (here : s.At pid pc) :
    s.running (.run pid env) = some pc := by
  unfold At at here
  simp [running, here]

theorem writing_of_at {pid : Nat} {env : Env} {pc : Pc} (here : s.At pid pc) :
    s.writing (.run pid env) = pc.write := by
  unfold At at here
  simp [writing, here]

theorem appending_of_at {pid : Nat} {env : Env} {pc : Pc} {entries : List LedgerEntry}
    (here : s.At pid pc) (writes : pc.write = some (.append entries)) :
    s.appending (.run pid env) = entries := by
  simp [appending, writing_of_at here, writes]

/-- What a step appends stands in the write that its process has come to. -/
theorem mem_appending_run {pid : Nat} {env : Env} {entry : LedgerEntry}
    (member : entry ∈ s.appending (.run pid env)) :
    ∃ pc entries, s.At pid pc ∧ pc.write = some (.append entries) ∧ entry ∈ entries := by
  cases found : s.procs.find? pid with
  | none => simp [appending, writing, found] at member
  | some proc =>
      have here := at_of_find? found
      cases writes : proc.pc.write with
      | none => simp [appending, writing_of_at here, writes] at member
      | some w =>
          cases w with
          | append entries =>
              rw [appending_of_at here writes] at member
              exact ⟨_, entries, here, writes, member⟩
          | update change => simp [appending, writing_of_at here, writes] at member

theorem updating_of_at {pid : Nat} {env : Env} {pc : Pc} {change : BlockStatusUpdate}
    (here : s.At pid pc) (writes : pc.write = some (.update change)) :
    s.updating (.run pid env) = some change := by
  simp [updating, writing_of_at here, writes]

end State

/-! ## The shapes of a step -/

/-- What a step can be, with the guards it went through and the state it leaves. The later proofs go
by these cases, and none of them unfolds the step. -/
inductive Stepped (s : State) : Event → State → Prop
  | spawned {pid : Nat} {entry : Entry} (fresh : s.procs.find? pid = none) :
      Stepped s (.spawn pid entry) (s.resume pid (some entry.pc))
  | appended {pid : Nat} {env : Env} {pc : Pc} {entries : List LedgerEntry} {books : Books}
      (here : s.At pid pc) (writes : pc.write = some (.append entries))
      (committed : s.db.books.appendLedgerEntries entries = .ok books) :
      Stepped s (.run pid env) ({ s with db := { s.db with books } }.resume pid pc.afterWrite)
  | updated {pid : Nat} {env : Env} {pc : Pc} {change : BlockStatusUpdate} {hit : Bool} {db : Db}
      (here : s.At pid pc) (writes : pc.write = some (.update change))
      (committed : s.db.updateBlockStatus change env.now = .ok (hit, db)) :
      Stepped s (.run pid env) ({ s with db }.resume pid pc.afterWrite)
  | failed {pid : Nat} {env : Env} {pc : Pc} {w : Write} (here : s.At pid pc)
      (writes : pc.write = some w) : Stepped s (.run pid env) (s.resume pid none)
  | moved {pid : Nat} {env : Env} {pc : Pc} (here : s.At pid pc) (reads : pc.write = none) :
      Stepped s (.run pid env) (s.resume pid (pc.read env s.db))
  | crashed {pid : Nat} {pc : Pc} (here : s.At pid pc) :
      Stepped s (.crash pid) (s.resume pid none)
  | job {job : JobRecord} {db : Db} (committed : s.db.upsertJob job = .ok db) :
      Stepped s (.upsertJob job) { s with db }
  | share {share : ShareRecord} {inserted : Bool} {db : Db}
      (committed : s.db.insertShare share = .ok (inserted, db)) :
      Stepped s (.insertShare share) { s with db }
  | candidate {block : BlockCandidateRecord} {now : Nat} {inserted : Bool} {db : Db}
      (committed : s.db.recordBlockCandidate block now = .ok (inserted, db)) :
      Stepped s (.recordBlockCandidate block now) { s with db }
  | locked {draft : PayoutBatchDraft} {status : PayoutStatus} {now : Nat} {created : Bool} {db : Db}
      (committed : s.db.createLockedPayoutBatchWithStatus draft status now = .ok (created, db)) :
      Stepped s (.createLockedPayoutBatch draft status now) { s with db }
  | paid {batchId : String} {batch : PayoutBatchRecord} {books : Books}
      (held : s.batchRecord batchId = some batch)
      (committed : s.db.books.appendLedgerEntries (Db.paidEntries batch) = .ok books) :
      Stepped s (.markPayoutPaid batchId) { s with db := { s.db with books } }
  | unlocked {batchId : String} {batch : PayoutBatchRecord} {books : Books}
      (held : s.batchRecord batchId = some batch)
      (committed : s.db.books.appendLedgerEntries (Db.unlockEntries batch) = .ok books) :
      Stepped s (.unlockFailedPayout batchId) { s with db := { s.db with books } }

/-- A live process writes, fails at its write, or reads and moves on. -/
theorem runProc_stepped {pid : Nat} {env : Env} {pc : Pc} (here : s.At pid pc) :
    Stepped s (.run pid env) (State.runProc env s pid pc) := by
  unfold State.runProc
  split
  · rename_i w writes
    split
    · rename_i db committed
      cases w with
      | append entries =>
          obtain ⟨books, appended, rfl⟩ := Db.appendLedgerEntries_ok committed
          exact .appended here writes appended
      | update change =>
          simp only [Write.exec] at committed
          cases changed : s.db.updateBlockStatus change env.now with
          | error err => rw [changed] at committed; cases committed
          | ok result =>
              rw [changed] at committed
              cases committed
              exact .updated here writes changed
    · exact .failed here writes
  · rename_i reads
    exact .moved here reads

/-- A statement of another program is a step only where the database takes it. -/
theorem commit_some {α : Type} {db : α → Db} {result : Except RepositoryError α}
    (committed : s.commit db result = some s') : ∃ a, result = .ok a ∧ s' = { s with db := db a } := by
  cases result with
  | error err => cases committed
  | ok a => cases committed; exact ⟨a, rfl, rfl⟩

/-- **Every step of the machine is one of the cases.** -/
theorem step_stepped (stepped : rewardMachine.step s e = some s') : Stepped s e s' := by
  change State.step s e = some s' at stepped
  cases e with
  | spawn pid entry =>
      simp only [State.step, Table.contains_eq_isSome] at stepped
      split at stepped
      · cases stepped
      · rename_i fresh
        cases stepped
        exact .spawned (by simpa using fresh)
  | run pid env =>
      simp only [State.step] at stepped
      obtain ⟨proc, found, rfl⟩ := Option.map_eq_some_iff.1 stepped
      exact runProc_stepped (State.at_of_find? found)
  | crash pid =>
      simp only [State.step, Table.contains_eq_isSome] at stepped
      split at stepped
      · rename_i present
        obtain ⟨proc, found⟩ := Option.isSome_iff_exists.1 present
        cases stepped
        exact .crashed (State.at_of_find? found)
      · cases stepped
  | upsertJob job =>
      obtain ⟨db, committed, rfl⟩ := commit_some stepped
      exact .job committed
  | insertShare share =>
      obtain ⟨result, committed, rfl⟩ := commit_some stepped
      exact .share committed
  | recordBlockCandidate block now =>
      obtain ⟨result, committed, rfl⟩ := commit_some stepped
      exact .candidate committed
  | createLockedPayoutBatch draft status now =>
      obtain ⟨result, committed, rfl⟩ := commit_some stepped
      exact .locked committed
  | markPayoutPaid batchId =>
      obtain ⟨batch, held, closed⟩ := Option.bind_eq_some_iff.1 stepped
      obtain ⟨result, committed, rfl⟩ := commit_some closed
      unfold Db.markPayoutPaid at committed
      cases appended : s.db.appendLedgerEntries (Db.paidEntries batch) with
      | error err => rw [appended] at committed; cases committed
      | ok db =>
          rw [appended] at committed
          cases committed
          obtain ⟨books, went, rfl⟩ := Db.appendLedgerEntries_ok appended
          exact .paid held went
  | unlockFailedPayout batchId =>
      obtain ⟨batch, held, closed⟩ := Option.bind_eq_some_iff.1 stepped
      obtain ⟨result, committed, rfl⟩ := commit_some closed
      unfold Db.unlockFailedPayout at committed
      cases appended : s.db.appendLedgerEntries (Db.unlockEntries batch) with
      | error err => rw [appended] at committed; cases committed
      | ok db =>
          rw [appended] at committed
          cases committed
          obtain ⟨books, went, rfl⟩ := Db.appendLedgerEntries_ok appended
          exact .unlocked held went

/-! ## Program counters -/

/-- What brings a run to a program counter. -/
inductive Arrives (s : State) : Event → Nat → Pc → Prop
  | spawned {pid : Nat} (entry : Entry) : Arrives s (.spawn pid entry) pid entry.pc
  | wrote {pid : Nat} {env : Env} {pc pc' : Pc} {w : Write} (here : s.At pid pc)
      (writes : pc.write = some w) (next : pc.afterWrite = some pc') : Arrives s (.run pid env) pid pc'
  | read {pid : Nat} {env : Env} {pc pc' : Pc} (here : s.At pid pc) (reads : pc.write = none)
      (next : pc.read env s.db = some pc') : Arrives s (.run pid env) pid pc'

/-- Who stands at a program counter after a step stood there before it, or has just arrived. -/
theorem at_step (stepped : Stepped s e s') {pid : Nat} {pc' : Pc} (there : s'.At pid pc') :
    s.At pid pc' ∨ Arrives s e pid pc' := by
  cases stepped with
  | spawned fresh =>
      rcases State.at_resume.1 there with ⟨rfl, next⟩ | ⟨-, stayed⟩
      · cases next; exact .inr (.spawned _)
      · exact .inl stayed
  | appended here writes _ | updated here writes _ =>
      rcases State.at_resume.1 there with ⟨rfl, next⟩ | ⟨-, stayed⟩
      · exact .inr (.wrote here writes next)
      · exact .inl stayed
  | failed here writes =>
      rcases State.at_resume.1 there with ⟨-, next⟩ | ⟨-, stayed⟩
      · cases next
      · exact .inl stayed
  | moved here reads =>
      rcases State.at_resume.1 there with ⟨rfl, next⟩ | ⟨-, stayed⟩
      · exact .inr (.read here reads next)
      · exact .inl stayed
  | crashed here =>
      rcases State.at_resume.1 there with ⟨-, next⟩ | ⟨-, stayed⟩
      · cases next
      · exact .inl stayed
  | job _ | share _ | candidate _ | locked _ | paid _ _ | unlocked _ _ => exact .inl there

/-! ## The ledger -/

/-- How the books get from one state to the next. -/
inductive BooksStep (s : State) (e : Event) (s' : State) : Prop
  | same (kept : s'.db.books = s.db.books)
  | appended (committed : s.db.books.appendLedgerEntries (s.appending e) = .ok s'.db.books)
  | locked {draft : PayoutBatchDraft} {status : PayoutStatus} {now : Nat}
      (event : e = .createLockedPayoutBatch draft status now)
      (fresh : s.db.payoutBatches.find? draft.batchId = none)
      (recorded : s'.db.payoutBatches.find? draft.batchId ≠ none)
      (inserted : draft.recipients.foldlM (Db.insertRecipient draft.batchId)
        (s.db.books, s.db.payoutRecipients) = .ok (s'.db.books, s'.db.payoutRecipients))

/-- **The ledger changes in two ways only**: by what a process appends, and by the locks of a new
batch. -/
theorem books_step (stepped : Stepped s e s') : BooksStep s e s' := by
  cases stepped with
  | spawned _ | failed _ _ | moved _ _ | crashed _ => exact .same (by rw [State.resume_db])
  | appended here writes committed =>
      refine .appended ?_
      rw [State.appending_of_at here writes, committed, State.resume_db]
  | updated here writes committed =>
      obtain ⟨-, rfl⟩ := Db.updateBlockStatus_ok committed
      exact .same (by rw [State.resume_db])
  | job committed => exact .same (by rw [Db.upsertJob_ok committed])
  | share committed => exact .same (by rw [(Db.insertShare_ok committed).1])
  | candidate committed => exact .same (by rw [(Db.recordBlockCandidate_ok committed).1])
  | locked committed =>
      rcases Db.createLocked_ok committed with ⟨-, rfl⟩ | ⟨-, fresh, books, recipients, folded, rfl⟩
      · exact .same rfl
      · refine .locked rfl fresh ?_ folded
        simp [Table.find?_insert, fresh, Keyed.key]
  | paid held committed => exact .appended (by simpa [State.appending, held] using committed)
  | unlocked held committed => exact .appended (by simpa [State.appending, held] using committed)

/-- Nothing is ever deleted from the ledger. -/
theorem ledger_kept (stepped : Stepped s e s') {entry : LedgerEntry}
    (member : entry ∈ s.db.books.ledgerEntries.rows) :
    entry ∈ s'.db.books.ledgerEntries.rows := by
  cases books_step stepped with
  | same kept => rw [kept]; exact member
  | appended committed => exact (Books.appendLedgerEntries_grows committed).kept entry member
  | locked _ _ _ inserted => exact (Db.insertRecipients_grows inserted).kept entry member

/-! ## Block rows -/

/-- How the block rows get from one state to the next. -/
inductive BlocksStep (s : State) (e : Event) (s' : State) : Prop
  | same (kept : s'.db.blocks = s.db.blocks)
  | updated {change : BlockStatusUpdate} {now : Nat} (updates : s.updating e = some change)
      (rows : ∀ hash, s'.db.blocks.find? hash = (s.db.blocks.find? hash).map fun row =>
        if hash = change.hashHex then Db.setStatus change now row else row)
  | recorded {block : BlockCandidateRecord} {now : Nat}
      (event : e = .recordBlockCandidate block now)
      (rows : ∀ hash, s'.db.blocks.find? hash =
        if block.hashHex = hash ∧ s.db.blocks.find? hash = none
        then some (Db.candidateRow block now) else s.db.blocks.find? hash)

theorem blocks_step (stepped : Stepped s e s') : BlocksStep s e s' := by
  cases stepped with
  | spawned _ | failed _ _ | moved _ _ | crashed _ => exact .same (by rw [State.resume_db])
  | appended _ _ _ => exact .same (by rw [State.resume_db])
  | @updated pid env pc change hit db here writes committed =>
      refine @BlocksStep.updated _ _ _ change env.now (State.updating_of_at here writes) fun hash => ?_
      rw [State.resume_db]
      exact Db.find?_updateBlockStatus committed hash
  | job committed => exact .same (by rw [Db.upsertJob_ok committed])
  | share committed => exact .same (by rw [(Db.insertShare_ok committed).1])
  | candidate committed => exact .recorded rfl fun hash => Db.find?_recordBlockCandidate committed hash
  | locked committed =>
      rcases Db.createLocked_ok committed with ⟨-, rfl⟩ | ⟨-, fresh, books, recipients, folded, rfl⟩
      · exact .same rfl
      · exact .same rfl
  | paid _ _ | unlocked _ _ => exact .same rfl

theorem updating_at {change : BlockStatusUpdate} (updates : s.updating e = some change) :
    ∃ pid pc, s.At pid pc ∧ pc.write = some (.update change) := by
  unfold State.updating at updates
  split at updates
  · rename_i change' writing
    cases updates
    cases e with
    | run pid env =>
        obtain ⟨proc, found, writes⟩ := Option.bind_eq_some_iff.1 writing
        exact ⟨pid, _, State.at_of_find? found, writes⟩
    | spawn | crash | upsertJob | insertShare | recordBlockCandidate | createLockedPayoutBatch
    | markPayoutPaid | unlockFailedPayout => cases writing
  · cases updates

/-- Block rows are never deleted. -/
theorem block_kept (stepped : Stepped s e s') {hash : String}
    (present : s.db.blocks.find? hash ≠ none) : s'.db.blocks.find? hash ≠ none := by
  cases blocks_step stepped with
  | same kept => rw [kept]; exact present
  | updated _ rows => rw [rows]; simpa using present
  | recorded _ rows => rw [rows, if_neg (fun taken => present taken.2)]; exact present

/-- A row afterwards is the row before, the row an update wrote, or a new candidate. -/
theorem block_before (stepped : Stepped s e s') {hash : String} {row' : BlockRow}
    (found : s'.db.blocks.find? hash = some row') :
    s.db.blocks.find? hash = some row' ∨
      (∃ change now row, s.updating e = some change ∧ change.hashHex = hash ∧
        s.db.blocks.find? hash = some row ∧ row' = Db.setStatus change now row) ∨
      (∃ block now, e = .recordBlockCandidate block now ∧ block.hashHex = hash ∧
        s.db.blocks.find? hash = none ∧ row' = Db.candidateRow block now) := by
  cases blocks_step stepped with
  | same kept => rw [kept] at found; exact .inl found
  | updated updates rows =>
      rw [rows] at found
      obtain ⟨row, before, became⟩ := Option.map_eq_some_iff.1 found
      split at became
      · rename_i same
        exact .inr (.inl ⟨_, _, row, updates, same.symm, before, became.symm⟩)
      · exact .inl (became ▸ before)
  | recorded event rows =>
      rw [rows] at found
      split at found
      · rename_i fresh
        cases found
        exact .inr (.inr ⟨_, _, event, fresh.1, fresh.2, rfl⟩)
      · exact .inl found

end CsdPool.Rewards
