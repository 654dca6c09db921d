/-
# Payout.Steps — what one step can do

The inversion lemmas every invariant of the payout machine is derived from, so
that no later proof unfolds `State.step`.

* `step_stepped`: the fourteen shapes of a step.
* `at_step`, `stays`: how a process gets to a program counter, and that nobody
  else moves it.
* `row_step`, `row_before`: the batch row under an id across a step
  (`RowChange`, `Inserted`), and that a row that reached an end state is frozen.
* `recipients_step`, `ledger_step`: recipients of an existing batch never change,
  and which step adds which ledger entry.
* `held_step`: a batch record a run holds was listed from the database, by a
  worker that lists its status.
-/
import CsdPool.Payout.Machine

namespace CsdPool.Payout

open Theory (Keyed Table Machine)

set_option autoImplicit false

variable {cfg : Config} {s s' : State} {e : Event}

/-! ## Processes -/

namespace State

@[simp] theorem goto_db (s : State) (pid : Nat) (pc : Pc) : (s.goto pid pc).db = s.db := rfl
@[simp] theorem finish_db (s : State) (pid : Nat) : (s.finish pid).db = s.db := rfl

@[simp] theorem resume_db (s : State) (pid : Nat) (next : Option Pc) :
    (s.resume pid next).db = s.db := by
  cases next <;> rfl

@[simp] theorem resume_inFlight (s : State) (pid : Nat) (next : Option Pc) :
    (s.resume pid next).inFlight = s.inFlight := by
  cases next <;> rfl

@[simp] theorem resume_chain (s : State) (pid : Nat) (next : Option Pc) :
    (s.resume pid next).chain = s.chain := by
  cases next <;> rfl

@[simp] theorem resume_unlocks (s : State) (pid : Nat) (next : Option Pc) :
    (s.resume pid next).unlocks = s.unlocks := by
  cases next <;> rfl

@[simp] theorem resume_approvals (s : State) (pid : Nat) (next : Option Pc) :
    (s.resume pid next).approvals = s.approvals := by
  cases next <;> rfl

theorem at_goto {pid pid' : Nat} {pc pc' : Pc} :
    (s.goto pid pc).At pid' pc' ↔
      (pid' = pid ∧ pc' = pc) ∨ (pid' ≠ pid ∧ s.At pid' pc') := by
  unfold At goto
  rw [Table.find?_put]
  by_cases same : pid' = pid
  · subst same
    simp [Keyed.key, eq_comm]
  · simp [Keyed.key, same, Ne.symm same]

theorem at_finish {pid pid' : Nat} {pc' : Pc} :
    (s.finish pid).At pid' pc' ↔ pid' ≠ pid ∧ s.At pid' pc' := by
  unfold At finish
  rw [Table.find?_erase]
  by_cases same : pid' = pid
  · simp [same]
  · simp [same]

/-- A process that resumes is at its next program counter, or gone; no other process has moved. -/
theorem at_resume {pid pid' : Nat} {next : Option Pc} {pc' : Pc} :
    (s.resume pid next).At pid' pc' ↔
      (pid' = pid ∧ next = some pc') ∨ (pid' ≠ pid ∧ s.At pid' pc') := by
  cases next with
  | some pc => rw [resume, at_goto]; simp [eq_comm]
  | none => rw [resume, at_finish]; simp

/-- A process goes on unless it was cut off. -/
theorem onward_some {pid : Nat} {next : Option Pc} {pc : Pc} :
    s.onward pid next = some pc ↔ pid ∉ s.severed ∧ next = some pc := by
  unfold onward
  split
  · rename_i gone
    simp [gone]
  · rename_i alive
    simp [alive]

/-- A process is in one place. -/
theorem at_unique {pid : Nat} {pc pc' : Pc} (here : s.At pid pc) (there : s.At pid pc') :
    pc = pc' := by
  have same := here.symm.trans there
  simpa using same

theorem at_of_find? {pid : Nat} {proc : Proc} (found : s.procs.find? pid = some proc) :
    s.At pid proc.pc := by
  have same : proc.pid = pid := Table.key_of_find? found
  unfold At
  rw [found, ← same]

end State

/-! ## The shapes of a step -/

/-- What a step can be, with the guards it went through and the state it leaves. The later proofs go
by these cases, and none of them unfolds the step. -/
inductive Stepped (cfg : Config) (s : State) : Event → State → Prop
  | spawned {pid : Nat} {entry : Entry} (fresh : s.procs.find? pid = none) :
      Stepped cfg s (.spawn pid entry) (s.goto pid entry.pc)
  | wrote {pid : Nat} {env : Env} {pc : Pc} {w : Write} {updated : Bool} {db : Db}
      (here : s.At pid pc) (writes : pc.write = some w)
      (committed : w.exec env.now s.db = .ok (updated, db)) :
      Stepped cfg s (.run pid env)
        ({ s with db, unlocks := s.unlocks ++ pc.unlocked }.resume pid
          (s.onward pid (pc.afterWrite updated)))
  | failed {pid : Nat} {env : Env} {pc : Pc} {w : Write} {err : RepositoryError}
      (here : s.At pid pc) (writes : pc.write = some w)
      (refused : w.exec env.now s.db = .error err) :
      Stepped cfg s (.run pid env) (s.finish pid)
  | moved {pid : Nat} {env : Env} {pc pc' : Pc} (here : s.At pid pc) (reads : pc.write = none)
      (decided : pc.read cfg env s.db = .goto pc') :
      Stepped cfg s (.run pid env) (s.goto pid pc')
  | sent {pid : Nat} {env : Env} {pc pc' : Pc} {tx : SentTx} (here : s.At pid pc)
      (reads : pc.write = none) (decided : pc.read cfg env s.db = .send tx pc') :
      Stepped cfg s (.run pid env) ({ s with inFlight := s.inFlight ++ [tx] }.goto pid pc')
  | locked {pid : Nat} {env : Env} {pc pc' : Pc} (here : s.At pid pc) (reads : pc.write = none)
      (decided : pc.read cfg env s.db = .lock pc') (free : s.signingLock = none) :
      Stepped cfg s (.run pid env) ({ s with signingLock := some pid }.goto pid pc')
  | finished {pid : Nat} {env : Env} {pc : Pc} (here : s.At pid pc) (reads : pc.write = none)
      (decided : pc.read cfg env s.db = .finish) : Stepped cfg s (.run pid env) (s.finish pid)
  | crashed {pid : Nat} {pc : Pc} (here : s.At pid pc) :
      Stepped cfg s (.crash pid) (s.finish pid)
  | severed {pid : Nat} {pc : Pc} {w : Write} (here : s.At pid pc)
      (writes : pc.write = some w) : Stepped cfg s (.sever pid) (s.sever pid)
  | accepted {tx : SentTx} (pending : tx ∈ s.inFlight) :
      Stepped cfg s (.nodeAccept tx)
        { s with inFlight := s.inFlight.erase tx, chain := s.chain ++ [tx] }
  | dropped {tx : SentTx} (pending : tx ∈ s.inFlight) :
      Stepped cfg s (.nodeDrop tx) { s with inFlight := s.inFlight.erase tx }
  | approved {batchId : String} :
      Stepped cfg s (.approve batchId)
        { s with
          db := (s.db.markPayoutApproved batchId).2
          approvals := if (s.db.markPayoutApproved batchId).1 then s.approvals ++ [batchId]
            else s.approvals }
  | switched {enabled : Bool} :
      Stepped cfg s (.setPayoutsEnabled enabled) { s with db := s.db.setPayoutsEnabled enabled }
  | rewarded {entries : List LedgerEntry} {books : Books}
      (outside : ∀ entry ∈ entries, outsidePayouts entry.kind = true)
      (appended : s.db.books.appendLedgerEntries entries = .ok books) :
      Stepped cfg s (.appendRewards entries) { s with db := { s.db with books } }

theorem runProc_stepped {pid : Nat} {env : Env} {pc : Pc} (here : s.At pid pc)
    (ran : State.runProc cfg env s pid pc = some s') : Stepped cfg s (.run pid env) s' := by
  unfold State.runProc at ran
  split at ran
  · rename_i w writes
    split at ran
    · rename_i err refused
      cases ran
      exact .failed here writes refused
    · rename_i updated db committed
      cases ran
      exact .wrote here writes committed
  · rename_i reads
    split at ran
    · rename_i pc' decided
      cases ran
      exact .moved here reads decided
    · rename_i tx pc' decided
      cases ran
      exact .sent here reads decided
    · rename_i pc' decided
      split at ran
      · rename_i free
        cases ran
        exact .locked here reads decided free
      · cases ran
    · rename_i decided
      cases ran
      exact .finished here reads decided

/-- **Every step of the machine is one of the cases.** -/
theorem step_stepped (stepped : (payoutMachine cfg).step s e = some s') : Stepped cfg s e s' := by
  change State.step cfg s e = some s' at stepped
  cases e with
  | spawn pid entry =>
      simp only [State.step, Table.contains_eq_isSome] at stepped
      split at stepped
      · cases stepped
      · rename_i fresh
        cases stepped
        exact .spawned (by simpa using fresh)
  | run pid env =>
      simp only [State.step] at stepped
      split at stepped
      · rename_i proc found
        exact runProc_stepped (State.at_of_find? found) stepped
      · cases stepped
  | crash pid =>
      simp only [State.step, Table.contains_eq_isSome] at stepped
      split at stepped
      · rename_i present
        obtain ⟨proc, found⟩ := Option.isSome_iff_exists.1 present
        cases stepped
        exact .crashed (State.at_of_find? found)
      · cases stepped
  | sever pid =>
      simp only [State.step] at stepped
      split at stepped
      · rename_i proc found
        split at stepped
        · rename_i writing
          obtain ⟨w, writes⟩ := Option.isSome_iff_exists.1 writing
          cases stepped
          exact .severed (State.at_of_find? found) writes
        · cases stepped
      · cases stepped
  | nodeAccept tx =>
      simp only [State.step] at stepped
      split at stepped
      · rename_i pending
        cases stepped
        exact .accepted pending
      · cases stepped
  | nodeDrop tx =>
      simp only [State.step] at stepped
      split at stepped
      · rename_i pending
        cases stepped
        exact .dropped pending
      · cases stepped
  | approve batchId =>
      cases stepped
      exact .approved
  | setPayoutsEnabled enabled =>
      cases stepped
      exact .switched
  | appendRewards entries =>
      simp only [State.step, Db.appendLedgerEntries] at stepped
      split at stepped
      · rename_i outside
        cases appended : s.db.books.appendLedgerEntries entries with
        | error err => rw [appended] at stepped; cases stepped
        | ok books =>
            rw [appended] at stepped
            cases stepped
            exact .rewarded (by simpa using outside) appended
      · cases stepped

/-! ## Arriving and staying -/

/-- How the run `pid` gets to `pc'` in the step `e` from `s`. -/
inductive Arrives (cfg : Config) (s : State) (pid : Nat) : Event → Pc → Prop
  | spawned {entry : Entry} (fresh : s.procs.find? pid = none) :
      Arrives cfg s pid (.spawn pid entry) entry.pc
  | wrote {env : Env} {pc pc' : Pc} {w : Write} {updated : Bool} {db : Db} (here : s.At pid pc)
      (writes : pc.write = some w) (committed : w.exec env.now s.db = .ok (updated, db))
      (next : pc.afterWrite updated = some pc') (alive : pid ∉ s.severed) :
      Arrives cfg s pid (.run pid env) pc'
  | read {env : Env} {pc pc' : Pc} (here : s.At pid pc) (reads : pc.write = none)
      (next : (pc.read cfg env s.db).next = some pc') : Arrives cfg s pid (.run pid env) pc'

/-- Who stands at a program counter after a step stood there before and did not move, or has just
arrived. -/
theorem at_step {pid : Nat} {pc' : Pc} (stepped : Stepped cfg s e s') (there : s'.At pid pc') :
    (s.At pid pc' ∧ ∀ env, e ≠ .run pid env) ∨ Arrives cfg s pid e pc' := by
  cases stepped with
  | spawned fresh =>
      rcases State.at_goto.1 there with ⟨rfl, rfl⟩ | ⟨-, before⟩
      · exact .inr (.spawned fresh)
      · exact .inl ⟨before, by simp⟩
  | wrote here writes committed =>
      rcases State.at_resume.1 there with ⟨rfl, next⟩ | ⟨other, before⟩
      · obtain ⟨alive, next⟩ := State.onward_some.1 next
        exact .inr (.wrote here writes committed next alive)
      · exact .inl ⟨before, by simpa using other.symm⟩
  | failed here writes refused =>
      obtain ⟨other, before⟩ := State.at_finish.1 there
      exact .inl ⟨before, by simpa using other.symm⟩
  | moved here reads decided =>
      rcases State.at_goto.1 there with ⟨rfl, rfl⟩ | ⟨other, before⟩
      · exact .inr (.read here reads (by rw [decided]; rfl))
      · exact .inl ⟨before, by simpa using other.symm⟩
  | sent here reads decided =>
      rcases State.at_goto.1 there with ⟨rfl, rfl⟩ | ⟨other, before⟩
      · exact .inr (.read here reads (by rw [decided]; rfl))
      · exact .inl ⟨before, by simpa using other.symm⟩
  | locked here reads decided free =>
      rcases State.at_goto.1 there with ⟨rfl, rfl⟩ | ⟨other, before⟩
      · exact .inr (.read here reads (by rw [decided]; rfl))
      · exact .inl ⟨before, by simpa using other.symm⟩
  | finished here reads decided =>
      obtain ⟨other, before⟩ := State.at_finish.1 there
      exact .inl ⟨before, by simpa using other.symm⟩
  | crashed here => exact .inl ⟨(State.at_finish.1 there).2, by simp⟩
  | severed here writes => exact .inl ⟨there, by simp⟩
  | accepted pending => exact .inl ⟨there, by simp⟩
  | dropped pending => exact .inl ⟨there, by simp⟩
  | approved => exact .inl ⟨there, by simp⟩
  | switched => exact .inl ⟨there, by simp⟩
  | rewarded outside appended => exact .inl ⟨there, by simp⟩

/-- Only its own steps and its own crash move a run. -/
theorem stays {pid : Nat} {pc : Pc} (stepped : Stepped cfg s e s') (here : s.At pid pc)
    (notRun : ∀ env, e ≠ .run pid env) (notCrash : e ≠ .crash pid) : s'.At pid pc := by
  cases stepped with
  | @spawned pid' entry fresh =>
      refine State.at_goto.2 (.inr ⟨?_, here⟩)
      rintro rfl
      exact absurd here (by rw [State.At, fresh]; simp)
  | wrote _ _ _ => exact State.at_resume.2 (.inr ⟨by rintro rfl; exact notRun _ rfl, here⟩)
  | failed _ _ _ => exact State.at_finish.2 ⟨by rintro rfl; exact notRun _ rfl, here⟩
  | moved _ _ _ => exact State.at_goto.2 (.inr ⟨by rintro rfl; exact notRun _ rfl, here⟩)
  | sent _ _ _ => exact State.at_goto.2 (.inr ⟨by rintro rfl; exact notRun _ rfl, here⟩)
  | locked _ _ _ _ => exact State.at_goto.2 (.inr ⟨by rintro rfl; exact notRun _ rfl, here⟩)
  | finished _ _ _ => exact State.at_finish.2 ⟨by rintro rfl; exact notRun _ rfl, here⟩
  | crashed _ => exact State.at_finish.2 ⟨by rintro rfl; exact notCrash rfl, here⟩
  | severed _ _ => exact here
  | accepted _ => exact here
  | dropped _ => exact here
  | approved => exact here
  | switched => exact here
  | rewarded _ _ => exact here

/-- A severed run stays severed as long as there is anything of it. -/
theorem severed_kept {pid : Nat} {pc : Pc} (stepped : Stepped cfg s e s') (there : s'.At pid pc)
    (gone : pid ∈ s.severed) : pid ∈ s'.severed := by
  have finished {pid' : Nat} (there : (s.finish pid').At pid pc) : pid ∈ (s.finish pid').severed :=
    List.mem_filter.2 ⟨gone, by simpa using (State.at_finish.1 there).1⟩
  cases stepped with
  | @wrote pid' env pc' w updated db here writes committed =>
      cases next : s.onward pid' (pc'.afterWrite updated) with
      | some pc'' =>
          rw [next] at there
          exact gone
      | none =>
          rw [next] at there
          exact List.mem_filter.2 ⟨gone, by simpa using (State.at_finish.1 there).1⟩
  | failed _ _ _ => exact finished there
  | finished _ _ _ => exact finished there
  | crashed _ => exact finished there
  | severed _ _ => exact List.mem_cons_of_mem _ gone
  | spawned _ => exact gone
  | moved _ _ _ => exact gone
  | sent _ _ _ => exact gone
  | locked _ _ _ _ => exact gone
  | accepted _ => exact gone
  | dropped _ => exact gone
  | approved => exact gone
  | switched => exact gone
  | rewarded _ _ => exact gone

/-! ## Writing transactions -/

/-- The closing entries a write appends, if it is one of the two that close a batch. -/
def Write.closing : Write → Option (List LedgerEntry)
  | .unlockFailed batch => some (Db.unlockEntries batch)
  | .markPaid batch => some (Db.paidEntries batch)
  | _ => none

theorem exec_closing_eq {w : Write} {entries : List LedgerEntry} (now : Nat) (db : Db)
    (closes : w.closing = some entries) :
    w.exec now db = (db.books.appendLedgerEntries entries).map fun books =>
      (decide (0 < entries.length), { db with books }) := by
  cases appended : db.books.appendLedgerEntries entries <;> cases w <;> cases closes <;>
    simp [Write.exec, Db.unlockFailedPayout, Db.markPayoutPaid, Db.appendLedgerEntries,
      appended, Except.map]

/-- A write that closes a batch is an append of its entries. -/
theorem exec_closing {w : Write} {entries : List LedgerEntry} {now : Nat} {db db' : Db}
    {updated : Bool} (closes : w.closing = some entries)
    (committed : w.exec now db = .ok (updated, db')) :
    ∃ books, db.books.appendLedgerEntries entries = .ok books ∧ db' = { db with books } := by
  rw [exec_closing_eq now db closes] at committed
  cases appended : db.books.appendLedgerEntries entries with
  | error err => rw [appended] at committed; cases committed
  | ok books =>
      rw [appended] at committed
      cases committed
      exact ⟨books, rfl, rfl⟩

/-- It goes through if the miners of the batch are admissible, as those of a stored one are. -/
theorem exec_closing_total {w : Write} {entries : List LedgerEntry} (now : Nat) (db : Db)
    (closes : w.closing = some entries) (legal : ∀ entry ∈ entries, Books.LegalMiner entry) :
    ∃ updated db', w.exec now db = .ok (updated, db') := by
  obtain ⟨books, appended⟩ := Books.appendLedgerEntries_total db.books legal
  exact ⟨_, _, by rw [exec_closing_eq now db closes, appended]; rfl⟩

/-- **The three kinds of writing transaction**: a batch goes in with its locks, one batch
row is updated, or closing entries are appended. -/
theorem exec_cases {w : Write} {now : Nat} {db db' : Db} {updated : Bool}
    (committed : w.exec now db = .ok (updated, db')) :
    (∃ draft status, w = .createLocked draft status ∧
      db.createLockedPayoutBatchWithStatus draft status now = .ok (updated, db')) ∨
    (∃ batchId statuses set keeps, db.updatePayoutBatch batchId statuses set keeps =
      (updated, db')) ∨
    (∃ entries books, w.closing = some entries ∧
      db.books.appendLedgerEntries entries = .ok books ∧ db' = { db with books }) := by
  cases w with
  | createLocked draft status => exact .inl ⟨draft, status, rfl, committed⟩
  | markSigned _ _ _ => exact .inr (.inl ⟨_, _, _, _, Except.ok.inj committed⟩)
  | markSubmitted _ _ => exact .inr (.inl ⟨_, _, _, _, Except.ok.inj committed⟩)
  | markConfirmed _ => exact .inr (.inl ⟨_, _, _, _, Except.ok.inj committed⟩)
  | markFailed _ => exact .inr (.inl ⟨_, _, _, _, Except.ok.inj committed⟩)
  | markCancelled _ => exact .inr (.inl ⟨_, _, _, _, Except.ok.inj committed⟩)
  | unlockFailed batch =>
      obtain ⟨books, appended, rfl⟩ := exec_closing rfl committed
      exact .inr (.inr ⟨_, books, rfl, appended, rfl⟩)
  | markPaid batch =>
      obtain ⟨books, appended, rfl⟩ := exec_closing rfl committed
      exact .inr (.inr ⟨_, books, rfl, appended, rfl⟩)

theorem running_of_at {pid : Nat} {pc : Pc} (here : s.At pid pc) (env : Env) :
    s.running (.run pid env) = some pc := by
  show (s.procs.find? pid).map (·.pc) = some pc
  rw [show s.procs.find? pid = some ⟨pid, pc⟩ from here]
  rfl

/-- The transaction of a run at a writing program counter commits, or ends the run. -/
theorem write_step {pid : Nat} {env : Env} {pc : Pc} {w : Write}
    (stepped : Stepped cfg s (.run pid env) s') (here : s.At pid pc) (writes : pc.write = some w) :
    (∃ updated db, w.exec env.now s.db = .ok (updated, db) ∧
      s' = { s with db, unlocks := s.unlocks ++ pc.unlocked }.resume pid
        (s.onward pid (pc.afterWrite updated))) ∨
    ((∃ err, w.exec env.now s.db = .error err) ∧ s' = s.finish pid) := by
  cases stepped with
  | wrote there writes' committed =>
      cases State.at_unique there here
      rw [writes] at writes'
      cases writes'
      exact .inl ⟨_, _, committed, rfl⟩
  | failed there writes' refused =>
      cases State.at_unique there here
      rw [writes] at writes'
      cases writes'
      exact .inr ⟨⟨_, refused⟩, rfl⟩
  | moved there reads _ => rw [State.at_unique there here, writes] at reads; cases reads
  | sent there reads _ => rw [State.at_unique there here, writes] at reads; cases reads
  | locked there reads _ _ => rw [State.at_unique there here, writes] at reads; cases reads
  | finished there reads _ => rw [State.at_unique there here, writes] at reads; cases reads

/-! ## Batch rows -/

/-- How an existing batch row changes in one step. -/
inductive RowChange (s : State) (e : Event) (r : PayoutBatchRow) : PayoutBatchRow → Prop
  | same : RowChange s e r r
  | approved (is : e = .approve r.id) (source : r.status = .needsApproval) :
      RowChange s e r { r with status := .created }
  | signed {pid : Nat} {env : Env} {batch : PayoutBatchRecord} {txid value : String}
      (is : e = .run pid env) (here : s.At pid (.signMark batch txid value))
      (id : r.id = batch.batchId) (source : r.status = .created) :
      RowChange s e r { r with status := .signed, txid := some txid, rawTxHash := some value }
  | submitted {pid : Nat} {env : Env} {batch : PayoutBatchRecord} {txid : String}
      {rest : List PayoutBatchRecord} (is : e = .run pid env)
      (here : s.At pid (.submitMark batch txid rest)) (id : r.id = batch.batchId)
      (source : r.status = .signed ∨ r.status = .submitted) :
      RowChange s e r { r with status := .submitted, txid := some (r.txid.getD txid) }
  | confirmed {pid : Nat} {env : Env} {batch : PayoutBatchRecord}
      {rest : List PayoutBatchRecord} (is : e = .run pid env)
      (here : s.At pid (.reconcileConfirm batch rest)) (id : r.id = batch.batchId)
      (source : r.status = .submitted ∨ r.status = .signed) :
      RowChange s e r { r with status := .confirmed }
  | failed {pid : Nat} {env : Env} {caller : Caller} {batch : PayoutBatchRecord}
      (is : e = .run pid env) (here : s.At pid (.markFailed caller batch))
      (id : r.id = batch.batchId)
      (source : r.status ∈ [.needsApproval, .created, .signed, .submitted]) :
      RowChange s e r { r with status := .failed }
  | cancelled {pid : Nat} {env : Env} {batch : PayoutBatchRecord} (is : e = .run pid env)
      (here : s.At pid (.cancelUpdate batch)) (id : r.id = batch.batchId)
      (source : r.status ∈ Db.cancellable) :
      RowChange s e r { r with status := .cancelled }

/-- A row that a transaction inserted. -/
structure Inserted (s : State) (e : Event) (r : PayoutBatchRow) : Prop where
  origin : ∃ pid env pc draft, e = .run pid env ∧ s.At pid pc ∧
    pc.write = some (.createLocked draft r.status) ∧
    r = ⟨draft.batchId, r.status, draft.totalBaseUnits, none, none, env.now⟩
  fresh : s.db.payoutBatches.find? r.id = none

theorem RowChange.id {r r' : PayoutBatchRow} (change : RowChange s e r r') : r'.id = r.id := by
  cases change <;> rfl

/-- No change of a row touches its total. -/
theorem RowChange.totalBaseUnits {r r' : PayoutBatchRow} (change : RowChange s e r r') :
    r'.totalBaseUnits = r.totalBaseUnits := by
  cases change <;> rfl

/-- The statuses nothing leaves. -/
def ended : PayoutStatus → Bool
  | .confirmed | .failed | .cancelled => true
  | _ => false

/-- **A row in an end state is frozen.** -/
theorem RowChange.frozen {r r' : PayoutBatchRow} (change : RowChange s e r r')
    (final : ended r.status = true) : r' = r := by
  cases change with
  | same => rfl
  | approved _ source => rw [source] at final; cases final
  | signed _ _ _ source => rw [source] at final; cases final
  | submitted _ _ _ source => rcases source with h | h <;> rw [h] at final <;> cases final
  | confirmed _ _ _ source => rcases source with h | h <;> rw [h] at final <;> cases final
  | failed _ _ _ source =>
      simp only [List.mem_cons, List.not_mem_nil, or_false] at source
      rcases source with h | h | h | h <;> rw [h] at final <;> cases final
  | cancelled _ _ _ source =>
      simp only [Db.cancellable, List.mem_cons, List.not_mem_nil, or_false] at source
      rcases source with h | h | h <;> rw [h] at final <;> cases final

/-- A conditional update as a change of one row. -/
theorem row_updated {db : Db} {batchId : String} {statuses : List PayoutStatus}
    {set : PayoutBatchRow → PayoutBatchRow} {r : PayoutBatchRow}
    (found : db.payoutBatches.find? r.id = some r) {P : PayoutBatchRow → Prop} (same : P r)
    (changed : r.id = batchId → r.status ∈ statuses → P (set r))
    (keeps : ∀ r, (set r).id = r.id := by intro; rfl) :
    ∃ r', (db.updatePayoutBatch batchId statuses set keeps).2.payoutBatches.find? r.id = some r' ∧
      P r' := by
  rw [Db.find?_updatePayoutBatch, found]
  by_cases hit : r.id = batchId ∧ statuses.contains r.status = true
  · exact ⟨set r, by rw [Option.map_some, if_pos hit], changed hit.1 (by simpa using hit.2)⟩
  · exact ⟨r, by rw [Option.map_some, if_neg hit], same⟩

theorem row_wrote {pid : Nat} {env : Env} {pc : Pc} {w : Write} {updated : Bool} {db : Db}
    {r : PayoutBatchRow} (here : s.At pid pc) (writes : pc.write = some w)
    (committed : w.exec env.now s.db = .ok (updated, db))
    (found : s.db.payoutBatches.find? r.id = some r) :
    ∃ r', db.payoutBatches.find? r.id = some r' ∧ RowChange s (.run pid env) r r' := by
  have created {draft : PayoutBatchDraft} {status : PayoutStatus}
      (ok : s.db.createLockedPayoutBatchWithStatus draft status env.now = .ok (updated, db)) :
      ∃ r', db.payoutBatches.find? r.id = some r' ∧ RowChange s (.run pid env) r r' := by
    rcases Db.createLocked_ok ok with ⟨-, rfl⟩ | ⟨-, -, books, recipients, -, rfl⟩
    · exact ⟨r, found, .same⟩
    · exact ⟨r, Table.find?_insert_of_some found, .same⟩
  have appended {entries : List LedgerEntry} (closes : w.closing = some entries) :
      ∃ r', db.payoutBatches.find? r.id = some r' ∧ RowChange s (.run pid env) r r' := by
    obtain ⟨books, -, rfl⟩ := exec_closing closes committed
    exact ⟨r, found, .same⟩
  cases pc <;> cases writes
  case createInsert draft status => exact created committed
  case retryInsert draft => exact created committed
  case signMark batch txid value =>
    cases committed
    exact row_updated found .same fun id source => .signed rfl here id (by simpa using source)
  case submitMark batch txid rest =>
    cases committed
    exact row_updated found .same fun id source => .submitted rfl here id (by simpa using source)
  case reconcileConfirm batch rest =>
    cases committed
    exact row_updated found .same fun id source => .confirmed rfl here id (by simpa using source)
  case markFailed caller batch =>
    cases committed
    exact row_updated found .same fun id source => .failed rfl here id source
  case cancelUpdate batch =>
    cases committed
    exact row_updated found .same fun id source => .cancelled rfl here id source
  case reconcilePaid batch rest => exact appended rfl
  case unlock caller batch => exact appended rfl
  case cancelUnlock batch => exact appended rfl

/-- **A batch row never disappears, and changes only in these ways.** -/
theorem row_step {id : String} {r : PayoutBatchRow} (stepped : Stepped cfg s e s')
    (found : s.db.payoutBatches.find? id = some r) :
    ∃ r', s'.db.payoutBatches.find? id = some r' ∧ RowChange s e r r' := by
  have same : r.id = id := Table.key_of_find? found
  subst same
  cases stepped with
  | wrote here writes committed =>
      obtain ⟨r', found', change⟩ := row_wrote here writes committed found
      exact ⟨r', by simpa using found', change⟩
  | approved =>
      exact row_updated found .same fun id source => .approved (by rw [id]) (by simpa using source)
  | spawned _ => exact ⟨r, found, .same⟩
  | failed _ _ _ => exact ⟨r, found, .same⟩
  | moved _ _ _ => exact ⟨r, found, .same⟩
  | sent _ _ _ => exact ⟨r, found, .same⟩
  | locked _ _ _ _ => exact ⟨r, found, .same⟩
  | finished _ _ _ => exact ⟨r, found, .same⟩
  | crashed _ => exact ⟨r, found, .same⟩
  | severed _ _ => exact ⟨r, found, .same⟩
  | accepted _ => exact ⟨r, found, .same⟩
  | dropped _ => exact ⟨r, found, .same⟩
  | switched => exact ⟨r, found, .same⟩
  | rewarded _ _ => exact ⟨r, found, .same⟩

theorem row_inserted {pid : Nat} {env : Env} {pc : Pc} {w : Write} {updated : Bool} {db : Db}
    {id : String} {r' : PayoutBatchRow} (here : s.At pid pc) (writes : pc.write = some w)
    (committed : w.exec env.now s.db = .ok (updated, db))
    (absent : s.db.payoutBatches.find? id = none)
    (found : db.payoutBatches.find? id = some r') : Inserted s (.run pid env) r' := by
  rcases exec_cases committed with ⟨draft, status, rfl, ok⟩ | ⟨batchId, statuses, set, keeps, ok⟩ |
    ⟨entries, books, -, -, rfl⟩
  · rcases Db.createLocked_ok ok with ⟨-, rfl⟩ | ⟨-, fresh, books, recipients, -, rfl⟩
    · rw [absent] at found; cases found
    · change (s.db.payoutBatches.insert _).1.find? id = some r' at found
      rw [Table.find?_insert] at found
      split at found
      · cases found
        exact ⟨⟨pid, env, pc, draft, rfl, here, writes, rfl⟩, fresh⟩
      · rw [absent] at found; cases found
  · have gone := Db.find?_updatePayoutBatch s.db batchId statuses set keeps id
    rw [ok, absent, found] at gone
    cases gone
  · exact absurd (found.symm.trans absent) (by simp)

/-- **Where a batch row comes from.** -/
theorem row_before {id : String} {r' : PayoutBatchRow} (stepped : Stepped cfg s e s')
    (found : s'.db.payoutBatches.find? id = some r') :
    (∃ r, s.db.payoutBatches.find? id = some r ∧ RowChange s e r r') ∨ Inserted s e r' := by
  cases before : s.db.payoutBatches.find? id with
  | some r =>
      obtain ⟨r'', found', change⟩ := row_step stepped before
      rw [found] at found'
      cases found'
      exact .inl ⟨r, rfl, change⟩
  | none =>
      have unchanged (same : s'.db.payoutBatches = s.db.payoutBatches) : Inserted s e r' := by
        rw [same, before] at found
        cases found
      refine .inr ?_
      cases stepped with
      | wrote here writes committed =>
          exact row_inserted here writes committed before (by simpa using found)
      | @approved batchId =>
          have gone : (s.db.markPayoutApproved batchId).2.payoutBatches.find? id = none := by
            rw [Db.markPayoutApproved, Db.find?_updatePayoutBatch, before]
            rfl
          exact absurd (found.symm.trans gone) (by simp)
      | spawned _ => exact unchanged rfl
      | failed _ _ _ => exact unchanged rfl
      | moved _ _ _ => exact unchanged rfl
      | sent _ _ _ => exact unchanged rfl
      | locked _ _ _ _ => exact unchanged rfl
      | finished _ _ _ => exact unchanged rfl
      | crashed _ => exact unchanged rfl
      | severed _ _ => exact unchanged rfl
      | accepted _ => exact unchanged rfl
      | dropped _ => exact unchanged rfl
      | switched => exact unchanged rfl
      | rewarded _ _ => exact unchanged rfl

/-! ## Recipients and ledger -/

theorem recipientsOf_congr {db db' : Db} (same : db'.payoutRecipients = db.payoutRecipients)
    (id : String) : db'.recipientsOf id = db.recipientsOf id := by
  unfold Db.recipientsOf
  rw [same]

/-- The recipients of a batch that is there do not change. -/
theorem recipients_exec {w : Write} {now : Nat} {db db' : Db} {updated : Bool} {id : String}
    {r : PayoutBatchRow} (committed : w.exec now db = .ok (updated, db'))
    (found : db.payoutBatches.find? id = some r) : db'.recipientsOf id = db.recipientsOf id := by
  rcases exec_cases committed with ⟨draft, status, -, ok⟩ | ⟨batchId, statuses, set, keeps, ok⟩ |
    ⟨entries, books, -, -, rfl⟩
  · rcases Db.createLocked_ok ok with ⟨-, rfl⟩ | ⟨-, fresh, books, recipients, folded, rfl⟩
    · rfl
    · have other : draft.batchId ≠ id := by
        rintro rfl
        rw [found] at fresh
        cases fresh
      have rows := Db.insertRecipients_rows folded
      have others : (draft.recipients.map (Db.recipientRow draft.batchId)).filter
          (fun r => r.batchId = id) = [] := by
        simp [Db.recipientRow, other]
      unfold Db.recipientsOf
      dsimp only at rows ⊢
      rw [rows, List.filter_append, others, List.append_nil]
  · cases ok
    exact recipientsOf_congr rfl id
  · exact recipientsOf_congr rfl id

/-- **The recipients of an existing batch never change.** -/
theorem recipients_step {id : String} {r : PayoutBatchRow} (stepped : Stepped cfg s e s')
    (found : s.db.payoutBatches.find? id = some r) :
    s'.db.recipientsOf id = s.db.recipientsOf id := by
  cases stepped with
  | wrote here writes committed =>
      rw [State.resume_db]
      exact recipients_exec committed found
  | spawned _ => rfl
  | failed _ _ _ => rfl
  | moved _ _ _ => rfl
  | sent _ _ _ => rfl
  | locked _ _ _ _ => rfl
  | finished _ _ _ => rfl
  | crashed _ => rfl
  | severed _ _ => rfl
  | accepted _ => rfl
  | dropped _ => rfl
  | approved => exact recipientsOf_congr rfl id
  | switched => exact recipientsOf_congr rfl id
  | rewarded _ _ => exact recipientsOf_congr rfl id

/-- How a ledger entry gets in: by a worker outside the payout path, as the lock of a new
batch, or as a closing entry. -/
inductive Entered (s : State) (e : Event) (x : LedgerEntry) : Prop
  | rewarded (outside : outsidePayouts x.kind = true)
  | locked (kind : x.kind = .payoutLock)
  | closed {pid : Nat} {env : Env} {pc : Pc} {w : Write} {entries : List LedgerEntry}
      (is : e = .run pid env) (here : s.At pid pc) (writes : pc.write = some w)
      (closes : w.closing = some entries) (member : x ∈ entries)

/-- **The ledger only grows, and only in these ways.** -/
theorem ledger_step (stepped : Stepped cfg s e s') :
    (∀ x ∈ s.db.books.ledgerEntries.rows, x ∈ s'.db.books.ledgerEntries.rows) ∧
      ∀ x ∈ s'.db.books.ledgerEntries.rows,
        x ∈ s.db.books.ledgerEntries.rows ∨ Entered s e x := by
  have unchanged (same : s'.db.books = s.db.books) :
      (∀ x ∈ s.db.books.ledgerEntries.rows, x ∈ s'.db.books.ledgerEntries.rows) ∧
        ∀ x ∈ s'.db.books.ledgerEntries.rows,
          x ∈ s.db.books.ledgerEntries.rows ∨ Entered s e x := by
    rw [same]
    exact ⟨fun _ member => member, fun _ member => .inl member⟩
  cases stepped with
  | @wrote pid env pc w updated db here writes committed =>
      rw [State.resume_db] at unchanged ⊢
      rcases exec_cases committed with ⟨draft, status, rfl, ok⟩ |
        ⟨batchId, statuses, set, keeps, ok⟩ | ⟨entries, books, closes, appended, rfl⟩
      · rcases Db.createLocked_ok ok with ⟨-, rfl⟩ | ⟨-, -, books, recipients, folded, rfl⟩
        · exact unchanged rfl
        · have grows := Db.insertRecipients_grows folded
          refine ⟨grows.kept, fun x member => ?_⟩
          rcases grows.added x member with old | lock
          · exact .inl old
          · obtain ⟨recipient, -, rfl⟩ := List.mem_map.1 lock
            exact .inr (.locked rfl)
      · cases ok
        exact unchanged rfl
      · have grows := Books.appendLedgerEntries_grows appended
        refine ⟨grows.kept, fun x member => ?_⟩
        rcases grows.added x member with old | new
        · exact .inl old
        · exact .inr (.closed rfl here writes closes new)
  | rewarded outside appended =>
      have grows := Books.appendLedgerEntries_grows appended
      refine ⟨grows.kept, fun x member => ?_⟩
      rcases grows.added x member with old | new
      · exact .inl old
      · exact .inr (.rewarded (outside x new))
  | spawned _ => exact unchanged rfl
  | failed _ _ _ => exact unchanged rfl
  | moved _ _ _ => exact unchanged rfl
  | sent _ _ _ => exact unchanged rfl
  | locked _ _ _ _ => exact unchanged rfl
  | finished _ _ _ => exact unchanged rfl
  | crashed _ => exact unchanged rfl
  | severed _ _ => exact unchanged rfl
  | accepted _ => exact unchanged rfl
  | dropped _ => exact unchanged rfl
  | approved => exact unchanged rfl
  | switched => exact unchanged rfl

/-! ## Held batches -/

/-- The programs that handle batches. -/
inductive Worker
  | create
  | sign
  | submit
  | reconcile
  | cancel
  | retry
  deriving DecidableEq, Repr

/-- The statuses a worker lists batches by. -/
def Worker.lists : Worker → List PayoutStatus
  | .sign => [.created]
  | .submit => [.signed]
  | .reconcile => [.submitted]
  | .cancel => Db.cancellable
  | .create | .retry => []

def Caller.worker : Caller → Worker
  | .sign => .sign
  | .submit _ => .submit
  | .reconcile _ => .reconcile

def Caller.rest : Caller → List PayoutBatchRecord
  | .sign => []
  | .submit rest => rest
  | .reconcile rest => rest

namespace Pc

def worker : Pc → Worker
  | createBegin | createUsage | createSelect _ | createInsert _ _ => .create
  | signBegin | signLock | signInflight | signList | signCall _ | signMark _ _ _
  | signCommit => .sign
  | submitBegin | submitList | submitNext _ | submitWait _ _ | submitMark _ _ _ => .submit
  | reconcileList | reconcileNext _ | reconcileConfirm _ _ | reconcilePaid _ _ => .reconcile
  | markFailed caller _ | unlock caller _ => caller.worker
  | cancelRead _ | cancelUpdate _ | cancelUnlock _ => .cancel
  | retryRead _ _ | retryInsert _ => .retry

/-- The batch records a run still carries. -/
def holds : Pc → List PayoutBatchRecord
  | signCall batch | signMark batch _ _ => [batch]
  | submitNext queue | reconcileNext queue => queue
  | submitWait batch rest | submitMark batch _ rest => batch :: rest
  | reconcileConfirm batch rest | reconcilePaid batch rest => batch :: rest
  | markFailed caller batch | unlock caller batch => batch :: caller.rest
  | cancelUpdate batch | cancelUnlock batch => [batch]
  | _ => []

/-- The batch whose closing entries a program counter appends. -/
def closesBatch : Pc → Option PayoutBatchRecord
  | unlock _ batch => some batch
  | cancelUnlock batch => some batch
  | reconcilePaid batch _ => some batch
  | _ => none

end Pc

/-- `batch` is what `db` says of a batch in one of `statuses`. -/
def Listed (db : Db) (statuses : List PayoutStatus) (batch : PayoutBatchRecord) : Prop :=
  ∃ row, db.payoutBatches.find? batch.batchId = some row ∧ row.status ∈ statuses ∧
    batch = db.hydratePayoutBatchRecord row

theorem resume_holds (caller : Caller) :
    caller.resume.worker = caller.worker ∧ caller.resume.holds = caller.rest := by
  cases caller <;> exact ⟨rfl, rfl⟩

theorem afterWrite_holds {pc pc' : Pc} {updated : Bool} (next : pc.afterWrite updated = some pc') :
    pc'.worker = pc.worker ∧ ∀ b ∈ pc'.holds, b ∈ pc.holds := by
  cases pc with
  | signMark batch txid value =>
      cases next
      exact ⟨rfl, fun b member => by cases member⟩
  | submitMark batch txid rest =>
      cases next
      exact ⟨rfl, fun b member => List.mem_cons_of_mem _ member⟩
  | reconcileConfirm batch rest =>
      cases next
      exact ⟨rfl, fun b member => member⟩
  | reconcilePaid batch rest =>
      cases next
      exact ⟨rfl, fun b member => List.mem_cons_of_mem _ member⟩
  | markFailed caller batch =>
      cases next
      exact ⟨rfl, fun b member => member⟩
  | unlock caller batch =>
      cases next
      obtain ⟨worker, holds⟩ := resume_holds caller
      exact ⟨worker, fun b member => List.mem_cons_of_mem _ (holds ▸ member)⟩
  | cancelUpdate batch =>
      simp only [Pc.afterWrite] at next
      split at next
      · cases next
        exact ⟨rfl, fun b member => member⟩
      · cases next
  | _ => cases next

theorem createUsed_next {usage : Except RepositoryError Nat} {pc' : Pc}
    (next : (createUsed usage).next = some pc') : ∃ used, pc' = .createSelect used := by
  cases usage with
  | error err => cases next
  | ok used => cases next; exact ⟨used, rfl⟩

theorem createSelected_next {batchId : String} {used : Nat}
    {payable : Except RepositoryError (List MinerBalance)} {pc' : Pc}
    (next : (createSelected cfg batchId used payable).next = some pc') :
    ∃ balances draft status, createDecision cfg batchId used balances = some (draft, status) ∧
      pc' = .createInsert draft status := by
  unfold createSelected at next
  split at next
  · cases next
  · rename_i balances
    split at next
    · rename_i draft status decided
      cases next
      exact ⟨balances, draft, status, decided, rfl⟩
    · cases next

theorem submitDecision_holds {batch : PayoutBatchRecord} {rest : List PayoutBatchRecord}
    {pc' : Pc} (next : (submitDecision cfg batch rest).next = some pc') :
    pc'.worker = .submit ∧ pc'.closesBatch = none ∧ ∀ b ∈ pc'.holds, b ∈ batch :: rest := by
  unfold submitDecision at next
  split at next
  · cases next; exact ⟨rfl, rfl, fun b member => member⟩
  · split at next
    · split at next
      · cases next; exact ⟨rfl, rfl, fun b member => member⟩
      · cases next; exact ⟨rfl, rfl, fun b member => List.mem_cons_of_mem _ member⟩
    · split at next
      · cases next; exact ⟨rfl, rfl, fun b member => member⟩
      · cases next; exact ⟨rfl, rfl, fun b member => List.mem_cons_of_mem _ member⟩
    · cases next; exact ⟨rfl, rfl, fun b member => member⟩

theorem submitAnswered_holds (answer : Except String SubmitTxResponse)
    (batch : PayoutBatchRecord) (rest : List PayoutBatchRecord) :
    (submitAnswered answer batch rest).worker = .submit ∧
      (submitAnswered answer batch rest).closesBatch = none ∧
      ∀ b ∈ (submitAnswered answer batch rest).holds, b ∈ batch :: rest := by
  unfold submitAnswered
  split
  · split
    · exact ⟨rfl, rfl, fun b member => member⟩
    · split
      · exact ⟨rfl, rfl, fun b member => member⟩
      · exact ⟨rfl, rfl, fun b member => List.mem_cons_of_mem _ member⟩
  · exact ⟨rfl, rfl, fun b member => List.mem_cons_of_mem _ member⟩

theorem signAnswered_holds (serde : SerdeJson) (answer : Except String SignedPayoutResponse)
    (batch : PayoutBatchRecord) :
    (signAnswered serde answer batch).worker = .sign ∧
      (signAnswered serde answer batch).closesBatch = none ∧
      ∀ b ∈ (signAnswered serde answer batch).holds, b ∈ [batch] := by
  unfold signAnswered
  split
  · split
    · exact ⟨rfl, rfl, fun b member => member⟩
    · exact ⟨rfl, rfl, fun b member => member⟩
  · exact ⟨rfl, rfl, fun b member => member⟩

theorem reconcileDecision_holds {answer : Except String TransactionStatusResponse}
    {batch : PayoutBatchRecord} {rest : List PayoutBatchRecord} {pc' : Pc}
    (next : (reconcileDecision answer batch rest).next = some pc') :
    pc'.worker = .reconcile ∧ pc'.closesBatch = none ∧ ∀ b ∈ pc'.holds, b ∈ batch :: rest := by
  unfold reconcileDecision at next
  split at next
  · cases next; exact ⟨rfl, rfl, fun b member => member⟩
  · split at next
    · cases next
    · split at next
      · cases next; exact ⟨rfl, rfl, fun b member => member⟩
      · split at next
        · cases next; exact ⟨rfl, rfl, fun b member => member⟩
        · cases next; exact ⟨rfl, rfl, fun b member => List.mem_cons_of_mem _ member⟩

/-- What a read comes back with is what the process had, or what the database lists for its worker.
-/
theorem read_holds {env : Env} {db : Db} {pc pc' : Pc}
    (next : (pc.read cfg env db).next = some pc') :
    pc'.worker = pc.worker ∧ pc'.closesBatch = none ∧
      ∀ b ∈ pc'.holds, b ∈ pc.holds ∨ Listed db pc.worker.lists b := by
  cases pc with
  | createBegin =>
      simp only [Pc.read] at next
      split at next <;> cases next
      exact ⟨rfl, rfl, fun b member => by cases member⟩
  | createUsage =>
      rw [Pc.read] at next
      obtain ⟨used, rfl⟩ := createUsed_next next
      exact ⟨rfl, rfl, fun b member => by cases member⟩
  | createSelect used =>
      rw [Pc.read] at next
      obtain ⟨balances, draft, status, -, rfl⟩ := createSelected_next next
      exact ⟨rfl, rfl, fun b member => by cases member⟩
  | signBegin =>
      simp only [Pc.read] at next
      split at next <;> cases next
      exact ⟨rfl, rfl, fun b member => by cases member⟩
  | signLock =>
      cases next
      exact ⟨rfl, rfl, fun b member => by cases member⟩
  | signInflight =>
      simp only [Pc.read] at next
      split at next <;> cases next
      · exact ⟨rfl, rfl, fun b member => by cases member⟩
      · exact ⟨rfl, rfl, fun b member => by cases member⟩
  | signList =>
      simp only [Pc.read] at next
      split at next
      · rename_i batch more listed
        cases next
        refine ⟨rfl, rfl, fun b member => .inr ?_⟩
        rw [List.mem_singleton.1 member]
        exact Db.listed_of_mem (listed ▸ List.mem_cons_self ..)
      · cases next
        exact ⟨rfl, rfl, fun b member => by cases member⟩
  | signCall batch =>
      cases next
      obtain ⟨worker, closes, holds⟩ := signAnswered_holds cfg.serde env.signer batch
      exact ⟨worker, closes, fun b member => .inl (holds b member)⟩
  | submitBegin =>
      simp only [Pc.read] at next
      split at next <;> cases next
      exact ⟨rfl, rfl, fun b member => by cases member⟩
  | submitList =>
      cases next
      exact ⟨rfl, rfl, fun b member => .inr (Db.listed_of_mem member)⟩
  | submitNext queue =>
      cases queue with
      | nil => cases next
      | cons batch rest =>
          obtain ⟨worker, closes, holds⟩ := submitDecision_holds next
          exact ⟨worker, closes, fun b member => .inl (holds b member)⟩
  | submitWait batch rest =>
      cases next
      obtain ⟨worker, closes, holds⟩ := submitAnswered_holds env.submit batch rest
      exact ⟨worker, closes, fun b member => .inl (holds b member)⟩
  | reconcileList =>
      cases next
      exact ⟨rfl, rfl, fun b member => .inr (Db.listed_of_mem member)⟩
  | reconcileNext queue =>
      cases queue with
      | nil => cases next
      | cons batch rest =>
          obtain ⟨worker, closes, holds⟩ := reconcileDecision_holds next
          exact ⟨worker, closes, fun b member => .inl (holds b member)⟩
  | cancelRead batchId =>
      simp only [Pc.read] at next
      split at next
      · rename_i batch found
        cases next
        refine ⟨rfl, rfl, fun b member => .inr ?_⟩
        rw [List.mem_singleton.1 member]
        exact Db.listed_of_byId found
      · cases next
  | retryRead batchId newBatchId =>
      simp only [Pc.read] at next
      split at next <;> cases next
      exact ⟨rfl, rfl, fun b member => by cases member⟩
  | _ => cases next

theorem read_db {pid : Nat} {env : Env} {pc : Pc} (stepped : Stepped cfg s (.run pid env) s')
    (here : s.At pid pc) (reads : pc.write = none) : s'.db = s.db := by
  cases stepped with
  | wrote there writes _ =>
      rw [State.at_unique there here, reads] at writes
      cases writes
  | failed _ _ _ => rfl
  | moved _ _ _ => rfl
  | sent _ _ _ => rfl
  | locked _ _ _ _ => rfl
  | finished _ _ _ => rfl

/-- **A run holds only batches it listed**, with the statuses its worker lists by. -/
theorem held_step {pid : Nat} {pc' : Pc} {b : PayoutBatchRecord} (stepped : Stepped cfg s e s')
    (there : s'.At pid pc') (held : b ∈ pc'.holds) :
    (∃ pc, s.At pid pc ∧ pc.worker = pc'.worker ∧ b ∈ pc.holds) ∨
      (s'.db = s.db ∧ Listed s.db pc'.worker.lists b) := by
  rcases at_step stepped there with ⟨before, -⟩ | arrives
  · exact .inl ⟨pc', before, rfl, held⟩
  · cases arrives with
    | @spawned entry _ => cases entry <;> cases held
    | wrote here _ _ next =>
        obtain ⟨worker, holds⟩ := afterWrite_holds next
        exact .inl ⟨_, here, worker.symm, holds b held⟩
    | read here reads next =>
        obtain ⟨worker, -, holds⟩ := read_holds next
        rcases holds b held with before | listed
        · exact .inl ⟨_, here, worker.symm, before⟩
        · exact .inr ⟨read_db stepped here reads, worker ▸ listed⟩

/-- Only the update of the same batch leads to its closing transaction; `cancel_payout` gets
there if the update took effect. -/
inductive Closes (s : State) (pid : Nat) (batch : PayoutBatchRecord) (db : Db) : Pc → Prop
  | unlock {caller : Caller} (here : s.At pid (.markFailed caller batch)) :
      Closes s pid batch db (.unlock caller batch)
  | paid {rest : List PayoutBatchRecord} (here : s.At pid (.reconcileConfirm batch rest)) :
      Closes s pid batch db (.reconcilePaid batch rest)
  | cancel {env : Env} (here : s.At pid (.cancelUpdate batch))
      (succeeded : (Write.markCancelled batch.batchId).exec env.now s.db = .ok (true, db)) :
      Closes s pid batch db (.cancelUnlock batch)

/-- A process comes to close a batch by the write that ends it. -/
theorem arrives_closing {pid : Nat} {pc' : Pc} {batch : PayoutBatchRecord}
    (stepped : Stepped cfg s e s') (arrives : Arrives cfg s pid e pc')
    (closes : pc'.closesBatch = some batch) :
    (∃ env, e = .run pid env ∧ pid ∉ s.severed) ∧ Closes s pid batch s'.db pc' := by
  cases arrives with
  | @spawned entry _ => cases entry <;> cases closes
  | read _ _ next => rw [(read_holds next).2.1] at closes; cases closes
  | @wrote env pc pc' w updated db here writes committed next alive =>
      refine ⟨⟨env, rfl, alive⟩, ?_⟩
      cases pc with
      | markFailed caller _ => cases next; cases closes; exact .unlock here
      | reconcileConfirm _ rest => cases next; cases closes; exact .paid here
      | cancelUpdate held =>
          simp only [Pc.afterWrite] at next
          split at next
          · rename_i succeeded
            cases next
            cases closes
            cases writes
            subst succeeded
            rcases write_step stepped here rfl with ⟨updated, db', again, rfl⟩ | ⟨⟨err, refused⟩, -⟩
            · rw [committed] at again
              cases again
              rw [State.resume_db]
              exact .cancel here committed
            · rw [committed] at refused; cases refused
          · cases next
      | unlock caller _ => cases caller <;> cases next <;> cases closes
      | _ => cases next <;> cases closes

end CsdPool.Payout
