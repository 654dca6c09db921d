/-
# Payout.Closing — the closing entries of an ended batch

A batch is set to `confirmed`, `failed` or `cancelled` in one transaction and its
`payout_sent` or `payout_failed_unlock` entries are appended in the next one.  No
worker lists ended batches, so if the run in between is lost the entries are
never written and the recipients' amounts stay locked (`closing_lost`).

`Closing s pid r` says that the run `pid` stands right before the closing
transaction of row `r`.  If no crash takes the last such run away, and no update of a dead process
ends a batch, every ended batch is closed or about to be closed by a live run's next step
(`closing_pending`).  When all of them are, what a miner still has locked is owed to him by batches
that go on (`unlocked_of_recorded`); both together are `closing_survives`.
-/
import CsdPool.Payout.LockedFunds

namespace CsdPool.Payout

open Theory (Keyed Table Machine)

set_option autoImplicit false

variable {cfg : Config} {s s' : State} {e : Event}

/-- The kind of the closing entries that belong to an end state. -/
def closingKind : PayoutStatus → Option LedgerKind
  | .confirmed => some .payoutSent
  | .failed | .cancelled => some .payoutFailedUnlock
  | _ => none

/-- Every recipient of the batch has the closing entry of its status, with his amount. -/
def Closed (s : State) (r : PayoutBatchRow) : Prop :=
  ∀ kind, closingKind r.status = some kind → ∀ recipient ∈ s.db.recipientsOf r.id,
    ∃ x, s.db.books.ledgerEntries.find? ⟨some recipient.miner, kind, "payout_batch", r.id⟩ =
      some x ∧ x.amountBaseUnits = closingAmount kind recipient.amountBaseUnits

/-- The batch of a recipient is stored and not in an end state. -/
def goesOn (s : State) (row : PayoutRecipientRow) : Bool :=
  (s.statusOf row.batchId).any fun status => !ended status

/-- No miner has more locked than the batches that go on owe him. -/
def NothingLeftLocked (s : State) : Prop :=
  ∀ miner, (s.db.books.balance miner).lockedBaseUnits ≤
    amountOf miner (goesOn s) s.db.payoutRecipients

/-- Every ended batch is closed in some future, and in some future all of them are closed and
nothing of theirs is left in `locked_base_units`. -/
structure ClosingSurvives (cfg : Config) (s : State) : Prop where
  each : ∀ id r, s.db.payoutBatches.find? id = some r → ended r.status = true →
    ∃ t, ((payoutMachine cfg).startingAt s).Reachable t ∧ Closed t r
  unlocked : ∃ t, ((payoutMachine cfg).startingAt s).Reachable t ∧
    (∀ id r, s.db.payoutBatches.find? id = some r → ended r.status = true → Closed t r) ∧
    NothingLeftLocked t

/-- The next transaction of the run `pid` closes `r`. -/
def Closing (s : State) (pid : Nat) (r : PayoutBatchRow) : Prop :=
  ∃ pc batch, s.At pid pc ∧ pc.closesBatch = some batch ∧ batch.batchId = r.id ∧
    pc.closesAs r.status

/-- The update at `pc` ends `r`. -/
def Pc.ends (r : PayoutBatchRow) : Pc → Bool
  | .reconcileConfirm batch _ =>
      decide (r.id = batch.batchId) && [.submitted, .signed].contains r.status
  | .markFailed _ batch => decide (r.id = batch.batchId) && !ended r.status
  | .cancelUpdate batch => decide (r.id = batch.batchId) && Db.cancellable.contains r.status
  | _ => false

/-- What a step must not do, for ended batches to be closed. -/
structure ClosingSafe (s : State) (e : Event) : Prop where
  /-- A crash between the two transactions leaves a closed batch, or another run that closes it. -/
  crash : ∀ pid, e = .crash pid → ∀ id r, s.db.payoutBatches.find? id = some r →
    Closing s pid r → Closed s r ∨ ∃ pid', pid' ≠ pid ∧ Closing s pid' r
  /-- The update of a dead process ends no batch: nobody goes on to the second transaction. -/
  late : ∀ pid env pc, e = .run pid env → pid ∈ s.severed → s.At pid pc →
    ∀ id r, s.db.payoutBatches.find? id = some r → pc.ends r = false
  fits : AmountsFit s e

theorem closesBatch_writes {pc : Pc} {batch : PayoutBatchRecord}
    (closes : pc.closesBatch = some batch) :
    ∃ w entries, pc.write = some w ∧ w.closing = some entries := by
  cases pc with
  | unlock _ _ => exact ⟨_, _, rfl, rfl⟩
  | cancelUnlock _ => exact ⟨_, _, rfl, rfl⟩
  | reconcilePaid _ _ => exact ⟨_, _, rfl, rfl⟩
  | _ => cases closes

/-! ## The entries of one batch -/

/-- Every recipient has the closing entry of the status. -/
def Recorded (s : State) (r : PayoutBatchRow) : Prop :=
  ∀ kind, closingKind r.status = some kind → ∀ recipient ∈ s.db.recipientsOf r.id,
    s.db.books.ledgerEntries.find? ⟨some recipient.miner, kind, "payout_batch", r.id⟩ ≠ none

theorem Closed.recorded {r : PayoutBatchRow} (closed : Closed s r) : Recorded s r := by
  intro kind kindEq recipient member
  obtain ⟨x, hit, -⟩ := closed kind kindEq recipient member
  rw [hit]
  exact Option.some_ne_none x

theorem closes_closingKind {status : PayoutStatus} {kind : LedgerKind}
    (is : closingKind status = some kind) : closes kind = true := by
  cases status <;> cases is <;> rfl

/-- The amount of an entry under a recipient's key is his: the key names him and his batch. -/
theorem Recorded.closed {r : PayoutBatchRow} (entered : Recorded s r) (matched : EntriesMatch s) :
    Closed s r := by
  intro kind kindEq recipient member
  obtain ⟨x, hit⟩ := Option.ne_none_iff_exists'.1 (entered kind kindEq recipient member)
  refine ⟨x, hit, ?_⟩
  have key : x.ledgerKey = ⟨some recipient.miner, kind, "payout_batch", r.id⟩ :=
    Table.key_of_find? hit
  have xKind : x.kind = kind := congrArg LedgerKey.kind key
  obtain ⟨row, stored, rowKey, amount⟩ :=
    matched x (Table.mem_of_find? hit) (xKind ▸ closes_closingKind kindEq)
  obtain ⟨inRows, id⟩ := Db.mem_recipientsOf.1 member
  rw [key, xKind] at rowKey
  simp only [closingKey, LedgerKey.mk.injEq, Option.some.injEq] at rowKey
  have own : row = recipient := by
    have foundRow := Table.find?_of_mem stored
    have keys : Keyed.key row = Keyed.key recipient :=
      Prod.ext (rowKey.2.2.2.symm.trans id.symm) rowKey.1.symm
    rw [keys, Table.find?_of_mem inRows] at foundRow
    exact (Option.some.inj foundRow).symm
  rw [amount, xKind, own]

theorem Recorded.step {r : PayoutBatchRow} (closed : Recorded s r) (stepped : Stepped cfg s e s')
    (found : s.db.payoutBatches.find? r.id = some r) : Recorded s' r := by
  intro kind kindEq recipient member
  rw [recipients_step stepped found] at member
  have old := closed kind kindEq recipient member
  obtain ⟨x, hit⟩ := Option.ne_none_iff_exists'.1 old
  obtain ⟨inLedger, same⟩ := Table.find?_eq_some_iff.1 hit
  exact Option.ne_none_iff_exists'.2
    ⟨x, Table.find?_eq_some_iff.2 ⟨(ledger_step stepped).1 x inLedger, same⟩⟩

/-- **The closing transaction closes.**  It cannot fail by itself. -/
theorem closing_step (reached : (payoutMachine cfg).Reachable s) {pid : Nat} {r : PayoutBatchRow}
    (found : s.db.payoutBatches.find? r.id = some r) (closing : Closing s pid r) (env : Env)
    (stepped : Stepped cfg s (.run pid env) s') : Recorded s' r := by
  obtain ⟨pc, batch, here, closes, id, fits⟩ := closing
  obtain ⟨r', held⟩ := held_known reached pid pc here batch (closesBatch_held closes)
  obtain ⟨legalUnlock, legalPaid⟩ := closing_legal (recipients_legal reached) held
  obtain ⟨w, entries, writes, isClosing⟩ := closesBatch_writes closes
  obtain ⟨batch', closes', shape⟩ := closing_entries writes isClosing
  rw [closes] at closes'
  cases closes'
  have legal : ∀ entry ∈ entries, Books.LegalMiner entry := by
    rcases shape with ⟨rfl, -⟩ | ⟨rfl, -⟩
    · exact legalUnlock
    · exact legalPaid
  have committed : ∃ books, s.db.books.appendLedgerEntries entries = .ok books ∧
      s'.db = { s.db with books } := by
    rcases write_step stepped here writes with ⟨updated, db, done, rfl⟩ | ⟨⟨err, refused⟩, -⟩
    · obtain ⟨books, appended, rfl⟩ := exec_closing isClosing done
      exact ⟨books, appended, State.resume_db ..⟩
    · obtain ⟨updated, db, done⟩ := exec_closing_total env.now s.db isClosing legal
      rw [done] at refused
      cases refused
  obtain ⟨books, appended, stored⟩ := committed
  intro kind kindEq recipient member
  rw [recipients_step stepped found, ← id] at member
  have inBatch : (⟨recipient.miner, recipient.address, recipient.amountBaseUnits⟩ :
      PayoutRecipient) ∈ batch.recipients := by
    rw [held.recipients]
    exact List.mem_map_of_mem member
  have present := Books.appendLedgerEntries_present appended
  rw [stored, ← id]
  rcases shape with ⟨rfl, given⟩ | ⟨rfl, confirmed⟩
  · have unlocks : kind = .payoutFailedUnlock := by
      rcases given _ fits with h | h <;> rw [h] at kindEq <;> cases kindEq <;> rfl
    rw [unlocks]
    exact present _ (List.mem_map_of_mem inBatch)
  · have pays : kind = .payoutSent := by
      rw [confirmed _ fits] at kindEq
      cases kindEq
      rfl
    rw [pays]
    exact present _ (List.mem_map_of_mem inBatch)

/-! ## Every ended batch is closed or about to be -/

def ClosingKnown (s : State) : Prop :=
  ∀ id r, s.db.payoutBatches.find? id = some r → ended r.status = true →
    Recorded s r ∨ ∃ pid, Closing s pid r

theorem Closing.stays {pid : Nat} {r : PayoutBatchRow} (closing : Closing s pid r)
    (stepped : Stepped cfg s e s') (notRun : ∀ env, e ≠ .run pid env)
    (notCrash : e ≠ .crash pid) : Closing s' pid r := by
  obtain ⟨pc, batch, here, rest⟩ := closing
  exact ⟨pc, batch, Payout.stays stepped here notRun notCrash, rest⟩

/-- The run that ended a batch goes on to its closing transaction, if it is alive. -/
theorem ended_by {r r' : PayoutBatchRow} (stepped : Stepped cfg s e s')
    (found : s.db.payoutBatches.find? r.id = some r) (change : RowChange s e r r')
    (open_ : ended r.status ≠ true) (final : ended r'.status = true)
    (alive : ∀ pid env pc, e = .run pid env → s.At pid pc → pc.ends r = true → pid ∉ s.severed) :
    ∃ pid, Closing s' pid r' := by
  cases change with
  | same => exact absurd final open_
  | approved _ _ => cases final
  | signed _ _ _ _ => cases final
  | submitted _ _ _ _ => cases final
  | @confirmed pid env batch rest is here id source =>
      subst is
      have goes := alive pid env _ rfl here (by
        rcases source with h | h <;> simp [Pc.ends, id, h])
      rcases write_step stepped here rfl with ⟨updated, db, -, rfl⟩ | ⟨⟨err, refused⟩, -⟩
      · exact ⟨pid, _, batch, State.at_resume.2 (.inl ⟨rfl, State.onward_some.2 ⟨goes, rfl⟩⟩), rfl,
          id.symm, rfl⟩
      · cases refused
  | @failed pid env caller batch is here id _ =>
      subst is
      have goes := alive pid env _ rfl here (by simpa [Pc.ends, id] using open_)
      rcases write_step stepped here rfl with ⟨updated, db, -, rfl⟩ | ⟨⟨err, refused⟩, -⟩
      · exact ⟨pid, _, batch, State.at_resume.2 (.inl ⟨rfl, State.onward_some.2 ⟨goes, rfl⟩⟩), rfl,
          id.symm, .inl rfl⟩
      · cases refused
  | @cancelled pid env batch is here id source =>
      subst is
      have goes := alive pid env _ rfl here (by simpa [Pc.ends, id] using source)
      rcases write_step stepped here rfl with ⟨updated, db, committed, rfl⟩ | ⟨⟨err, refused⟩, -⟩
      · have succeeded : updated = true := by
          have both : s.db.markPayoutCancelled batch.batchId = (updated, db) :=
            Except.ok.inj committed
          have flag : (s.db.markPayoutCancelled batch.batchId).1 = updated := by rw [both]
          rw [← flag, Db.markPayoutCancelled, Db.updatePayoutBatch_fst, ← id, found]
          simpa using source
        subst succeeded
        exact ⟨pid, _, batch, State.at_resume.2 (.inl ⟨rfl, State.onward_some.2 ⟨goes, rfl⟩⟩), rfl,
          id.symm, rfl⟩
      · cases refused

theorem closing_known (reached : (payoutMachine cfg).Reaches ClosingSafe s) : ClosingKnown s := by
  refine reached.invariant (I := ClosingKnown) ?_ ?_
  · rintro s rfl id r found
    cases found
  · intro s e s' before known safe step id r' found' final
    have stepped := step_stepped step
    rcases row_before stepped found' with ⟨r, found, change⟩ | inserted
    · have same : r.id = id := Table.key_of_find? found
      subst same
      by_cases wasFinal : ended r.status = true
      · have frozen := change.frozen wasFinal
        subst frozen
        rcases known _ _ found wasFinal with closed | ⟨pid, closing⟩
        · exact .inl (closed.step stepped found)
        · by_cases moved : ∃ env, e = .run pid env
          · obtain ⟨env, rfl⟩ := moved
            exact .inl (closing_step before.reachable found closing env stepped)
          · have notRun : ∀ env, e ≠ .run pid env := fun env is => moved ⟨env, is⟩
            by_cases crashed : e = .crash pid
            · rcases safe.crash pid crashed _ _ found closing with closed | ⟨pid', other, again⟩
              · exact .inl (closed.recorded.step stepped found)
              · refine .inr ⟨pid', again.stays stepped ?_ ?_⟩
                · intro env is; rw [crashed] at is; cases is
                · intro is; rw [crashed] at is; cases is; exact other rfl
            · exact .inr ⟨pid, closing.stays stepped notRun crashed⟩
      · refine .inr (ended_by stepped found change wasFinal final ?_)
        intro pid env pc is here ends gone
        rw [safe.late pid env pc is gone here _ _ found] at ends
        cases ends
    · rcases inserted.status before.reachable with h | h <;> rw [h] at final <;> cases final

/-- The closing transaction can be taken, is safe and leaves the batches alone. -/
theorem closing_run (reached : (payoutMachine cfg).Reaches ClosingSafe s) {pid : Nat}
    {r : PayoutBatchRow} (found : s.db.payoutBatches.find? r.id = some r)
    (closing : Closing s pid r) (env : Env) :
    ∃ t, (payoutMachine cfg).step s (.run pid env) = some t ∧ ClosingSafe s (.run pid env) ∧
      t.db.payoutBatches = s.db.payoutBatches ∧ Recorded t r := by
  obtain ⟨pc, batch, here, closes, rest⟩ := closing
  obtain ⟨w, entries, writes, isClosing⟩ := closesBatch_writes closes
  obtain ⟨t, step⟩ : ∃ t, (payoutMachine cfg).step s (.run pid env) = some t := by
    show ∃ t, State.step cfg s (.run pid env) = some t
    simp only [State.step, show s.procs.find? pid = some ⟨pid, pc⟩ from here, State.runProc,
      writes]
    split
    · exact ⟨_, rfl⟩
    · exact ⟨_, rfl⟩
  have stepped := step_stepped step
  refine ⟨t, step, ⟨?_, ?_, ?_⟩, ?_, closing_step reached.reachable found
    ⟨pc, batch, here, closes, rest⟩ env stepped⟩
  · intro _ is
    cases is
  · rintro pid' env' pc' is - there id r' -
    cases is
    rw [show pc' = pc from State.at_unique there here]
    cases pc <;> first | rfl | cases closes
  · rintro pid' env' pc' draft status is there inserts
    cases is
    rw [State.at_unique there here, writes] at inserts
    cases inserts
    cases isClosing
  · rcases write_step stepped here writes with ⟨updated, db, done, rfl⟩ | ⟨-, rfl⟩
    · obtain ⟨books, -, rfl⟩ := exec_closing isClosing done
      rw [State.resume_db]
    · rfl

/-- **Closed, or closed by the next step of a live run**, whatever that step is answered. -/
theorem closing_pending (reached : (payoutMachine cfg).Reaches ClosingSafe s)
    {r : PayoutBatchRow} (found : s.db.payoutBatches.find? r.id = some r)
    (final : ended r.status = true) :
    Recorded s r ∨ ∃ pid, ∀ env, ∃ t, (payoutMachine cfg).step s (.run pid env) = some t ∧
      ClosingSafe s (.run pid env) ∧ t.db.payoutBatches = s.db.payoutBatches ∧ Recorded t r :=
  (closing_known reached _ _ found final).imp_right fun ⟨pid, closing⟩ =>
    ⟨pid, closing_run reached found closing⟩

/-! ## All of them -/

/-- One batch after the other is closed, and no batch changes on the way. -/
theorem close_all (reached : (payoutMachine cfg).Reaches ClosingSafe s)
    (batches : List PayoutBatchRow)
    (endedRows : ∀ r ∈ batches, s.db.payoutBatches.find? r.id = some r ∧ ended r.status = true) :
    ∃ t, ((payoutMachine cfg).startingAt s).Reachable t ∧
      (payoutMachine cfg).Reaches ClosingSafe t ∧ t.db.payoutBatches = s.db.payoutBatches ∧
      ∀ r ∈ batches, Recorded t r := by
  induction batches with
  | nil => exact ⟨s, .start rfl, reached, rfl, fun r none => by cases none⟩
  | cons r rest ih =>
      obtain ⟨t, later, safe, kept, entered⟩ :=
        ih fun r' member => endedRows r' (List.mem_cons_of_mem _ member)
      have stored : ∀ r' ∈ r :: rest, t.db.payoutBatches.find? r'.id = some r' ∧
          ended r'.status = true := fun r' member => kept ▸ endedRows r' member
      obtain ⟨found, final⟩ := stored r (List.mem_cons_self ..)
      rcases closing_pending safe found final with closed | ⟨pid, next⟩
      · refine ⟨t, later, safe, kept, fun r' member => ?_⟩
        rcases List.mem_cons.1 member with rfl | member
        · exact closed
        · exact entered r' member
      · obtain ⟨u, step, allowed, same, closed⟩ := next {}
        have onward : ((payoutMachine cfg).startingAt s).step t (.run pid {}) = some u := step
        refine ⟨u, later.next trivial onward, safe.next allowed step, same.trans kept,
          fun r' member => ?_⟩
        rcases List.mem_cons.1 member with rfl | inRest
        · exact closed
        · exact (entered r' inRest).step (step_stepped step) (stored r' member).1

/-- **What is locked then is owed by batches that go on.** -/
theorem unlocked_of_recorded (reached : (payoutMachine cfg).Reaches ClosingSafe s)
    (entered : ∀ r, s.db.payoutBatches.find? r.id = some r → ended r.status = true →
      Recorded s r) : NothingLeftLocked s := by
  intro miner
  have backed := locked_backed (reached.mono fun _ _ safe => safe.fits) miner
  refine backed.trans (Int.ofNat_le.2 (amountOf_mono fun row stored unreleased => ?_))
  obtain ⟨r, found⟩ :=
    Option.ne_none_iff_exists'.1 (recipients_owned reached.reachable row stored)
  have id : r.id = row.batchId := Table.key_of_find? found
  rw [goesOn, State.statusOf, found]
  cases final : ended r.status with
  | false => simp [final]
  | true =>
      obtain ⟨kind, kindEq⟩ : ∃ kind, closingKind r.status = some kind := by
        cases status : r.status <;> rw [status] at final <;> first | exact ⟨_, rfl⟩ | cases final
      have present := entered r (id ▸ found) final kind kindEq row
        (Db.mem_recipientsOf.2 ⟨stored, id.symm⟩)
      rw [id] at present
      have done : released s.db.books row = true :=
        released_of_found (closes_closingKind kindEq) present
      rw [done] at unreleased
      cases unreleased

/-- **No ended batch is left open**, and nothing stays locked for one, if no crash takes away the
last run that closes a batch, no update of a dead process ends one and the amounts fit. -/
theorem closing_survives (cfg : Config) (s : State)
    (reached : (payoutMachine cfg).Reaches ClosingSafe s) : ClosingSurvives cfg s := by
  have stored {r : PayoutBatchRow} (member : r ∈ s.db.payoutBatches.rows) :
      s.db.payoutBatches.find? r.id = some r := Table.find?_of_mem member
  obtain ⟨t, later, safe, kept, entered⟩ := close_all reached
    (s.db.payoutBatches.rows.filter fun r => ended r.status)
    (fun r member => ⟨stored (List.mem_of_mem_filter member), (List.mem_filter.1 member).2⟩)
  have matched := entries_match (safe.mono fun _ _ safe => safe.fits)
  have all : ∀ id r, s.db.payoutBatches.find? id = some r → ended r.status = true →
      Recorded t r := fun id r found final =>
    entered r (List.mem_filter.2 ⟨Table.mem_of_find? found, final⟩)
  refine ⟨fun id r found final => ⟨t, later, (all id r found final).closed matched⟩, t, later,
    fun id r found final => (all id r found final).closed matched,
    unlocked_of_recorded safe fun r found final => all r.id r (kept ▸ found) final⟩

/-! ## A lost closing transaction -/

/-- A confirmed batch without `payout_sent` entries that no reconcile run holds. -/
structure Lost (id : String) (s : State) : Prop where
  confirmed : ∃ r, s.db.payoutBatches.find? id = some r ∧ r.status = .confirmed
  unpaid : ∀ x ∈ s.db.books.ledgerEntries.rows, x.kind = .payoutSent → x.refId ≠ id
  dropped : ∀ pid pc, s.At pid pc → pc.worker = .reconcile →
    ∀ b ∈ pc.holds, b.batchId ≠ id

theorem Lost.step {id : String} (lost : Lost id s) (stepped : Stepped cfg s e s') :
    Lost id s' := by
  refine ⟨?_, ?_, ?_⟩
  · exact ended_kept (P := (· = .confirmed)) (by rintro _ rfl; rfl) stepped lost.confirmed
  · intro x member kind
    rcases (ledger_step stepped).2 x member with old | entered
    · exact lost.unpaid x old kind
    · cases entered with
      | rewarded outside => rw [kind] at outside; cases outside
      | locked lock => rw [kind] at lock; cases lock
      | @closed pid env pc w entries is here writes closes inEntries =>
          cases pc with
          | reconcilePaid batch rest =>
              cases writes
              cases closes
              rw [(mem_paidEntries inEntries).2]
              exact lost.dropped pid _ here rfl batch (List.mem_cons_self ..)
          | unlock _ _ =>
              cases writes
              cases closes
              rw [(mem_unlockEntries inEntries).1] at kind
              cases kind
          | cancelUnlock _ =>
              cases writes
              cases closes
              rw [(mem_unlockEntries inEntries).1] at kind
              cases kind
          | _ => cases writes <;> cases closes
  · intro pid pc' there worker b holds same
    rcases held_step stepped there holds with ⟨pc, here, worker', before⟩ | ⟨-, listed⟩
    · exact lost.dropped pid pc here (worker'.trans worker) b before same
    · obtain ⟨row, found, status, -⟩ := listed
      obtain ⟨r, found', confirmed⟩ := lost.confirmed
      rw [same, found'] at found
      cases found
      rw [worker, confirmed] at status
      simp [Worker.lists] at status

theorem Lost.forever {id : String} {t : State} (lost : Lost id s)
    (later : ((payoutMachine cfg).startingAt s).Reachable t) : Lost id t := by
  refine later.invariant (I := Lost id) ?_ ?_
  · rintro _ rfl
    exact lost
  · intro u e u' _ lostU _ step
    exact lostU.step (step_stepped step)

/-- A test that nothing dies and that the amounts of a new batch fit. -/
def undisturbed (s : State) (e : Event) : Bool :=
  match e with
  | .crash _ | .sever _ => false
  | .run _ _ => s.severed.isEmpty &&
      match (s.running e).bind Pc.write with
      | some (.createLocked draft _) =>
          draft.recipients.all fun recipient => decide (recipient.amountBaseUnits < 2 ^ 127)
      | _ => true
  | _ => true

theorem ClosingSafe.of_test (steady : undisturbed s e = true) : ClosingSafe s e := by
  refine ⟨?_, ?_, ?_⟩
  · rintro pid rfl
    cases steady
  · rintro pid env pc rfl gone
    simp only [undisturbed, Bool.and_eq_true, List.isEmpty_iff] at steady
    rw [steady.1] at gone
    cases gone
  · rintro pid env pc draft status rfl here writes recipient inDraft
    simp only [undisturbed, running_of_at here, Option.bind_some, writes, Bool.and_eq_true,
      List.all_eq_true, decide_eq_true_eq] at steady
    exact steady.2 recipient inDraft

def idle (s : State) : Bool := s.procs.rows.isEmpty

/-- The reconcile run stops right after `mark_payout_confirmed`. -/
def lostRun : List Event :=
  Sample.funded 100 ++ Sample.create 0 "p" ++ Sample.sign 1 ++ Sample.submit 2 ++
    [.spawn 3 .reconcilePayouts, .run 3 {}, .run 3 (Sample.answered "confirmed" 1), .run 3 {}]

def confirmedUnpaid (id : String) (s : State) : Bool :=
  decide (s.statusOf id = some .confirmed) && !(s.db.recipientsOf id).isEmpty &&
    (s.db.books.ledgerEntries.rows.all fun x => !decide (x.kind = .payoutSent))

theorem lost_of_idle {id : String} (quiet : idle s = true) (open_ : confirmedUnpaid id s = true) :
    Lost id s ∧ ∃ recipient, recipient ∈ s.db.recipientsOf id := by
  simp only [confirmedUnpaid, Bool.and_eq_true, decide_eq_true_eq, Bool.not_eq_true',
    List.isEmpty_eq_false_iff_exists_mem, List.all_eq_true, decide_eq_false_iff_not] at open_
  obtain ⟨⟨confirmed, recipient⟩, unpaid⟩ := open_
  refine ⟨⟨?_, fun x member kind => absurd kind (unpaid x member), ?_⟩, recipient⟩
  · unfold State.statusOf at confirmed
    obtain ⟨r, found, status⟩ := Option.map_eq_some_iff.1 confirmed
    exact ⟨r, found, status⟩
  · intro pid pc here
    have gone : s.procs.rows = [] := List.isEmpty_iff.1 quiet
    obtain ⟨member, -⟩ := Table.find?_eq_some_iff.1 here
    rw [gone] at member
    cases member

theorem Lost.notClosed {id : String} {t : State} (lost : Lost id t) {r : PayoutBatchRow}
    (found : t.db.payoutBatches.find? id = some r)
    (recipients : ∃ recipient, recipient ∈ t.db.recipientsOf id) : ¬ Closed t r := by
  intro closed
  obtain ⟨r', found', confirmed⟩ := lost.confirmed
  rw [found] at found'
  cases found'
  have same : r.id = id := Table.key_of_find? found
  obtain ⟨recipient, member⟩ := recipients
  obtain ⟨x, hit, -⟩ := closed .payoutSent (by rw [confirmed]; rfl) recipient (same ▸ member)
  obtain ⟨inLedger, key⟩ := Table.find?_eq_some_iff.1 hit
  simp only [Keyed.key, LedgerEntry.ledgerKey, LedgerKey.mk.injEq] at key
  exact lost.unpaid x inLedger key.2.1 (key.2.2.2.trans same)

theorem recipients_forever {id : String} {r : PayoutBatchRow} {t : State}
    (found : s.db.payoutBatches.find? id = some r)
    (later : ((payoutMachine cfg).startingAt s).Reachable t) :
    t.db.recipientsOf id = s.db.recipientsOf id := by
  refine (later.invariant (I := fun u => (∃ r, u.db.payoutBatches.find? id = some r) ∧
    u.db.recipientsOf id = s.db.recipientsOf id) ?_ ?_).2
  · rintro _ rfl
    exact ⟨⟨r, found⟩, rfl⟩
  · rintro u e u' _ ⟨⟨r, present⟩, same⟩ _ step
    have stepped := step_stepped step
    obtain ⟨r', present', -⟩ := row_step stepped present
    exact ⟨⟨r', present'⟩, (recipients_step stepped present).trans same⟩

/-- Killed between `mark_payout_confirmed` and `mark_payout_paid`: in no future does the batch
get its `payout_sent` entries. -/
theorem closing_lost : ∃ s, (payoutMachine Sample.config).Reachable s ∧
    ¬ ClosingSurvives Sample.config s := by
  obtain ⟨s, reached, stopped⟩ := Machine.exists_of_run (payoutMachine Sample.config)
    (s := .initial) rfl (lostRun ++ [.crash 3]) (fun s => idle s && confirmedUnpaid "p" s)
    (by decide +kernel)
  rw [Bool.and_eq_true] at stopped
  obtain ⟨lost, recipients⟩ := lost_of_idle stopped.1 stopped.2
  refine ⟨s, reached, fun survives => ?_⟩
  obtain ⟨r, found, confirmed⟩ := lost.confirmed
  obtain ⟨t, later, closed⟩ := survives.each "p" r found (by rw [confirmed]; rfl)
  have lostT : Lost "p" t := lost.forever later
  obtain ⟨r', found', confirmed'⟩ := lostT.confirmed
  have frozen : t.db.payoutBatches.find? "p" = some r := by
    refine later.invariant (I := fun u => u.db.payoutBatches.find? "p" = some r) ?_ ?_
    · rintro _ rfl
      exact found
    · intro u e u' _ stored _ step
      obtain ⟨v, foundV, change⟩ := row_step (step_stepped step) stored
      rw [foundV, change.frozen (by rw [confirmed]; rfl)]
  exact lostT.notClosed frozen (by rw [recipients_forever found later]; exact recipients) closed

/-- No crash at all: the run that confirmed the batch is still there to pay it. -/
theorem closing_survives_confirmed :
    ∃ s, ClosingSurvives Sample.config s ∧ confirmedUnpaid "p" s = true := by
  obtain ⟨s, reached, open_⟩ := Machine.exists_of_runUnder (payoutMachine Sample.config)
    (fun s e => undisturbed s e = true) (s := .initial) rfl lostRun (confirmedUnpaid "p")
    (by decide +kernel)
  exact ⟨s, closing_survives _ s (reached.mono fun _ _ => ClosingSafe.of_test), open_⟩

end CsdPool.Payout
