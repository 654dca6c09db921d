/-
# Payout.Exclusivity — one outcome for one batch

`mark_payout_failed` and `mark_payout_confirmed` are conditional updates, but
`sign`, `submit` and `reconcile` append the closing entries whatever they
returned (`cancel_payout` alone looks at the flag).  Two reconcile runs that were
told different things about one transaction therefore write `payout_sent` and
`payout_failed_unlock` for the same recipient (`outcomes_mix`).  As long as no
run marks failed a batch that is stored confirmed, or confirmed one that is
stored failed, the ledger has one outcome per batch and it is the stored one
(`outcomes_exclusive`).
-/
import CsdPool.Payout.Invariants

namespace CsdPool.Payout

open Theory (Keyed Table Machine)

set_option autoImplicit false

variable {cfg : Config} {s s' : State} {e : Event}

/-- The closing entries of a ledger agree with each other and with the stored statuses. -/
structure Exclusive (s : State) : Prop where
  once : ∀ x ∈ s.db.books.ledgerEntries.rows, ∀ y ∈ s.db.books.ledgerEntries.rows,
    x.kind = .payoutSent → y.kind = .payoutFailedUnlock → x.refId = y.refId → x.miner ≠ y.miner
  sent : ∀ x ∈ s.db.books.ledgerEntries.rows, x.kind = .payoutSent →
    s.statusOf x.refId = some .confirmed
  unlocked : ∀ x ∈ s.db.books.ledgerEntries.rows, x.kind = .payoutFailedUnlock →
    s.statusOf x.refId = some .failed ∨ s.statusOf x.refId = some .cancelled

/-- The step marks no batch with the outcome opposite to the stored one. -/
def OutcomeAgrees (s : State) (e : Event) : Prop :=
  match s.running e with
  | some (.markFailed _ batch) => s.statusOf batch.batchId ≠ some .confirmed
  | some (.reconcileConfirm batch _) => s.statusOf batch.batchId ≠ some .failed
  | _ => True

/-- The condition as a test, for runs that are evaluated. -/
def OutcomeAgrees.holds (s : State) (e : Event) : Bool :=
  match s.running e with
  | some (.markFailed _ batch) => decide (s.statusOf batch.batchId ≠ some .confirmed)
  | some (.reconcileConfirm batch _) => decide (s.statusOf batch.batchId ≠ some .failed)
  | _ => true

theorem OutcomeAgrees.holds_iff {s : State} {e : Event} :
    OutcomeAgrees.holds s e = true ↔ OutcomeAgrees s e := by
  unfold OutcomeAgrees.holds OutcomeAgrees
  split
  · exact decide_eq_true_iff
  · exact decide_eq_true_iff
  · exact iff_of_true rfl trivial

instance (s : State) (e : Event) : Decidable (OutcomeAgrees s e) :=
  decidable_of_iff _ OutcomeAgrees.holds_iff

theorem OutcomeAgrees.failed {pid : Nat} {env : Env} {caller : Caller}
    {batch : PayoutBatchRecord} (agrees : OutcomeAgrees s (.run pid env))
    (here : s.At pid (.markFailed caller batch)) :
    s.statusOf batch.batchId ≠ some .confirmed := by
  unfold OutcomeAgrees at agrees
  rw [running_of_at here] at agrees
  exact agrees

theorem OutcomeAgrees.confirmed {pid : Nat} {env : Env} {batch : PayoutBatchRecord}
    {rest : List PayoutBatchRecord} (agrees : OutcomeAgrees s (.run pid env))
    (here : s.At pid (.reconcileConfirm batch rest)) :
    s.statusOf batch.batchId ≠ some .failed := by
  unfold OutcomeAgrees at agrees
  rw [running_of_at here] at agrees
  exact agrees

/-- The stored status under which a program counter may append closing entries. -/
def Pc.closesAs : Pc → PayoutStatus → Prop
  | .unlock _ _, status => status = .failed ∨ status = .cancelled
  | .cancelUnlock _, status => status = .cancelled
  | .reconcilePaid _ _, status => status = .confirmed
  | _, _ => True

/-- Every closing entry goes with the status its batch has, and every process that is about to write
some with the status it has come to. -/
structure ClosingSound (s : State) : Prop where
  runs : ∀ pid pc batch, s.At pid pc → pc.closesBatch = some batch →
    ∃ r, s.db.payoutBatches.find? batch.batchId = some r ∧ pc.closesAs r.status
  sent : ∀ x ∈ s.db.books.ledgerEntries.rows, x.kind = .payoutSent →
    ∃ r, s.db.payoutBatches.find? x.refId = some r ∧ r.status = .confirmed
  unlocked : ∀ x ∈ s.db.books.ledgerEntries.rows, x.kind = .payoutFailedUnlock →
    ∃ r, s.db.payoutBatches.find? x.refId = some r ∧
      (r.status = .failed ∨ r.status = .cancelled)

/-- A batch is closed only once it has ended. -/
theorem closesAs_ended {pc : Pc} {batch : PayoutBatchRecord} {status : PayoutStatus}
    (closes : pc.closesBatch = some batch) (fits : pc.closesAs status) : ended status = true := by
  cases pc with
  | unlock _ _ => rcases fits with rfl | rfl <;> rfl
  | cancelUnlock _ => cases fits; rfl
  | reconcilePaid _ _ => cases fits; rfl
  | _ => cases closes

/-- A fact about an ended row stays. -/
theorem ended_kept {P : PayoutStatus → Prop} (ends : ∀ status, P status → ended status = true)
    {id : String} (stepped : Stepped cfg s e s')
    (known : ∃ r, s.db.payoutBatches.find? id = some r ∧ P r.status) :
    ∃ r, s'.db.payoutBatches.find? id = some r ∧ P r.status := by
  obtain ⟨r, found, fits⟩ := known
  obtain ⟨r', found', change⟩ := row_step stepped found
  exact ⟨r', found', by rw [change.frozen (ends _ fits)]; exact fits⟩

/-! ## The updates before a closing transaction -/

/-- The mark leaves the batch failed, or cancelled if it was. -/
theorem failed_stored {pid : Nat} {env : Env} {caller : Caller} {batch : PayoutBatchRecord}
    {r : PayoutBatchRow} (stepped : Stepped cfg s (.run pid env) s')
    (here : s.At pid (.markFailed caller batch))
    (found : s.db.payoutBatches.find? batch.batchId = some r) (known : RowKnown r)
    (agrees : r.status ≠ .confirmed) :
    ∃ r', s'.db.payoutBatches.find? batch.batchId = some r' ∧
      (r'.status = .failed ∨ r'.status = .cancelled) := by
  rcases write_step stepped here rfl with ⟨updated, db, committed, rfl⟩ | ⟨⟨err, refused⟩, -⟩
  · cases committed
    rw [State.resume_db]
    show ∃ r', (s.db.markPayoutFailed batch.batchId).2.payoutBatches.find? batch.batchId =
      some r' ∧ _
    rw [Db.markPayoutFailed, Db.find?_updatePayoutBatch, found]
    refine ⟨_, rfl, ?_⟩
    have notDryRun := known.notDryRun
    cases status : r.status <;> simp_all
  · cases refused

theorem confirmed_stored {pid : Nat} {env : Env} {batch : PayoutBatchRecord}
    {rest : List PayoutBatchRecord} {r : PayoutBatchRow}
    (stepped : Stepped cfg s (.run pid env) s') (here : s.At pid (.reconcileConfirm batch rest))
    (found : s.db.payoutBatches.find? batch.batchId = some r)
    (past : pastSubmitted r.status = true) (agrees : r.status ≠ .failed) :
    ∃ r', s'.db.payoutBatches.find? batch.batchId = some r' ∧ r'.status = .confirmed := by
  rcases write_step stepped here rfl with ⟨updated, db, committed, rfl⟩ | ⟨⟨err, refused⟩, -⟩
  · cases committed
    rw [State.resume_db]
    show ∃ r', (s.db.markPayoutConfirmed batch.batchId).2.payoutBatches.find? batch.batchId =
      some r' ∧ _
    rw [Db.markPayoutConfirmed, Db.find?_updatePayoutBatch, found]
    refine ⟨_, rfl, ?_⟩
    cases status : r.status <;> simp_all [pastSubmitted]
  · cases refused

theorem cancelled_stored {env : Env} {batch : PayoutBatchRecord} {db : Db}
    (committed : (Write.markCancelled batch.batchId).exec env.now s.db = .ok (true, db)) :
    ∃ r, db.payoutBatches.find? batch.batchId = some r ∧ r.status = .cancelled := by
  have both : s.db.markPayoutCancelled batch.batchId = (true, db) := Except.ok.inj committed
  have succeeded : (s.db.markPayoutCancelled batch.batchId).1 = true := by rw [both]
  have stored : db = (s.db.markPayoutCancelled batch.batchId).2 := by rw [both]
  rw [Db.markPayoutCancelled, Db.updatePayoutBatch_fst, Option.any_eq_true] at succeeded
  obtain ⟨r, found, source⟩ := succeeded
  rw [stored, Db.markPayoutCancelled, Db.find?_updatePayoutBatch, found]
  refine ⟨_, rfl, ?_⟩
  dsimp only
  rw [if_pos ⟨rfl, source⟩]

/-! ## The invariant -/

theorem closesBatch_held {pc : Pc} {batch : PayoutBatchRecord}
    (closes : pc.closesBatch = some batch) : batch ∈ pc.holds := by
  cases pc with
  | unlock _ _ => cases closes; exact List.mem_cons_self ..
  | cancelUnlock _ => cases closes; exact List.mem_cons_self ..
  | reconcilePaid _ _ => cases closes; exact List.mem_cons_self ..
  | _ => cases closes

/-- What a closing program counter appends, and under which stored status. -/
theorem closing_entries {pc : Pc} {w : Write} {entries : List LedgerEntry}
    (writes : pc.write = some w) (closes : w.closing = some entries) :
    ∃ batch, pc.closesBatch = some batch ∧
      ((entries = Db.unlockEntries batch ∧
          ∀ status, pc.closesAs status → status = .failed ∨ status = .cancelled) ∨
        (entries = Db.paidEntries batch ∧ ∀ status, pc.closesAs status → status = .confirmed)) := by
  cases pc with
  | unlock caller batch =>
      cases writes
      cases closes
      exact ⟨batch, rfl, .inl ⟨rfl, fun _ fits => fits⟩⟩
  | cancelUnlock batch =>
      cases writes
      cases closes
      exact ⟨batch, rfl, .inl ⟨rfl, fun _ fits => .inr fits⟩⟩
  | reconcilePaid batch rest =>
      cases writes
      cases closes
      exact ⟨batch, rfl, .inr ⟨rfl, fun _ fits => fits⟩⟩
  | _ => cases writes <;> cases closes

theorem mem_unlockEntries {x : LedgerEntry} {batch : PayoutBatchRecord}
    (member : x ∈ Db.unlockEntries batch) :
    x.kind = .payoutFailedUnlock ∧ x.refId = batch.batchId := by
  obtain ⟨recipient, -, rfl⟩ := List.mem_map.1 member
  exact ⟨rfl, rfl⟩

theorem mem_paidEntries {x : LedgerEntry} {batch : PayoutBatchRecord}
    (member : x ∈ Db.paidEntries batch) : x.kind = .payoutSent ∧ x.refId = batch.batchId := by
  obtain ⟨recipient, -, rfl⟩ := List.mem_map.1 member
  exact ⟨rfl, rfl⟩

theorem runs_step (reached : (payoutMachine cfg).Reachable s) (known : ClosingSound s)
    (agrees : OutcomeAgrees s e) (stepped : Stepped cfg s e s') :
    ∀ pid pc batch, s'.At pid pc → pc.closesBatch = some batch →
      ∃ r, s'.db.payoutBatches.find? batch.batchId = some r ∧ pc.closesAs r.status := by
  intro pid pc' batch there closes
  rcases at_step stepped there with ⟨before, -⟩ | arrives
  · exact ended_kept (fun _ fits => closesAs_ended closes fits) stepped
      (known.runs pid pc' batch before closes)
  · obtain ⟨⟨env, rfl, -⟩, closing⟩ := arrives_closing stepped arrives closes
    cases closing with
    | unlock here =>
        obtain ⟨r, held⟩ := held_known reached pid _ here batch (List.mem_cons_self ..)
        refine failed_stored stepped here held.found (rows_known reached _ r held.found) ?_
        simpa [State.statusOf, held.found] using agrees.failed here
    | paid here =>
        obtain ⟨r, held⟩ := held_known reached pid _ here batch (List.mem_cons_self ..)
        refine confirmed_stored stepped here held.found (held.reconcile rfl) ?_
        simpa [State.statusOf, held.found] using agrees.confirmed here
    | cancel here succeeded => exact cancelled_stored succeeded

/-- The invariant holds along every run whose marks agree with the stored outcomes. -/
theorem closing_sound (reached : (payoutMachine cfg).Reaches OutcomeAgrees s) :
    ClosingSound s := by
  refine reached.invariant (I := ClosingSound) ?_ ?_
  · rintro s rfl
    exact ⟨fun _ _ _ here => (by cases here), fun _ member => (by cases member),
      fun _ member => (by cases member)⟩
  · intro s e s' before known agrees step
    have stepped := step_stepped step
    refine ⟨runs_step before.reachable known agrees stepped, ?_, ?_⟩
    · intro x member kind
      apply ended_kept (P := (· = .confirmed)) (by rintro _ rfl; rfl) stepped
      rcases (ledger_step stepped).2 x member with old | entered
      · exact known.sent x old kind
      · cases entered with
        | rewarded outside => rw [kind] at outside; cases outside
        | locked lock => rw [kind] at lock; cases lock
        | closed is here writes closes inEntries =>
            obtain ⟨batch, closesBatch, ⟨rfl, -⟩ | ⟨rfl, confirmed⟩⟩ :=
              closing_entries writes closes
            · rw [(mem_unlockEntries inEntries).1] at kind; cases kind
            · obtain ⟨r, found, fits⟩ := known.runs _ _ batch here closesBatch
              rw [(mem_paidEntries inEntries).2]
              exact ⟨r, found, confirmed _ fits⟩
    · intro x member kind
      apply ended_kept (P := fun status => status = .failed ∨ status = .cancelled)
        (by rintro _ (rfl | rfl) <;> rfl) stepped
      rcases (ledger_step stepped).2 x member with old | entered
      · exact known.unlocked x old kind
      · cases entered with
        | rewarded outside => rw [kind] at outside; cases outside
        | locked lock => rw [kind] at lock; cases lock
        | closed is here writes closes inEntries =>
            obtain ⟨batch, closesBatch, ⟨rfl, given⟩ | ⟨rfl, -⟩⟩ := closing_entries writes closes
            · obtain ⟨r, found, fits⟩ := known.runs _ _ batch here closesBatch
              rw [(mem_unlockEntries inEntries).2]
              exact ⟨r, found, given _ fits⟩
            · rw [(mem_paidEntries inEntries).1] at kind; cases kind

/-- **One outcome per batch** in a run that never marks a batch against its stored outcome. -/
theorem outcomes_exclusive (cfg : Config) (s : State)
    (reached : (payoutMachine cfg).Reaches OutcomeAgrees s) : Exclusive s := by
  have sound := closing_sound reached
  have stored {id : String} {r : PayoutBatchRow} (found : s.db.payoutBatches.find? id = some r) :
      s.statusOf id = some r.status := by
    rw [State.statusOf, found]
    rfl
  refine ⟨?_, ?_, ?_⟩
  · intro x inX y inY sent unlocked same _
    obtain ⟨r, found, confirmed⟩ := sound.sent x inX sent
    obtain ⟨r', found', given⟩ := sound.unlocked y inY unlocked
    rw [← same, found] at found'
    cases found'
    rw [confirmed] at given
    simp at given
  · intro x member sent
    obtain ⟨r, found, confirmed⟩ := sound.sent x member sent
    rw [stored found, confirmed]
  · intro x member unlocked
    obtain ⟨r, found, given⟩ := sound.unlocked x member unlocked
    rw [stored found]
    rcases given with h | h
    · exact .inl (by rw [h])
    · exact .inr (by rw [h])

def hasEntry (kind : LedgerKind) (batchId : String) (s : State) : Bool :=
  s.db.books.ledgerEntries.contains ⟨some Sample.miner, kind, "payout_batch", batchId⟩

/-- Two reconcile runs, both told that the transaction confirmed. -/
theorem outcomes_exclusive_paid :
    ∃ s, Exclusive s ∧ hasEntry .payoutSent "p" s = true := by
  obtain ⟨s, reached, paid⟩ := Machine.exists_of_runUnder (payoutMachine Sample.config)
    OutcomeAgrees (s := .initial) rfl
    (Sample.funded 100 ++ Sample.create 0 "p" ++ Sample.sign 1 ++ Sample.submit 2 ++
      [.spawn 3 .reconcilePayouts, .spawn 4 .reconcilePayouts, .run 3 {}, .run 4 {},
       .run 3 (Sample.answered "confirmed" 1), .run 4 (Sample.answered "confirmed" 2)] ++
      Sample.steps 3 2 ++ Sample.steps 4 2)
    (hasEntry .payoutSent "p") (by decide +kernel)
  exact ⟨s, outcomes_exclusive _ s reached, paid⟩

/-- Two reconcile runs, one told `confirmed` and one told `failed`. -/
theorem outcomes_mix : ∃ s, (payoutMachine Sample.config).Reachable s ∧ ¬ Exclusive s := by
  obtain ⟨s, reached, both⟩ := Machine.exists_of_run (payoutMachine Sample.config)
    (s := .initial) rfl
    (Sample.funded 100 ++ Sample.create 0 "p" ++ Sample.sign 1 ++ Sample.submit 2 ++
      [.spawn 3 .reconcilePayouts, .spawn 4 .reconcilePayouts, .run 3 {}, .run 4 {},
       .run 3 (Sample.answered "confirmed" 1), .run 4 (Sample.answered "failed" 0)] ++
      Sample.steps 3 2 ++ Sample.steps 4 2)
    (fun s => hasEntry .payoutSent "p" s && hasEntry .payoutFailedUnlock "p" s) (by decide +kernel)
  refine ⟨s, reached, fun exclusive => ?_⟩
  rw [Bool.and_eq_true, hasEntry, hasEntry, Table.contains_iff, Table.contains_iff] at both
  obtain ⟨⟨x, inX, keyX⟩, y, inY, keyY⟩ := both
  simp only [Keyed.key, LedgerEntry.ledgerKey, LedgerKey.mk.injEq] at keyX keyY
  exact exclusive.once x inX y inY keyX.2.1 keyY.2.1 (keyX.2.2.2.trans keyY.2.2.2.symm)
    (keyX.1.trans keyY.1.symm)

end CsdPool.Payout
