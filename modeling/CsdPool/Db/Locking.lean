/-
# Db.Locking — the transaction that locks a payout batch, statement by statement

`create_locked_payout_batch_with_status` opens a transaction, inserts the batch,
runs four statements a recipient and commits.  Here every statement is a step on
the transaction's working copy and what others see changes at `commit` alone; a
transaction that is dropped on an error is rolled back.  `transaction_lockBatch`
says that this is the one-step function of `Db.Payouts`, with the database left
as it was on every error.

`Lockable` is the condition on the inputs under which the batch goes in, and
`createLocked_true_iff` that nothing else decides it.  What goes in is `Locked`,
except that a lock entry the ledger already holds under the batch's id stays as
it is: `on conflict do nothing` is not looked at, and the balance is debited all
the same.
-/
import CsdPool.Db.Payouts
import CsdPool.Drafts

namespace CsdPool.Db

open Theory (Keyed Table)

set_option autoImplicit false

/-! ## Transactions -/

/-- What the other connections see, and what the statements so far have made of it. -/
structure Tx where
  committed : Db
  working : Db

abbrev TxM := EStateM RepositoryError Tx

namespace TxM

def execute {α : Type} (statement : Db → Except RepositoryError (α × Db)) : TxM α := fun tx =>
  match statement tx.working with
  | .ok (result, working) => .ok result { tx with working }
  | .error e => .error e tx

def commit : TxM Unit := fun tx => .ok () { tx with committed := tx.working }

def rollback : TxM Unit := fun tx => .ok () { tx with working := tx.committed }

/-- `pool.begin()`, the statements, and the drop of the transaction: the answer and
the database everyone sees afterwards. -/
def transaction {α : Type} (body : TxM α) (db : Db) : Except RepositoryError α × Db :=
  match body ⟨db, db⟩ with
  | .ok result tx => (.ok result, tx.committed)
  | .error e tx => (.error e, tx.committed)

theorem bind_ok {α β : Type} {x : TxM α} {f : α → TxM β} {tx tx' : Tx} {a : α}
    (ran : x tx = .ok a tx') : (x >>= f) tx = f a tx' := by
  show EStateM.bind x f tx = f a tx'
  unfold EStateM.bind
  rw [ran]

theorem bind_error {α β : Type} {x : TxM α} {f : α → TxM β} {tx tx' : Tx} {e : RepositoryError}
    (ran : x tx = .error e tx') : (x >>= f) tx = .error e tx' := by
  show EStateM.bind x f tx = .error e tx'
  unfold EStateM.bind
  rw [ran]

end TxM

open TxM

/-! ## The statements -/

def insertPayoutBatch (draft : PayoutBatchDraft) (status : PayoutStatus) (now : Nat) (db : Db) :
    Except RepositoryError (Bool × Db) :=
  let (payoutBatches, inserted) := db.payoutBatches.insert
    { id := draft.batchId, status := status, totalBaseUnits := draft.totalBaseUnits
      txid := none, rawTxHash := none, createdAt := now }
  .ok (inserted, { db with payoutBatches })

def insertPayoutRecipient (batchId : String) (miner : Address) (recipient : PayoutRecipient)
    (db : Db) : Except RepositoryError (Unit × Db) :=
  let (payoutRecipients, inserted) := db.payoutRecipients.insert
    ⟨batchId, miner, recipient.address, recipient.amountBaseUnits⟩
  if inserted && matchesLowerHex 40 recipient.address then .ok ((), { db with payoutRecipients })
  else .error .sql

/-- `insert into ledger_entries … 'payout_lock' … on conflict do nothing`. -/
def insertPayoutLock (batchId : String) (recipient : PayoutRecipient) (db : Db) :
    Except RepositoryError (Unit × Db) :=
  .ok ((), { db with
    books.ledgerEntries := (db.books.ledgerEntries.insert (Books.lockEntry batchId recipient)).1 })

/-- The guarded debit, with `rows_affected() == 1`. -/
def debitPayout (recipient : PayoutRecipient) (db : Db) : Except RepositoryError (Bool × Db) :=
  let (balanceCache, locked) := Books.updateBalance db.books.balanceCache recipient.miner
    (fun b => decide ((recipient.amountBaseUnits : Int) ≤ b.confirmedBaseUnits))
    (Balance.lock recipient.amountBaseUnits)
  .ok (locked, { db with books.balanceCache := balanceCache })

def lockRecipientStatements (batchId : String) (recipient : PayoutRecipient) : TxM Unit := do
  let miner ← execute fun db => (minerIdInTx recipient.miner).map fun miner => (miner, db)
  execute (insertPayoutRecipient batchId miner recipient)
  execute (insertPayoutLock batchId recipient)
  let locked ← execute (debitPayout recipient)
  if locked then pure () else throw (.insufficientPayoutBalance recipient.miner)

def lockBatchStatements (draft : PayoutBatchDraft) (status : PayoutStatus) (now : Nat) :
    TxM Bool := do
  let _ ← execute fun db => (i32TryFrom draft.recipients.length).map fun n => (n, db)
  let inserted ← execute (insertPayoutBatch draft status now)
  if inserted then do
    draft.recipients.forM (lockRecipientStatements draft.batchId)
    commit
    pure true
  else do
    rollback
    pure false

/-! ## The statements are the one-step function -/

/-- The working copy after some recipients. -/
def withBooks (db : Db) (state : Books × Table PayoutRecipientRow) : Db :=
  { db with books := state.1, payoutRecipients := state.2 }

theorem execute_ok {α : Type} {statement : Db → Except RepositoryError (α × Db)}
    {committed working working' : Db} {result : α}
    (ran : statement working = .ok (result, working')) :
    execute statement ⟨committed, working⟩ = .ok result ⟨committed, working'⟩ := by
  simp [execute, ran]

theorem execute_error {α : Type} {statement : Db → Except RepositoryError (α × Db)}
    {committed working : Db} {e : RepositoryError} (ran : statement working = .error e) :
    execute statement ⟨committed, working⟩ = .error e ⟨committed, working⟩ := by
  simp [execute, ran]

/-- What the four statements of one recipient do, as one step on the two tables. -/
theorem lockRecipientStatements_run (batchId : String) (recipient : PayoutRecipient)
    (committed working : Db) :
    (∃ state', insertRecipient batchId (working.books, working.payoutRecipients) recipient =
        .ok state' ∧
      lockRecipientStatements batchId recipient ⟨committed, working⟩ =
        .ok () ⟨committed, working.withBooks state'⟩) ∨
    (∃ e dirty, insertRecipient batchId (working.books, working.payoutRecipients) recipient =
        .error e ∧
      lockRecipientStatements batchId recipient ⟨committed, working⟩ =
        .error e ⟨committed, dirty⟩) := by
  unfold insertRecipient lockRecipientStatements
  cases upserted : minerIdInTx recipient.miner with
  | error e => exact .inr ⟨e, working, rfl, bind_error (execute_error rfl)⟩
  | ok miner =>
      obtain ⟨rfl, -⟩ := minerIdInTx_ok upserted
      obtain ⟨rows, went, insertEq⟩ : ∃ rows went, working.payoutRecipients.insert
          (⟨batchId, recipient.miner, recipient.address, recipient.amountBaseUnits⟩ :
            PayoutRecipientRow) = (rows, went) := ⟨_, _, rfl⟩
      rw [bind_ok (execute_ok rfl)]
      dsimp only
      rw [insertEq]
      dsimp only
      by_cases accepted : (went && matchesLowerHex 40 recipient.address) = true
      · obtain ⟨cache, locked, debitEq⟩ : ∃ cache locked,
            Books.updateBalance working.books.balanceCache recipient.miner
              (fun b => decide ((recipient.amountBaseUnits : Int) ≤ b.confirmedBaseUnits))
              (Balance.lock recipient.amountBaseUnits) = (cache, locked) := ⟨_, _, rfl⟩
        have row : insertPayoutRecipient batchId recipient.miner recipient working =
            .ok ((), { working with payoutRecipients := rows }) := by
          simp only [insertPayoutRecipient, insertEq, accepted, if_true]
        -- the entry always "goes in"; only the debit can still refuse
        rw [bind_ok (execute_ok row), bind_ok (execute_ok rfl), if_pos accepted]
        have debit : ∀ ledgerEntries, debitPayout recipient
            { working with
              books := ⟨ledgerEntries, working.books.balanceCache⟩, payoutRecipients := rows } =
            .ok (locked, { working with
              books := ⟨ledgerEntries, cache⟩, payoutRecipients := rows }) := by
          intro ledgerEntries
          simp only [debitPayout, debitEq]
        rw [bind_ok (execute_ok (debit _)), Books.lockRecipient, debitEq]
        dsimp only
        cases locked with
        | true => exact .inl ⟨_, rfl, rfl⟩
        | false => exact .inr ⟨_, _, rfl, rfl⟩
      · have refused : insertPayoutRecipient batchId recipient.miner recipient working =
            .error .sql := by
          simp only [insertPayoutRecipient, insertEq, accepted]
          rfl
        exact .inr ⟨.sql, working, if_neg accepted, bind_error (execute_error refused)⟩

theorem lockRecipients_run (batchId : String) (recipients : List PayoutRecipient)
    (committed working : Db) :
    (∃ state', recipients.foldlM (insertRecipient batchId)
        (working.books, working.payoutRecipients) = .ok state' ∧
      recipients.forM (lockRecipientStatements batchId) ⟨committed, working⟩ =
        .ok () ⟨committed, working.withBooks state'⟩) ∨
    (∃ e dirty, recipients.foldlM (insertRecipient batchId)
        (working.books, working.payoutRecipients) = .error e ∧
      recipients.forM (lockRecipientStatements batchId) ⟨committed, working⟩ =
        .error e ⟨committed, dirty⟩) := by
  induction recipients generalizing working with
  | nil => exact .inl ⟨_, rfl, rfl⟩
  | cons recipient rest ih =>
      have loop : (recipient :: rest).forM (lockRecipientStatements batchId) =
          lockRecipientStatements batchId recipient >>= fun _ =>
            rest.forM (lockRecipientStatements batchId) := rfl
      rw [List.foldlM_cons, loop]
      rcases lockRecipientStatements_run batchId recipient committed working with
        ⟨mid, inserted, ran⟩ | ⟨e, dirty, refused, ran⟩
      · rw [inserted, bind_ok ran]
        rcases ih (working.withBooks mid) with
          ⟨state', folded, ranRest⟩ | ⟨e, dirty, folded, ranRest⟩
        · exact .inl ⟨state', folded, ranRest⟩
        · exact .inr ⟨e, dirty, folded, ranRest⟩
      · rw [refused, bind_error ran]
        exact .inr ⟨e, dirty, rfl, rfl⟩

/-- **The transaction.**  Everyone sees the database of the one-step function after
an `Ok`, and the old one after an error. -/
theorem transaction_lockBatch (db : Db) (draft : PayoutBatchDraft) (status : PayoutStatus)
    (now : Nat) :
    transaction (lockBatchStatements draft status now) db =
      match db.createLockedPayoutBatchWithStatus draft status now with
      | .ok (created, db') => (.ok created, db')
      | .error e => (.error e, db) := by
  unfold transaction lockBatchStatements createLockedPayoutBatchWithStatus
  cases counted : i32TryFrom draft.recipients.length with
  | error e => rw [bind_error (execute_error rfl)]
  | ok n =>
      obtain ⟨rows, went, insertEq⟩ : ∃ rows went, db.payoutBatches.insert
          ({ id := draft.batchId, status := status, totalBaseUnits := draft.totalBaseUnits
             txid := none, rawTxHash := none, createdAt := now } : PayoutBatchRow) =
            (rows, went) := ⟨_, _, rfl⟩
      have insert : insertPayoutBatch draft status now db =
          .ok (went, { db with payoutBatches := rows }) := by
        simp only [insertPayoutBatch, insertEq]
      rw [bind_ok (execute_ok rfl), bind_ok (execute_ok insert), insertEq]
      dsimp only
      cases went with
      | true =>
          rw [if_pos rfl, if_pos rfl]
          rcases lockRecipients_run draft.batchId draft.recipients db
              { db with payoutBatches := rows } with
            ⟨state', folded, ran⟩ | ⟨e, dirty, folded, ran⟩
          · rw [bind_ok ran, folded]
            rfl
          · rw [bind_error ran, folded]
            rfl
      | false => rfl

/-! ## When a batch goes in -/

/-- What the four statements ask of a recipient. -/
def Payable (batchId : String) (state : Books × Table PayoutRecipientRow)
    (recipient : PayoutRecipient) : Prop :=
  matchesLowerHex 40 recipient.miner = true ∧ matchesLowerHex 40 recipient.address = true ∧
    state.2.find? (batchId, recipient.miner) = none ∧
    ((state.1.balanceCache.find? recipient.miner).any fun row =>
      decide ((recipient.amountBaseUnits : Int) ≤ row.balance.confirmedBaseUnits)) = true

theorem Payable.covered {batchId : String} {state : Books × Table PayoutRecipientRow}
    {recipient : PayoutRecipient} (payable : Payable batchId state recipient) :
    ∃ row, state.1.balanceCache.find? recipient.miner = some row ∧
      (recipient.amountBaseUnits : Int) ≤ row.balance.confirmedBaseUnits := by
  have hit := payable.2.2.2
  cases found : state.1.balanceCache.find? recipient.miner with
  | none => rw [found] at hit; cases hit
  | some row =>
      rw [found] at hit
      exact ⟨row, rfl, by simpa using hit⟩

/-- The tables after one recipient. -/
def lockedState (batchId : String) (state : Books × Table PayoutRecipientRow)
    (recipient : PayoutRecipient) : Books × Table PayoutRecipientRow :=
  (⟨(state.1.ledgerEntries.insert (Books.lockEntry batchId recipient)).1,
      (Books.updateBalance state.1.balanceCache recipient.miner
        (fun b => decide ((recipient.amountBaseUnits : Int) ≤ b.confirmedBaseUnits))
        (Balance.lock recipient.amountBaseUnits)).1⟩,
    (state.2.insert (recipientRow batchId recipient)).1)

theorem insertRecipient_ok_iff {batchId : String} {state state' : Books × Table PayoutRecipientRow}
    {recipient : PayoutRecipient} :
    insertRecipient batchId state recipient = .ok state' ↔
      Payable batchId state recipient ∧ state' = lockedState batchId state recipient := by
  have row : (⟨batchId, recipient.miner, recipient.address, recipient.amountBaseUnits⟩ :
      PayoutRecipientRow) = recipientRow batchId recipient := rfl
  have fresh : (state.2.insert (recipientRow batchId recipient)).2 = true ↔
      state.2.find? (batchId, recipient.miner) = none := Table.insert_snd_iff
  have covered : (Books.updateBalance state.1.balanceCache recipient.miner
        (fun b => decide ((recipient.amountBaseUnits : Int) ≤ b.confirmedBaseUnits))
        (Balance.lock recipient.amountBaseUnits)).2 =
      (state.1.balanceCache.find? recipient.miner).any fun row =>
        decide ((recipient.amountBaseUnits : Int) ≤ row.balance.confirmedBaseUnits) :=
    Table.update_snd ..
  unfold insertRecipient Payable
  by_cases legal : matchesLowerHex 40 recipient.miner = true
  · have upserted : minerIdInTx recipient.miner = .ok recipient.miner := if_pos legal
    rw [upserted]
    dsimp only
    rw [row, ← fresh, ← covered]
    by_cases accepted : ((state.2.insert (recipientRow batchId recipient)).2 &&
        matchesLowerHex 40 recipient.address) = true
    · obtain ⟨inserted, address⟩ := Bool.and_eq_true_iff.1 accepted
      rw [if_pos accepted, Books.lockRecipient]
      dsimp only
      by_cases locked : (Books.updateBalance state.1.balanceCache recipient.miner
          (fun b => decide ((recipient.amountBaseUnits : Int) ≤ b.confirmedBaseUnits))
          (Balance.lock recipient.amountBaseUnits)).2 = true
      · rw [if_pos locked]
        simp only [Except.map, Except.ok.injEq, legal, address, inserted, locked, true_and]
        exact eq_comm
      · rw [if_neg locked]
        simp [Except.map, locked]
    · rw [if_neg accepted]
      rw [Bool.and_eq_true] at accepted
      simp only [reduceCtorEq, false_iff]
      rintro ⟨⟨-, address, inserted, -⟩, -⟩
      exact accepted ⟨inserted, address⟩
  · have refused : minerIdInTx recipient.miner = .error .sql := if_neg legal
    rw [refused]
    simp [legal]

theorem find?_lockedState_recipients (batchId : String) (state : Books × Table PayoutRecipientRow)
    (recipient : PayoutRecipient) (k : String × Address) :
    (lockedState batchId state recipient).2.find? k =
      if (batchId, recipient.miner) = k ∧ state.2.find? k = none then
        some (recipientRow batchId recipient)
      else state.2.find? k :=
  Table.find?_insert ..

theorem find?_lockedState_balance (batchId : String) (state : Books × Table PayoutRecipientRow)
    (recipient : PayoutRecipient) (miner : Address) :
    (lockedState batchId state recipient).1.balanceCache.find? miner =
      (state.1.balanceCache.find? miner).map fun row =>
        if miner = recipient.miner ∧
            decide ((recipient.amountBaseUnits : Int) ≤ row.balance.confirmedBaseUnits) = true then
          { row with balance := row.balance.lock recipient.amountBaseUnits }
        else row :=
  Table.find?_update state.1.balanceCache recipient.miner
    (fun row => decide ((recipient.amountBaseUnits : Int) ≤ row.balance.confirmedBaseUnits))
    (fun row => { row with balance := row.balance.lock recipient.amountBaseUnits })
    (fun _ => rfl) miner

/-- A later recipient is payable if he was before and is someone else. -/
theorem payable_lockedState {batchId : String} {state : Books × Table PayoutRecipientRow}
    {first later : PayoutRecipient} (payable : Payable batchId state first) :
    Payable batchId (lockedState batchId state first) later ↔
      later.miner ≠ first.miner ∧ Payable batchId state later := by
  unfold Payable
  rw [find?_lockedState_recipients, find?_lockedState_balance]
  by_cases same : later.miner = first.miner
  · have fresh : state.2.find? (batchId, later.miner) = none := same ▸ payable.2.2.1
    simp [same, payable.2.2.1]
  · have other : (batchId, first.miner) ≠ (batchId, later.miner) := fun equal =>
      same (Prod.mk.inj equal).2.symm
    simp only [other, false_and, if_false, same, ne_eq, not_false_iff, true_and, Option.map_id']

/-- Behind the first recipient stand others only. -/
theorem miner_ne_of_nodup {first : PayoutRecipient} {rest : List PayoutRecipient}
    (notAgain : first.miner ∉ rest.map (·.miner)) : ∀ r ∈ rest, r.miner ≠ first.miner := by
  intro r member same
  rw [← same] at notAgain
  exact notAgain (List.mem_map.2 ⟨r, member, rfl⟩)

theorem insertRecipients_ok_iff {batchId : String} {recipients : List PayoutRecipient}
    {state state' : Books × Table PayoutRecipientRow} :
    recipients.foldlM (insertRecipient batchId) state = .ok state' ↔
      (recipients.map (·.miner)).Nodup ∧ (∀ r ∈ recipients, Payable batchId state r) ∧
        state' = recipients.foldl (lockedState batchId) state := by
  induction recipients generalizing state with
  | nil =>
      rw [Theory.foldlM_ok_nil]
      simp [eq_comm]
  | cons first rest ih =>
      rw [Theory.foldlM_ok_cons]
      constructor
      · rintro ⟨mid, inserted, folded⟩
        obtain ⟨payable, rfl⟩ := insertRecipient_ok_iff.1 inserted
        obtain ⟨nodup, payables, rfl⟩ := ih.1 folded
        have later : ∀ r ∈ rest, r.miner ≠ first.miner ∧ Payable batchId state r :=
          fun r member => (payable_lockedState payable).1 (payables r member)
        refine ⟨?_, ?_, rfl⟩
        · rw [List.map_cons, List.nodup_cons]
          refine ⟨fun again => ?_, nodup⟩
          obtain ⟨r, member, same⟩ := List.mem_map.1 again
          exact (later r member).1 same
        · intro r member
          rcases List.mem_cons.1 member with rfl | inRest
          · exact payable
          · exact (later r inRest).2
      · rintro ⟨nodup, payables, rfl⟩
        rw [List.map_cons, List.nodup_cons] at nodup
        have payable := payables first (List.mem_cons_self ..)
        refine ⟨_, insertRecipient_ok_iff.2 ⟨payable, rfl⟩, ih.2 ⟨nodup.2, fun r member => ?_, rfl⟩⟩
        exact (payable_lockedState payable).2
          ⟨miner_ne_of_nodup nodup.1 r member, payables r (List.mem_cons_of_mem _ member)⟩

/-! ## What goes in -/

theorem foldl_lockedState_others (batchId : String) {recipients : List PayoutRecipient}
    {miner : Address} (absent : miner ∉ recipients.map (·.miner))
    (state : Books × Table PayoutRecipientRow) :
    (recipients.foldl (lockedState batchId) state).1.balanceCache.find? miner =
      state.1.balanceCache.find? miner := by
  induction recipients generalizing state with
  | nil => rfl
  | cons first rest ih =>
      rw [List.map_cons, List.mem_cons, not_or] at absent
      rw [List.foldl_cons, ih absent.2, find?_lockedState_balance]
      simp [absent.1]

/-- The guard has let the debit through, so the clamp has nothing to do. -/
theorem lock_exact {balance : Balance} {amount : Int}
    (covers : amount ≤ balance.confirmedBaseUnits) :
    balance.lock amount =
      { balance with
        confirmedBaseUnits := balance.confirmedBaseUnits - amount
        lockedBaseUnits := balance.lockedBaseUnits + amount } := by
  rw [Balance.lock, max_eq_left (by omega)]

theorem foldl_lockedState_balance {batchId : String} {recipients : List PayoutRecipient}
    {state : Books × Table PayoutRecipientRow} (nodup : (recipients.map (·.miner)).Nodup)
    (payables : ∀ r ∈ recipients, Payable batchId state r) :
    ∀ r ∈ recipients, ∃ row, state.1.balanceCache.find? r.miner = some row ∧
      (r.amountBaseUnits : Int) ≤ row.balance.confirmedBaseUnits ∧
      (recipients.foldl (lockedState batchId) state).1.balanceCache.find? r.miner =
        some { row with balance := row.balance.lock r.amountBaseUnits } := by
  induction recipients generalizing state with
  | nil => simp
  | cons first rest ih =>
      rw [List.map_cons, List.nodup_cons] at nodup
      have payable := payables first (List.mem_cons_self ..)
      intro r member
      rcases List.mem_cons.1 member with rfl | inRest
      · obtain ⟨row, found, covers⟩ := payable.covered
        refine ⟨row, found, covers, ?_⟩
        rw [List.foldl_cons, foldl_lockedState_others batchId nodup.1, find?_lockedState_balance,
          found]
        simp [covers]
      · have others := miner_ne_of_nodup nodup.1
        obtain ⟨row, found, covers, after⟩ := ih nodup.2
          (fun x inTail => (payable_lockedState payable).2
            ⟨others x inTail, payables x (List.mem_cons_of_mem _ inTail)⟩) r inRest
        have other := others r inRest
        rw [find?_lockedState_balance] at found
        simp only [other, false_and, if_false, Option.map_id'] at found
        exact ⟨row, found, covers, after⟩

theorem lockEntry_key_inj {batchId : String} {a b : PayoutRecipient}
    (same : (Books.lockEntry batchId a).ledgerKey = (Books.lockEntry batchId b).ledgerKey) :
    a.miner = b.miner := by
  simpa [Books.lockEntry, LedgerEntry.ledgerKey] using same

theorem find?_lockedState_ledger (batchId : String) (state : Books × Table PayoutRecipientRow)
    (recipient : PayoutRecipient) (k : LedgerKey) :
    (lockedState batchId state recipient).1.ledgerEntries.find? k =
      if (Books.lockEntry batchId recipient).ledgerKey = k ∧
          state.1.ledgerEntries.find? k = none then
        some (Books.lockEntry batchId recipient)
      else state.1.ledgerEntries.find? k :=
  Table.find?_insert ..

theorem foldl_lockedState_ledger_ne (batchId : String) {recipients : List PayoutRecipient}
    {k : LedgerKey}
    (other : ∀ r ∈ recipients, (Books.lockEntry batchId r).ledgerKey ≠ k)
    (state : Books × Table PayoutRecipientRow) :
    (recipients.foldl (lockedState batchId) state).1.ledgerEntries.find? k =
      state.1.ledgerEntries.find? k := by
  induction recipients generalizing state with
  | nil => rfl
  | cons first rest ih =>
      rw [List.foldl_cons, ih (fun r member => other r (List.mem_cons_of_mem _ member)),
        find?_lockedState_ledger]
      simp [other first (List.mem_cons_self ..)]

/-- A lock entry that was there before stays, and only where there was none does
the recipient's own go in. -/
theorem foldl_lockedState_ledger (batchId : String) {recipients : List PayoutRecipient}
    (nodup : (recipients.map (·.miner)).Nodup) (state : Books × Table PayoutRecipientRow) :
    ∀ r ∈ recipients, (recipients.foldl (lockedState batchId) state).1.ledgerEntries.find?
        (Books.lockEntry batchId r).ledgerKey =
      some ((state.1.ledgerEntries.find? (Books.lockEntry batchId r).ledgerKey).getD
        (Books.lockEntry batchId r)) := by
  induction recipients generalizing state with
  | nil => simp
  | cons first rest ih =>
      rw [List.map_cons, List.nodup_cons] at nodup
      have distinct : ∀ r ∈ rest, (Books.lockEntry batchId r).ledgerKey ≠
          (Books.lockEntry batchId first).ledgerKey := fun r member same =>
        miner_ne_of_nodup nodup.1 r member (lockEntry_key_inj same)
      intro r member
      rcases List.mem_cons.1 member with rfl | inRest
      · rw [List.foldl_cons, foldl_lockedState_ledger_ne batchId distinct,
          find?_lockedState_ledger]
        cases state.1.ledgerEntries.find? (Books.lockEntry batchId r).ledgerKey with
        | none => simp
        | some entry => simp
      · rw [List.foldl_cons, ih nodup.2 _ r inRest, find?_lockedState_ledger]
        simp [Ne.symm (distinct r inRest)]

/-- The inputs for which the batch goes in: a fresh id, and recipients that are
payable and pairwise different. -/
def Lockable (db : Db) (draft : PayoutBatchDraft) : Prop :=
  draft.recipients.length < 2 ^ 31 ∧ db.payoutBatches.find? draft.batchId = none ∧
    (draft.recipients.map (·.miner)).Nodup ∧
    ∀ r ∈ draft.recipients, Payable draft.batchId (db.books, db.payoutRecipients) r

/-- The ledger holds no lock entry of another amount under the batch's id. -/
def LockEntriesFree (db : Db) (draft : PayoutBatchDraft) : Prop :=
  ∀ r ∈ draft.recipients, ∀ entry,
    db.books.ledgerEntries.find? (Books.lockEntry draft.batchId r).ledgerKey = some entry →
      entry.amountBaseUnits = -(r.amountBaseUnits : Int)

def batchRow (draft : PayoutBatchDraft) (status : PayoutStatus) (now : Nat) : PayoutBatchRow where
  id := draft.batchId
  status := status
  totalBaseUnits := draft.totalBaseUnits
  txid := none
  rawTxHash := none
  createdAt := now

/-- A batch that is locked exactly: its rows, the moved amounts, one lock entry a
recipient, and nothing else. -/
structure Locked (draft : PayoutBatchDraft) (status : PayoutStatus) (now : Nat) (db db' : Db) :
    Prop where
  batch : db'.payoutBatches.rows = db.payoutBatches.rows ++ [batchRow draft status now]
  recipients : db'.payoutRecipients.rows =
    db.payoutRecipients.rows ++ draft.recipients.map (recipientRow draft.batchId)
  balances : ∀ r ∈ draft.recipients,
    (r.amountBaseUnits : Int) ≤ (db.books.balance r.miner).confirmedBaseUnits ∧
      db'.books.balance r.miner =
        { db.books.balance r.miner with
          confirmedBaseUnits :=
            (db.books.balance r.miner).confirmedBaseUnits - (r.amountBaseUnits : Int)
          lockedBaseUnits :=
            (db.books.balance r.miner).lockedBaseUnits + (r.amountBaseUnits : Int) }
  lockEntries : ∀ r ∈ draft.recipients,
    db'.books.ledgerEntries.find? (Books.lockEntry draft.batchId r).ledgerKey =
      some (Books.lockEntry draft.batchId r)
  others : ∀ miner, miner ∉ draft.recipients.map (·.miner) →
    db'.books.balanceCache.find? miner = db.books.balanceCache.find? miner ∧
      ∀ entry, entry.miner = some miner →
        (entry ∈ db'.books.ledgerEntries.rows ↔ entry ∈ db.books.ledgerEntries.rows)
  rest : db' = { db with
    books := db'.books
    payoutBatches := db'.payoutBatches
    payoutRecipients := db'.payoutRecipients }

/-- A transaction that answers true has locked the draft, entry by entry and unit by unit; any other
answer, an error included, leaves the database as it was. -/
def LockExact (db : Db) (draft : PayoutBatchDraft) (status : PayoutStatus) (now : Nat) : Prop :=
  match transaction (lockBatchStatements draft status now) db with
  | (.ok true, db') => Locked draft status now db db'
  | (_, db') => db' = db

theorem i32TryFrom_ok_iff {n : Nat} : (∃ m, i32TryFrom n = .ok m) ↔ n < 2 ^ 31 := by
  unfold i32TryFrom
  split <;> simp_all

/-- The one-step function on a lockable draft. -/
theorem createLocked_of_lockable {db : Db} {draft : PayoutBatchDraft} (lockable : Lockable db draft)
    (status : PayoutStatus) (now : Nat) :
    db.createLockedPayoutBatchWithStatus draft status now = .ok (true,
      { db.withBooks (draft.recipients.foldl (lockedState draft.batchId)
          (db.books, db.payoutRecipients)) with
        payoutBatches := (db.payoutBatches.insert (batchRow draft status now)).1 }) := by
  obtain ⟨short, fresh, nodup, payables⟩ := lockable
  obtain ⟨n, counted⟩ := i32TryFrom_ok_iff.2 short
  have folded := insertRecipients_ok_iff.2 ⟨nodup, payables, rfl⟩
  have went : (db.payoutBatches.insert (batchRow draft status now)).2 = true :=
    Table.insert_snd_iff.2 fresh
  have row : ({ id := draft.batchId, status := status, totalBaseUnits := draft.totalBaseUnits
                txid := none, rawTxHash := none, createdAt := now } : PayoutBatchRow) =
      batchRow draft status now := rfl
  unfold createLockedPayoutBatchWithStatus
  rw [counted, row]
  dsimp only
  rw [if_pos went, folded]
  rfl

/-- **Nothing else decides.**  The batch goes in exactly if the draft is lockable. -/
theorem createLocked_true_iff {db : Db} {draft : PayoutBatchDraft} {status : PayoutStatus}
    {now : Nat} :
    (∃ db', db.createLockedPayoutBatchWithStatus draft status now = .ok (true, db')) ↔
      Lockable db draft := by
  constructor
  · rintro ⟨db', created⟩
    have short : draft.recipients.length < 2 ^ 31 := by
      rw [← i32TryFrom_ok_iff]
      unfold createLockedPayoutBatchWithStatus at created
      split at created
      · cases created
      · rename_i n counted
        exact ⟨n, counted⟩
    rcases createLocked_ok created with ⟨no, -⟩ | ⟨-, fresh, books, recipients, folded, -⟩
    · cases no
    · obtain ⟨nodup, payables, -⟩ := insertRecipients_ok_iff.1 folded
      exact ⟨short, fresh, nodup, payables⟩
  · exact fun lockable => ⟨_, createLocked_of_lockable lockable status now⟩

/-- What everyone sees after the call. -/
theorem transaction_lockBatch_cases (db : Db) (draft : PayoutBatchDraft) (status : PayoutStatus)
    (now : Nat) :
    (Lockable db draft ∧ transaction (lockBatchStatements draft status now) db = (.ok true,
      { db.withBooks (draft.recipients.foldl (lockedState draft.batchId)
          (db.books, db.payoutRecipients)) with
        payoutBatches := (db.payoutBatches.insert (batchRow draft status now)).1 })) ∨
    (¬ Lockable db draft ∧ ∃ answer, answer ≠ .ok true ∧
      transaction (lockBatchStatements draft status now) db = (answer, db)) := by
  rw [transaction_lockBatch]
  by_cases lockable : Lockable db draft
  · exact .inl ⟨lockable, by rw [createLocked_of_lockable lockable]⟩
  · refine .inr ⟨lockable, ?_⟩
    cases created : db.createLockedPayoutBatchWithStatus draft status now with
    | error e => exact ⟨.error e, by simp, rfl⟩
    | ok result =>
        obtain ⟨flag, db'⟩ := result
        rcases createLocked_ok created with ⟨rfl, rfl⟩ | ⟨rfl, -⟩
        · exact ⟨.ok false, by simp, rfl⟩
        · exact absurd (createLocked_true_iff.1 ⟨db', created⟩) lockable

/-- A lock entry under the batch's id is the recipient's own if the amount is. -/
theorem eq_lockEntry {db : Db} {batchId : String} {r : PayoutRecipient} {entry : LedgerEntry}
    (found : db.books.ledgerEntries.find? (Books.lockEntry batchId r).ledgerKey = some entry)
    (amount : entry.amountBaseUnits = -(r.amountBaseUnits : Int)) :
    entry = Books.lockEntry batchId r := by
  have key : entry.ledgerKey = (Books.lockEntry batchId r).ledgerKey := Table.key_of_find? found
  obtain ⟨miner, amount', kind, refType, refId⟩ := entry
  simp only [LedgerEntry.ledgerKey, Books.lockEntry, LedgerKey.mk.injEq] at key amount ⊢
  obtain ⟨rfl, rfl, rfl, rfl⟩ := key
  rw [amount]

/-- A lockable draft is locked exactly, stray lock entries aside. -/
theorem locked_of_lockable {db : Db} {draft : PayoutBatchDraft} (lockable : Lockable db draft)
    (free : LockEntriesFree db draft) (status : PayoutStatus) (now : Nat) :
    Locked draft status now db
      { db.withBooks (draft.recipients.foldl (lockedState draft.batchId)
          (db.books, db.payoutRecipients)) with
        payoutBatches := (db.payoutBatches.insert (batchRow draft status now)).1 } := by
  obtain ⟨-, fresh, nodup, payables⟩ := lockable
  have folded := insertRecipients_ok_iff.2 ⟨nodup, payables, rfl⟩
  have grows := insertRecipients_grows folded
  constructor
  · exact (Table.insert_of_fresh fresh).1
  · exact insertRecipients_rows folded
  · intro r member
    obtain ⟨row, found, covers, after⟩ := foldl_lockedState_balance nodup payables r member
    dsimp only at found
    have before : db.books.balance r.miner = row.balance := by
      rw [Books.balance, found]
      rfl
    rw [before]
    refine ⟨covers, ?_⟩
    rw [← lock_exact covers, Books.balance]
    dsimp only [withBooks]
    rw [after]
    rfl
  · intro r member
    have entry :=
      foldl_lockedState_ledger draft.batchId nodup (db.books, db.payoutRecipients) r member
    dsimp only at entry
    refine entry.trans ?_
    cases found : db.books.ledgerEntries.find? (Books.lockEntry draft.batchId r).ledgerKey with
    | none => rfl
    | some old => rw [Option.getD_some, eq_lockEntry found (free r member old found)]
  · intro miner absent
    refine ⟨foldl_lockedState_others draft.batchId absent (db.books, db.payoutRecipients),
      fun entry own => ⟨fun present => ?_, grows.kept entry⟩⟩
    rcases grows.added entry present with old | new
    · exact old
    · obtain ⟨r, member, rfl⟩ := List.mem_map.1 new
      have same : r.miner = miner := by simpa [Books.lockEntry] using own
      exact absurd (same ▸ List.mem_map_of_mem (f := fun r : PayoutRecipient => r.miner) member)
        absent
  · rfl

theorem lockExact_iff (db : Db) (draft : PayoutBatchDraft) (status : PayoutStatus) (now : Nat) :
    LockExact db draft status now ↔ (Lockable db draft → LockEntriesFree db draft) := by
  unfold LockExact
  rcases transaction_lockBatch_cases db draft status now with
    ⟨lockable, went⟩ | ⟨refused, answer, notTrue, left⟩
  · rw [went]
    dsimp only
    constructor
    · intro locked _ r member entry found
      have kept := foldl_lockedState_ledger draft.batchId lockable.2.2.1
        (db.books, db.payoutRecipients) r member
      dsimp only at kept
      rw [found, Option.getD_some] at kept
      have own := locked.lockEntries r member
      have same := Option.some.inj (kept.symm.trans own)
      rw [same]
      rfl
    · exact fun free => locked_of_lockable lockable (free lockable) status now
  · rw [left]
    refine iff_of_true ?_ fun lockable => absurd lockable refused
    cases answer with
    | error e => rfl
    | ok flag =>
        cases flag with
        | false => rfl
        | true => exact absurd rfl notTrue

/-! ## The recorded total -/

/-- The batch row that went in records the sum of what was locked. -/
def TotalExact (db : Db) (draft : PayoutBatchDraft) (status : PayoutStatus) (now : Nat) : Prop :=
  ∀ db', transaction (lockBatchStatements draft status now) db = (.ok true, db') →
    ∃ row, db'.payoutBatches.find? draft.batchId = some row ∧
      row.totalBaseUnits = (draft.recipients.map (·.amountBaseUnits)).sum

theorem totalExact_iff {db : Db} {balances : List MinerBalance} {minimum maxRecipients : Nat}
    {batchId : String} (status : PayoutStatus) (now : Nat) :
    let draft := payoutBatchDraft batchId (selectPayouts balances minimum maxRecipients)
    TotalExact db draft status now ↔
      (Lockable db draft → (selectedBalances balances minimum maxRecipients).sum < 2 ^ 128) := by
  intro draft
  have amounts : draft.recipients.map (·.amountBaseUnits) =
      selectedBalances balances minimum maxRecipients :=
    selectPayouts_amounts balances minimum maxRecipients
  have recorded : draft.totalBaseUnits =
      u128 (selectedBalances balances minimum maxRecipients).sum := by
    rw [← amounts]
    rfl
  unfold TotalExact
  rcases transaction_lockBatch_cases db draft status now with
    ⟨lockable, went⟩ | ⟨refused, answer, notTrue, left⟩
  · have inserted : (db.payoutBatches.insert (batchRow draft status now)).1.find? draft.batchId =
        some (batchRow draft status now) := by
      rw [Table.find?_insert, if_pos ⟨rfl, lockable.2.1⟩]
    rw [went, amounts, ← u128_eq_iff, ← recorded]
    constructor
    · intro exact _
      obtain ⟨row, found, total⟩ := exact _ rfl
      dsimp only at found
      rw [inserted] at found
      cases found
      exact total
    · intro fits db' same
      cases same
      exact ⟨batchRow draft status now, inserted, fits lockable⟩
  · rw [left]
    refine iff_of_true (fun db' same => ?_) fun lockable => absurd lockable refused
    exact absurd (Prod.mk.inj same).1 notTrue

/-- **Locking a batch.**  It is all or nothing and exact if and only if a batch
that goes in finds no lock entry of another amount under its id, and the total of
a selection is recorded exactly if and only if it fits a `u128`. -/
theorem lockBatch_exact_iff (db : Db) (draft : PayoutBatchDraft) (status : PayoutStatus) (now : Nat)
    (balances : List MinerBalance) (minimum maxRecipients : Nat) (batchId : String) :
    (LockExact db draft status now ↔ (Lockable db draft → LockEntriesFree db draft)) ∧
    (TotalExact db (payoutBatchDraft batchId (selectPayouts balances minimum maxRecipients))
        status now ↔
      (Lockable db (payoutBatchDraft batchId (selectPayouts balances minimum maxRecipients)) →
        (selectedBalances balances minimum maxRecipients).sum < 2 ^ 128)) :=
  ⟨lockExact_iff db draft status now, totalExact_iff status now⟩

/-- A miner with 10 matured units and a lock of 5 under the id of no batch. -/
def strayLockDb (miner : Address) : Db :=
  ((Db.migrated.appendLedgerEntries
    [⟨some miner, 10, .rewardMature, "block", "h"⟩,
      ⟨some miner, -5, .payoutLock, "payout_batch", "batch"⟩]).toOption).getD Db.migrated

/-- A batch of 3 under that id goes in: the balance says 8 are locked and the
ledger 5. -/
theorem stray_lock_debited :
    let miner := "0123456789abcdef0123456789abcdef01234567"
    let draft := payoutBatchDraft "batch" (selectPayouts [⟨miner, miner, 3⟩] 1 1)
    let after := transaction (lockBatchStatements draft .created 0) (strayLockDb miner)
    after.1 = .ok true ∧ (after.2.books.balance miner).lockedBaseUnits = 8 ∧
      (after.2.books.ledgerEntries.find?
        ⟨some miner, .payoutLock, "payout_batch", "batch"⟩).map (·.amountBaseUnits) = some (-5) ∧
      ¬ LockExact (strayLockDb miner) draft .created 0 := by
  intro miner draft after
  have answer : after.1 = .ok true := by decide +kernel
  have entry : (after.2.books.ledgerEntries.find?
      ⟨some miner, .payoutLock, "payout_batch", "batch"⟩).map (·.amountBaseUnits) =
        some (-5) := by decide +kernel
  refine ⟨answer, by decide +kernel, entry, fun exact => ?_⟩
  have locked : Locked draft .created 0 (strayLockDb miner) after.2 := by
    have split : transaction (lockBatchStatements draft .created 0) (strayLockDb miner) =
        (.ok true, after.2) := Prod.ext answer rfl
    rw [LockExact, split] at exact
    exact exact
  have own := locked.lockEntries ⟨miner, miner, 3⟩ (by decide +kernel)
  have key : (Books.lockEntry draft.batchId ⟨miner, miner, 3⟩).ledgerKey =
      ⟨some miner, .payoutLock, "payout_batch", "batch"⟩ := rfl
  rw [key] at own
  rw [own] at entry
  exact absurd entry (by decide)

end CsdPool.Db
