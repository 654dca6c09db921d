/-
# Db.Payouts — payout batches

`PayoutRepository` and `ControlRepository` on the database.  The `mark_*`
functions are one conditional update (`updatePayoutBatch`) with different status
lists, and each member keeps the source's list.  `cancel_payout` and
`retry_failed_payout` span several transactions, so only their parts stand here;
the worker processes put them in sequence.

A batch row is reached only through the lemmas of the two writers:
`find?_updatePayoutBatch` and `createLocked_ok`.
-/
import CsdPool.Db.Ledger
import CsdPool.Theory.Passes
import Mathlib.Data.List.Sort

namespace CsdPool

open Theory (Keyed Table)

set_option autoImplicit false

/-- A batch as the workers get it: the row, with its recipients. -/
structure PayoutBatchRecord where
  batchId : String
  status : PayoutStatus
  totalBaseUnits : Nat
  txid : Option String
  rawTxHash : Option String
  recipients : List PayoutRecipient
  deriving DecidableEq, Repr

namespace Db

/-! ## Settings -/

/-- Off unless the setting stands and is one of the four words for on. -/
def payoutsEnabled (db : Db) : Bool :=
  match db.poolSettings.find? "payouts_enabled" with
  | some setting => ["true", "1", "yes", "on"].contains setting.value
  | none => false

def setPayoutsEnabled (db : Db) (enabled : Bool) : Db :=
  { db with
    poolSettings := db.poolSettings.put ⟨"payouts_enabled", if enabled then "true" else "false"⟩ }

/-! ## Reads -/

/-- `order by confirmed_base_units desc, address asc`. -/
def payableOrder (a b : BalanceRow) : Prop :=
  b.balance.confirmedBaseUnits < a.balance.confirmedBaseUnits ∨
    (a.balance.confirmedBaseUnits = b.balance.confirmedBaseUnits ∧ a.miner ≤ b.miner)

instance : DecidableRel payableOrder := fun a b =>
  inferInstanceAs (Decidable (b.balance.confirmedBaseUnits < a.balance.confirmedBaseUnits ∨
    (a.balance.confirmedBaseUnits = b.balance.confirmedBaseUnits ∧ a.miner ≤ b.miner)))

/-- The payable balance of a row. One that is negative cannot be read, and fails the whole listing.
-/
def toMinerBalance (row : BalanceRow) : Except RepositoryError MinerBalance :=
  (parseU128 row.balance.confirmedBaseUnits).map fun confirmed =>
    { miner := row.miner, address := row.miner, confirmedBaseUnits := confirmed }

/-- The largest balances, at most `limit` of them. -/
def listPayableBalances (db : Db) (minimumPayoutBaseUnits limit : Nat) :
    Except RepositoryError (List MinerBalance) :=
  (((db.books.balanceCache.rows.filter fun row =>
      decide ((minimumPayoutBaseUnits : Int) ≤ row.balance.confirmedBaseUnits)).insertionSort
    payableOrder).take limit).mapM toMinerBalance

/-- `order by created_at asc, id asc`. -/
def batchOrder (a b : PayoutBatchRow) : Prop :=
  a.createdAt < b.createdAt ∨ (a.createdAt = b.createdAt ∧ a.id ≤ b.id)

instance : DecidableRel batchOrder := fun a b =>
  inferInstanceAs (Decidable (a.createdAt < b.createdAt ∨
    (a.createdAt = b.createdAt ∧ a.id ≤ b.id)))

/-- The recipients of a batch, by miner. -/
def recipientsOf (db : Db) (batchId : String) : List PayoutRecipientRow :=
  (db.payoutRecipients.rows.filter fun r => r.batchId = batchId).insertionSort
    fun a b => a.miner ≤ b.miner

/-- The record of a row, with whatever recipients stand under its id. -/
def hydratePayoutBatchRecord (db : Db) (row : PayoutBatchRow) : PayoutBatchRecord where
  batchId := row.id
  status := row.status
  totalBaseUnits := row.totalBaseUnits
  txid := row.txid
  rawTxHash := row.rawTxHash
  recipients := (db.recipientsOf row.id).map fun r => ⟨r.miner, r.address, r.amountBaseUnits⟩

/-- The oldest batches of the given statuses. -/
def listPayoutBatchesByStatus (db : Db) (statuses : List PayoutStatus) (limit : Nat) :
    List PayoutBatchRecord :=
  (((db.payoutBatches.rows.filter fun row => statuses.contains row.status).insertionSort
    batchOrder).take limit).map db.hydratePayoutBatchRecord

/-- The batch of an id, provided its status is among those asked for. -/
def payoutBatchByIdAndStatuses (db : Db) (batchId : String) (statuses : List PayoutStatus) :
    Option PayoutBatchRecord :=
  ((db.payoutBatches.find? batchId).filter fun row => statuses.contains row.status).map
    db.hydratePayoutBatchRecord

/-- The statuses `active_payout_total_today` counts. -/
def activeStatuses : List PayoutStatus :=
  [.needsApproval, .created, .signed, .submitted, .confirmed]

/-- The sum of the batches since the day began that have not been given up. -/
def activePayoutTotalToday (db : Db) (currentDate : Nat) : Except RepositoryError Nat :=
  parseU128 (((db.payoutBatches.rows.filter fun row =>
    activeStatuses.contains row.status && decide (currentDate ≤ row.createdAt)).map
      (·.totalBaseUnits)).sum : Nat)

/-! ## Creating a locked batch -/

/-- One turn of the recipient loop. -/
def insertRecipient (batchId : String) (state : Books × Table PayoutRecipientRow)
    (recipient : PayoutRecipient) :
    Except RepositoryError (Books × Table PayoutRecipientRow) :=
  match minerIdInTx recipient.miner with
  | .error e => .error e
  | .ok miner =>
      let (recipients, inserted) := state.2.insert
        ⟨batchId, miner, recipient.address, recipient.amountBaseUnits⟩
      if inserted && matchesLowerHex 40 recipient.address then
        (state.1.lockRecipient batchId recipient).map fun books => (books, recipients)
      else .error .sql

/-- `Ok(created)` and the database after it. -/
def createLockedPayoutBatchWithStatus (db : Db) (draft : PayoutBatchDraft)
    (status : PayoutStatus) (now : Nat) : Except RepositoryError (Bool × Db) :=
  match i32TryFrom draft.recipients.length with
  | .error e => .error e
  | .ok _ =>
      let (payoutBatches, inserted) := db.payoutBatches.insert
        { id := draft.batchId, status := status, totalBaseUnits := draft.totalBaseUnits
          txid := none, rawTxHash := none, createdAt := now }
      if inserted then
        (draft.recipients.foldlM (insertRecipient draft.batchId)
            (db.books, db.payoutRecipients)).map fun (books, payoutRecipients) =>
          (true, { db with books, payoutRecipients, payoutBatches })
      else .ok (false, db)

/-- The batch that needs no approval. -/
def createLockedPayoutBatch (db : Db) (draft : PayoutBatchDraft) (now : Nat) :
    Except RepositoryError (Bool × Db) :=
  db.createLockedPayoutBatchWithStatus draft .created now

/-! ## Status changes -/

/-- `update payout_batches set … where id = $1 and status in (…)`, with its
`rows_affected() == 1`. -/
def updatePayoutBatch (db : Db) (batchId : String) (statuses : List PayoutStatus)
    (set : PayoutBatchRow → PayoutBatchRow)
    (keeps : ∀ r, (set r).id = r.id := by intro; rfl) : Bool × Db :=
  let (payoutBatches, updated) :=
    db.payoutBatches.update batchId (fun row => statuses.contains row.status) set keeps
  (updated, { db with payoutBatches })

/-- The node's transaction goes into a created batch. -/
def markPayoutSigned (db : Db) (batchId txid rawTxHash : String) : Bool × Db :=
  db.updatePayoutBatch batchId [.created] fun row =>
    { row with status := .signed, txid := some txid, rawTxHash := some rawTxHash }

/-- A transaction id that is there already stays. -/
def markPayoutSubmitted (db : Db) (batchId txid : String) : Bool × Db :=
  db.updatePayoutBatch batchId [.signed, .submitted] fun row =>
    { row with status := .submitted, txid := some (row.txid.getD txid) }

/-- The batch need not have been seen as submitted. -/
def markPayoutConfirmed (db : Db) (batchId : String) : Bool × Db :=
  db.updatePayoutBatch batchId [.submitted, .signed] fun row => { row with status := .confirmed }

/-- From any status that a locked batch has before its end. -/
def markPayoutFailed (db : Db) (batchId : String) : Bool × Db :=
  db.updatePayoutBatch batchId [.needsApproval, .created, .signed, .submitted] fun row =>
    { row with status := .failed }

/-- Only a batch that waits for approval is one that can get it. -/
def markPayoutApproved (db : Db) (batchId : String) : Bool × Db :=
  db.updatePayoutBatch batchId [.needsApproval] fun row => { row with status := .created }

/-- The statuses `cancel_payout` reads and writes from. -/
def cancellable : List PayoutStatus := [.needsApproval, .created, .signed]

def markPayoutCancelled (db : Db) (batchId : String) : Bool × Db :=
  db.updatePayoutBatch batchId cancellable fun row => { row with status := .cancelled }

/-! ## Closing entries -/

/-- The entries that give the locked amounts back, one for each recipient. -/
def unlockEntries (batch : PayoutBatchRecord) : List LedgerEntry :=
  batch.recipients.map fun recipient =>
    { miner := some recipient.miner
      amountBaseUnits := asI128 recipient.amountBaseUnits
      kind := .payoutFailedUnlock
      refType := "payout_batch"
      refId := batch.batchId }

/-- The entries that take the locked amounts out, one for each recipient. -/
def paidEntries (batch : PayoutBatchRecord) : List LedgerEntry :=
  batch.recipients.map fun recipient =>
    { miner := some recipient.miner
      amountBaseUnits := negI128 (asI128 recipient.amountBaseUnits)
      kind := .payoutSent
      refType := "payout_batch"
      refId := batch.batchId }

/-- One transaction for all the entries. -/
def appendLedgerEntries (db : Db) (entries : List LedgerEntry) : Except RepositoryError Db :=
  (db.books.appendLedgerEntries entries).map fun books => { db with books }

/-- `Ok(entries.len())` and the database after it. -/
def unlockFailedPayout (db : Db) (batch : PayoutBatchRecord) :
    Except RepositoryError (Nat × Db) :=
  (db.appendLedgerEntries (unlockEntries batch)).map fun db => ((unlockEntries batch).length, db)

def markPayoutPaid (db : Db) (batch : PayoutBatchRecord) : Except RepositoryError (Nat × Db) :=
  (db.appendLedgerEntries (paidEntries batch)).map fun db => ((paidEntries batch).length, db)

/-! ## What an append of closing entries does -/

theorem appendLedgerEntries_ok {db db' : Db} {entries : List LedgerEntry}
    (appended : db.appendLedgerEntries entries = .ok db') :
    ∃ books, db.books.appendLedgerEntries entries = .ok books ∧ db' = { db with books } := by
  unfold appendLedgerEntries at appended
  cases committed : db.books.appendLedgerEntries entries with
  | error err => rw [committed] at appended; cases appended
  | ok books => rw [committed] at appended; cases appended; exact ⟨books, rfl, rfl⟩

/-- It commits exactly if the schema admits every miner. -/
theorem appendLedgerEntries_isOk {db : Db} {entries : List LedgerEntry} :
    (∃ db', db.appendLedgerEntries entries = .ok db') ↔
      ∀ entry ∈ entries, Books.LegalMiner entry := by
  constructor
  · rintro ⟨db', appended⟩
    obtain ⟨books, committed, -⟩ := appendLedgerEntries_ok appended
    exact Theory.foldlM_establishes (P := fun entry _ => Books.LegalMiner entry)
      (fun _ _ _ _ legal _ => legal) (fun _ _ _ _ step => (Books.appendLedgerEntry_ok step).1)
      committed
  · intro legal
    obtain ⟨books, committed⟩ := Books.appendLedgerEntries_total db.books legal
    exact ⟨{ db with books }, by rw [appendLedgerEntries, committed]; rfl⟩

/-! ## What a status update does -/

/-- Only the row of the id changes, and only from one of the statuses. -/
theorem find?_updatePayoutBatch (db : Db) (batchId : String) (statuses : List PayoutStatus)
    (set : PayoutBatchRow → PayoutBatchRow) (keeps : ∀ r, (set r).id = r.id) (id : String) :
    (db.updatePayoutBatch batchId statuses set keeps).2.payoutBatches.find? id =
      (db.payoutBatches.find? id).map fun r =>
        if id = batchId ∧ statuses.contains r.status then set r else r :=
  Table.find?_update db.payoutBatches batchId (fun row => statuses.contains row.status) set keeps id

/-- The call reports a change exactly where the row stands in one of the statuses. -/
theorem updatePayoutBatch_fst (db : Db) (batchId : String) (statuses : List PayoutStatus)
    (set : PayoutBatchRow → PayoutBatchRow) (keeps : ∀ r, (set r).id = r.id) :
    (db.updatePayoutBatch batchId statuses set keeps).1 =
      (db.payoutBatches.find? batchId).any fun r => statuses.contains r.status :=
  Table.update_snd db.payoutBatches batchId (fun row => statuses.contains row.status) set keeps

/-! ## What a created batch adds -/

/-- The row of a recipient. -/
def recipientRow (batchId : String) (recipient : PayoutRecipient) : PayoutRecipientRow :=
  ⟨batchId, recipient.miner, recipient.address, recipient.amountBaseUnits⟩

/-- The recipient loop, statement by statement. -/
theorem insertRecipient_ok {batchId : String} {state state' : Books × Table PayoutRecipientRow}
    {recipient : PayoutRecipient}
    (inserted : insertRecipient batchId state recipient = .ok state') :
    matchesLowerHex 40 recipient.miner = true ∧
      state'.2.rows = state.2.rows ++ [recipientRow batchId recipient] ∧
      state.1.lockRecipient batchId recipient = .ok state'.1 := by
  unfold insertRecipient at inserted
  split at inserted
  · cases inserted
  · rename_i miner upserted
    obtain ⟨rfl, legal⟩ := minerIdInTx_ok upserted
    refine ⟨legal, ?_⟩
    by_cases fresh : state.2.find?
        (Keyed.key (⟨batchId, recipient.miner, recipient.address, recipient.amountBaseUnits⟩ :
          PayoutRecipientRow)) = none
    · obtain ⟨rows, went⟩ := Table.insert_of_fresh fresh
      simp only [went, Bool.true_and] at inserted
      split at inserted
      · cases locked : state.1.lockRecipient batchId recipient with
        | error e => rw [locked] at inserted; cases inserted
        | ok books =>
            rw [locked] at inserted
            cases inserted
            exact ⟨rows, rfl⟩
      · cases inserted
    · rw [Table.insert_of_taken fresh] at inserted
      simp at inserted

/-- **What `create_locked_payout_batch_with_status` does.**  A taken id changes
nothing; otherwise the row, the recipients and the locks go in together. -/
theorem createLocked_ok {db db' : Db} {draft : PayoutBatchDraft} {status : PayoutStatus}
    {now : Nat} {created : Bool}
    (ok : db.createLockedPayoutBatchWithStatus draft status now = .ok (created, db')) :
    (created = false ∧ db' = db) ∨
      (created = true ∧ db.payoutBatches.find? draft.batchId = none ∧
        ∃ books payoutRecipients,
          draft.recipients.foldlM (insertRecipient draft.batchId)
            (db.books, db.payoutRecipients) = .ok (books, payoutRecipients) ∧
          db' = { db with
            books, payoutRecipients
            payoutBatches := (db.payoutBatches.insert
              { id := draft.batchId, status := status, totalBaseUnits := draft.totalBaseUnits
                txid := none, rawTxHash := none, createdAt := now }).1 }) := by
  unfold createLockedPayoutBatchWithStatus at ok
  split at ok
  · cases ok
  · dsimp only at ok
    split at ok
    · rename_i inserted
      cases folded : draft.recipients.foldlM (insertRecipient draft.batchId)
          (db.books, db.payoutRecipients) with
      | error e => rw [folded] at ok; cases ok
      | ok state =>
          rw [folded] at ok
          cases ok
          exact .inr ⟨rfl, Table.insert_snd_iff.1 inserted, state.1, state.2, rfl, rfl⟩
    · cases ok
      exact .inl ⟨rfl, rfl⟩

/-- The loop adds a row for each recipient, in their order. -/
theorem insertRecipients_rows {batchId : String} {recipients : List PayoutRecipient}
    {state state' : Books × Table PayoutRecipientRow}
    (folded : recipients.foldlM (insertRecipient batchId) state = .ok state') :
    state'.2.rows = state.2.rows ++ recipients.map (recipientRow batchId) := by
  induction recipients generalizing state with
  | nil => simp [Theory.foldlM_ok_nil.1 folded]
  | cons recipient rest ih =>
      obtain ⟨mid, first, later⟩ := Theory.foldlM_ok_cons.1 folded
      rw [ih later, (insertRecipient_ok first).2.1]
      simp

/-- A loop that went through had admissible miners only. -/
theorem insertRecipients_legal {batchId : String} {recipients : List PayoutRecipient}
    {state state' : Books × Table PayoutRecipientRow}
    (folded : recipients.foldlM (insertRecipient batchId) state = .ok state') :
    ∀ r ∈ recipients, matchesLowerHex 40 r.miner = true := by
  induction recipients generalizing state with
  | nil => intro r member; cases member
  | cons recipient rest ih =>
      obtain ⟨mid, first, later⟩ := Theory.foldlM_ok_cons.1 folded
      intro r member
      rcases List.mem_cons.1 member with rfl | inRest
      · exact (insertRecipient_ok first).1
      · exact ih later r inRest

theorem insertRecipients_grows {batchId : String} {recipients : List PayoutRecipient}
    {state state' : Books × Table PayoutRecipientRow}
    (folded : recipients.foldlM (insertRecipient batchId) state = .ok state') :
    Books.Grows (recipients.map (Books.lockEntry batchId)) state.1 state'.1 := by
  refine Theory.foldlM_invariant
    (I := fun s : Books × Table PayoutRecipientRow =>
      Books.Grows (recipients.map (Books.lockEntry batchId)) state.1 s.1)
    ?_ (Books.Grows.refl _ _) folded
  intro recipient member s t sofar step
  refine sofar.trans ((Books.lockRecipient_grows (insertRecipient_ok step).2.2).mono ?_)
  intro x lock
  rw [List.mem_singleton.1 lock]
  exact List.mem_map_of_mem member

/-! ## Hydrated records -/

theorem mem_recipientsOf {db : Db} {batchId : String} {r : PayoutRecipientRow} :
    r ∈ db.recipientsOf batchId ↔ r ∈ db.payoutRecipients.rows ∧ r.batchId = batchId := by
  simp [recipientsOf, List.mem_insertionSort]

theorem listed_of_mem {db : Db} {statuses : List PayoutStatus} {limit : Nat}
    {batch : PayoutBatchRecord} (member : batch ∈ db.listPayoutBatchesByStatus statuses limit) :
    ∃ row, db.payoutBatches.find? batch.batchId = some row ∧ row.status ∈ statuses ∧
      batch = db.hydratePayoutBatchRecord row := by
  obtain ⟨row, inTake, rfl⟩ := List.mem_map.1 member
  have sorted := (List.mem_insertionSort _).1 (List.mem_of_mem_take inTake)
  obtain ⟨inRows, hit⟩ := List.mem_filter.1 sorted
  exact ⟨row, Table.find?_of_mem inRows, by simpa using hit, rfl⟩

/-- A batch is listed once. -/
theorem listed_nodup (db : Db) (statuses : List PayoutStatus) (limit : Nat) :
    ((db.listPayoutBatchesByStatus statuses limit).map (·.batchId)).Nodup := by
  have ids : (db.listPayoutBatchesByStatus statuses limit).map (·.batchId) =
      (((db.payoutBatches.rows.filter fun row => statuses.contains row.status).insertionSort
        batchOrder).take limit).map (·.id) := by
    rw [listPayoutBatchesByStatus, List.map_map]
    rfl
  rw [ids]
  exact (Theory.nodup_listing db.payoutBatches.unique _).sublist ((List.take_sublist ..).map _)

theorem listed_of_byId {db : Db} {batchId : String} {statuses : List PayoutStatus}
    {batch : PayoutBatchRecord}
    (found : db.payoutBatchByIdAndStatuses batchId statuses = some batch) :
    ∃ row, db.payoutBatches.find? batch.batchId = some row ∧ row.status ∈ statuses ∧
      batch = db.hydratePayoutBatchRecord row := by
  unfold payoutBatchByIdAndStatuses at found
  obtain ⟨row, hit, rfl⟩ := Option.map_eq_some_iff.1 found
  obtain ⟨present, status⟩ := Option.filter_eq_some_iff.1 hit
  have same : row.id = batchId := Table.key_of_find? present
  exact ⟨row, by rw [← same] at present; exact present, by simpa using status, rfl⟩

end Db

end CsdPool
