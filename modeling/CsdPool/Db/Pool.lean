/-
# Db.Pool — `AsyncPoolRepository`, and the calls of several transactions

The rest of the PostgreSQL repository: listings without a limit, `set_balance`, the dry-run batch,
and `retry_failed_payout` and `cancel_payout` as one caller makes them, with no other call between
their statements.  A `cancel_payout` that fails at its ledger entries has cancelled the batch
already.
-/
import CsdPool.Db.Blocks
import CsdPool.Db.Payouts

namespace CsdPool

open Theory (Keyed Table)

set_option autoImplicit false

namespace Db

/-! ## Ledger and balances -/

/-- Every entry, in the order of insertion; one amount that does not fit in an `i128` fails the
call. -/
def listLedgerEntries (db : Db) : Except RepositoryError (List LedgerEntry) :=
  db.books.ledgerEntries.rows.mapM fun row =>
    (parseI128 row.amountBaseUnits).map fun amount => { row with amountBaseUnits := amount }

/-- Writes the confirmed column over, whatever the ledger adds up to. -/
def setBalance (db : Db) (balance : MinerBalance) : Except RepositoryError Db :=
  (minerIdInTx balance.miner).map fun miner =>
    { db with
      books := { db.books with
        balanceCache := Books.upsertBalance db.books.balanceCache
          ⟨miner, { confirmedBaseUnits := balance.confirmedBaseUnits }⟩
          fun b => { b with confirmedBaseUnits := balance.confirmedBaseUnits } } }

/-- By miner. -/
def listBalances (db : Db) : Except RepositoryError (List MinerBalance) :=
  (db.books.balanceCache.rows.insertionSort fun a b => a.miner ≤ b.miner).mapM toMinerBalance

/-! ## Dry-run batches -/

/-- One turn of the recipient loop of `create_payout_batch`. -/
def insertDryRunRecipient (batchId : String) (recipients : Table PayoutRecipientRow)
    (recipient : PayoutRecipient) : Except RepositoryError (Table PayoutRecipientRow) :=
  match minerIdInTx recipient.miner with
  | .error e => .error e
  | .ok miner =>
      let (recipients, inserted) := recipients.insert
        ⟨batchId, miner, recipient.address, recipient.amountBaseUnits⟩
      if inserted && matchesLowerHex 40 recipient.address then .ok recipients else .error .sql

/-- The dry run of a batch: the batch and its recipients go in, and no balance moves. -/
def createPayoutBatch (db : Db) (draft : PayoutBatchDraft) (now : Nat) :
    Except RepositoryError Db :=
  match i32TryFrom draft.recipients.length with
  | .error e => .error e
  | .ok _ =>
      let (payoutBatches, inserted) := db.payoutBatches.insert
        { id := draft.batchId, status := .dryRunOk, totalBaseUnits := draft.totalBaseUnits
          txid := none, rawTxHash := none, createdAt := now }
      if inserted then
        (draft.recipients.foldlM (insertDryRunRecipient draft.batchId)
            db.payoutRecipients).map fun payoutRecipients =>
          { db with payoutRecipients, payoutBatches }
      else .error (.duplicatePayoutBatch draft.batchId)

def listPayoutBatches (db : Db) : List PayoutBatchDraft :=
  (db.payoutBatches.rows.insertionSort batchOrder).map fun row =>
    { batchId := row.id
      recipients := (db.recipientsOf row.id).map fun r => ⟨r.miner, r.address, r.amountBaseUnits⟩
      totalBaseUnits := row.totalBaseUnits
      lockEntries := [] }

/-! ## Retry and cancel -/

/-- The copy of a failed or a cancelled batch is created as any other batch is: it locks its amounts
anew, and no threshold is looked at. -/
def retryFailedPayout (db : Db) (batchId newBatchId : String) (now : Nat) :
    Except RepositoryError (Option PayoutBatchRecord × Db) :=
  match db.payoutBatchByIdAndStatuses batchId [.failed, .cancelled] with
  | none => .ok (none, db)
  | some original =>
      (db.createLockedPayoutBatch
        { batchId := newBatchId
          recipients := original.recipients
          totalBaseUnits := original.totalBaseUnits
          lockEntries := [] } now).map fun (created, db) =>
        if created then (db.payoutBatchByIdAndStatuses newBatchId [.created], db) else (none, db)

/-- Two statements, of which the second may fail when the first has been made. -/
def cancelPayout (db : Db) (batchId : String) :
    Except RepositoryError (Option PayoutBatchRecord) × Db :=
  match db.payoutBatchByIdAndStatuses batchId cancellable with
  | none => (.ok none, db)
  | some batch =>
      let (updated, db) := db.markPayoutCancelled batchId
      if updated then
        match db.unlockFailedPayout batch with
        | .ok (_, db) => (.ok (some { batch with status := .cancelled }), db)
        | .error e => (.error e, db)
      else (.ok none, db)

/-! ## When a dry run goes in -/

/-- A recipient goes in if both addresses have the form the columns check and its key is free. -/
theorem insertDryRunRecipient_ok_iff {batchId : String}
    {recipients recipients' : Table PayoutRecipientRow} {recipient : PayoutRecipient} :
    insertDryRunRecipient batchId recipients recipient = .ok recipients' ↔
      (matchesLowerHex 40 recipient.miner = true ∧ matchesLowerHex 40 recipient.address = true ∧
        recipients.find? (batchId, recipient.miner) = none) ∧
      recipients' = (recipients.insert (recipientRow batchId recipient)).1 := by
  have fresh : (recipients.insert (recipientRow batchId recipient)).2 = true ↔
      recipients.find? (batchId, recipient.miner) = none := Table.insert_snd_iff
  unfold insertDryRunRecipient minerIdInTx
  by_cases legal : matchesLowerHex 40 recipient.miner = true
  · rw [if_pos legal]
    dsimp only
    rw [show (⟨batchId, recipient.miner, recipient.address, recipient.amountBaseUnits⟩ :
      PayoutRecipientRow) = recipientRow batchId recipient from rfl, ← fresh]
    by_cases accepted : ((recipients.insert (recipientRow batchId recipient)).2 &&
        matchesLowerHex 40 recipient.address) = true
    · rw [if_pos accepted]
      obtain ⟨inserted, address⟩ := Bool.and_eq_true_iff.1 accepted
      simp only [Except.ok.injEq, legal, address, inserted, and_self, true_and]
      exact eq_comm
    · rw [if_neg accepted]
      rw [Bool.and_eq_true] at accepted
      simp only [reduceCtorEq, false_iff]
      rintro ⟨⟨-, address, inserted⟩, -⟩
      exact accepted ⟨inserted, address⟩
  · rw [if_neg legal]
    simp [legal]

theorem insertDryRunRecipients_ok {batchId : String} {recipients : List PayoutRecipient}
    {rows : Table PayoutRecipientRow} (distinct : (recipients.map (·.miner)).Nodup)
    (legal : ∀ r ∈ recipients, matchesLowerHex 40 r.miner = true ∧
      matchesLowerHex 40 r.address = true)
    (fresh : ∀ r ∈ recipients, rows.find? (batchId, r.miner) = none) :
    ∃ rows', recipients.foldlM (insertDryRunRecipient batchId) rows = .ok rows' ∧
      rows'.rows = rows.rows ++ recipients.map (recipientRow batchId) := by
  induction recipients generalizing rows with
  | nil => exact ⟨rows, rfl, (List.append_nil _).symm⟩
  | cons first rest ih =>
      rw [List.map_cons, List.nodup_cons] at distinct
      have here := fresh first List.mem_cons_self
      have went : insertDryRunRecipient batchId rows first =
          .ok (rows.insert (recipientRow batchId first)).1 :=
        insertDryRunRecipient_ok_iff.2
          ⟨⟨(legal first List.mem_cons_self).1, (legal first List.mem_cons_self).2, here⟩, rfl⟩
      obtain ⟨rows', folded, added⟩ := @ih (rows.insert (recipientRow batchId first)).1 distinct.2
        (fun r member => legal r (List.mem_cons_of_mem _ member)) fun r member => by
          rw [Table.find?_insert_ne, fresh r (List.mem_cons_of_mem _ member)]
          intro same
          exact distinct.1 (List.mem_map.2 ⟨r, member, (Prod.mk.inj same).2.symm⟩)
      refine ⟨rows', Theory.foldlM_ok_cons.2 ⟨_, went, folded⟩, ?_⟩
      rw [added, (Table.insert_of_fresh here).1, List.map_cons, List.append_assoc,
        List.singleton_append]

end Db

end CsdPool
