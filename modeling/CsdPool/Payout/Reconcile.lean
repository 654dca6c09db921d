/-
# Payout.Reconcile — one run of `reconcile_payouts`

`reconcilePayouts` is a whole run, alone on the database: the hundred oldest
submitted batches, one call of the node each.  A call that fails, or closing
entries the database refuses, ends the run (`?` inside the loop).

`payouts_updated_iff`: every batch whose own call succeeded gets the update of its
answer if and only if nothing that ends the run is listed before it.
-/
import CsdPool.Payout.Machine
import CsdPool.Theory.Passes

namespace CsdPool.Payout

open Theory (Keyed Table landed attempts)

set_option autoImplicit false

/-! ## The run -/

inductive Verdict
  | confirmed
  | failed
  | pending
  deriving DecidableEq, Repr

/-- The arms of the match on the transaction's status. -/
def verdict (status : TransactionStatusResponse) : Verdict :=
  if status.status = "confirmed" ∧ status.confirmations > 0 then .confirmed
  else if status.status = "failed" ∨ status.status = "rejected" then .failed
  else .pending

/-- The arms are those of the machine's reconcile runs. -/
theorem reconcileDecision_verdict {batch : PayoutBatchRecord} {txid : String}
    (sent : batch.txid = some txid) (status : TransactionStatusResponse)
    (rest : List PayoutBatchRecord) :
    reconcileDecision (.ok status) batch rest =
      match verdict status with
      | .confirmed => .goto (.reconcileConfirm batch rest)
      | .failed => .goto (.markFailed (.reconcile rest) batch)
      | .pending => .goto (.reconcileNext rest) := by
  simp only [reconcileDecision, sent, verdict]
  by_cases paid : status.status = "confirmed" ∧ status.confirmations > 0
  · simp only [if_pos paid]
  · rw [if_neg paid, if_neg paid]
    by_cases lost : status.status = "failed" ∨ status.status = "rejected"
    · simp only [if_pos lost]
    · simp only [if_neg lost]

/-- The closing transaction after a status update, which stands even if it fails. -/
def closePayout (marked : Db) (closed : Except RepositoryError (Nat × Db)) : Except Db Db :=
  match closed with
  | .error _ => .error marked
  | .ok (_, db) => .ok db

def confirmPayout (db : Db) (batch : PayoutBatchRecord) : Except Db Db :=
  let marked := (db.markPayoutConfirmed batch.batchId).2
  closePayout marked (marked.markPayoutPaid batch)

def failPayout (db : Db) (batch : PayoutBatchRecord) : Except Db Db :=
  let marked := (db.markPayoutFailed batch.batchId).2
  closePayout marked (marked.unlockFailedPayout batch)

section Run

-- the node's answer about a batch's transaction, by batch
variable (answers : String → Except String TransactionStatusResponse)

/-- One turn of the loop. -/
def reconcilePayout (db : Db) (batch : PayoutBatchRecord) : Except Db Db :=
  match batch.txid with
  | none => failPayout db batch
  | some _ =>
      match answers batch.batchId with
      | .error _ => .error db
      | .ok status =>
          match verdict status with
          | .confirmed => confirmPayout db batch
          | .failed => failPayout db batch
          | .pending => .ok db

/-- The database after the run, and the batches of its `outcomes`. -/
def reconcilePayouts (db : Db) : Db × List PayoutBatchRecord :=
  attempts (reconcilePayout answers) db (db.listPayoutBatchesByStatus [.submitted] 100)

/-! ## What is promised, and when -/

/-- The batch's own status call succeeded with this answer. -/
def Answered (batch : PayoutBatchRecord) (status : TransactionStatusResponse) : Prop :=
  batch.txid.isSome ∧ answers batch.batchId = .ok status

/-- The row has the status and every entry is in the ledger. -/
def ClosedAs (db : Db) (batch : PayoutBatchRecord) (status : PayoutStatus)
    (entries : List LedgerEntry) : Prop :=
  (∃ row, db.payoutBatches.find? batch.batchId = some row ∧ row.status = status) ∧
    ∀ entry ∈ entries, db.books.ledgerEntries.find? entry.ledgerKey ≠ none

/-- The update an answer asks for. -/
def HasVerdict (db : Db) (batch : PayoutBatchRecord) : Verdict → Prop
  | .confirmed => ClosedAs db batch .confirmed (Db.paidEntries batch)
  | .failed => ClosedAs db batch .failed (Db.unlockEntries batch)
  | .pending => ClosedAs db batch .submitted []

def PayoutsUpdated (db : Db) : Prop :=
  ∀ batch ∈ db.listPayoutBatchesByStatus [.submitted] 100, ∀ status,
    Answered answers batch status →
      batch ∈ (reconcilePayouts answers db).2 ∧
        HasVerdict (reconcilePayouts answers db).1 batch (verdict status)

/-- The schema admits every recipient, so the closing entries go in. -/
def legalRecipients (batch : PayoutBatchRecord) : Bool :=
  batch.recipients.all fun recipient => matchesLowerHex 40 recipient.miner

/-- The run goes on behind the batch. -/
def passable (batch : PayoutBatchRecord) : Bool :=
  match batch.txid with
  | none => legalRecipients batch
  | some _ =>
      match answers batch.batchId with
      | .error _ => false
      | .ok status => verdict status = .pending || legalRecipients batch

def PayoutsUnblocked (db : Db) : Prop :=
  ∀ batch ∈ db.listPayoutBatchesByStatus [.submitted] 100, ∀ status,
    Answered answers batch status →
      ∃ before after, db.listPayoutBatchesByStatus [.submitted] 100 = before ++ batch :: after ∧
        (∀ other ∈ before, passable answers other = true) ∧ passable answers batch = true

end Run

/-! ## One batch -/

section Turn

variable {answers : String → Except String TransactionStatusResponse} {db : Db}
  {batch : PayoutBatchRecord}

theorem paidEntries_legal :
    (∀ entry ∈ Db.paidEntries batch, Books.LegalMiner entry) ↔ legalRecipients batch = true := by
  simp [Db.paidEntries, Books.LegalMiner, legalRecipients]

theorem unlockEntries_legal :
    (∀ entry ∈ Db.unlockEntries batch, Books.LegalMiner entry) ↔ legalRecipients batch = true := by
  simp [Db.unlockEntries, Books.LegalMiner, legalRecipients]

/-- A conditional update of the batch's row, then an append of its closing entries. -/
structure ClosingTurn (db : Db) (batch : PayoutBatchRecord) (statuses : List PayoutStatus)
    (status : PayoutStatus) (entries : List LedgerEntry) (result : Except Db Db) : Prop where
  isOk : (∃ after, result = .ok after) ↔ ∀ entry ∈ entries, Books.LegalMiner entry
  rows : ∀ id, (landed result).payoutBatches.find? id = (db.payoutBatches.find? id).map fun row =>
    if id = batch.batchId ∧ statuses.contains row.status then { row with status } else row
  grows : Books.Grows entries db.books (landed result).books
  present : ∀ after, result = .ok after →
    ∀ entry ∈ entries, after.books.ledgerEntries.find? entry.ledgerKey ≠ none

theorem closePayout_closing {marked : Db} {statuses : List PayoutStatus} {status : PayoutStatus}
    {entries : List LedgerEntry} {count : Nat}
    (rows : ∀ id, marked.payoutBatches.find? id = (db.payoutBatches.find? id).map fun row =>
      if id = batch.batchId ∧ statuses.contains row.status then { row with status } else row)
    (books : marked.books = db.books) :
    ClosingTurn db batch statuses status entries
      (closePayout marked ((marked.appendLedgerEntries entries).map fun db => (count, db))) := by
  have legal : (∃ after, marked.appendLedgerEntries entries = .ok after) ↔
      ∀ entry ∈ entries, Books.LegalMiner entry := Db.appendLedgerEntries_isOk
  cases appended : marked.appendLedgerEntries entries with
  | error e =>
      rw [appended] at legal
      refine ⟨?_, rows, ?_, fun after ended => ?_⟩
      · rw [← legal]
        simp [closePayout, Except.map]
      · rw [← books]
        exact Books.Grows.refl entries marked.books
      · cases ended
  | ok after =>
      obtain ⟨books', committed, rfl⟩ := Db.appendLedgerEntries_ok appended
      rw [appended] at legal
      refine ⟨?_, rows, ?_, fun after ended => ?_⟩
      · rw [← legal]
        simp [closePayout, Except.map]
      · rw [← books]
        exact Books.appendLedgerEntries_grows committed
      · cases ended
        exact Books.appendLedgerEntries_present committed

theorem confirmPayout_closing : ClosingTurn db batch [.submitted, .signed] .confirmed
    (Db.paidEntries batch) (confirmPayout db batch) :=
  closePayout_closing (Db.find?_updatePayoutBatch db batch.batchId _ _ _) rfl

theorem failPayout_closing : ClosingTurn db batch [.needsApproval, .created, .signed, .submitted]
    .failed (Db.unlockEntries batch) (failPayout db batch) :=
  closePayout_closing (Db.find?_updatePayoutBatch db batch.batchId _ _ _) rfl

/-- **What a turn can do**: stop, leave the batch, or close it. -/
inductive Turned (db : Db) (batch : PayoutBatchRecord) : Except Db Db → Prop
  | stopped : Turned db batch (.error db)
  | left : Turned db batch (.ok db)
  | closed {statuses : List PayoutStatus} {status : PayoutStatus} {entries : List LedgerEntry}
      {result : Except Db Db} (closing : ClosingTurn db batch statuses status entries result) :
      Turned db batch result

theorem reconcilePayout_turned : Turned db batch (reconcilePayout answers db batch) := by
  unfold reconcilePayout
  cases batch.txid with
  | none => exact .closed failPayout_closing
  | some txid =>
      cases answers batch.batchId with
      | error e => exact .stopped
      | ok status =>
          show Turned db batch (match verdict status with
            | .confirmed => confirmPayout db batch
            | .failed => failPayout db batch
            | .pending => .ok db)
          cases verdict status with
          | confirmed => exact .closed confirmPayout_closing
          | failed => exact .closed failPayout_closing
          | pending => exact .left

theorem reconcilePayout_isOk (db : Db) (batch : PayoutBatchRecord) :
    (∃ after, reconcilePayout answers db batch = .ok after) ↔ passable answers batch = true := by
  have confirms : (∃ after, confirmPayout db batch = .ok after) ↔ legalRecipients batch = true :=
    confirmPayout_closing.isOk.trans paidEntries_legal
  have fails : (∃ after, failPayout db batch = .ok after) ↔ legalRecipients batch = true :=
    failPayout_closing.isOk.trans unlockEntries_legal
  unfold reconcilePayout passable
  cases batch.txid with
  | none => exact fails
  | some txid =>
      cases answers batch.batchId with
      | error e => simp
      | ok status =>
          cases said : verdict status with
          | confirmed => simpa [said] using confirms
          | failed => simpa [said] using fails
          | pending => simp [said]

/-- A turn of another batch changes neither a batch's row nor its entries. -/
theorem ClosedAs.turned {other : PayoutBatchRecord} {result : Except Db Db}
    {status : PayoutStatus} {entries : List LedgerEntry}
    (different : batch.batchId ≠ other.batchId) (closed : ClosedAs db batch status entries)
    (turned : Turned db other result) : ClosedAs (landed result) batch status entries := by
  cases turned with
  | stopped => exact closed
  | left => exact closed
  | closed closing =>
      obtain ⟨⟨row, found, stored⟩, present⟩ := closed
      refine ⟨⟨row, ?_, stored⟩, fun entry member => closing.grows.present (present entry member)⟩
      rw [closing.rows, found]
      simp [different]

theorem ClosingTurn.closedAs {statuses : List PayoutStatus} {status : PayoutStatus}
    {entries : List LedgerEntry} {after : Db}
    (closing : ClosingTurn db batch statuses status entries (.ok after))
    (among : PayoutStatus.submitted ∈ statuses) (waiting : ClosedAs db batch .submitted []) :
    ClosedAs after batch status entries := by
  obtain ⟨⟨row, found, submitted⟩, -⟩ := waiting
  refine ⟨⟨{ row with status }, ?_, rfl⟩, closing.present after rfl⟩
  have rows := closing.rows batch.batchId
  rw [found] at rows
  simpa [landed, submitted, among] using rows

/-- A batch that is still submitted gets the update of its answer. -/
theorem reconcilePayout_turn {after : Db} {status : TransactionStatusResponse}
    (waiting : ClosedAs db batch .submitted [])
    (stepped : reconcilePayout answers db batch = .ok after)
    (answered : Answered answers batch status) : HasVerdict after batch (verdict status) := by
  obtain ⟨txid, sent⟩ := Option.isSome_iff_exists.1 answered.1
  simp only [reconcilePayout, sent, answered.2] at stepped
  cases said : verdict status with
  | confirmed =>
      simp only [said] at stepped
      have closing : ClosingTurn db batch _ _ _ (confirmPayout db batch) := confirmPayout_closing
      rw [stepped] at closing
      exact closing.closedAs (by simp) waiting
  | failed =>
      simp only [said] at stepped
      have closing : ClosingTurn db batch _ _ _ (failPayout db batch) := failPayout_closing
      rw [stepped] at closing
      exact closing.closedAs (by simp) waiting
  | pending =>
      simp only [said] at stepped
      cases stepped
      exact waiting

end Turn

/-! ## The whole run -/

section Run

variable {answers : String → Except String TransactionStatusResponse} {db : Db}

theorem reconcilePayouts_outcomes : (reconcilePayouts answers db).2 =
    (db.listPayoutBatchesByStatus [.submitted] 100).takeWhile (passable answers) :=
  Theory.attempts_done reconcilePayout_isOk db _

/-- Whatever a run gets through is updated as the node said. -/
theorem reconcilePayouts_updates {batch : PayoutBatchRecord}
    (done : batch ∈ (reconcilePayouts answers db).2) {status : TransactionStatusResponse}
    (answered : Answered answers batch status) :
    HasVerdict (reconcilePayouts answers db).1 batch (verdict status) := by
  refine Theory.attempts_effect
    (fun batch db => ClosedAs db batch .submitted [])
    (fun batch db => ∀ status, Answered answers batch status →
      HasVerdict db batch (verdict status))
    PayoutBatchRecord.batchId
    (fun _ _ _ waiting stepped _ => reconcilePayout_turn waiting stepped)
    (fun _ _ _ different waiting => waiting.turned different reconcilePayout_turned)
    ?_ (db.listed_nodup [.submitted] 100) ?_ batch done status answered
  · intro batch other db different updated status answered
    have before := updated status answered
    cases said : verdict status with
    | confirmed => rw [said] at before; exact before.turned different reconcilePayout_turned
    | failed => rw [said] at before; exact before.turned different reconcilePayout_turned
    | pending => rw [said] at before; exact before.turned different reconcilePayout_turned
  · intro batch listed
    obtain ⟨row, found, submitted, -⟩ := Db.listed_of_mem listed
    exact ⟨⟨row, found, by simpa using submitted⟩, by simp⟩

/-- **When a run reaches every answered batch.** -/
theorem payouts_updated_iff : PayoutsUpdated answers db ↔ PayoutsUnblocked answers db := by
  constructor
  · intro updated batch listed status answered
    have done := (updated batch listed status answered).1
    rw [reconcilePayouts_outcomes] at done
    exact Theory.mem_takeWhile_iff.1 done
  · intro unblocked batch listed status answered
    have done : batch ∈ (reconcilePayouts answers db).2 := by
      rw [reconcilePayouts_outcomes]
      exact Theory.mem_takeWhile_iff.2 (unblocked batch listed status answered)
    exact ⟨done, reconcilePayouts_updates done answered⟩

end Run

end CsdPool.Payout
