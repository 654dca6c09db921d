/-
# Memory.Calls — the shared calls, and what a caller sees of them

`Call` is a call of the traits that both repositories implement; `Db.call` and
`InMemoryRepository.call` answer it.  An `Outcome` is the answer with times and the order of rows
left out: a listing is a multiset, and of an error only that the call was refused.

`Alike` says for each call where the two repositories answer the same and stay in correspondence.
It speaks of the arguments, of what the repositories hold before the call, and in two places of the
calls before it: memory makes a balance only when it is set or credited, and never takes a block out
of `reward_blocks` again, and neither shows in the tables of the database.
-/
import Mathlib.Data.Multiset.Basic
import CsdPool.Db.Locking
import CsdPool.Db.Pool
import CsdPool.Db.Projection
import CsdPool.Memory.Repository
import CsdPool.Theory.Listing

namespace CsdPool

open Theory (Keyed Table CutAlike)

set_option autoImplicit false

/-! ## Calls -/

inductive Call
  | appendLedgerEntries (entries : List LedgerEntry)
  | listLedgerEntries
  | setBalance (balance : MinerBalance)
  | listBalances
  | createPayoutBatch (draft : PayoutBatchDraft)
  | listPayoutBatches
  | listPayableBalances (minimumPayoutBaseUnits : Nat) (limit : Int)
  | createLockedPayoutBatchWithStatus (draft : PayoutBatchDraft) (status : PayoutStatus)
  | listPayoutBatchesByStatus (statuses : List PayoutStatus) (limit : Int)
  | activePayoutTotalToday
  | markPayoutSigned (batchId txid rawTxHash : String)
  | markPayoutSubmitted (batchId txid : String)
  | markPayoutConfirmed (batchId : String)
  | markPayoutFailed (batchId : String)
  | markPayoutApproved (batchId : String)
  | retryFailedPayout (batchId newBatchId : String)
  | cancelPayout (batchId : String)
  | unlockFailedPayout (batch : PayoutBatchRecord)
  | markPayoutPaid (batch : PayoutBatchRecord)
  | upsertJob (job : JobRecord)
  | insertShare (share : ShareRecord)
  | recordBlockCandidate (block : BlockCandidateRecord)
  | listBlocksToReconcile (limit : Int)
  | updateBlockStatus (update : BlockStatusUpdate)
  | listConfirmedUnsettledBlocks (limit : Int)
  | shareWeightsForJob (jobId : String)
  | listMatureRewardEntries (confirmDepth : Nat) (limit : Int)
  | listOrphanReversalEntries (limit : Int)

/-- What the `sessions` table says to a share's `session_id`. -/
inductive SessionAnswer
  | standing
  | missing
  | malformed
  deriving DecidableEq

/-- What a call finds outside the modelled tables. -/
structure Env where
  now : Nat
  currentDate : Nat
  session : String → SessionAnswer

/-- A call, and what it finds outside the repository. -/
structure Step where
  env : Env
  call : Call

/-! ## Outcomes -/

structure BatchOutcome where
  batchId : String
  status : PayoutStatus
  totalBaseUnits : Nat
  txid : Option String
  rawTxHash : Option String
  recipients : Multiset PayoutRecipient
  deriving DecidableEq

structure DraftOutcome where
  batchId : String
  recipients : Multiset PayoutRecipient
  totalBaseUnits : Nat
  lockEntries : Multiset LedgerEntry
  deriving DecidableEq

inductive Outcome
  | refused
  | done
  | flag (changed : Bool)
  | amount (baseUnits : Nat)
  | entries (rows : Multiset LedgerEntry)
  | balances (rows : Multiset MinerBalance)
  | drafts (rows : Multiset DraftOutcome)
  | batches (rows : Multiset BatchOutcome)
  | batch (row : Option BatchOutcome)
  | blocks (rows : Multiset BlockRecord)
  | rewardBlocks (rows : Multiset RewardBlock)
  | weights (rows : Multiset ShareWeight)
  deriving DecidableEq

def PayoutBatchRecord.outcome (batch : PayoutBatchRecord) : BatchOutcome where
  batchId := batch.batchId
  status := batch.status
  totalBaseUnits := batch.totalBaseUnits
  txid := batch.txid
  rawTxHash := batch.rawTxHash
  recipients := batch.recipients

def PayoutBatchDraft.outcome (draft : PayoutBatchDraft) : DraftOutcome where
  batchId := draft.batchId
  recipients := draft.recipients
  totalBaseUnits := draft.totalBaseUnits
  lockEntries := draft.lockEntries

namespace Outcome

/-- An answer, or that there is none. -/
def ofResult {α : Type} (shown : α → Outcome) : Except RepositoryError α → Outcome
  | .ok answer => shown answer
  | .error _ => .refused

def ofEntries (rows : List LedgerEntry) : Outcome := .entries rows

def ofBalances (rows : List MinerBalance) : Outcome := .balances rows

def ofBlocks (rows : List BlockRecord) : Outcome := .blocks rows

def ofRewardBlocks (rows : List RewardBlock) : Outcome := .rewardBlocks rows

def ofWeights (rows : List ShareWeight) : Outcome := .weights rows

def ofBatches (rows : List PayoutBatchRecord) : Outcome :=
  .batches (rows.map PayoutBatchRecord.outcome : List BatchOutcome)

def ofDrafts (rows : List PayoutBatchDraft) : Outcome :=
  .drafts (rows.map PayoutBatchDraft.outcome : List DraftOutcome)

def ofBatch (row : Option PayoutBatchRecord) : Outcome :=
  .batch (row.map PayoutBatchRecord.outcome)

end Outcome

namespace Db

/-- A statement that writes: nothing, where it fails. -/
def writing {α : Type} (db : Db) (shown : α → Outcome) :
    Except RepositoryError (α × Db) → Outcome × Db
  | .ok (answer, db') => (shown answer, db')
  | .error _ => (.refused, db)

/-- `limit $1`, which must not be negative. -/
def limited {α : Type} (limit : Int) (listing : Nat → Except RepositoryError α) :
    Except RepositoryError α :=
  if 0 ≤ limit then listing limit.toNat else .error .sql

/-- `insert_share` with the session of the share, which the cast and the foreign key ask for. -/
def insertShareOfSession (db : Db) (session : String → SessionAnswer) (share : ShareRecord) :
    Except RepositoryError (Bool × Db) :=
  match share.sessionId.map session with
  | some .malformed => .error .sql
  | some .missing =>
      match db.insertShare share with
      | .ok (false, db) => .ok (false, db)
      | _ => .error .sql
  | _ => db.insertShare share

def call (db : Db) (env : Env) : Call → Outcome × Db
  | .appendLedgerEntries entries =>
      db.writing (fun _ => .done) ((db.appendLedgerEntries entries).map ((), ·))
  | .listLedgerEntries => (.ofResult .ofEntries db.listLedgerEntries, db)
  | .setBalance balance => db.writing (fun _ => .done) ((db.setBalance balance).map ((), ·))
  | .listBalances => (.ofResult .ofBalances db.listBalances, db)
  | .createPayoutBatch draft =>
      db.writing (fun _ => .done) ((db.createPayoutBatch draft env.now).map ((), ·))
  | .listPayoutBatches => (.ofDrafts db.listPayoutBatches, db)
  | .listPayableBalances minimum limit =>
      (.ofResult .ofBalances (limited limit (db.listPayableBalances minimum)), db)
  | .createLockedPayoutBatchWithStatus draft status =>
      db.writing .flag (db.createLockedPayoutBatchWithStatus draft status env.now)
  | .listPayoutBatchesByStatus statuses limit =>
      (.ofResult .ofBatches
        (limited limit fun n => .ok (db.listPayoutBatchesByStatus statuses n)), db)
  | .activePayoutTotalToday =>
      (.ofResult .amount (db.activePayoutTotalToday env.currentDate), db)
  | .markPayoutSigned batchId txid rawTxHash =>
      (db.markPayoutSigned batchId txid rawTxHash).map .flag id
  | .markPayoutSubmitted batchId txid => (db.markPayoutSubmitted batchId txid).map .flag id
  | .markPayoutConfirmed batchId => (db.markPayoutConfirmed batchId).map .flag id
  | .markPayoutFailed batchId => (db.markPayoutFailed batchId).map .flag id
  | .markPayoutApproved batchId => (db.markPayoutApproved batchId).map .flag id
  | .retryFailedPayout batchId newBatchId =>
      db.writing .ofBatch (db.retryFailedPayout batchId newBatchId env.now)
  | .cancelPayout batchId => (db.cancelPayout batchId).map (.ofResult .ofBatch) id
  | .unlockFailedPayout batch => db.writing .amount (db.unlockFailedPayout batch)
  | .markPayoutPaid batch => db.writing .amount (db.markPayoutPaid batch)
  | .upsertJob job => db.writing (fun _ => .done) ((db.upsertJob job).map ((), ·))
  | .insertShare share => db.writing .flag (db.insertShareOfSession env.session share)
  | .recordBlockCandidate block => db.writing .flag (db.recordBlockCandidate block env.now)
  | .listBlocksToReconcile limit =>
      (.ofResult .ofBlocks (limited limit db.listBlocksToReconcile), db)
  | .updateBlockStatus update => db.writing .flag (db.updateBlockStatus update env.now)
  | .listConfirmedUnsettledBlocks limit =>
      (.ofResult .ofRewardBlocks
        (limited limit fun n => .ok (db.listConfirmedUnsettledBlocks n)), db)
  | .shareWeightsForJob jobId => (.ofResult .ofWeights (db.shareWeightsForJob jobId), db)
  | .listMatureRewardEntries confirmDepth limit =>
      (.ofResult .ofEntries (limited limit (db.listMatureRewardEntries confirmDepth)), db)
  | .listOrphanReversalEntries limit =>
      (.ofResult .ofEntries (limited limit db.listOrphanReversalEntries), db)

end Db

namespace InMemoryRepository

def call (m : InMemoryRepository) : Call → Outcome × InMemoryRepository
  | .appendLedgerEntries entries =>
      (m.appendLedgerEntries entries).map (.ofResult fun _ => .done) id
  | .listLedgerEntries => (.ofEntries m.listLedgerEntries, m)
  | .setBalance balance => (.done, m.setBalance balance)
  | .listBalances => (.ofBalances m.listBalances, m)
  | .createPayoutBatch draft => (m.createPayoutBatch draft).map (.ofResult fun _ => .done) id
  | .listPayoutBatches => (.ofDrafts m.listPayoutBatches, m)
  | .listPayableBalances minimum limit => (.ofBalances (m.listPayableBalances minimum limit), m)
  | .createLockedPayoutBatchWithStatus draft status =>
      (m.createLockedPayoutBatchWithStatus draft status).map (.ofResult .flag) id
  | .listPayoutBatchesByStatus statuses limit =>
      (.ofBatches (m.listPayoutBatchesByStatus statuses limit), m)
  | .activePayoutTotalToday => (.amount m.activePayoutTotalToday, m)
  | .markPayoutSigned batchId txid rawTxHash =>
      (m.markPayoutSigned batchId txid rawTxHash).map .flag id
  | .markPayoutSubmitted batchId txid => (m.markPayoutSubmitted batchId txid).map .flag id
  | .markPayoutConfirmed batchId => (m.markPayoutConfirmed batchId).map .flag id
  | .markPayoutFailed batchId => (m.markPayoutFailed batchId).map .flag id
  | .markPayoutApproved batchId => (m.markPayoutApproved batchId).map .flag id
  | .retryFailedPayout batchId newBatchId =>
      (m.retryFailedPayout batchId newBatchId).map (.ofResult .ofBatch) id
  | .cancelPayout batchId => (m.cancelPayout batchId).map (.ofResult .ofBatch) id
  | .unlockFailedPayout batch => (m.unlockFailedPayout batch).map (.ofResult .amount) id
  | .markPayoutPaid batch => (m.markPayoutPaid batch).map (.ofResult .amount) id
  | .upsertJob job => (.done, m.upsertJob job)
  | .insertShare share => (m.insertShare share).map .flag id
  | .recordBlockCandidate block => (m.recordBlockCandidate block).map .flag id
  | .listBlocksToReconcile limit => (.ofBlocks (m.listBlocksToReconcile limit), m)
  | .updateBlockStatus update => (m.updateBlockStatus update).map .flag id
  | .listConfirmedUnsettledBlocks limit =>
      (.ofRewardBlocks (m.listConfirmedUnsettledBlocks limit), m)
  | .shareWeightsForJob jobId => (.ofWeights (m.shareWeightsForJob jobId), m)
  | .listMatureRewardEntries confirmDepth limit =>
      (.ofEntries (m.listMatureRewardEntries confirmDepth limit), m)
  | .listOrphanReversalEntries limit => (.ofEntries (m.listOrphanReversalEntries limit), m)

end InMemoryRepository

/-! ## Where they answer alike -/

namespace Books

/-- The fresh entry moves the confirmed balance of its miner in both. -/
def MovesAlike (books : Books) (entry : LedgerEntry) : Prop :=
  match entry.kind, entry.miner with
  | .rewardMature, some miner =>
      0 < entry.amountBaseUnits →
        (books.balance miner).confirmedBaseUnits + entry.amountBaseUnits < 2 ^ 128
  | .rewardOrphanReversal, some miner =>
      entry.amountBaseUnits < 0 → -2 ^ 127 < entry.amountBaseUnits ∧
        (wasMatured books.ledgerEntries miner entry.refType entry.refId = true ∨
          (books.balance miner).confirmedBaseUnits = 0)
  | .payoutLock, some _ => entry.amountBaseUnits < 0 → -2 ^ 127 < entry.amountBaseUnits
  | .payoutFailedUnlock, some miner =>
      0 < entry.amountBaseUnits → books.hasBalanceRow miner = true ∧
        (books.balance miner).confirmedBaseUnits + entry.amountBaseUnits < 2 ^ 128
  | _, _ => True

/-- A legal miner, a key no entry has, an amount that is an `i128`, and the same move. -/
def EntryAlike (books : Books) (entry : LedgerEntry) : Prop :=
  LegalMiner entry ∧ books.ledgerEntries.find? entry.ledgerKey = none ∧
    (-2 ^ 127 ≤ entry.amountBaseUnits ∧ entry.amountBaseUnits < 2 ^ 127) ∧
    books.MovesAlike entry

/-- Each entry in turn, on what the ones before it leave. -/
def AppendAlike : Books → List LedgerEntry → Prop
  | _, [] => True
  | books, entry :: rest =>
      books.EntryAlike entry ∧
        match books.appendLedgerEntry entry with
        | .ok books' => AppendAlike books' rest
        | .error _ => True

end Books

/-- The limit keeps the same rows in the listed order and in the order of their keys. -/
def KeysCutAlike (keys : List String) (limit : Int) : Prop :=
  CutAlike keys (keys.insertionSort (· ≤ ·)) limit.toNat

namespace Db

/-- The id is taken, or nothing in the recipients is refused. -/
def DryRunAlike (db : Db) (draft : PayoutBatchDraft) : Prop :=
  db.payoutBatches.find? draft.batchId ≠ none ∨
    draft.recipients.length < 2 ^ 31 ∧ (draft.recipients.map (·.miner)).Nodup ∧
      ∀ r ∈ draft.recipients,
        matchesLowerHex 40 r.miner = true ∧ matchesLowerHex 40 r.address = true

/-- The id is taken, or the recipients are payable, their lock entries are new, and the draft
brings no others. -/
def LocksAlike (db : Db) (draft : PayoutBatchDraft) : Prop :=
  draft.recipients.length < 2 ^ 31 ∧
    (db.payoutBatches.find? draft.batchId ≠ none ∨
      Lockable db draft ∧
      (∀ r ∈ draft.recipients, r.amountBaseUnits < 2 ^ 127 ∧
        db.books.ledgerEntries.find? (Books.lockEntry draft.batchId r).ledgerKey = none) ∧
      (draft.lockEntries = [] ∨
        draft.lockEntries.Perm (draft.recipients.map (Books.lockEntry draft.batchId))))

/-- A batch is submitted under the txid it has, if it has one. -/
def SubmitsAlike (db : Db) (batchId txid : String) : Prop :=
  ∀ row, db.payoutBatches.find? batchId = some row → row.status ∈ [.signed, .submitted] →
    row.txid = none ∨ row.txid = some txid

/-- What counts was created today, and adds up to a `u128`. -/
def TotalAlike (db : Db) (currentDate : Nat) : Prop :=
  (∀ row ∈ db.payoutBatches.rows, row.status ∈ activeStatuses → row.createdAt < currentDate →
      row.totalBaseUnits = 0) ∧
    ((db.payoutBatches.rows.filter fun row => activeStatuses.contains row.status).map
      (·.totalBaseUnits)).sum < 2 ^ 128

/-- The constraints admit the share, and its references stand unless its key is taken. -/
def ShareAlike (db : Db) (session : String → SessionAnswer) (share : ShareRecord) : Prop :=
  matchesLowerHex 40 share.miner = true ∧ shareAdmitted share = true ∧
    share.sessionId.map session ≠ some .malformed ∧
    (db.shares.find? (Keyed.key share) ≠ none ∨
      db.jobs.contains share.jobId = true ∧ share.sessionId.map session ≠ some .missing)

def CandidateAlike (db : Db) (block : BlockCandidateRecord) : Prop :=
  matchesLowerHex 40 block.miner = true ∧
    (db.blocks.find? block.hashHex ≠ none ∨ db.jobs.contains block.jobId = true)

/-- The confirmations fit the column, and so does a height that is written. -/
def UpdateAlike (db : Db) (update : BlockStatusUpdate) : Prop :=
  update.confirmations < 2 ^ 31 ∧
    (db.blocks.find? update.hashHex ≠ none → ∀ height, update.height = some height →
      height < 2 ^ 63)

/-- An immature reward has a miner, and no entry of `kind` but one about a block has his and the
block's reference.  (Memory looks at neither.) -/
def SiblingsAlike (db : Db) (kind : LedgerKind) (p : BlockRow → Bool) : Prop :=
  ∀ entry ∈ db.books.ledgerEntries.rows, entry.kind = .rewardImmature → entry.refType = "block" →
    (db.blockOf entry).any p = true →
      entry.miner ≠ none ∧
        ∀ other ∈ db.books.ledgerEntries.rows, other.kind = kind → other.miner = entry.miner →
          other.refId = entry.refId → other.refType = "block"

/-- The block is confirmed with a reward. -/
def rewarded (db : Db) (hash : String) : Bool :=
  (db.blocks.find? hash).any fun row => row.status = .confirmed && 0 < row.rewardBaseUnits

/-- Some entry refers to the block, of whatever kind. -/
def hasBlockEntry (db : Db) (hash : String) : Bool :=
  db.books.ledgerEntries.rows.any fun entry => entry.refType = "block" && entry.refId = hash

end Db

/-- The text of each difficulty has its whole part, and the fractions of a miner's texts stay below
one together. -/
def WeightsAlike (m : InMemoryRepository) (jobId : String) : Prop :=
  ∀ miner,
    let shares := m.shares.filter fun share => share.jobId = jobId ∧ share.miner = miner
    (∀ share ∈ shares, 0 ≤ share.difficulty ∧ ⌊share.row.difficulty⌋ = ⌊share.difficulty⌋) ∧
      (shares.map fun share => Int.fract share.row.difficulty).sum < 1 ∧
        (shares.map fun share => share.row.difficulty).sum < 2 ^ 64

/-! ### The calls so far -/

/-- The calls of a run up to here, with their outcomes. -/
abbrev Past := List (Step × Outcome)

/-- The miner's balance was set. -/
def Past.SetBalance (past : Past) (miner : Address) : Prop :=
  ∃ done ∈ past, ∃ balance, done.1.call = .setBalance balance ∧ balance.miner = miner

/-- The entry credits the confirmed balance of the miner. -/
def LedgerEntry.Credits (entry : LedgerEntry) (miner : Address) : Prop :=
  (entry.kind = .rewardMature ∨ entry.kind = .payoutFailedUnlock) ∧ entry.miner = some miner ∧
    0 < entry.amountBaseUnits

/-- A new candidate brought a reward for the block, or a confirmation of it did. -/
def Past.Rewarded (past : Past) (hash : String) : Prop :=
  ∃ done ∈ past, done.2 = .flag true ∧
    ((∃ block, done.1.call = .recordBlockCandidate block ∧ block.hashHex = hash ∧
        0 < block.rewardBaseUnits) ∨
      ∃ update, done.1.call = .updateBlockStatus update ∧ update.hashHex = hash ∧
        update.status = .confirmed ∧ 0 < update.rewardBaseUnits)

/-- A miner with nothing confirmed had a balance once: it was set or credited.  (The database makes
a row for an immature reward, too.) -/
def RowsAlike (past : Past) (db : Db) : Prop :=
  ∀ row ∈ db.books.balanceCache.rows, row.balance.confirmedBaseUnits = 0 →
    past.SetBalance row.miner ∨ ∃ entry ∈ db.books.ledgerEntries.rows, entry.Credits row.miner

/-- A block that was given a reward still is confirmed with one, unless an entry refers to it; and
the entries that refer to a block so confirmed include its reward. -/
def UnsettledAlike (past : Past) (db : Db) : Prop :=
  ∀ hash,
    (past.Rewarded hash → db.hasBlockEntry hash = false → db.rewarded hash = true) ∧
      (db.rewarded hash = true → db.hasBlockEntry hash = true → db.hasReward hash = true)

/-- The limit keeps the same entries in the listed order and in the order of memory's ledger. -/
def EntriesCutAlike (m : InMemoryRepository) (listed : List LedgerEntry) (limit : Int) : Prop :=
  CutAlike listed (m.ledgerEntries.filter (· ∈ listed)) limit.toNat

/-- The call is answered alike and leaves the repositories in correspondence. -/
def Alike (past : Past) (env : Env) (db : Db) (m : InMemoryRepository) : Call → Prop
  | .appendLedgerEntries entries => db.books.AppendAlike entries
  | .listLedgerEntries => True
  | .setBalance balance =>
      matchesLowerHex 40 balance.miner = true ∧ balance.address = balance.miner ∧
        balance.confirmedBaseUnits < 2 ^ 128
  | .listBalances => RowsAlike past db
  | .createPayoutBatch draft => db.DryRunAlike draft
  | .listPayoutBatches => ∀ draft ∈ m.payoutBatches.rows, draft.lockEntries = []
  | .listPayableBalances minimum limit => 0 ≤ limit ∧ (minimum = 0 → RowsAlike past db)
  | .createLockedPayoutBatchWithStatus draft _ => db.LocksAlike draft
  | .listPayoutBatchesByStatus statuses limit =>
      0 ≤ limit ∧ KeysCutAlike
        (((db.payoutBatches.rows.filter fun row => statuses.contains row.status).insertionSort
          Db.batchOrder).map (·.id)) limit
  | .activePayoutTotalToday => db.TotalAlike env.currentDate
  | .markPayoutSigned .. => True
  | .markPayoutSubmitted batchId txid => db.SubmitsAlike batchId txid
  | .markPayoutConfirmed _ => True
  | .markPayoutFailed _ => True
  | .markPayoutApproved _ => True
  | .retryFailedPayout batchId newBatchId =>
      db.payoutBatches.rows.length < 2 ^ 63 - 1 ∧
        ∀ original, db.payoutBatchByIdAndStatuses batchId [.failed, .cancelled] = some original →
          db.LocksAlike ⟨newBatchId, original.recipients, original.totalBaseUnits, []⟩
  | .cancelPayout batchId =>
      ∀ batch, db.payoutBatchByIdAndStatuses batchId Db.cancellable = some batch →
        db.books.AppendAlike (Db.unlockEntries batch)
  | .unlockFailedPayout batch => db.books.AppendAlike (Db.unlockEntries batch)
  | .markPayoutPaid batch => db.books.AppendAlike (Db.paidEntries batch)
  | .upsertJob job => Db.jobAdmitted job = true
  | .insertShare share => db.ShareAlike env.session share
  | .recordBlockCandidate block => db.CandidateAlike block
  | .listBlocksToReconcile limit => 0 ≤ limit ∧ KeysCutAlike (db.pollable.map (·.hash)) limit
  | .updateBlockStatus update => db.UpdateAlike update
  | .listConfirmedUnsettledBlocks limit =>
      0 ≤ limit ∧ UnsettledAlike past db ∧ KeysCutAlike (db.unsettled.map (·.hash)) limit
  | .shareWeightsForJob jobId => WeightsAlike m jobId
  | .listMatureRewardEntries confirmDepth limit =>
      0 ≤ limit ∧ confirmDepth < 2 ^ 31 ∧
        db.SiblingsAlike .rewardMature
          (fun row => row.status = .confirmed && confirmDepth ≤ row.confirmations) ∧
        EntriesCutAlike m (db.maturing confirmDepth) limit
  | .listOrphanReversalEntries limit =>
      0 ≤ limit ∧ db.SiblingsAlike .rewardOrphanReversal (fun row => row.status = .orphaned) ∧
        EntriesCutAlike m db.reversible limit ∧
        ∀ entry ∈ db.reversible.take limit.toNat, 0 ≤ entry.amountBaseUnits

end CsdPool
