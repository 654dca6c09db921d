/-
# Memory.Repository — `InMemoryRepository`

The repository the tests run on: the same traits, over maps and lists behind one lock.  A
`BTreeMap` that is iterated is a `Table`, and `values` its entries in the order of their keys; one
that is only looked up is a function.  No call of another thread comes between the statements of
one, and a poisoned lock is not modelled.

Unlike the database it has no constraints, no unique index on ledger entries and one column of a
balance, the confirmed one.  `u128` additions wrap.
-/
import CsdPool.Db.Mining
import CsdPool.Db.Payouts

namespace CsdPool

open Theory (Keyed Table)

set_option autoImplicit false

instance instKeyedMinerBalance : Keyed MinerBalance Address := ⟨MinerBalance.miner⟩

instance instKeyedPayoutBatchDraft : Keyed PayoutBatchDraft String := ⟨PayoutBatchDraft.batchId⟩

instance instKeyedBlockCandidateRecord : Keyed BlockCandidateRecord String :=
  ⟨BlockCandidateRecord.hashHex⟩

instance instKeyedBlockRecord : Keyed BlockRecord String := ⟨BlockRecord.hashHex⟩

instance instKeyedRewardBlock : Keyed RewardBlock String := ⟨RewardBlock.hashHex⟩

/-- `InMemoryData`, as far as the calls below read and write it. -/
structure InMemoryRepository where
  ledgerEntries : List LedgerEntry
  balances : Table MinerBalance
  payoutBatches : Table PayoutBatchDraft
  payoutStatuses : String → Option PayoutStatus
  payoutTxids : String → Option String
  payoutRawTxs : String → Option String
  jobs : Table JobRecord
  shares : List ShareRecord
  blockCandidates : Table BlockCandidateRecord
  blockStatuses : Table BlockRecord
  rewardBlocks : Table RewardBlock

/-- `usize::try_from(limit.max(0))`. -/
def limitLen (limit : Int) : Nat := limit.toNat

/-- `u128::try_from` on an `i128`. -/
def u128TryFrom (n : Int) : Except RepositoryError Nat :=
  if 0 ≤ n then .ok n.toNat else .error .intConversion

/-- `difficulty as u64`. -/
def asU64 (difficulty : ℚ) : Nat := min difficulty.floor.toNat (2 ^ 64 - 1)

/-- `BTreeMap::values`. -/
def values {ρ : Type} [Keyed ρ String] (t : Table ρ) : List ρ :=
  t.rows.insertionSort fun a b => Keyed.key a ≤ Keyed.key b

namespace InMemoryRepository

def new : InMemoryRepository where
  ledgerEntries := []
  balances := .empty
  payoutBatches := .empty
  payoutStatuses := fun _ => none
  payoutTxids := fun _ => none
  payoutRawTxs := fun _ => none
  jobs := .empty
  shares := []
  blockCandidates := .empty
  blockStatuses := .empty
  rewardBlocks := .empty

/-! ## `PoolRepository` -/

/-- `entry(miner).and_modify(…).or_insert_with(…)`. -/
def credit (balances : Table MinerBalance) (miner : Address) (amount : Nat) : Table MinerBalance :=
  match balances.find? miner with
  | some balance =>
      balances.put { balance with confirmedBaseUnits := u128 (balance.confirmedBaseUnits + amount) }
  | none => balances.put { miner := miner, address := miner, confirmedBaseUnits := amount }

/-- `get_mut(miner)` and `saturating_sub`. -/
def debit (balances : Table MinerBalance) (miner : Address) (amount : Nat) : Table MinerBalance :=
  match balances.find? miner with
  | some balance =>
      balances.put { balance with confirmedBaseUnits := balance.confirmedBaseUnits - amount }
  | none => balances

/-- The `match (&entry.kind, entry.miner)` of `append_ledger_entries`. -/
def moveBalance (balances : Table MinerBalance) (entry : LedgerEntry) :
    Except RepositoryError (Table MinerBalance) :=
  match entry.kind, entry.miner with
  | .rewardMature, some miner =>
      if entry.amountBaseUnits > 0 then
        (u128TryFrom entry.amountBaseUnits).map (credit balances miner)
      else .ok balances
  | .rewardOrphanReversal, some miner =>
      if entry.amountBaseUnits < 0 then
        (u128TryFrom (negI128 entry.amountBaseUnits)).map (debit balances miner)
      else .ok balances
  | .payoutLock, some miner =>
      if entry.amountBaseUnits < 0 then
        (u128TryFrom (negI128 entry.amountBaseUnits)).map (debit balances miner)
      else .ok balances
  | .payoutFailedUnlock, some miner =>
      if entry.amountBaseUnits > 0 then
        (u128TryFrom entry.amountBaseUnits).map (credit balances miner)
      else .ok balances
  | _, _ => .ok balances

/-- The loop over the entries; the moves before a failure stay. -/
def moveBalances : Table MinerBalance → List LedgerEntry →
    Except RepositoryError Unit × Table MinerBalance
  | balances, [] => (.ok (), balances)
  | balances, entry :: rest =>
      match moveBalance balances entry with
      | .ok balances => moveBalances balances rest
      | .error e => (.error e, balances)

/-- The entries go in only if all of them could be moved; the balances keep the moves made before a
failure. -/
def appendLedgerEntries (m : InMemoryRepository) (entries : List LedgerEntry) :
    Except RepositoryError Unit × InMemoryRepository :=
  match moveBalances m.balances entries with
  | (.ok (), balances) =>
      (.ok (), { m with balances, ledgerEntries := m.ledgerEntries ++ entries })
  | (.error e, balances) => (.error e, { m with balances })

def listLedgerEntries (m : InMemoryRepository) : List LedgerEntry := m.ledgerEntries

/-- The row is replaced, or added. -/
def setBalance (m : InMemoryRepository) (balance : MinerBalance) : InMemoryRepository :=
  { m with balances := m.balances.put balance }

/-- By miner. -/
def listBalances (m : InMemoryRepository) : List MinerBalance := values m.balances

/-- The dry run: the draft is kept, with its status. -/
def createPayoutBatch (m : InMemoryRepository) (draft : PayoutBatchDraft) :
    Except RepositoryError Unit × InMemoryRepository :=
  if m.payoutBatches.contains draft.batchId then
    (.error (.duplicatePayoutBatch draft.batchId), m)
  else
    (.ok (), { m with
      payoutStatuses := Function.update m.payoutStatuses draft.batchId (some .dryRunOk)
      payoutBatches := m.payoutBatches.put draft })

def listPayoutBatches (m : InMemoryRepository) : List PayoutBatchDraft := values m.payoutBatches

/-! ## `PayoutRepository` -/

/-- `sort_by`: the largest confirmed balance first, then miner ascending. -/
def payableOrder (a b : MinerBalance) : Prop :=
  b.confirmedBaseUnits < a.confirmedBaseUnits ∨
    (a.confirmedBaseUnits = b.confirmedBaseUnits ∧ a.miner ≤ b.miner)

instance : DecidableRel payableOrder := fun a b =>
  inferInstanceAs (Decidable (b.confirmedBaseUnits < a.confirmedBaseUnits ∨
    (a.confirmedBaseUnits = b.confirmedBaseUnits ∧ a.miner ≤ b.miner)))

/-- The largest balances of those that reach the minimum. -/
def listPayableBalances (m : InMemoryRepository) (minimumPayoutBaseUnits : Nat) (limit : Int) :
    List MinerBalance :=
  (((values m.balances).filter fun balance =>
    minimumPayoutBaseUnits ≤ balance.confirmedBaseUnits).insertionSort payableOrder).take
      (limitLen limit)

/-- The entries a new batch appends: the draft's own, or one lock a recipient. -/
def lockEntries (draft : PayoutBatchDraft) : List LedgerEntry :=
  if draft.lockEntries.isEmpty then
    draft.recipients.map fun recipient =>
      { miner := some recipient.miner
        amountBaseUnits := negI128 (asI128 recipient.amountBaseUnits)
        kind := .payoutLock
        refType := "payout_batch"
        refId := draft.batchId }
  else draft.lockEntries

/-- The draft is kept before its amounts are locked, so it stays also where they cannot be. -/
def createLockedPayoutBatchWithStatus (m : InMemoryRepository) (draft : PayoutBatchDraft)
    (status : PayoutStatus) : Except RepositoryError Bool × InMemoryRepository :=
  if m.payoutBatches.contains draft.batchId then (.ok false, m)
  else
    match { m with
        payoutStatuses := Function.update m.payoutStatuses draft.batchId (some status)
        payoutBatches := m.payoutBatches.put draft }.appendLedgerEntries (lockEntries draft) with
    | (.ok (), m) => (.ok true, m)
    | (.error e, m) => (.error e, m)

def createLockedPayoutBatch (m : InMemoryRepository) (draft : PayoutBatchDraft) :
    Except RepositoryError Bool × InMemoryRepository :=
  m.createLockedPayoutBatchWithStatus draft .created

/-- The record of a draft: its status and its transaction stand in maps of their own. -/
def payoutBatchRecord (m : InMemoryRepository) (draft : PayoutBatchDraft) : PayoutBatchRecord where
  batchId := draft.batchId
  status := (m.payoutStatuses draft.batchId).getD .created
  totalBaseUnits := draft.totalBaseUnits
  txid := m.payoutTxids draft.batchId
  rawTxHash := m.payoutRawTxs draft.batchId
  recipients := draft.recipients

/-- In the order of the ids; a batch has no time here. -/
def listPayoutBatchesByStatus (m : InMemoryRepository) (statuses : List PayoutStatus)
    (limit : Int) : List PayoutBatchRecord :=
  (((values m.payoutBatches).filter fun draft =>
    (m.payoutStatuses draft.batchId).any statuses.contains).map m.payoutBatchRecord).take
      (limitLen limit)

/-- The statuses `active_payout_total_today` counts. -/
def activeStatuses : List PayoutStatus :=
  [.needsApproval, .created, .signed, .submitted, .confirmed]

/-- Without a day: every batch counts that has not been given up. -/
def activePayoutTotalToday (m : InMemoryRepository) : Nat :=
  u128 (((values m.payoutBatches).filter fun draft =>
    (m.payoutStatuses draft.batchId).any activeStatuses.contains).map (·.totalBaseUnits)).sum

/-- `payout_statuses.insert(batch_id, status)`. -/
def setStatus (m : InMemoryRepository) (batchId : String) (status : PayoutStatus) :
    InMemoryRepository :=
  { m with payoutStatuses := Function.update m.payoutStatuses batchId (some status) }

def markPayoutSigned (m : InMemoryRepository) (batchId txid rawTxHash : String) :
    Bool × InMemoryRepository :=
  if m.payoutStatuses batchId ≠ some .created then (false, m)
  else
    (true, { m.setStatus batchId .signed with
      payoutTxids := Function.update m.payoutTxids batchId (some txid)
      payoutRawTxs := Function.update m.payoutRawTxs batchId (some rawTxHash) })

/-- The transaction id is written over. -/
def markPayoutSubmitted (m : InMemoryRepository) (batchId txid : String) :
    Bool × InMemoryRepository :=
  if !(m.payoutStatuses batchId).any [.signed, .submitted].contains then (false, m)
  else
    (true, { m.setStatus batchId .submitted with
      payoutTxids := Function.update m.payoutTxids batchId (some txid) })

def markPayoutConfirmed (m : InMemoryRepository) (batchId : String) : Bool × InMemoryRepository :=
  if !(m.payoutStatuses batchId).any [.submitted, .signed].contains then (false, m)
  else (true, m.setStatus batchId .confirmed)

def markPayoutFailed (m : InMemoryRepository) (batchId : String) : Bool × InMemoryRepository :=
  if !(m.payoutStatuses batchId).any [.needsApproval, .created, .signed, .submitted].contains then
    (false, m)
  else (true, m.setStatus batchId .failed)

def markPayoutApproved (m : InMemoryRepository) (batchId : String) : Bool × InMemoryRepository :=
  if m.payoutStatuses batchId ≠ some .needsApproval then (false, m)
  else (true, m.setStatus batchId .created)

def unlockFailedPayout (m : InMemoryRepository) (batch : PayoutBatchRecord) :
    Except RepositoryError Nat × InMemoryRepository :=
  match m.appendLedgerEntries (Db.unlockEntries batch) with
  | (.ok (), m) => (.ok (Db.unlockEntries batch).length, m)
  | (.error e, m) => (.error e, m)

def markPayoutPaid (m : InMemoryRepository) (batch : PayoutBatchRecord) :
    Except RepositoryError Nat × InMemoryRepository :=
  match m.appendLedgerEntries (Db.paidEntries batch) with
  | (.ok (), m) => (.ok (Db.paidEntries batch).length, m)
  | (.error e, m) => (.error e, m)

/-- The copy is made as a created batch is, and is then looked up among these. -/
def retryFailedPayout (m : InMemoryRepository) (batchId newBatchId : String) :
    Except RepositoryError (Option PayoutBatchRecord) × InMemoryRepository :=
  if !(m.payoutStatuses batchId).any [.failed, .cancelled].contains then (.ok none, m)
  else
    match m.payoutBatches.find? batchId with
    | none => (.ok none, m)
    | some original =>
        match m.createLockedPayoutBatch
          { batchId := newBatchId
            recipients := original.recipients
            totalBaseUnits := original.totalBaseUnits
            lockEntries := [] } with
        | (.ok true, m) =>
            (.ok ((m.listPayoutBatchesByStatus [.created] (2 ^ 63 - 1)).find?
              fun batch => batch.batchId = newBatchId), m)
        | (.ok false, m) => (.ok none, m)
        | (.error e, m) => (.error e, m)

/-- The status changes before the amounts are given back. -/
def cancelPayout (m : InMemoryRepository) (batchId : String) :
    Except RepositoryError (Option PayoutBatchRecord) × InMemoryRepository :=
  if !(m.payoutStatuses batchId).any [.needsApproval, .created, .signed].contains then
    (.ok none, m)
  else
    let m := m.setStatus batchId .cancelled
    match m.payoutBatches.find? batchId with
    | none => (.ok none, m)
    | some draft =>
        let batch := { m.payoutBatchRecord draft with status := .cancelled }
        match m.unlockFailedPayout batch with
        | (.ok _, m) => (.ok (some batch), m)
        | (.error e, m) => (.error e, m)

/-! ## `MiningRepository` -/

def upsertJob (m : InMemoryRepository) (job : JobRecord) : InMemoryRepository :=
  { m with jobs := m.jobs.put job }

/-- A share is a new one unless all of its key has been seen. -/
def insertShare (m : InMemoryRepository) (share : ShareRecord) : Bool × InMemoryRepository :=
  if m.shares.any fun existing =>
      existing.jobId == share.jobId && existing.miner == share.miner &&
        existing.workerName == share.workerName &&
        existing.extranonce2Hex == share.extranonce2Hex &&
        existing.ntimeHex == share.ntimeHex && existing.nonceHex == share.nonceHex then (false, m)
  else (true, { m with shares := m.shares ++ [share] })

/-- A candidate goes into the two maps of blocks, and with a reward also into the map of rewards. -/
def recordBlockCandidate (m : InMemoryRepository) (block : BlockCandidateRecord) :
    Bool × InMemoryRepository :=
  if m.blockCandidates.contains block.hashHex then (false, m)
  else
    (true, { m with
      blockCandidates := m.blockCandidates.put block
      blockStatuses := m.blockStatuses.put
        { hashHex := block.hashHex
          jobId := block.jobId
          status := block.initialStatus
          height := none
          confirmations := 0
          rewardBaseUnits := block.rewardBaseUnits }
      rewardBlocks :=
        if block.rewardBaseUnits > 0 then
          m.rewardBlocks.put
            { hashHex := block.hashHex
              jobId := block.jobId
              rewardBaseUnits := block.rewardBaseUnits }
        else m.rewardBlocks })

/-! ## `BlockRepository` -/

def polledStatuses : List BlockStatus :=
  [.submitted, .submittedSecondary, .submittedDegraded, .relayFailed, .seenOnChain, .immature]

def listBlocksToReconcile (m : InMemoryRepository) (limit : Int) : List BlockRecord :=
  ((values m.blockStatuses).filter fun block => polledStatuses.contains block.status).take
    (limitLen limit)

def updateBlockStatus (m : InMemoryRepository) (update : BlockStatusUpdate) :
    Bool × InMemoryRepository :=
  match m.blockStatuses.find? update.hashHex with
  | none => (false, m)
  | some block =>
      (true, { m with
        blockStatuses := m.blockStatuses.put
          { block with
            status := update.status
            height := update.height
            confirmations := update.confirmations
            rewardBaseUnits := update.rewardBaseUnits }
        rewardBlocks :=
          if update.status = .confirmed ∧ update.rewardBaseUnits > 0 then
            m.rewardBlocks.put
              { hashHex := update.hashHex
                jobId := block.jobId
                rewardBaseUnits := update.rewardBaseUnits }
          else m.rewardBlocks })

/-! ## `RewardRepository` -/

/-- `settled_refs` holds the hash: some entry refers to the block, of whatever kind. -/
def settled (m : InMemoryRepository) (hash : String) : Bool :=
  m.ledgerEntries.any fun entry => entry.refType = "block" && entry.refId = hash

def listConfirmedUnsettledBlocks (m : InMemoryRepository) (limit : Int) : List RewardBlock :=
  ((values m.rewardBlocks).filter fun block => !m.settled block.hashHex).take (limitLen limit)

def shareWeightsForJob (m : InMemoryRepository) (jobId : String) : List ShareWeight :=
  let shares := m.shares.filter fun share => share.jobId = jobId
  (((shares.map (·.miner)).dedup).insertionSort (· ≤ ·)).map fun miner =>
    ⟨miner, ((shares.filter fun share => share.miner = miner).map
      (asU64 ·.difficulty)).sum % 2 ^ 64⟩

/-- `mature_refs` or `reversed_refs` holds the miner and the reference of the entry. -/
def hasSibling (m : InMemoryRepository) (kind : LedgerKind) (entry : LedgerEntry) : Bool :=
  m.ledgerEntries.any fun other =>
    other.kind = kind && other.miner = entry.miner && other.refId = entry.refId

/-- The three filters of the two listings of reward entries. -/
def awaits (m : InMemoryRepository) (kind : LedgerKind) (p : BlockRecord → Bool)
    (entry : LedgerEntry) : Bool :=
  (entry.kind = .rewardImmature && entry.refType = "block") &&
    (m.blockStatuses.find? entry.refId).any p && !m.hasSibling kind entry

def listMatureRewardEntries (m : InMemoryRepository) (confirmDepth : Nat) (limit : Int) :
    List LedgerEntry :=
  ((m.ledgerEntries.filter (m.awaits .rewardMature fun block =>
    block.status = .confirmed && confirmDepth ≤ block.confirmations)).take (limitLen limit)).map
      fun entry => { entry with kind := .rewardMature }

def listOrphanReversalEntries (m : InMemoryRepository) (limit : Int) : List LedgerEntry :=
  ((m.ledgerEntries.filter (m.awaits .rewardOrphanReversal fun block =>
    block.status = .orphaned)).take (limitLen limit)).map fun entry =>
      { entry with
        amountBaseUnits := negI128 entry.amountBaseUnits
        kind := .rewardOrphanReversal }

end InMemoryRepository

end CsdPool
