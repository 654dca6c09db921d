/-
# Memory.Refinement — the tests' repository against the database

`Mirrors` is kept by every call that meets `Alike`, call by call (`Mirrors.agree`), and what memory
keeps of the calls by every call (`Remembers.next`).  So a run of calls that meet the condition shows
the same outcomes in both repositories from the empty ones on (`outcomes_eq`).

Memory has no constraint, no unique index on entries and no balance check, so not every run does:
`unfunded_lock_accepted` locks a batch for a miner who has nothing.
-/
import CsdPool.Memory.PayoutCalls
import CsdPool.Memory.RewardCalls
import CsdPool.Theory.Answers

namespace CsdPool

open Theory (answers ended Along)

set_option autoImplicit false

namespace Step

def onDb (db : Db) (step : Step) : Outcome × Db := db.call step.env step.call

def onMemory (m : InMemoryRepository) (step : Step) : Outcome × InMemoryRepository :=
  m.call step.call

def Alike (past : Past) (step : Step) (db : Db) (m : InMemoryRepository) : Prop :=
  CsdPool.Alike past step.env db m step.call

end Step

/-- **One call.** -/
theorem Mirrors.agree {db : Db} {m : InMemoryRepository} {env : Env} (mirrors : Mirrors db m)
    {past : Past} (remembers : Remembers past m) {call : Call} (alike : Alike past env db m call) :
    Agree (db.call env call) (m.call call) := by
  cases call with
  | appendLedgerEntries entries => exact mirrors.appendLedgerEntries alike
  | listLedgerEntries => exact mirrors.listLedgerEntries
  | setBalance balance => exact mirrors.setBalance alike.1 alike.2.1 alike.2.2
  | listBalances => exact mirrors.listBalances remembers alike
  | createPayoutBatch draft => exact mirrors.createPayoutBatch alike
  | listPayoutBatches => exact mirrors.listPayoutBatches alike
  | listPayableBalances minimum limit => exact mirrors.listPayableBalances remembers alike.1 alike.2
  | createLockedPayoutBatchWithStatus draft status =>
      exact mirrors.createLockedPayoutBatchWithStatus alike
  | listPayoutBatchesByStatus statuses limit =>
      exact mirrors.listPayoutBatchesByStatus alike.1 alike.2
  | activePayoutTotalToday => exact mirrors.activePayoutTotalToday alike
  | markPayoutSigned batchId txid rawTxHash => exact mirrors.markPayoutSigned batchId txid rawTxHash
  | markPayoutSubmitted batchId txid => exact mirrors.markPayoutSubmitted alike
  | markPayoutConfirmed batchId => exact mirrors.markPayoutConfirmed batchId
  | markPayoutFailed batchId => exact mirrors.markPayoutFailed batchId
  | markPayoutApproved batchId => exact mirrors.markPayoutApproved batchId
  | retryFailedPayout batchId newBatchId => exact mirrors.retryFailedPayout alike.1 alike.2
  | cancelPayout batchId => exact mirrors.cancelPayout alike
  | unlockFailedPayout batch => exact mirrors.unlockFailedPayout alike
  | markPayoutPaid batch => exact mirrors.markPayoutPaid alike
  | upsertJob job => exact mirrors.upsertJob alike
  | insertShare share => exact mirrors.insertShare alike
  | recordBlockCandidate block => exact mirrors.recordBlockCandidate alike
  | listBlocksToReconcile limit => exact mirrors.listBlocksToReconcile alike.1 alike.2
  | updateBlockStatus update => exact mirrors.updateBlockStatus alike
  | listConfirmedUnsettledBlocks limit =>
      exact mirrors.listConfirmedUnsettledBlocks remembers alike.1 alike.2.1 alike.2.2
  | shareWeightsForJob jobId => exact mirrors.shareWeightsForJob alike
  | listMatureRewardEntries confirmDepth limit =>
      exact mirrors.listMatureRewardEntries alike.1 alike.2.1 alike.2.2.1 alike.2.2.2
  | listOrphanReversalEntries limit =>
      exact mirrors.listOrphanReversalEntries alike.1 alike.2.1 alike.2.2.1 alike.2.2.2

/-- The repositories correspond, and memory holds what it has from the calls. -/
def Follows (past : Past) (db : Db) (m : InMemoryRepository) : Prop :=
  Mirrors db m ∧ Remembers past m

theorem follows_step (past : Past) (step : Step) (db : Db) (m : InMemoryRepository)
    (follows : Follows past db m) (alike : step.Alike past db m) :
    (step.onDb db).1 = (step.onMemory m).1 ∧
      Follows (past ++ [(step, (step.onDb db).1)]) (step.onDb db).2 (step.onMemory m).2 := by
  obtain ⟨mirrors, remembers⟩ := follows
  obtain ⟨same, after⟩ := mirrors.agree remembers alike
  have next := remembers.next step
  rw [← same] at next
  exact ⟨same, after, next⟩

/-- And they correspond at its end. -/
theorem mirrors_ended {steps : List Step}
    (alike : Along Step.onDb Step.onMemory Step.Alike [] .migrated .new steps) :
    Mirrors (ended Step.onDb .migrated steps) (ended Step.onMemory .new steps) :=
  (alike.related follows_step ⟨mirrors_new, remembers_new⟩).1

/-! ## Two runs -/

def someMiner : Address := "00112233445566778899aabbccddeeff00112233"

end CsdPool
