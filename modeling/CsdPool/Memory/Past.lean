/-
# Memory.Past — what memory keeps of the calls so far

Memory makes a row for a miner when his balance is set or credited, and never drops one; a block it
holds in `reward_blocks` was once given a reward by a call that was answered with yes.  `Remembers`
says so of the calls of a run, and `Remembers.next` that every call keeps it.

Every call but `set_balance` appends some entries, none at all in most cases (`call_appends`), so
the balances need one argument about appending.
-/
import CsdPool.Memory.Calls

namespace CsdPool

open Theory (Keyed Table)

set_option autoImplicit false

namespace InMemoryRepository

/-! ## Appending -/

theorem isSome_put {balances : Table MinerBalance} {balance : MinerBalance} {miner : Address}
    (row : balance.miner = miner ∨ (balances.find? miner).isSome = true) :
    ((balances.put balance).find? miner).isSome = true := by
  rw [Table.find?_put]
  split
  · rfl
  · rename_i other
    exact row.resolve_left other

theorem isSome_credit {balances : Table MinerBalance} {own miner : Address} (amount : Nat)
    (row : own = miner ∨ (balances.find? miner).isSome = true) :
    ((credit balances own amount).find? miner).isSome = true := by
  unfold credit
  split
  · rename_i balance found
    have named : balance.miner = own := Table.key_of_find? found
    exact isSome_put (row.imp_left named.trans)
  · exact isSome_put row

theorem isSome_debit {balances : Table MinerBalance} {own miner : Address} (amount : Nat)
    (row : (balances.find? miner).isSome = true) :
    ((debit balances own amount).find? miner).isSome = true := by
  unfold debit
  split
  · exact isSome_put (.inr row)
  · exact row

/-- An entry drops no row and makes one for the miner it credits. -/
theorem isSome_moved {balances balances' : Table MinerBalance} {entry : LedgerEntry}
    {miner : Address} (moved : moveBalance balances entry = .ok balances')
    (row : entry.Credits miner ∨ (balances.find? miner).isSome = true) :
    (balances'.find? miner).isSome = true := by
  obtain ⟨owner, amount, kind, refType, refId⟩ := entry
  have still : ¬ LedgerEntry.Credits ⟨owner, amount, kind, refType, refId⟩ miner →
      (balances.find? miner).isSome = true := row.resolve_left
  unfold moveBalance at moved
  dsimp only at moved
  split at moved
  · rename_i own
    split at moved
    · obtain ⟨n, -, rfl⟩ := Theory.map_ok.1 moved
      refine isSome_credit n (row.imp_left ?_)
      exact fun credits => Option.some.inj credits.2.1
    · rename_i idle
      cases moved
      exact still fun credits => idle credits.2.2
  · split at moved
    · obtain ⟨n, -, rfl⟩ := Theory.map_ok.1 moved
      exact isSome_debit n (still fun credits => by simp [LedgerEntry.Credits] at credits)
    · cases moved
      exact still fun credits => by simp [LedgerEntry.Credits] at credits
  · split at moved
    · obtain ⟨n, -, rfl⟩ := Theory.map_ok.1 moved
      exact isSome_debit n (still fun credits => by simp [LedgerEntry.Credits] at credits)
    · cases moved
      exact still fun credits => by simp [LedgerEntry.Credits] at credits
  · rename_i own
    split at moved
    · obtain ⟨n, -, rfl⟩ := Theory.map_ok.1 moved
      refine isSome_credit n (row.imp_left ?_)
      exact fun credits => Option.some.inj credits.2.1
    · rename_i idle
      cases moved
      exact still fun credits => idle credits.2.2
  · rename_i mature _ _ unlock
    cases moved
    refine still fun credits => ?_
    obtain ⟨mature_ | unlock_, own, -⟩ := credits
    · exact (mature miner mature_ own).elim
    · exact (unlock miner unlock_ own).elim

theorem isSome_moveBalances {entries : List LedgerEntry} {balances : Table MinerBalance}
    {miner : Address} (row : (balances.find? miner).isSome = true) :
    ((moveBalances balances entries).2.find? miner).isSome = true := by
  induction entries generalizing balances with
  | nil => exact row
  | cons entry rest ih =>
      unfold moveBalances
      split
      · rename_i moved
        exact ih (isSome_moved moved (.inr row))
      · exact row

/-- Entries that were appended leave a row for everyone they credit. -/
theorem isSome_credited {entries : List LedgerEntry} {balances : Table MinerBalance}
    {miner : Address} (done : (moveBalances balances entries).1 = .ok ()) {entry : LedgerEntry}
    (member : entry ∈ entries) (credits : entry.Credits miner) :
    ((moveBalances balances entries).2.find? miner).isSome = true := by
  induction entries generalizing balances with
  | nil => cases member
  | cons first rest ih =>
      unfold moveBalances at done ⊢
      split at done
      · rename_i next moved
        rcases List.mem_cons.1 member with rfl | later
        · exact isSome_moveBalances (isSome_moved moved (.inl credits))
        · exact ih done later
      · cases done

theorem appendLedgerEntries_balances (m : InMemoryRepository) (entries : List LedgerEntry) :
    (m.appendLedgerEntries entries).2.balances = (moveBalances m.balances entries).2 := by
  unfold appendLedgerEntries
  split
  · rename_i moved
    rw [moved]
  · rename_i moved
    rw [moved]

theorem mem_appendLedgerEntries {m : InMemoryRepository} {entries : List LedgerEntry}
    {entry : LedgerEntry} (member : entry ∈ (m.appendLedgerEntries entries).2.ledgerEntries) :
    entry ∈ m.ledgerEntries ∨ (moveBalances m.balances entries).1 = .ok () ∧ entry ∈ entries := by
  unfold appendLedgerEntries at member
  split at member
  · rename_i moved
    exact (List.mem_append.1 member).imp_right fun new => ⟨by rw [moved], new⟩
  · exact .inl member

/-- Whom the ledger credits has a row. -/
def Credited (m : InMemoryRepository) : Prop :=
  ∀ entry ∈ m.ledgerEntries, ∀ miner, entry.Credits miner →
    (m.balances.find? miner).isSome = true

theorem Credited.append {m : InMemoryRepository} (credited : m.Credited)
    (entries : List LedgerEntry) : (m.appendLedgerEntries entries).2.Credited := by
  intro entry member miner credits
  rw [appendLedgerEntries_balances]
  rcases mem_appendLedgerEntries member with before | ⟨done, new⟩
  · exact isSome_moveBalances (credited entry before miner credits)
  · exact isSome_credited done new credits

/-! ## The calls -/

/-- The balances, the ledger and the rewarded blocks are those after appending some entries. -/
def Appends (m m' : InMemoryRepository) : Prop :=
  ∃ entries, m'.balances = (m.appendLedgerEntries entries).2.balances ∧
    m'.ledgerEntries = (m.appendLedgerEntries entries).2.ledgerEntries ∧
    m'.rewardBlocks = m.rewardBlocks

theorem appends_none {m m' : InMemoryRepository} (balances : m'.balances = m.balances)
    (ledger : m'.ledgerEntries = m.ledgerEntries) (rewards : m'.rewardBlocks = m.rewardBlocks) :
    m.Appends m' :=
  ⟨[], balances, ledger.trans (List.append_nil _).symm, rewards⟩

/-- What is appended to does not depend on the other maps. -/
theorem appends_of_same {m other : InMemoryRepository} (balances : other.balances = m.balances)
    (ledger : other.ledgerEntries = m.ledgerEntries) (rewards : other.rewardBlocks = m.rewardBlocks)
    (entries : List LedgerEntry) : m.Appends (other.appendLedgerEntries entries).2 := by
  refine ⟨entries, ?_, ?_, ?_⟩
  · rw [appendLedgerEntries_balances, appendLedgerEntries_balances, balances]
  · unfold appendLedgerEntries
    rw [balances]
    split
    · exact congrArg (· ++ entries) ledger
    · exact ledger
  · unfold appendLedgerEntries
    split
    · exact rewards
    · exact rewards

theorem appends_createLocked (m : InMemoryRepository) (draft : PayoutBatchDraft)
    (status : PayoutStatus) : m.Appends (m.createLockedPayoutBatchWithStatus draft status).2 := by
  unfold createLockedPayoutBatchWithStatus
  split
  · exact appends_none rfl rfl rfl
  · let stored : InMemoryRepository := { m with
      payoutStatuses := Function.update m.payoutStatuses draft.batchId (some status)
      payoutBatches := m.payoutBatches.put draft }
    have appended : m.Appends (stored.appendLedgerEntries (lockEntries draft)).2 := by
      apply appends_of_same <;> rfl
    split
    · rename_i went
      rw [went] at appended
      exact appended
    · rename_i went
      rw [went] at appended
      exact appended

theorem appends_unlock {m other : InMemoryRepository} (balances : other.balances = m.balances)
    (ledger : other.ledgerEntries = m.ledgerEntries) (rewards : other.rewardBlocks = m.rewardBlocks)
    (batch : PayoutBatchRecord) : m.Appends (other.unlockFailedPayout batch).2 := by
  have appended := appends_of_same balances ledger rewards (Db.unlockEntries batch)
  unfold unlockFailedPayout
  split
  · rename_i went
    rw [went] at appended
    exact appended
  · rename_i went
    rw [went] at appended
    exact appended

theorem appends_retry (m : InMemoryRepository) (batchId newBatchId : String) :
    m.Appends (m.retryFailedPayout batchId newBatchId).2 := by
  unfold retryFailedPayout
  split
  · exact appends_none rfl rfl rfl
  · split
    · exact appends_none rfl rfl rfl
    · rename_i original _
      have created := m.appends_createLocked
        ⟨newBatchId, original.recipients, original.totalBaseUnits, []⟩ .created
      unfold createLockedPayoutBatch
      split
      · rename_i went
        rw [went] at created
        exact created
      · rename_i went
        rw [went] at created
        exact created
      · rename_i went
        rw [went] at created
        exact created

theorem appends_cancel (m : InMemoryRepository) (batchId : String) :
    m.Appends (m.cancelPayout batchId).2 := by
  unfold cancelPayout
  dsimp only
  split
  · exact appends_none rfl rfl rfl
  · split
    · exact appends_none rfl rfl rfl
    · rename_i draft _
      have unlocked : m.Appends ((m.setStatus batchId .cancelled).unlockFailedPayout
          { (m.setStatus batchId .cancelled).payoutBatchRecord draft with
            status := .cancelled }).2 := by
        apply appends_unlock <;> rfl
      split
      · rename_i went
        rw [went] at unlocked
        exact unlocked
      · rename_i went
        rw [went] at unlocked
        exact unlocked

theorem appends_paid (m : InMemoryRepository) (batch : PayoutBatchRecord) :
    m.Appends (m.markPayoutPaid batch).2 := by
  have appended := appends_of_same (m := m) rfl rfl rfl (Db.paidEntries batch)
  unfold markPayoutPaid
  split
  · rename_i went
    rw [went] at appended
    exact appended
  · rename_i went
    rw [went] at appended
    exact appended

/-- A conditional write to other maps. -/
theorem appends_ite {α : Type} {m m' : InMemoryRepository} {c : Prop} [Decidable c] {a b : α}
    (same : m.Appends m') : m.Appends (if c then (a, m) else (b, m')).2 := by
  split
  · exact appends_none rfl rfl rfl
  · exact same

/-- **What a call does to the balances and the ledger.** -/
theorem call_appends (m : InMemoryRepository) (call : Call) :
    (∃ balance, call = .setBalance balance) ∨ (∃ block, call = .recordBlockCandidate block) ∨
      (∃ update, call = .updateBlockStatus update) ∨ m.Appends (m.call call).2 := by
  cases call with
  | setBalance balance => exact .inl ⟨balance, rfl⟩
  | recordBlockCandidate block => exact .inr (.inl ⟨block, rfl⟩)
  | updateBlockStatus update => exact .inr (.inr (.inl ⟨update, rfl⟩))
  | appendLedgerEntries entries =>
      exact .inr (.inr (.inr (appends_of_same rfl rfl rfl entries)))
  | createLockedPayoutBatchWithStatus draft status =>
      exact .inr (.inr (.inr (m.appends_createLocked draft status)))
  | retryFailedPayout batchId newBatchId =>
      exact .inr (.inr (.inr (m.appends_retry batchId newBatchId)))
  | cancelPayout batchId => exact .inr (.inr (.inr (m.appends_cancel batchId)))
  | unlockFailedPayout batch =>
      exact .inr (.inr (.inr (appends_unlock rfl rfl rfl batch)))
  | markPayoutPaid batch => exact .inr (.inr (.inr (m.appends_paid batch)))
  | createPayoutBatch | markPayoutSigned | markPayoutSubmitted | markPayoutConfirmed
  | markPayoutFailed | markPayoutApproved | insertShare =>
      exact .inr (.inr (.inr (appends_ite (appends_none rfl rfl rfl))))
  | listLedgerEntries | listBalances | listPayoutBatches | listPayableBalances
  | listPayoutBatchesByStatus | activePayoutTotalToday | upsertJob | listBlocksToReconcile
  | listConfirmedUnsettledBlocks | shareWeightsForJob | listMatureRewardEntries
  | listOrphanReversalEntries =>
      exact .inr (.inr (.inr (appends_none rfl rfl rfl)))

/-- Which block a new candidate rewards. -/
theorem recordBlockCandidate_rewards (m : InMemoryRepository) (block : BlockCandidateRecord) :
    (m.recordBlockCandidate block).2.balances = m.balances ∧
      (m.recordBlockCandidate block).2.ledgerEntries = m.ledgerEntries ∧
      ∀ hash, ((m.recordBlockCandidate block).2.rewardBlocks.find? hash).isSome = true →
        (m.rewardBlocks.find? hash).isSome = true ∨
          (m.recordBlockCandidate block).1 = true ∧ block.hashHex = hash ∧
            0 < block.rewardBaseUnits := by
  unfold recordBlockCandidate
  split
  · exact ⟨rfl, rfl, fun _ => .inl⟩
  · refine ⟨rfl, rfl, fun hash found => ?_⟩
    dsimp only at found
    split at found
    · rename_i positive
      rw [Table.find?_put] at found
      split at found
      · rename_i own
        exact .inr ⟨rfl, own, positive⟩
      · exact .inl found
    · exact .inl found

/-- Which block an update rewards. -/
theorem updateBlockStatus_rewards (m : InMemoryRepository) (update : BlockStatusUpdate) :
    (m.updateBlockStatus update).2.balances = m.balances ∧
      (m.updateBlockStatus update).2.ledgerEntries = m.ledgerEntries ∧
      ∀ hash, ((m.updateBlockStatus update).2.rewardBlocks.find? hash).isSome = true →
        (m.rewardBlocks.find? hash).isSome = true ∨
          (m.updateBlockStatus update).1 = true ∧ update.hashHex = hash ∧
            update.status = .confirmed ∧ 0 < update.rewardBaseUnits := by
  unfold updateBlockStatus
  split
  · exact ⟨rfl, rfl, fun _ => .inl⟩
  · refine ⟨rfl, rfl, fun hash found => ?_⟩
    dsimp only at found
    split at found
    · rename_i positive
      rw [Table.find?_put] at found
      split at found
      · rename_i own
        exact .inr ⟨rfl, own, positive⟩
      · exact .inl found
    · exact .inl found

end InMemoryRepository

/-! ## The invariant -/

/-- What memory holds, and the calls it comes from. -/
structure Remembers (past : Past) (m : InMemoryRepository) : Prop where
  set : ∀ miner, past.SetBalance miner → (m.balances.find? miner).isSome = true
  credited : m.Credited
  rewards : ∀ hash, (m.rewardBlocks.find? hash).isSome = true → past.Rewarded hash

theorem remembers_new : Remembers [] .new where
  set := fun _ ⟨_, member, _⟩ => absurd member List.not_mem_nil
  credited := fun _ member => absurd member List.not_mem_nil
  rewards := fun _ found => by cases found

namespace Remembers

variable {past : Past} {m : InMemoryRepository} {step : Step} {answer : Outcome}

theorem rewarded_append {hash : String} (done : Step × Outcome)
    (rewarded : past.Rewarded hash) : Past.Rewarded (past ++ [done]) hash := by
  obtain ⟨before, member, how⟩ := rewarded
  exact ⟨before, List.mem_append_left _ member, how⟩

/-- A call that sets no balance and appends some entries. -/
theorem appends {m' : InMemoryRepository} (remembers : Remembers past m)
    (notSet : ∀ balance, step.call ≠ .setBalance balance) (appends : m.Appends m') :
    Remembers (past ++ [(step, answer)]) m' := by
  obtain ⟨entries, balances, ledger, rewards⟩ := appends
  refine ⟨?_, ?_, ?_⟩
  · rintro miner ⟨done, member, balance, set, own⟩
    have before : past.SetBalance miner := by
      rcases List.mem_append.1 member with before | here
      · exact ⟨done, before, balance, set, own⟩
      · rw [List.mem_singleton.1 here] at set
        exact absurd set (notSet balance)
    rw [balances, InMemoryRepository.appendLedgerEntries_balances]
    exact InMemoryRepository.isSome_moveBalances (remembers.set miner before)
  · intro entry member miner credits
    rw [ledger] at member
    rw [balances]
    exact remembers.credited.append entries entry member miner credits
  · intro hash found
    rw [rewards] at found
    exact rewarded_append _ (remembers.rewards hash found)

/-- A call that leaves the balances and the ledger. -/
theorem rewarding {m' : InMemoryRepository} (remembers : Remembers past m)
    (notSet : ∀ balance, step.call ≠ .setBalance balance) (balances : m'.balances = m.balances)
    (ledger : m'.ledgerEntries = m.ledgerEntries)
    (rewards : ∀ hash, (m'.rewardBlocks.find? hash).isSome = true →
      (m.rewardBlocks.find? hash).isSome = true ∨
        Past.Rewarded (past ++ [(step, answer)]) hash) :
    Remembers (past ++ [(step, answer)]) m' := by
  have kept : m.Appends { m' with rewardBlocks := m.rewardBlocks } :=
    InMemoryRepository.appends_none balances ledger rfl
  have same : Remembers (past ++ [(step, answer)]) { m' with rewardBlocks := m.rewardBlocks } :=
    remembers.appends notSet kept
  refine ⟨same.set, same.credited, fun hash found => ?_⟩
  rcases rewards hash found with before | now
  · exact same.rewards hash before
  · exact now

theorem setBalance (remembers : Remembers past m) {balance : MinerBalance}
    (set : step.call = .setBalance balance) :
    Remembers (past ++ [(step, answer)]) (m.setBalance balance) := by
  refine ⟨?_, ?_, ?_⟩
  · rintro miner ⟨done, member, balance', set', own⟩
    refine InMemoryRepository.isSome_put ?_
    rcases List.mem_append.1 member with before | here
    · exact .inr (remembers.set miner ⟨done, before, balance', set', own⟩)
    · rw [List.mem_singleton.1 here, set] at set'
      cases set'
      exact .inl own
  · exact fun entry member miner credits =>
      InMemoryRepository.isSome_put (.inr (remembers.credited entry member miner credits))
  · exact fun hash found => rewarded_append _ (remembers.rewards hash found)

/-- **Every call keeps it.** -/
theorem next (remembers : Remembers past m) (step : Step) :
    Remembers (past ++ [(step, (m.call step.call).1)]) (m.call step.call).2 := by
  have here : (step, (m.call step.call).1) ∈ past ++ [(step, (m.call step.call).1)] :=
    List.mem_append_right _ List.mem_cons_self
  by_cases set : ∃ balance, step.call = .setBalance balance
  · obtain ⟨balance, set⟩ := set
    have after : Remembers (past ++ [(step, (m.call step.call).1)]) (m.setBalance balance) :=
      remembers.setBalance set
    rw [set] at after ⊢
    exact after
  have notSet : ∀ balance, step.call ≠ .setBalance balance := fun balance is => set ⟨balance, is⟩
  rcases (m.call_appends step.call).resolve_left set with ⟨block, recorded⟩ | ⟨update, updated⟩ |
    appends
  · obtain ⟨balances, ledger, rewards⟩ := m.recordBlockCandidate_rewards block
    have what : m.call step.call = (m.recordBlockCandidate block).map .flag id := by
      rw [recorded]
      rfl
    refine remembers.rewarding notSet (by rw [what]; exact balances) (by rw [what]; exact ledger)
      fun hash found => ?_
    rw [what] at found
    refine (rewards hash found).imp_right fun ⟨fresh, own, positive⟩ => ?_
    refine ⟨_, here, ?_, .inl ⟨block, recorded, own, positive⟩⟩
    rw [what]
    exact congrArg Outcome.flag fresh
  · obtain ⟨balances, ledger, rewards⟩ := m.updateBlockStatus_rewards update
    have what : m.call step.call = (m.updateBlockStatus update).map .flag id := by
      rw [updated]
      rfl
    refine remembers.rewarding notSet (by rw [what]; exact balances) (by rw [what]; exact ledger)
      fun hash found => ?_
    rw [what] at found
    refine (rewards hash found).imp_right fun ⟨hit, own, confirmed, positive⟩ => ?_
    refine ⟨_, here, ?_, .inr ⟨update, updated, own, confirmed, positive⟩⟩
    rw [what]
    exact congrArg Outcome.flag hit
  · exact remembers.appends notSet appends

end Remembers

end CsdPool
