/-
# Rewards.Invariants — what every reachable state keeps

* `held_known`: the blocks a settle run holds are recorded, its entries are those
  of one allocation, and the entries a mature or reverse run holds follow rewards
  that stand in the ledger.
* `ledger_known`: every ledger entry has the shape its writer gives it
  (`EntryKnown`); in particular a reward entry refers to a recorded block, and a
  matured or reversed amount is that of the miner's reward for the same block.
-/
import CsdPool.Rewards.Steps

namespace CsdPool.Rewards

open Theory (Keyed Table Machine)

set_option autoImplicit false

variable {s s' : State} {e : Event}

/-! ## Vocabulary -/

/-- Blocks are never deleted, so this stays true once it is. -/
def BlockKnown (db : Db) (hash : String) : Prop := db.blocks.find? hash ≠ none

/-- A miner's reward for a block, as settled. -/
structure IsReward (db : Db) (entry : LedgerEntry) : Prop where
  member : entry ∈ db.books.ledgerEntries.rows
  kind : entry.kind = .rewardImmature
  refType : entry.refType = "block"
  miner : entry.miner.isSome

/-- The entry was made from a reward by a worker that looks rewards up. -/
def Follows (db : Db) (kind : LedgerKind) (amount : Int → Int) (entry : LedgerEntry) : Prop :=
  ∃ reward, IsReward db reward ∧ entry = Db.follow kind (amount reward.amountBaseUnits) reward

/-- The settlement is one allocation of its reward. -/
def Allocated (settlement : SettledRewardBlock) : Prop :=
  settlement.ledgerEntries = rewardLedgerEntries settlement.blockHash settlement.result ∧
    ∃ feeBps shares,
      allocatePplns settlement.rewardBaseUnits feeBps shares = .ok settlement.result

/-- What a process has read and still has in hand: it is borne out by the database, however long ago
it was read. -/
def Held (db : Db) : Pc → Prop
  | .settleNext _ queue => ∀ block ∈ queue, BlockKnown db block.hashHex
  | .settleAppend _ settlement rest =>
      (Allocated settlement ∧ BlockKnown db settlement.blockHash) ∧
        ∀ block ∈ rest, BlockKnown db block.hashHex
  | .matureAppend entries => ∀ entry ∈ entries, Follows db .rewardMature id entry
  | .reverseAppend entries => ∀ entry ∈ entries, Follows db .rewardOrphanReversal Neg.neg entry
  | _ => True

/-- The shape of a ledger entry, by its kind. -/
def EntryKnown (db : Db) (entry : LedgerEntry) : Prop :=
  match entry.kind with
  | .rewardImmature => entry.refType = "block" ∧ entry.miner.isSome ∧ BlockKnown db entry.refId
  | .poolFee => entry.refType = "block" ∧ entry.miner = none ∧ BlockKnown db entry.refId
  | .rewardMature => Follows db .rewardMature id entry
  | .rewardOrphanReversal => Follows db .rewardOrphanReversal Neg.neg entry
  | .payoutLock =>
      entry.refType = "payout_batch" ∧ db.payoutBatches.find? entry.refId ≠ none
  | .payoutSent | .payoutFailedUnlock => entry.refType = "payout_batch"
  | .manualAdjustment => False

/-- What every process has in hand is borne out. -/
def HeldKnown (s : State) : Prop := ∀ pid pc, s.At pid pc → Held s.db pc

/-- Every entry of the ledger has the shape its writer gives it. -/
def LedgerKnown (s : State) : Prop :=
  ∀ entry ∈ s.db.books.ledgerEntries.rows, EntryKnown s.db entry

/-- A block rewards a miner once, because the two would share a key of the ledger. -/
theorem reward_unique {db : Db} {a b : LedgerEntry} (first : IsReward db a)
    (second : IsReward db b) (miner : a.miner = b.miner) (block : a.refId = b.refId) : a = b := by
  refine List.inj_on_of_nodup_map db.books.ledgerEntries.unique first.member second.member ?_
  simp only [Keyed.key, LedgerEntry.ledgerKey, LedgerKey.mk.injEq]
  exact ⟨miner, first.kind.trans second.kind.symm, first.refType.trans second.refType.symm, block⟩

/-! ## One step -/

/-- Batches are never deleted. -/
theorem batch_kept (stepped : Stepped s e s') {batchId : String}
    (present : s.db.payoutBatches.find? batchId ≠ none) :
    s'.db.payoutBatches.find? batchId ≠ none := by
  cases stepped with
  | spawned _ | failed _ _ | moved _ _ | crashed _ | appended _ _ _ =>
      rw [State.resume_db]; exact present
  | updated _ _ committed =>
      obtain ⟨-, rfl⟩ := Db.updateBlockStatus_ok committed
      rw [State.resume_db]; exact present
  | job committed => rw [Db.upsertJob_ok committed]; exact present
  | share committed => rw [(Db.insertShare_ok committed).1]; exact present
  | candidate committed => rw [(Db.recordBlockCandidate_ok committed).1]; exact present
  | paid _ _ | unlocked _ _ => exact present
  | locked committed =>
      rcases Db.createLocked_ok committed with ⟨-, rfl⟩ | ⟨-, -, books, recipients, -, rfl⟩
      · exact present
      · obtain ⟨row, found⟩ := Option.ne_none_iff_exists'.1 present
        simp [Table.find?_insert_of_some found]

/-- A reward stays in the ledger, and as it is. -/
theorem IsReward.step (stepped : Stepped s e s') {entry : LedgerEntry}
    (reward : IsReward s.db entry) : IsReward s'.db entry :=
  { reward with member := ledger_kept stepped reward.member }

theorem Follows.step (stepped : Stepped s e s') {kind : LedgerKind} {amount : Int → Int}
    {entry : LedgerEntry} (follows : Follows s.db kind amount entry) :
    Follows s'.db kind amount entry := by
  obtain ⟨reward, isReward, same⟩ := follows
  exact ⟨reward, isReward.step stepped, same⟩

theorem Held.step (stepped : Stepped s e s') {pc : Pc} (held : Held s.db pc) :
    Held s'.db pc := by
  cases pc with
  | settleNext feeBps queue => exact fun block member => block_kept stepped (held block member)
  | settleAppend feeBps settlement rest =>
      exact ⟨⟨held.1.1, block_kept stepped held.1.2⟩,
        fun block member => block_kept stepped (held.2 block member)⟩
  | matureAppend entries => exact fun entry member => (held entry member).step stepped
  | reverseAppend entries => exact fun entry member => (held entry member).step stepped
  | reconcileList | reconcileNext | reconcileUpdate | settleList | matureList | reverseList =>
      trivial

theorem EntryKnown.step (stepped : Stepped s e s') {entry : LedgerEntry}
    (known : EntryKnown s.db entry) : EntryKnown s'.db entry := by
  unfold EntryKnown at known ⊢
  split at known
  · exact ⟨known.1, known.2.1, block_kept stepped known.2.2⟩
  · exact ⟨known.1, known.2.1, block_kept stepped known.2.2⟩
  · exact Follows.step stepped known
  · exact Follows.step stepped known
  · exact ⟨known.1, batch_kept stepped known.2⟩
  · exact known
  · exact known
  · exact known

/-! ## What a run comes to hold -/

/-- A block that is listed for settlement is a confirmed row with a reward and without reward
entries. -/
theorem mem_listUnsettled {db : Db} {limit : Nat} {block : RewardBlock}
    (member : block ∈ db.listConfirmedUnsettledBlocks limit) :
    ∃ row, db.blocks.find? block.hashHex = some row ∧ row.status = .confirmed ∧
      0 < row.rewardBaseUnits ∧ db.hasReward block.hashHex = false ∧
      block = Db.toRewardBlock row := by
  obtain ⟨row, inTake, rfl⟩ := List.mem_map.1 member
  obtain ⟨inRows, status, reward, -, fresh⟩ := Db.mem_unsettled.1 (List.mem_of_mem_take inTake)
  exact ⟨row, Table.find?_of_mem inRows, status, reward, fresh, rfl⟩

/-- A settlement is made of the block it was asked for: its hash, its reward, and the entries of one
allocation of that reward. -/
theorem settleRewardBlock_ok {block : RewardBlock} {feeBps : Nat} {shares : List ShareWeight}
    {settlement : SettledRewardBlock}
    (settled : settleRewardBlock block feeBps shares = .ok settlement) :
    settlement.blockHash = block.hashHex ∧ settlement.rewardBaseUnits = block.rewardBaseUnits ∧
      settlement.ledgerEntries = rewardLedgerEntries block.hashHex settlement.result ∧
      allocatePplns block.rewardBaseUnits feeBps shares = .ok settlement.result := by
  unfold settleRewardBlock at settled
  cases allocated : allocatePplns block.rewardBaseUnits feeBps shares with
  | error err => rw [allocated] at settled; cases settled
  | ok result => rw [allocated] at settled; cases settled; exact ⟨rfl, rfl, rfl, rfl⟩

/-- Where a settle run goes from a block it has in hand. -/
theorem settleDecision_some {feeBps : Nat} {block : RewardBlock} {rest : List RewardBlock}
    {weights : Except RepositoryError (List ShareWeight)} {pc : Pc}
    (decided : Pc.settleDecision feeBps block rest weights = some pc) :
    pc = .settleNext feeBps rest ∨
      ∃ shares settlement, weights = .ok shares ∧
        settleRewardBlock block feeBps shares = .ok settlement ∧
        pc = .settleAppend feeBps settlement rest := by
  cases weights with
  | error err => cases decided
  | ok shares =>
      simp only [Pc.settleDecision] at decided
      split at decided
      · rename_i settlement settled
        cases decided
        exact .inr ⟨shares, settlement, rfl, settled, rfl⟩
      · cases decided
        exact .inl rfl

/-- What the two workers look up are rewards. -/
theorem isReward_of_awaits {db : Db} {kind : LedgerKind} {p : BlockRow → Bool}
    {entry : LedgerEntry} (member : entry ∈ db.books.ledgerEntries.rows)
    (awaits : db.awaits kind p entry = true) : IsReward db entry := by
  obtain ⟨isImmature, block, miner, -, -⟩ := Db.awaits_iff.1 awaits
  exact ⟨member, isImmature, block, miner⟩

/-- What a read comes back with is borne out by the database it was read from. -/
theorem read_held {env : Env} {db : Db} {pc pc' : Pc} (held : Held db pc)
    (next : pc.read env db = some pc') : Held db pc' := by
  cases pc with
  | reconcileList required =>
      simp only [Pc.read] at next
      split at next
      · cases next; trivial
      · cases next
  | reconcileNext required queue =>
      cases queue with
      | nil => cases next
      | cons block rest =>
          simp only [Pc.read] at next
          split at next
          · cases next; trivial
          · cases next
  | settleList feeBps =>
      cases next
      intro block member
      obtain ⟨row, found, -⟩ := mem_listUnsettled member
      exact Option.ne_none_iff_exists'.2 ⟨row, found⟩
  | settleNext feeBps queue =>
      cases queue with
      | nil => cases next
      | cons block rest =>
          have known : BlockKnown db block.hashHex := held block (List.mem_cons_self ..)
          have later : ∀ b ∈ rest, BlockKnown db b.hashHex :=
            fun b member => held b (List.mem_cons_of_mem _ member)
          rcases settleDecision_some next with rfl | ⟨shares, settlement, -, settled, rfl⟩
          · exact later
          · obtain ⟨hash, reward, entries, allocated⟩ := settleRewardBlock_ok settled
            refine ⟨⟨⟨hash ▸ entries, feeBps, shares, reward ▸ allocated⟩, hash ▸ known⟩, later⟩
  | matureList confirmDepth =>
      simp only [Pc.read] at next
      split at next
      · rename_i entries listed
        cases next
        intro entry member
        obtain ⟨immature, inRows, rfl⟩ := Db.listed_mature listed entry member
        obtain ⟨inLedger, awaits⟩ := Db.mem_maturing.1 inRows
        exact ⟨immature, isReward_of_awaits inLedger awaits, rfl⟩
      · cases next
  | reverseList =>
      simp only [Pc.read] at next
      split at next
      · rename_i entries listed
        cases next
        intro entry member
        obtain ⟨immature, inTake, -, rfl⟩ := Db.listed_reversal listed entry member
        obtain ⟨inLedger, awaits⟩ := Db.mem_reversible.1 (List.mem_of_mem_take inTake)
        exact ⟨immature, isReward_of_awaits inLedger awaits, rfl⟩
      · cases next
  | reconcileUpdate | settleAppend | matureAppend | reverseAppend => cases next

theorem afterWrite_held {db : Db} {pc pc' : Pc} (held : Held db pc)
    (next : pc.afterWrite = some pc') : Held db pc' := by
  cases pc with
  | reconcileUpdate required change rest => cases next; trivial
  | settleAppend feeBps settlement rest => cases next; exact held.2
  | reconcileList | reconcileNext | settleList | settleNext | matureList | matureAppend
  | reverseList | reverseAppend => cases next

theorem held_step (stepped : Stepped s e s') (known : HeldKnown s) : HeldKnown s' := by
  intro pid pc there
  rcases at_step stepped there with stayed | arrives
  · exact (known pid pc stayed).step stepped
  · cases arrives with
    | spawned entry => cases entry <;> trivial
    | wrote here writes next => exact (afterWrite_held (known _ _ here) next).step stepped
    | read here reads next => exact (read_held (known _ _ here) next).step stepped

theorem held_known (reached : rewardMachine.Reachable s) : HeldKnown s := by
  refine reached.invariant (I := HeldKnown) ?_ ?_
  · rintro s rfl pid pc there
    cases there
  · intro s e s' _ known _ stepped
    exact held_step (step_stepped stepped) known

/-! ## What goes into the ledger -/

theorem rewardEntry_kind {blockRef : String} {result : PplnsResult} {entry : LedgerEntry}
    (member : entry ∈ rewardLedgerEntries blockRef result) :
    entry.refType = "block" ∧ entry.refId = blockRef ∧
      ((entry.kind = .rewardImmature ∧ entry.miner.isSome) ∨
        (entry.kind = .poolFee ∧ entry.miner = none)) := by
  unfold rewardLedgerEntries at member
  rcases List.mem_append.1 member with allocated | fee
  · obtain ⟨allocation, -, rfl⟩ := List.mem_map.1 allocated
    exact ⟨rfl, rfl, .inl ⟨rfl, rfl⟩⟩
  · split at fee
    · rw [List.mem_singleton.1 fee]
      exact ⟨rfl, rfl, .inr ⟨rfl, rfl⟩⟩
    · cases fee

theorem Follows.shape {db : Db} {kind : LedgerKind} {amount : Int → Int} {entry : LedgerEntry}
    (follows : Follows db kind amount entry) :
    entry.kind = kind ∧ entry.refType = "block" ∧ entry.miner.isSome := by
  obtain ⟨reward, isReward, rfl⟩ := follows
  exact ⟨rfl, rfl, isReward.miner⟩

/-- The entries a live run is about to append. -/
theorem write_known {db : Db} {pc : Pc} {entries : List LedgerEntry} (held : Held db pc)
    (writes : pc.write = some (.append entries)) : ∀ entry ∈ entries, EntryKnown db entry := by
  intro entry member
  unfold EntryKnown
  cases pc with
  | settleAppend feeBps settlement rest =>
      cases writes
      rw [held.1.1.1] at member
      obtain ⟨refType, refId, ⟨kind, miner⟩ | ⟨kind, miner⟩⟩ := rewardEntry_kind member
      · rw [kind]
        exact ⟨refType, miner, refId ▸ held.1.2⟩
      · rw [kind]
        exact ⟨refType, miner, refId ▸ held.1.2⟩
  | matureAppend entries =>
      cases writes
      rw [(held entry member).shape.1]
      exact held entry member
  | reverseAppend entries =>
      cases writes
      rw [(held entry member).shape.1]
      exact held entry member
  | reconcileList | reconcileNext | reconcileUpdate | settleList | settleNext | matureList
  | reverseList => cases writes

theorem appending_known (known : HeldKnown s) : ∀ entry ∈ s.appending e, EntryKnown s.db entry := by
  intro entry member
  cases e with
  | run pid env =>
      obtain ⟨pc, entries, here, writes, inEntries⟩ := State.mem_appending_run member
      exact write_known (known _ _ here) writes entry inEntries
  | markPayoutPaid batchId =>
      simp only [State.appending] at member
      cases held : s.batchRecord batchId with
      | none => rw [held] at member; cases member
      | some batch =>
          rw [held] at member
          obtain ⟨recipient, -, rfl⟩ := List.mem_map.1 member
          rfl
  | unlockFailedPayout batchId =>
      simp only [State.appending] at member
      cases held : s.batchRecord batchId with
      | none => rw [held] at member; cases member
      | some batch =>
          rw [held] at member
          obtain ⟨recipient, -, rfl⟩ := List.mem_map.1 member
          rfl
  | spawn | crash | upsertJob | insertShare | recordBlockCandidate | createLockedPayoutBatch =>
      cases member

/-- What a step adds to the ledger. -/
theorem ledger_added (stepped : Stepped s e s') {entry : LedgerEntry}
    (member : entry ∈ s'.db.books.ledgerEntries.rows) :
    entry ∈ s.db.books.ledgerEntries.rows ∨ entry ∈ s.appending e ∨
      (entry.kind = .payoutLock ∧ entry.refType = "payout_batch" ∧
        s'.db.payoutBatches.find? entry.refId ≠ none) := by
  cases books_step stepped with
  | same kept => rw [kept] at member; exact .inl member
  | appended committed =>
      rcases (Books.appendLedgerEntries_grows committed).added entry member with old | new
      · exact .inl old
      · exact .inr (.inl new)
  | locked _ _ recorded inserted =>
      rcases (Db.insertRecipients_grows inserted).added entry member with old | new
      · exact .inl old
      · obtain ⟨recipient, -, rfl⟩ := List.mem_map.1 new
        exact .inr (.inr ⟨rfl, rfl, recorded⟩)

theorem ledger_known (reached : rewardMachine.Reachable s) : LedgerKnown s := by
  refine reached.invariant (I := LedgerKnown) ?_ ?_
  · rintro s rfl entry member
    cases member
  · intro s e s' before known _ step
    have stepped := step_stepped step
    intro entry member
    rcases ledger_added stepped member with old | new | ⟨kind, refType, batch⟩
    · exact (known entry old).step stepped
    · exact (appending_known (held_known before) entry new).step stepped
    · unfold EntryKnown
      rw [kind]
      exact ⟨refType, batch⟩

end CsdPool.Rewards
