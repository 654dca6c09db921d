/-
# Rewards.LifeCycle — what a block is worth once the workers are done

`reward_life_cycle`: when the maturing and reversing workers find nothing to do,
an orphaned block nets zero and leaves nothing confirmed, and a confirmed block at
depth leaves every miner exactly his allocation; a miner's `confirmed_base_units` is what the
blocks leave him (`worth`), less what payouts took.  So in every run whose steps are `Orderly`:

* a block with a `pool_fee` entry is not orphaned, and no fee is settled onto an
  orphaned block (nothing reverses the fee);
* a block is not orphaned with a reward that matured after its reversal, nor
  confirmed with one reversed after it matured (each of the two keys is used up);
* an append that comes late does not produce either order on a block whose status
  has turned meanwhile;
* no guard acts on the confirmed column (`Unclamped`).

The workers as they are keep none of the first two and not the last: `life_cycle_broken`.
-/
import CsdPool.Rewards.ConfirmedColumn

namespace CsdPool.Rewards

open Theory (Keyed Table Machine precedes)

set_option autoImplicit false

variable {s s' : State} {e : Event}

/-! ## Undisturbed runs -/

/-- Some miner has an entry of `first` for the block and, later, one of `second`. -/
def inOrder (ledger : Table LedgerEntry) (hash : String) (first second : LedgerKind) : Bool :=
  ledger.rows.any fun entry => entry.refId = hash &&
    precedes (ledger.rows.map LedgerEntry.ledgerKey) (blockKey entry.miner first hash)
      (blockKey entry.miner second hash)

def hasFee (ledger : Table LedgerEntry) (hash : String) : Bool :=
  ledger.contains (blockKey none .poolFee hash)

/-- The block's entries fit the status. -/
def fits (ledger : Table LedgerEntry) (hash : String) : BlockStatus → Bool
  | .orphaned => !hasFee ledger hash && !inOrder ledger hash .rewardOrphanReversal .rewardMature
  | .confirmed => !inOrder ledger hash .rewardMature .rewardOrphanReversal
  | _ => true

def statusOf (db : Db) (hash : String) : Option BlockStatus :=
  (db.blocks.find? hash).map (·.status)

/-- A fresh entry does not come too late for the status its block has by now. -/
def inTime (db : Db) (entry : LedgerEntry) : Bool :=
  db.books.ledgerEntries.contains entry.ledgerKey ||
    match entry.kind with
    | .poolFee => statusOf db entry.refId ≠ some .orphaned
    | .rewardMature => statusOf db entry.refId ≠ some .orphaned ||
        !db.books.ledgerEntries.contains (blockKey entry.miner .rewardOrphanReversal entry.refId)
    | .rewardOrphanReversal => statusOf db entry.refId ≠ some .confirmed ||
        !db.books.ledgerEntries.contains (blockKey entry.miner .rewardMature entry.refId)
    | _ => true

def Undisturbed (s : State) (e : Event) : Prop :=
  (s.updating e).all (fun change =>
    fits s.db.books.ledgerEntries change.hashHex change.status) = true ∧
  (s.appending e).all (inTime s.db) = true

instance : ∀ s e, Decidable (Undisturbed s e) := fun s e =>
  inferInstanceAs (Decidable ((s.updating e).all (fun change =>
    fits s.db.books.ledgerEntries change.hashHex change.status) = true ∧
  (s.appending e).all (inTime s.db) = true))

def Fitting (s : State) : Prop :=
  ∀ hash row, s.db.blocks.find? hash = some row →
    fits s.db.books.ledgerEntries hash row.status = true

/-! ## A growing ledger -/

/-- A transaction that matures does not reverse. -/
def OneWay (entries : List LedgerEntry) : Prop :=
  ∀ a ∈ entries, ∀ b ∈ entries, ¬ (a.kind = .rewardMature ∧ b.kind = .rewardOrphanReversal)

theorem contains_iff_mem_keys {ledger : Table LedgerEntry} {k : LedgerKey} :
    ledger.contains k = true ↔ k ∈ ledger.rows.map LedgerEntry.ledgerKey := by
  rw [Table.contains_iff, List.mem_map]
  rfl

/-- Two entries of a miner in an order that is new: the later one is new. -/
theorem inOrder_grows {entries : List LedgerEntry} {books books' : Books}
    (grows : Books.Grows entries books books') {hash : String} {first second : LedgerKind}
    (after : inOrder books'.ledgerEntries hash first second = true) :
    inOrder books.ledgerEntries hash first second = true ∨
      ∃ x ∈ entries, x.kind = second ∧ x.refId = hash ∧
        books.ledgerEntries.contains x.ledgerKey = false ∧
        (books.ledgerEntries.contains (blockKey x.miner first hash) = true ∨
          ∃ y ∈ entries, y.kind = first) := by
  obtain ⟨added, rows, new⟩ := grows.rows
  unfold inOrder at after ⊢
  rw [List.any_eq_true] at after ⊢
  obtain ⟨entry, -, holds⟩ := after
  simp only [Bool.and_eq_true, decide_eq_true_eq, rows, List.map_append] at holds
  obtain ⟨here, before⟩ := holds
  rcases Theory.precedes_append before with old | ⟨second_, first_⟩
  · obtain ⟨x, member, key⟩ := List.mem_map.1 (Theory.precedes_mem old).1
    refine .inl ⟨x, member, ?_⟩
    have miner : x.miner = entry.miner := congrArg LedgerKey.miner key
    have same : x.refId = hash := congrArg LedgerKey.refId key
    rw [miner, same, old]
    simp
  · obtain ⟨x, member, key⟩ := List.mem_map.1 second_
    obtain ⟨inEntries, fresh⟩ := new x member
    have miner : x.miner = entry.miner := congrArg LedgerKey.miner key
    refine .inr ⟨x, inEntries, congrArg LedgerKey.kind key, congrArg LedgerKey.refId key, ?_, ?_⟩
    · rw [Table.contains_eq_isSome, fresh]
      rfl
    · rw [miner, contains_iff_mem_keys]
      refine (List.mem_append.1 first_).imp_right fun inAdded => ?_
      obtain ⟨y, yMember, yKey⟩ := List.mem_map.1 inAdded
      exact ⟨y, (new y yMember).1, congrArg LedgerKey.kind yKey⟩

theorem hasFee_grows {entries : List LedgerEntry} {books books' : Books}
    (grows : Books.Grows entries books books') {hash : String}
    (after : hasFee books'.ledgerEntries hash = true) :
    hasFee books.ledgerEntries hash = true ∨
      ∃ x ∈ entries, x.kind = .poolFee ∧ x.refId = hash ∧
        books.ledgerEntries.contains x.ledgerKey = false := by
  obtain ⟨added, rows, new⟩ := grows.rows
  unfold hasFee at after ⊢
  rw [contains_iff_mem_keys, rows, List.map_append, List.mem_append] at after
  rw [contains_iff_mem_keys]
  refine after.imp_right fun inAdded => ?_
  obtain ⟨x, member, key⟩ := List.mem_map.1 inAdded
  obtain ⟨inEntries, fresh⟩ := new x member
  refine ⟨x, inEntries, congrArg LedgerKey.kind key, congrArg LedgerKey.refId key, ?_⟩
  rw [Table.contains_eq_isSome, fresh]
  rfl

theorem fits_grows {entries : List LedgerEntry} {db : Db} {books' : Books} {hash : String}
    {row : BlockRow} (grows : Books.Grows entries db.books books')
    (timely : ∀ entry ∈ entries, inTime db entry = true) (oneWay : OneWay entries)
    (found : db.blocks.find? hash = some row)
    (before : fits db.books.ledgerEntries hash row.status = true) :
    fits books'.ledgerEntries hash row.status = true := by
  have status : statusOf db hash = some row.status := by rw [statusOf, found]; rfl
  cases now : row.status with
  | orphaned =>
      rw [now] at before status
      simp only [fits, Bool.and_eq_true, Bool.not_eq_true'] at before ⊢
      constructor
      · rw [Bool.eq_false_iff]
        intro fee
        rcases hasFee_grows grows fee with old | ⟨x, inEntries, kind, here, fresh⟩
        · rw [before.1] at old; cases old
        · have late := timely x inEntries
          simp [inTime, fresh, kind, here, status] at late
      · rw [Bool.eq_false_iff]
        intro order
        rcases inOrder_grows grows order with
          old | ⟨x, inEntries, kind, here, fresh, reversed | ⟨y, yIn, yKind⟩⟩
        · rw [before.2] at old; cases old
        · have late := timely x inEntries
          simp [inTime, fresh, kind, here, status, reversed] at late
        · exact oneWay x inEntries y yIn ⟨kind, yKind⟩
  | confirmed =>
      rw [now] at before status
      simp only [fits, Bool.not_eq_true'] at before ⊢
      rw [Bool.eq_false_iff]
      intro order
      rcases inOrder_grows grows order with
        old | ⟨x, inEntries, kind, here, fresh, matured | ⟨y, yIn, yKind⟩⟩
      · rw [before] at old; cases old
      · have late := timely x inEntries
        simp [inTime, fresh, kind, here, status, matured] at late
      · exact oneWay y yIn x inEntries ⟨yKind, kind⟩
  | submitted | submittedSecondary | submittedDegraded | relayFailed | seenOnChain | immature =>
      rfl

/-- A block without a row has no entries to misfit. -/
theorem fits_unknown (known : LedgerKnown s) {hash : String}
    (absent : s.db.blocks.find? hash = none) (status : BlockStatus) :
    fits s.db.books.ledgerEntries hash status = true := by
  have noReward : ∀ entry ∈ s.db.books.ledgerEntries.rows, entry.refType = "block" →
      entry.refId ≠ hash := by
    rintro entry member block rfl
    have shape := known entry member
    obtain ⟨miner, amount, kind, refType, refId⟩ := entry
    cases block
    cases kind with
    | rewardImmature | poolFee => exact shape.2.2 absent
    | rewardMature | rewardOrphanReversal =>
        obtain ⟨reward, isReward, same⟩ := shape
        have rewardShape := known reward isReward.member
        unfold EntryKnown at rewardShape
        rw [isReward.kind] at rewardShape
        cases same
        exact rewardShape.2.2 absent
    | payoutLock => exact absurd shape.1 (by simp)
    | payoutSent | payoutFailedUnlock => simp [EntryKnown] at shape
    | manualAdjustment => exact shape
  have noKey : ∀ miner kind, blockKey miner kind hash ∉
      s.db.books.ledgerEntries.rows.map LedgerEntry.ledgerKey := by
    intro miner kind member
    obtain ⟨entry, inLedger, key⟩ := List.mem_map.1 member
    exact noReward entry inLedger (congrArg LedgerKey.refType key) (congrArg LedgerKey.refId key)
  have noFee : hasFee s.db.books.ledgerEntries hash = false := by
    rw [Bool.eq_false_iff]
    intro fee
    exact noKey _ _ (contains_iff_mem_keys.1 fee)
  have noOrder : ∀ first second, inOrder s.db.books.ledgerEntries hash first second = false := by
    intro first second
    rw [Bool.eq_false_iff]
    intro order
    unfold inOrder at order
    rw [List.any_eq_true] at order
    obtain ⟨entry, -, holds⟩ := order
    exact noKey _ _ (Theory.precedes_mem (Bool.and_eq_true_iff.1 holds).2).1
  cases status <;> simp [fits, noFee, noOrder]

/-! ## Every undisturbed run keeps blocks and entries fitting -/

theorem appending_oneWay (known : HeldKnown s) : OneWay (s.appending e) := by
  rintro a aIn b bIn ⟨aKind, bKind⟩
  cases e with
  | run pid env =>
      obtain ⟨pc, entries, here, writes, aIn⟩ := State.mem_appending_run aIn
      obtain ⟨pc', entries', here', writes', bIn⟩ := State.mem_appending_run bIn
      cases State.at_unique here here'
      have held := known _ _ here
      cases pc with
      | settleAppend feeBps settlement rest =>
          cases writes
          rw [held.1.1.1] at aIn
          obtain ⟨-, -, ⟨kind, -⟩ | ⟨kind, -⟩⟩ := rewardEntry_kind aIn
          · rw [aKind] at kind; cases kind
          · rw [aKind] at kind; cases kind
      | matureAppend entries =>
          cases writes'
          have kind := (held b bIn).shape.1
          rw [bKind] at kind; cases kind
      | reverseAppend entries =>
          cases writes
          have kind := (held a aIn).shape.1
          rw [aKind] at kind; cases kind
      | reconcileList | reconcileNext | reconcileUpdate | settleList | settleNext | matureList
      | reverseList => cases writes
  | markPayoutPaid batchId | unlockFailedPayout batchId =>
      simp only [State.appending] at aIn
      cases held : s.batchRecord batchId with
      | none => rw [held] at aIn; cases aIn
      | some batch =>
          rw [held] at aIn
          obtain ⟨recipient, -, rfl⟩ := List.mem_map.1 aIn
          cases aKind
  | spawn | crash | upsertJob | insertShare | recordBlockCandidate | createLockedPayoutBatch =>
      cases aIn

theorem books_of_updating (stepped : Stepped s e s') {change : BlockStatusUpdate}
    (updates : s.updating e = some change) : s'.db.books = s.db.books := by
  cases books_step stepped with
  | same kept => exact kept
  | appended committed =>
      have nothing : s.appending e = [] := by
        unfold State.updating at updates
        split at updates
        · rename_i writing
          cases e with
          | run pid env => simp [State.appending, writing]
          | markPayoutPaid | unlockFailedPayout => cases writing
          | spawn | crash | upsertJob | insertShare | recordBlockCandidate
          | createLockedPayoutBatch => rfl
        · cases updates
      rw [nothing] at committed
      exact (Theory.foldlM_ok_nil.1 committed).symm
  | locked event _ _ _ => subst event; cases updates

theorem fitting_step (stepped : Stepped s e s') (held : HeldKnown s) (known : LedgerKnown s)
    (undisturbed : Undisturbed s e) (fitting : Fitting s) : Fitting s' := by
  intro hash row' found
  rcases block_before stepped found with
    before | ⟨change, now, row, updates, rfl, before, rfl⟩ | ⟨block, now, event, rfl, absent, rfl⟩
  · cases books_step stepped with
    | same kept => rw [kept]; exact fitting hash row' before
    | appended committed =>
        exact fits_grows (Books.appendLedgerEntries_grows committed)
          (List.all_eq_true.1 undisturbed.2) (appending_oneWay held) before
          (fitting hash row' before)
    | locked _ _ _ inserted =>
        refine fits_grows (Db.insertRecipients_grows inserted) ?_ ?_ before
          (fitting hash row' before)
        · intro entry member
          obtain ⟨recipient, -, rfl⟩ := List.mem_map.1 member
          simp [inTime, Books.lockEntry]
        · rintro a aIn b bIn ⟨kind, -⟩
          obtain ⟨recipient, -, rfl⟩ := List.mem_map.1 aIn
          cases kind
  · rw [books_of_updating stepped updates]
    have guard := undisturbed.1
    rw [updates] at guard
    exact guard
  · subst event
    cases stepped with
    | candidate committed =>
        rw [(Db.recordBlockCandidate_ok committed).1]
        exact fits_unknown known absent _

theorem fitting (reached : rewardMachine.Reaches Undisturbed s) : Fitting s := by
  refine reached.invariant (I := Fitting) ?_ ?_
  · rintro s rfl hash row found
    cases found
  · intro s e s' before fitting undisturbed stepped
    exact fitting_step (step_stepped stepped) (held_known before.reachable)
      (ledger_known before.reachable) undisturbed fitting

/-! ## Rewards and what follows them -/

theorem allocationOf_reward {db : Db} {reward : LedgerEntry} (isReward : IsReward db reward)
    {miner : Address} (own : reward.miner = some miner) :
    allocationOf db.books.ledgerEntries miner reward.refId = reward.amountBaseUnits := by
  have key : Keyed.key reward = blockKey (some miner) .rewardImmature reward.refId := by
    simp [Keyed.key, LedgerEntry.ledgerKey, blockKey, own, isReward.kind, isReward.refType]
  have found := Table.find?_of_mem isReward.member
  rw [key] at found
  rw [allocationOf, found]
  rfl

/-- The kinds of a block's entries, with the amounts that follow from the allocation. -/
theorem block_shape (known : LedgerKnown s) {entry : LedgerEntry}
    (member : entry ∈ s.db.books.ledgerEntries.rows) (block : entry.refType = "block") :
    (entry.kind = .poolFee ∧ entry.miner = none) ∨
      ∃ miner, entry.miner = some miner ∧
        (entry.kind = .rewardImmature ∨
          (entry.kind = .rewardMature ∧
            entry.amountBaseUnits = allocationOf s.db.books.ledgerEntries miner entry.refId) ∨
          (entry.kind = .rewardOrphanReversal ∧
            entry.amountBaseUnits = -allocationOf s.db.books.ledgerEntries miner entry.refId)) := by
  have shape := known entry member
  unfold EntryKnown at shape
  split at shape
  · rename_i kind
    obtain ⟨miner, own⟩ := Option.isSome_iff_exists.1 shape.2.1
    exact .inr ⟨miner, own, .inl kind⟩
  · rename_i kind
    exact .inl ⟨kind, shape.2.1⟩
  · rename_i kind
    obtain ⟨reward, isReward, rfl⟩ := shape
    obtain ⟨miner, own⟩ := Option.isSome_iff_exists.1 isReward.miner
    exact .inr ⟨miner, own, .inr (.inl ⟨kind, (allocationOf_reward isReward own).symm⟩)⟩
  · rename_i kind
    obtain ⟨reward, isReward, rfl⟩ := shape
    obtain ⟨miner, own⟩ := Option.isSome_iff_exists.1 isReward.miner
    exact .inr ⟨miner, own,
      .inr (.inr ⟨kind, congrArg Neg.neg (allocationOf_reward isReward own).symm⟩)⟩
  · rw [block] at shape; exact absurd shape.1 (by simp)
  · rw [block] at shape; exact absurd shape (by simp)
  · rw [block] at shape; exact absurd shape (by simp)
  · exact shape.elim

/-- Behind a matured or reversed amount stands a reward. -/
theorem reward_behind (known : LedgerKnown s) {miner : Option Address} {kind : LedgerKind}
    {hash : String} (kinds : kind = .rewardMature ∨ kind = .rewardOrphanReversal)
    (present : blockKey miner kind hash ∈
      s.db.books.ledgerEntries.rows.map LedgerEntry.ledgerKey) :
    ∃ reward, IsReward s.db reward ∧ reward.miner = miner ∧ reward.refId = hash ∧
      ∃ amount, Db.follow kind amount reward ∈ s.db.books.ledgerEntries.rows ∧
        (kind = .rewardOrphanReversal → amount = -reward.amountBaseUnits) := by
  obtain ⟨entry, member, key⟩ := List.mem_map.1 present
  have shape := known entry member
  have kindOf : entry.kind = kind := congrArg LedgerKey.kind key
  have minerOf : entry.miner = miner := congrArg LedgerKey.miner key
  have here : entry.refId = hash := congrArg LedgerKey.refId key
  unfold EntryKnown at shape
  rw [kindOf] at shape
  rcases kinds with rfl | rfl
  · obtain ⟨reward, isReward, rfl⟩ := shape
    exact ⟨reward, isReward, minerOf, here, _, member, fun is => nomatch is⟩
  · obtain ⟨reward, isReward, rfl⟩ := shape
    exact ⟨reward, isReward, minerOf, here, _, member, fun _ => rfl⟩

/-! ## When the workers are done -/

/-- `mature_rewards` and `reverse_orphans` list nothing. -/
structure Quiet (db : Db) (confirmDepth : Nat) : Prop where
  mature : db.listMatureRewardEntries confirmDepth 1000 = .ok []
  reverse : db.listOrphanReversalEntries 1000 = .ok []

section Done

variable {confirmDepth : Nat} {hash : String} {row : BlockRow}

theorem reversed_of_quiet (quiet : Quiet s.db confirmDepth)
    (found : s.db.blocks.find? hash = some row) (orphaned : row.status = .orphaned)
    {reward : LedgerEntry} (isReward : IsReward s.db reward) (here : reward.refId = hash) :
    blockKey reward.miner .rewardOrphanReversal hash ∈
      s.db.books.ledgerEntries.rows.map LedgerEntry.ledgerKey := by
  rw [← contains_iff_mem_keys, Table.contains_eq_isSome]
  by_contra absent
  have awaits : reward ∈ s.db.reversible := by
    rw [Db.mem_reversible, Db.awaits_iff]
    refine ⟨isReward.member, isReward.kind, isReward.refType, isReward.miner,
      ⟨row, here ▸ found, by simpa using orphaned⟩, ?_⟩
    rw [isReward.refType, here]
    simpa [blockKey] using absent
  rw [Db.reversible_nil (by omega) quiet.reverse] at awaits
  cases awaits

theorem matured_of_quiet (quiet : Quiet s.db confirmDepth)
    (found : s.db.blocks.find? hash = some row) (confirmed : row.status = .confirmed)
    (deep : confirmDepth ≤ row.confirmations) {reward : LedgerEntry}
    (isReward : IsReward s.db reward) (here : reward.refId = hash) :
    blockKey reward.miner .rewardMature hash ∈
      s.db.books.ledgerEntries.rows.map LedgerEntry.ledgerKey := by
  rw [← contains_iff_mem_keys, Table.contains_eq_isSome]
  by_contra absent
  have awaits : reward ∈ s.db.maturing confirmDepth := by
    rw [Db.mem_maturing, Db.awaits_iff]
    refine ⟨isReward.member, isReward.kind, isReward.refType, isReward.miner,
      ⟨row, here ▸ found, by simp [confirmed, deep]⟩, ?_⟩
    rw [isReward.refType, here]
    simpa [blockKey] using absent
  rw [Db.maturing_nil (by omega) quiet.mature] at awaits
  cases awaits

/-- The confirmed column of one miner, with the amounts filled in. -/
theorem confirmedShare_known (known : LedgerKnown s) (miner : Address) (hash : String) :
    confirmedShare miner hash s.db.books.ledgerEntries.rows =
      (if blockKey (some miner) .rewardMature hash ∈
          s.db.books.ledgerEntries.rows.map LedgerEntry.ledgerKey
        then allocationOf s.db.books.ledgerEntries miner hash else 0) -
      (if precedes (s.db.books.ledgerEntries.rows.map LedgerEntry.ledgerKey)
          (blockKey (some miner) .rewardMature hash)
          (blockKey (some miner) .rewardOrphanReversal hash)
        then allocationOf s.db.books.ledgerEntries miner hash else 0) := by
  refine confirmedShare_eq miner hash _ s.db.books.ledgerEntries.unique ?_
  intro entry member block here own
  rcases block_shape known member block with ⟨-, none_⟩ | ⟨m, own', shape⟩
  · rw [none_] at own; cases own
  · rw [own] at own'
    cases own'
    rwa [here] at shape

theorem inOrder_of_precedes {ledger : Table LedgerEntry} {miner : Option Address}
    {first second : LedgerKind}
    (before : precedes (ledger.rows.map LedgerEntry.ledgerKey) (blockKey miner first hash)
      (blockKey miner second hash) = true) : inOrder ledger hash first second = true := by
  obtain ⟨entry, member, key⟩ := List.mem_map.1 (Theory.precedes_mem before).1
  unfold inOrder
  rw [List.any_eq_true]
  refine ⟨entry, member, ?_⟩
  have minerOf : entry.miner = miner := congrArg LedgerKey.miner key
  have here : entry.refId = hash := congrArg LedgerKey.refId key
  rw [minerOf, before]
  simpa using here

theorem orphaned_nets_zero (known : LedgerKnown s) (quiet : Quiet s.db confirmDepth)
    (found : s.db.blocks.find? hash = some row) (orphaned : row.status = .orphaned)
    (noFee : hasFee s.db.books.ledgerEntries hash = false) :
    netTotal hash s.db.books.ledgerEntries.rows = 0 := by
  refine netTotal_reversed ⟨?_, ?_, ?_⟩
  · intro entry member block here
    rcases block_shape known member block with ⟨kind, miner⟩ | ⟨miner, -, shape⟩
    · have fee : hasFee s.db.books.ledgerEntries hash = true := by
        rw [hasFee, contains_iff_mem_keys]
        refine List.mem_map.2 ⟨entry, member, ?_⟩
        simp [LedgerEntry.ledgerKey, blockKey, kind, miner, block, here]
      rw [fee] at noFee; cases noFee
    · exact shape.imp_right (Or.imp And.left And.left)
  · intro entry member kind block here
    have shape := known entry member
    unfold EntryKnown at shape
    rw [kind] at shape
    have isReward : IsReward s.db entry := ⟨member, kind, block, shape.2.1⟩
    obtain ⟨reward, isReward', miner, here', amount, follows, negated⟩ := reward_behind known
      (.inr rfl) (reversed_of_quiet quiet found orphaned isReward here)
    cases reward_unique isReward' isReward miner (here'.trans here.symm)
    rw [← negated rfl]
    exact follows
  · intro entry member kind here
    have shape := known entry member
    unfold EntryKnown at shape
    rw [kind] at shape
    obtain ⟨reward, isReward, rfl⟩ := shape
    exact ⟨reward, isReward.member, isReward.kind, isReward.refType, rfl⟩

theorem orphaned_unconfirmed (known : LedgerKnown s) (quiet : Quiet s.db confirmDepth)
    (found : s.db.blocks.find? hash = some row) (orphaned : row.status = .orphaned)
    (order : inOrder s.db.books.ledgerEntries hash .rewardOrphanReversal .rewardMature = false)
    (miner : Address) : confirmedShare miner hash s.db.books.ledgerEntries.rows = 0 := by
  rw [confirmedShare_known known]
  by_cases ripe : blockKey (some miner) .rewardMature hash ∈
      s.db.books.ledgerEntries.rows.map LedgerEntry.ledgerKey
  · obtain ⟨reward, isReward, own, here, -⟩ := reward_behind known (.inl rfl) ripe
    have reversed := reversed_of_quiet quiet found orphaned isReward here
    rw [own] at reversed
    rcases Theory.precedes_total (by simp [blockKey]) ripe reversed with matured | flipped
    · rw [if_pos ripe, if_pos matured, sub_self]
    · rw [inOrder_of_precedes flipped] at order; cases order
  · have notBefore : ¬ precedes (s.db.books.ledgerEntries.rows.map LedgerEntry.ledgerKey)
        (blockKey (some miner) .rewardMature hash)
        (blockKey (some miner) .rewardOrphanReversal hash) = true :=
      fun before => ripe (Theory.precedes_mem before).1
    rw [if_neg ripe, if_neg notBefore, sub_self]

theorem confirmed_pays (known : LedgerKnown s) (quiet : Quiet s.db confirmDepth)
    (found : s.db.blocks.find? hash = some row) (confirmed : row.status = .confirmed)
    (deep : confirmDepth ≤ row.confirmations)
    (order : inOrder s.db.books.ledgerEntries hash .rewardMature .rewardOrphanReversal = false)
    (miner : Address) :
    confirmedShare miner hash s.db.books.ledgerEntries.rows =
      allocationOf s.db.books.ledgerEntries miner hash := by
  rw [confirmedShare_known known]
  have notBefore : ¬ precedes (s.db.books.ledgerEntries.rows.map LedgerEntry.ledgerKey)
      (blockKey (some miner) .rewardMature hash)
      (blockKey (some miner) .rewardOrphanReversal hash) = true := by
    intro before
    rw [inOrder_of_precedes before] at order; cases order
  rw [if_neg notBefore, sub_zero]
  by_cases ripe : blockKey (some miner) .rewardMature hash ∈
      s.db.books.ledgerEntries.rows.map LedgerEntry.ledgerKey
  · rw [if_pos ripe]
  · rw [if_neg ripe, allocationOf]
    cases settled : s.db.books.ledgerEntries.find?
        (blockKey (some miner) .rewardImmature hash) with
    | none => rfl
    | some reward =>
        obtain ⟨member, key⟩ := Table.find?_eq_some_iff.1 settled
        have own : reward.miner = some miner := congrArg LedgerKey.miner key
        have isReward : IsReward s.db reward :=
          ⟨member, congrArg LedgerKey.kind key, congrArg LedgerKey.refType key, by simp [own]⟩
        have matured := matured_of_quiet quiet found confirmed deep isReward
          (congrArg LedgerKey.refId key)
        rw [own] at matured
        exact absurd matured ripe

end Done

/-- The run is undisturbed, and the confirmed column unclamped. -/
def Orderly (s : State) (e : Event) : Prop := Undisturbed s e ∧ Unclamped s e

instance : ∀ s e, Decidable (Orderly s e) := fun s e =>
  inferInstanceAs (Decidable (Undisturbed s e ∧ Unclamped s e))

/-- What a block leaves in a miner's confirmed balance: nothing if it is orphaned, his allocation
if it is confirmed at depth, and what its entries did to the column before that. -/
def worth (db : Db) (confirmDepth : Nat) (miner : Address) (row : BlockRow) : Int :=
  if row.status = .orphaned then 0
  else if row.status = .confirmed ∧ confirmDepth ≤ row.confirmations then
    allocationOf db.books.ledgerEntries miner row.hash
  else confirmedShare miner row.hash db.books.ledgerEntries.rows

/-- **The life cycle of a reward** in orderly runs, once the workers are done. -/
theorem reward_life_cycle (reached : rewardMachine.Reaches Orderly s) {confirmDepth : Nat}
    (quiet : Quiet s.db confirmDepth) :
    (∀ hash row, s.db.blocks.find? hash = some row → row.status = .orphaned →
      netTotal hash s.db.books.ledgerEntries.rows = 0 ∧
        ∀ miner, confirmedShare miner hash s.db.books.ledgerEntries.rows = 0) ∧
    (∀ hash row, s.db.blocks.find? hash = some row → row.status = .confirmed →
      confirmDepth ≤ row.confirmations →
      ∀ miner, confirmedShare miner hash s.db.books.ledgerEntries.rows =
        allocationOf s.db.books.ledgerEntries miner hash) ∧
    ∀ miner, (s.db.books.balance miner).confirmedBaseUnits =
      (s.db.blocks.rows.map (worth s.db confirmDepth miner)).sum +
        payoutShare miner s.db.books.ledgerEntries.rows := by
  have known := ledger_known reached.reachable
  have fit := fitting (reached.mono fun _ _ orderly => orderly.1)
  have orphans : ∀ hash row, s.db.blocks.find? hash = some row → row.status = .orphaned →
      netTotal hash s.db.books.ledgerEntries.rows = 0 ∧
        ∀ miner, confirmedShare miner hash s.db.books.ledgerEntries.rows = 0 := by
    intro hash row found orphaned
    have fits := fit hash row found
    rw [orphaned] at fits
    simp only [Rewards.fits, Bool.and_eq_true, Bool.not_eq_true'] at fits
    exact ⟨orphaned_nets_zero known quiet found orphaned fits.1,
      orphaned_unconfirmed known quiet found orphaned fits.2⟩
  have pays : ∀ hash row, s.db.blocks.find? hash = some row → row.status = .confirmed →
      confirmDepth ≤ row.confirmations →
      ∀ miner, confirmedShare miner hash s.db.books.ledgerEntries.rows =
        allocationOf s.db.books.ledgerEntries miner hash := by
    intro hash row found confirmed deep
    have fits := fit hash row found
    rw [confirmed] at fits
    simp only [Rewards.fits, Bool.not_eq_true'] at fits
    exact confirmed_pays known quiet found confirmed deep fits
  refine ⟨orphans, pays, fun miner => ?_⟩
  rw [confirmed_column (reached.mono fun _ _ orderly => orderly.2) miner]
  congr 2
  refine List.map_congr_left fun row member => ?_
  have found : s.db.blocks.find? row.hash = some row := Table.find?_of_mem member
  unfold worth
  split
  · rename_i orphaned
    exact (orphans row.hash row found orphaned).2 miner
  · split
    · rename_i _ settled
      exact pays row.hash row found settled.1 settled.2 miner
    · rfl

instance (db : Db) (confirmDepth : Nat) : Decidable (Quiet db confirmDepth) :=
  decidable_of_iff (db.listMatureRewardEntries confirmDepth 1000 = .ok [] ∧
      db.listOrphanReversalEntries 1000 = .ok [])
    ⟨fun both => ⟨both.1, both.2⟩, fun quiet => ⟨quiet.mature, quiet.reverse⟩⟩

namespace Sample

/-- The row of the block, if the workers have nothing left to do. -/
def done (s : State) : Option BlockRow :=
  if Quiet s.db 10 then s.db.blocks.find? "block" else none

theorem quiet_of_done {row : BlockRow} (is : done s = some row) :
    Quiet s.db 10 ∧ s.db.blocks.find? "block" = some row := by
  unfold done at is
  split at is
  · exact ⟨by assumption, is⟩
  · cases is

end Sample

/-- One miner, 990 of a block of 1000, and 500 of it locked. -/
theorem reward_life_cycle_matured :
    ∃ s, rewardMachine.Reaches Orderly s ∧
      confirmedShare Sample.miner "block" s.db.books.ledgerEntries.rows = 990 ∧
      allocationOf s.db.books.ledgerEntries Sample.miner "block" = 990 ∧
      (s.db.books.balance Sample.miner).confirmedBaseUnits = 490 := by
  obtain ⟨s, reached, shown⟩ := Machine.exists_of_runUnder rewardMachine Orderly rfl
    (Sample.settledWhilePolled 100 ++ Sample.mature 5 ++
      [.createLockedPayoutBatch (Sample.draft 500) .created 5])
    (fun s => (Sample.done s).any fun row => row.status = .confirmed && 10 ≤ row.confirmations &&
      allocationOf s.db.books.ledgerEntries Sample.miner "block" = 990 &&
      (s.db.blocks.rows.map (worth s.db 10 Sample.miner)).sum = 990 &&
      payoutShare Sample.miner s.db.books.ledgerEntries.rows = -500)
    (by decide +kernel)
  obtain ⟨row, done, holds⟩ := (Option.any_eq_true _ _).1 shown
  obtain ⟨quiet, found⟩ := Sample.quiet_of_done done
  simp only [Bool.and_eq_true, decide_eq_true_eq] at holds
  obtain ⟨⟨⟨⟨confirmed, deep⟩, allocated⟩, left⟩, taken⟩ := holds
  obtain ⟨-, pays, column⟩ := reward_life_cycle reached quiet
  refine ⟨s, reached, ?_, allocated, ?_⟩
  · rw [pays "block" row found confirmed deep, allocated]
  · rw [column, left, taken]
    rfl

/-- An orphaned block keeps its fee; a block that matures, is orphaned and is
confirmed again leaves its miner nothing; and the reward of an orphaned block comes back from a
payout that had locked it. -/
theorem life_cycle_broken :
    (∃ s row, rewardMachine.Reachable s ∧ Quiet s.db 10 ∧
      s.db.listConfirmedUnsettledBlocks 100 = [] ∧ s.db.blocks.find? "block" = some row ∧
      row.status = .orphaned ∧ netTotal "block" s.db.books.ledgerEntries.rows = 10) ∧
    (∃ s row, rewardMachine.Reachable s ∧ Quiet s.db 10 ∧
      s.db.listConfirmedUnsettledBlocks 100 = [] ∧ s.db.blocks.find? "block" = some row ∧
      row.status = .confirmed ∧ 10 ≤ row.confirmations ∧
      allocationOf s.db.books.ledgerEntries Sample.miner "block" = 1000 ∧
      (s.db.books.balance Sample.miner).confirmedBaseUnits = 0) ∧
    (∃ s row, rewardMachine.Reachable s ∧ Quiet s.db 10 ∧
      s.db.listConfirmedUnsettledBlocks 100 = [] ∧ s.db.blocks.rows = [row] ∧
      row.status = .orphaned ∧ payoutShare Sample.miner s.db.books.ledgerEntries.rows = 0 ∧
      (s.db.books.balance Sample.miner).confirmedBaseUnits = 1000) := by
  refine ⟨?_, ?_, ?_⟩
  · obtain ⟨s, reached, shown⟩ := Machine.exists_of_run rewardMachine rfl
      (Sample.settledWhilePolled 100 ++ Sample.answer 2 "orphaned" 0 none ++ Sample.reverse 5)
      (fun s => (Sample.done s).any fun row => s.db.listConfirmedUnsettledBlocks 100 = [] &&
        row.status = .orphaned && netTotal "block" s.db.books.ledgerEntries.rows = 10)
      (by decide +kernel)
    obtain ⟨row, done, holds⟩ := (Option.any_eq_true _ _).1 shown
    obtain ⟨quiet, found⟩ := Sample.quiet_of_done done
    simp only [Bool.and_eq_true, decide_eq_true_eq] at holds
    exact ⟨s, row, reached, quiet, holds.1.1, found, holds.1.2, holds.2⟩
  · obtain ⟨s, reached, shown⟩ := Machine.exists_of_run rewardMachine rfl
      (Sample.settledWhilePolled 0 ++ Sample.mature 5 ++ Sample.answer 2 "orphaned" 0 none ++
        Sample.reverse 6 ++ Sample.answer 3 "seen" 11 (some 1000))
      (fun s => (Sample.done s).any fun row => s.db.listConfirmedUnsettledBlocks 100 = [] &&
        row.status = .confirmed && 10 ≤ row.confirmations &&
        allocationOf s.db.books.ledgerEntries Sample.miner "block" = 1000 &&
        (s.db.books.balance Sample.miner).confirmedBaseUnits = 0)
      (by decide +kernel)
    obtain ⟨row, done, holds⟩ := (Option.any_eq_true _ _).1 shown
    obtain ⟨quiet, found⟩ := Sample.quiet_of_done done
    simp only [Bool.and_eq_true, decide_eq_true_eq] at holds
    exact ⟨s, row, reached, quiet, holds.1.1.1.1, found, holds.1.1.1.2, holds.1.1.2, holds.1.2,
      holds.2⟩
  · obtain ⟨s, reached, shown⟩ := Machine.exists_of_run rewardMachine rfl
      (Sample.lockedWhilePolled ++ Sample.answer 2 "orphaned" 0 none ++ Sample.reverse 6 ++
        [.unlockFailedPayout "payout"])
      (fun s => (Sample.done s).any fun row => s.db.listConfirmedUnsettledBlocks 100 = [] &&
        s.db.blocks.rows = [row] && row.status = .orphaned &&
        payoutShare Sample.miner s.db.books.ledgerEntries.rows = 0 &&
        (s.db.books.balance Sample.miner).confirmedBaseUnits = 1000)
      (by decide +kernel)
    obtain ⟨row, done, holds⟩ := (Option.any_eq_true _ _).1 shown
    obtain ⟨quiet, -⟩ := Sample.quiet_of_done done
    simp only [Bool.and_eq_true, decide_eq_true_eq] at holds
    exact ⟨s, row, reached, quiet, holds.1.1.1.1, holds.1.1.1.2, holds.1.1.2, holds.1.2, holds.2⟩

end CsdPool.Rewards
