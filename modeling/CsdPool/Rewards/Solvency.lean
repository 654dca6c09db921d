/-
# Rewards.Solvency — the money of whole runs

Two accounts of the same balances.

In every run, whatever the guards of the balance updates did, no miner has less than his ledger
entries are worth (`never_short`): where a guard clamps a column it is the pool that loses.

In every run whose settlements are whole and whose appends meet no guard, nothing is made and
nothing is lost (`money_conserved`): no column is negative, a miner's columns add up to what he
earned, and all the miners' columns together with the pool's fees are the rewards of the settled
blocks less what orphaned blocks took back.  So the pool never pays or promises more than it mined.
-/
import CsdPool.Db.Earnings
import CsdPool.Rewards.Projection
import CsdPool.Rewards.Settlement
import CsdPool.Theory.Grouping
import Mathlib.Data.List.Dedup

namespace CsdPool.Rewards

open Theory (Keyed Table Machine)
open Theory.Grouping

set_option autoImplicit false

variable {s s' : State} {e : Event}

/-! ## Every run -/

theorem floored_step (stepped : Stepped s e s') (floored : s.db.books.Floored) :
    s'.db.books.Floored := by
  cases books_step stepped with
  | same kept => exact (congrArg Books.Floored kept).mpr floored
  | appended committed => exact Books.floored_appends committed floored
  | locked _ _ _ inserted =>
      have kept := Db.insertRecipients_floored inserted floored
      exact kept

/-- **No miner is ever short.** -/
theorem never_short (reached : rewardMachine.Reachable s) (miner : Address) :
    creditedTo miner s.db.books.ledgerEntries.rows ≤ (s.db.books.balance miner).total := by
  have floored : s.db.books.Floored := by
    refine reached.invariant (I := fun s => s.db.books.Floored) ?_ ?_
    · rintro s rfl miner
      exact Int.le_refl 0
    · intro s e s' _ floored _ stepped
      exact floored_step (step_stepped stepped) floored
  exact floored miner

/-- The reversal that is clamped leaves the miner with what he was paid. -/
theorem never_short_clamped :
    ∃ s, rewardMachine.Reachable s ∧
      creditedTo Sample.miner s.db.books.ledgerEntries.rows = 0 ∧
      0 ≤ (s.db.books.balance Sample.miner).total ∧
      (s.db.books.balance Sample.miner).total = 1000 := by
  obtain ⟨s, reached, shown⟩ := Machine.exists_of_run rewardMachine rfl
    (Sample.lockedWhilePolled ++ Sample.answer 2 "orphaned" 0 none ++ Sample.reverse 6)
    (fun s => decide (creditedTo Sample.miner s.db.books.ledgerEntries.rows = 0 ∧
      (s.db.books.balance Sample.miner).total = 1000))
    (by decide +kernel)
  obtain ⟨worthless, kept⟩ := of_decide_eq_true shown
  have floor := never_short reached Sample.miner
  rw [worthless] at floor
  exact ⟨s, reached, worthless, floor, kept⟩

/-! ## Runs that lose nothing -/

/-- The settlement is whole and no guard acts. -/
def Sound (s : State) (e : Event) : Prop := Whole s e ∧ Unguarded s e

instance : ∀ s e, Decidable (Sound s e) := fun s e =>
  inferInstanceAs (Decidable (Whole s e ∧ Unguarded s e))

theorem nonneg_step (stepped : Stepped s e s') (unguarded : Unguarded s e)
    (nonneg : s.db.books.Nonneg) : s'.db.books.Nonneg := by
  cases books_step stepped with
  | same kept => rw [kept]; exact nonneg
  | appended committed => exact Books.nonneg_appends committed nonneg unguarded
  | locked _ _ _ inserted =>
      have kept := Db.insertRecipients_nonneg inserted nonneg
      exact kept

theorem columns_nonneg (reached : rewardMachine.Reaches Unguarded s) : s.db.books.Nonneg := by
  refine reached.invariant (I := fun s => s.db.books.Nonneg) ?_ ?_
  · rintro s rfl miner
    exact ⟨Int.le_refl 0, Int.le_refl 0, Int.le_refl 0, Int.le_refl 0⟩
  · intro s e s' _ nonneg unguarded stepped
    exact nonneg_step (step_stepped stepped) unguarded nonneg

/-! ## Sums over the ledger -/

/-- The amounts of one kind. -/
def ofKind (kind : LedgerKind) (rows : List LedgerEntry) : Int :=
  ((rows.filter fun entry => entry.kind = kind).map (·.amountBaseUnits)).sum

/-- The rewards of the blocks that have been settled. -/
def settledRewards (db : Db) : Int :=
  ((db.blocks.rows.filter fun row => db.hasReward row.hash).map fun row =>
    (row.rewardBaseUnits : Int)).sum

theorem sum_earns (rows : List LedgerEntry) :
    (rows.map fun entry => entry.kind.earns entry.amountBaseUnits).sum =
      ofKind .rewardImmature rows + ofKind .rewardOrphanReversal rows := by
  unfold ofKind
  induction rows with
  | nil => rfl
  | cons entry rest ih =>
      rw [List.map_cons, List.sum_cons, ih]
      cases kind : entry.kind <;> simp [kind, LedgerKind.earns] <;> omega

/-- The rewards and fees of the ledger, block by block. -/
theorem sum_rewardRows (known : LedgerKnown s) :
    (s.db.blocks.rows.map fun row =>
        ((rewardRows row.hash s.db.books.ledgerEntries.rows).map (·.amountBaseUnits)).sum).sum =
      ofKind .rewardImmature s.db.books.ledgerEntries.rows +
        ofKind .poolFee s.db.books.ledgerEntries.rows := by
  let mined := s.db.books.ledgerEntries.rows.filter fun entry =>
    entry.kind = .rewardImmature || entry.kind = .poolFee
  have ofBlock : ∀ entry ∈ mined, entry.refType = "block" ∧ BlockKnown s.db entry.refId := by
    intro entry member
    obtain ⟨inLedger, kind⟩ := List.mem_filter.1 member
    have shape := known entry inLedger
    unfold EntryKnown at shape
    simp only [Bool.or_eq_true, decide_eq_true_eq] at kind
    rcases kind with kind | kind
    · rw [kind] at shape
      exact ⟨shape.1, shape.2.2⟩
    · rw [kind] at shape
      exact ⟨shape.1, shape.2.2⟩
  have grouped : ∀ hash, (rewardRows hash s.db.books.ledgerEntries.rows) =
      mined.filter fun entry => entry.refId = hash := by
    intro hash
    show s.db.books.ledgerEntries.rows.filter _ = (s.db.books.ledgerEntries.rows.filter _).filter _
    rw [List.filter_filter]
    apply List.filter_congr
    intro entry member
    cases kind : (decide (entry.kind = .rewardImmature) || decide (entry.kind = .poolFee)) with
    | false => simp
    | true =>
        have shape := ofBlock entry (List.mem_filter.2 ⟨member, kind⟩)
        simp [shape.1]
  have split : (mined.map (·.amountBaseUnits)).sum =
      ofKind .rewardImmature s.db.books.ledgerEntries.rows +
        ofKind .poolFee s.db.books.ledgerEntries.rows := by
    show ((s.db.books.ledgerEntries.rows.filter _).map _).sum = _
    unfold ofKind
    generalize s.db.books.ledgerEntries.rows = rows
    induction rows with
    | nil => rfl
    | cons entry rest ih =>
        cases kind : entry.kind <;> simp [kind, ih] <;> omega
  rw [← split, ← sum_by_key s.db.blocks.unique (fun entry : LedgerEntry => entry.refId)
    (·.amountBaseUnits), List.map_map]
  · simp only [grouped]
    rfl
  · intro entry member
    exact .inl (Table.mem_map_key_iff.2 (ofBlock entry member).2)

/-- The rewards that were settled, each with its fee. -/
theorem sum_settled (reached : rewardMachine.Reaches Whole s) :
    settledRewards s.db = ofKind .rewardImmature s.db.books.ledgerEntries.rows +
      ofKind .poolFee s.db.books.ledgerEntries.rows := by
  rw [← sum_rewardRows (ledger_known reached.reachable)]
  unfold settledRewards
  have each : ∀ row ∈ s.db.blocks.rows,
      ((rewardRows row.hash s.db.books.ledgerEntries.rows).map (·.amountBaseUnits)).sum =
        if s.db.hasReward row.hash then (row.rewardBaseUnits : Int) else 0 := by
    intro row member
    have found : s.db.blocks.find? row.hash = some row := Table.find?_of_mem member
    rcases settled_once reached found with none_ | ⟨feeBps, shares, result, -, rows, sum⟩
    · have unsettled : s.db.hasReward row.hash = false := by
        rw [Bool.eq_false_iff, Ne, hasReward_iff]
        exact not_not_intro none_
      rw [unsettled, none_]
      rfl
    · by_cases settled : s.db.hasReward row.hash = true
      · rw [if_pos settled]
        exact sum
      · have none_ : rewardRows row.hash s.db.books.ledgerEntries.rows = [] := by
          by_contra some_
          exact settled (hasReward_iff.2 some_)
        rw [if_neg settled, none_]
        rfl
  rw [List.map_congr_left each]
  generalize s.db.blocks.rows = rows
  induction rows with
  | nil => rfl
  | cons row rest ih =>
      by_cases settled : s.db.hasReward row.hash = true
      · simp [settled, ih]
      · simp [settled, ih]

/-! ## Sums over the miners -/

/-- All that the cache shows, miner by miner, is all that the ledger says was earned. -/
theorem sum_balances {books : Books} (projected : books.Projected)
    (owned : ∀ entry ∈ books.ledgerEntries.rows,
      entry.miner = none → entry.kind.earns entry.amountBaseUnits = 0) :
    (books.balanceCache.rows.map fun row => row.balance.total).sum =
      (books.ledgerEntries.rows.map fun entry =>
        entry.kind.earns entry.amountBaseUnits).sum := by
  let shown := books.balanceCache.rows.map (·.miner)
  let others := ((books.ledgerEntries.rows.filterMap (·.miner)).filter fun miner =>
    miner ∉ shown).dedup
  have unique : (shown ++ others).Nodup := by
    refine List.nodup_append.2 ⟨books.balanceCache.unique, List.nodup_dedup _, ?_⟩
    rintro miner inShown other inOthers rfl
    have absent := (List.mem_filter.1 (List.mem_dedup.1 inOthers)).2
    exact of_decide_eq_true absent inShown
  have total : ∀ miner, ((books.ledgerEntries.rows.filter fun entry =>
      entry.miner = some miner).map fun entry =>
        entry.kind.earns entry.amountBaseUnits).sum = (books.balance miner).total := by
    intro miner
    rw [projected miner, total_recompute]
    rfl
  rw [← sum_by_key (unique.map (Option.some_injective _)) (fun entry : LedgerEntry => entry.miner)
    fun entry => entry.kind.earns entry.amountBaseUnits]
  · rw [List.map_map, Function.comp_def]
    simp only [total]
    rw [List.map_append, List.sum_append, List.map_map]
    have none_ : (others.map fun miner => (books.balance miner).total).sum = 0 := by
      apply List.sum_eq_zero
      intro amount member
      obtain ⟨miner, inOthers, rfl⟩ := List.mem_map.1 member
      have absent := of_decide_eq_true (List.mem_filter.1 (List.mem_dedup.1 inOthers)).2
      have missing : books.balanceCache.find? miner = none := by
        by_contra present
        exact absent (Table.mem_map_key_iff.2 present)
      rw [Books.balance, missing]
      rfl
    rw [none_, add_zero]
    congr 1
    apply List.map_congr_left
    intro row member
    have found : books.balanceCache.find? row.miner = some row := Table.find?_of_mem member
    show row.balance.total = (books.balance row.miner).total
    rw [Books.balance, found]
    rfl
  · intro entry member
    cases own : entry.miner with
    | none => exact .inr (owned entry member own)
    | some miner =>
        refine .inl (List.mem_map_of_mem ?_)
        by_cases here : miner ∈ shown
        · exact List.mem_append_left _ here
        · apply List.mem_append_right
          apply List.mem_dedup.2
          exact List.mem_filter.2 ⟨List.mem_filterMap.2 ⟨entry, member, own⟩, by simpa using here⟩

/-- Rewards and reversals are miners'. -/
theorem LedgerKnown.owned (known : LedgerKnown s) :
    ∀ entry ∈ s.db.books.ledgerEntries.rows,
      entry.miner = none → entry.kind.earns entry.amountBaseUnits = 0 := by
  intro entry member nobody
  have shape := known entry member
  unfold EntryKnown at shape
  cases kind : entry.kind with
  | rewardImmature =>
      rw [kind] at shape
      rw [nobody] at shape
      cases shape.2.1
  | rewardOrphanReversal =>
      rw [kind] at shape
      obtain ⟨reward, isReward, rfl⟩ := shape
      have owner := isReward.miner
      change reward.miner = none at nobody
      rw [nobody] at owner
      cases owner
  | _ => rfl

/-- **Money is neither made nor lost** in runs whose settlements are whole and whose appends no
guard meets. -/
theorem money_conserved (reached : rewardMachine.Reaches Sound s) :
    (∀ miner, (s.db.books.balance miner).Nonneg ∧
      (s.db.books.balance miner).total = earned miner s.db.books.ledgerEntries.rows) ∧
    (s.db.books.balanceCache.rows.map fun row => row.balance.total).sum +
        ofKind .poolFee s.db.books.ledgerEntries.rows =
      settledRewards s.db + ofKind .rewardOrphanReversal s.db.books.ledgerEntries.rows := by
  have unguarded : rewardMachine.Reaches Unguarded s := reached.mono fun _ _ sound => sound.2
  have whole : rewardMachine.Reaches Whole s := reached.mono fun _ _ sound => sound.1
  have projected : s.db.books.Projected := fun miner => balance_projected unguarded miner
  refine ⟨fun miner => ⟨columns_nonneg unguarded miner, ?_⟩, ?_⟩
  · rw [projected miner, total_recompute]
  · rw [sum_balances projected (ledger_known reached.reachable).owned, sum_earns, sum_settled whole]
    omega

/-- A block of 1000 with a fee of 10, its reward locked for payout. -/
theorem money_conserved_locked :
    ∃ s, rewardMachine.Reaches Sound s ∧ settledRewards s.db = 1000 ∧
      ofKind .poolFee s.db.books.ledgerEntries.rows = 10 ∧
      (s.db.books.balanceCache.rows.map fun row => row.balance.total).sum = 990 := by
  obtain ⟨s, reached, shown⟩ := Machine.exists_of_runUnder rewardMachine Sound rfl
    (Sample.confirmedBlock ++ Sample.settle 3 100 ++ Sample.mature 4 ++
      [.createLockedPayoutBatch (Sample.draft 500) .created 5])
    (fun s => decide (settledRewards s.db = 1000 ∧
      ofKind .poolFee s.db.books.ledgerEntries.rows = 10 ∧
      ofKind .rewardOrphanReversal s.db.books.ledgerEntries.rows = 0))
    (by decide +kernel)
  obtain ⟨settled, fee, reversed⟩ := of_decide_eq_true shown
  have conserved := (money_conserved reached).2
  rw [settled, fee, reversed] at conserved
  exact ⟨s, reached, settled, fee, by omega⟩

end CsdPool.Rewards
