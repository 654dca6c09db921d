/-
# Rewards.ConfirmedColumn — where a confirmed balance comes from

`confirmed_base_units` as the ledger replays it is the sum of what each block leaves in it and of
what payouts took and gave back (`confirmed_split`).  The cached column is the replayed one in every
run in which no guard acts on that column (`confirmed_projected`): an entry that adds to it has not
changed its sign, and a reversal of a matured reward finds it covered.  Guards of the other columns
do not matter here.
-/
import CsdPool.Rewards.Contribution
import CsdPool.Rewards.Projection
import CsdPool.Theory.Grouping

namespace CsdPool

open Theory (Keyed Table Machine)

set_option autoImplicit false

/-! ## One entry -/

namespace Books

/-- No guard acts on the confirmed column when the entry is appended. -/
def confirms (books : Books) (entry : LedgerEntry) : Bool :=
  match entry.miner with
  | none => true
  | some miner =>
      match entry.kind with
      | .rewardMature => decide (0 ≤ entry.amountBaseUnits)
      | .rewardOrphanReversal =>
          !wasMatured books.ledgerEntries miner entry.refType entry.refId ||
            (books.balance miner).covers true .rewardOrphanReversal entry.amountBaseUnits
      | .payoutLock => (books.balance miner).covers false .payoutLock entry.amountBaseUnits
      | .payoutFailedUnlock =>
          decide (0 ≤ entry.amountBaseUnits) &&
            (books.hasBalanceRow miner || decide (entry.amountBaseUnits = 0))
      | _ => true

theorem moved_confirmed {books : Books} {entry : LedgerEntry} {miner : Address}
    (own : entry.miner = some miner) (confirms : books.confirms entry = true) :
    (books.moved entry miner).confirmedBaseUnits = (books.balance miner).confirmedBaseUnits +
      Balance.confirmedDelta (wasMatured books.ledgerEntries miner entry.refType entry.refId)
        entry.kind entry.amountBaseUnits := by
  have noRow : books.hasBalanceRow miner = false → books.balance miner = {} :=
    balance_of_absent
  unfold Books.confirms at confirms
  rw [own] at confirms
  dsimp only at confirms
  unfold moved
  cases kind : entry.kind with
  | rewardImmature =>
      simp only [Balance.guarded, Balance.confirmedDelta, Int.add_zero]
      split <;> rfl
  | rewardMature =>
      rw [kind] at confirms
      have sign := of_decide_eq_true confirms
      simp only [Balance.guarded, Balance.confirmedDelta]
      split
      · rfl
      · omega
  | rewardOrphanReversal =>
      rw [kind] at confirms
      cases matured : wasMatured books.ledgerEntries miner entry.refType entry.refId with
      | true =>
          rw [matured] at confirms
          have covered : (books.balance miner).covers true .rewardOrphanReversal
              entry.amountBaseUnits = true := confirms
          rw [Balance.guarded_of_covers noRow covered, Balance.post_confirmed]
      | false =>
          simp only [Balance.guarded, Balance.confirmedDelta, Bool.false_eq_true, if_false,
            Int.add_zero]
          split <;> rfl
  | payoutLock =>
      rw [kind] at confirms
      exact (congrArg Balance.confirmedBaseUnits (Balance.guarded_of_covers noRow confirms)).trans
        (Balance.post_confirmed ..)
  | payoutSent =>
      simp only [Balance.guarded, Balance.confirmedDelta, Int.add_zero]
      split <;> rfl
  | payoutFailedUnlock =>
      rw [kind] at confirms
      simp only [Bool.and_eq_true, Bool.or_eq_true, decide_eq_true_eq] at confirms
      simp only [Balance.guarded, Balance.confirmedDelta]
      split
      · rfl
      · rename_i none_
        rcases confirms.2 with present | zero
        · have sign := confirms.1
          have still : ¬ entry.amountBaseUnits > 0 := fun some_ => none_ ⟨some_, present⟩
          omega
        · omega
  | poolFee => exact (Int.add_zero _).symm
  | manualAdjustment => exact (Int.add_zero _).symm

/-! ## The cached column and the replayed one -/

/-- The cache shows every miner the confirmed column of his ledger entries. -/
def ConfirmedProjected (books : Books) : Prop :=
  ∀ miner, (books.balance miner).confirmedBaseUnits =
    (recompute miner books.ledgerEntries.rows).confirmedBaseUnits

/-- Every fresh entry of a transaction confirms where it is appended. -/
def appendConfirms : Books → List LedgerEntry → Bool
  | _, [] => true
  | books, entry :: rest =>
      (books.ledgerEntries.contains entry.ledgerKey || books.confirms entry) &&
        match books.appendLedgerEntry entry with
        | .ok books' => appendConfirms books' rest
        | .error _ => true

theorem confirmed_append {books books' : Books} {entry : LedgerEntry}
    (appended : books.appendLedgerEntry entry = .ok books') (projected : books.ConfirmedProjected)
    (guard : (books.ledgerEntries.contains entry.ledgerKey || books.confirms entry) = true) :
    books'.ConfirmedProjected := by
  obtain ⟨-, ⟨-, rfl⟩ | ⟨fresh, rows, -⟩⟩ := appendLedgerEntry_ok appended
  · exact projected
  rw [Table.contains_eq_isSome, fresh, Option.isSome_none, Bool.false_or] at guard
  intro miner
  rw [rows, recompute_append, balance_appendLedgerEntry fresh appended]
  by_cases own : entry.miner = some miner
  · rw [if_pos own, if_pos own, moved_confirmed own guard, Balance.post_confirmed,
      projected miner, wasMatured_eq books entry own]
  · rw [if_neg own, if_neg own, projected miner]

theorem confirmed_appends {books books' : Books} {entries : List LedgerEntry}
    (appended : books.appendLedgerEntries entries = .ok books')
    (projected : books.ConfirmedProjected) (guard : books.appendConfirms entries = true) :
    books'.ConfirmedProjected := by
  induction entries generalizing books with
  | nil => exact Theory.foldlM_ok_nil.1 appended ▸ projected
  | cons entry rest ih =>
      obtain ⟨mid, first, later⟩ := Theory.foldlM_ok_cons.1 appended
      rw [appendConfirms, first, Bool.and_eq_true] at guard
      exact ih later (confirmed_append first projected guard.1) guard.2

/-- A new lock needs no condition. -/
theorem confirmed_lock {books books' : Books} {batchId : String} {recipient : PayoutRecipient}
    (locked : books.lockRecipient batchId recipient = .ok books')
    (fresh : books.ledgerEntries.find? (lockKey batchId recipient.miner) = none)
    (projected : books.ConfirmedProjected) : books'.ConfirmedProjected := by
  obtain ⟨ledger, cache, row, found, covers⟩ := lockRecipient_ok locked
  have rows : books'.ledgerEntries.rows =
      books.ledgerEntries.rows ++ [lockEntry batchId recipient] := by
    rw [ledger]
    exact (Table.insert_of_fresh fresh).1
  have shown_ : shown books.balanceCache recipient.miner = row.balance := by
    rw [shown, found]
    rfl
  intro miner
  have before := projected miner
  rw [balance_eq_shown] at before
  rw [balance_eq_shown, cache, shown_updateBalance, rows, recompute_append]
  by_cases own : recipient.miner = miner
  · subst own
    have own : (lockEntry batchId recipient).miner = some recipient.miner := rfl
    rw [if_pos ⟨rfl, by rw [found]; rfl, by rw [shown_]; simpa using covers⟩, if_pos own,
      Balance.post_confirmed, ← before]
    have holds : (recipient.amountBaseUnits : Int) ≤
        (shown books.balanceCache recipient.miner).confirmedBaseUnits := by
      rw [shown_]
      exact covers
    show max ((shown books.balanceCache recipient.miner).confirmedBaseUnits -
      recipient.amountBaseUnits) 0 =
        (shown books.balanceCache recipient.miner).confirmedBaseUnits + -recipient.amountBaseUnits
    omega
  · rw [if_neg (fun hit => own hit.1), if_neg (by simpa [lockEntry] using own), before]

end Books

theorem Db.insertRecipients_confirmed {batchId : String} {recipients : List PayoutRecipient}
    {state state' : Books × Table PayoutRecipientRow}
    (inserted : recipients.foldlM (insertRecipient batchId) state = .ok state')
    (listed : LocksListed batchId state) (projected : state.1.ConfirmedProjected) :
    state'.1.ConfirmedProjected :=
  (Theory.foldlM_invariant
    (I := fun state => LocksListed batchId state ∧ state.1.ConfirmedProjected)
    (fun _ _ _ _ holds step =>
      have ⟨fresh, listed'⟩ := insertRecipient_listed step holds.1
      ⟨listed', Books.confirmed_lock (insertRecipient_ok step).2.2 fresh holds.2⟩)
    ⟨listed, projected⟩ inserted).2

namespace Rewards

variable {s s' : State} {e : Event}

/-- No guard acts on the confirmed column for what the event appends. -/
def Unclamped (s : State) (e : Event) : Prop := s.db.books.appendConfirms (s.appending e) = true

instance : ∀ s e, Decidable (Unclamped s e) := fun s e =>
  inferInstanceAs (Decidable (s.db.books.appendConfirms (s.appending e) = true))

theorem confirmed_step (stepped : Stepped s e s') (known : LedgerKnown s)
    (unclamped : Unclamped s e) (projected : s.db.books.ConfirmedProjected) :
    s'.db.books.ConfirmedProjected := by
  cases books_step stepped with
  | same kept => rw [kept]; exact projected
  | appended committed => exact Books.confirmed_appends committed projected unclamped
  | locked _ fresh _ inserted =>
      exact Db.insertRecipients_confirmed inserted (locks_fresh known fresh) projected

/-- **The confirmed column is a projection of the ledger** where nothing clamps it. -/
theorem confirmed_projected (reached : rewardMachine.Reaches Unclamped s) :
    s.db.books.ConfirmedProjected := by
  refine reached.invariant (I := fun s => s.db.books.ConfirmedProjected) ?_ ?_
  · rintro s rfl miner
    rfl
  · intro s e s' before projected unclamped stepped
    exact confirmed_step (step_stepped stepped) (ledger_known before.reachable) unclamped projected

/-! ## Block by block -/

/-- What payouts took from a miner's confirmed column and gave back to it. -/
def payoutShare (miner : Address) (rows : List LedgerEntry) : Int :=
  ((rows.filter fun entry => decide (entry.miner = some miner) &&
      (decide (entry.kind = .payoutLock) || decide (entry.kind = .payoutFailedUnlock))).map
    (·.amountBaseUnits)).sum

theorem payoutShare_append (miner : Address) (rows : List LedgerEntry) (entry : LedgerEntry) :
    payoutShare miner (rows ++ [entry]) = payoutShare miner rows +
      if entry.miner = some miner ∧ (entry.kind = .payoutLock ∨ entry.kind = .payoutFailedUnlock)
      then entry.amountBaseUnits else 0 := by
  unfold payoutShare
  rw [List.filter_append, List.map_append, List.sum_append]
  congr 1
  by_cases counts : entry.miner = some miner ∧
      (entry.kind = .payoutLock ∨ entry.kind = .payoutFailedUnlock)
  · rw [if_pos counts, List.filter_cons_of_pos (by simpa using counts)]
    simp
  · rw [if_neg counts, List.filter_cons_of_neg (by simpa using counts)]
    rfl

/-- Where an entry that moves the confirmed column refers to. -/
structure Placed (hashes : List String) (entry : LedgerEntry) : Prop where
  rewards : entry.kind = .rewardMature ∨ entry.kind = .rewardOrphanReversal →
    entry.refType = "block" ∧ entry.refId ∈ hashes
  payouts : entry.kind = .payoutLock ∨ entry.kind = .payoutFailedUnlock → entry.refType ≠ "block"

/-- **The replayed confirmed column**, block by block. -/
theorem confirmed_split {hashes : List String} (unique : hashes.Nodup) (miner : Address)
    {rows : List LedgerEntry} (placed : ∀ entry ∈ rows, Placed hashes entry) :
    (recompute miner rows).confirmedBaseUnits =
      (hashes.map fun hash => confirmedShare miner hash rows).sum + payoutShare miner rows := by
  induction rows using List.reverseRecOn with
  | nil =>
      have none_ : (hashes.map fun hash => confirmedShare miner hash []).sum = 0 :=
        List.sum_eq_zero fun x member => by
          obtain ⟨hash, -, rfl⟩ := List.mem_map.1 member
          rfl
      rw [none_]
      rfl
  | append_singleton rows entry ih =>
      have last := placed entry (by simp)
      have shares : (hashes.map fun hash => confirmedShare miner hash (rows ++ [entry])).sum =
          (hashes.map fun hash => confirmedShare miner hash rows).sum +
            if entry.refId ∈ hashes then
              (if entry.miner = some miner ∧ entry.refType = "block"
                then Balance.confirmedDelta (maturedIn rows entry) entry.kind
                  entry.amountBaseUnits else 0) else 0 := by
        simp only [confirmedShare_snoc]
        rw [List.sum_map_add, Theory.Grouping.sum_ite_key unique]
      rw [recompute_append, shares, payoutShare_append]
      have before := ih fun x member => placed x (List.mem_append_left _ member)
      by_cases own : entry.miner = some miner
      · rw [if_pos own, Balance.post_confirmed, before]
        cases kind : entry.kind with
        | rewardMature =>
            obtain ⟨block, known⟩ := last.rewards (.inl kind)
            simp [own, block, known, Balance.confirmedDelta]
            omega
        | rewardOrphanReversal =>
            obtain ⟨block, known⟩ := last.rewards (.inr kind)
            simp [own, block, known, Balance.confirmedDelta]
            omega
        | payoutLock =>
            have other := last.payouts (.inl kind)
            simp [own, other, Balance.confirmedDelta]
            omega
        | payoutFailedUnlock =>
            have other := last.payouts (.inr kind)
            simp [own, other, Balance.confirmedDelta]
            omega
        | _ => simp [Balance.confirmedDelta]
      · rw [if_neg own, before]
        simp [own]

theorem ledger_placed (known : LedgerKnown s) {entry : LedgerEntry}
    (member : entry ∈ s.db.books.ledgerEntries.rows) :
    Placed (s.db.blocks.rows.map (·.hash)) entry := by
  have shape := known entry member
  unfold EntryKnown at shape
  have behind {kind : LedgerKind} {amount : Int → Int} (follows : Follows s.db kind amount entry) :
      entry.refType = "block" ∧ entry.refId ∈ s.db.blocks.rows.map (·.hash) := by
    obtain ⟨reward, isReward, rfl⟩ := follows
    have rewarded := known reward isReward.member
    unfold EntryKnown at rewarded
    rw [isReward.kind] at rewarded
    exact ⟨rfl, Table.mem_map_key_iff.2 rewarded.2.2⟩
  constructor
  · rintro (kind | kind)
    · rw [kind] at shape
      exact behind shape
    · rw [kind] at shape
      exact behind shape
  · rintro (kind | kind)
    · rw [kind] at shape
      rw [shape.1]
      decide
    · rw [kind] at shape
      dsimp only at shape
      rw [shape]
      decide

/-- **Where a confirmed balance comes from**: each block's share, less what payouts took. -/
theorem confirmed_column (reached : rewardMachine.Reaches Unclamped s) (miner : Address) :
    (s.db.books.balance miner).confirmedBaseUnits =
      (s.db.blocks.rows.map fun row =>
        confirmedShare miner row.hash s.db.books.ledgerEntries.rows).sum +
          payoutShare miner s.db.books.ledgerEntries.rows := by
  have known := ledger_known reached.reachable
  rw [confirmed_projected reached miner,
    confirmed_split s.db.blocks.unique miner fun entry member => ledger_placed known member]
  rw [List.map_map]
  rfl

end Rewards

end CsdPool
