/-
# Db.Projection — the balance cache against the ledger

`recompute` is what `balance_cache` is documented to be: the columns of a miner
replayed from his ledger entries, in ledger order and without any guard.  A
reversal counts against the confirmed column if a `reward_mature` entry of the
same miner and block precedes it, and against the immature column otherwise.

`Books.sound` is the condition under which one append moves the cache as the
replay moves: the amount has the sign of its kind and the debited column covers
it.  It is exact, entry by entry (`projects_append_iff`), and a transaction whose
fresh entries are all sound keeps the cache a projection (`projects_appends`).
-/
import CsdPool.Db.Payouts

namespace CsdPool

open Theory (Keyed Table)

set_option autoImplicit false

/-! ## Replaying a ledger -/

/-- The unguarded effect of an entry; `matured` is read by reversals only. -/
def Balance.post (matured : Bool) (kind : LedgerKind) (amount : Int) (b : Balance) : Balance :=
  match kind with
  | .rewardImmature => { b with immatureBaseUnits := b.immatureBaseUnits + amount }
  | .rewardMature =>
      { b with
        immatureBaseUnits := b.immatureBaseUnits - amount
        confirmedBaseUnits := b.confirmedBaseUnits + amount }
  | .rewardOrphanReversal =>
      if matured then { b with confirmedBaseUnits := b.confirmedBaseUnits + amount }
      else { b with immatureBaseUnits := b.immatureBaseUnits + amount }
  | .payoutLock =>
      { b with
        confirmedBaseUnits := b.confirmedBaseUnits + amount
        lockedBaseUnits := b.lockedBaseUnits - amount }
  | .payoutSent =>
      { b with
        lockedBaseUnits := b.lockedBaseUnits + amount
        paidBaseUnits := b.paidBaseUnits - amount }
  | .payoutFailedUnlock =>
      { b with
        lockedBaseUnits := b.lockedBaseUnits - amount
        confirmedBaseUnits := b.confirmedBaseUnits + amount }
  | .poolFee | .manualAdjustment => b

/-- What an entry adds to the confirmed column. -/
def Balance.confirmedDelta (matured : Bool) (kind : LedgerKind) (amount : Int) : Int :=
  match kind with
  | .rewardMature | .payoutLock | .payoutFailedUnlock => amount
  | .rewardOrphanReversal => if matured then amount else 0
  | _ => 0

theorem Balance.post_confirmed (matured : Bool) (kind : LedgerKind) (amount : Int) (b : Balance) :
    (b.post matured kind amount).confirmedBaseUnits =
      b.confirmedBaseUnits + confirmedDelta matured kind amount := by
  cases kind with
  | rewardOrphanReversal =>
      cases matured with
      | true => rfl
      | false => exact (Int.add_zero _).symm
  | rewardMature | payoutLock | payoutFailedUnlock => rfl
  | _ => exact (Int.add_zero _).symm

/-- A `reward_mature` entry for the entry's miner and reference stands in the list. -/
def maturedIn (earlier : List LedgerEntry) (entry : LedgerEntry) : Bool :=
  earlier.any fun m => m.ledgerKey = ⟨entry.miner, .rewardMature, entry.refType, entry.refId⟩

def recomputeFrom (miner : Address) :
    List LedgerEntry → Balance → List LedgerEntry → Balance
  | _, b, [] => b
  | earlier, b, entry :: rest =>
      recomputeFrom miner (earlier ++ [entry])
        (if entry.miner = some miner
          then b.post (maturedIn earlier entry) entry.kind entry.amountBaseUnits else b) rest

/-- A miner's columns recomputed from the ledger entries alone. -/
def recompute (miner : Address) (rows : List LedgerEntry) : Balance :=
  recomputeFrom miner [] {} rows

theorem recomputeFrom_append (miner : Address) (earlier : List LedgerEntry) (b : Balance)
    (rows more : List LedgerEntry) :
    recomputeFrom miner earlier b (rows ++ more) =
      recomputeFrom miner (earlier ++ rows) (recomputeFrom miner earlier b rows) more := by
  induction rows generalizing earlier b with
  | nil => simp [recomputeFrom]
  | cons entry rest ih => simp [recomputeFrom, ih]

theorem recompute_append (miner : Address) (rows : List LedgerEntry) (entry : LedgerEntry) :
    recompute miner (rows ++ [entry]) =
      if entry.miner = some miner
      then (recompute miner rows).post (maturedIn rows entry) entry.kind entry.amountBaseUnits
      else recompute miner rows := by
  simp [recompute, recomputeFrom_append, recomputeFrom]

/-! ## The guarded arms as one function -/

namespace Balance

/-- What a fresh entry does to the columns of its miner; `present` says that the
cache has a row for him. -/
def guarded (matured present : Bool) (kind : LedgerKind) (amount : Int) (b : Balance) : Balance :=
  match kind with
  | .rewardImmature => if amount > 0 then b.creditImmature amount else b
  | .rewardMature => if amount > 0 then b.mature amount else b
  | .rewardOrphanReversal =>
      if amount < 0 then
        if matured then b.reverseMatured (negI128 amount) else b.reverseImmature (negI128 amount)
      else b
  | .payoutLock => if amount < 0 then b.lock (negI128 amount) else b
  | .payoutSent => if amount < 0 ∧ present then b.send (negI128 amount) else b
  | .payoutFailedUnlock => if amount > 0 ∧ present then b.unlock amount else b
  | .poolFee | .manualAdjustment => b

/-- What an entry takes, and the column it takes it from. -/
def debit (matured : Bool) (kind : LedgerKind) (amount : Int) (b : Balance) : Int × Int :=
  match kind with
  | .rewardImmature => (amount, amount)
  | .rewardMature => (amount, b.immatureBaseUnits)
  | .rewardOrphanReversal =>
      (-amount, if matured then b.confirmedBaseUnits else b.immatureBaseUnits)
  | .payoutLock => (-amount, b.confirmedBaseUnits)
  | .payoutSent => (-amount, b.lockedBaseUnits)
  | .payoutFailedUnlock => (amount, b.lockedBaseUnits)
  | .poolFee | .manualAdjustment => (0, 0)

/-- The amount has the sign of its kind, its negation fits, and the debited column
covers it. -/
def covers (matured : Bool) (kind : LedgerKind) (amount : Int) (b : Balance) : Bool :=
  let (taken, column) := b.debit matured kind amount
  decide (0 ≤ taken ∧ taken < 2 ^ 127 ∧ taken ≤ max column 0)

/-- A guard that does not act makes no difference, and one that acts always does. -/
theorem guarded_eq_post_iff {matured present : Bool} {kind : LedgerKind} {amount : Int}
    {b : Balance} (noRow : present = false → b = {})
    (range : -2 ^ 127 ≤ amount ∧ amount < 2 ^ 127) :
    b.guarded matured present kind amount = b.post matured kind amount ↔
      b.covers matured kind amount = true := by
  obtain ⟨immature, confirmed, locked, paid⟩ := b
  unfold covers
  rw [decide_eq_true_eq]
  cases kind with
  | rewardImmature =>
      simp only [guarded, post, debit, creditImmature]
      split
      · simp only [true_iff]; omega
      · simp only [Balance.mk.injEq, and_true]; omega
  | rewardMature =>
      simp only [guarded, post, debit, mature]
      split
      · simp only [Balance.mk.injEq, and_true]; omega
      · simp only [Balance.mk.injEq, and_true]; omega
  | rewardOrphanReversal =>
      simp only [guarded, post, debit, reverseMatured, reverseImmature, negI128]
      cases matured
      · simp only [Bool.false_eq_true, if_false]
        split
        · split <;> simp only [Balance.mk.injEq, and_true] <;> omega
        · simp only [Balance.mk.injEq, and_true]; omega
      · simp only [if_true]
        split
        · split <;> simp only [Balance.mk.injEq, and_true, true_and] <;> omega
        · simp only [Balance.mk.injEq, and_true, true_and]; omega
  | payoutLock =>
      simp only [guarded, post, debit, lock, negI128]
      split
      · split <;> simp only [Balance.mk.injEq, and_true, true_and] <;> omega
      · simp only [Balance.mk.injEq, and_true, true_and]; omega
  | payoutSent =>
      simp only [guarded, post, debit, send, negI128]
      cases present
      · cases noRow rfl
        simp only [Bool.false_eq_true, and_false, if_false, Balance.mk.injEq, true_and]
        omega
      · simp only [and_true]
        split
        · split <;> simp only [Balance.mk.injEq, true_and] <;> omega
        · simp only [Balance.mk.injEq, true_and]; omega
  | payoutFailedUnlock =>
      simp only [guarded, post, debit, unlock]
      cases present
      · cases noRow rfl
        simp only [Bool.false_eq_true, and_false, if_false, Balance.mk.injEq, and_true, true_and]
        omega
      · simp only [and_true]
        split
        · simp only [Balance.mk.injEq, and_true, true_and]; omega
        · simp only [Balance.mk.injEq, and_true, true_and]; omega
  | poolFee | manualAdjustment => simp [guarded, post, debit]

theorem guarded_of_covers {matured present : Bool} {kind : LedgerKind} {amount : Int}
    {b : Balance} (noRow : present = false → b = {})
    (covered : b.covers matured kind amount = true) :
    b.guarded matured present kind amount = b.post matured kind amount := by
  have taken := covered
  unfold covers at taken
  rw [decide_eq_true_eq] at taken
  cases kind with
  | poolFee | manualAdjustment => rfl
  | rewardImmature | rewardMature | rewardOrphanReversal | payoutLock | payoutSent
  | payoutFailedUnlock =>
      refine (guarded_eq_post_iff noRow ?_).2 covered
      simp only [debit] at taken
      omega

end Balance

/-! ## What an append does to a miner's columns -/

namespace Books

/-- The columns of the entry's miner after a fresh append. -/
def moved (books : Books) (entry : LedgerEntry) (miner : Address) : Balance :=
  (books.balance miner).guarded (wasMatured books.ledgerEntries miner entry.refType entry.refId)
    (books.hasBalanceRow miner) entry.kind entry.amountBaseUnits

/-- The columns a balance table shows for a miner. -/
def shown (cache : Table BalanceRow) (miner : Address) : Balance :=
  ((cache.find? miner).map (·.balance)).getD {}

theorem balance_eq_shown (books : Books) (miner : Address) :
    books.balance miner = shown books.balanceCache miner := rfl

theorem shown_upsertBalance (cache : Table BalanceRow) (excluded : BalanceRow)
    (set : Balance → Balance) (fromDefault : set {} = excluded.balance) (miner : Address) :
    shown (upsertBalance cache excluded set) miner =
      if excluded.miner = miner then set (shown cache miner) else shown cache miner := by
  unfold upsertBalance shown
  cases found : cache.find? excluded.miner with
  | none =>
      obtain ⟨-, went⟩ := Table.insert_of_fresh (t := cache) (r := excluded) found
      simp only [went, if_true, Table.find?_insert]
      by_cases same : excluded.miner = miner
      · subst same
        simp [Keyed.key, found, fromDefault]
      · simp [Keyed.key, same]
  | some row =>
      have taken : cache.find? (Keyed.key excluded) ≠ none := by
        change cache.find? excluded.miner ≠ none
        simp [found]
      simp only [Table.insert_of_taken taken, Bool.false_eq_true, if_false, Table.find?_update]
      by_cases same : excluded.miner = miner
      · subst same
        simp [found]
      · simp [same, Ne.symm same]

theorem shown_ensureBalance (cache : Table BalanceRow) (miner miner' : Address) :
    shown (ensureBalance cache miner) miner' = shown cache miner' := by
  unfold ensureBalance shown
  rw [Table.find?_insert]
  split
  · rename_i fresh
    rw [fresh.2]
    rfl
  · rfl

theorem ensureBalance_present (cache : Table BalanceRow) (miner : Address) :
    ((ensureBalance cache miner).find? miner).isSome = true := by
  unfold ensureBalance
  rw [Table.find?_insert]
  cases found : cache.find? miner with
  | none => simp [Keyed.key]
  | some row => simp

theorem shown_updateBalance (cache : Table BalanceRow) (miner : Address) (p : Balance → Bool)
    (set : Balance → Balance) (miner' : Address) :
    shown (updateBalance cache miner p set).1 miner' =
      if miner = miner' ∧ (cache.find? miner).isSome ∧ p (shown cache miner')
      then set (shown cache miner') else shown cache miner' := by
  unfold updateBalance shown
  rw [Table.find?_update]
  by_cases same : miner = miner'
  · subst same
    cases found : cache.find? miner with
    | none => simp
    | some row =>
        by_cases hit : p row.balance = true
        · simp [hit]
        · simp [hit]
  · cases found : cache.find? miner' with
    | none => simp [same]
    | some row => simp [same, Ne.symm same]

theorem shown_moveBalance_ne (ledger : Table LedgerEntry) (cache : Table BalanceRow)
    {entry : LedgerEntry} {miner : Address} (other : entry.miner ≠ some miner) :
    shown (moveBalance ledger cache entry) miner = shown cache miner := by
  obtain ⟨minerOf, amount, kind, refType, refId⟩ := entry
  cases minerOf with
  | none => cases kind <;> rfl
  | some m =>
      have different : ¬ m = miner := by simpa using other
      cases kind with
      | rewardImmature =>
          simp only [moveBalance]
          split
          · rw [shown_upsertBalance _ _ _ (by simp [Balance.creditImmature]), if_neg different]
          · rfl
      | rewardMature =>
          simp only [moveBalance]
          split
          · rename_i positive
            rw [shown_upsertBalance, if_neg different]
            simp only [Balance.mature, Balance.mk.injEq, and_true]
            omega
          · rfl
      | rewardOrphanReversal | payoutLock | payoutSent | payoutFailedUnlock =>
          simp only [moveBalance]
          repeat' split
          all_goals simp [shown_updateBalance, shown_ensureBalance, different]
      | poolFee => rfl
      | manualAdjustment => rfl

/-- The miner's own columns; the reversal arm looks at the ledger with the entry in it. -/
theorem shown_moveBalance {books : Books} {ledger : Table LedgerEntry} {entry : LedgerEntry}
    {miner : Address} (own : entry.miner = some miner)
    (matured : entry.kind = .rewardOrphanReversal →
      wasMatured ledger miner entry.refType entry.refId =
        wasMatured books.ledgerEntries miner entry.refType entry.refId) :
    shown (moveBalance ledger books.balanceCache entry) miner = books.moved entry miner := by
  obtain ⟨minerOf, amount, kind, refType, refId⟩ := entry
  cases own
  cases kind with
  | rewardImmature =>
      simp only [moveBalance, moved, Balance.guarded, balance_eq_shown]
      split
      · rw [shown_upsertBalance _ _ _ (by simp [Balance.creditImmature]), if_pos rfl]
      · rfl
  | rewardMature =>
      simp only [moveBalance, moved, Balance.guarded, balance_eq_shown]
      split
      · rename_i positive
        rw [shown_upsertBalance, if_pos rfl]
        simp only [Balance.mature, Balance.mk.injEq, and_true]
        omega
      · rfl
  | rewardOrphanReversal =>
      have same := matured rfl
      dsimp only at same
      simp only [moveBalance, moved, Balance.guarded, balance_eq_shown, same]
      split
      · split
        · simp [shown_updateBalance, ensureBalance_present, shown_ensureBalance]
        · simp [shown_updateBalance, ensureBalance_present, shown_ensureBalance]
      · rfl
  | payoutLock =>
      simp only [moveBalance, moved, Balance.guarded, balance_eq_shown]
      split
      · simp [shown_updateBalance, ensureBalance_present, shown_ensureBalance]
      · rfl
  | payoutSent =>
      simp only [moveBalance, moved, Balance.guarded, balance_eq_shown, hasBalanceRow]
      by_cases negative : amount < 0
      · simp [negative, shown_updateBalance]
      · simp [negative]
  | payoutFailedUnlock =>
      simp only [moveBalance, moved, Balance.guarded, balance_eq_shown, hasBalanceRow]
      by_cases positive : amount > 0
      · simp [positive, shown_updateBalance]
      · simp [positive]
  | poolFee => rfl
  | manualAdjustment => rfl

/-- **The columns after an append.** -/
theorem balance_appendLedgerEntry {books books' : Books} {entry : LedgerEntry}
    (fresh : books.ledgerEntries.find? entry.ledgerKey = none)
    (appended : books.appendLedgerEntry entry = .ok books') (miner : Address) :
    books'.balance miner =
      if entry.miner = some miner then books.moved entry miner else books.balance miner := by
  obtain ⟨-, ⟨taken, -⟩ | ⟨-, rows, cache⟩⟩ := appendLedgerEntry_ok appended
  · exact absurd fresh taken
  have ledger : books'.ledgerEntries = (books.ledgerEntries.insert entry).1 :=
    Table.ext (rows.trans (Table.insert_of_fresh fresh).1.symm)
  rw [balance_eq_shown, cache]
  by_cases own : entry.miner = some miner
  · rw [if_pos own]
    refine shown_moveBalance own fun reversal => ?_
    unfold wasMatured
    rw [Table.contains_eq_isSome, Table.contains_eq_isSome, ledger, Table.find?_insert_ne]
    simp [Keyed.key, LedgerEntry.ledgerKey, reversal]
  · rw [if_neg own, shown_moveBalance_ne _ _ own, balance_eq_shown]

/-! ## Sound entries -/

/-- No guard acts when the entry is appended. -/
def sound (books : Books) (entry : LedgerEntry) : Bool :=
  match entry.miner with
  | none => true
  | some miner =>
      (books.balance miner).covers
        (wasMatured books.ledgerEntries miner entry.refType entry.refId) entry.kind
        entry.amountBaseUnits

/-- The cache shows every miner what his ledger entries add up to. -/
def Projected (books : Books) : Prop :=
  ∀ miner, books.balance miner = recompute miner books.ledgerEntries.rows

theorem balance_of_absent {books : Books} {miner : Address}
    (absent : books.hasBalanceRow miner = false) : books.balance miner = {} := by
  unfold hasBalanceRow at absent
  rw [Option.isSome_eq_false_iff, Option.isNone_iff_eq_none] at absent
  rw [balance, absent]
  rfl

theorem wasMatured_eq (books : Books) (entry : LedgerEntry) {miner : Address}
    (own : entry.miner = some miner) :
    wasMatured books.ledgerEntries miner entry.refType entry.refId =
      maturedIn books.ledgerEntries.rows entry := by
  rw [wasMatured, maturedIn, own]
  rfl

/-- The projection after a fresh append, in terms of the cache before it. -/
theorem projected_append {books books' : Books} {entry : LedgerEntry}
    (fresh : books.ledgerEntries.find? entry.ledgerKey = none)
    (appended : books.appendLedgerEntry entry = .ok books') (projected : books.Projected) :
    books'.Projected ↔ ∀ miner, entry.miner = some miner →
      books.moved entry miner = (books.balance miner).post
        (wasMatured books.ledgerEntries miner entry.refType entry.refId) entry.kind
        entry.amountBaseUnits := by
  obtain ⟨-, ⟨taken, -⟩ | ⟨-, rows, -⟩⟩ := appendLedgerEntry_ok appended
  · exact absurd fresh taken
  unfold Projected
  rw [rows]
  simp only [recompute_append, balance_appendLedgerEntry fresh appended]
  constructor
  · intro all miner own
    have here := all miner
    rwa [if_pos own, if_pos own, ← projected miner, ← wasMatured_eq books entry own] at here
  · intro same miner
    by_cases own : entry.miner = some miner
    · rw [if_pos own, if_pos own, same miner own, projected miner, wasMatured_eq books entry own]
    · rw [if_neg own, if_neg own, projected miner]

/-- **Exact, entry by entry.**  From a cache that is the projection of its ledger, a
fresh append keeps it one if and only if the entry is sound. -/
theorem projects_append_iff {books books' : Books} {entry : LedgerEntry}
    (range : -2 ^ 127 ≤ entry.amountBaseUnits ∧ entry.amountBaseUnits < 2 ^ 127)
    (fresh : books.ledgerEntries.find? entry.ledgerKey = none)
    (appended : books.appendLedgerEntry entry = .ok books') (projected : books.Projected) :
    books'.Projected ↔ books.sound entry = true := by
  rw [projected_append fresh appended projected, sound]
  cases own : entry.miner with
  | none => simp
  | some m =>
      simp only [Option.some.injEq, forall_eq', moved]
      exact Balance.guarded_eq_post_iff balance_of_absent range

/-! ## Whole transactions -/

/-- Every fresh entry of a transaction is sound where it is appended. -/
def appendSound : Books → List LedgerEntry → Bool
  | _, [] => true
  | books, entry :: rest =>
      (books.ledgerEntries.contains entry.ledgerKey || books.sound entry) &&
        match books.appendLedgerEntry entry with
        | .ok books' => appendSound books' rest
        | .error _ => true

theorem projects_append {books books' : Books} {entry : LedgerEntry}
    (appended : books.appendLedgerEntry entry = .ok books') (projected : books.Projected)
    (guard : (books.ledgerEntries.contains entry.ledgerKey || books.sound entry) = true) :
    books'.Projected := by
  obtain ⟨-, ⟨-, rfl⟩ | ⟨fresh, -, -⟩⟩ := appendLedgerEntry_ok appended
  · exact projected
  rw [Table.contains_eq_isSome, fresh, Option.isSome_none, Bool.false_or] at guard
  rw [projected_append fresh appended projected]
  intro miner own
  rw [sound, own] at guard
  exact Balance.guarded_of_covers balance_of_absent guard

theorem projects_appends {books books' : Books} {entries : List LedgerEntry}
    (appended : books.appendLedgerEntries entries = .ok books') (projected : books.Projected)
    (guard : books.appendSound entries = true) : books'.Projected := by
  induction entries generalizing books with
  | nil => exact Theory.foldlM_ok_nil.1 appended ▸ projected
  | cons entry rest ih =>
      obtain ⟨mid, first, later⟩ := Theory.foldlM_ok_cons.1 appended
      rw [appendSound, first, Bool.and_eq_true] at guard
      exact ih later (projects_append first projected guard.1) guard.2

/-! ## Locking a recipient -/

def lockKey (batchId : String) (miner : Address) : LedgerKey :=
  ⟨some miner, .payoutLock, "payout_batch", batchId⟩

/-- A lock whose entry is new needs no condition: it fails where it would clamp. -/
theorem projects_lock {books books' : Books} {batchId : String} {recipient : PayoutRecipient}
    (locked : books.lockRecipient batchId recipient = .ok books')
    (fresh : books.ledgerEntries.find? (lockKey batchId recipient.miner) = none)
    (projected : books.Projected) : books'.Projected := by
  obtain ⟨ledger, cache, row, found, covers⟩ := lockRecipient_ok locked
  have rows : books'.ledgerEntries.rows =
      books.ledgerEntries.rows ++ [lockEntry batchId recipient] := by
    rw [ledger]
    exact (Table.insert_of_fresh fresh).1
  have shown_ : shown books.balanceCache recipient.miner = row.balance := by
    rw [shown, found]
    rfl
  intro miner
  rw [balance_eq_shown, cache, shown_updateBalance, rows, recompute_append, ← projected miner,
    balance_eq_shown]
  by_cases own : recipient.miner = miner
  · subst own
    simp only [lockEntry, found, Option.isSome_some, shown_, covers, decide_true, and_self,
      if_true, Balance.lock, Balance.post, Balance.mk.injEq, and_true, true_and]
    omega
  · rw [if_neg (fun hit => own hit.1), if_neg (by simpa [lockEntry] using own)]

end Books

namespace Db

/-- The miners a batch has locked are among its recipients. -/
def LocksListed (batchId : String) (state : Books × Table PayoutRecipientRow) : Prop :=
  ∀ miner, state.1.ledgerEntries.find? (Books.lockKey batchId miner) ≠ none →
    state.2.find? (batchId, miner) ≠ none

/-- The lock of an inserted recipient is new, and listed afterwards. -/
theorem insertRecipient_listed {batchId : String} {state state' : Books × Table PayoutRecipientRow}
    {recipient : PayoutRecipient}
    (inserted : insertRecipient batchId state recipient = .ok state')
    (listed : LocksListed batchId state) :
    state.1.ledgerEntries.find? (Books.lockKey batchId recipient.miner) = none ∧
      LocksListed batchId state' := by
  obtain ⟨-, rows, locked⟩ := insertRecipient_ok inserted
  obtain ⟨newRecipient, table⟩ := Table.insert_of_rows rows
  refine ⟨?_, ?_⟩
  · by_contra present
    exact listed _ present newRecipient
  intro miner present
  rw [(Books.lockRecipient_ok locked).1, Table.find?_insert] at present
  rw [table, Table.find?_insert]
  by_cases own : recipient.miner = miner
  · subst own
    rw [if_pos ⟨rfl, newRecipient⟩]
    exact Option.some_ne_none _
  · have other : ¬ Keyed.key (Books.lockEntry batchId recipient) = Books.lockKey batchId miner := by
      simpa [Keyed.key, LedgerEntry.ledgerKey, Books.lockEntry, Books.lockKey] using own
    rw [if_neg (fun hit => other hit.1)] at present
    rw [if_neg (fun hit => own (congrArg Prod.snd hit.1))]
    exact listed miner present

theorem insertRecipient_projects {batchId : String} {state state' : Books × Table PayoutRecipientRow}
    {recipient : PayoutRecipient}
    (inserted : insertRecipient batchId state recipient = .ok state')
    (listed : LocksListed batchId state) (projected : state.1.Projected) :
    LocksListed batchId state' ∧ state'.1.Projected := by
  obtain ⟨-, -, locked⟩ := insertRecipient_ok inserted
  obtain ⟨fresh, listed'⟩ := insertRecipient_listed inserted listed
  exact ⟨listed', Books.projects_lock locked fresh projected⟩

theorem insertRecipients_project {batchId : String} {recipients : List PayoutRecipient}
    {state state' : Books × Table PayoutRecipientRow}
    (inserted : recipients.foldlM (insertRecipient batchId) state = .ok state')
    (listed : LocksListed batchId state) (projected : state.1.Projected) :
    state'.1.Projected :=
  (Theory.foldlM_invariant
    (I := fun state => LocksListed batchId state ∧ state.1.Projected)
    (fun _ _ _ _ holds step => insertRecipient_projects step holds.1 holds.2)
    ⟨listed, projected⟩ inserted).2

end Db

end CsdPool
