/-
# Db.Earnings — what the ledger says a miner has earned

A reward adds to what a miner has earned and a reversal takes from it; every other entry moves an
amount from one of his columns to another.  So the total of the columns replayed from the ledger is
what he has earned (`total_recompute`), and the total of the cached columns is at least what every
append credits (`total_guarded`), whatever its guards do: where a guard clamps a column, the miner
keeps the difference.
-/
import CsdPool.Db.Projection
import Mathlib.Data.List.Induction

namespace CsdPool

open Theory (Keyed Table)

set_option autoImplicit false

/-! ## Totals -/

/-- Everything a miner was credited with and has not lost: held back, free, locked and paid. -/
def Balance.total (b : Balance) : Int :=
  b.immatureBaseUnits + b.confirmedBaseUnits + b.lockedBaseUnits + b.paidBaseUnits

/-- No column is negative. -/
structure Balance.Nonneg (b : Balance) : Prop where
  immature : 0 ≤ b.immatureBaseUnits
  confirmed : 0 ≤ b.confirmedBaseUnits
  locked : 0 ≤ b.lockedBaseUnits
  paid : 0 ≤ b.paidBaseUnits

/-- What an entry earns its miner. -/
def LedgerKind.earns (amount : Int) : LedgerKind → Int
  | .rewardImmature | .rewardOrphanReversal => amount
  | _ => 0

/-- What an entry is worth to its miner at least: a reward adds if it is positive, a reversal
takes if it is negative. -/
def LedgerKind.credits (amount : Int) : LedgerKind → Int
  | .rewardImmature => max amount 0
  | .rewardOrphanReversal => min amount 0
  | _ => 0

/-- A miner's part of a sum over entries. -/
def minerSum (worth : Int → LedgerKind → Int) (miner : Address) (rows : List LedgerEntry) : Int :=
  ((rows.filter fun entry => entry.miner = some miner).map fun entry =>
    worth entry.amountBaseUnits entry.kind).sum

/-- What a miner has earned by his entries. -/
def earned : Address → List LedgerEntry → Int := minerSum fun amount kind => kind.earns amount

/-- What a miner's entries are worth to him at least. -/
def creditedTo : Address → List LedgerEntry → Int := minerSum fun amount kind => kind.credits amount

theorem minerSum_append (worth : Int → LedgerKind → Int) (miner : Address)
    (rows : List LedgerEntry) (entry : LedgerEntry) :
    minerSum worth miner (rows ++ [entry]) = minerSum worth miner rows +
      if entry.miner = some miner then worth entry.amountBaseUnits entry.kind else 0 := by
  unfold minerSum
  by_cases own : entry.miner = some miner
  · simp [List.filter_append, own]
  · simp [List.filter_append, own]

namespace Balance

theorem total_post (matured : Bool) (kind : LedgerKind) (amount : Int) (b : Balance) :
    (b.post matured kind amount).total = b.total + kind.earns amount := by
  cases kind with
  | rewardOrphanReversal =>
      cases matured <;> simp only [post, total, LedgerKind.earns] <;> simp <;> omega
  | rewardImmature | rewardMature | payoutLock | payoutSent | payoutFailedUnlock =>
      simp only [post, total, LedgerKind.earns]
      omega
  | poolFee | manualAdjustment => simp [post, LedgerKind.earns]

/-- **No guard takes from a miner.** -/
theorem total_guarded (matured present : Bool) (kind : LedgerKind) (amount : Int) (b : Balance) :
    b.total + kind.credits amount ≤ (b.guarded matured present kind amount).total := by
  cases kind with
  | rewardImmature =>
      simp only [guarded, LedgerKind.credits]
      split
      · simp only [creditImmature, total]; omega
      · omega
  | rewardMature =>
      simp only [guarded, LedgerKind.credits]
      split
      · simp only [mature, total]; omega
      · omega
  | rewardOrphanReversal =>
      simp only [guarded, LedgerKind.credits, negI128]
      split
      · split <;> split <;> simp only [reverseMatured, reverseImmature, total] <;> omega
      · omega
  | payoutLock =>
      simp only [guarded, LedgerKind.credits]
      split
      · simp only [lock, total]; omega
      · omega
  | payoutSent =>
      simp only [guarded, LedgerKind.credits]
      split
      · simp only [send, total]; omega
      · omega
  | payoutFailedUnlock =>
      simp only [guarded, LedgerKind.credits]
      split
      · simp only [unlock, total]; omega
      · omega
  | poolFee | manualAdjustment => simp [guarded, LedgerKind.credits]

/-- A covered entry leaves no column below zero. -/
theorem Nonneg.guarded {matured present : Bool} {kind : LedgerKind} {amount : Int} {b : Balance}
    (nonneg : b.Nonneg) (covered : b.covers matured kind amount = true) :
    (b.guarded matured present kind amount).Nonneg := by
  obtain ⟨immature, confirmed, locked, paid⟩ := nonneg
  unfold covers at covered
  rw [decide_eq_true_eq] at covered
  cases kind with
  | rewardImmature =>
      simp only [Balance.guarded]
      split
      · constructor <;> simp only [creditImmature] <;> omega
      · exact ⟨immature, confirmed, locked, paid⟩
  | rewardMature =>
      simp only [Balance.guarded]
      split
      · constructor <;> simp only [mature] <;> omega
      · exact ⟨immature, confirmed, locked, paid⟩
  | rewardOrphanReversal =>
      simp only [Balance.guarded]
      split
      · split <;> constructor <;> simp only [reverseMatured, reverseImmature] <;> omega
      · exact ⟨immature, confirmed, locked, paid⟩
  | payoutLock =>
      simp only [debit] at covered
      simp only [Balance.guarded, negI128]
      split
      · constructor <;> simp only [lock] <;> omega
      · exact ⟨immature, confirmed, locked, paid⟩
  | payoutSent =>
      simp only [debit] at covered
      simp only [Balance.guarded, negI128]
      split
      · constructor <;> simp only [send] <;> omega
      · exact ⟨immature, confirmed, locked, paid⟩
  | payoutFailedUnlock =>
      simp only [debit] at covered
      simp only [Balance.guarded]
      split
      · constructor <;> simp only [unlock] <;> omega
      · exact ⟨immature, confirmed, locked, paid⟩
  | poolFee | manualAdjustment => exact ⟨immature, confirmed, locked, paid⟩

end Balance

/-- **The replayed columns add up to what was earned.** -/
theorem total_recompute (miner : Address) (rows : List LedgerEntry) :
    (recompute miner rows).total = earned miner rows := by
  induction rows using List.reverseRecOn with
  | nil => rfl
  | append_singleton rows entry ih =>
      rw [recompute_append, earned, minerSum_append, ← earned, ← ih]
      split
      · rw [Balance.total_post]
      · omega

/-! ## What the writers keep -/

namespace Books

variable {books books' : Books}

/-- Nobody has less than his entries are worth. -/
def Floored (books : Books) : Prop :=
  ∀ miner, creditedTo miner books.ledgerEntries.rows ≤ (books.balance miner).total

def Nonneg (books : Books) : Prop := ∀ miner, (books.balance miner).Nonneg

theorem floored_append {entry : LedgerEntry}
    (appended : books.appendLedgerEntry entry = .ok books') (floored : books.Floored) :
    books'.Floored := by
  obtain ⟨-, ⟨-, rfl⟩ | ⟨fresh, rows, -⟩⟩ := appendLedgerEntry_ok appended
  · exact floored
  intro miner
  have before := floored miner
  rw [rows, creditedTo, minerSum_append, ← creditedTo, balance_appendLedgerEntry fresh appended]
  split
  · have kept := Balance.total_guarded
      (wasMatured books.ledgerEntries miner entry.refType entry.refId) (books.hasBalanceRow miner)
      entry.kind entry.amountBaseUnits (books.balance miner)
    unfold moved
    omega
  · omega

theorem floored_appends {entries : List LedgerEntry}
    (appended : books.appendLedgerEntries entries = .ok books') (floored : books.Floored) :
    books'.Floored := by
  induction entries generalizing books with
  | nil => exact Theory.foldlM_ok_nil.1 appended ▸ floored
  | cons entry rest ih =>
      obtain ⟨mid, first, later⟩ := Theory.foldlM_ok_cons.1 appended
      exact ih later (floored_append first floored)

theorem nonneg_append {entry : LedgerEntry}
    (appended : books.appendLedgerEntry entry = .ok books') (nonneg : books.Nonneg)
    (guard : (books.ledgerEntries.contains entry.ledgerKey || books.sound entry) = true) :
    books'.Nonneg := by
  obtain ⟨-, ⟨-, rfl⟩ | ⟨fresh, -, -⟩⟩ := appendLedgerEntry_ok appended
  · exact nonneg
  rw [Table.contains_eq_isSome, fresh, Option.isSome_none, Bool.false_or] at guard
  intro miner
  rw [balance_appendLedgerEntry fresh appended]
  split
  · rename_i own
    rw [sound, own] at guard
    exact (nonneg miner).guarded guard
  · exact nonneg miner

theorem nonneg_appends {entries : List LedgerEntry}
    (appended : books.appendLedgerEntries entries = .ok books') (nonneg : books.Nonneg)
    (guard : books.appendSound entries = true) : books'.Nonneg := by
  induction entries generalizing books with
  | nil => exact Theory.foldlM_ok_nil.1 appended ▸ nonneg
  | cons entry rest ih =>
      obtain ⟨mid, first, later⟩ := Theory.foldlM_ok_cons.1 appended
      rw [appendSound, first, Bool.and_eq_true] at guard
      exact ih later (nonneg_append first nonneg guard.1) guard.2

/-- A locked amount was free. -/
theorem balance_lockRecipient {batchId : String} {recipient : PayoutRecipient}
    (locked : books.lockRecipient batchId recipient = .ok books') (miner : Address) :
    books'.balance miner = books.balance miner ∨
      books'.balance miner = (books.balance miner).lock recipient.amountBaseUnits ∧
        (recipient.amountBaseUnits : Int) ≤ (books.balance miner).confirmedBaseUnits := by
  obtain ⟨-, cache, -⟩ := lockRecipient_ok locked
  rw [balance_eq_shown, cache, shown_updateBalance, ← balance_eq_shown]
  split
  · rename_i hit
    exact .inr ⟨rfl, of_decide_eq_true hit.2.2⟩
  · exact .inl rfl

theorem floored_lockRecipient {batchId : String} {recipient : PayoutRecipient}
    (locked : books.lockRecipient batchId recipient = .ok books') (floored : books.Floored) :
    books'.Floored := by
  intro miner
  have before := floored miner
  have worthless : creditedTo miner books'.ledgerEntries.rows =
      creditedTo miner books.ledgerEntries.rows := by
    rw [(lockRecipient_ok locked).1]
    cases taken : books.ledgerEntries.find? (Keyed.key (lockEntry batchId recipient)) with
    | some old => rw [Table.insert_of_taken (by rw [taken]; exact Option.some_ne_none _)]
    | none =>
        rw [(Table.insert_of_fresh taken).1, creditedTo, minerSum_append]
        simp [lockEntry, LedgerKind.credits]
  rw [worthless]
  rcases balance_lockRecipient locked miner with same | ⟨moved, -⟩
  · rw [same]
    exact before
  · rw [moved]
    simp only [Balance.lock, Balance.total] at before ⊢
    omega

theorem nonneg_lockRecipient {batchId : String} {recipient : PayoutRecipient}
    (locked : books.lockRecipient batchId recipient = .ok books') (nonneg : books.Nonneg) :
    books'.Nonneg := by
  intro miner
  obtain ⟨immature, confirmed, lockedColumn, paid⟩ := nonneg miner
  rcases balance_lockRecipient locked miner with same | ⟨moved, covered⟩
  · rw [same]
    exact nonneg miner
  · rw [moved]
    constructor <;> simp only [Balance.lock] <;> omega

end Books

namespace Db

theorem insertRecipients_floored {batchId : String} {recipients : List PayoutRecipient}
    {state state' : Books × Table PayoutRecipientRow}
    (inserted : recipients.foldlM (insertRecipient batchId) state = .ok state')
    (floored : state.1.Floored) : state'.1.Floored := by
  induction recipients generalizing state with
  | nil => exact Theory.foldlM_ok_nil.1 inserted ▸ floored
  | cons recipient rest ih =>
      obtain ⟨mid, first, later⟩ := Theory.foldlM_ok_cons.1 inserted
      exact ih later (Books.floored_lockRecipient (insertRecipient_ok first).2.2 floored)

theorem insertRecipients_nonneg {batchId : String} {recipients : List PayoutRecipient}
    {state state' : Books × Table PayoutRecipientRow}
    (inserted : recipients.foldlM (insertRecipient batchId) state = .ok state')
    (nonneg : state.1.Nonneg) : state'.1.Nonneg := by
  induction recipients generalizing state with
  | nil => exact Theory.foldlM_ok_nil.1 inserted ▸ nonneg
  | cons recipient rest ih =>
      obtain ⟨mid, first, later⟩ := Theory.foldlM_ok_cons.1 inserted
      exact ih later (Books.nonneg_lockRecipient (insertRecipient_ok first).2.2 nonneg)

end Db

end CsdPool
