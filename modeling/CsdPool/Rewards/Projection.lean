/-
# Rewards.Projection — cached balances over whole runs

In every run in which no append is met by a guard of the balance update
(`Books.appendSound`), every miner's cached columns are those recomputed from his
ledger entries (`balance_projected`).  Locking a batch needs no condition: the
conditional update refuses where an appended lock would clamp.

The condition is not met by the workers as they are: a reward that matured, was
locked for payout and is then reversed debits a confirmed column that no longer
holds it, and the clamp keeps the difference (`reversal_clamps`).
-/
import CsdPool.Db.Projection
import CsdPool.Rewards.Invariants

namespace CsdPool.Rewards

open Theory (Keyed Table Machine)

set_option autoImplicit false

variable {s s' : State} {e : Event}

/-- No guard of a balance update acts on what the event appends. -/
def Unguarded (s : State) (e : Event) : Prop := s.db.books.appendSound (s.appending e) = true

instance : ∀ s e, Decidable (Unguarded s e) := fun s e =>
  inferInstanceAs (Decidable (s.db.books.appendSound (s.appending e) = true))

/-- A new batch has no locks yet. -/
theorem locks_fresh (known : LedgerKnown s) {batchId : String}
    (fresh : s.db.payoutBatches.find? batchId = none) :
    Db.LocksListed batchId (s.db.books, s.db.payoutRecipients) := by
  intro miner present
  obtain ⟨entry, found⟩ := Option.ne_none_iff_exists'.1 present
  obtain ⟨member, key⟩ := Table.find?_eq_some_iff.1 found
  have shape := known entry member
  obtain ⟨own, amount, kind, refType, refId⟩ := entry
  cases key
  exact absurd fresh shape.2

theorem projected_step (stepped : Stepped s e s') (known : LedgerKnown s)
    (unguarded : Unguarded s e) (projected : s.db.books.Projected) : s'.db.books.Projected := by
  cases books_step stepped with
  | same kept => rw [kept]; exact projected
  | appended committed => exact Books.projects_appends committed projected unguarded
  | locked _ fresh _ inserted =>
      exact Db.insertRecipients_project inserted (locks_fresh known fresh) projected

/-- **The cache is a projection of the ledger** in every run whose appends no guard meets. -/
theorem balance_projected (reached : rewardMachine.Reaches Unguarded s) (miner : Address) :
    s.db.books.balance miner = recompute miner s.db.books.ledgerEntries.rows := by
  have projected : s.db.books.Projected := by
    refine reached.invariant (I := fun s => s.db.books.Projected) ?_ ?_
    · rintro s rfl miner
      rfl
    · intro s e s' before projected unguarded stepped
      exact projected_step (step_stepped stepped) (ledger_known before.reachable) unguarded
        projected
  exact projected miner

namespace Sample

def draft (amount : Nat) : PayoutBatchDraft where
  batchId := "payout"
  recipients := [⟨miner, miner, amount⟩]
  totalBaseUnits := amount
  lockEntries := []

/-- One run mines, settles, matures and locks a block of 1000 while another still
has it in hand. -/
def lockedWhilePolled : List Event :=
  mined ++ poll 1 ++ poll 2 ++ answer 1 "seen" 10 (some 1000) ++ settle 3 0 ++ mature 4 ++
    [.createLockedPayoutBatch (draft 1000) .created 5]

end Sample

/-- A block is settled and matured, and its reward locked whole while a second poll is under way. -/
theorem balance_projected_locked :
    ∃ s, rewardMachine.Reaches Unguarded s ∧
      s.db.books.balance Sample.miner = ⟨0, 0, 1000, 0⟩ ∧
      s.db.books.balance Sample.miner = recompute Sample.miner s.db.books.ledgerEntries.rows := by
  obtain ⟨s, reached, shown⟩ := Machine.exists_of_runUnder rewardMachine Unguarded rfl
    Sample.lockedWhilePolled (fun s => decide (s.db.books.balance Sample.miner = ⟨0, 0, 1000, 0⟩))
    (by decide +kernel)
  exact ⟨s, reached, of_decide_eq_true shown, balance_projected reached _⟩

/-- The second run is answered `orphaned` and the reward is reversed: the confirmed
column stays at zero, the ledger says minus 1000. -/
theorem reversal_clamps :
    ∃ s, rewardMachine.Reachable s ∧
      s.db.books.balance Sample.miner ≠ recompute Sample.miner s.db.books.ledgerEntries.rows := by
  obtain ⟨s, reached, shown⟩ := Machine.exists_of_run rewardMachine rfl
    (Sample.lockedWhilePolled ++ Sample.answer 2 "orphaned" 0 none ++ Sample.reverse 6)
    (fun s => decide (s.db.books.balance Sample.miner ≠
      recompute Sample.miner s.db.books.ledgerEntries.rows))
    (by decide +kernel)
  exact ⟨s, reached, of_decide_eq_true shown⟩

end CsdPool.Rewards
