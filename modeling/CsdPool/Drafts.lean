/-
# Drafts — payout selections in exact arithmetic

`select_payouts` pays the largest balances that reach the minimum, and which
recipient of equal ones comes first does not show in the amounts
(`selectPayouts_amounts`).  Its total is a wrapping `u128` sum and a draft locks
`-(amount as i128)`; `draftExact_iff` says when both are the exact values.
-/
import CsdPool.Accounting
import Mathlib.Order.Lattice

namespace CsdPool

set_option autoImplicit false

theorem u128_lt (n : Nat) : u128 n < 2 ^ 128 := Nat.mod_lt _ (by decide)

theorem u128_eq_iff {n : Nat} : u128 n = n ↔ n < 2 ^ 128 :=
  ⟨fun same => same ▸ u128_lt n, u128_of_lt⟩

/-- The lock amount of a recipient. -/
theorem negI128_asI128_eq_iff {n : Nat} (small : n < 2 ^ 128) :
    negI128 (asI128 n) = -(n : Int) ↔ n ≤ 2 ^ 127 := by
  rw [negI128, asI128]
  split <;> split <;> omega

/-- The confirmed balances a selection pays: the `maxRecipients` largest of those
that reach the minimum. -/
def selectedBalances (balances : List MinerBalance) (minimum maxRecipients : Nat) : List Nat :=
  (((balances.map (·.confirmedBaseUnits)).filter fun amount => minimum ≤ amount).insertionSort
    (· ≥ ·)).take maxRecipients

/-- Total and lock amounts are the exact sum and the exact negations. -/
def DraftExact (batchId : String) (selection : PayoutSelection) : Prop :=
  selection.totalBaseUnits = (selection.recipients.map (·.amountBaseUnits)).sum ∧
    (payoutBatchDraft batchId selection).totalBaseUnits =
      ((payoutBatchDraft batchId selection).recipients.map (·.amountBaseUnits)).sum ∧
    (payoutBatchDraft batchId selection).lockEntries.map (·.amountBaseUnits) =
      selection.recipients.map fun recipient => -(recipient.amountBaseUnits : Int)

def DraftFits (balances : List MinerBalance) (minimum maxRecipients : Nat) : Prop :=
  (selectedBalances balances minimum maxRecipients).sum < 2 ^ 128 ∧
    ∀ amount ∈ selectedBalances balances minimum maxRecipients, amount ≤ 2 ^ 127

instance (balances : List MinerBalance) (minimum maxRecipients : Nat) :
    Decidable (DraftFits balances minimum maxRecipients) :=
  inferInstanceAs (Decidable (_ ∧ _))

instance : Std.Total payoutOrder := ⟨fun a b => by
  rcases lt_trichotomy a.amountBaseUnits b.amountBaseUnits with less | same | greater
  · exact .inr (.inl less)
  · rcases le_total a.miner b.miner with le | le
    · exact .inl (.inr ⟨same, le⟩)
    · exact .inr (.inr ⟨same.symm, le⟩)
  · exact .inl (.inl greater)⟩

instance : IsTrans PayoutRecipient payoutOrder := ⟨fun a b c ab bc => by
  unfold payoutOrder at ab bc ⊢
  rcases ab with less | ⟨same, le⟩
  · exact .inl (by omega)
  · rcases bc with less' | ⟨same', le'⟩
    · exact .inl (by omega)
    · exact .inr ⟨by omega, le_trans le le'⟩⟩

/-- Ties in the order of the recipients do not show in their amounts. -/
theorem selectPayouts_amounts (balances : List MinerBalance) (minimum maxRecipients : Nat) :
    (selectPayouts balances minimum maxRecipients).recipients.map (·.amountBaseUnits) =
      selectedBalances balances minimum maxRecipients := by
  unfold selectPayouts selectedBalances
  dsimp only
  rw [List.map_take]
  congr 1
  obtain ⟨eligible, eligibleEq⟩ : ∃ eligible, eligible =
      ((balances.filter fun b => minimum ≤ b.confirmedBaseUnits).map fun b =>
        (⟨b.miner, b.address, b.confirmedBaseUnits⟩ : PayoutRecipient)) := ⟨_, rfl⟩
  have amounts : eligible.map (·.amountBaseUnits) =
      (balances.map (·.confirmedBaseUnits)).filter fun amount => minimum ≤ amount := by
    rw [eligibleEq, List.map_map, List.filter_map]
    rfl
  rw [← eligibleEq, ← amounts]
  have sorted :
      ((eligible.insertionSort payoutOrder).map (·.amountBaseUnits)).Pairwise (· ≥ ·) := by
    rw [List.pairwise_map]
    exact (List.pairwise_insertionSort payoutOrder eligible).imp fun order => by
      rcases order with less | ⟨same, -⟩ <;> omega
  have perm := ((List.perm_insertionSort payoutOrder eligible).map (·.amountBaseUnits)).trans
    (List.perm_insertionSort (· ≥ ·) (eligible.map (·.amountBaseUnits))).symm
  exact perm.eq_of_pairwise (fun _ _ _ _ ge ge' => le_antisymm ge' ge) sorted
    (List.pairwise_insertionSort _ _)

/-- **Drafts.**  A draft is exact if and only if its total fits a `u128` and every
amount can be negated as an `i128`. -/
theorem draftExact_iff {balances : List MinerBalance} {minimum maxRecipients : Nat}
    {batchId : String} (typed : ∀ balance ∈ balances, balance.confirmedBaseUnits < 2 ^ 128) :
    DraftExact batchId (selectPayouts balances minimum maxRecipients) ↔
      DraftFits balances minimum maxRecipients := by
  have amounts := selectPayouts_amounts balances minimum maxRecipients
  have total : (selectPayouts balances minimum maxRecipients).totalBaseUnits =
      u128 (selectedBalances balances minimum maxRecipients).sum := by
    rw [← amounts]
    rfl
  have small : ∀ amount ∈ selectedBalances balances minimum maxRecipients, amount < 2 ^ 128 := by
    intro amount member
    have selected := (List.perm_insertionSort _ _).mem_iff.1 (List.mem_of_mem_take member)
    obtain ⟨balance, inBalances, rfl⟩ := List.mem_map.1 (List.mem_filter.1 selected).1
    exact typed balance inBalances
  have locks : (selectPayouts balances minimum maxRecipients).recipients.map
        (fun recipient => negI128 (asI128 recipient.amountBaseUnits)) =
      (selectPayouts balances minimum maxRecipients).recipients.map
        (fun recipient => -(recipient.amountBaseUnits : Int)) ↔
      ∀ amount ∈ selectedBalances balances minimum maxRecipients, amount ≤ 2 ^ 127 := by
    rw [List.map_inj_left, ← amounts, List.forall_mem_map]
    refine forall₂_congr fun recipient member => negI128_asI128_eq_iff (small _ ?_)
    rw [← amounts]
    exact List.mem_map_of_mem member
  rw [DraftExact, DraftFits, payoutBatchDraft, List.map_map, amounts, total, u128_eq_iff]
  show _ ∧ _ ∧ List.map (fun recipient : PayoutRecipient =>
    negI128 (asI128 recipient.amountBaseUnits)) _ = _ ↔ _
  rw [locks]
  tauto

end CsdPool
