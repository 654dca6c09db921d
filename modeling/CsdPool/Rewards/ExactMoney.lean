/-
# Rewards.ExactMoney — when money arithmetic is exact

Release arithmetic wraps and casts keep the bits, so what `settle_reward_block`
puts in the ledger equals the exact amounts only in a range.  This module says
which: the entries of a settlement are the exact ones if and only if
`SettlementFits`; for total and lock entries of a draft it is `DraftFits`.

No wrap goes unnoticed: a product that wrapped loses a multiple of `2 ^ 128`,
which is more than the divisor of the division that follows (`u128_div_eq_iff`),
and a cast that changes its argument changes its sign (`asI128_eq_iff`).
-/
import CsdPool.Allocation
import CsdPool.Drafts
import CsdPool.Rewards.Machine

namespace CsdPool.Rewards

open Theory (floorShare apportion)

set_option autoImplicit false

/-! ## Wraps are visible -/

/-- A product that wrapped gives another quotient. -/
theorem u128_div_eq_iff {n d : Nat} (positive : 0 < d) (small : d < 2 ^ 128) :
    u128 n / d = n / d ↔ n < 2 ^ 128 := by
  constructor
  · intro same
    by_contra wraps
    have split : 2 ^ 128 * (n / 2 ^ 128) + u128 n = n := Nat.div_add_mod n (2 ^ 128)
    have turns : 1 ≤ n / 2 ^ 128 := (Nat.one_le_div_iff (by decide)).2 (by omega)
    have lost : u128 n + d ≤ n := by omega
    have fewer := Nat.div_le_div_right (c := d) lost
    rw [Nat.add_div_right _ positive] at fewer
    omega
  · intro fits
    rw [u128_of_lt fits]

/-- A cast that keeps the value keeps it below the sign bit. -/
theorem asI128_eq_iff {n m : Nat} (small : n < 2 ^ 128) :
    asI128 n = (m : Int) ↔ n = m ∧ m < 2 ^ 127 := by
  by_cases low : n < 2 ^ 127
  · rw [asI128_of_lt low]
    omega
  · rw [asI128, if_neg low]
    omega

/-! ## Settlements -/

def rewardEntry (blockRef miner : String) (amount : Int) : LedgerEntry where
  miner := some miner
  amountBaseUnits := amount
  kind := .rewardImmature
  refType := "block"
  refId := blockRef

def feeEntry (blockRef : String) (amount : Int) : LedgerEntry where
  miner := none
  amountBaseUnits := amount
  kind := .poolFee
  refType := "block"
  refId := blockRef

/-- The entries of an allocation with their exact values. -/
def exactLedgerEntries (blockRef : String) (result : PplnsResult) : List LedgerEntry :=
  (result.allocations.map fun allocation =>
    rewardEntry blockRef allocation.miner allocation.amountBaseUnits) ++
  if result.feeBaseUnits > 0 then [feeEntry blockRef result.feeBaseUnits] else []

/-- The call fails, or its entries are those of the exact allocation. -/
def SettlementExact (block : RewardBlock) (feeBps : Nat) (shares : List ShareWeight) : Prop :=
  ∀ settlement, settleRewardBlock block feeBps shares = .ok settlement →
    settlement.ledgerEntries =
      exactLedgerEntries block.hashHex (exactPplns block.rewardBaseUnits feeBps shares)

/-- The inputs that leave the range nowhere: both products before a division, and
every exact amount as an `i128`. -/
def SettlementFits (reward feeBps : Nat) (shares : List ShareWeight) : Prop :=
  10000 < feeBps ∨ windowWeight shares = 0 ∨
    (reward * feeBps < 2 ^ 128 ∧
      (∀ row ∈ (minerWeights shares).dropLast,
        (reward - reward * feeBps / 10000) * row.2 < 2 ^ 128) ∧
      reward * feeBps / 10000 < 2 ^ 127 ∧
      ∀ allocation ∈ (exactPplns reward feeBps shares).allocations,
        allocation.amountBaseUnits < 2 ^ 127)

/-- The entries of rows of miners and of the pool's fee. -/
def entriesOf (blockRef : String) (rows : List (String × Int)) (fees : List Int) :
    List LedgerEntry :=
  (rows.map fun row => rewardEntry blockRef row.1 row.2) ++ fees.map (feeEntry blockRef)

instance (reward feeBps : Nat) (shares : List ShareWeight) :
    Decidable (SettlementFits reward feeBps shares) :=
  inferInstanceAs (Decidable (_ ∨ _ ∨ _))

theorem rewardLedgerEntries_eq (blockRef : String) (result : PplnsResult) :
    rewardLedgerEntries blockRef result =
      entriesOf blockRef (result.allocations.map fun a => (a.miner, asI128 a.amountBaseUnits))
        (if result.feeBaseUnits > 0 then [asI128 result.feeBaseUnits] else []) := by
  rw [entriesOf, List.map_map, apply_ite (List.map (feeEntry blockRef))]
  rfl

theorem exactLedgerEntries_eq (blockRef : String) (result : PplnsResult) :
    exactLedgerEntries blockRef result =
      entriesOf blockRef (result.allocations.map fun a => (a.miner, (a.amountBaseUnits : Int)))
        (if result.feeBaseUnits > 0 then [(result.feeBaseUnits : Int)] else []) := by
  rw [entriesOf, List.map_map, apply_ite (List.map (feeEntry blockRef))]
  rfl

/-- Entries of miners and of the pool are told apart by the miner. -/
theorem entries_inj {blockRef : String} {rows rows' : List (String × Int)}
    {fees fees' : List Int}
    (same : entriesOf blockRef rows fees = entriesOf blockRef rows' fees') :
    rows = rows' ∧ fees = fees' := by
  unfold entriesOf at same
  induction rows generalizing rows' with
  | nil =>
      cases rows' with
      | nil =>
          refine ⟨rfl, ?_⟩
          have amounts := congrArg (List.map LedgerEntry.amountBaseUnits) same
          simpa [feeEntry, Function.comp_def] using amounts
      | cons row' rest' =>
          cases fees with
          | nil => cases same
          | cons fee others => simp [feeEntry, rewardEntry] at same
  | cons row rest ih =>
      cases rows' with
      | nil =>
          cases fees' with
          | nil => cases same
          | cons fee others => simp [feeEntry, rewardEntry] at same
      | cons row' rest' =>
          rw [List.map_cons, List.map_cons, List.cons_append, List.cons_append,
            List.cons.injEq] at same
          obtain ⟨rows, fees⟩ := ih same.2
          have head := same.1
          simp only [rewardEntry, LedgerEntry.mk.injEq, Option.some.injEq] at head
          exact ⟨by rw [rows, Prod.ext head.1 head.2.1], fees⟩

/-- Every amount the loop gives out before the last row, wraps included. -/
theorem allocateLoop_init (minerTotal totalWeight : Nat) (init : List (Address × Nat))
    (last : Address × Nat) (distinct : ∀ row ∈ init, row.1 ≠ last.1) (allocated : Nat) :
    ∃ rest, allocateLoop minerTotal totalWeight (some last.1) allocated (init ++ [last]) =
      (init.map fun row => ⟨row.1, u128 (minerTotal * row.2) / totalWeight⟩) ++
        [⟨last.1, rest⟩] := by
  induction init generalizing allocated with
  | nil => exact ⟨minerTotal - allocated, by simp [allocateLoop]⟩
  | cons row rest ih =>
      obtain ⟨miner, weight⟩ := row
      have notLast : miner ≠ last.1 := distinct (miner, weight) (List.mem_cons_self ..)
      obtain ⟨left, tail⟩ := ih (fun x member => distinct x (List.mem_cons_of_mem _ member))
        (u128 (allocated + u128 (minerTotal * weight) / totalWeight))
      exact ⟨left, by simp [allocateLoop, notLast, tail]⟩

/-- If the loop's amounts are exact as `i128`, no product before the last row wrapped. -/
theorem products_fit {minerTotal : Nat} {weights : List (Address × Nat)}
    (nodup : (weights.map Prod.fst).Nodup) (positive : 0 < (weights.map Prod.snd).sum)
    (window : (weights.map Prod.snd).sum < 2 ^ 128)
    (exact : ((allocateLoop minerTotal (weights.map Prod.snd).sum
        (weights.getLast?.map Prod.fst) 0 weights).map fun a => (a.miner, asI128 a.amountBaseUnits))
      = ((apportion Prod.snd minerTotal weights).map asAllocation).map
        fun a => (a.miner, (a.amountBaseUnits : Int))) :
    ∀ row ∈ weights.dropLast, minerTotal * row.2 < 2 ^ 128 := by
  rcases weights.eq_nil_or_concat' with rfl | ⟨init, last, rfl⟩
  · simp
  have distinct : ∀ row ∈ init, row.1 ≠ last.1 := by
    rw [List.map_append, List.nodup_append] at nodup
    intro row member same
    exact nodup.2.2 row.1 (List.mem_map_of_mem member) last.1 (by simp) same
  obtain ⟨rest, loop⟩ := allocateLoop_init minerTotal ((init ++ [last]).map Prod.snd).sum init last
    distinct 0
  rw [List.getLast?_concat, Option.map_some, loop, Theory.apportion_append] at exact
  simp only [List.map_append, List.map_map] at exact
  have early := (List.append_inj exact (by simp)).1
  rw [List.map_inj_left] at early
  rw [List.dropLast_concat]
  intro row member
  have amount := (Prod.mk.inj (early row member)).2
  rw [List.map_append] at positive window
  have quotient : u128 (minerTotal * row.2) / (init.map Prod.snd ++ [last].map Prod.snd).sum <
      2 ^ 128 := lt_of_le_of_lt (Nat.div_le_self _ _) (u128_lt _)
  have same := ((asI128_eq_iff quotient).1 amount).1
  exact (u128_div_eq_iff positive window).1 same

/-- The fee entry shows whether the fee is exact. -/
theorem feeEntry_exact {fee fee' : Nat} (small : fee < 2 ^ 128)
    (same : (if fee > 0 then [asI128 fee] else []) = if fee' > 0 then [(fee' : Int)] else []) :
    fee = fee' ∧ fee' < 2 ^ 127 := by
  by_cases charged : fee > 0
  · by_cases charged' : fee' > 0
    · rw [if_pos charged, if_pos charged', List.singleton_inj] at same
      exact (asI128_eq_iff small).1 same
    · rw [if_pos charged, if_neg charged'] at same
      cases same
  · by_cases charged' : fee' > 0
    · rw [if_neg charged, if_pos charged'] at same
      cases same
    · omega

theorem exactPplns_small {reward feeBps : Nat} {shares : List ShareWeight}
    (positive : 0 < windowWeight shares) {allocation : RewardAllocation}
    (member : allocation ∈ (exactPplns reward feeBps shares).allocations) :
    allocation.amountBaseUnits ≤ reward := by
  have sum := @exactPplns_sum reward feeBps shares positive
  have part := List.le_sum_of_mem (List.mem_map_of_mem (f := (·.amountBaseUnits)) member)
  omega

section Allocated

variable {block : RewardBlock} {slice : ShareSlice} {feeBps : Nat}

/-- Amounts that come out exact had no product that wrapped and no cast that turned. -/
theorem fits_of_settlementExact (small : block.rewardBaseUnits < 2 ^ 128) (legal : feeBps ≤ 10000)
    (positive : 0 < windowWeight slice.shares)
    (exact : SettlementExact block feeBps slice.shares) :
    SettlementFits block.rewardBaseUnits feeBps slice.shares := by
  have window := slice.window_lt
  have returned := allocatePplns_returns block.rewardBaseUnits legal positive
  dsimp only at returned
  have entries := exact _ (by rw [settleRewardBlock, returned]; rfl)
  dsimp only at entries
  rw [rewardLedgerEntries_eq, exactLedgerEntries_eq] at entries
  obtain ⟨rows, fees⟩ := entries_inj entries
  have feeSmall : u128 (block.rewardBaseUnits * feeBps) / 10000 < 2 ^ 128 :=
    lt_of_le_of_lt (Nat.div_le_self _ _) (u128_lt _)
  obtain ⟨feeExact, feeFits⟩ := feeEntry_exact feeSmall fees
  have product := (u128_div_eq_iff (by decide) (by decide)).1 feeExact
  have sum := minerWeights_sum slice.shares
  dsimp only at rows
  rw [u128_of_lt product] at rows
  have products := products_fit (minerWeights_nodup slice.shares) (by omega) (by omega) rows
  refine .inr (.inr ⟨product, products, feeFits, fun allocation member => ?_⟩)
  have loop := allocateLoop_apportion (by omega) (minerWeights_nodup slice.shares) products
  rw [loop, exactPplns, List.map_inj_left] at rows
  have below := exactPplns_small positive member
  have cast := (Prod.mk.inj (rows allocation member)).2
  exact ((asI128_eq_iff (by omega)).1 cast).2

theorem settlementExact_of_fits (small : block.rewardBaseUnits < 2 ^ 128) (legal : feeBps ≤ 10000)
    (positive : 0 < windowWeight slice.shares)
    (fits : SettlementFits block.rewardBaseUnits feeBps slice.shares) :
    SettlementExact block feeBps slice.shares := by
  rcases fits with illegal | zero | ⟨feeFits, products, feeSmall, amounts⟩
  · exact absurd legal (Nat.not_le.2 illegal)
  · exact absurd zero positive.ne'
  have returned := allocatePplns_exactPplns small legal positive feeFits products
  intro settlement settled
  rw [settleRewardBlock, returned] at settled
  cases settled
  show rewardLedgerEntries _ _ = _
  rw [rewardLedgerEntries_eq, exactLedgerEntries_eq]
  congr 1
  · exact List.map_congr_left fun allocation member => by
      rw [asI128_of_lt (amounts allocation member)]
  · have fee : asI128 (exactPplns block.rewardBaseUnits feeBps slice.shares).feeBaseUnits =
        (exactPplns block.rewardBaseUnits feeBps slice.shares).feeBaseUnits :=
      asI128_of_lt feeSmall
    rw [fee]

/-- **Settlements.**  A settlement is exact if and only if its inputs leave the
range nowhere. -/
theorem settlementExact_iff (small : block.rewardBaseUnits < 2 ^ 128) :
    SettlementExact block feeBps slice.shares ↔
      SettlementFits block.rewardBaseUnits feeBps slice.shares := by
  by_cases turnedAway : 10000 < feeBps ∨ windowWeight slice.shares = 0
  · obtain ⟨err, failed⟩ :=
      (allocatePplns_error_iff block.rewardBaseUnits feeBps slice).2 turnedAway
    refine iff_of_true (fun settlement settled => ?_) ?_
    · rw [settleRewardBlock, failed] at settled
      cases settled
    · rcases turnedAway with illegal | zero
      · exact .inl illegal
      · exact .inr (.inl zero)
  · rw [not_or, Nat.not_lt] at turnedAway
    have positive := Nat.pos_of_ne_zero turnedAway.2
    exact ⟨fits_of_settlementExact small turnedAway.1 positive,
      settlementExact_of_fits small turnedAway.1 positive⟩

end Allocated

/-- Both halves: what a settlement enters and what a draft locks are exact if and
only if their inputs stay in range. -/
theorem money_exact_iff {block : RewardBlock} {slice : ShareSlice} {feeBps : Nat}
    {balances : List MinerBalance} {minimum maxRecipients : Nat} {batchId : String}
    (small : block.rewardBaseUnits < 2 ^ 128)
    (typed : ∀ balance ∈ balances, balance.confirmedBaseUnits < 2 ^ 128) :
    (SettlementExact block feeBps slice.shares ↔
      SettlementFits block.rewardBaseUnits feeBps slice.shares) ∧
    (DraftExact batchId (selectPayouts balances minimum maxRecipients) ↔
      DraftFits balances minimum maxRecipients) :=
  ⟨settlementExact_iff small, draftExact_iff typed⟩

/-- A window of two miners and a batch for the larger of two balances. -/
theorem money_exact_of_window :
    let slice : ShareSlice := ⟨[⟨"a", 1⟩, ⟨"b", 3⟩], by decide, by decide⟩
    SettlementExact ⟨"h", "job", 5000000000⟩ 100 slice.shares ∧
      DraftExact "batch" (selectPayouts [⟨"a", "a", 7⟩, ⟨"b", "b", 9⟩] 5 1) := by
  intro slice
  have both := @money_exact_iff ⟨"h", "job", 5000000000⟩ slice 100
    [⟨"a", "a", 7⟩, ⟨"b", "b", 9⟩] 5 1 "batch" (by decide) (by decide)
  exact ⟨both.1.2 (by decide +kernel), both.2.2 (by decide +kernel)⟩

/-- The least reward whose cast turns negative, found by one miner at no fee. -/
def signedReward : BlockStatusResponse where
  hash := "h"
  status := "confirmed"
  height := some 1
  confirmations := 100
  rewardBaseUnits := some (2 ^ 127)
  extra := .null

/-- The settlement of that block enters minus the reward, and a balance one above
it is locked with a positive entry. -/
theorem settlement_turns_negative :
    let block : RewardBlock :=
      ⟨"h", "job", (blockUpdateFromStatus "h" signedReward 60).rewardBaseUnits⟩
    ¬ SettlementExact block 0 [⟨"a", 1⟩] ∧
      (settleRewardBlock block 0 [⟨"a", 1⟩]).map (·.ledgerEntries) =
        .ok [rewardEntry "h" "a" (-2 ^ 127)] ∧
      ¬ DraftExact "batch" (selectPayouts [⟨"a", "a", 2 ^ 127 + 1⟩] 1 1) := by
  intro block
  have entered : (settleRewardBlock block 0 [⟨"a", 1⟩]).map (·.ledgerEntries) =
      .ok [rewardEntry "h" "a" (-2 ^ 127)] := by decide +kernel
  refine ⟨fun exact => ?_, entered, mt (draftExact_iff (by decide)).1 (by decide +kernel)⟩
  cases settled : settleRewardBlock block 0 [⟨"a", 1⟩] with
  | error err =>
      rw [settled] at entered
      cases entered
  | ok settlement =>
      rw [settled] at entered
      have entries : settlement.ledgerEntries = [rewardEntry "h" "a" (-2 ^ 127)] :=
        Except.ok.inj entered
      have wanted := exact settlement settled
      rw [entries] at wanted
      revert wanted
      decide +kernel

end CsdPool.Rewards
