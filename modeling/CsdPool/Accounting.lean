/-
# Accounting — reward allocation, ledger entries, payout drafts

The pure crate `csd-pool-accounting`.  A `u128` is a `Nat` and every operation
that can overflow one is reduced by `u128` (release arithmetic wraps); a cast to
`i128` is `asI128`.  `BTreeMap<String, u128>` is a list of pairs in key order,
grown by `bumpWeight`.

The law of the allocation is `allocatePplns_conserves`: fee and allocations add
up to the reward, for every reward (wrapping products included), as long as the
weights of the window fit a `u128` together.  Wrapping can only make a floor
smaller, and the last miner takes the remainder.
-/
import Mathlib.Algebra.BigOperators.Group.List.Basic
import Mathlib.Algebra.Order.BigOperators.Group.List
import Mathlib.Data.List.Sort
import Mathlib.Data.String.Basic
import Mathlib.Tactic.Ring
import Mathlib.Tactic.Linarith

namespace CsdPool

set_option autoImplicit false

/-! ## Machine integers -/

/-- What is left of a number in a `u128` where release arithmetic wraps. -/
def u128 (n : Nat) : Nat := n % 2 ^ 128

/-- `n as i128` for a `u128`. -/
def asI128 (n : Nat) : Int := if n < 2 ^ 127 then n else (n : Int) - 2 ^ 128

/-- `-n` for an `i128`; the least value is its own negation. -/
def negI128 (n : Int) : Int := if n = -2 ^ 127 then n else -n

theorem u128_le (n : Nat) : u128 n ≤ n := Nat.mod_le _ _

theorem u128_of_lt {n : Nat} (fits : n < 2 ^ 128) : u128 n = n := Nat.mod_eq_of_lt fits

theorem asI128_of_lt {n : Nat} (fits : n < 2 ^ 127) : asI128 n = n := by
  rw [asI128, if_pos fits]

/-! ## Data -/

abbrev Address := String

/-- What a miner's share counts for. -/
structure ShareWeight where
  miner : Address
  difficulty : Nat
  deriving DecidableEq, Repr

structure RewardAllocation where
  miner : Address
  amountBaseUnits : Nat
  deriving DecidableEq, Repr

/-- The kinds of entries: three of rewards, three of payouts, the pool's fee and corrections by
hand. -/
inductive LedgerKind
  | rewardImmature
  | rewardMature
  | rewardOrphanReversal
  | payoutLock
  | payoutSent
  | payoutFailedUnlock
  | poolFee
  | manualAdjustment
  deriving DecidableEq, Repr

/-- An entry without a miner belongs to the pool. -/
structure LedgerEntry where
  miner : Option Address
  amountBaseUnits : Int
  kind : LedgerKind
  refType : String
  refId : String
  deriving DecidableEq, Repr

/-- A reward in its parts: the fee, what is left for the miners, and what each of them gets. -/
structure PplnsResult where
  rewardBaseUnits : Nat
  feeBaseUnits : Nat
  minerTotalBaseUnits : Nat
  allocations : List RewardAllocation
  deriving DecidableEq, Repr

/-- Why an allocation is refused. -/
inductive AccountingError
  | invalidFeeBps
  | emptyShareWindow
  | zeroShareDifficulty
  deriving DecidableEq, Repr

def AccountingError.toText : AccountingError → String
  | .invalidFeeBps => "fee bps must be <= 10000"
  | .emptyShareWindow => "share window is empty"
  | .zeroShareDifficulty => "total share difficulty is zero"

/-! ## PPLNS -/

/-- `*weights.entry(miner).or_default() += weight`. -/
def bumpWeight (miner : Address) (weight : Nat) : List (Address × Nat) → List (Address × Nat)
  | [] => [(miner, u128 weight)]
  | (m, w) :: rest =>
      if miner < m then (miner, u128 weight) :: (m, w) :: rest
      else if miner = m then (m, u128 (w + weight)) :: rest
      else (m, w) :: bumpWeight miner weight rest

/-- The weight of each miner over the window, in key order. -/
def shareWeights (shares : List ShareWeight) : List (Address × Nat) :=
  shares.foldl (fun weights share => bumpWeight share.miner share.difficulty weights) []

/-- The allocation loop; `allocated` is the running sum. -/
def allocateLoop (minerTotal totalWeight : Nat) (lastMiner : Option Address) :
    Nat → List (Address × Nat) → List RewardAllocation
  | _, [] => []
  | allocated, (miner, weight) :: rest =>
      let amount :=
        if some miner = lastMiner then minerTotal - allocated
        else u128 (minerTotal * weight) / totalWeight
      ⟨miner, amount⟩ ::
        allocateLoop minerTotal totalWeight lastMiner (u128 (allocated + amount)) rest

/-- The fee is taken off first, rounded down. Each miner gets the floor of its part of the rest, and
the last in key order what the floors leave over. -/
def allocatePplns (rewardBaseUnits feeBps : Nat) (shares : List ShareWeight) :
    Except AccountingError PplnsResult :=
  if feeBps > 10000 then .error .invalidFeeBps
  else if shares.isEmpty then .error .emptyShareWindow
  else
    let weights := shareWeights shares
    let totalWeight := u128 (weights.map Prod.snd).sum
    if totalWeight = 0 then .error .zeroShareDifficulty
    else
      let fee := u128 (rewardBaseUnits * feeBps) / 10000
      let minerTotal := rewardBaseUnits - fee
      .ok {
        rewardBaseUnits := rewardBaseUnits
        feeBaseUnits := fee
        minerTotalBaseUnits := minerTotal
        allocations :=
          allocateLoop minerTotal totalWeight (weights.getLast?.map Prod.fst) 0 weights }

/-- The entries of an allocation; a fee of zero makes none. -/
def rewardLedgerEntries (blockRef : String) (result : PplnsResult) : List LedgerEntry :=
  (result.allocations.map fun allocation =>
    { miner := some allocation.miner
      amountBaseUnits := asI128 allocation.amountBaseUnits
      kind := .rewardImmature
      refType := "block"
      refId := blockRef }) ++
  if result.feeBaseUnits > 0 then
    [{ miner := none
       amountBaseUnits := asI128 result.feeBaseUnits
       kind := .poolFee
       refType := "block"
       refId := blockRef }]
  else []

/-! ## Payout selection and drafts -/

structure MinerBalance where
  miner : Address
  address : Address
  confirmedBaseUnits : Nat
  deriving DecidableEq, Repr

structure PayoutRecipient where
  miner : Address
  address : Address
  amountBaseUnits : Nat
  deriving DecidableEq, Repr

structure PayoutSelection where
  recipients : List PayoutRecipient
  totalBaseUnits : Nat
  deriving DecidableEq, Repr

/-- A batch before it is stored, with the entries that would lock its amounts. -/
structure PayoutBatchDraft where
  batchId : String
  recipients : List PayoutRecipient
  totalBaseUnits : Nat
  lockEntries : List LedgerEntry
  deriving DecidableEq, Repr

/-- Largest amount first, then miner ascending. -/
def payoutOrder (a b : PayoutRecipient) : Prop :=
  b.amountBaseUnits < a.amountBaseUnits ∨
    (a.amountBaseUnits = b.amountBaseUnits ∧ a.miner ≤ b.miner)

instance : DecidableRel payoutOrder := fun a b =>
  inferInstanceAs (Decidable (b.amountBaseUnits < a.amountBaseUnits ∨
    (a.amountBaseUnits = b.amountBaseUnits ∧ a.miner ≤ b.miner)))

/-- Of the balances that reach the minimum the largest, up to a number; each is paid out whole. -/
def selectPayouts (balances : List MinerBalance) (minimumPayoutBaseUnits maxRecipients : Nat) :
    PayoutSelection :=
  let eligible := (balances.filter fun b => minimumPayoutBaseUnits ≤ b.confirmedBaseUnits).map
    fun b => ({ miner := b.miner, address := b.address, amountBaseUnits := b.confirmedBaseUnits }
      : PayoutRecipient)
  let recipients := (eligible.insertionSort payoutOrder).take maxRecipients
  { recipients := recipients
    totalBaseUnits := u128 (recipients.map (·.amountBaseUnits)).sum }

/-- The draft of a selection: the locks are the amounts, negated. -/
def payoutBatchDraft (batchId : String) (selection : PayoutSelection) : PayoutBatchDraft :=
  { batchId := batchId
    totalBaseUnits := selection.totalBaseUnits
    recipients := selection.recipients
    lockEntries := selection.recipients.map fun recipient =>
      { miner := some recipient.miner
        amountBaseUnits := negI128 (asI128 recipient.amountBaseUnits)
        kind := .payoutLock
        refType := "payout_batch"
        refId := batchId } }

/-! ## The weight map -/

/-- The map's total grows by the weight at most; less where an addition wraps. -/
theorem bumpWeight_sum_le (miner : Address) (weight : Nat) (weights : List (Address × Nat)) :
    ((bumpWeight miner weight weights).map Prod.snd).sum ≤
      weight + (weights.map Prod.snd).sum := by
  induction weights with
  | nil => simpa [bumpWeight] using u128_le weight
  | cons head rest ih =>
      obtain ⟨m, w⟩ := head
      have wrapped := u128_le weight
      have wrappedSum := u128_le (w + weight)
      simp only [bumpWeight]
      split
      · simp only [List.map_cons, List.sum_cons]; omega
      · split
        · simp only [List.map_cons, List.sum_cons]; omega
        · simp only [List.map_cons, List.sum_cons] at ih ⊢; omega

/-- No weight comes from nowhere. -/
theorem shareWeights_sum_le (shares : List ShareWeight) :
    ((shareWeights shares).map Prod.snd).sum ≤ (shares.map (·.difficulty)).sum := by
  suffices ∀ acc : List (Address × Nat),
      ((shares.foldl (fun ws s => bumpWeight s.miner s.difficulty ws) acc).map Prod.snd).sum ≤
        (shares.map (·.difficulty)).sum + (acc.map Prod.snd).sum by
    simpa [shareWeights] using this []
  induction shares with
  | nil => intro acc; simp
  | cons share rest ih =>
      intro acc
      have step := ih (bumpWeight share.miner share.difficulty acc)
      have bump := bumpWeight_sum_le share.miner share.difficulty acc
      simp only [List.foldl_cons, List.map_cons, List.sum_cons]
      omega

/-- The miner has an entry afterwards, and nobody loses one. -/
theorem bumpWeight_keys (miner : Address) (weight : Nat) (weights : List (Address × Nat))
    (m : Address) :
    m ∈ (bumpWeight miner weight weights).map Prod.fst ↔
      m = miner ∨ m ∈ weights.map Prod.fst := by
  induction weights with
  | nil => simp [bumpWeight]
  | cons head rest ih =>
      obtain ⟨m', w⟩ := head
      simp only [bumpWeight]
      split
      · simp
      · split
        · rename_i same; subst same; simp
        · simp only [List.map_cons, List.mem_cons, ih]; tauto

/-- The keys of the map stay in strictly ascending order. -/
theorem bumpWeight_sorted (miner : Address) (weight : Nat) {weights : List (Address × Nat)}
    (sorted : (weights.map Prod.fst).Pairwise (· < ·)) :
    ((bumpWeight miner weight weights).map Prod.fst).Pairwise (· < ·) := by
  induction weights with
  | nil => simp [bumpWeight]
  | cons head rest ih =>
      obtain ⟨m, w⟩ := head
      simp only [List.map_cons, List.pairwise_cons] at sorted
      simp only [bumpWeight]
      split
      · rename_i less
        simp only [List.map_cons, List.pairwise_cons, List.mem_cons, forall_eq_or_imp]
        exact ⟨⟨less, fun x member => lt_trans less (sorted.1 x member)⟩, sorted.1, sorted.2⟩
      · rename_i notLess
        split
        · simp only [List.map_cons, List.pairwise_cons]
          exact sorted
        · rename_i different
          have greater : m < miner := lt_of_le_of_ne (not_lt.1 notLess) (Ne.symm different)
          simp only [List.map_cons, List.pairwise_cons]
          refine ⟨fun x member => ?_, ih sorted.2⟩
          rcases (bumpWeight_keys miner weight rest x).1 member with rfl | old
          · exact greater
          · exact sorted.1 x old

theorem shareWeights_sorted (shares : List ShareWeight) :
    ((shareWeights shares).map Prod.fst).Pairwise (· < ·) := by
  suffices ∀ acc : List (Address × Nat), (acc.map Prod.fst).Pairwise (· < ·) →
      ((shares.foldl (fun ws s => bumpWeight s.miner s.difficulty ws) acc).map
        Prod.fst).Pairwise (· < ·) from this [] List.Pairwise.nil
  induction shares with
  | nil => exact fun _ sorted => sorted
  | cons share rest ih => exact fun acc sorted => ih _ (bumpWeight_sorted _ _ sorted)

/-- A miner stands in the map once. -/
theorem shareWeights_nodup (shares : List ShareWeight) :
    ((shareWeights shares).map Prod.fst).Nodup :=
  (shareWeights_sorted shares).imp fun less => ne_of_lt less

/-! ## Conservation -/

/-- The floors of proportional shares never add up to more than the total. -/
theorem sum_floor_le (total weight : Nat) (weights : List Nat) (covers : weights.sum ≤ weight) :
    (weights.map fun w => u128 (total * w) / weight).sum ≤ total := by
  rcases Nat.eq_zero_or_pos weight with rfl | positive
  · simp
  have floors : (weights.map fun w => u128 (total * w) / weight).sum * weight ≤
      total * weights.sum := by
    clear covers
    induction weights with
    | nil => simp
    | cons w rest ih =>
        simp only [List.map_cons, List.sum_cons, Nat.add_mul, Nat.mul_add]
        have head : u128 (total * w) / weight * weight ≤ total * w :=
          le_trans (Nat.div_mul_le_self _ _) (u128_le _)
        omega
  have scaled : total * weights.sum ≤ total * weight := Nat.mul_le_mul_left _ covers
  exact Nat.le_of_mul_le_mul_right (le_trans floors scaled) positive

/-- The loop hands out exactly what is left, if the rows before the last one
leave the last one something to take. -/
theorem allocateLoop_sum (minerTotal totalWeight : Nat) (small : minerTotal < 2 ^ 128)
    (init : List (Address × Nat)) (last : Address × Nat)
    (distinct : ∀ row ∈ init, row.1 ≠ last.1) (allocated : Nat)
    (room : allocated + (init.map fun row => u128 (minerTotal * row.2) / totalWeight).sum
      ≤ minerTotal) :
    ((allocateLoop minerTotal totalWeight (some last.1) allocated (init ++ [last])).map
      (·.amountBaseUnits)).sum = minerTotal - allocated := by
  induction init generalizing allocated with
  | nil => simp [allocateLoop]
  | cons row rest ih =>
      obtain ⟨miner, weight⟩ := row
      have notLast : miner ≠ last.1 := distinct (miner, weight) (List.mem_cons_self ..)
      obtain ⟨share, shareEq⟩ : ∃ share, share = u128 (minerTotal * weight) / totalWeight :=
        ⟨_, rfl⟩
      simp only [List.map_cons, List.sum_cons, ← shareEq] at room
      have fits : u128 (allocated + share) = allocated + share := u128_of_lt (by omega)
      have tail := ih (fun x member => distinct x (List.mem_cons_of_mem _ member))
        (allocated + share) (by omega)
      simp only [List.cons_append, allocateLoop, Option.some.injEq, notLast, if_false,
        ← shareEq, fits, List.map_cons, List.sum_cons, tail]
      omega

/-- The loop gives a row to each miner, in the order of the map. -/
theorem allocateLoop_miners (minerTotal totalWeight : Nat) (lastMiner : Option Address)
    (allocated : Nat) (weights : List (Address × Nat)) :
    (allocateLoop minerTotal totalWeight lastMiner allocated weights).map (·.miner) =
      weights.map Prod.fst := by
  induction weights generalizing allocated with
  | nil => rfl
  | cons row rest ih => simp [allocateLoop, ih]

/-- What a successful allocation is: each field in terms of the inputs. -/
theorem allocatePplns_ok {reward feeBps : Nat} {shares : List ShareWeight} {result : PplnsResult}
    (allocated : allocatePplns reward feeBps shares = .ok result) :
    feeBps ≤ 10000 ∧ shareWeights shares ≠ [] ∧
      result.rewardBaseUnits = reward ∧
      result.feeBaseUnits = u128 (reward * feeBps) / 10000 ∧
      result.minerTotalBaseUnits = reward - result.feeBaseUnits ∧
      result.allocations = allocateLoop result.minerTotalBaseUnits
        (u128 ((shareWeights shares).map Prod.snd).sum)
        ((shareWeights shares).getLast?.map Prod.fst) 0 (shareWeights shares) := by
  unfold allocatePplns at allocated
  split at allocated
  · cases allocated
  · rename_i legalFee
    split at allocated
    · cases allocated
    · dsimp only at allocated
      split at allocated
      · cases allocated
      · rename_i positive
        cases allocated
        refine ⟨by omega, ?_, rfl, rfl, rfl, rfl⟩
        intro empty
        apply positive
        rw [empty]
        rfl

/-- The fee is at most the reward, whether its product wraps or not. -/
theorem fee_le_reward {reward feeBps : Nat} (legal : feeBps ≤ 10000) :
    u128 (reward * feeBps) / 10000 ≤ reward := by
  have wrapped := u128_le (reward * feeBps)
  have scaled : reward * feeBps ≤ reward * 10000 := Nat.mul_le_mul_left _ legal
  omega

/-- **Conservation.**  Fee and allocations add up to the reward. -/
theorem allocatePplns_conserves {reward feeBps : Nat} {shares : List ShareWeight}
    {result : PplnsResult} (small : reward < 2 ^ 128)
    (fits : (shares.map (·.difficulty)).sum < 2 ^ 128)
    (allocated : allocatePplns reward feeBps shares = .ok result) :
    (result.allocations.map (·.amountBaseUnits)).sum + result.feeBaseUnits = reward := by
  obtain ⟨legal, nonempty, -, fee, minerTotal, allocations⟩ := allocatePplns_ok allocated
  have feeLe : result.feeBaseUnits ≤ reward := fee ▸ fee_le_reward legal
  obtain ⟨init, last, split⟩ : ∃ init last, shareWeights shares = init ++ [last] :=
    ⟨_, _, (List.dropLast_append_getLast nonempty).symm⟩
  have weightSum : u128 ((shareWeights shares).map Prod.snd).sum =
      ((shareWeights shares).map Prod.snd).sum :=
    u128_of_lt (lt_of_le_of_lt (shareWeights_sum_le shares) fits)
  have distinct : ∀ row ∈ init, row.1 ≠ last.1 := by
    have nodup := shareWeights_nodup shares
    rw [split, List.map_append, List.nodup_append] at nodup
    intro row member same
    exact nodup.2.2 row.1 (List.mem_map_of_mem member) last.1 (by simp) same
  have room := sum_floor_le result.minerTotalBaseUnits ((shareWeights shares).map Prod.snd).sum
    (init.map Prod.snd) (by rw [split]; simp)
  rw [List.map_map] at room
  have total := allocateLoop_sum result.minerTotalBaseUnits
    ((shareWeights shares).map Prod.snd).sum (by omega) init last distinct 0
    (by simpa [Function.comp_def] using room)
  rw [← split] at total
  have lastMiner : (shareWeights shares).getLast?.map Prod.fst = some last.1 := by
    rw [split]; simp
  rw [allocations, weightSum, lastMiner, total]
  omega

/-! ## The entries of an allocation -/

/-- One entry a miner, and at most one for the pool. -/
theorem rewardLedgerEntries_miners {reward feeBps : Nat} {shares : List ShareWeight}
    {result : PplnsResult} (allocated : allocatePplns reward feeBps shares = .ok result)
    (blockRef : String) : ((rewardLedgerEntries blockRef result).map (·.miner)).Nodup := by
  obtain ⟨-, -, -, -, -, allocations⟩ := allocatePplns_ok allocated
  have miners : result.allocations.map (·.miner) = (shareWeights shares).map Prod.fst := by
    rw [allocations, allocateLoop_miners]
  have distinct : ((result.allocations.map (·.miner)).map some).Nodup :=
    (miners ▸ shareWeights_nodup shares).map (Option.some_injective _)
  unfold rewardLedgerEntries
  rw [List.map_append, List.map_map]
  rw [List.map_map] at distinct
  refine List.nodup_append.2 ⟨distinct, ?_, ?_⟩
  · split
    · exact List.nodup_singleton _
    · exact List.nodup_nil
  · intro m member m' feeMember
    obtain ⟨allocation, -, rfl⟩ := List.mem_map.1 member
    split at feeMember
    · rw [List.map_singleton, List.mem_singleton] at feeMember
      simp [feeMember]
    · cases feeMember

theorem rewardLedgerEntries_sum {reward feeBps : Nat} {shares : List ShareWeight}
    {result : PplnsResult} (small : reward < 2 ^ 127)
    (fits : (shares.map (·.difficulty)).sum < 2 ^ 128)
    (allocated : allocatePplns reward feeBps shares = .ok result) (blockRef : String) :
    ((rewardLedgerEntries blockRef result).map (·.amountBaseUnits)).sum = (reward : Int) := by
  have conserved := allocatePplns_conserves (by omega) fits allocated
  have each : ∀ allocations : List RewardAllocation,
      (allocations.map (·.amountBaseUnits)).sum < 2 ^ 127 →
      (allocations.map fun a => asI128 a.amountBaseUnits).sum =
        (((allocations.map (·.amountBaseUnits)).sum : Nat) : Int) := by
    intro allocations bounded
    induction allocations with
    | nil => rfl
    | cons allocation rest ih =>
        simp only [List.map_cons, List.sum_cons] at bounded ⊢
        rw [ih (by omega), asI128_of_lt (by omega)]
        omega
  have allocations := each result.allocations (by omega)
  unfold rewardLedgerEntries
  rw [List.map_append, List.sum_append, List.map_map, Function.comp_def, allocations]
  split
  · have feeFits : result.feeBaseUnits < 2 ^ 127 := by omega
    simp only [List.map_singleton, List.sum_singleton, asI128_of_lt feeFits]
    omega
  · rw [List.map_nil, List.sum_nil]
    omega

end CsdPool
