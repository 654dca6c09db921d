/-
# Allocation — what `allocate_pplns` hands out, in exact arithmetic

`minerWeights` is the weight of a window in unbounded arithmetic: every miner
once, in address order, with the sum of his difficulties.  It depends on the
shares only through the set of miners and each miner's sum, so a permutation of
the shares, and merging or splitting shares of one miner, leave it alone
(`minerWeights_regrouped`).

The code's weight map is `minerWeights` with every weight reduced by `u128`
(`shareWeights_eq`), which changes nothing for a slice of `u64` difficulties,
and its loop is the apportionment of the miner total (`allocateLoop_apportion`)
as long as the products it computes fit.
-/
import CsdPool.Accounting
import CsdPool.Theory.Apportion
import Mathlib.Data.List.Dedup
import Mathlib.Data.List.Nodup

namespace CsdPool

open Theory (floorShare apportion)

set_option autoImplicit false

/-- A `&[ShareWeight]`: every difficulty is a `u64`, and a slice has less than
`2 ^ 63` bytes. -/
structure ShareSlice where
  shares : List ShareWeight
  small : ∀ share ∈ shares, share.difficulty < 2 ^ 64
  short : shares.length < 2 ^ 63

/-! ## Weights in exact arithmetic -/

/-- What one miner's shares weigh together. -/
def weightOf (miner : Address) (shares : List ShareWeight) : Nat :=
  ((shares.filter fun share => share.miner = miner).map (·.difficulty)).sum

/-- Every miner once, in address order. -/
def shareMiners (shares : List ShareWeight) : List Address :=
  (shares.map (·.miner)).dedup.insertionSort (· ≤ ·)

def minerWeights (shares : List ShareWeight) : List (Address × Nat) :=
  (shareMiners shares).map fun miner => (miner, weightOf miner shares)

def windowWeight (shares : List ShareWeight) : Nat := (shares.map (·.difficulty)).sum

@[simp] theorem weightOf_nil (miner : Address) : weightOf miner [] = 0 := rfl

theorem weightOf_cons (miner : Address) (share : ShareWeight) (shares : List ShareWeight) :
    weightOf miner (share :: shares) =
      (if share.miner = miner then share.difficulty else 0) + weightOf miner shares := by
  by_cases same : share.miner = miner
  · simp [weightOf, same]
  · simp [weightOf, same]

theorem weightOf_eq_zero {miner : Address} {shares : List ShareWeight}
    (absent : miner ∉ shares.map (·.miner)) : weightOf miner shares = 0 := by
  induction shares with
  | nil => rfl
  | cons share rest ih =>
      rw [List.map_cons, List.mem_cons, not_or] at absent
      rw [weightOf_cons, if_neg (Ne.symm absent.1), ih absent.2]

@[simp] theorem mem_shareMiners {miner : Address} {shares : List ShareWeight} :
    miner ∈ shareMiners shares ↔ miner ∈ shares.map (·.miner) := by
  rw [shareMiners, (List.perm_insertionSort _ _).mem_iff, List.mem_dedup]

theorem shareMiners_sorted (shares : List ShareWeight) :
    (shareMiners shares).Pairwise (· < ·) := by
  have sorted := List.pairwise_insertionSort (· ≤ ·) (shares.map (·.miner)).dedup
  have nodup : (shareMiners shares).Nodup :=
    (List.perm_insertionSort _ _).nodup_iff.2 (List.nodup_dedup _)
  exact (sorted.and nodup).imp fun ⟨le, ne⟩ => lt_of_le_of_ne le ne

@[simp] theorem minerWeights_miners (shares : List ShareWeight) :
    (minerWeights shares).map Prod.fst = shareMiners shares := by
  simp [minerWeights, Function.comp_def]

theorem mem_minerWeights {row : Address × Nat} {shares : List ShareWeight} :
    row ∈ minerWeights shares ↔
      row.1 ∈ shares.map (·.miner) ∧ row.2 = weightOf row.1 shares := by
  obtain ⟨miner, weight⟩ := row
  simp only [minerWeights, List.mem_map, mem_shareMiners, Prod.mk.injEq]
  constructor
  · rintro ⟨m, member, rfl, rfl⟩
    exact ⟨member, rfl⟩
  · rintro ⟨member, rfl⟩
    exact ⟨miner, member, rfl, rfl⟩

/-- Two lists in strict order with the same members are one list. -/
theorem sorted_ext {left right : List Address} (sorted : left.Pairwise (· < ·))
    (sorted' : right.Pairwise (· < ·)) (same : ∀ miner, miner ∈ left ↔ miner ∈ right) :
    left = right := by
  have perm : left.Perm right :=
    (List.perm_ext_iff_of_nodup (sorted.imp ne_of_lt) (sorted'.imp ne_of_lt)).2 same
  exact perm.eq_of_pairwise (fun _ _ _ _ less less' => absurd less (lt_asymm less'))
    sorted sorted'

/-! ## The sum over the miners is the weight of the window -/

/-- Summing over a list of distinct miners that holds every finder counts every
share once. -/
theorem sum_weightOf {miners : List Address} (nodup : miners.Nodup) (shares : List ShareWeight)
    (covers : ∀ miner ∈ shares.map (·.miner), miner ∈ miners) :
    (miners.map fun miner => weightOf miner shares).sum = windowWeight shares := by
  induction shares with
  | nil => simp [windowWeight]
  | cons share rest ih =>
      have tail := ih fun miner member => covers miner (List.mem_cons_of_mem _ member)
      have one : (miners.map fun miner =>
          if share.miner = miner then share.difficulty else 0).sum = share.difficulty := by
        have member : share.miner ∈ miners := covers _ (List.mem_cons_self ..)
        clear covers tail ih
        induction miners with
        | nil => cases member
        | cons miner others ihMiners =>
            rw [List.nodup_cons] at nodup
            rw [List.map_cons, List.sum_cons]
            by_cases same : share.miner = miner
            · subst same
              have rest : (others.map fun miner =>
                  if share.miner = miner then share.difficulty else 0).sum = 0 := by
                apply List.sum_eq_zero
                intro value inMap
                obtain ⟨other, inOthers, rfl⟩ := List.mem_map.1 inMap
                rw [if_neg]
                intro again
                exact nodup.1 (again ▸ inOthers)
              rw [if_pos rfl, rest, Nat.add_zero]
            · rcases List.mem_cons.1 member with rfl | inOthers
              · exact absurd rfl same
              · rw [if_neg same, ihMiners nodup.2 inOthers, Nat.zero_add]
      simp only [weightOf_cons, List.sum_map_add, windowWeight, List.map_cons, List.sum_cons]
        at one tail ⊢
      omega

theorem minerWeights_sum (shares : List ShareWeight) :
    ((minerWeights shares).map Prod.snd).sum = windowWeight shares := by
  have nodup := (shareMiners_sorted shares).imp (fun {_ _} less => ne_of_lt less)
  simpa [minerWeights, Function.comp_def] using
    sum_weightOf nodup shares fun miner member => mem_shareMiners.2 member

theorem weightOf_le_window (miner : Address) (shares : List ShareWeight) :
    weightOf miner shares ≤ windowWeight shares := by
  induction shares with
  | nil => simp
  | cons share rest ih =>
      rw [weightOf_cons, windowWeight, List.map_cons, List.sum_cons]
      rw [windowWeight] at ih
      split <;> omega

/-- The weights of a slice are far from the end of a `u128`. -/
theorem ShareSlice.window_lt (slice : ShareSlice) : windowWeight slice.shares < 2 ^ 127 := by
  have bound : ∀ shares : List ShareWeight, (∀ share ∈ shares, share.difficulty < 2 ^ 64) →
      windowWeight shares ≤ shares.length * (2 ^ 64 - 1) := by
    intro shares small
    induction shares with
    | nil => simp [windowWeight]
    | cons share rest ih =>
        have head := small share (List.mem_cons_self ..)
        have tail := ih fun x member => small x (List.mem_cons_of_mem _ member)
        simp only [windowWeight, List.map_cons, List.sum_cons, List.length_cons] at tail ⊢
        omega
  have window := bound slice.shares slice.small
  have short := slice.short
  omega

/-! ## The weight map of the code -/

theorem u128_add_left (a b : Nat) : u128 (u128 a + b) = u128 (a + b) := by
  simp [u128]

theorem lookup_cons_ne {m k : Address} (different : m ≠ k) (w : Nat)
    (rest : List (Address × Nat)) : ((k, w) :: rest).lookup m = rest.lookup m := by
  have skip : (m == k) = false := by simpa using different
  rw [List.lookup_cons, skip]

theorem bumpWeight_lookup (miner : Address) (weight : Nat) {weights : List (Address × Nat)}
    (sorted : (weights.map Prod.fst).Pairwise (· < ·)) (m : Address) :
    (bumpWeight miner weight weights).lookup m =
      if m = miner then some (u128 ((weights.lookup miner).getD 0 + weight))
      else weights.lookup m := by
  induction weights with
  | nil =>
      by_cases same : m = miner
      · simp [bumpWeight, same]
      · simp [bumpWeight, same, lookup_cons_ne]
  | cons head rest ih =>
      obtain ⟨k, w⟩ := head
      rw [List.map_cons, List.pairwise_cons] at sorted
      have tail := ih sorted.2
      simp only [bumpWeight]
      by_cases less : miner < k
      · -- a fresh miner in front of the head: none of the rows is his
        have absent : ((k, w) :: rest).lookup miner = none := by
          rw [List.lookup_eq_none_iff]
          intro row member
          have above : miner < row.1 := by
            rcases List.mem_cons.1 member with rfl | inRest
            · exact less
            · exact lt_trans less (sorted.1 _ (List.mem_map_of_mem inRest))
          simpa using ne_of_lt above
        rw [if_pos less, absent]
        by_cases same : m = miner
        · simp [same]
        · rw [if_neg same, lookup_cons_ne same]
      · by_cases here : miner = k
        · subst here
          rw [if_neg less, if_pos rfl]
          by_cases same : m = miner
          · simp [same]
          · rw [if_neg same, lookup_cons_ne same, lookup_cons_ne same]
        · rw [if_neg less, if_neg here]
          by_cases same : m = k
          · subst same
            simp [Ne.symm here]
          · rw [lookup_cons_ne same, lookup_cons_ne here, lookup_cons_ne same, tail]

theorem shareWeights_lookup (shares : List ShareWeight) (miner : Address) :
    (shareWeights shares).lookup miner =
      if miner ∈ shares.map (·.miner) then some (u128 (weightOf miner shares)) else none := by
  suffices ∀ acc : List (Address × Nat), (acc.map Prod.fst).Pairwise (· < ·) →
      (shares.foldl (fun ws s => bumpWeight s.miner s.difficulty ws) acc).lookup miner =
        if miner ∈ shares.map (·.miner) then
          some (u128 ((acc.lookup miner).getD 0 + weightOf miner shares))
        else acc.lookup miner by
    simpa [shareWeights] using this [] List.Pairwise.nil
  induction shares with
  | nil => intro acc _; simp
  | cons share rest ih =>
      intro acc sorted
      have step := ih _ (bumpWeight_sorted share.miner share.difficulty sorted)
      rw [List.foldl_cons, step, bumpWeight_lookup _ _ sorted, weightOf_cons]
      by_cases same : miner = share.miner
      · subst same
        by_cases again : share.miner ∈ rest.map (·.miner)
        · simp [again, u128_add_left, Nat.add_assoc]
        · simp [again, weightOf_eq_zero again]
      · rw [if_neg same, if_neg (Ne.symm same), Nat.zero_add]
        simp [same]

theorem shareWeights_miners (shares : List ShareWeight) :
    (shareWeights shares).map Prod.fst = shareMiners shares := by
  refine sorted_ext (shareWeights_sorted shares) (shareMiners_sorted shares) fun miner => ?_
  have found := shareWeights_lookup shares miner
  have absent := List.lookup_eq_none_iff (l := shareWeights shares) (k := miner)
  rw [found] at absent
  rw [mem_shareMiners]
  by_cases member : miner ∈ shares.map (·.miner)
  · simp only [member, if_true, reduceCtorEq, false_iff, not_forall] at absent
    obtain ⟨row, inRows, same⟩ := absent
    have key : miner = row.1 := by simpa using same
    exact iff_of_true (key ▸ List.mem_map_of_mem inRows) member
  · simp only [member, if_false, true_iff] at absent
    refine iff_of_false (fun inKeys => ?_) member
    obtain ⟨row, inRows, key⟩ := List.mem_map.1 inKeys
    simpa [key] using absent row inRows

/-- Rows under distinct keys are their keys with what a lookup finds. -/
theorem rows_of_lookup (rows : List (Address × Nat)) (nodup : (rows.map Prod.fst).Nodup) :
    rows = (rows.map Prod.fst).map fun key => (key, (rows.lookup key).getD 0) := by
  induction rows with
  | nil => rfl
  | cons row rest ih =>
      obtain ⟨key, value⟩ := row
      rw [List.map_cons, List.nodup_cons] at nodup
      simp only [List.map_cons, List.lookup_cons_self, Option.getD_some, List.cons.injEq,
        true_and]
      refine (ih nodup.2).trans (List.map_congr_left fun other member => ?_)
      have different : (other == key) = false := by
        simpa using fun same : other = key => nodup.1 (same ▸ member)
      rw [List.lookup_cons, different]

/-- The map the code builds: the exact weights, each reduced by `u128`. -/
theorem shareWeights_eq (shares : List ShareWeight) :
    shareWeights shares =
      (minerWeights shares).map fun row => (row.1, u128 row.2) := by
  rw [rows_of_lookup _ (shareWeights_nodup shares), shareWeights_miners, minerWeights, List.map_map]
  refine List.map_congr_left fun miner member => ?_
  rw [shareWeights_lookup, if_pos (mem_shareMiners.1 member)]
  rfl

theorem ShareSlice.weights (slice : ShareSlice) :
    shareWeights slice.shares = minerWeights slice.shares := by
  rw [shareWeights_eq]
  refine (List.map_congr_left fun row member => ?_).trans (List.map_id _)
  have exact := (mem_minerWeights.1 member).2
  have below := weightOf_le_window row.1 slice.shares
  have window := slice.window_lt
  rw [u128_of_lt (by omega)]
  rfl

/-! ## The allocation loop -/

/-- The rows before the last get their floors and the last one what is left, if
no product before the last overflows. -/
theorem allocateLoop_floors {minerTotal totalWeight : Nat} (small : minerTotal < 2 ^ 128)
    (init : List (Address × Nat)) (last : Address × Nat)
    (distinct : ∀ row ∈ init, row.1 ≠ last.1)
    (fits : ∀ row ∈ init, minerTotal * row.2 < 2 ^ 128) (allocated : Nat)
    (room : allocated + (init.map fun row => floorShare minerTotal totalWeight row.2).sum ≤
      minerTotal) :
    allocateLoop minerTotal totalWeight (some last.1) allocated (init ++ [last]) =
      (init.map fun row => ⟨row.1, floorShare minerTotal totalWeight row.2⟩) ++
        [⟨last.1, minerTotal -
          (allocated + (init.map fun row => floorShare minerTotal totalWeight row.2).sum)⟩] := by
  induction init generalizing allocated with
  | nil => simp [allocateLoop]
  | cons row rest ih =>
      obtain ⟨miner, weight⟩ := row
      have notLast : miner ≠ last.1 := distinct (miner, weight) (List.mem_cons_self ..)
      have product : u128 (minerTotal * weight) = minerTotal * weight :=
        u128_of_lt (fits (miner, weight) (List.mem_cons_self ..))
      obtain ⟨share, shareEq⟩ : ∃ share, share = floorShare minerTotal totalWeight weight :=
        ⟨_, rfl⟩
      have amount : minerTotal * weight / totalWeight = share := shareEq.symm
      simp only [List.map_cons, List.sum_cons, ← shareEq] at room ⊢
      have running : u128 (allocated + share) = allocated + share := u128_of_lt (by omega)
      have tail := ih (fun x member => distinct x (List.mem_cons_of_mem _ member))
        (fun x member => fits x (List.mem_cons_of_mem _ member)) (allocated + share) (by omega)
      simp only [List.cons_append, allocateLoop, Option.some.injEq, notLast, if_false, product,
        amount, running, tail, Nat.add_assoc]

def asAllocation (row : (Address × Nat) × Nat) : RewardAllocation := ⟨row.1.1, row.2⟩

/-- The loop computes the apportionment of the miner total. -/
theorem allocateLoop_apportion {minerTotal : Nat} (small : minerTotal < 2 ^ 128)
    {weights : List (Address × Nat)} (nodup : (weights.map Prod.fst).Nodup)
    (fits : ∀ row ∈ weights.dropLast, minerTotal * row.2 < 2 ^ 128) :
    allocateLoop minerTotal (weights.map Prod.snd).sum (weights.getLast?.map Prod.fst) 0 weights =
      (apportion Prod.snd minerTotal weights).map asAllocation := by
  rcases weights.eq_nil_or_concat' with rfl | ⟨init, last, rfl⟩
  · rfl
  · have distinct : ∀ row ∈ init, row.1 ≠ last.1 := by
      rw [List.map_append, List.nodup_append] at nodup
      intro row member same
      exact nodup.2.2 row.1 (List.mem_map_of_mem member) last.1 (by simp) same
    have covers : (init.map Prod.snd).sum ≤ ((init ++ [last]).map Prod.snd).sum := by simp
    have room := Theory.floors_sum_le Prod.snd minerTotal init covers
    rw [List.dropLast_concat] at fits
    rw [List.getLast?_concat, Option.map_some,
      allocateLoop_floors small init last distinct fits 0 (by omega), Nat.zero_add,
      Theory.apportion_append]
    simp [asAllocation, Function.comp_def]

/-! ## Regrouping shares -/

/-- Shares reordered, and shares of one miner merged or split. -/
inductive Regrouped : List ShareWeight → List ShareWeight → Prop
  | perm {shares shares' : List ShareWeight} (same : shares.Perm shares') :
      Regrouped shares shares'
  | merge (miner : Address) (first second : Nat) (rest : List ShareWeight) :
      Regrouped (⟨miner, first⟩ :: ⟨miner, second⟩ :: rest) (⟨miner, first + second⟩ :: rest)
  | symm {shares shares' : List ShareWeight} (back : Regrouped shares' shares) :
      Regrouped shares shares'
  | trans {shares middle shares' : List ShareWeight} (left : Regrouped shares middle)
      (right : Regrouped middle shares') : Regrouped shares shares'

theorem Regrouped.weightOf {shares shares' : List ShareWeight}
    (regrouped : Regrouped shares shares') (miner : Address) :
    weightOf miner shares = CsdPool.weightOf miner shares' := by
  induction regrouped with
  | perm same => exact ((same.filter _).map _).sum_eq
  | merge m first second rest =>
      simp only [weightOf_cons]
      by_cases same : m = miner
      · simp [same, Nat.add_assoc]
      · simp [same]
  | symm _ ih => exact ih.symm
  | trans _ _ left right => exact left.trans right

theorem Regrouped.miners {shares shares' : List ShareWeight}
    (regrouped : Regrouped shares shares') (miner : Address) :
    miner ∈ shares.map (·.miner) ↔ miner ∈ shares'.map (·.miner) := by
  induction regrouped with
  | perm same => exact (same.map _).mem_iff
  | merge m first second rest => simp
  | symm _ ih => exact ih.symm
  | trans _ _ left right => exact left.trans right

/-- The exact weights see a window only through its miners and their sums. -/
theorem minerWeights_regrouped {shares shares' : List ShareWeight}
    (regrouped : Regrouped shares shares') : minerWeights shares = minerWeights shares' := by
  have miners : shareMiners shares = shareMiners shares' :=
    sorted_ext (shareMiners_sorted shares) (shareMiners_sorted shares') fun miner => by
      simpa using regrouped.miners miner
  rw [minerWeights, minerWeights, miners]
  exact List.map_congr_left fun miner _ => by rw [regrouped.weightOf miner]

theorem allocatePplns_regrouped {shares shares' : List ShareWeight}
    (regrouped : Regrouped shares shares') (reward feeBps : Nat) :
    allocatePplns reward feeBps shares = allocatePplns reward feeBps shares' := by
  have weights : shareWeights shares = shareWeights shares' := by
    rw [shareWeights_eq, shareWeights_eq, minerWeights_regrouped regrouped]
  have empty : shares.isEmpty = shares'.isEmpty := by
    have nil : ∀ list : List ShareWeight, list.isEmpty = (shareWeights list).isEmpty := by
      intro list
      have miners := congrArg List.length (shareWeights_miners list)
      cases list with
      | nil => rfl
      | cons share rest =>
          have member : share.miner ∈ shareMiners (share :: rest) := by simp
          have positive := List.length_pos_of_mem member
          rw [List.length_map] at miners
          cases rows : shareWeights (share :: rest) with
          | nil => rw [rows, List.length_nil] at miners; omega
          | cons _ _ => rfl
    rw [nil, nil, weights]
  rw [allocatePplns, allocatePplns, weights, empty]

/-! ## The allocation in exact arithmetic -/

/-- The allocation the code is after, in unbounded arithmetic. -/
def exactPplns (reward feeBps : Nat) (shares : List ShareWeight) : PplnsResult :=
  let fee := reward * feeBps / 10000
  { rewardBaseUnits := reward
    feeBaseUnits := fee
    minerTotalBaseUnits := reward - fee
    allocations := (apportion Prod.snd (reward - fee) (minerWeights shares)).map asAllocation }

/-- The inputs `allocate_pplns` turns away. -/
theorem allocatePplns_error_iff (reward feeBps : Nat) (slice : ShareSlice) :
    (∃ err, allocatePplns reward feeBps slice.shares = .error err) ↔
      10000 < feeBps ∨ windowWeight slice.shares = 0 := by
  have window := slice.window_lt
  have total : u128 ((shareWeights slice.shares).map Prod.snd).sum =
      windowWeight slice.shares := by
    rw [slice.weights, minerWeights_sum, u128_of_lt (by omega)]
  have empty : slice.shares.isEmpty = true → windowWeight slice.shares = 0 := by
    intro none
    rw [List.isEmpty_iff.1 none]
    rfl
  simp only [allocatePplns, total]
  by_cases illegal : feeBps > 10000
  · simp [illegal]
  · by_cases none : slice.shares.isEmpty = true
    · simp [illegal, none, empty none]
    · by_cases zero : windowWeight slice.shares = 0
      · simp [illegal, none, zero]
      · simp [illegal, none, zero]

/-- What it returns for the others, wraps included. -/
theorem allocatePplns_returns (reward : Nat) {feeBps : Nat} {slice : ShareSlice}
    (legal : feeBps ≤ 10000) (positive : 0 < windowWeight slice.shares) :
    let fee := u128 (reward * feeBps) / 10000
    allocatePplns reward feeBps slice.shares = .ok
      { rewardBaseUnits := reward
        feeBaseUnits := fee
        minerTotalBaseUnits := reward - fee
        allocations := allocateLoop (reward - fee) ((minerWeights slice.shares).map Prod.snd).sum
          ((minerWeights slice.shares).getLast?.map Prod.fst) 0 (minerWeights slice.shares) } := by
  have window := slice.window_lt
  have nonempty : slice.shares.isEmpty = false := by
    cases shares : slice.shares with
    | nil => rw [shares] at positive; cases positive
    | cons _ _ => rfl
  simp [allocatePplns, Nat.not_lt.2 legal, nonempty, slice.weights, minerWeights_sum,
    u128_of_lt (show windowWeight slice.shares < 2 ^ 128 by omega), Nat.ne_of_gt positive]

theorem minerWeights_nodup (shares : List ShareWeight) :
    ((minerWeights shares).map Prod.fst).Nodup := by
  rw [minerWeights_miners]
  exact (shareMiners_sorted _).imp ne_of_lt

theorem allocatePplns_exactPplns {reward feeBps : Nat} {slice : ShareSlice}
    (small : reward < 2 ^ 128) (legal : feeBps ≤ 10000)
    (positive : 0 < windowWeight slice.shares) (feeFits : reward * feeBps < 2 ^ 128)
    (fits : ∀ row ∈ (minerWeights slice.shares).dropLast,
      (reward - reward * feeBps / 10000) * row.2 < 2 ^ 128) :
    allocatePplns reward feeBps slice.shares = .ok (exactPplns reward feeBps slice.shares) := by
  have returned := allocatePplns_returns reward legal positive
  have loop := allocateLoop_apportion (by omega) (minerWeights_nodup slice.shares) fits
  dsimp only at returned
  rw [u128_of_lt feeFits, loop] at returned
  exact returned

@[simp] theorem exactPplns_miners (reward feeBps : Nat) (shares : List ShareWeight) :
    (exactPplns reward feeBps shares).allocations.map (·.miner) = shareMiners shares := by
  have rows := Theory.apportion_rows Prod.snd (reward - reward * feeBps / 10000)
    (minerWeights shares)
  have miners := congrArg (List.map Prod.fst) rows
  rw [minerWeights_miners, List.map_map] at miners
  rw [exactPplns, List.map_map]
  exact miners

theorem minerWeights_ne_nil {shares : List ShareWeight} (positive : 0 < windowWeight shares) :
    minerWeights shares ≠ [] := by
  intro none
  rw [← minerWeights_sum, none] at positive
  cases positive

theorem exactPplns_sum {reward feeBps : Nat} {shares : List ShareWeight}
    (positive : 0 < windowWeight shares) :
    ((exactPplns reward feeBps shares).allocations.map (·.amountBaseUnits)).sum =
      reward - reward * feeBps / 10000 := by
  rw [exactPplns, List.map_map]
  exact Theory.apportion_sum Prod.snd _ (minerWeights_ne_nil positive)

/-- The exact share of one miner, rounded down. -/
def minerFloor (minerTotal : Nat) (miner : Address) (shares : List ShareWeight) : Nat :=
  minerTotal * weightOf miner shares / windowWeight shares

theorem exactPplns_bounds {reward feeBps : Nat} {shares : List ShareWeight}
    (positive : 0 < windowWeight shares) {allocation : RewardAllocation}
    (member : allocation ∈ (exactPplns reward feeBps shares).allocations) :
    let floor := minerFloor (reward - reward * feeBps / 10000) allocation.miner shares
    floor ≤ allocation.amountBaseUnits ∧
      allocation.amountBaseUnits < floor + (shareMiners shares).length := by
  obtain ⟨⟨row, amount⟩, inRows, rfl⟩ := List.mem_map.1 member
  have sum := minerWeights_sum shares
  have inWeights : row ∈ minerWeights shares := by
    rw [← Theory.apportion_rows Prod.snd (reward - reward * feeBps / 10000) (minerWeights shares)]
    exact List.mem_map_of_mem (f := Prod.fst) inRows
  have weight := (mem_minerWeights.1 inWeights).2
  have bounds := Theory.apportion_bounds Prod.snd _ (by rw [sum]; exact positive) inRows
  rw [sum, weight, minerWeights, List.length_map] at bounds
  exact bounds

/-- A miner with a later one in address order gets his floor. -/
theorem exactPplns_floor {reward feeBps : Nat} {shares : List ShareWeight}
    {allocation : RewardAllocation}
    (member : allocation ∈ (exactPplns reward feeBps shares).allocations)
    (later : ∃ miner ∈ shares.map (·.miner), allocation.miner < miner) :
    allocation.amountBaseUnits =
      minerFloor (reward - reward * feeBps / 10000) allocation.miner shares := by
  obtain ⟨⟨row, amount⟩, inRows, rfl⟩ := List.mem_map.1 member
  obtain ⟨miner, inShares, less⟩ := later
  have sum := minerWeights_sum shares
  have sorted := shareMiners_sorted shares
  rw [← minerWeights_miners] at sorted
  have weight : row ∈ minerWeights shares → row.2 = weightOf row.1 shares := fun inWeights =>
    (mem_minerWeights.1 inWeights).2
  have inMiners : miner ∈ (minerWeights shares).map Prod.fst := by simpa using inShares
  rcases (minerWeights shares).eq_nil_or_concat' with none | ⟨init, last, split⟩
  · rw [none] at inMiners
    cases inMiners
  · rw [split] at inRows sorted inMiners sum weight
    rcases Theory.apportion_floor Prod.snd _ inRows with ⟨inInit, amountEq⟩ | ⟨rfl, -⟩
    · rw [sum, weight (List.mem_append_left _ inInit)] at amountEq
      exact amountEq
    · rw [List.map_append, List.pairwise_append] at sorted
      rcases List.mem_map.1 inMiners with ⟨other, inOthers, rfl⟩
      rcases List.mem_append.1 inOthers with early | late
      · have above := sorted.2.2 other.1 (List.mem_map_of_mem early) row.1 (by simp)
        exact absurd less (lt_asymm above)
      · cases List.mem_singleton.1 late
        exact absurd less (lt_irrefl _)

/-- **The allocation.**  Fee and miner total, one amount a miner in address
order, exact conservation, every amount at least its floor with only the last
one above it, and nothing that depends on how the window is cut into shares. -/
theorem pplns_allocation {reward feeBps : Nat} {slice : ShareSlice} (small : reward < 2 ^ 128)
    (legal : feeBps ≤ 10000) (positive : 0 < windowWeight slice.shares)
    (feeFits : reward * feeBps < 2 ^ 128)
    (fits : ∀ miner ∈ slice.shares.map (·.miner),
      (reward - reward * feeBps / 10000) * weightOf miner slice.shares < 2 ^ 128) :
    ∃ result, allocatePplns reward feeBps slice.shares = .ok result ∧
      result.feeBaseUnits = reward * feeBps / 10000 ∧
      result.minerTotalBaseUnits = reward - result.feeBaseUnits ∧
      (result.allocations.map (·.miner)).Pairwise (· < ·) ∧
      (∀ miner, miner ∈ result.allocations.map (·.miner) ↔
        miner ∈ slice.shares.map (·.miner)) ∧
      (result.allocations.map (·.amountBaseUnits)).sum = result.minerTotalBaseUnits ∧
      (∀ allocation ∈ result.allocations,
        let floor := minerFloor result.minerTotalBaseUnits allocation.miner slice.shares
        floor ≤ allocation.amountBaseUnits ∧
          allocation.amountBaseUnits < floor + result.allocations.length ∧
          ((∃ miner ∈ slice.shares.map (·.miner), allocation.miner < miner) →
            allocation.amountBaseUnits = floor)) ∧
      ∀ shares', Regrouped slice.shares shares' →
        allocatePplns reward feeBps shares' = .ok result := by
  have returned := allocatePplns_exactPplns small legal positive feeFits fun row member => by
    have inWeights := mem_minerWeights.1 ((List.dropLast_sublist _).subset member)
    rw [inWeights.2]
    exact fits row.1 inWeights.1
  have miners := exactPplns_miners reward feeBps slice.shares
  have length : (exactPplns reward feeBps slice.shares).allocations.length =
      (shareMiners slice.shares).length := by
    rw [← miners, List.length_map]
  refine ⟨exactPplns reward feeBps slice.shares, returned, rfl, rfl, ?_, fun miner => ?_,
    exactPplns_sum positive, fun allocation member => ?_, fun shares' regrouped => ?_⟩
  · rw [miners]
    exact shareMiners_sorted _
  · rw [miners, mem_shareMiners]
  · have bounds := exactPplns_bounds positive member
    rw [length]
    exact ⟨bounds.1, bounds.2, exactPplns_floor member⟩
  · rw [← allocatePplns_regrouped regrouped]
    exact returned

/-- Two miners, one of them with his three shares merged or not. -/
theorem pplns_allocation_of_window :
    let slice : ShareSlice := ⟨[⟨"b", 2⟩, ⟨"a", 1⟩, ⟨"b", 1⟩], by decide, by decide⟩
    ∃ result, allocatePplns 5000000000 100 slice.shares = .ok result ∧
      result.feeBaseUnits = 50000000 ∧
      (result.allocations.map (·.amountBaseUnits)).sum = 4950000000 ∧
      allocatePplns 5000000000 100 [⟨"a", 1⟩, ⟨"b", 3⟩] = .ok result := by
  intro slice
  obtain ⟨result, returned, fee, total, -, -, sum, -, regrouped⟩ :=
    @pplns_allocation 5000000000 100 slice (by decide) (by decide) (by decide) (by decide)
      (by decide)
  rw [fee] at total
  rw [total] at sum
  have merged : Regrouped slice.shares [⟨"a", 1⟩, ⟨"b", 3⟩] :=
    .trans (.perm (by decide)) (.trans (.merge "b" 2 1 [⟨"a", 1⟩]) (.perm (by decide)))
  exact ⟨result, returned, fee, sum, regrouped _ merged⟩

end CsdPool
