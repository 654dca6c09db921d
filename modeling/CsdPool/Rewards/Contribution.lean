/-
# Rewards.Contribution — what a block's ledger entries add up to

A block's entries are the ledger rows that refer to it.  `netTotal` adds them up
(maturing moves an amount between two columns and nets zero), `confirmedShare` is
what they leave in a miner's confirmed column when they are replayed alone.

* `confirmedShare_eq`: what matured, less what was reversed after it matured.
* `netTotal_reversed`: a block without a fee whose rewards are all reversed nets
  zero.
-/
import CsdPool.Db.Projection
import CsdPool.Rewards.Invariants
import CsdPool.Theory.Precedence

namespace CsdPool.Rewards

open Theory (Keyed Table precedes)

set_option autoImplicit false

/-! ## What a block contributes -/

def blockRows (hash : String) (rows : List LedgerEntry) : List LedgerEntry :=
  rows.filter fun entry => entry.refType = "block" && entry.refId = hash

/-- Maturing moves an amount from one column to another. -/
def netAmount (entry : LedgerEntry) : Int :=
  if entry.kind = .rewardMature then 0 else entry.amountBaseUnits

def netTotal (hash : String) (rows : List LedgerEntry) : Int :=
  ((blockRows hash rows).map netAmount).sum

/-- What the block's entries alone leave in a miner's confirmed column. -/
def confirmedShare (miner : Address) (hash : String) (rows : List LedgerEntry) : Int :=
  (recompute miner (blockRows hash rows)).confirmedBaseUnits

def blockKey (miner : Option Address) (kind : LedgerKind) (hash : String) : LedgerKey :=
  ⟨miner, kind, "block", hash⟩

/-- The miner's part of the settled reward. -/
def allocationOf (ledger : Table LedgerEntry) (miner : Address) (hash : String) : Int :=
  ((ledger.find? (blockKey (some miner) .rewardImmature hash)).map (·.amountBaseUnits)).getD 0

theorem blockRows_append (hash : String) (rows : List LedgerEntry) (entry : LedgerEntry) :
    blockRows hash (rows ++ [entry]) =
      blockRows hash rows ++
        if entry.refType = "block" ∧ entry.refId = hash then [entry] else [] := by
  unfold blockRows
  rw [List.filter_append]
  by_cases here : entry.refType = "block" ∧ entry.refId = hash
  · simp [here]
  · rw [if_neg here]
    congr 1
    simpa [List.filter_cons] using here

/-- Maturity is decided within the block's rows. -/
theorem maturedIn_blockRows {hash : String} {rows : List LedgerEntry} {entry : LedgerEntry}
    (block : entry.refType = "block") (here : entry.refId = hash) :
    maturedIn (blockRows hash rows) entry = true ↔
      blockKey entry.miner .rewardMature hash ∈ rows.map LedgerEntry.ledgerKey := by
  simp only [maturedIn, blockRows, List.any_filter, List.any_eq_true, List.mem_map, block, here,
    Bool.and_eq_true, decide_eq_true_eq, blockKey]
  constructor
  · rintro ⟨x, member, -, same⟩
    exact ⟨x, member, same⟩
  · rintro ⟨x, member, same⟩
    refine ⟨x, member, ?_, same⟩
    simp only [LedgerEntry.ledgerKey, LedgerKey.mk.injEq] at same
    exact same.2.2

/-- Whether a reward had matured is seen in its block's rows. -/
theorem maturedIn_block {hash : String} {rows : List LedgerEntry} {entry : LedgerEntry}
    (block : entry.refType = "block") (here : entry.refId = hash) :
    maturedIn (blockRows hash rows) entry = maturedIn rows entry := by
  rw [Bool.eq_iff_iff, maturedIn_blockRows block here]
  simp only [maturedIn, List.any_eq_true, List.mem_map, decide_eq_true_eq, blockKey, block, here]

/-- One entry's part in the share of a block. -/
theorem confirmedShare_snoc (miner : Address) (hash : String) (rows : List LedgerEntry)
    (entry : LedgerEntry) :
    confirmedShare miner hash (rows ++ [entry]) =
      confirmedShare miner hash rows + if entry.refId = hash then
        (if entry.miner = some miner ∧ entry.refType = "block"
          then Balance.confirmedDelta (maturedIn rows entry) entry.kind entry.amountBaseUnits
          else 0) else 0 := by
  unfold confirmedShare
  rw [blockRows_append]
  by_cases here : entry.refId = hash
  · by_cases block : entry.refType = "block"
    · rw [if_pos ⟨block, here⟩, recompute_append, if_pos here]
      by_cases own : entry.miner = some miner
      · rw [if_pos own, if_pos ⟨own, block⟩, Balance.post_confirmed, maturedIn_block block here]
      · rw [if_neg own, if_neg fun both => own both.1, Int.add_zero]
    · rw [if_neg fun both => block both.1, List.append_nil, if_pos here,
        if_neg fun both => block both.2, Int.add_zero]
  · rw [if_neg fun both => here both.2, List.append_nil, if_neg here, Int.add_zero]

/-- One more row adds to the confirmed column what matures, and takes what is
reversed after it matured. -/
theorem confirmedShare_append (miner : Address) (hash : String) (rows : List LedgerEntry)
    {entry : LedgerEntry}
    (shape : entry.refType = "block" → entry.refId = hash → entry.miner = some miner →
      entry.kind = .rewardImmature ∨ entry.kind = .rewardMature ∨
        entry.kind = .rewardOrphanReversal) :
    confirmedShare miner hash (rows ++ [entry]) =
      confirmedShare miner hash rows +
        if entry.ledgerKey = blockKey (some miner) .rewardMature hash ∨
          (entry.ledgerKey = blockKey (some miner) .rewardOrphanReversal hash ∧
            blockKey (some miner) .rewardMature hash ∈ rows.map LedgerEntry.ledgerKey)
        then entry.amountBaseUnits else 0 := by
  rw [confirmedShare_snoc]
  congr 1
  by_cases placed : entry.refId = hash ∧ entry.miner = some miner ∧ entry.refType = "block"
  · obtain ⟨here, own, block⟩ := placed
    have key : ∀ kind, entry.ledgerKey = blockKey (some miner) kind hash ↔ entry.kind = kind := by
      intro kind
      simp [LedgerEntry.ledgerKey, blockKey, own, here, block]
    have matured : maturedIn (blockRows hash rows) entry = true ↔
        blockKey entry.miner .rewardMature hash ∈ rows.map LedgerEntry.ledgerKey :=
      maturedIn_blockRows block here
    rw [maturedIn_block block here, own] at matured
    rw [if_pos here, if_pos ⟨own, block⟩]
    simp only [key, ← matured]
    rcases shape block here own with kind | kind | kind
    · simp [kind, Balance.confirmedDelta]
    · simp [kind, Balance.confirmedDelta]
    · simp [kind, Balance.confirmedDelta]
  · have noKey : ∀ kind, ¬ entry.ledgerKey = blockKey (some miner) kind hash := fun kind same =>
      placed ⟨congrArg LedgerKey.refId same, congrArg LedgerKey.miner same,
        congrArg LedgerKey.refType same⟩
    have neither : ¬ (entry.ledgerKey = blockKey (some miner) .rewardMature hash ∨
        entry.ledgerKey = blockKey (some miner) .rewardOrphanReversal hash ∧
          blockKey (some miner) .rewardMature hash ∈ rows.map LedgerEntry.ledgerKey) :=
      fun either => either.elim (noKey _) fun both => noKey _ both.1
    rw [if_neg neither]
    split
    · rename_i here
      exact if_neg fun both => placed ⟨here, both⟩
    · rfl

/-- The confirmed column of a block's rows: what matured, less what was reversed
after it had matured. -/
theorem confirmedShare_eq (miner : Address) (hash : String) (amount : Int)
    {rows : List LedgerEntry} (unique : (rows.map LedgerEntry.ledgerKey).Nodup)
    (shape : ∀ entry ∈ rows, entry.refType = "block" → entry.refId = hash →
      entry.miner = some miner →
      entry.kind = .rewardImmature ∨
        (entry.kind = .rewardMature ∧ entry.amountBaseUnits = amount) ∨
        (entry.kind = .rewardOrphanReversal ∧ entry.amountBaseUnits = -amount)) :
    confirmedShare miner hash rows =
      (if blockKey (some miner) .rewardMature hash ∈ rows.map LedgerEntry.ledgerKey
        then amount else 0) -
      (if precedes (rows.map LedgerEntry.ledgerKey) (blockKey (some miner) .rewardMature hash)
          (blockKey (some miner) .rewardOrphanReversal hash) then amount else 0) := by
  have differ : blockKey (some miner) .rewardMature hash ≠
      blockKey (some miner) .rewardOrphanReversal hash := by
    simp [blockKey]
  induction rows using List.reverseRecOn with
  | nil => rfl
  | append_singleton rows entry ih =>
      rw [List.map_append, List.nodup_append] at unique
      have fresh : entry.ledgerKey ∉ rows.map LedgerEntry.ledgerKey := by
        intro member
        exact unique.2.2 _ member _ (by simp) rfl
      have last := shape entry (by simp)
      rw [confirmedShare_append miner hash rows fun block here own =>
          (last block here own).imp_right (Or.imp And.left And.left),
        ih unique.1 fun x member => shape x (List.mem_append_left _ member)]
      simp only [List.map_append, List.map_cons, List.map_nil, Theory.precedes_snoc differ,
        List.mem_append, List.mem_singleton]
      -- a key that is new here cannot have come before
      have ordered : ∀ k k', entry.ledgerKey = k ∨ entry.ledgerKey = k' →
          precedes (rows.map LedgerEntry.ledgerKey) k k' = false := by
        intro k k' new
        rw [Bool.eq_false_iff]
        intro before
        rcases new with rfl | rfl
        · exact fresh (Theory.precedes_mem before).1
        · exact fresh (Theory.precedes_mem before).2
      by_cases mature : entry.ledgerKey = blockKey (some miner) .rewardMature hash
      · have amount_ : entry.amountBaseUnits = amount := by
          have kind : entry.kind = .rewardMature := congrArg LedgerKey.kind mature
          simpa [kind] using last (congrArg LedgerKey.refType mature)
            (congrArg LedgerKey.refId mature) (congrArg LedgerKey.miner mature)
        rw [mature] at fresh
        simp [mature, fresh, ordered _ _ (.inl mature), amount_]
      · by_cases reversal : entry.ledgerKey = blockKey (some miner) .rewardOrphanReversal hash
        · have amount_ : entry.amountBaseUnits = -amount := by
            have kind : entry.kind = .rewardOrphanReversal := congrArg LedgerKey.kind reversal
            simpa [kind] using last (congrArg LedgerKey.refType reversal)
              (congrArg LedgerKey.refId reversal) (congrArg LedgerKey.miner reversal)
          rw [ordered _ _ (.inr reversal)]
          by_cases ripe : blockKey (some miner) .rewardMature hash ∈
              rows.map LedgerEntry.ledgerKey
          · simp [reversal, ripe, amount_, differ.symm]
          · simp [reversal, ripe, differ, differ.symm]
        · simp [mature, reversal, Ne.symm mature]

/-! ## A reversed block nets zero -/

/-- A block all of whose rewards are reversed, and that carries no fee. -/
structure Reversed (hash : String) (ledger : Table LedgerEntry) : Prop where
  kinds : ∀ entry ∈ ledger.rows, entry.refType = "block" → entry.refId = hash →
    entry.kind = .rewardImmature ∨ entry.kind = .rewardMature ∨ entry.kind = .rewardOrphanReversal
  undone : ∀ entry ∈ ledger.rows, entry.kind = .rewardImmature → entry.refType = "block" →
    entry.refId = hash →
    Db.follow .rewardOrphanReversal (-entry.amountBaseUnits) entry ∈ ledger.rows
  follows : ∀ entry ∈ ledger.rows, entry.kind = .rewardOrphanReversal → entry.refId = hash →
    ∃ reward ∈ ledger.rows, reward.kind = .rewardImmature ∧ reward.refType = "block" ∧
      entry = Db.follow .rewardOrphanReversal (-reward.amountBaseUnits) reward

theorem sum_netAmount {rows : List LedgerEntry}
    (kinds : ∀ entry ∈ rows, entry.kind = .rewardImmature ∨ entry.kind = .rewardMature ∨
      entry.kind = .rewardOrphanReversal) :
    (rows.map netAmount).sum =
      ((rows.filter fun entry => entry.kind = .rewardImmature).map (·.amountBaseUnits)).sum +
        ((rows.filter fun entry => entry.kind = .rewardOrphanReversal).map
          (·.amountBaseUnits)).sum := by
  induction rows with
  | nil => rfl
  | cons entry rest ih =>
      have tail := ih fun x member => kinds x (List.mem_cons_of_mem _ member)
      rw [List.map_cons, List.sum_cons, tail]
      rcases kinds entry (List.mem_cons_self ..) with kind | kind | kind
      · simp [netAmount, kind]; omega
      · simp [netAmount, kind]
      · simp [netAmount, kind]; omega

theorem netTotal_reversed {hash : String} {ledger : Table LedgerEntry}
    (reversed : Reversed hash ledger) : netTotal hash ledger.rows = 0 := by
  have inBlock : ∀ entry, entry ∈ blockRows hash ledger.rows ↔
      entry ∈ ledger.rows ∧ entry.refType = "block" ∧ entry.refId = hash := by
    intro entry
    simp [blockRows]
  have nodup : (blockRows hash ledger.rows).Nodup := (ledger.unique.of_map _).filter _
  unfold netTotal
  rw [sum_netAmount fun entry member =>
    reversed.kinds entry ((inBlock entry).1 member).1 ((inBlock entry).1 member).2.1
      ((inBlock entry).1 member).2.2]
  -- reversals and rewards are the same pairs of miner and amount
  have paired : ((blockRows hash ledger.rows).filter fun entry =>
        entry.kind = .rewardOrphanReversal).map (fun entry => (entry.miner, entry.amountBaseUnits))
      |>.Perm (((blockRows hash ledger.rows).filter fun entry =>
        entry.kind = .rewardImmature).map fun entry => (entry.miner, -entry.amountBaseUnits)) := by
    have distinct : ∀ kind : LedgerKind, ∀ f : LedgerEntry → Int,
        (((blockRows hash ledger.rows).filter fun entry => entry.kind = kind).map
          fun entry => (entry.miner, f entry)).Nodup := by
      intro kind f
      refine List.Nodup.map_on ?_ (nodup.filter _)
      intro x xIn y yIn same
      obtain ⟨xBlock, xKind⟩ := List.mem_filter.1 xIn
      obtain ⟨yBlock, yKind⟩ := List.mem_filter.1 yIn
      rw [inBlock] at xBlock yBlock
      refine List.inj_on_of_nodup_map ledger.unique xBlock.1 yBlock.1 ?_
      have miner : x.miner = y.miner := congrArg Prod.fst same
      simp only [Keyed.key, LedgerEntry.ledgerKey, LedgerKey.mk.injEq]
      simp only [decide_eq_true_eq] at xKind yKind
      exact ⟨miner, xKind.trans yKind.symm, xBlock.2.1.trans yBlock.2.1.symm,
        xBlock.2.2.trans yBlock.2.2.symm⟩
    rw [List.perm_ext_iff_of_nodup (distinct _ _) (distinct _ _)]
    rintro ⟨miner, amount⟩
    simp only [List.mem_map, List.mem_filter, inBlock, decide_eq_true_eq, Prod.mk.injEq]
    constructor
    · rintro ⟨entry, ⟨⟨member, -, here⟩, kind⟩, rfl, rfl⟩
      obtain ⟨reward, inLedger, rewardKind, block, rfl⟩ := reversed.follows entry member kind here
      exact ⟨reward, ⟨⟨inLedger, block, here⟩, rewardKind⟩, rfl, rfl⟩
    · rintro ⟨reward, ⟨⟨member, block, here⟩, kind⟩, rfl, rfl⟩
      exact ⟨_, ⟨⟨reversed.undone reward member kind block here, rfl, here⟩, rfl⟩, rfl, rfl⟩
  have sums := (paired.map Prod.snd).sum_eq
  simp only [List.map_map, Function.comp_def] at sums
  rw [sums, ← List.sum_map_add]
  simp

end CsdPool.Rewards
