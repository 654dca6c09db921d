/-
# Db.Blocks — block rows and what the reward workers list

`BlockRepository` and `RewardRepository` on the database.  Each listing is a
`select … where … order by … limit` over one table, read row by row by a fallible
conversion; the `where` clause is a definition of its own (`pollable`,
`unsettled`, `maturing`, `reversible`), since the limits and the workers' claims
speak about different parts of a listing.

A block row is changed only by `updateBlockStatus`, which overwrites status,
height, confirmations and reward with the node's answer and keeps the first
`confirmed_at` and `orphaned_at`.
-/
import CsdPool.Db.Ledger
import CsdPool.Theory.Passes
import Mathlib.Data.List.Sort
import Mathlib.Data.Rat.Floor

namespace CsdPool

open Theory (Keyed Table)

set_option autoImplicit false

/-- What the reconciling worker reads of a block. The height is unsigned here and signed in the
column. -/
structure BlockRecord where
  hashHex : String
  jobId : String
  status : BlockStatus
  height : Option Nat
  confirmations : Nat
  rewardBaseUnits : Nat
  deriving DecidableEq, Repr

/-- A new status for a block, with the figures of the node's answer it was made from. -/
structure BlockStatusUpdate where
  hashHex : String
  status : BlockStatus
  height : Option Nat
  confirmations : Nat
  rewardBaseUnits : Nat
  deriving DecidableEq, Repr

/-- What a settlement reads of a block; a missing reference to a job is read as the empty text. -/
structure RewardBlock where
  hashHex : String
  jobId : String
  rewardBaseUnits : Nat
  deriving DecidableEq, Repr

/-- `asc nulls last`. -/
def ascNullsLast : Option Nat → Option Nat → Bool
  | some a, some b => a ≤ b
  | some _, none => true
  | none, some _ => false
  | none, none => true

namespace Db

/-! ## Polling -/

/-- The statuses `list_blocks_to_reconcile` asks for. -/
def polledStatuses : List BlockStatus :=
  [.submitted, .submittedSecondary, .submittedDegraded, .relayFailed, .seenOnChain, .immature]

/-- A negative height does not convert, and the whole listing fails with it. -/
def toBlockRecord (row : BlockRow) : Except RepositoryError BlockRecord :=
  let record (height : Option Nat) : BlockRecord :=
    { hashHex := row.hash
      jobId := row.jobId.getD ""
      status := row.status
      height := height
      confirmations := row.confirmations
      rewardBaseUnits := row.rewardBaseUnits }
  match row.height with
  | none => .ok (record none)
  | some height =>
      if 0 ≤ height then .ok (record (some height.toNat)) else .error .intConversion

/-- The rows `list_blocks_to_reconcile` selects, before its limit. -/
def pollable (db : Db) : List BlockRow :=
  (db.blocks.rows.filter fun row => polledStatuses.contains row.status).insertionSort
    fun a b => ascNullsLast a.submittedAt b.submittedAt

/-- The blocks to ask the node about, those submitted first in front; a confirmed or an orphaned
block is not among them. -/
def listBlocksToReconcile (db : Db) (limit : Nat) : Except RepositoryError (List BlockRecord) :=
  (db.pollable.take limit).mapM toBlockRecord

/-- The row after an update that passed its integer conversions. -/
def setStatus (update : BlockStatusUpdate) (now : Nat) (row : BlockRow) : BlockRow :=
  { row with
    status := update.status
    height := update.height.map asI64
    confirmations := update.confirmations
    rewardBaseUnits := update.rewardBaseUnits
    confirmedAt := if update.status = .confirmed then some (row.confirmedAt.getD now)
      else row.confirmedAt
    orphanedAt := if update.status = .orphaned then some (row.orphanedAt.getD now)
      else row.orphanedAt }

/-- The confirmations are converted before the statement runs. The flag tells whether there was a
row; its previous status is not looked at. -/
def updateBlockStatus (db : Db) (update : BlockStatusUpdate) (now : Nat) :
    Except RepositoryError (Bool × Db) :=
  match i32TryFrom update.confirmations with
  | .error e => .error e
  | .ok _ =>
      let (blocks, updated) :=
        db.blocks.update update.hashHex (fun _ => true) (setStatus update now)
      .ok (updated, { db with blocks })

/-! ## Settlement -/

/-- Some `reward_immature` or `pool_fee` entry refers to the block. -/
def hasReward (db : Db) (hash : String) : Bool :=
  db.books.ledgerEntries.rows.any fun e =>
    e.refType = "block" && e.refId = hash &&
      (e.kind = .rewardImmature || e.kind = .poolFee)

def toRewardBlock (row : BlockRow) : RewardBlock where
  hashHex := row.hash
  jobId := row.jobId.getD ""
  rewardBaseUnits := row.rewardBaseUnits

/-- The rows `list_confirmed_unsettled_blocks` selects, before its limit. -/
def unsettled (db : Db) : List BlockRow :=
  (db.blocks.rows.filter fun row =>
      row.status = .confirmed && 0 < row.rewardBaseUnits && row.jobId.isSome &&
        !db.hasReward row.hash).insertionSort
    fun a b => ascNullsLast a.confirmedAt b.confirmedAt

/-- The confirmed blocks with a reward and a job that no reward entry refers to yet. -/
def listConfirmedUnsettledBlocks (db : Db) (limit : Nat) : List RewardBlock :=
  (db.unsettled.take limit).map toRewardBlock

/-- The integer part of a numeric's text, parsed as `u64`. -/
def parseIntegerPart (difficulty : ℚ) : Except RepositoryError Nat :=
  if 0 ≤ difficulty ∧ difficulty.floor < 2 ^ 64 then .ok difficulty.floor.toNat
  else .error .parseInt

/-- One weight a miner: the sum of its rows, read from the integer part of its text. A sum that does
not fit a `u64` fails the whole listing. -/
def shareWeightsForJob (db : Db) (jobId : String) : Except RepositoryError (List ShareWeight) :=
  let shares := db.shares.rows.filter fun share => share.jobId = jobId
  (((shares.map (·.miner)).dedup).insertionSort (· ≤ ·)).mapM fun miner =>
    (parseIntegerPart ((shares.filter fun share => share.miner = miner).map
      (·.difficulty)).sum).map fun difficulty => ⟨miner, difficulty⟩

/-! ## Maturing and reversing -/

/-- The block a reward entry refers to. -/
def blockOf (db : Db) (entry : LedgerEntry) : Option BlockRow := db.blocks.find? entry.refId

/-- The entry's miner has an entry of `kind` with the same reference. -/
def hasSibling (db : Db) (kind : LedgerKind) (entry : LedgerEntry) : Bool :=
  db.books.ledgerEntries.contains ⟨entry.miner, kind, entry.refType, entry.refId⟩

/-- A miner's `reward_immature` entry for a block with `p` that has no entry of `kind` yet. -/
def awaits (db : Db) (kind : LedgerKind) (p : BlockRow → Bool) (entry : LedgerEntry) : Bool :=
  entry.kind = .rewardImmature && entry.refType = "block" && entry.miner.isSome &&
    (db.blockOf entry).any p && !db.hasSibling kind entry

/-- The entries `list_mature_reward_entries` selects, before its limit. -/
def maturing (db : Db) (depth : Nat) : List LedgerEntry :=
  (db.books.ledgerEntries.rows.filter (db.awaits .rewardMature fun row =>
      row.status = .confirmed && depth ≤ row.confirmations)).insertionSort
    fun a b => ascNullsLast ((db.blockOf a).bind (·.confirmedAt))
      ((db.blockOf b).bind (·.confirmedAt))

/-- The entry that moves a miner's reward of a block from immature to confirmed. -/
def toMature (immature : LedgerEntry) : Except RepositoryError LedgerEntry :=
  (parseI128 immature.amountBaseUnits).map fun amount =>
    { miner := immature.miner, amountBaseUnits := amount, kind := .rewardMature,
      refType := "block", refId := immature.refId }

/-- The rewards of confirmed blocks that are deep enough and have not matured yet, those confirmed
first in front. -/
def listMatureRewardEntries (db : Db) (confirmDepth limit : Nat) :
    Except RepositoryError (List LedgerEntry) :=
  match i32TryFrom confirmDepth with
  | .error e => .error e
  | .ok depth => ((db.maturing depth).take limit).mapM toMature

/-- The entries `list_orphan_reversal_entries` selects, before its limit. -/
def reversible (db : Db) : List LedgerEntry :=
  (db.books.ledgerEntries.rows.filter (db.awaits .rewardOrphanReversal fun row =>
      row.status = .orphaned)).insertionSort
    fun a b => ascNullsLast ((db.blockOf a).bind (·.orphanedAt))
      ((db.blockOf b).bind (·.orphanedAt))

/-- `('-' || amount::text).parse::<i128>()`; a second sign does not parse. -/
def parseNegated (amount : Int) : Except RepositoryError Int :=
  if 0 ≤ amount then parseI128 (-amount) else .error .parseInt

/-- The entry that takes a reward back. -/
def toReversal (immature : LedgerEntry) : Except RepositoryError LedgerEntry :=
  (parseNegated immature.amountBaseUnits).map fun amount =>
    { miner := immature.miner, amountBaseUnits := amount, kind := .rewardOrphanReversal,
      refType := "block", refId := immature.refId }

/-- The rewards of orphaned blocks that were not taken back yet. The pool's fee is not among them.
-/
def listOrphanReversalEntries (db : Db) (limit : Nat) :
    Except RepositoryError (List LedgerEntry) :=
  (db.reversible.take limit).mapM toReversal

/-! ## What an update does -/

/-- All that an update does: the row under the hash, if there is one. -/
theorem updateBlockStatus_ok {db db' : Db} {update : BlockStatusUpdate} {now : Nat} {hit : Bool}
    (updated : db.updateBlockStatus update now = .ok (hit, db')) :
    hit = (db.blocks.find? update.hashHex).isSome ∧
      db' = { db with
        blocks := (db.blocks.update update.hashHex (fun _ => true) (setStatus update now)).1 } := by
  unfold updateBlockStatus at updated
  split at updated
  · cases updated
  · cases updated
    refine ⟨?_, rfl⟩
    have flag := Table.update_snd db.blocks update.hashHex (fun _ => true) (setStatus update now)
      (fun _ => rfl)
    rw [Option.any_true] at flag
    exact flag

/-- An update fails for nothing but its confirmations. -/
theorem updateBlockStatus_isOk {db : Db} {update : BlockStatusUpdate} {now : Nat} :
    (∃ result, db.updateBlockStatus update now = .ok result) ↔ update.confirmations < 2 ^ 31 := by
  unfold updateBlockStatus
  by_cases fits : update.confirmations < 2 ^ 31
  · have converted : i32TryFrom update.confirmations = .ok update.confirmations := if_pos fits
    simp only [converted, fits, iff_true]
    exact ⟨_, rfl⟩
  · have refused : i32TryFrom update.confirmations = .error .intConversion := if_neg fits
    simp only [refused, reduceCtorEq, exists_false, fits]

theorem find?_updateBlockStatus {db db' : Db} {update : BlockStatusUpdate} {now : Nat} {hit : Bool}
    (updated : db.updateBlockStatus update now = .ok (hit, db')) (hash : String) :
    db'.blocks.find? hash = (db.blocks.find? hash).map fun row =>
      if hash = update.hashHex then setStatus update now row else row := by
  obtain ⟨-, rfl⟩ := updateBlockStatus_ok updated
  have found := Table.find?_update db.blocks update.hashHex (fun _ => true)
    (setStatus update now) (fun _ => rfl) hash
  simpa only [and_true] using found

/-! ## What the listings hold -/

theorem mem_pollable {db : Db} {row : BlockRow} :
    row ∈ db.pollable ↔ row ∈ db.blocks.rows ∧ row.status ∈ polledStatuses := by
  simp [pollable, List.mem_insertionSort]

theorem mem_unsettled {db : Db} {row : BlockRow} :
    row ∈ db.unsettled ↔ row ∈ db.blocks.rows ∧ row.status = .confirmed ∧
      0 < row.rewardBaseUnits ∧ row.jobId.isSome ∧ db.hasReward row.hash = false := by
  simp [unsettled, List.mem_insertionSort, and_assoc]

/-- A block is listed once. -/
theorem pollable_nodup (db : Db) : (db.pollable.map (·.hash)).Nodup :=
  Theory.nodup_listing db.blocks.unique _

/-- A block is listed once. -/
theorem unsettled_nodup (db : Db) : (db.unsettled.map (·.hash)).Nodup :=
  Theory.nodup_listing db.blocks.unique _

theorem mem_maturing {db : Db} {depth : Nat} {entry : LedgerEntry} :
    entry ∈ db.maturing depth ↔ entry ∈ db.books.ledgerEntries.rows ∧
      db.awaits .rewardMature (fun row => row.status = .confirmed && depth ≤ row.confirmations)
        entry = true := by
  simp [maturing, List.mem_insertionSort]

theorem mem_reversible {db : Db} {entry : LedgerEntry} :
    entry ∈ db.reversible ↔ entry ∈ db.books.ledgerEntries.rows ∧
      db.awaits .rewardOrphanReversal (fun row => row.status = .orphaned) entry = true := by
  simp [reversible, List.mem_insertionSort]

theorem awaits_iff {db : Db} {kind : LedgerKind} {p : BlockRow → Bool} {entry : LedgerEntry} :
    db.awaits kind p entry = true ↔ entry.kind = .rewardImmature ∧ entry.refType = "block" ∧
      entry.miner.isSome ∧ (∃ row, db.blocks.find? entry.refId = some row ∧ p row = true) ∧
      db.books.ledgerEntries.find? ⟨entry.miner, kind, entry.refType, entry.refId⟩ = none := by
  simp [awaits, hasSibling, blockOf, Table.contains_eq_isSome, and_assoc, Option.any_eq_true]

/-- The entry of another kind for the same miner and block. -/
def follow (kind : LedgerKind) (amount : Int) (immature : LedgerEntry) : LedgerEntry :=
  ⟨immature.miner, amount, kind, "block", immature.refId⟩

theorem toMature_ok {immature entry : LedgerEntry} (read : toMature immature = .ok entry) :
    entry = follow .rewardMature immature.amountBaseUnits immature := by
  unfold toMature parseI128 at read
  split at read
  · cases read; rfl
  · cases read

theorem toReversal_ok {immature entry : LedgerEntry} (read : toReversal immature = .ok entry) :
    0 ≤ immature.amountBaseUnits ∧
      entry = follow .rewardOrphanReversal (-immature.amountBaseUnits) immature := by
  unfold toReversal parseNegated parseI128 at read
  split at read
  · rename_i positive
    split at read
    · cases read; exact ⟨positive, rfl⟩
    · cases read
  · cases read

/-- Every entry of the listing follows an immature reward that waits for it. -/
theorem listed_mature {db : Db} {confirmDepth limit : Nat} {entries : List LedgerEntry}
    (listed : db.listMatureRewardEntries confirmDepth limit = .ok entries) :
    ∀ entry ∈ entries, ∃ immature ∈ db.maturing confirmDepth,
      entry = follow .rewardMature immature.amountBaseUnits immature := by
  intro entry member
  unfold listMatureRewardEntries i32TryFrom at listed
  split at listed
  · cases listed
  · rename_i depth fits
    split at fits
    · cases fits
      obtain ⟨immature, inRows, read⟩ := Theory.mem_mapM listed member
      exact ⟨immature, List.mem_of_mem_take inRows, toMature_ok read⟩
    · cases fits

/-- Every entry of the listing takes back a whole reward, and none of a negative amount. -/
theorem listed_reversal {db : Db} {limit : Nat} {entries : List LedgerEntry}
    (listed : db.listOrphanReversalEntries limit = .ok entries) :
    ∀ entry ∈ entries, ∃ immature ∈ db.reversible.take limit,
      0 ≤ immature.amountBaseUnits ∧
        entry = follow .rewardOrphanReversal (-immature.amountBaseUnits) immature := by
  intro entry member
  obtain ⟨immature, inRows, read⟩ := Theory.mem_mapM listed member
  exact ⟨immature, inRows, toReversal_ok read⟩

theorem listed_poll {db : Db} {limit : Nat} {queue : List BlockRecord}
    (listed : db.listBlocksToReconcile limit = .ok queue) :
    queue.map (·.hashHex) = (db.pollable.take limit).map (·.hash) := by
  have all := Theory.mapM_ok.1 listed
  clear listed
  generalize db.pollable.take limit = rows at all
  induction all with
  | nil => rfl
  | cons head _ ih =>
      rw [List.map_cons, List.map_cons, ih]
      congr 1
      unfold toBlockRecord at head
      dsimp only at head
      split at head
      · cases head; rfl
      · split at head
        · cases head; rfl
        · cases head

/-- A worker that lists nothing has nothing left, whatever the limit cuts off. -/
theorem maturing_nil {db : Db} {confirmDepth limit : Nat} (positive : 0 < limit)
    (listed : db.listMatureRewardEntries confirmDepth limit = .ok []) :
    db.maturing confirmDepth = [] := by
  unfold listMatureRewardEntries i32TryFrom at listed
  split at listed
  · cases listed
  · rename_i depth fits
    split at fits
    · cases fits
      cases rows : db.maturing confirmDepth with
      | nil => rfl
      | cons head tail =>
          obtain ⟨limit, rfl⟩ := Nat.exists_eq_succ_of_ne_zero (by omega : limit ≠ 0)
          rw [rows, List.take_succ_cons] at listed
          obtain ⟨_, none_, -⟩ := Theory.mapM_mem listed (List.mem_cons_self ..)
          cases none_
    · cases fits

/-- An empty listing leaves nothing to take back, whatever its limit. -/
theorem reversible_nil {db : Db} {limit : Nat} (positive : 0 < limit)
    (listed : db.listOrphanReversalEntries limit = .ok []) : db.reversible = [] := by
  cases rows : db.reversible with
  | nil => rfl
  | cons head tail =>
      obtain ⟨limit, rfl⟩ := Nat.exists_eq_succ_of_ne_zero (by omega : limit ≠ 0)
      rw [listOrphanReversalEntries, rows, List.take_succ_cons] at listed
      obtain ⟨_, none_, -⟩ := Theory.mapM_mem listed (List.mem_cons_self ..)
      cases none_

end Db

end CsdPool
