/-
# Rewards.Isolation — one bad item and the others

The worker loops over pending blocks, submitted batches and confirmed blocks, each
a whole run alone on the database.  A failed call is passed out of the middle of
the loop, the listings are oldest first, and each is cut at a hundred rows, so an
item is only reached past everything before it.

`isolation_iff` says exactly when one bad item does not block the others: nothing
that ends the run stands before an answered item, and before a confirmed block with
shares stand fewer than a hundred that can never be settled.
-/
import CsdPool.Rewards.Reorg
import CsdPool.Rewards.Starvation
import CsdPool.Payout.Reconcile

namespace CsdPool.Rewards

open Theory (Table attempts landed)

set_option autoImplicit false

/-! ## Polling -/

section Polling

variable (answers : String → Except String BlockStatusResponse) (clock : String → Nat)
  (required : Nat)

/-- One turn of the loop of `reconcile_blocks`. -/
def reconcileBlock (db : Db) (block : BlockRecord) : Except Db Db :=
  match answers block.hashHex with
  | .error _ => .error db
  | .ok status =>
      match db.updateBlockStatus (blockUpdateFromStatus block.hashHex status required)
          (clock block.hashHex) with
      | .error _ => .error db
      | .ok (_, db) => .ok db

/-- The database after the run, and the blocks of its `updates`. -/
def reconcileBlocksRun (db : Db) : Db × List BlockRecord :=
  match db.listBlocksToReconcile 100 with
  | .error _ => (db, [])
  | .ok pending => attempts (reconcileBlock answers clock required) db pending

/-- Every listed block whose own status call succeeded gets the update of the answer. -/
def BlocksUpdated (db : Db) : Prop :=
  ∀ row ∈ db.pollable.take 100, ∀ status, answers row.hash = .ok status →
    row.hash ∈ (reconcileBlocksRun answers clock required db).2.map (·.hashHex) ∧
      (reconcileBlocksRun answers clock required db).1.blocks.find? row.hash =
        some (Db.setStatus (blockUpdateFromStatus row.hash status required) (clock row.hash) row)

/-- The listing reads the row: its height, a `u64` stored as a `bigint`, is not negative. -/
def readable (row : BlockRow) : Bool := row.height.all fun height => 0 ≤ height

/-- The node answers, with a count of confirmations that fits the column. -/
def updatable (hash : String) : Bool :=
  match answers hash with
  | .error _ => false
  | .ok status => status.confirmations < 2 ^ 31

def BlocksUnblocked (db : Db) : Prop :=
  ∀ row ∈ db.pollable.take 100, ∀ status, answers row.hash = .ok status →
    (∀ other ∈ db.pollable.take 100, readable other = true) ∧
      ∃ before after, db.pollable.take 100 = before ++ row :: after ∧
        (∀ other ∈ before, updatable answers other.hash = true) ∧
          updatable answers row.hash = true

end Polling

section Polled

variable {answers : String → Except String BlockStatusResponse} {clock : String → Nat}
  {required : Nat} {db : Db}

/-- **What a turn can do**: stop, or write the update of the answer. -/
theorem reconcileBlock_cases (db : Db) (block : BlockRecord) :
    (reconcileBlock answers clock required db block = .error db ∧
        updatable answers block.hashHex = false) ∨
      ∃ status hit after, answers block.hashHex = .ok status ∧
        db.updateBlockStatus (blockUpdateFromStatus block.hashHex status required)
          (clock block.hashHex) = .ok (hit, after) ∧
        reconcileBlock answers clock required db block = .ok after ∧
        updatable answers block.hashHex = true := by
  unfold reconcileBlock updatable
  cases answers block.hashHex with
  | error e => exact .inl ⟨rfl, rfl⟩
  | ok status =>
      have fits : (∃ result, db.updateBlockStatus (blockUpdateFromStatus block.hashHex status
          required) (clock block.hashHex) = .ok result) ↔ status.confirmations < 2 ^ 31 :=
        Db.updateBlockStatus_isOk
      cases updated : db.updateBlockStatus (blockUpdateFromStatus block.hashHex status required)
          (clock block.hashHex) with
      | error e =>
          rw [updated] at fits
          refine .inl ⟨?_, ?_⟩
          · show (match db.updateBlockStatus (blockUpdateFromStatus block.hashHex status required)
              (clock block.hashHex) with
                | .error _ => .error db
                | .ok (_, db) => .ok db) = Except.error db
            rw [updated]
          · simpa using fits
      | ok result =>
          rw [updated] at fits
          refine .inr ⟨status, result.1, result.2, rfl, updated, ?_, ?_⟩
          · show (match db.updateBlockStatus (blockUpdateFromStatus block.hashHex status required)
              (clock block.hashHex) with
                | .error _ => .error db
                | .ok (_, db) => .ok db) = Except.ok result.2
            rw [updated]
          · simpa using fits

theorem reconcileBlock_isOk (db : Db) (block : BlockRecord) :
    (∃ after, reconcileBlock answers clock required db block = .ok after) ↔
      updatable answers block.hashHex = true := by
  rcases reconcileBlock_cases db block with ⟨stopped, bad⟩ | ⟨status, hit, after, -, -, went, good⟩
  · rw [stopped, bad]; simp
  · rw [went, good]; simp

theorem toBlockRecord_isOk (row : BlockRow) :
    (∃ record, Db.toBlockRecord row = .ok record) ↔ readable row = true := by
  unfold Db.toBlockRecord readable
  cases row.height with
  | none => simp
  | some height =>
      by_cases positive : 0 ≤ height
      · simp [positive]
      · simp [positive]

theorem listBlocksToReconcile_isOk (limit : Nat) :
    (∃ pending, db.listBlocksToReconcile limit = .ok pending) ↔
      ∀ row ∈ db.pollable.take limit, readable row = true := by
  constructor
  · rintro ⟨pending, listed⟩ row member
    obtain ⟨record, -, read⟩ := Theory.mapM_mem listed member
    exact (toBlockRecord_isOk row).1 ⟨record, read⟩
  · intro reads
    exact Theory.mapM_total fun row member => (toBlockRecord_isOk row).2 (reads row member)

/-- The rows of other blocks are left alone. -/
theorem reconcileBlock_frame {block : BlockRecord} {hash : String} (other : hash ≠ block.hashHex) :
    (landed (reconcileBlock answers clock required db block)).blocks.find? hash =
      db.blocks.find? hash := by
  rcases reconcileBlock_cases db block with ⟨stopped, -⟩ | ⟨status, hit, after, -, updated, went, -⟩
  · rw [stopped]; rfl
  · rw [went]
    show after.blocks.find? hash = db.blocks.find? hash
    rw [Db.find?_updateBlockStatus updated]
    simp [blockUpdateFromStatus, other]

theorem attempts_pollBlocks {now : Nat} {mid : Db} {queue : List BlockRecord}
    (polled : pollBlocks answers required now queue db = some mid) :
    (attempts (reconcileBlock answers (fun _ => now) required) db queue).1 = mid := by
  induction queue generalizing db with
  | nil => cases polled; rfl
  | cons block rest ih =>
      simp only [pollBlocks] at polled
      split at polled
      · cases polled
      · rename_i status asked
        split at polled
        · cases polled
        · rename_i hit after updated
          have went : reconcileBlock answers (fun _ => now) required db block = .ok after := by
            simp only [reconcileBlock, asked, updated]
          rw [Theory.attempts_ok went]
          exact ih polled

/-- A run that nothing ends early is the poll of a full cycle. -/
theorem reconcileBlocksRun_complete {now : Nat} {mid : Db}
    (reconciled : reconcileBlocks answers required now db = some mid) :
    (reconcileBlocksRun answers (fun _ => now) required db).1 = mid := by
  unfold reconcileBlocks at reconciled
  unfold reconcileBlocksRun
  cases listed : db.listBlocksToReconcile 100 with
  | error e => rw [listed] at reconciled; cases reconciled
  | ok pending =>
      rw [listed] at reconciled
      exact attempts_pollBlocks reconciled

/-- The updates made are those of the listed blocks up to the first that ends the run. -/
theorem reconcileBlocksRun_updates {pending : List BlockRecord}
    (listed : db.listBlocksToReconcile 100 = .ok pending) :
    (reconcileBlocksRun answers clock required db).2.map (·.hashHex) =
      ((db.pollable.take 100).takeWhile fun row => updatable answers row.hash).map (·.hash) := by
  have done : (reconcileBlocksRun answers clock required db).2 =
      pending.takeWhile fun block => updatable answers block.hashHex := by
    unfold reconcileBlocksRun
    rw [listed]
    exact Theory.attempts_done reconcileBlock_isOk db pending
  calc (reconcileBlocksRun answers clock required db).2.map (·.hashHex)
      = (pending.map (·.hashHex)).takeWhile (updatable answers) := by
        rw [done, List.takeWhile_map]; rfl
    _ = ((db.pollable.take 100).map (·.hash)).takeWhile (updatable answers) := by
        rw [Db.listed_poll listed]
    _ = ((db.pollable.take 100).takeWhile fun row => updatable answers row.hash).map (·.hash) := by
        rw [List.takeWhile_map]; rfl

/-- Whatever a run gets through carries the update of its answer. -/
theorem reconcileBlocksRun_effect {pending : List BlockRecord}
    (listed : db.listBlocksToReconcile 100 = .ok pending) {hash : String}
    (done : hash ∈ (reconcileBlocksRun answers clock required db).2.map (·.hashHex))
    {status : BlockStatusResponse} (answered : answers hash = .ok status) :
    (reconcileBlocksRun answers clock required db).1.blocks.find? hash =
      (db.blocks.find? hash).map
        (Db.setStatus (blockUpdateFromStatus hash status required) (clock hash)) := by
  obtain ⟨block, member, rfl⟩ := List.mem_map.1 done
  unfold reconcileBlocksRun at member ⊢
  rw [listed] at member ⊢
  have distinct : (pending.map (·.hashHex)).Nodup := by
    rw [Db.listed_poll listed]
    exact db.pollable_nodup.sublist ((List.take_sublist ..).map _)
  refine Theory.attempts_effect
    (fun block s => s.blocks.find? block.hashHex = db.blocks.find? block.hashHex)
    (fun block s => ∀ status, answers block.hashHex = .ok status →
      s.blocks.find? block.hashHex = (db.blocks.find? block.hashHex).map
        (Db.setStatus (blockUpdateFromStatus block.hashHex status required)
          (clock block.hashHex)))
    BlockRecord.hashHex ?_ ?_ ?_ distinct (fun _ _ => rfl) block member status answered
  · intro block s t untouched stepped status answered
    rcases reconcileBlock_cases s block with
      ⟨stopped, -⟩ | ⟨status', hit, after, asked, updated, went, -⟩
    · rw [stepped] at stopped; cases stopped
    · rw [went] at stepped
      rw [answered] at asked
      cases asked
      cases stepped
      rw [Db.find?_updateBlockStatus updated, untouched]
      simp [blockUpdateFromStatus]
  · intro block other s different untouched
    rw [reconcileBlock_frame different]
    exact untouched
  · intro block other s different updated status answered
    rw [reconcileBlock_frame different]
    exact updated status answered

/-- **When a run reaches every answered block.** -/
theorem blocks_updated_iff :
    BlocksUpdated answers clock required db ↔ BlocksUnblocked answers db := by
  have inTable : ∀ row ∈ db.pollable.take 100, row ∈ db.blocks.rows := fun row member =>
    (Db.mem_pollable.1 (List.mem_of_mem_take member)).1
  constructor
  · intro updated row listed status answered
    have done := (updated row listed status answered).1
    have reads : ∃ pending, db.listBlocksToReconcile 100 = .ok pending := by
      cases read : db.listBlocksToReconcile 100 with
      | error e => simp [reconcileBlocksRun, read] at done
      | ok pending => exact ⟨pending, rfl⟩
    obtain ⟨pending, read⟩ := reads
    rw [reconcileBlocksRun_updates read] at done
    obtain ⟨other, inDone, same⟩ := List.mem_map.1 done
    have inList := (List.takeWhile_sublist _).subset inDone
    have equal : other = row :=
      List.inj_on_of_nodup_map db.blocks.unique (inTable other inList) (inTable row listed) same
    exact ⟨(listBlocksToReconcile_isOk 100).1 ⟨pending, read⟩,
      Theory.mem_takeWhile_iff.1 (equal ▸ inDone)⟩
  · intro unblocked row listed status answered
    obtain ⟨reads, split⟩ := unblocked row listed status answered
    obtain ⟨pending, read⟩ := (listBlocksToReconcile_isOk 100).2 reads
    have done : row.hash ∈ (reconcileBlocksRun answers clock required db).2.map (·.hashHex) := by
      rw [reconcileBlocksRun_updates read]
      exact List.mem_map_of_mem (Theory.mem_takeWhile_iff.2 split)
    refine ⟨done, ?_⟩
    have stored : db.blocks.find? row.hash = some row := Table.find?_of_mem (inTable row listed)
    rw [reconcileBlocksRun_effect read done answered, stored]
    rfl

end Polled

/-! ## All three loops -/

/-- **When one bad item does not block the others.** -/
theorem isolation_iff (answers : String → Except String BlockStatusResponse)
    (clock : String → Nat) (required : Nat)
    (transactions : String → Except String TransactionStatusResponse) (fees : Nat → FeeBps)
    (db : Db) :
    (BlocksUpdated answers clock required db ↔ BlocksUnblocked answers db) ∧
      (Payout.PayoutsUpdated transactions db ↔ Payout.PayoutsUnblocked transactions db) ∧
      (BlocksSettled fees db ↔ BlocksReached db) :=
  ⟨blocks_updated_iff, Payout.payouts_updated_iff, blocks_settled_iff fees db⟩

namespace Sample

/-- A block of the job, submitted and confirmed at one time. -/
def blockRow (hash jobId : String) (status : BlockStatus) (now : Nat) : BlockRow where
  hash := hash
  jobId := some jobId
  status := status
  height := none
  confirmations := 0
  rewardBaseUnits := 1000
  submittedAt := some now
  confirmedAt := some now
  orphanedAt := none

def withBlocks (rows : List BlockRow) : Db :=
  { Db.migrated with
    shares := (Table.empty.insert (share miner "00000001")).1
    blocks := rows.foldl (fun blocks row => (blocks.insert row).1) .empty }

def newer : BlockRow := blockRow "newer" "job" .submitted 2

def twoPending : Db := withBlocks [blockRow "older" "job" .submitted 1, newer]

/-- The call for the older of the two fails. -/
def olderUnknown : String → Except String BlockStatusResponse := fun hash =>
  if hash = "older" then .error "404" else .ok ⟨hash, "seen", none, 1, none, .null⟩

def worked : BlockRow := blockRow "worked" "job" .confirmed 100

/-- A hundred confirmed blocks of a job without shares, and one of the job with a share. -/
def crowded : Db :=
  withBlocks ((List.range 100).map (fun i => blockRow (toString i) "unworked" .confirmed i) ++
    [worked])

end Sample

/-- A failed call keeps the update from the block behind it, and a hundred blocks without
shares keep the settlement from the block behind them, whatever the fees. -/
theorem bad_item_blocks : ¬BlocksUpdated Sample.olderUnknown (fun _ => 3) 10 Sample.twoPending ∧
    ∀ fees, ¬BlocksSettled fees Sample.crowded := by
  constructor
  · intro updated
    have answered : Sample.olderUnknown "newer" = .ok ⟨"newer", "seen", none, 1, none, .null⟩ :=
      if_neg (by decide)
    have done := (updated Sample.newer (by decide +kernel) _ answered).1
    have nothing : (reconcileBlocksRun Sample.olderUnknown (fun _ => 3) 10 Sample.twoPending).2 =
        [] := by decide +kernel
    rw [nothing] at done
    cases done
  · intro fees settled
    have stuck : Sample.worked ∈
        Theory.residue (settleFate Sample.crowded) 100 Sample.crowded.unsettled := by
      decide +kernel
    have listed := (Theory.residue_sublist 100 _).subset stuck
    have shares : HasShares Sample.crowded Sample.worked :=
      ⟨Sample.share Sample.miner "00000001", by decide +kernel, rfl⟩
    have inRows := (Db.mem_unsettled.1 listed).1
    exact (settled_iff listed).1 (settled Sample.worked inRows rfl (by decide) shares) stuck

end CsdPool.Rewards
