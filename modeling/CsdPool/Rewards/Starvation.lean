/-
# Rewards.Starvation — settling run after run

`settleRewards` is a whole run of `settle_rewards`, alone on the database: the
hundred oldest unsettled blocks in turn.  A block whose shares carry no weight is
skipped and stays listed; a job whose weights cannot be read, or whose entries the
database refuses, ends the run.

A run is one `Theory.pass` over the unsettled blocks (`unsettled_settle`), with the
fate of a block fixed by the shares of its job alone (`settleFate`): the fee may
change from run to run, the fates do not.  So a block is settled some day if and
only if its own fate is to be settled, nothing before it ends a run, and fewer than
a hundred blocks before it are skipped for ever (`blocks_settled_iff`).
-/
import CsdPool.Allocation
import CsdPool.Rewards.Invariants

namespace CsdPool.Rewards

open Theory (Table Fate attempts)

set_option autoImplicit false

/-! ## The run -/

/-- `pool_fee_bps` clamps what is configured. -/
abbrev FeeBps := { bps : Nat // bps ≤ 10000 }

/-- One turn of the loop of `settle_rewards`. -/
def settleBlock (feeBps : FeeBps) (db : Db) (block : RewardBlock) : Except Db Db :=
  match db.shareWeightsForJob block.jobId with
  | .error _ => .error db
  | .ok shares =>
      match settleRewardBlock block feeBps.1 shares with
      | .error _ => .ok db
      | .ok settlement =>
          match db.appendLedgerEntries settlement.ledgerEntries with
          | .error _ => .error db
          | .ok db => .ok db

def settleRewards (feeBps : FeeBps) (db : Db) : Db :=
  (attempts (settleBlock feeBps) db (db.listConfirmedUnsettledBlocks 100)).1

/-- The database after so many runs, each with the fee configured at its time. -/
def settleRuns (fees : Nat → FeeBps) : Nat → Db → Db
  | 0, db => db
  | n + 1, db => settleRewards (fees n) (settleRuns fees n db)

/-- What becomes of a block when its turn comes. -/
def settleFate (db : Db) (row : BlockRow) : Fate :=
  match db.shareWeightsForJob (row.jobId.getD "") with
  | .error _ => .stops
  | .ok shares =>
      if u128 ((shareWeights shares).map Prod.snd).sum = 0 then .kept
      else if shares.all fun share => matchesLowerHex 40 share.miner then .done
      else .stops

/-! ## What is promised, and when -/

def HasShares (db : Db) (row : BlockRow) : Prop :=
  ∃ share ∈ db.shares.rows, row.jobId = some share.jobId

/-- Every confirmed block with a positive reward and shares is settled by some later run. -/
def BlocksSettled (fees : Nat → FeeBps) (db : Db) : Prop :=
  ∀ row ∈ db.blocks.rows, row.status = .confirmed → 0 < row.rewardBaseUnits → HasShares db row →
    ∃ n, (settleRuns fees n db).hasReward row.hash = true

def BlocksReached (db : Db) : Prop :=
  ∀ row ∈ db.unsettled, HasShares db row → settleFate db row = .done ∧
    ∃ before after, db.unsettled = before ++ row :: after ∧
      (∀ other ∈ before, settleFate db other ≠ .stops) ∧
      (before.filter fun other => settleFate db other = .kept).length < 100

/-! ## One block -/

section Turn

variable {db : Db} {feeBps : FeeBps}

theorem allocatePplns_isOk (reward : Nat) {feeBps : Nat} (legal : feeBps ≤ 10000)
    (shares : List ShareWeight) :
    (∃ result, allocatePplns reward feeBps shares = .ok result) ↔
      u128 ((shareWeights shares).map Prod.snd).sum ≠ 0 := by
  rw [allocatePplns, if_neg (by omega)]
  cases shares with
  | nil => simp [shareWeights, u128]
  | cons share rest =>
      rw [if_neg (by simp)]
      by_cases weightless : u128 ((shareWeights (share :: rest)).map Prod.snd).sum = 0
      · simp [weightless]
      · simp [weightless]

/-- The entries of a settlement are legal if the miners of the job are. -/
theorem rewardLedgerEntries_legal {reward feeBps : Nat} {shares : List ShareWeight}
    {result : PplnsResult} (blockRef : String)
    (allocated : allocatePplns reward feeBps shares = .ok result) :
    (∀ entry ∈ rewardLedgerEntries blockRef result, Books.LegalMiner entry) ↔
      (shares.all fun share => matchesLowerHex 40 share.miner) = true := by
  obtain ⟨-, -, -, -, -, allocations⟩ := allocatePplns_ok allocated
  have miners : ∀ miner, miner ∈ result.allocations.map (·.miner) ↔
      miner ∈ shares.map (·.miner) := by
    intro miner
    rw [allocations, allocateLoop_miners, shareWeights_miners, mem_shareMiners]
  rw [List.all_eq_true]
  constructor
  · intro legal share member
    obtain ⟨allocation, inResult, same⟩ :=
      List.mem_map.1 ((miners share.miner).2 (List.mem_map_of_mem member))
    rw [← same]
    refine legal _ (List.mem_append_left _ (List.mem_map_of_mem inResult)) _ rfl
  · intro legal entry member miner here
    rcases List.mem_append.1 member with paid | fee
    · obtain ⟨allocation, inResult, rfl⟩ := List.mem_map.1 paid
      cases here
      obtain ⟨share, inShares, same⟩ :=
        List.mem_map.1 ((miners allocation.miner).1 (List.mem_map_of_mem inResult))
      rw [← same]
      exact legal share inShares
    · split at fee
      · rw [List.mem_singleton.1 fee] at here
        cases here
      · cases fee

theorem hasReward_entry_iff {hash : String} : db.hasReward hash = true ↔
    ∃ entry ∈ db.books.ledgerEntries.rows, entry.refType = "block" ∧ entry.refId = hash ∧
      (entry.kind = .rewardImmature ∨ entry.kind = .poolFee) := by
  simp [Db.hasReward, and_assoc]

/-- `after` is `db` with the block settled and the others as they were. -/
structure Settles (hash : String) (db after : Db) : Prop where
  frame : after = { db with books := after.books }
  reward : ∀ other, after.hasReward other = true ↔ other = hash ∨ db.hasReward other = true

theorem appended_settles {after : Db} {entries : List LedgerEntry} {hash : String}
    (appended : db.appendLedgerEntries entries = .ok after)
    (rewards : ∀ entry ∈ entries, entry.refType = "block" ∧ entry.refId = hash ∧
      (entry.kind = .rewardImmature ∨ entry.kind = .poolFee))
    (nonempty : entries ≠ []) : Settles hash db after := by
  obtain ⟨books, committed, rfl⟩ := Db.appendLedgerEntries_ok appended
  have grows := Books.appendLedgerEntries_grows committed
  refine ⟨rfl, fun other => ?_⟩
  rw [hasReward_entry_iff, hasReward_entry_iff]
  constructor
  · rintro ⟨entry, member, refType, refId, kind⟩
    rcases grows.added entry member with old | new
    · exact .inr ⟨entry, old, refType, refId, kind⟩
    · exact .inl (refId.symm.trans (rewards entry new).2.1)
  · rintro (rfl | ⟨entry, member, shape⟩)
    · obtain ⟨entry, member⟩ := List.exists_mem_of_ne_nil entries nonempty
      obtain ⟨stored, found⟩ := Option.ne_none_iff_exists'.1
        (Books.appendLedgerEntries_present committed entry member)
      obtain ⟨inRows, same⟩ := Table.find?_eq_some_iff.1 found
      have key : stored.ledgerKey = entry.ledgerKey := same
      obtain ⟨refType, refId, kind⟩ := rewards entry member
      refine ⟨stored, inRows, ?_, ?_, ?_⟩
      · exact (congrArg LedgerKey.refType key).trans refType
      · exact (congrArg LedgerKey.refId key).trans refId
      · rwa [show stored.kind = entry.kind from congrArg LedgerKey.kind key]
    · exact ⟨entry, grows.kept entry member, shape⟩

theorem rewardLedgerEntries_ne_nil {reward feeBps : Nat} {shares : List ShareWeight}
    {result : PplnsResult} (blockRef : String)
    (allocated : allocatePplns reward feeBps shares = .ok result) :
    rewardLedgerEntries blockRef result ≠ [] := by
  obtain ⟨-, weights, -, -, -, allocations⟩ := allocatePplns_ok allocated
  intro empty
  have none_ : result.allocations.map (·.miner) = [] := by
    simp only [rewardLedgerEntries, List.append_eq_nil_iff, List.map_eq_nil_iff] at empty
    rw [empty.1]
    rfl
  rw [allocations, allocateLoop_miners, List.map_eq_nil_iff] at none_
  exact weights none_

/-- **What a turn does**, by the fate of its block. -/
inductive SettleTurn (row : BlockRow) (db : Db) : Fate → Except Db Db → Prop
  | stopped : SettleTurn row db .stops (.error db)
  | skipped : SettleTurn row db .kept (.ok db)
  | settled {after : Db} (settles : Settles row.hash db after) : SettleTurn row db .done (.ok after)

theorem settleBlock_turn (feeBps : FeeBps) (db : Db) (row : BlockRow) :
    SettleTurn row db (settleFate db row) (settleBlock feeBps db (Db.toRewardBlock row)) := by
  unfold settleFate settleBlock
  have job : (Db.toRewardBlock row).jobId = row.jobId.getD "" := rfl
  rw [job]
  cases db.shareWeightsForJob (row.jobId.getD "") with
  | error e => exact .stopped
  | ok shares =>
      have allocates := allocatePplns_isOk row.rewardBaseUnits feeBps.2 shares
      dsimp only
      cases settled : settleRewardBlock (Db.toRewardBlock row) feeBps.1 shares with
      | error e =>
          have weightless : u128 ((shareWeights shares).map Prod.snd).sum = 0 := by
            by_contra positive
            obtain ⟨result, allocated⟩ := allocates.2 positive
            have hit : (allocatePplns (Db.toRewardBlock row).rewardBaseUnits feeBps.1 shares) =
              .ok result := allocated
            rw [settleRewardBlock, hit] at settled
            cases settled
          rw [if_pos weightless]
          exact .skipped
      | ok settlement =>
          obtain ⟨-, -, entries, allocated⟩ := settleRewardBlock_ok settled
          rw [if_neg (allocates.1 ⟨_, allocated⟩)]
          have commits : (∃ after, db.appendLedgerEntries settlement.ledgerEntries = .ok after) ↔
              (shares.all fun share => matchesLowerHex 40 share.miner) = true := by
            rw [Db.appendLedgerEntries_isOk, entries]
            exact rewardLedgerEntries_legal row.hash allocated
          cases appended : db.appendLedgerEntries settlement.ledgerEntries with
          | error e =>
              rw [appended] at commits
              rw [if_neg (by simpa using commits)]
              simp only [appended]
              exact .stopped
          | ok after =>
              rw [if_pos (commits.1 ⟨after, appended⟩)]
              simp only [appended]
              rw [entries] at appended
              refine .settled (appended_settles appended (fun entry member => ?_)
                (rewardLedgerEntries_ne_nil row.hash allocated))
              obtain ⟨refType, refId, kind⟩ := rewardEntry_kind member
              exact ⟨refType, refId, kind.imp (·.1) (·.1)⟩

end Turn

/-! ## A run is a pass -/

section Runs

variable {db : Db} {feeBps : FeeBps}

/-- What a run does to a queue of unsettled blocks, whatever its limit. -/
structure SettlesQueue (rows left : List BlockRow) (db after : Db) : Prop where
  frame : after = { db with books := after.books }
  left_ : rows.filter (fun row => !after.hasReward row.hash) = left
  grows : ∀ hash, db.hasReward hash = true → after.hasReward hash = true
  elsewhere : ∀ hash, hash ∉ rows.map (·.hash) → after.hasReward hash = db.hasReward hash

theorem settleFate_frame {after : Db} (frame : after = { db with books := after.books }) :
    settleFate after = settleFate db := by
  rw [frame]
  rfl

theorem filter_unsettled {rows : List BlockRow}
    (fresh : ∀ row ∈ rows, db.hasReward row.hash = false) :
    rows.filter (fun row => !db.hasReward row.hash) = rows := by
  rw [List.filter_eq_self]
  intro row member
  rw [fresh row member]
  rfl

theorem SettlesQueue.rest {rows : List BlockRow}
    (fresh : ∀ row ∈ rows, db.hasReward row.hash = false) : SettlesQueue rows rows db db :=
  ⟨rfl, filter_unsettled fresh, fun _ settled => settled, fun _ _ => rfl⟩

/-- A skipped block stays where it is. -/
theorem SettlesQueue.skip {row : BlockRow} {rest left : List BlockRow} {after : Db}
    (queue : SettlesQueue rest left db after) (unsettled : db.hasReward row.hash = false)
    (apart : row.hash ∉ rest.map (·.hash)) :
    SettlesQueue (row :: rest) (row :: left) db after := by
  refine ⟨queue.frame, ?_, queue.grows, fun hash outside => ?_⟩
  · have still : after.hasReward row.hash = false :=
      (queue.elsewhere row.hash apart).trans unsettled
    rw [List.filter_cons, if_pos (by simp [still]), queue.left_]
  · rw [List.map_cons, List.mem_cons, not_or] at outside
    exact queue.elsewhere hash outside.2

/-- A settled block is gone. -/
theorem SettlesQueue.settle {row : BlockRow} {rest left : List BlockRow} {mid after : Db}
    (queue : SettlesQueue rest left mid after) (settles : Settles row.hash db mid) :
    SettlesQueue (row :: rest) left db after := by
  have gone : after.hasReward row.hash = true := queue.grows _ ((settles.reward _).2 (.inl rfl))
  refine ⟨?_, ?_, fun hash settled => ?_, fun hash outside => ?_⟩
  · rw [queue.frame, settles.frame]
  · rw [List.filter_cons, if_neg (by simp [gone]), queue.left_]
  · exact queue.grows hash ((settles.reward hash).2 (.inr settled))
  · rw [List.map_cons, List.mem_cons, not_or] at outside
    rw [queue.elsewhere hash outside.2, Bool.eq_iff_iff, settles.reward]
    simp [outside.1]

theorem settle_queue {rows : List BlockRow} {limit : Nat}
    (fresh : ∀ row ∈ rows, db.hasReward row.hash = false) (distinct : (rows.map (·.hash)).Nodup) :
    SettlesQueue rows (Theory.pass (settleFate db) limit rows) db
      (attempts (settleBlock feeBps) db ((rows.take limit).map Db.toRewardBlock)).1 := by
  induction rows generalizing db limit with
  | nil =>
      rw [Theory.pass_nil, List.take_nil]
      exact SettlesQueue.rest fresh
  | cons row rest ih =>
      cases limit with
      | zero => exact SettlesQueue.rest fresh
      | succ limit =>
          have behind : ∀ other ∈ rest, db.hasReward other.hash = false := fun other member =>
            fresh other (List.mem_cons_of_mem _ member)
          have unsettled : db.hasReward row.hash = false := fresh row (List.mem_cons_self ..)
          rw [List.map_cons, List.nodup_cons] at distinct
          rw [List.take_succ_cons, List.map_cons, Theory.pass]
          have turn := settleBlock_turn feeBps db row
          generalize settleFate db row = fate at turn
          generalize stepped : settleBlock feeBps db (Db.toRewardBlock row) = result at turn
          cases turn with
          | stopped =>
              rw [Theory.attempts_error stepped]
              exact SettlesQueue.rest fresh
          | skipped =>
              rw [Theory.attempts_ok stepped]
              exact (ih behind distinct.2).skip unsettled distinct.1
          | @settled mid settles =>
              rw [Theory.attempts_ok stepped, ← settleFate_frame settles.frame]
              refine (ih (fun other member => ?_) distinct.2).settle settles
              have apart : other.hash ≠ row.hash := fun same =>
                distinct.1 (same ▸ List.mem_map_of_mem member)
              rw [← Bool.not_eq_true, settles.reward, not_or]
              exact ⟨apart, by simp [behind other member]⟩

theorem ascNullsLast_total (a b : Option Nat) :
    ascNullsLast a b = true ∨ ascNullsLast b a = true := by
  cases a <;> cases b <;> simp [ascNullsLast]
  omega

theorem ascNullsLast_trans {a b c : Option Nat} (first : ascNullsLast a b = true)
    (second : ascNullsLast b c = true) : ascNullsLast a c = true := by
  cases a <;> cases b <;> cases c <;> simp_all [ascNullsLast]
  omega

instance : Std.Total fun a b : BlockRow => ascNullsLast a.confirmedAt b.confirmedAt = true :=
  ⟨fun a b => ascNullsLast_total a.confirmedAt b.confirmedAt⟩

instance : IsTrans BlockRow fun a b => ascNullsLast a.confirmedAt b.confirmedAt = true :=
  ⟨fun _ _ _ => ascNullsLast_trans⟩

theorem settleRewards_queue (feeBps : FeeBps) (db : Db) :
    SettlesQueue db.unsettled (Theory.pass (settleFate db) 100 db.unsettled) db
      (settleRewards feeBps db) :=
  settle_queue (fun _ listed => (Db.mem_unsettled.1 listed).2.2.2.2) db.unsettled_nodup

/-- **One run.**  What is unsettled afterwards is one pass over what was unsettled before. -/
theorem unsettled_settle (feeBps : FeeBps) (db : Db) :
    (settleRewards feeBps db).unsettled = Theory.pass (settleFate db) 100 db.unsettled := by
  have queue := settleRewards_queue feeBps db
  generalize settleRewards feeBps db = after at queue
  have blocks : after.blocks = db.blocks := by rw [queue.frame]
  rw [← queue.left_, Db.unsettled, Db.unsettled, Theory.filter_insertionSort, blocks,
    List.filter_filter]
  congr 1
  refine List.filter_congr fun row _ => ?_
  cases before : db.hasReward row.hash with
  | false => simp [Bool.and_comm]
  | true => simp [queue.grows row.hash before]

theorem settleRuns_frame (fees : Nat → FeeBps) (n : Nat) (db : Db) :
    settleRuns fees n db = { db with books := (settleRuns fees n db).books } := by
  induction n with
  | zero => rfl
  | succ n ih =>
      have frame := (settleRewards_queue (fees n) (settleRuns fees n db)).frame
      rw [settleRuns, frame, ih]

/-- **Run after run.**  The fates are those of the first database. -/
theorem unsettled_runs (fees : Nat → FeeBps) (n : Nat) (db : Db) :
    (settleRuns fees n db).unsettled = (Theory.pass (settleFate db) 100)^[n] db.unsettled := by
  induction n with
  | zero => rfl
  | succ n ih =>
      rw [settleRuns, unsettled_settle, settleFate_frame (settleRuns_frame fees n db), ih,
        Function.iterate_succ_apply']

/-- A block is settled by some run exactly if it is no residue of the passes. -/
theorem settled_iff {fees : Nat → FeeBps} {row : BlockRow} (listed : row ∈ db.unsettled) :
    (∃ n, (settleRuns fees n db).hasReward row.hash = true) ↔
      row ∉ Theory.residue (settleFate db) 100 db.unsettled := by
  rw [← Theory.cleared_iff]
  refine exists_congr fun n => ?_
  obtain ⟨inRows, confirmed, positive, job, -⟩ := Db.mem_unsettled.1 listed
  have blocks : (settleRuns fees n db).blocks = db.blocks := by rw [settleRuns_frame fees n db]
  rw [← unsettled_runs fees n db, Db.mem_unsettled, blocks]
  simp [inRows, confirmed, positive, job]

/-- **When every block with shares is settled some day.** -/
theorem blocks_settled_iff (fees : Nat → FeeBps) (db : Db) :
    BlocksSettled fees db ↔ BlocksReached db := by
  have distinct : db.unsettled.Nodup := db.unsettled_nodup.of_map
  constructor
  · intro settled row listed shares
    obtain ⟨inRows, confirmed, positive, -, -⟩ := Db.mem_unsettled.1 listed
    rw [← Theory.not_mem_residue_iff distinct listed]
    exact (settled_iff listed).1 (settled row inRows confirmed positive shares)
  · intro reached row inRows confirmed positive shares
    by_cases before : db.hasReward row.hash = true
    · exact ⟨0, before⟩
    · obtain ⟨share, inShares, job⟩ := shares
      have listed : row ∈ db.unsettled := Db.mem_unsettled.2
        ⟨inRows, confirmed, positive, by rw [job]; rfl, by simpa using before⟩
      have fate := reached row listed ⟨share, inShares, job⟩
      rw [← Theory.not_mem_residue_iff distinct listed] at fate
      exact (settled_iff listed).2 fate

end Runs

end CsdPool.Rewards
