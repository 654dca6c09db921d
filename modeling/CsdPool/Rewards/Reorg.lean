/-
# Rewards.Reorg — one cycle of polling and reversing

`reconcileBlocks` and `reverseOrphans` are whole runs of the two workers, alone on
the database and with every call answered; the machine has them as runs of its own
(`reconcile_runs`, `reverse_runs`).

`reorg_seen`: when the node reports a recorded block orphaned, one full cycle
leaves it orphaned with every reward reversed if and only if the block is orphaned
already or among the hundred rows the poll lists, and its rewards not yet reversed
are among the thousand the reversing run lists.  `confirmed` is no polled status,
so a block that was settled and matured is not seen (`late_reorg_missed`).
-/
import CsdPool.Rewards.Invariants

namespace CsdPool.Rewards

open Theory (Keyed Table Machine)

set_option autoImplicit false

/-! ## Whole runs -/

section Cycle

variable (answers : String → Except String BlockStatusResponse) (required now : Nat)

/-- The loop of `reconcile_blocks`; `none` if a call fails. -/
def pollBlocks : List BlockRecord → Db → Option Db
  | [], db => some db
  | block :: rest, db =>
      match answers block.hashHex with
      | .error _ => none
      | .ok status =>
          match db.updateBlockStatus (blockUpdateFromStatus block.hashHex status required) now with
          | .error _ => none
          | .ok (_, db) => pollBlocks rest db

def reconcileBlocks (db : Db) : Option Db :=
  match db.listBlocksToReconcile 100 with
  | .error _ => none
  | .ok queue => pollBlocks answers required now queue db

end Cycle

def reverseOrphans (db : Db) : Option Db :=
  match db.listOrphanReversalEntries 1000 with
  | .error _ => none
  | .ok entries =>
      match db.appendLedgerEntries entries with
      | .error _ => none
      | .ok db => some db

/-! ## The machine runs them -/

section Runs

variable {answers : String → Except String BlockStatusResponse} {required now : Nat} {s : State}

/-- One step of a run that reads. -/
theorem read_future {pid : Nat} {pc : Pc} (here : s.At pid pc) (env : Env)
    (reads : pc.write = none) :
    (rewardMachine.startingAt s).Reachable (s.resume pid (pc.read env s.db)) := by
  refine Machine.startingAt_step (e := .run pid env) ?_
  change State.step s (.run pid env) = _
  unfold State.At at here
  simp [State.step, here, State.runProc, reads]

/-- One step of a run that writes. -/
theorem write_future {pid : Nat} {pc : Pc} (here : s.At pid pc) (env : Env) {w : Write} {db : Db}
    (writes : pc.write = some w) (committed : w.exec env.now s.db = .ok db) :
    (rewardMachine.startingAt s).Reachable ({ s with db }.resume pid pc.afterWrite) := by
  refine Machine.startingAt_step (e := .run pid env) ?_
  change State.step s (.run pid env) = _
  unfold State.At at here
  simp [State.step, here, State.runProc, writes, committed]

theorem spawn_future {pid : Nat} (fresh : s.procs.find? pid = none) (entry : Entry) :
    (rewardMachine.startingAt s).Reachable (s.resume pid (some entry.pc)) := by
  refine Machine.startingAt_step (e := .spawn pid entry) ?_
  change State.step s (.spawn pid entry) = _
  simp [State.step, Table.contains_eq_isSome, fresh]

theorem at_resumed (s : State) (pid : Nat) (pc : Pc) : (s.resume pid (some pc)).At pid pc :=
  State.at_resume.2 (.inl ⟨rfl, rfl⟩)

theorem ended_resumed {pid : Nat} : (s.resume pid none).procs.find? pid = none := by
  simp [State.resume, Table.find?_erase]

theorem poll_runs {pid : Nat} {queue : List BlockRecord} {db : Db}
    (here : s.At pid (.reconcileNext required queue))
    (polled : pollBlocks answers required now queue s.db = some db) :
    ∃ s', (rewardMachine.startingAt s).Reachable s' ∧ s'.db = db ∧ s'.procs.find? pid = none := by
  induction queue generalizing s with
  | nil =>
      cases polled
      exact ⟨_, read_future here {} rfl, rfl, ended_resumed⟩
  | cons block rest ih =>
      simp only [pollBlocks] at polled
      split at polled
      · cases polled
      · rename_i status answered
        split at polled
        · cases polled
        · rename_i hit mid updated
          have asked := read_future here { answer := .ok status } rfl
          have exec : Write.exec now s.db
              (.update (blockUpdateFromStatus block.hashHex status required)) = .ok mid := by
            rw [Write.exec, updated]
            rfl
          have wrote := write_future (at_resumed s pid (.reconcileUpdate required
            (blockUpdateFromStatus block.hashHex status required) rest)) { now := now } rfl exec
          obtain ⟨s', reached, same, ended⟩ := ih
            (at_resumed { s.resume pid (some (.reconcileUpdate required
              (blockUpdateFromStatus block.hashHex status required) rest)) with db := mid } pid
              (.reconcileNext required rest)) polled
          exact ⟨s', asked.trans (wrote.trans reached), same, ended⟩

/-- A whole run of `reconcile_blocks` is a run of the machine. -/
theorem reconcile_runs {pid : Nat} {db : Db} (fresh : s.procs.find? pid = none)
    (reconciled : reconcileBlocks answers required now s.db = some db) :
    ∃ s', (rewardMachine.startingAt s).Reachable s' ∧ s'.db = db ∧ s'.procs.find? pid = none := by
  unfold reconcileBlocks at reconciled
  split at reconciled
  · cases reconciled
  · rename_i queue listed
    have spawned := spawn_future fresh (.reconcileBlocks required)
    have read := read_future (at_resumed s pid (.reconcileList required)) {} rfl
    simp only [Pc.read, State.resume_db, listed] at read
    obtain ⟨s', reached, same, ended⟩ := poll_runs
      (at_resumed (s.resume pid (some (.reconcileList required))) pid
        (.reconcileNext required queue)) reconciled
    exact ⟨s', spawned.trans (read.trans reached), same, ended⟩

/-- A whole run of `reverse_orphans` is a run of the machine. -/
theorem reverse_runs {pid : Nat} {db : Db} (fresh : s.procs.find? pid = none)
    (reversed : reverseOrphans s.db = some db) :
    ∃ s', (rewardMachine.startingAt s).Reachable s' ∧ s'.db = db ∧ s'.procs.find? pid = none := by
  unfold reverseOrphans at reversed
  split at reversed
  · cases reversed
  · rename_i entries listed
    split at reversed
    · cases reversed
    · rename_i appended
      cases reversed
      have spawned := spawn_future fresh .reverseOrphans
      have read := read_future (at_resumed s pid .reverseList) {} rfl
      simp only [Pc.read, State.resume_db, listed] at read
      have wrote := write_future (at_resumed (s.resume pid (some .reverseList)) pid
        (.reverseAppend entries)) {} rfl appended
      exact ⟨_, spawned.trans (read.trans wrote), rfl, ended_resumed⟩

/-- So is a full cycle of both. -/
theorem cycle_runs {pid : Nat} {mid after : Db} (fresh : s.procs.find? pid = none)
    (reconciled : reconcileBlocks answers required now s.db = some mid)
    (reversed : reverseOrphans mid = some after) :
    ∃ s', (rewardMachine.startingAt s).Reachable s' ∧ s'.db = after := by
  obtain ⟨t, polled, rfl, ended⟩ := reconcile_runs fresh reconciled
  obtain ⟨s', done, same, -⟩ := reverse_runs ended reversed
  exact ⟨s', polled.trans done, same⟩

end Runs

/-! ## What a cycle leaves behind -/

/-- The node's answer is one of the two spellings of an orphan. -/
def reportsOrphaned (response : BlockStatusResponse) : Prop :=
  response.status = "orphan" ∨ response.status = "orphaned"

def IsOrphaned (db : Db) (hash : String) : Prop :=
  ∃ row, db.blocks.find? hash = some row ∧ row.status = .orphaned

/-- Every reward of the block has its reversal. -/
def AllReversed (db : Db) (hash : String) : Prop :=
  ∀ reward, IsReward db reward → reward.refId = hash →
    db.books.ledgerEntries.find? ⟨reward.miner, .rewardOrphanReversal, "block", hash⟩ ≠ none

section Seen

variable {answers : String → Except String BlockStatusResponse} {required now : Nat}
  {db mid after : Db} {hash : String}

/-- The loop orphans a reported block exactly if it is in hand. -/
theorem pollBlocks_orphaned {queue : List BlockRecord} {response : BlockStatusResponse}
    (answered : answers hash = .ok response) (orphaned : reportsOrphaned response)
    {row : BlockRow} (found : db.blocks.find? hash = some row)
    (polled : pollBlocks answers required now queue db = some mid) :
    IsOrphaned mid hash ↔ row.status = .orphaned ∨ hash ∈ queue.map (·.hashHex) := by
  induction queue generalizing db row with
  | nil =>
      cases polled
      simp [IsOrphaned, found]
  | cons block rest ih =>
      simp only [pollBlocks] at polled
      split at polled
      · cases polled
      · rename_i status asked
        split at polled
        · cases polled
        · rename_i updated
          have rows := Db.find?_updateBlockStatus updated hash
          rw [found, Option.map_some] at rows
          rw [ih rows polled, List.map_cons, List.mem_cons]
          by_cases here : hash = block.hashHex
          · rw [← here, answered] at asked
            cases asked
            have become : normalizeBlockStatus response.status response.confirmations required =
                .orphaned := if_pos orphaned
            simp [here, Db.setStatus, blockUpdateFromStatus, become]
          · simp [here, blockUpdateFromStatus]

/-- What the poll has in hand are the hashes of the rows it lists. -/
theorem listed_iff {queue : List BlockRecord} (listed : db.listBlocksToReconcile 100 = .ok queue)
    {row : BlockRow} (found : db.blocks.find? hash = some row) :
    hash ∈ queue.map (·.hashHex) ↔ row ∈ db.pollable.take 100 := by
  obtain ⟨inRows, key⟩ := Table.find?_eq_some_iff.1 found
  have here : row.hash = hash := key
  rw [Db.listed_poll listed, List.mem_map]
  constructor
  · rintro ⟨other, inTake, same⟩
    have inTable := (Db.mem_pollable.1 (List.mem_of_mem_take inTake)).1
    have equal : other = row := List.inj_on_of_nodup_map db.blocks.unique inTable inRows
      (same.trans here.symm)
    exact equal ▸ inTake
  · exact fun inTake => ⟨row, inTake, here⟩

theorem reverseOrphans_ok (reversed : reverseOrphans mid = some after) :
    ∃ entries books, mid.listOrphanReversalEntries 1000 = .ok entries ∧
      mid.books.appendLedgerEntries entries = .ok books ∧ after = { mid with books } := by
  unfold reverseOrphans at reversed
  split at reversed
  · cases reversed
  · rename_i entries listed
    split at reversed
    · cases reversed
    · rename_i appended
      cases reversed
      obtain ⟨books, committed, rfl⟩ := Db.appendLedgerEntries_ok appended
      exact ⟨entries, books, listed, committed, rfl⟩

/-- The reversing run covers a block exactly if it lists all that is left of it. -/
theorem reverseOrphans_all (orphaned : IsOrphaned mid hash)
    (reversed : reverseOrphans mid = some after) :
    AllReversed after hash ↔
      ∀ reward ∈ mid.reversible, reward.refId = hash → reward ∈ mid.reversible.take 1000 := by
  obtain ⟨entries, books, listed, committed, rfl⟩ := reverseOrphans_ok reversed
  have grows := Books.appendLedgerEntries_grows committed
  obtain ⟨row, found, status⟩ := orphaned
  constructor
  · intro all reward inList here
    obtain ⟨inLedger, awaits⟩ := Db.mem_reversible.1 inList
    obtain ⟨kind, refType, miner, -, unreversed⟩ := Db.awaits_iff.1 awaits
    rw [refType, here] at unreversed
    have present := all reward ⟨grows.kept reward inLedger, kind, refType, miner⟩ here
    -- the reversal is new, so it is one of the listed entries
    have listedKey : ∃ entry ∈ entries, entry.ledgerKey =
        ⟨reward.miner, .rewardOrphanReversal, "block", hash⟩ := by
      by_contra none_
      push Not at none_
      exact present (by rw [Books.find?_appendLedgerEntries_ne committed none_, unreversed])
    obtain ⟨entry, member, key⟩ := listedKey
    obtain ⟨source, inTake, -, rfl⟩ := Db.listed_reversal listed entry member
    obtain ⟨sourceIn, sourceAwaits⟩ := Db.mem_reversible.1 (List.mem_of_mem_take inTake)
    have same : source = reward := reward_unique (isReward_of_awaits sourceIn sourceAwaits)
      (isReward_of_awaits inLedger awaits) (congrArg LedgerKey.miner key)
      ((congrArg LedgerKey.refId key).trans here.symm)
    exact same ▸ inTake
  · intro covers reward isReward here
    -- a run that reverses adds no rewards
    have inLedger : reward ∈ mid.books.ledgerEntries.rows := by
      refine (grows.added reward isReward.member).resolve_right fun new => ?_
      obtain ⟨source, -, -, rfl⟩ := Db.listed_reversal listed reward new
      cases isReward.kind
    by_cases done : mid.books.ledgerEntries.find?
        ⟨reward.miner, .rewardOrphanReversal, "block", hash⟩ = none
    · have inList : reward ∈ mid.reversible := by
        rw [Db.mem_reversible, Db.awaits_iff]
        refine ⟨inLedger, isReward.kind, isReward.refType, isReward.miner,
          ⟨row, here ▸ found, by simpa using status⟩, ?_⟩
        rw [isReward.refType, here]
        exact done
      obtain ⟨entry, member, read⟩ := Theory.mapM_mem listed (covers reward inList here)
      have key : entry.ledgerKey = ⟨reward.miner, .rewardOrphanReversal, "block", hash⟩ := by
        rw [(Db.toReversal_ok read).2, ← here]
        rfl
      rw [← key]
      exact Books.appendLedgerEntries_present committed entry member
    · exact grows.present done

/-- **When a reorg is seen.**  One full cycle, with the node reporting a recorded block
orphaned, orphans the block and reverses all its rewards if and only if the block is
orphaned already or listed by the poll, and the reversing run lists what is left of
its rewards. -/
theorem reorg_seen {response : BlockStatusResponse} {row : BlockRow}
    (found : db.blocks.find? hash = some row) (answered : answers hash = .ok response)
    (reported : reportsOrphaned response)
    (reconciled : reconcileBlocks answers required now db = some mid)
    (reversed : reverseOrphans mid = some after) :
    (IsOrphaned after hash ∧ AllReversed after hash) ↔
      (row.status = .orphaned ∨ row ∈ db.pollable.take 100) ∧
        ∀ reward ∈ mid.reversible, reward.refId = hash → reward ∈ mid.reversible.take 1000 := by
  have sameBlocks : after.blocks = mid.blocks := by
    obtain ⟨entries, books, -, -, rfl⟩ := reverseOrphans_ok reversed
    rfl
  have orphaned : IsOrphaned after hash ↔ row.status = .orphaned ∨ row ∈ db.pollable.take 100 := by
    unfold reconcileBlocks at reconciled
    split at reconciled
    · cases reconciled
    · rename_i queue listed
      rw [IsOrphaned, sameBlocks, ← listed_iff listed found]
      exact pollBlocks_orphaned answered reported found reconciled
  rw [← orphaned]
  have atMid : IsOrphaned after hash → IsOrphaned mid hash := by
    rw [IsOrphaned, IsOrphaned, sameBlocks]
    exact id
  constructor
  · exact fun both => ⟨both.1, (reverseOrphans_all (atMid both.1) reversed).1 both.2⟩
  · exact fun both => ⟨both.1, (reverseOrphans_all (atMid both.1) reversed).2 both.2⟩

end Seen

namespace Sample

/-- From now on the node reports every block orphaned. -/
def reorged : String → Except String BlockStatusResponse :=
  fun hash => .ok ⟨hash, "orphaned", none, 0, none, .null⟩

end Sample

/-- A block orphaned by an overlapping poll after it was settled: the cycle reverses it. -/
theorem reorg_seen_settled :
    ∃ s mid after, rewardMachine.Reachable s ∧
      reconcileBlocks Sample.reorged 10 9 s.db = some mid ∧ reverseOrphans mid = some after ∧
      mid.reversible.length = 1 ∧ IsOrphaned after "block" ∧ AllReversed after "block" := by
  obtain ⟨s, reached, shown⟩ := Machine.exists_of_run rewardMachine rfl
    (Sample.settledWhilePolled 100 ++ Sample.answer 2 "orphaned" 0 none)
    (fun s => (s.db.blocks.find? "block").any fun row => row.status = .orphaned &&
      (reconcileBlocks Sample.reorged 10 9 s.db).any fun mid =>
        (reverseOrphans mid).isSome && mid.reversible.length = 1)
    (by decide +kernel)
  obtain ⟨row, found, holds⟩ := (Option.any_eq_true _ _).1 shown
  rw [Bool.and_eq_true, Option.any_eq_true] at holds
  obtain ⟨orphaned, mid, reconciled, holds⟩ := holds
  rw [Bool.and_eq_true, Option.isSome_iff_exists] at holds
  obtain ⟨⟨after, reversed⟩, one⟩ := holds
  have length : mid.reversible.length = 1 := of_decide_eq_true one
  refine ⟨s, mid, after, reached, reconciled, reversed, length, ?_⟩
  refine (reorg_seen found rfl (.inr rfl) reconciled reversed).2
    ⟨.inl (of_decide_eq_true orphaned), fun reward member _ => ?_⟩
  rwa [List.take_of_length_le (by omega)]

/-- A confirmed and matured block is not polled again: the cycle runs through and the
block stays confirmed, with its reward in the miner's confirmed balance. -/
theorem late_reorg_missed :
    ∃ s mid after row, rewardMachine.Reachable s ∧ s.db.blocks.find? "block" = some row ∧
      reconcileBlocks Sample.reorged 10 9 s.db = some mid ∧ reverseOrphans mid = some after ∧
      after.blocks.find? "block" = some row ∧ row.status = .confirmed ∧
      after.books.balance Sample.miner = ⟨0, 1000, 0, 0⟩ := by
  obtain ⟨s, reached, shown⟩ := Machine.exists_of_run rewardMachine rfl
    (Sample.mined ++ Sample.poll 1 ++ Sample.answer 1 "seen" 10 (some 1000) ++ Sample.settle 2 0 ++
      Sample.mature 3)
    (fun s => (s.db.blocks.find? "block").any fun row =>
      (reconcileBlocks Sample.reorged 10 9 s.db).any fun mid =>
        (reverseOrphans mid).any fun after => after.blocks.find? "block" = some row &&
          row.status = .confirmed && after.books.balance Sample.miner = ⟨0, 1000, 0, 0⟩)
    (by decide +kernel)
  obtain ⟨row, found, holds⟩ := (Option.any_eq_true _ _).1 shown
  obtain ⟨mid, reconciled, holds⟩ := (Option.any_eq_true _ _).1 holds
  obtain ⟨after, reversed, holds⟩ := (Option.any_eq_true _ _).1 holds
  simp only [Bool.and_eq_true, decide_eq_true_eq] at holds
  exact ⟨s, mid, after, row, reached, found, reconciled, reversed, holds.1.1, holds.1.2, holds.2⟩

end CsdPool.Rewards
