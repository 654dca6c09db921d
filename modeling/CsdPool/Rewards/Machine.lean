/-
# Rewards.Machine — the block and reward workers, step by step

Any number of runs of `reconcile_blocks`, `settle_rewards`, `mature_rewards` and
`reverse_orphans` over one database, next to everything else that writes what they
read: the bridge (jobs, shares, candidates) and the payout path (locks and closing
entries).  A run is a process with a program counter; one event moves one process
by one database call or one answer of the node, or is one transaction of the
bridge or the payout path.

* `settle_rewards` lists unsettled blocks once, then reads the share weights of a
  block, then appends its entries, each in a step of its own; the fee is fixed for
  the run but not between runs.
* `reconcile_blocks` lists once, asks the node for one block, then writes.
* A call that fails ends its run (`?` in the source), and so does `crash`.  A statement that commits
  after its process died is a step of the run with the crash after it: no run holds a lock.
-/
import CsdPool.Db.Mining
import CsdPool.Db.Payouts
import CsdPool.Theory.Machine

namespace CsdPool.Rewards

open Theory (Keyed Table Machine)

set_option autoImplicit false

/-! ## What the workers compute -/

/-- A block with its reward divided, and the entries that would record it. -/
structure SettledRewardBlock where
  blockHash : String
  jobId : String
  rewardBaseUnits : Nat
  shareCount : Nat
  result : PplnsResult
  ledgerEntries : List LedgerEntry
  deriving DecidableEq, Repr

/-- The allocation of a block's reward over the weights of its job, as ledger entries. -/
def settleRewardBlock (block : RewardBlock) (feeBps : Nat) (shares : List ShareWeight) :
    Except AccountingError SettledRewardBlock :=
  (allocatePplns block.rewardBaseUnits feeBps shares).map fun result =>
    { blockHash := block.hashHex
      jobId := block.jobId
      rewardBaseUnits := block.rewardBaseUnits
      shareCount := shares.length
      result := result
      ledgerEntries := rewardLedgerEntries block.hashHex result }

/-- An orphaned block stays so whatever its confirmations; otherwise these decide, and the node's
own word counts only where there are none. -/
def normalizeBlockStatus (status : String) (confirmations requiredConfirmations : Nat) :
    BlockStatus :=
  if status = "orphan" ∨ status = "orphaned" then .orphaned
  else if requiredConfirmations ≤ confirmations then .confirmed
  else if 0 < confirmations then .immature
  else if status = "seen" ∨ status = "seen_on_chain" then .seenOnChain
  else .submitted

/-- The update a node's answer makes. An answer without a reward writes zero. -/
def blockUpdateFromStatus (hashHex : String) (status : BlockStatusResponse)
    (requiredConfirmations : Nat) : BlockStatusUpdate where
  hashHex := hashHex
  status := normalizeBlockStatus status.status status.confirmations requiredConfirmations
  height := status.height
  confirmations := status.confirmations
  rewardBaseUnits := status.rewardBaseUnits.getD 0

/-! ## Program counters -/

/-- Where a run of a reward worker is, with what it holds of its listing. -/
inductive Pc
  | reconcileList (required : Nat)
  | reconcileNext (required : Nat) (queue : List BlockRecord)
  | reconcileUpdate (required : Nat) (change : BlockStatusUpdate) (rest : List BlockRecord)
  | settleList (feeBps : Nat)
  | settleNext (feeBps : Nat) (queue : List RewardBlock)
  | settleAppend (feeBps : Nat) (settlement : SettledRewardBlock) (rest : List RewardBlock)
  | matureList (confirmDepth : Nat)
  | matureAppend (entries : List LedgerEntry)
  | reverseList
  | reverseAppend (entries : List LedgerEntry)
  deriving DecidableEq, Repr

structure Proc where
  pid : Nat
  pc : Pc
  deriving DecidableEq, Repr

instance instKeyedProc : Keyed Proc Nat := ⟨Proc.pid⟩

/-- The database, and the runs under way. -/
structure State where
  db : Db
  procs : Table Proc

/-- What the outside supplies to one step: the clock and the node's answer. -/
structure Env where
  now : Nat := 0
  answer : Except String BlockStatusResponse := .error ""

/-- The two transactions of the reward workers. -/
inductive Write
  | append (entries : List LedgerEntry)
  | update (change : BlockStatusUpdate)

/-- A write commits whole or leaves an error and the database as it was. -/
def Write.exec (now : Nat) (db : Db) : Write → Except RepositoryError Db
  | .append entries => db.appendLedgerEntries entries
  | .update change => (db.updateBlockStatus change now).map Prod.snd

namespace Pc

/-- The transaction a program counter is about to run. -/
def write : Pc → Option Write
  | reconcileUpdate _ change _ => some (.update change)
  | settleAppend _ settlement _ => some (.append settlement.ledgerEntries)
  | matureAppend entries => some (.append entries)
  | reverseAppend entries => some (.append entries)
  | _ => none

/-- Where a run goes on after its write. -/
def afterWrite : Pc → Option Pc
  | reconcileUpdate required _ rest => some (reconcileNext required rest)
  | settleAppend feeBps _ rest => some (settleNext feeBps rest)
  | _ => none

/-- What a settle run does with a block once it has the weights of its job. -/
def settleDecision (feeBps : Nat) (block : RewardBlock) (rest : List RewardBlock) :
    Except RepositoryError (List ShareWeight) → Option Pc
  | .error _ => none
  | .ok shares =>
      match settleRewardBlock block feeBps shares with
      | .ok settlement => some (settleAppend feeBps settlement rest)
      | .error _ => some (settleNext feeBps rest)

/-- Where a step that only reads goes; `none` ends the run. -/
def read (env : Env) (db : Db) : Pc → Option Pc
  | reconcileList required =>
      match db.listBlocksToReconcile 100 with
      | .ok queue => some (reconcileNext required queue)
      | .error _ => none
  | reconcileNext _ [] => none
  | reconcileNext required (block :: rest) =>
      match env.answer with
      | .ok status =>
          some (reconcileUpdate required (blockUpdateFromStatus block.hashHex status required) rest)
      | .error _ => none
  | settleList feeBps => some (settleNext feeBps (db.listConfirmedUnsettledBlocks 100))
  | settleNext _ [] => none
  | settleNext feeBps (block :: rest) =>
      settleDecision feeBps block rest (db.shareWeightsForJob block.jobId)
  | matureList confirmDepth =>
      match db.listMatureRewardEntries confirmDepth 1000 with
      | .ok entries => some (matureAppend entries)
      | .error _ => none
  | reverseList =>
      match db.listOrphanReversalEntries 1000 with
      | .ok entries => some (reverseAppend entries)
      | .error _ => none
  | _ => none

end Pc

/-! ## Steps -/

/-- The runs that can be started. -/
inductive Entry
  | reconcileBlocks (required : Nat)
  | settleRewards (feeBps : Nat)
  | matureRewards (confirmDepth : Nat)
  | reverseOrphans
  deriving DecidableEq, Repr

def Entry.pc : Entry → Pc
  | reconcileBlocks required => .reconcileList required
  | settleRewards feeBps => .settleList feeBps
  | matureRewards confirmDepth => .matureList confirmDepth
  | reverseOrphans => .reverseList

/-- What can happen next: a run begins, goes on or is cut off, or another program writes. -/
inductive Event
  | spawn (pid : Nat) (entry : Entry)
  | run (pid : Nat) (env : Env)
  | crash (pid : Nat)
  | upsertJob (job : JobRecord)
  | insertShare (share : ShareRecord)
  | recordBlockCandidate (block : BlockCandidateRecord) (now : Nat)
  | createLockedPayoutBatch (draft : PayoutBatchDraft) (status : PayoutStatus) (now : Nat)
  | markPayoutPaid (batchId : String)
  | unlockFailedPayout (batchId : String)

namespace State

/-- A database after its migrations, and no run. -/
def initial : State := ⟨.migrated, .empty⟩

/-- `pid` is a live run at `pc`. -/
def At (s : State) (pid : Nat) (pc : Pc) : Prop := s.procs.find? pid = some ⟨pid, pc⟩

/-- The run goes on at a program counter, or ends. -/
def resume (s : State) (pid : Nat) : Option Pc → State
  | some pc => { s with procs := s.procs.put ⟨pid, pc⟩ }
  | none => { s with procs := s.procs.erase pid }

/-- One step of a run: its write, or its read. A failed write ends the run. -/
def runProc (env : Env) (s : State) (pid : Nat) (pc : Pc) : State :=
  match pc.write with
  | some w =>
      match w.exec env.now s.db with
      | .ok db => { s with db }.resume pid pc.afterWrite
      | .error _ => s.resume pid none
  | none => s.resume pid (pc.read env s.db)

/-- The batch record a payout worker holds when it closes the batch. -/
def batchRecord (s : State) (batchId : String) : Option PayoutBatchRecord :=
  (s.db.payoutBatches.find? batchId).map s.db.hydratePayoutBatchRecord

/-- A transaction of another program: it commits, or nothing happens. -/
def commit {α : Type} (s : State) (db : α → Db) : Except RepositoryError α → Option State
  | .ok a => some { s with db := db a }
  | .error _ => none

/-- Every event in every state; `none` where it cannot happen. -/
def step (s : State) : Event → Option State
  | .spawn pid entry => if s.procs.contains pid then none else some (s.resume pid (some entry.pc))
  | .run pid env => (s.procs.find? pid).map fun proc => runProc env s pid proc.pc
  | .crash pid => if s.procs.contains pid then some (s.resume pid none) else none
  | .upsertJob job => s.commit id (s.db.upsertJob job)
  | .insertShare share => s.commit Prod.snd (s.db.insertShare share)
  | .recordBlockCandidate block now => s.commit Prod.snd (s.db.recordBlockCandidate block now)
  | .createLockedPayoutBatch draft status now =>
      s.commit Prod.snd (s.db.createLockedPayoutBatchWithStatus draft status now)
  | .markPayoutPaid batchId =>
      (s.batchRecord batchId).bind fun batch => s.commit Prod.snd (s.db.markPayoutPaid batch)
  | .unlockFailedPayout batchId =>
      (s.batchRecord batchId).bind fun batch => s.commit Prod.snd (s.db.unlockFailedPayout batch)

end State

/-- The reward workers beside everything that writes to the tables they read. -/
def rewardMachine : Machine State Event where
  init := (· = .initial)
  step := State.step

/-! ## What an event is about to write -/

namespace State

/-- The program counter an event moves. -/
def running (s : State) : Event → Option Pc
  | .run pid _ => (s.procs.find? pid).map (·.pc)
  | _ => none

/-- The write a live run is about to make. -/
def writing (s : State) : Event → Option Write
  | .run pid _ => (s.procs.find? pid).bind fun proc => proc.pc.write
  | _ => none

/-- The entries an event appends. -/
def appending (s : State) : Event → List LedgerEntry
  | .markPayoutPaid batchId => ((s.batchRecord batchId).map Db.paidEntries).getD []
  | .unlockFailedPayout batchId => ((s.batchRecord batchId).map Db.unlockEntries).getD []
  | e =>
      match s.writing e with
      | some (.append entries) => entries
      | _ => []

/-- The block update an event makes. -/
def updating (s : State) (e : Event) : Option BlockStatusUpdate :=
  match s.writing e with
  | some (.update change) => some change
  | _ => none

end State

/-! ## A small pool

Two miners, one job, one candidate the node accepted: enough to run every worker on closed
inputs. -/

namespace Sample

def miner : Address := "0123456789abcdef0123456789abcdef01234567"

def otherMiner : Address := "89abcdef0123456789abcdef0123456789abcdef"

def job : JobRecord where
  jobId := "job"
  prevHashBeHex := "00112233445566778899aabbccddeeff00112233445566778899aabbccddeeff"
  versionHex := "20000000"
  nbitsHex := "1d00ffff"
  ntimeHex := "665544cc"
  networkTarget := []
  shareTarget := []
  coinb1Hex := ""
  coinb2Hex := ""
  merkleBranchesHex := []
  cleanJobs := true
  jobReason := "tip_change"

def share (miner : Address) (nonceHex : String) : ShareRecord where
  sessionId := none
  miner := miner
  workerName := "default"
  jobId := "job"
  difficulty := 1
  hash := []
  extranonce2Hex := "01020304"
  ntimeHex := "665544cc"
  nonceHex := nonceHex
  isBlockCandidate := false

def candidate : BlockCandidateRecord where
  hashHex := "block"
  jobId := "job"
  miner := miner
  workerName := "default"
  rewardBaseUnits := 0
  submitResponseJson := .object [("ok", .bool true)]

/-- A run goes on alone for some steps. -/
def steps (pid : Nat) (n : Nat) : List Event := List.replicate n (.run pid {})

/-- The job, one share of the miner, and the candidate. -/
def mined : List Event :=
  [.upsertJob job, .insertShare (share miner "00000001"), .recordBlockCandidate candidate 1]

/-- A reconcile run that has listed its blocks. -/
def poll (pid : Nat) : List Event := [.spawn pid (.reconcileBlocks 10)] ++ steps pid 1

/-- The node's answer about the first block in hand, and the update. -/
def answer (pid : Nat) (status : String) (confirmations : Nat) (reward : Option Nat) :
    List Event :=
  [.run pid { answer := .ok ⟨"block", status, none, confirmations, reward, .null⟩ }] ++ steps pid 1

/-- A whole run of the settling worker over one block. -/
def settle (pid feeBps : Nat) : List Event := [.spawn pid (.settleRewards feeBps)] ++ steps pid 3

/-- The block is confirmed with a reward of 1000 and settled, while two more runs
have it in hand. -/
def settledWhilePolled (feeBps : Nat) : List Event :=
  mined ++ poll 1 ++ poll 2 ++ poll 3 ++ answer 1 "seen" 10 (some 1000) ++ settle 4 feeBps

/-- A whole run of the maturing worker. -/
def mature (pid : Nat) : List Event := [.spawn pid (.matureRewards 10)] ++ steps pid 2

/-- A whole run of the reversing worker. -/
def reverse (pid : Nat) : List Event := [.spawn pid .reverseOrphans] ++ steps pid 2

end Sample

end CsdPool.Rewards
