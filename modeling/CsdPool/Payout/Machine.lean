/-
# Payout.Machine — the payout workers and the operator, step by step

Any number of runs of `create_payouts`, `sign_payouts`, `submit_payouts`,
`reconcile_payouts`, `cancel_payout` and `retry_failed_payout` over one database.
A run is a process with a program counter `Pc`; one event moves one process by
one database transaction or one exchange with a peer, so every order of steps is
a run of `payoutMachine`.

* A program counter either issues a transaction that writes (`Pc.write`, then
  `Pc.afterWrite`) or reads and decides (`Pc.read`).
* A transaction that fails ends its run (`?` in the source); so does `crash`,
  which stands for a killed process, a lost connection and a failed audit insert
  alike.  Either way the advisory lock goes with the process.
* `sever` is the crash that comes too late: the process and its lock are gone, but
  the statement it had sent on another connection of the pool is with the
  database, which executes it at any later time, or (`crash`) never.  It is the
  last thing the run does.
* A transaction sent to a node is in flight until the node accepts or drops it,
  at any later time and whatever became of the response.
* The entries other workers append (rewards, fees, adjustments) are one event.

`unlocks` and `approvals` are history: which closing path unlocked which batch,
and which batches `mark_payout_approved` succeeded on.  No step reads them.
-/
import CsdPool.Payout.Signer
import CsdPool.Theory.Machine

namespace CsdPool.Payout

open Theory (Keyed Table Machine)

set_option autoImplicit false

/-- What the environment variables fix for all workers. -/
structure Config where
  minimumPayoutBaseUnits : Nat
  maxPayoutBatchBaseUnits : Nat
  maxDailyPayoutBaseUnits : Nat
  manualPayoutApprovalBaseUnits : Nat
  officialNode : Bool
  adapterNode : Bool
  serde : SerdeJson

/-- What the outside supplies to one step: the clock, a generated id, the answers of
the signer and the nodes. -/
structure Env where
  now : Nat := 0
  currentDate : Nat := 0
  batchId : String := ""
  signer : Except String SignedPayoutResponse := .error ""
  submit : Except String SubmitTxResponse := .error ""
  status : Except String TransactionStatusResponse := .error ""

/-! ## Program counters -/

/-- The worker whose failure path is being taken, with the batches it has left. -/
inductive Caller
  | sign
  | submit (rest : List PayoutBatchRecord)
  | reconcile (rest : List PayoutBatchRecord)
  deriving DecidableEq, Repr

/-- Where a run of a payout worker is. A batch that a worker holds is the record it read, which may
be out of date. -/
inductive Pc
  | createBegin
  | createUsage
  | createSelect (used : Nat)
  | createInsert (draft : PayoutBatchDraft) (status : PayoutStatus)
  | signBegin
  | signLock
  | signInflight
  | signList
  | signCall (batch : PayoutBatchRecord)
  | signMark (batch : PayoutBatchRecord) (txid storageValue : String)
  | signCommit
  | submitBegin
  | submitList
  | submitNext (queue : List PayoutBatchRecord)
  | submitWait (batch : PayoutBatchRecord) (rest : List PayoutBatchRecord)
  | submitMark (batch : PayoutBatchRecord) (txid : String) (rest : List PayoutBatchRecord)
  | reconcileList
  | reconcileNext (queue : List PayoutBatchRecord)
  | reconcileConfirm (batch : PayoutBatchRecord) (rest : List PayoutBatchRecord)
  | reconcilePaid (batch : PayoutBatchRecord) (rest : List PayoutBatchRecord)
  | markFailed (caller : Caller) (batch : PayoutBatchRecord)
  | unlock (caller : Caller) (batch : PayoutBatchRecord)
  | cancelRead (batchId : String)
  | cancelUpdate (batch : PayoutBatchRecord)
  | cancelUnlock (batch : PayoutBatchRecord)
  | retryRead (batchId newBatchId : String)
  | retryInsert (draft : PayoutBatchDraft)
  deriving DecidableEq, Repr

/-- Where a worker goes on after its failure path. -/
def Caller.resume : Caller → Pc
  | .sign => .signCommit
  | .submit rest => .submitNext rest
  | .reconcile rest => .reconcileNext rest

structure Proc where
  pid : Nat
  pc : Pc
  deriving DecidableEq, Repr

instance instKeyedProc : Keyed Proc Nat := ⟨Proc.pid⟩

/-- A payout transaction handed to a node. -/
structure SentTx where
  batchId : String
  storedTx : String
  deriving DecidableEq, Repr

/-- Which path gave a batch's locked amounts back. -/
inductive UnlockCause
  | sign
  | submit
  | reconcile
  | cancel
  deriving DecidableEq, Repr

def Caller.cause : Caller → UnlockCause
  | .sign => .sign
  | .submit _ => .submit
  | .reconcile _ => .reconcile

/-- `severed` are the runs whose process is gone while their statement is not. -/
structure State where
  db : Db
  procs : Table Proc
  signingLock : Option Nat
  severed : List Nat
  inFlight : List SentTx
  chain : List SentTx
  unlocks : List (UnlockCause × String)
  approvals : List String

/-! ## Writing transactions -/

/-- The transactions of the payout path. -/
inductive Write
  | createLocked (draft : PayoutBatchDraft) (status : PayoutStatus)
  | markSigned (batchId txid rawTxHash : String)
  | markSubmitted (batchId txid : String)
  | markConfirmed (batchId : String)
  | markFailed (batchId : String)
  | markCancelled (batchId : String)
  | unlockFailed (batch : PayoutBatchRecord)
  | markPaid (batch : PayoutBatchRecord)
  deriving DecidableEq, Repr

/-- The boolean is what the repository function returns (`entries.len() > 0` for the
two that return a count). -/
def Write.exec (now : Nat) (db : Db) : Write → Except RepositoryError (Bool × Db)
  | .createLocked draft status => db.createLockedPayoutBatchWithStatus draft status now
  | .markSigned batchId txid rawTxHash => .ok (db.markPayoutSigned batchId txid rawTxHash)
  | .markSubmitted batchId txid => .ok (db.markPayoutSubmitted batchId txid)
  | .markConfirmed batchId => .ok (db.markPayoutConfirmed batchId)
  | .markFailed batchId => .ok (db.markPayoutFailed batchId)
  | .markCancelled batchId => .ok (db.markPayoutCancelled batchId)
  | .unlockFailed batch => (db.unlockFailedPayout batch).map fun (n, db) => (decide (0 < n), db)
  | .markPaid batch => (db.markPayoutPaid batch).map fun (n, db) => (decide (0 < n), db)

namespace Pc

/-- The writing transaction a program counter issues. -/
def write : Pc → Option Write
  | createInsert draft status => some (.createLocked draft status)
  | retryInsert draft => some (.createLocked draft .created)
  | signMark batch txid storageValue => some (.markSigned batch.batchId txid storageValue)
  | submitMark batch txid _ => some (.markSubmitted batch.batchId txid)
  | reconcileConfirm batch _ => some (.markConfirmed batch.batchId)
  | reconcilePaid batch _ => some (.markPaid batch)
  | markFailed _ batch => some (.markFailed batch.batchId)
  | unlock _ batch => some (.unlockFailed batch)
  | cancelUpdate batch => some (.markCancelled batch.batchId)
  | cancelUnlock batch => some (.unlockFailed batch)
  | _ => none

/-- Where the run goes on once the transaction committed.  Only `cancel_payout` looks at
the flag: `mark_payout_failed` and `mark_payout_confirmed` are called for effect. -/
def afterWrite (updated : Bool) : Pc → Option Pc
  | signMark _ _ _ => some .signCommit
  | submitMark _ _ rest => some (.submitNext rest)
  | reconcileConfirm batch rest => some (.reconcilePaid batch rest)
  | reconcilePaid _ rest => some (.reconcileNext rest)
  | markFailed caller batch => some (.unlock caller batch)
  | unlock caller _ => some caller.resume
  | cancelUpdate batch => if updated then some (.cancelUnlock batch) else none
  | _ => none

/-- The history entry of a committed transaction. -/
def unlocked : Pc → List (UnlockCause × String)
  | unlock caller batch => [(caller.cause, batch.batchId)]
  | cancelUnlock batch => [(.cancel, batch.batchId)]
  | _ => []

end Pc

/-! ## Reads and decisions -/

/-- What a step that reads comes to: it goes on, with or without sending a transaction or waiting
for the advisory lock, or it ends the run. -/
inductive Outcome
  | goto (pc : Pc)
  | send (tx : SentTx) (pc : Pc)
  | lock (pc : Pc)
  | finish

def Outcome.next : Outcome → Option Pc
  | .goto pc => some pc
  | .send _ pc => some pc
  | .lock pc => some pc
  | .finish => none

/-- The batch is added to what the day has used without wrapping. -/
def saturatingAddU128 (a b : Nat) : Nat := min (a + b) (2 ^ 128 - 1)

/-- `create_payouts` from the selection on: the draft to insert, if no cap refuses it. -/
def createDecision (cfg : Config) (batchId : String) (used : Nat) (balances : List MinerBalance) :
    Option (PayoutBatchDraft × PayoutStatus) :=
  let selection := selectPayouts balances cfg.minimumPayoutBaseUnits 100
  if selection.recipients.isEmpty then none
  else if selection.totalBaseUnits > cfg.maxPayoutBatchBaseUnits then none
  else if saturatingAddU128 used selection.totalBaseUnits > cfg.maxDailyPayoutBaseUnits then none
  else if selection.totalBaseUnits > cfg.manualPayoutApprovalBaseUnits then
    some (payoutBatchDraft batchId selection, .needsApproval)
  else some (payoutBatchDraft batchId selection, .created)

/-- What the day has used so far, or the end of the run. -/
def createUsed (usage : Except RepositoryError Nat) : Outcome :=
  match usage with
  | .ok used => .goto (.createSelect used)
  | .error _ => .finish

/-- The balances that can be paid out, and the decision over them. -/
def createSelected (cfg : Config) (batchId : String) (used : Nat)
    (payable : Except RepositoryError (List MinerBalance)) : Outcome :=
  match payable with
  | .error _ => .finish
  | .ok balances =>
      match createDecision cfg batchId used balances with
      | some (draft, status) => .goto (.createInsert draft status)
      | none => .finish

/-- The submit request for a listed batch, or the reason there is none. -/
def submitDecision (cfg : Config) (batch : PayoutBatchRecord) (rest : List PayoutBatchRecord) :
    Outcome :=
  match batch.rawTxHash with
  | none => .goto (.markFailed (.submit rest) batch)
  | some storedTx =>
      match readStoredTx cfg.serde storedTx with
      | .nodeTx _ =>
          if cfg.officialNode || cfg.adapterNode then
            .send ⟨batch.batchId, storedTx⟩ (.submitWait batch rest)
          else .goto (.submitNext rest)
      | .rawTx _ =>
          if cfg.adapterNode then .send ⟨batch.batchId, storedTx⟩ (.submitWait batch rest)
          else .goto (.submitNext rest)
      | .invalid _ => .goto (.markFailed (.submit rest) batch)

/-- `response.txid.or(batch.txid).unwrap_or_default()`. -/
def submittedTxid (response : SubmitTxResponse) (batch : PayoutBatchRecord) : String :=
  (response.txid.or batch.txid).getD ""

/-- A refusal leaves the batch where it is, unless the answer shows that the node knew the
transaction. -/
def submitAnswered (answer : Except String SubmitTxResponse) (batch : PayoutBatchRecord)
    (rest : List PayoutBatchRecord) : Pc :=
  match answer with
  | .ok response =>
      if response.ok then .submitMark batch (submittedTxid response batch) rest
      else if possiblePriorSubmit response batch.txid then
        .submitMark batch (submittedTxid response batch) rest
      else .submitNext rest
  | .error _ => .submitNext rest

/-- An answer that is neither a confirmation nor a failure leaves the batch submitted; no answer
ends the run with the batches behind it. -/
def reconcileDecision (answer : Except String TransactionStatusResponse)
    (batch : PayoutBatchRecord) (rest : List PayoutBatchRecord) : Outcome :=
  match batch.txid with
  | none => .goto (.markFailed (.reconcile rest) batch)
  | some _ =>
      match answer with
      | .error _ => .finish
      | .ok status =>
          if status.status = "confirmed" ∧ status.confirmations > 0 then
            .goto (.reconcileConfirm batch rest)
          else if status.status = "failed" ∨ status.status = "rejected" then
            .goto (.markFailed (.reconcile rest) batch)
          else .goto (.reconcileNext rest)

/-- A response that does not pass validation fails the batch, as no response does. -/
def signAnswered (serde : SerdeJson) (answer : Except String SignedPayoutResponse)
    (batch : PayoutBatchRecord) : Pc :=
  match answer with
  | .ok signed =>
      match acceptedStorageValue serde signed (SignPayoutRequest.ofBatch batch) with
      | .ok value => .signMark batch signed.txid value
      | .error _ => .markFailed .sign batch
  | .error _ => .markFailed .sign batch

/-- One reading step.  Program counters that write have none. -/
def Pc.read (cfg : Config) (env : Env) (db : Db) : Pc → Outcome
  | .createBegin => if db.payoutsEnabled then .goto .createUsage else .finish
  | .createUsage => createUsed (db.activePayoutTotalToday env.currentDate)
  | .createSelect used =>
      createSelected cfg env.batchId used
        (db.listPayableBalances cfg.minimumPayoutBaseUnits 1000)
  | .signBegin => if db.payoutsEnabled then .goto .signLock else .finish
  | .signLock => .lock .signInflight
  | .signInflight =>
      match db.listPayoutBatchesByStatus [.signed, .submitted] 1 with
      | _ :: _ => .goto .signCommit
      | [] => .goto .signList
  | .signList =>
      match db.listPayoutBatchesByStatus [.created] 1 with
      | batch :: _ => .goto (.signCall batch)
      | [] => .goto .signCommit
  | .signCall batch => .goto (signAnswered cfg.serde env.signer batch)
  | .signCommit => .finish
  | .submitBegin =>
      if (cfg.officialNode || cfg.adapterNode) && db.payoutsEnabled then .goto .submitList
      else .finish
  | .submitList => .goto (.submitNext (db.listPayoutBatchesByStatus [.signed] 10))
  | .submitNext [] => .finish
  | .submitNext (batch :: rest) => submitDecision cfg batch rest
  | .submitWait batch rest => .goto (submitAnswered env.submit batch rest)
  | .reconcileList => .goto (.reconcileNext (db.listPayoutBatchesByStatus [.submitted] 100))
  | .reconcileNext [] => .finish
  | .reconcileNext (batch :: rest) => reconcileDecision env.status batch rest
  | .cancelRead batchId =>
      match db.payoutBatchByIdAndStatuses batchId Db.cancellable with
      | some batch => .goto (.cancelUpdate batch)
      | none => .finish
  | .retryRead batchId newBatchId =>
      match db.payoutBatchByIdAndStatuses batchId [.failed, .cancelled] with
      | some original =>
          .goto (.retryInsert
            { batchId := newBatchId
              recipients := original.recipients
              totalBaseUnits := original.totalBaseUnits
              lockEntries := [] })
      | none => .finish
  | _ => .finish

/-! ## Steps -/

/-- The runs that can be started. -/
inductive Entry
  | createPayouts
  | signPayouts
  | submitPayouts
  | reconcilePayouts
  | cancelPayout (batchId : String)
  | retryFailedPayout (batchId newBatchId : String)
  deriving DecidableEq, Repr

def Entry.pc : Entry → Pc
  | createPayouts => .createBegin
  | signPayouts => .signBegin
  | submitPayouts => .submitBegin
  | reconcilePayouts => .reconcileList
  | cancelPayout batchId => .cancelRead batchId
  | retryFailedPayout batchId newBatchId => .retryRead batchId newBatchId

/-- What can happen next. A transaction that was sent is accepted or dropped by the node at any
later time, in any order. -/
inductive Event
  | spawn (pid : Nat) (entry : Entry)
  | run (pid : Nat) (env : Env)
  | crash (pid : Nat)
  | sever (pid : Nat)
  | nodeAccept (tx : SentTx)
  | nodeDrop (tx : SentTx)
  | approve (batchId : String)
  | setPayoutsEnabled (enabled : Bool)
  | appendRewards (entries : List LedgerEntry)

/-- The kinds that workers outside the payout path append. -/
def outsidePayouts : LedgerKind → Bool
  | .payoutLock | .payoutSent | .payoutFailedUnlock => false
  | _ => true

namespace State

/-- A database after its migrations, no run, and nothing sent. -/
def initial : State where
  db := .migrated
  procs := .empty
  signingLock := none
  severed := []
  inFlight := []
  chain := []
  unlocks := []
  approvals := []

/-- `pid` is a live run at `pc`. -/
def At (s : State) (pid : Nat) (pc : Pc) : Prop := s.procs.find? pid = some ⟨pid, pc⟩

def goto (s : State) (pid : Nat) (pc : Pc) : State := { s with procs := s.procs.put ⟨pid, pc⟩ }

/-- The advisory lock goes with the connection that took it. -/
def release (s : State) (pid : Nat) : Option Nat :=
  if s.signingLock = some pid then none else s.signingLock

/-- The run ends and its connections close. -/
def finish (s : State) (pid : Nat) : State :=
  { s with
    procs := s.procs.erase pid
    signingLock := s.release pid
    severed := s.severed.filter (· ≠ pid) }

/-- The process is gone, the statement it had sent is not. -/
def sever (s : State) (pid : Nat) : State :=
  { s with signingLock := s.release pid, severed := pid :: s.severed }

def resume (s : State) (pid : Nat) : Option Pc → State
  | some pc => s.goto pid pc
  | none => s.finish pid

/-- Nobody is left to go on after the statement of a severed run. -/
def onward (s : State) (pid : Nat) (next : Option Pc) : Option Pc :=
  if pid ∈ s.severed then none else next

/-- One step of a live run; `none` where it has to wait for the advisory lock. -/
def runProc (cfg : Config) (env : Env) (s : State) (pid : Nat) (pc : Pc) : Option State :=
  match pc.write with
  | some w =>
      match w.exec env.now s.db with
      | .error _ => some (s.finish pid)
      | .ok (updated, db) =>
          some ({ s with db, unlocks := s.unlocks ++ pc.unlocked }.resume pid
            (s.onward pid (pc.afterWrite updated)))
  | none =>
      match pc.read cfg env s.db with
      | .goto pc' => some (s.goto pid pc')
      | .send tx pc' => some ({ s with inFlight := s.inFlight ++ [tx] }.goto pid pc')
      | .lock pc' =>
          if s.signingLock = none then some ({ s with signingLock := some pid }.goto pid pc')
          else none
      | .finish => some (s.finish pid)

/-- Every event in every state; `none` where it cannot happen. A process that is severed is gone and
its statement goes on. -/
def step (cfg : Config) (s : State) : Event → Option State
  | .spawn pid entry => if s.procs.contains pid then none else some (s.goto pid entry.pc)
  | .run pid env =>
      match s.procs.find? pid with
      | some proc => runProc cfg env s pid proc.pc
      | none => none
  | .crash pid => if s.procs.contains pid then some (s.finish pid) else none
  | .sever pid =>
      match s.procs.find? pid with
      | some proc => if proc.pc.write.isSome then some (s.sever pid) else none
      | none => none
  | .nodeAccept tx =>
      if tx ∈ s.inFlight then
        some { s with inFlight := s.inFlight.erase tx, chain := s.chain ++ [tx] }
      else none
  | .nodeDrop tx =>
      if tx ∈ s.inFlight then some { s with inFlight := s.inFlight.erase tx } else none
  | .approve batchId =>
      let (approved, db) := s.db.markPayoutApproved batchId
      some { s with db, approvals := if approved then s.approvals ++ [batchId] else s.approvals }
  | .setPayoutsEnabled enabled => some { s with db := s.db.setPayoutsEnabled enabled }
  | .appendRewards entries =>
      if entries.all fun e => outsidePayouts e.kind then
        match s.db.appendLedgerEntries entries with
        | .ok db => some { s with db }
        | .error _ => none
      else none

end State

/-- The payout workers and the administrative calls of any number of processes, beside the node and
the reward workers. -/
def payoutMachine (cfg : Config) : Machine State Event where
  init := (· = .initial)
  step := State.step cfg

/-- The program counter an event moves. -/
def State.running (s : State) : Event → Option Pc
  | .run pid _ => (s.procs.find? pid).map (·.pc)
  | _ => none

/-- The stored status of a batch, if there is such a batch. -/
def State.statusOf (s : State) (batchId : String) : Option PayoutStatus :=
  (s.db.payoutBatches.find? batchId).map (·.status)

/-! ## A small pool

One miner, a node adapter, a signer that answers with a raw transaction: enough to run every
worker on closed inputs. -/

namespace Sample

def config : Config where
  minimumPayoutBaseUnits := 1
  maxPayoutBatchBaseUnits := 1000000
  maxDailyPayoutBaseUnits := 1000000
  manualPayoutApprovalBaseUnits := 500
  officialNode := false
  adapterNode := true
  serde := ⟨fun _ => .error "", fun _ => .error ""⟩

def miner : Address := "0123456789abcdef0123456789abcdef01234567"

def txid : String := "00112233445566778899aabbccddeeff00112233445566778899aabbccddeeff"

/-- A signer's answer that passes validation. -/
def signed : SignedPayoutResponse := ⟨some "aa", none, txid⟩

/-- Payouts are resumed and the miner has `amount` confirmed. -/
def funded (amount : Int) : List Event :=
  [.setPayoutsEnabled true,
   .appendRewards [⟨some miner, amount, .rewardImmature, "block", "b"⟩,
     ⟨some miner, amount, .rewardMature, "block", "b"⟩]]

/-- A run goes on alone for some steps. -/
def steps (pid : Nat) (n : Nat) : List Event := List.replicate n (.run pid {})

def create (pid : Nat) (batchId : String) : List Event :=
  [.spawn pid .createPayouts] ++ steps pid 2 ++ [.run pid { batchId }] ++ steps pid 1

def sign (pid : Nat) : List Event :=
  [.spawn pid .signPayouts] ++ steps pid 4 ++ [.run pid { signer := .ok signed }] ++ steps pid 2

/-- Up to the request that hands the transaction to the node. -/
def submitSend (pid : Nat) : List Event := [.spawn pid .submitPayouts] ++ steps pid 3

def submit (pid : Nat) : List Event :=
  submitSend pid ++ [.run pid { submit := .ok ⟨true, some txid, .null⟩ }] ++ steps pid 2

def answered (status : String) (confirmations : Nat) : Env :=
  { status := .ok ⟨txid, status, confirmations, .null⟩ }

def cancel (pid : Nat) (batchId : String) : List Event :=
  [.spawn pid (.cancelPayout batchId)] ++ steps pid 3

def retry (pid : Nat) (batchId newBatchId : String) : List Event :=
  [.spawn pid (.retryFailedPayout batchId newBatchId)] ++ steps pid 2

end Sample

end CsdPool.Payout
