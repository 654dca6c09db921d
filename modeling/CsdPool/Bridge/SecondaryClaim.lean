/-
# Bridge.SecondaryClaim — the claim before a candidate goes to the secondary node

`submit_candidate` sends the full candidate to the secondary only with a claim in hand: a
marker file created exclusively, one for all candidates (`one_shot`) or one for each candidate
hash (`continuous_bounded`).  The claim runs on a blocking thread in five steps (inspect,
create, write, sync the file, sync the directory), each of which may fail; the call waits for
it for a bounded time and goes on with a failed claim when the time is over, while the thread
goes on by itself.

Any number of calls in any number of processes share the files.  A crash of a process ends its
calls and their threads; a power loss ends all, and a marker that was not synced may be gone.
What only refuses (missing material, the circuit breaker, the concurrency limit, the health
checks) is a choice of the environment.
-/
import CsdPool.Text
import CsdPool.Theory.Machine
import CsdPool.Theory.Marks
import CsdPool.Theory.Table

namespace CsdPool.Bridge

open Theory (Keyed Table Machine Mark Marks)

set_option autoImplicit false

structure SecondaryCandidateClaim where
  mode : String
  configured : Option Nat
  before : Option Nat
  claimed : Bool
  remaining : Option Nat
  claimKey : String
  persistence : String
  error : Option String
  deriving DecidableEq, Repr

namespace SecondaryCandidateClaim

def notAttempted (mode : String) (configured remaining : Option Nat) : SecondaryCandidateClaim where
  mode := mode
  configured := configured
  before := configured
  claimed := false
  remaining := remaining
  claimKey := ""
  persistence := "not_attempted"
  error := none

def failed (mode candidateHash error : String) : SecondaryCandidateClaim where
  mode := mode
  configured := none
  before := none
  claimed := false
  remaining := none
  claimKey := candidateHash
  persistence := "o_excl_per_candidate"
  error := some error

def failedOneShot (configured : Nat) (candidateHash error : String) : SecondaryCandidateClaim where
  mode := "one_shot"
  configured := some configured
  before := some configured
  claimed := false
  remaining := some 0
  claimKey := candidateHash
  persistence := "o_excl_file"
  error := some error

end SecondaryCandidateClaim

/-- The latch file, or the directory of the journal. -/
inductive SecondaryCandidateControl
  | oneShot (budget : Nat) (latch : String)
  | continuousBounded (journal : String)
  deriving DecidableEq, Repr

/-- What the creation of the marker found. -/
inductive Opened
  | created
  | alreadyExists
  | failed (error : String)
  deriving DecidableEq, Repr

namespace SecondaryCandidateControl

def mode : SecondaryCandidateControl → String
  | oneShot _ _ => "one_shot"
  | continuousBounded _ => "continuous_bounded"

def notAttempted : SecondaryCandidateControl → SecondaryCandidateClaim
  | oneShot budget _ => .notAttempted "one_shot" (some budget) (some budget)
  | continuousBounded _ => .notAttempted "continuous_bounded" none none

def failed (control : SecondaryCandidateControl) (candidateHash error : String) :
    SecondaryCandidateClaim :=
  match control with
  | oneShot budget _ => .failedOneShot budget candidateHash error
  | continuousBounded _ => .failed "continuous_bounded" candidateHash error

def exhaustedReason : SecondaryCandidateControl → String
  | oneShot _ _ => "candidate_budget_exhausted"
  | continuousBounded _ => "candidate_already_submitted_to_secondary"

def persistenceFailureReason : SecondaryCandidateControl → String
  | oneShot _ _ => "candidate_budget_persistence_failed"
  | continuousBounded _ => "candidate_control_persistence_failed"

/-- The journal takes 64 hex digits of either case; the latch takes any text. -/
def accepts (control : SecondaryCandidateControl) (candidateHash : String) : Bool :=
  match control with
  | oneShot _ _ => true
  | continuousBounded _ =>
      candidateHash.toList.length == 64 && candidateHash.toList.all isAsciiHexdigit

/-- The marker's path below the latch or the journal: none for the latch file itself. -/
def marker (control : SecondaryCandidateControl) (candidateHash : String) : Option String :=
  match control with
  | oneShot _ _ => none
  | continuousBounded _ => some (toAsciiLowercase candidateHash)

/-- The claim of a thread that is done; `before` is what it saw before the creation. -/
def claimOf (control : SecondaryCandidateControl) (candidateHash : String) (before : Nat)
    (opened : Opened) (persisted : Except String Unit) : SecondaryCandidateClaim :=
  match control with
  | oneShot configured _ =>
      let claim (before : Nat) (claimed : Bool) (error : Option String) :
          SecondaryCandidateClaim :=
        { mode := "one_shot"
          configured := some configured
          before := some before
          claimed := claimed
          remaining := some 0
          claimKey := candidateHash
          persistence := "o_excl_file"
          error := error }
      match opened with
      | .created =>
          match persisted with
          | .ok () => claim before true none
          | .error error => claim before false (some ("persistent latch write failed: " ++ error))
      | .alreadyExists => claim 0 false none
      | .failed error => claim before false (some ("persistent latch claim failed: " ++ error))
  | continuousBounded _ =>
      let key := toAsciiLowercase candidateHash
      let claim (claimed : Bool) : SecondaryCandidateClaim :=
        { mode := "continuous_bounded"
          configured := none
          before := none
          claimed := claimed
          remaining := none
          claimKey := key
          persistence := "o_excl_per_candidate"
          error := none }
      match opened with
      | .created =>
          match persisted with
          | .ok () => claim true
          | .error error =>
              .failed "continuous_bounded" key
                ("persistent candidate journal write failed: " ++ error)
      | .alreadyExists => claim false
      | .failed error =>
          .failed "continuous_bounded" key
            ("persistent candidate journal claim failed: " ++ error)

def refusal (candidateHash : String) : SecondaryCandidateClaim :=
  .failed "continuous_bounded" candidateHash "candidate hash is not canonical 32-byte hex"

end SecondaryCandidateControl

/-! ## Calls -/

/-- The blocking thread of a claim. -/
inductive ClaimPc
  | queued
  | opening (before : Nat)
  | created (before : Nat)
  | written (before : Nat)
  | synced (before : Nat)
  | returned (claim : SecondaryCandidateClaim)
  deriving DecidableEq, Repr

/-- The call itself. -/
inductive SubmitPc
  | gates
  | waiting
  | decided (claim : SecondaryCandidateClaim)
  | finished
  deriving DecidableEq, Repr

/-- A call of `submit_candidate`; `claim` is its thread, once spawned. -/
structure SubmitCall where
  id : Nat
  process : Nat
  candidateHash : String
  claim : Option ClaimPc
  pc : SubmitPc
  deriving DecidableEq, Repr

instance instKeyedSubmitCall : Keyed SubmitCall Nat := ⟨SubmitCall.id⟩

/-- `submit_full_candidate` was called on the secondary. -/
structure SentCandidate where
  call : Nat
  candidateHash : String
  claim : SecondaryCandidateClaim
  deriving DecidableEq, Repr

structure SecondaryState where
  calls : Table SubmitCall
  nextId : Nat
  files : Marks (Option String)
  sent : List SentCandidate

inductive SecondaryEvent
  | begin (process : Nat) (candidateHash : String)
  | gate (id : Nat) (refused : Option String)
  | claim (id : Nat) (io : Except String Unit)
  | claimReturned (id : Nat)
  | claimTimedOut (id : Nat) (error : String)
  | decide (id : Nat) (health : Except String Unit)
  | crash (process : Nat)
  | powerLoss (lost : Option String → Bool)

section Machine

variable (control : SecondaryCandidateControl)

/-- One step of the blocking thread: where it goes on, and the files after it. -/
def claimStep (call : SubmitCall) (io : Except String Unit) (files : Marks (Option String)) :
    ClaimPc → Option (ClaimPc × Marks (Option String))
  | .queued =>
      if control.accepts call.candidateHash then
        some (.opening (if (files (control.marker call.candidateHash)).isNone then 1 else 0), files)
      else some (.returned (SecondaryCandidateControl.refusal call.candidateHash), files)
  | .opening before =>
      match io with
      | .error error =>
          some (.returned
            (control.claimOf call.candidateHash before (.failed error) (.ok ())), files)
      | .ok () =>
          match files (control.marker call.candidateHash) with
          | some _ =>
              some (.returned
                (control.claimOf call.candidateHash before .alreadyExists (.ok ())), files)
          | none =>
              some (.created before, files.create (control.marker call.candidateHash) call.id)
  | .created before =>
      match io with
      | .error error =>
          some (.returned (control.claimOf call.candidateHash before .created (.error error)), files)
      | .ok () => some (.written before, files)
  | .written before =>
      match io with
      | .error error =>
          some (.returned (control.claimOf call.candidateHash before .created (.error error)), files)
      | .ok () => some (.synced before, files)
  | .synced before =>
      match io with
      | .error error =>
          some (.returned (control.claimOf call.candidateHash before .created (.error error)), files)
      | .ok () =>
          some (.returned (control.claimOf call.candidateHash before .created (.ok ())),
            files.sync (control.marker call.candidateHash))
  | .returned _ => none

/-- Whether the candidate is sent, after the claim and the second health check. -/
def eligibility (claim : SecondaryCandidateClaim) (health : Except String Unit) :
    Except String Unit :=
  if claim.error.isSome then .error control.persistenceFailureReason
  else if !claim.claimed then .error control.exhaustedReason
  else health

namespace SecondaryState

def initial : SecondaryState := ⟨.empty, 0, fun _ => none, []⟩

def put (s : SecondaryState) (call : SubmitCall) : SecondaryState :=
  { s with calls := s.calls.put call }

def step (s : SecondaryState) : SecondaryEvent → Option SecondaryState
  | .begin process candidateHash =>
      some { s with
        calls := s.calls.put ⟨s.nextId, process, candidateHash, none, .gates⟩
        nextId := s.nextId + 1 }
  | .gate id refused =>
      match s.calls.find? id with
      | some ⟨id, process, hash, none, .gates⟩ =>
          match refused with
          | some _ => some (s.put ⟨id, process, hash, none, .finished⟩)
          | none => some (s.put ⟨id, process, hash, some .queued, .waiting⟩)
      | _ => none
  | .claim id io =>
      match s.calls.find? id with
      | some call =>
          match call.claim with
          | some thread =>
              (claimStep control call io s.files thread).map fun next =>
                { s.put { call with claim := some next.1 } with files := next.2 }
          | none => none
      | none => none
  | .claimReturned id =>
      match s.calls.find? id with
      | some ⟨id, process, hash, some (.returned claim), .waiting⟩ =>
          some (s.put ⟨id, process, hash, some (.returned claim), .decided claim⟩)
      | _ => none
  | .claimTimedOut id error =>
      -- or the thread's join failed
      match s.calls.find? id with
      | some ⟨id, process, hash, thread, .waiting⟩ =>
          some (s.put ⟨id, process, hash, thread, .decided (control.failed hash error)⟩)
      | _ => none
  | .decide id health =>
      match s.calls.find? id with
      | some ⟨id, process, hash, thread, .decided claim⟩ =>
          match eligibility control claim health with
          | .ok () =>
              some { s.put ⟨id, process, hash, thread, .finished⟩ with
                sent := s.sent ++ [⟨id, hash, claim⟩] }
          | .error _ => some (s.put ⟨id, process, hash, thread, .finished⟩)
      | _ => none
  | .crash process =>
      some { s with calls := s.calls.filter fun call => decide (call.process ≠ process) }
  | .powerLoss lost => some { s with calls := .empty, files := s.files.lose lost }

end SecondaryState

/-- Calls of any number of processes that share the latch file or the journal. -/
def secondaryMachine : Machine SecondaryState SecondaryEvent where
  init := (· = .initial)
  step := SecondaryState.step control

end Machine

end CsdPool.Bridge
