/-
# Bridge.SecondaryGates — what stands between a candidate and the secondary node

The secondary branch of `submit_candidate` whole: the candidate's material, the circuit breaker,
the concurrency limit, the health check, the claim of `Bridge.SecondaryClaim`, the request and
its record, for any number of calls of one process.  The calls share a breaker and a semaphore;
other processes share the claims' files alone and step as they like.

* The claims inside are a run of the claim machine (`gates_refine`), so what holds of claims in
  every run holds behind the gates.
* A permit is held from its acquisition to the end of the block, however it ends; a call that is
  dropped in the middle gives it back and is never recorded.
* A process that starts again starts with a closed breaker and all permits.

Times are nanoseconds.
-/
import CsdPool.Bridge.ParallelSubmit
import CsdPool.Consensus
import CsdPool.Theory.Breaker

namespace CsdPool.Bridge

open Theory (Keyed Table Machine Breaker Told)

set_option autoImplicit false

/-! ## The circuit breaker -/

/-- The settings of the breaker: how many failures in a row open it, and for how long. -/
structure SecondaryCircuitBreaker where
  failureThreshold : UInt64
  cooldown : Nat

/-- What is behind the breaker's mutex. -/
structure SecondaryCircuitState where
  consecutiveFailures : Nat
  openUntil : Option Nat
  deriving DecidableEq, Repr

/-- The breaker as a report shows it, with the time until it closes in milliseconds. -/
structure SecondaryCircuitSnapshot where
  consecutiveFailures : Nat
  openRemainingMs : Nat
  deriving DecidableEq, Repr

namespace SecondaryCircuitState

def new : SecondaryCircuitState := ⟨0, none⟩

/-- The breaker refuses until its deadline, and the first call at or after it clears the deadline;
the count of failures stays. -/
def eligibility (state : SecondaryCircuitState) (now : Nat) :
    Except String Unit × SecondaryCircuitState :=
  if state.openUntil.any fun deadline => decide (now < deadline) then
    (.error "secondary_circuit_open", state)
  else (.ok (), { state with openUntil := none })

/-- Of the audit, its outcome. -/
def record (breaker : SecondaryCircuitBreaker) (state : SecondaryCircuitState) (now : Nat)
    (outcome : SubmitOutcome) : SecondaryCircuitState :=
  if outcome = .accepted then { state with consecutiveFailures := 0, openUntil := none }
  else if outcome = .skipped then state
  else
    let failures := Theory.Saturating.add u64Max state.consecutiveFailures 1
    { consecutiveFailures := failures
      openUntil :=
        if breaker.failureThreshold.toNat ≤ failures then some (now + breaker.cooldown)
        else state.openUntil }

/-- A deadline that has passed is shown as no time left, as none is. -/
def snapshot (state : SecondaryCircuitState) (now : Nat) : SecondaryCircuitSnapshot where
  consecutiveFailures := state.consecutiveFailures
  openRemainingMs :=
    ((state.openUntil.filter fun deadline => decide (now ≤ deadline)).map fun deadline =>
      min ((deadline - now) / 1000000) u64Max).getD 0

end SecondaryCircuitState

/-! ## Calls -/

/-- Where a call is in the secondary branch. -/
inductive GateStage
  | circuit
  | permit
  | health
  | claiming
  | posting
  | answered (outcome : SubmitOutcome)
  | leaving
  deriving DecidableEq, Repr

/-- Between the semaphore and the record. -/
def GateStage.admitted : GateStage → Bool
  | health | claiming | posting | answered _ => true
  | _ => false

/-- A call in the secondary branch, with the permit it may hold. -/
structure GateCall where
  id : Nat
  stage : GateStage
  permit : Bool
  deriving DecidableEq, Repr

instance instKeyedGateCall : Keyed GateCall Nat := ⟨GateCall.id⟩

/-- The settings of a submitter, and the process it is in. -/
structure GateSettings where
  control : SecondaryCandidateControl
  process : Nat
  secondary : String
  secondaryTimeoutMs : Nat
  secondaryMaxInFlight : Nat
  circuit : SecondaryCircuitBreaker

/-- The submitter of one process over the claims of all of them: its calls, the permits that are
left, the breaker and the clock. -/
structure GateState where
  claims : SecondaryState
  calls : Table GateCall
  available : Nat
  circuit : SecondaryCircuitState
  now : Nat

/-- What can happen next: a call moves on by one gate, another process does something, time passes,
or the process ends. -/
inductive GateEvent
  | begin (candidateHash : String) (material : Bool)
  | circuit (id : Nat)
  | permit (id : Nat)
  | health (id : Nat) (health : Except String Unit)
  | decide (id : Nat) (health : Except String Unit)
  | answer (id : Nat) (exchange : Exchange) (times : SubmitTimes)
  | record (id : Nat)
  | leave (id : Nat)
  | elsewhere (event : SecondaryEvent)
  | tick (passed : Nat)
  | crash
  | powerLoss (lost : Option String → Bool)

namespace GateState

variable (settings : GateSettings)

/-- A process that has just started: every permit is there and the breaker is closed. -/
def initial : GateState where
  claims := .initial
  calls := .empty
  available := settings.secondaryMaxInFlight
  circuit := .new
  now := 0

def put (s : GateState) (call : GateCall) : GateState := { s with calls := s.calls.put call }

/-- The block of a call is over, or the call is dropped: its permit goes back. -/
def leave (s : GateState) (call : GateCall) : GateState :=
  { s with
    calls := s.calls.erase call.id
    available := s.available + if call.permit then 1 else 0 }

/-- A gate refuses. -/
def refuse (s : GateState) (call : GateCall) (reason : String) : Option GateState :=
  (SecondaryState.step settings.control s.claims (.gate call.id (some reason))).map fun claims =>
    { s.put { call with stage := .leaving } with claims }

/-- What other processes do, and the threads and clocks of the claims of this one. -/
def mayElsewhere (s : GateState) : SecondaryEvent → Bool
  | .begin process _ | .crash process => process ≠ settings.process
  | .gate id _ | .decide id _ =>
      (s.claims.calls.find? id).all fun call => call.process ≠ settings.process
  | .claim _ _ | .claimReturned _ | .claimTimedOut _ _ => true
  | .powerLoss _ => false

/-- The step of the call `id`, at `stage`. -/
def onCall (s : GateState) (id : Nat) (stage : GateStage) (act : GateCall → Option GateState) :
    Option GateState :=
  match s.calls.find? id with
  | some call => if call.stage = stage then act call else none
  | none => none

/-- The first gate of a call is the breaker. -/
def circuitGate (s : GateState) (call : GateCall) : Option GateState :=
  match s.circuit.eligibility s.now with
  | (.error reason, circuit) => refuse settings { s with circuit } call reason
  | (.ok (), circuit) => some ({ s with circuit }.put { call with stage := .permit })

/-- A permit is taken in `continuous_bounded` mode only, and without waiting for one. -/
def permitGate (s : GateState) (call : GateCall) : Option GateState :=
  if settings.control.mode = "continuous_bounded" then
    if 0 < s.available then
      some ({ s with available := s.available - 1 }.put ⟨call.id, .health, true⟩)
    else refuse settings s call "secondary_concurrency_limit"
  else some (s.put { call with stage := .health })

/-- The health check in front of the claim. -/
def healthGate (s : GateState) (call : GateCall) (health : Except String Unit) :
    Option GateState :=
  match health with
  | .error reason => refuse settings s call reason
  | .ok () =>
      (SecondaryState.step settings.control s.claims (.gate call.id none)).map fun claims =>
        { s.put { call with stage := .claiming } with claims }

/-- After the claim, the second health check. -/
def decideGate (s : GateState) (call : GateCall) (health : Except String Unit) :
    Option GateState :=
  match s.claims.calls.find? call.id with
  | some ⟨_, _, _, _, .decided claim⟩ =>
      (SecondaryState.step settings.control s.claims (.decide call.id health)).map fun claims =>
        match eligibility settings.control claim health with
        | .ok () => { s.put { call with stage := .posting } with claims }
        | .error _ => { s.put { call with stage := .answered .skipped } with claims }
  | _ => none

/-- `submit_full_to_node`. -/
def answerOf (exchange : Exchange) (times : SubmitTimes) : SubmitAudit :=
  submitToNode settings.secondary "best_effort" times settings.secondaryTimeoutMs exchange

def step (s : GateState) : GateEvent → Option GateState
  | .begin candidateHash material =>
      match SecondaryState.step settings.control s.claims
          (.begin settings.process candidateHash) with
      | none => none
      | some claims =>
          let call : GateCall := ⟨s.claims.nextId, .circuit, false⟩
          if material then some { s.put call with claims }
          else refuse settings { s with claims } call "stateless_candidate_material_missing"
  | .circuit id => s.onCall id .circuit (circuitGate settings s)
  | .permit id => s.onCall id .permit (permitGate settings s)
  | .health id health => s.onCall id .health fun call => healthGate settings s call health
  | .decide id health => s.onCall id .claiming fun call => decideGate settings s call health
  | .answer id exchange times => s.onCall id .posting fun call =>
      some (s.put { call with stage := .answered (answerOf settings exchange times).outcome })
  | .record id =>
      match s.calls.find? id with
      | some ⟨id, .answered outcome, permit⟩ =>
          some { s.put ⟨id, .leaving, permit⟩ with
            circuit := s.circuit.record settings.circuit s.now outcome }
      | _ => none
  | .leave id => (s.calls.find? id).map s.leave
  | .elsewhere event =>
      if s.mayElsewhere settings event then
        (SecondaryState.step settings.control s.claims event).map fun claims => { s with claims }
      else none
  | .tick passed => some { s with now := s.now + passed }
  | .crash =>
      (SecondaryState.step settings.control s.claims (.crash settings.process)).map fun claims =>
        { initial settings with claims, now := s.now }
  | .powerLoss lost =>
      (SecondaryState.step settings.control s.claims (.powerLoss lost)).map fun claims =>
        { initial settings with claims, now := s.now }

end GateState

/-- The calls of one submitter in every order of their steps. -/
def gateMachine (settings : GateSettings) : Machine GateState GateEvent where
  init := (· = .initial settings)
  step := GateState.step settings

end CsdPool.Bridge
