/-
# Bridge.OpenGates — how many candidates the gates let through, and when

What holds of the gates of `Bridge.SecondaryGates` in every order of steps of any number of calls.

* `secondary_in_flight`: permits are neither lost nor made, and in `continuous_bounded` mode no
  more requests are out than there are permits.
* `circuit_exact`: the breaker lets a call through exactly if its history does, and reports what is
  left of the cooldown.
* `open_circuit_holds`: while the breaker is open and nobody is accepted, every call between the
  gates and its record had passed the breaker before.
-/
import CsdPool.Bridge.SecondaryGates

namespace CsdPool.Bridge

open Theory (Keyed Table Machine Breaker Told)

set_option autoImplicit false

/-! ## The claims behind the gates -/

theorem step_nextId {control : SecondaryCandidateControl} {s s' : SecondaryState}
    {event : SecondaryEvent} (stepped : s.step control event = some s') :
    s.nextId ≤ s'.nextId := by
  unfold SecondaryState.step at stepped
  cases event with
  | begin process hash =>
      cases stepped
      exact Nat.le_succ _
  | gate id refused =>
      dsimp only at stepped
      split at stepped
      · split at stepped <;> cases stepped <;> exact Nat.le_refl _
      · cases stepped
  | claim id io =>
      dsimp only at stepped
      split at stepped
      · split at stepped
        · obtain ⟨next, -, rfl⟩ := Option.map_eq_some_iff.1 stepped
          exact Nat.le_refl _
        · cases stepped
      · cases stepped
  | claimReturned id =>
      dsimp only at stepped
      split at stepped <;> cases stepped
      exact Nat.le_refl _
  | claimTimedOut id error =>
      dsimp only at stepped
      split at stepped <;> cases stepped
      exact Nat.le_refl _
  | decide id health =>
      dsimp only at stepped
      split at stepped
      · split at stepped <;> cases stepped <;> exact Nat.le_refl _
      · cases stepped
  | crash process =>
      cases stepped
      exact Nat.le_refl _
  | powerLoss lost =>
      cases stepped
      exact Nat.le_refl _

/-- `claims'` is a future of `claims`. -/
abbrev Claims (control : SecondaryCandidateControl) (claims claims' : SecondaryState) : Prop :=
  ((secondaryMachine control).startingAt claims).Reachable claims'

theorem Claims.nextId {control : SecondaryCandidateControl} {claims claims' : SecondaryState}
    (later : Claims control claims claims') : claims.nextId ≤ claims'.nextId := by
  refine later.invariant (I := fun c => claims.nextId ≤ c.nextId) ?_ ?_
  · rintro _ rfl
    exact Nat.le_refl _
  · intro c event c' _ le _ stepped
    exact Nat.le_trans le (step_nextId stepped)

/-! ## The shapes of a step -/

section Shapes

/-- How a call goes on: its next stage, and the breaker after it. -/
inductive GateMove (settings : GateSettings) (s : GateState) (id : Nat) :
    GateEvent → GateStage → GateStage → SecondaryCircuitState → Prop
  | halted (open_ : s.circuit.eligibility s.now = (.error "secondary_circuit_open", s.circuit)) :
      GateMove settings s id (.circuit id) .circuit .leaving s.circuit
  | passed {circuit : SecondaryCircuitState}
      (closed : s.circuit.eligibility s.now = (.ok (), circuit)) :
      GateMove settings s id (.circuit id) .circuit .permit circuit
  | full (none_ : s.available = 0) :
      GateMove settings s id (.permit id) .permit .leaving s.circuit
  | unlimited (mode : settings.control.mode ≠ "continuous_bounded") :
      GateMove settings s id (.permit id) .permit .health s.circuit
  | unhealthy {reason : String} :
      GateMove settings s id (.health id (.error reason)) .health .leaving s.circuit
  | healthy : GateMove settings s id (.health id (.ok ())) .health .claiming s.circuit
  | posts {health : Except String Unit} :
      GateMove settings s id (.decide id health) .claiming .posting s.circuit
  | skips {health : Except String Unit} :
      GateMove settings s id (.decide id health) .claiming (.answered .skipped) s.circuit
  | answered {exchange : Exchange} {times : SubmitTimes} {outcome : SubmitOutcome} :
      GateMove settings s id (.answer id exchange times) .posting (.answered outcome) s.circuit
  | recorded {outcome : SubmitOutcome} :
      GateMove settings s id (.record id) (.answered outcome) .leaving
        (s.circuit.record settings.circuit s.now outcome)

inductive GateStepped (settings : GateSettings) (s : GateState) : GateEvent → GateState → Prop
  | begun {hash : String} {material : Bool} {stage : GateStage} {claims : SecondaryState}
      (entered : stage = .circuit ∨ stage = .leaving)
      (later : Claims settings.control s.claims claims) (taken : s.claims.nextId < claims.nextId) :
      GateStepped settings s (.begin hash material)
        { s.put ⟨s.claims.nextId, stage, false⟩ with claims }
  | moved {e : GateEvent} {call : GateCall} {stage : GateStage}
      {circuit : SecondaryCircuitState} {claims : SecondaryState} (found : s.calls.find? call.id = some call)
      (moves : GateMove settings s call.id e call.stage stage circuit)
      (later : Claims settings.control s.claims claims) :
      GateStepped settings s e { s.put { call with stage } with circuit, claims }
  | acquired {call : GateCall} (found : s.calls.find? call.id = some call)
      (here : call.stage = .permit) (left : 0 < s.available) :
      GateStepped settings s (.permit call.id)
        ({ s with available := s.available - 1 }.put ⟨call.id, .health, true⟩)
  | left {call : GateCall} (found : s.calls.find? call.id = some call) :
      GateStepped settings s (.leave call.id) (s.leave call)
  | elsewhere {event : SecondaryEvent} {claims : SecondaryState}
      (later : Claims settings.control s.claims claims) :
      GateStepped settings s (.elsewhere event) { s with claims }
  | ticked {passed : Nat} : GateStepped settings s (.tick passed) { s with now := s.now + passed }
  | restarted {e : GateEvent} {claims : SecondaryState} (reset : e = .crash ∨ ∃ lost, e = .powerLoss lost)
      (later : Claims settings.control s.claims claims) :
      GateStepped settings s e { GateState.initial settings with claims, now := s.now }

variable {settings : GateSettings} {s s' : GateState} {e : GateEvent}

theorem claims_step {control : SecondaryCandidateControl} {claims claims' : SecondaryState}
    {event : SecondaryEvent} (stepped : claims.step control event = some claims') :
    Claims control claims claims' :=
  Machine.startingAt_step (M := secondaryMachine control) stepped

theorem claims_refl (control : SecondaryCandidateControl) (claims : SecondaryState) :
    Claims control claims claims := .start rfl

theorem onCall_some {id : Nat} {stage : GateStage} {act : GateCall → Option GateState}
    (stepped : s.onCall id stage act = some s') :
    ∃ call, call.id = id ∧ s.calls.find? call.id = some call ∧ call.stage = stage ∧
      act call = some s' := by
  unfold GateState.onCall at stepped
  split at stepped
  · rename_i call found
    split at stepped
    · rename_i here
      have same : call.id = id := Table.key_of_find? found
      exact ⟨call, same, same ▸ found, here, stepped⟩
    · cases stepped
  · cases stepped

/-- A refused call leaves; the claims know. -/
theorem refuse_some {call : GateCall} {reason : String}
    (stepped : s.refuse settings call reason = some s') :
    ∃ claims, Claims settings.control s.claims claims ∧
      s' = { s.put { call with stage := .leaving } with claims } := by
  obtain ⟨claims, moved, rfl⟩ := Option.map_eq_some_iff.1 stepped
  exact ⟨claims, claims_step moved, rfl⟩

theorem gate_stepped (stepped : (gateMachine settings).step s e = some s') :
    GateStepped settings s e s' := by
  change GateState.step settings s e = some s' at stepped
  cases e with
  | begin hash material =>
      rw [GateState.step] at stepped
      split at stepped
      · cases stepped
      · rename_i claims entered
        have later := claims_step entered
        have taken : s.claims.nextId < claims.nextId := by
          cases entered
          exact Nat.lt_succ_self _
        dsimp only at stepped
        split at stepped
        · cases stepped
          exact .begun (.inl rfl) later taken
        · obtain ⟨claims', after, rfl⟩ := refuse_some stepped
          exact .begun (.inr rfl) (Machine.Reaches.trans later after)
            (Nat.lt_of_lt_of_le taken after.nextId)
  | circuit id =>
      rw [GateState.step] at stepped
      obtain ⟨call, rfl, found, here, acts⟩ := onCall_some stepped
      unfold GateState.circuitGate at acts
      split at acts
      · rename_i reason circuit open_
        have shape : reason = "secondary_circuit_open" ∧ circuit = s.circuit := by
          unfold SecondaryCircuitState.eligibility at open_
          split at open_
          · cases open_
            exact ⟨rfl, rfl⟩
          · cases open_
        obtain ⟨rfl, rfl⟩ := shape
        obtain ⟨claims, later, rfl⟩ := refuse_some acts
        exact .moved found (here ▸ .halted open_) later
      · rename_i circuit closed
        cases acts
        exact .moved found (here ▸ .passed closed) (claims_refl _ _)
  | permit id =>
      rw [GateState.step] at stepped
      obtain ⟨call, rfl, found, here, acts⟩ := onCall_some stepped
      unfold GateState.permitGate at acts
      split at acts
      · split at acts
        · rename_i left
          cases acts
          exact .acquired found here left
        · rename_i none_
          obtain ⟨claims, later, rfl⟩ := refuse_some acts
          exact .moved found (here ▸ .full (Nat.eq_zero_of_not_pos none_)) later
      · rename_i mode
        cases acts
        exact .moved found (here ▸ .unlimited mode) (claims_refl _ _)
  | health id health =>
      rw [GateState.step] at stepped
      obtain ⟨call, rfl, found, here, acts⟩ := onCall_some stepped
      cases health with
      | error reason =>
          obtain ⟨claims, later, rfl⟩ := refuse_some acts
          exact .moved found (here ▸ .unhealthy) later
      | ok _ =>
          obtain ⟨claims, moved, rfl⟩ := Option.map_eq_some_iff.1 acts
          exact .moved found (here ▸ .healthy) (claims_step moved)
  | decide id health =>
      rw [GateState.step] at stepped
      obtain ⟨call, rfl, found, here, acts⟩ := onCall_some stepped
      unfold GateState.decideGate at acts
      split at acts
      · obtain ⟨claims, moved, shape⟩ := Option.map_eq_some_iff.1 acts
        split at shape
        · cases shape
          exact .moved found (here ▸ .posts) (claims_step moved)
        · cases shape
          exact .moved found (here ▸ .skips) (claims_step moved)
      · cases acts
  | answer id exchange times =>
      rw [GateState.step] at stepped
      obtain ⟨call, rfl, found, here, acts⟩ := onCall_some stepped
      cases acts
      exact .moved found (here ▸ .answered) (claims_refl _ _)
  | record id =>
      rw [GateState.step] at stepped
      split at stepped
      · rename_i id' outcome permit found
        have same : id' = id := Table.key_of_find? found
        subst same
        cases stepped
        exact @GateStepped.moved settings s (.record id') ⟨id', .answered outcome, permit⟩ _ _ _
          found .recorded (claims_refl _ _)
      · cases stepped
  | leave id =>
      rw [GateState.step] at stepped
      obtain ⟨call, found, rfl⟩ := Option.map_eq_some_iff.1 stepped
      have same : call.id = id := Table.key_of_find? found
      subst same
      exact .left found
  | elsewhere event =>
      rw [GateState.step] at stepped
      split at stepped
      · obtain ⟨claims, moved, rfl⟩ := Option.map_eq_some_iff.1 stepped
        exact .elsewhere (claims_step moved)
      · cases stepped
  | tick passed =>
      cases stepped
      exact .ticked
  | crash =>
      rw [GateState.step] at stepped
      obtain ⟨claims, moved, rfl⟩ := Option.map_eq_some_iff.1 stepped
      exact .restarted (.inl rfl) (claims_step moved)
  | powerLoss lost =>
      rw [GateState.step] at stepped
      obtain ⟨claims, moved, rfl⟩ := Option.map_eq_some_iff.1 stepped
      exact .restarted (.inr ⟨lost, rfl⟩) (claims_step moved)

/-- **Behind the gates is the claim machine**: whatever holds of it in every run holds here. -/
theorem gates_refine (reached : (gateMachine settings).Reachable s) :
    (secondaryMachine settings.control).Reachable s.claims := by
  refine reached.invariant (I := fun s => (secondaryMachine settings.control).Reachable s.claims)
    ?_ ?_
  · rintro _ rfl
    exact .start rfl
  · intro s e s' _ before _ step
    cases gate_stepped step with
    | begun _ later _ => exact before.trans later
    | moved _ _ later => exact before.trans later
    | acquired _ _ _ => exact before
    | left _ => exact before
    | elsewhere later => exact before.trans later
    | ticked => exact before
    | restarted _ later => exact before.trans later

theorem GateMove.of_admitted {id : Nat} {stage stage' : GateStage}
    {circuit : SecondaryCircuitState} (moves : GateMove settings s id e stage stage' circuit)
    (admitted : stage'.admitted = true) :
    stage.admitted = true ∨ settings.control.mode ≠ "continuous_bounded" := by
  cases moves with
  | halted _ => cases admitted
  | passed _ => cases admitted
  | full _ => cases admitted
  | unlimited mode => exact .inr mode
  | unhealthy => cases admitted
  | healthy => exact .inl rfl
  | posts => exact .inl rfl
  | skips => exact .inl rfl
  | answered => exact .inl rfl
  | recorded => cases admitted

theorem GateMove.of_waiting {id : Nat} {stage stage' : GateStage}
    {circuit : SecondaryCircuitState} (moves : GateMove settings s id e stage stage' circuit)
    (waiting : stage' = .circuit ∨ stage' = .permit) : stage = .circuit := by
  cases moves with
  | passed _ => rfl
  | _ => rcases waiting with wrong | wrong <;> cases wrong

namespace Sample

def gateSettings : GateSettings where
  control := .continuousBounded "journal"
  process := 0
  secondary := "secondary"
  secondaryTimeoutMs := 1000
  secondaryMaxInFlight := 2
  circuit := ⟨1, 1000000000⟩

def candidateOf (digit : Char) : String := String.ofList (List.replicate 64 digit)

/-- A candidate up to its request. -/
def posting (id : Nat) (digit : Char) : List GateEvent :=
  [.begin (candidateOf digit) true, .circuit id, .permit id, .health id (.ok ())] ++
    List.replicate 5 (.elsewhere (.claim id (.ok ()))) ++
    [.elsewhere (.claimReturned id), .decide id (.ok ())]

/-- Two requests are out, and one of them times out. -/
def oneFails : List GateEvent :=
  posting 0 'a' ++ posting 1 'b' ++ [.answer 0 .timedOut ⟨0, 0, 0⟩, .record 0]

/-- A third candidate, before the cooldown is over. -/
def turnedAway : List GateEvent := [.tick 400000000, .begin (candidateOf 'c') true, .circuit 2]

end Sample

/-! ## Permits -/

/-- Where the permits are. -/
structure PermitsKept (settings : GateSettings) (s : GateState) : Prop where
  known : ∀ call ∈ s.calls.rows, call.id < s.claims.nextId
  sum : s.available + s.calls.rows.countP GateCall.permit = settings.secondaryMaxInFlight
  holding : settings.control.mode = "continuous_bounded" →
    ∀ call ∈ s.calls.rows, call.stage.admitted = true → call.permit = true
  waiting : ∀ call ∈ s.calls.rows, call.stage = .circuit ∨ call.stage = .permit →
    call.permit = false

theorem countP_erase {calls : Table GateCall} {call : GateCall}
    (found : calls.find? call.id = some call) :
    calls.rows.countP GateCall.permit =
      (calls.erase call.id).rows.countP GateCall.permit + if call.permit then 1 else 0 := by
  rw [(Table.perm_erase found).countP_eq, List.countP_cons]

/-- The row of a call is replaced. -/
theorem countP_put {calls : Table GateCall} {call : GateCall} (call' : GateCall)
    (found : calls.find? call'.id = some call) :
    (calls.put call').rows.countP GateCall.permit =
      (calls.erase call'.id).rows.countP GateCall.permit + if call'.permit then 1 else 0 := by
  have perm : (calls.put call').rows.Perm (call' :: (calls.erase call'.id).rows) :=
    Table.perm_put found
  rw [perm.countP_eq, List.countP_cons]

theorem PermitsKept.step (kept : PermitsKept settings s) (stepped : GateStepped settings s e s') :
    PermitsKept settings s' := by
  cases stepped with
  | @begun hash material stage claims entered later taken =>
      have fresh : s.calls.find? s.claims.nextId = none := by
        rw [Table.find?_eq_none_iff]
        intro call member
        exact Nat.ne_of_lt (kept.known call member)
      have rows : (s.calls.put ⟨s.claims.nextId, stage, false⟩).rows =
          s.calls.rows ++ [⟨s.claims.nextId, stage, false⟩] := Table.rows_put_of_fresh fresh
      refine ⟨?_, ?_, ?_, ?_⟩
      · intro call member
        rcases Table.mem_put.1 member with rfl | ⟨before, -⟩
        · exact taken
        · exact Nat.lt_of_lt_of_le (kept.known call before) later.nextId
      · show s.available + (s.calls.put _).rows.countP _ = _
        rw [rows, List.countP_append, List.countP_singleton, if_neg (by simp), Nat.add_zero]
        exact kept.sum
      · intro mode call member admitted
        rcases Table.mem_put.1 member with rfl | ⟨before, -⟩
        · rcases entered with rfl | rfl <;> cases admitted
        · exact kept.holding mode call before admitted
      · intro call member waits
        rcases Table.mem_put.1 member with rfl | ⟨before, -⟩
        · rfl
        · exact kept.waiting call before waits
  | @moved _ call stage after claims found moves later =>
      have inCalls := Table.mem_of_find? found
      refine ⟨?_, ?_, ?_, ?_⟩
      · intro other member
        rcases Table.mem_put.1 member with rfl | ⟨before, -⟩
        · exact Nat.lt_of_lt_of_le (kept.known call inCalls) later.nextId
        · exact Nat.lt_of_lt_of_le (kept.known other before) later.nextId
      · show s.available + (s.calls.put { call with stage }).rows.countP _ = _
        rw [countP_put { call with stage } found, ← countP_erase found]
        exact kept.sum
      · intro mode other member admitted
        rcases Table.mem_put.1 member with rfl | ⟨before, -⟩
        · rcases moves.of_admitted admitted with there | other_
          · exact kept.holding mode call inCalls there
          · exact absurd mode other_
        · exact kept.holding mode other before admitted
      · intro other member waits
        rcases Table.mem_put.1 member with rfl | ⟨before, -⟩
        · exact kept.waiting call inCalls (.inl (moves.of_waiting waits))
        · exact kept.waiting other before waits
  | @acquired call found here left =>
      have inCalls := Table.mem_of_find? found
      have none_ : call.permit = false := kept.waiting call inCalls (.inr here)
      refine ⟨?_, ?_, ?_, ?_⟩
      · intro other member
        rcases Table.mem_put.1 member with rfl | ⟨before, -⟩
        · exact kept.known call inCalls
        · exact kept.known other before
      · have before := kept.sum
        rw [countP_erase found, none_, if_neg (by simp), Nat.add_zero] at before
        show s.available - 1 + (s.calls.put ⟨call.id, .health, true⟩).rows.countP _ = _
        rw [countP_put ⟨call.id, .health, true⟩ found, if_pos rfl]
        show s.available - 1 + ((s.calls.erase call.id).rows.countP _ + 1) = _
        omega
      · intro mode other member admitted
        rcases Table.mem_put.1 member with rfl | ⟨before, -⟩
        · rfl
        · exact kept.holding mode other before admitted
      · intro other member waits
        rcases Table.mem_put.1 member with rfl | ⟨before, -⟩
        · rcases waits with wrong | wrong <;> cases wrong
        · exact kept.waiting other before waits
  | @left call found =>
      have before : ∀ other ∈ (s.calls.erase call.id).rows, other ∈ s.calls.rows :=
        fun other member => (List.mem_filter.1 member).1
      refine ⟨fun other member => kept.known other (before other member), ?_,
        fun mode other member => kept.holding mode other (before other member),
        fun other member => kept.waiting other (before other member)⟩
      have sum := kept.sum
      rw [countP_erase found] at sum
      show s.available + (if call.permit then 1 else 0) +
        (s.calls.erase call.id).rows.countP GateCall.permit = _
      omega
  | elsewhere later =>
      exact ⟨fun call member => Nat.lt_of_lt_of_le (kept.known call member) later.nextId, kept.sum,
        kept.holding, kept.waiting⟩
  | ticked => exact ⟨kept.known, kept.sum, kept.holding, kept.waiting⟩
  | restarted _ _ =>
      exact ⟨fun call member => (by cases member), rfl, fun _ call member => (by cases member),
        fun call member => (by cases member)⟩

theorem permits_kept (reached : (gateMachine settings).Reachable s) : PermitsKept settings s := by
  refine reached.invariant (I := PermitsKept settings) ?_ ?_
  · rintro _ rfl
    exact ⟨fun call member => (by cases member), rfl, fun _ call member => (by cases member),
      fun call member => (by cases member)⟩
  · intro s e s' _ kept _ step
    exact kept.step (gate_stepped step)

/-- **Requests in flight**: permits are neither lost nor made, and no more requests to the
secondary are out than there are permits. -/
theorem secondary_in_flight (reached : (gateMachine settings).Reachable s) :
    s.available + s.calls.rows.countP GateCall.permit = settings.secondaryMaxInFlight ∧
      (settings.control.mode = "continuous_bounded" →
        s.calls.rows.countP (fun call => call.stage = .posting) ≤
          settings.secondaryMaxInFlight - s.available) := by
  have kept := permits_kept reached
  refine ⟨kept.sum, fun mode => ?_⟩
  have held : s.calls.rows.countP (fun call => call.stage = .posting) ≤
      s.calls.rows.countP GateCall.permit := by
    apply List.countP_mono_left
    intro call member posting
    apply kept.holding mode call member
    rw [of_decide_eq_true posting]
    rfl
  have sum := kept.sum
  omega

theorem secondary_in_flight_sample : ∃ s, (gateMachine Sample.gateSettings).Reachable s ∧
    s.calls.rows.map GateCall.stage = [.posting, .posting] ∧
    s.calls.rows.countP (fun call => call.stage = .posting) ≤ 2 - s.available := by
  obtain ⟨s, reached, shown⟩ := Machine.exists_of_run (gateMachine Sample.gateSettings)
    (s := .initial Sample.gateSettings) rfl (Sample.posting 0 'a' ++ Sample.posting 1 'b')
    (fun s => decide (s.calls.rows.map GateCall.stage = [.posting, .posting])) (by decide +kernel)
  exact ⟨s, reached, of_decide_eq_true shown, (secondary_in_flight reached).2 rfl⟩

/-! ## The breaker -/

/-- The state as the library's breaker. -/
def SecondaryCircuitState.breaker (state : SecondaryCircuitState) : Breaker :=
  ⟨state.consecutiveFailures, state.openUntil⟩

/-- What an audit tells the breaker; a skipped call tells nothing. -/
def toldOf : SubmitOutcome → Option Told
  | .accepted => some .success
  | .skipped => none
  | _ => some .failure

theorem eligibility_breaker (state : SecondaryCircuitState) (now : Nat) :
    ((state.eligibility now).1 = .ok () ↔ state.breaker.isOpen now = false) ∧
      (state.eligibility now).2.breaker = state.breaker.asked now := by
  have open_ : state.breaker.isOpen now = state.openUntil.any fun deadline =>
      decide (now < deadline) := rfl
  unfold SecondaryCircuitState.eligibility Breaker.asked
  rw [open_]
  split
  · rename_i opened
    rw [opened]
    exact ⟨⟨nofun, nofun⟩, rfl⟩
  · rename_i closed
    exact ⟨⟨fun _ => by simpa using closed, fun _ => rfl⟩, rfl⟩

/-- The library's breaker, with the settings of a circuit. -/
def SecondaryCircuitBreaker.told (breaker : SecondaryCircuitBreaker) (b : Breaker) (now : Nat)
    (what : Told) : Breaker :=
  b.told u64Max breaker.failureThreshold.toNat breaker.cooldown now what

theorem record_breaker (breaker : SecondaryCircuitBreaker) (state : SecondaryCircuitState)
    (now : Nat) (outcome : SubmitOutcome) :
    (state.record breaker now outcome).breaker =
      (toldOf outcome).elim state.breaker (breaker.told state.breaker now) := by
  cases outcome <;> rfl

/-- What the breaker of this process was told, newest first. -/
def circuitHistory (told : List (Told × Nat)) (s : GateState) : GateEvent → List (Told × Nat)
  | .record id =>
      match s.calls.find? id with
      | some ⟨_, .answered outcome, _⟩ =>
          (toldOf outcome).elim told fun what => (what, s.now) :: told
      | _ => told
  | .crash | .powerLoss _ => []
  | _ => told

def circuitMachine (settings : GateSettings) :
    Machine (GateState × List (Told × Nat)) GateEvent :=
  (gateMachine settings).recording [] circuitHistory

/-- The breaker has taken in every outcome it was told. -/
def CircuitShows (settings : GateSettings) (s : GateState) (told : List (Told × Nat)) : Prop :=
  Breaker.Shows u64Max settings.circuit.failureThreshold.toNat settings.circuit.cooldown told
    s.now s.circuit.breaker

theorem CircuitShows.moved {told : List (Told × Nat)} (shows_ : CircuitShows settings s told)
    {call : GateCall} {stage : GateStage} {circuit : SecondaryCircuitState}
    {claims : SecondaryState} (found : s.calls.find? call.id = some call)
    (moves : GateMove settings s call.id e call.stage stage circuit) :
    CircuitShows settings { s.put { call with stage } with circuit, claims }
      (circuitHistory told s e) := by
  obtain ⟨id, here, permit⟩ := call
  cases moves with
  | @passed circuit closed =>
      have asked := (eligibility_breaker s.circuit s.now).2
      rw [closed] at asked
      show Breaker.Shows _ _ _ told s.now circuit.breaker
      rw [asked]
      exact Breaker.Shows.asked shows_
  | @recorded outcome =>
      show Breaker.Shows _ _ _ (circuitHistory told s (.record id)) s.now
        (s.circuit.record settings.circuit s.now outcome).breaker
      rw [record_breaker, circuitHistory, found]
      dsimp only
      cases toldOf outcome with
      | none => exact shows_
      | some what =>
          have counts := settings.circuit.failureThreshold.toNat_lt
          exact Breaker.Shows.told shows_ (Nat.le_sub_one_of_lt counts) what
  | _ => exact shows_

theorem circuit_shows {p : GateState × List (Told × Nat)}
    (reached : (circuitMachine settings).Reachable p) : CircuitShows settings p.1 p.2 := by
  refine reached.invariant (I := fun p => CircuitShows settings p.1 p.2) ?_ ?_
  · rintro ⟨s, told⟩ ⟨rfl, rfl⟩
    exact Breaker.shows_closed 0
  · rintro ⟨s, told⟩ e ⟨s', told'⟩ - shows_ - step
    obtain ⟨stepped, recorded⟩ := Machine.recording_step step
    dsimp only at stepped recorded shows_ ⊢
    rw [recorded]
    cases gate_stepped stepped with
    | begun _ _ _ => exact shows_
    | moved found moves _ => exact shows_.moved found moves
    | acquired _ _ _ => exact shows_
    | left _ => exact shows_
    | elsewhere _ => exact shows_
    | ticked => exact Breaker.Shows.later shows_ (Nat.le_add_right _ _)
    | restarted reset _ =>
        rcases reset with rfl | ⟨lost, rfl⟩
        · exact Breaker.shows_closed s.now
        · exact Breaker.shows_closed s.now

theorem snapshot_remaining (state : SecondaryCircuitState) (now : Nat) :
    (state.snapshot now).openRemainingMs =
      min (state.breaker.openUntil.elim 0 (· - now) / 1000000) u64Max := by
  unfold SecondaryCircuitState.snapshot SecondaryCircuitState.breaker
  cases state.openUntil with
  | none => simp
  | some deadline =>
      dsimp only [Option.elim_some]
      by_cases ahead : now ≤ deadline
      · rw [Option.filter_some, if_pos (decide_eq_true ahead), Option.map_some, Option.getD_some]
      · rw [Option.filter_some, if_neg (by simpa using ahead),
          Nat.sub_eq_zero_of_le (Nat.le_of_not_le ahead)]
        simp

/-- Where a call stands after its step. -/
theorem stage_put (s : GateState) (call : GateCall) :
    ((s.put call).calls.find? call.id).map GateCall.stage = some call.stage := by
  show ((s.calls.put call).find? call.id).map GateCall.stage = _
  rw [Table.find?_put, show Keyed.key call = call.id from rfl, if_pos rfl]
  rfl

/-- **The breaker is its history**: a call at the breaker is let through unless enough failures in
a row, no acceptance after them, have a last one whose cooldown is not over; and the snapshot is
that row and what is left of that cooldown. -/
theorem circuit_exact {told : List (Told × Nat)}
    (reached : (circuitMachine settings).Reachable (s, told)) :
    (∀ id s', (gateMachine settings).step s (.circuit id) = some s' →
      ((s'.calls.find? id).map GateCall.stage = some .permit ↔
        ¬ Breaker.Tripped settings.circuit.failureThreshold.toNat settings.circuit.cooldown
          s.now told)) ∧
    s.circuit.snapshot s.now =
      { consecutiveFailures := min (Breaker.streak told) u64Max
        openRemainingMs := min (Breaker.remaining settings.circuit.failureThreshold.toNat
          settings.circuit.cooldown s.now told / 1000000) u64Max } := by
  have shows_ : CircuitShows settings s told := circuit_shows reached
  constructor
  · intro id s' stepped
    have isOpen := shows_.isOpen s.now (Nat.le_refl _)
    have eligible := (eligibility_breaker s.circuit s.now).1
    rw [← isOpen, Bool.not_eq_true, ← eligible]
    cases gate_stepped stepped with
    | @moved _ call stage after claims found moves later =>
        obtain ⟨id', here, permit⟩ := call
        cases moves with
        | halted open_ =>
            rw [open_]
            have leaving := stage_put s ⟨id', .leaving, permit⟩
            exact ⟨fun same => absurd (leaving.symm.trans same) (by simp), nofun⟩
        | passed closed =>
            rw [closed]
            exact ⟨fun _ => rfl, fun _ => stage_put s ⟨id', .permit, permit⟩⟩
    | restarted reset _ => rcases reset with wrong | ⟨_, wrong⟩ <;> cases wrong
  · have remaining := snapshot_remaining s.circuit s.now
    rw [Breaker.Shows.time_left shows_] at remaining
    have failures : s.circuit.consecutiveFailures = _ := shows_.failures
    show SecondaryCircuitSnapshot.mk s.circuit.consecutiveFailures
      (s.circuit.snapshot s.now).openRemainingMs = _
    rw [remaining, failures]
    rfl

theorem circuit_exact_sample : ∃ s told, (circuitMachine Sample.gateSettings).Reachable (s, told) ∧
    told = [(.failure, 0)] ∧ s.circuit.snapshot s.now = ⟨1, 600⟩ := by
  obtain ⟨⟨s, told⟩, reached, shown⟩ := Machine.exists_of_run (circuitMachine Sample.gateSettings)
    (s := (.initial Sample.gateSettings, [])) ⟨rfl, rfl⟩ (Sample.oneFails ++ Sample.turnedAway)
    (fun p => decide (p.2 = [(.failure, 0)] ∧ p.1.now = 400000000)) (by decide +kernel)
  obtain ⟨history, now⟩ := of_decide_eq_true shown
  dsimp only at history now
  have snapshot := (circuit_exact reached).2
  refine ⟨s, told, reached, history, ?_⟩
  rw [snapshot, history, now]
  decide

/-! ## While the breaker is open -/

/-- Past the breaker, and not yet recorded. -/
def GateStage.inside : GateStage → Bool
  | permit => true
  | stage => stage.admitted

/-- No acceptance is recorded, and the process lives. -/
def NoAcceptance (s : GateState) : GateEvent → Prop
  | .record id => (s.calls.find? id).map GateCall.stage ≠ some (.answered .accepted)
  | .crash | .powerLoss _ => False
  | _ => True

instance (s : GateState) (e : GateEvent) : Decidable (NoAcceptance s e) :=
  match e with
  | .record id => inferInstanceAs
      (Decidable ((s.calls.find? id).map GateCall.stage ≠ some (.answered .accepted)))
  | .crash | .powerLoss _ => .isFalse id
  | .begin _ _ | .circuit _ | .permit _ | .health _ _ | .decide _ _ | .answer _ _ _ | .leave _
  | .elsewhere _ | .tick _ => .isTrue trivial

/-- What a step of a call does to the breaker. -/
theorem GateMove.breaker {id : Nat} {stage stage' : GateStage} {circuit : SecondaryCircuitState}
    (moves : GateMove settings s id e stage stage' circuit) :
    circuit.breaker = s.circuit.breaker ∨
      circuit.breaker = s.circuit.breaker.asked s.now ∨
      ∃ outcome what, e = .record id ∧ stage = .answered outcome ∧ toldOf outcome = some what ∧
        circuit.breaker = settings.circuit.told s.circuit.breaker s.now what := by
  cases moves with
  | passed closed =>
      have asked := (eligibility_breaker s.circuit s.now).2
      rw [closed] at asked
      exact .inr (.inl asked)
  | @recorded outcome =>
      rw [record_breaker]
      cases tells : toldOf outcome with
      | none => exact .inl rfl
      | some what => exact .inr (.inr ⟨outcome, what, rfl, rfl, tells, rfl⟩)
  | _ => exact .inl rfl

theorem deadline_within (reached : (gateMachine settings).Reachable s) :
    Breaker.Within settings.circuit.cooldown s.now s.circuit.breaker := by
  refine reached.invariant
    (I := fun s => Breaker.Within settings.circuit.cooldown s.now s.circuit.breaker) ?_ ?_
  · rintro _ rfl deadline ⟨⟩
  · intro s e s' _ within _ step
    cases gate_stepped step with
    | begun _ _ _ => exact within
    | @moved _ call stage after claims found moves later =>
        show Breaker.Within _ s.now after.breaker
        rcases moves.breaker with same | asked | ⟨outcome, what, -, -, -, told⟩
        · rw [same]
          exact within
        · rw [asked]
          exact within.asked
        · rw [told]
          exact within.told what
    | acquired _ _ _ => exact within
    | left _ => exact within
    | elsewhere _ => exact within
    | ticked => exact within.later (Nat.le_add_right _ _)
    | restarted _ _ => rintro deadline ⟨⟩

theorem toldOf_failure {outcome : SubmitOutcome} {what : Told} (told : toldOf outcome = some what)
    (refused : outcome ≠ .accepted) : what = .failure := by
  cases outcome with
  | accepted => exact absurd rfl refused
  | skipped => cases told
  | _ =>
      cases told
      rfl

/-- What holds of the calls while the breaker stays open. -/
structure HeldOpen (settings : GateSettings) (deadline : Nat) (s t : GateState) : Prop where
  reached : (gateMachine settings).Reachable t
  still : t.now < deadline → Breaker.OpenTill deadline t.circuit.breaker
  inside : t.now < deadline → ∀ call ∈ t.calls.rows, call.stage.inside = true →
    ∃ before ∈ s.calls.rows, before.id = call.id ∧ before.stage.inside = true

theorem GateMove.of_inside {id : Nat} {stage stage' : GateStage}
    {circuit : SecondaryCircuitState} (moves : GateMove settings s id e stage stage' circuit)
    (opened : s.circuit.breaker.isOpen s.now = true) (inside : stage'.inside = true) :
    stage.inside = true := by
  cases moves with
  | passed closed =>
      have eligible := (eligibility_breaker s.circuit s.now).1
      rw [closed, opened] at eligible
      exact absurd (eligible.1 rfl) (by simp)
  | halted _ => cases inside
  | full _ => cases inside
  | unlimited _ => rfl
  | unhealthy => cases inside
  | healthy => rfl
  | posts => rfl
  | skips => rfl
  | answered => rfl
  | recorded => cases inside

theorem HeldOpen.step {deadline : Nat} {t t' : GateState} (held : HeldOpen settings deadline s t)
    (quiet : NoAcceptance t e) (step : (gateMachine settings).step t e = some t') :
    HeldOpen settings deadline s t' := by
  refine ⟨held.reached.next trivial step, ?_, ?_⟩
  · have within := deadline_within held.reached
    cases gate_stepped step with
    | begun _ _ _ => exact held.still
    | @moved _ call stage after claims found moves later =>
        intro early
        change t.now < deadline at early
        have open_ := held.still early
        show Breaker.OpenTill deadline after.breaker
        rcases moves.breaker with same | asked | ⟨outcome, what, rfl, here, tells, told⟩
        · rw [same]
          exact open_
        · rw [asked, (open_.asked early).2]
          exact open_
        · have failure := toldOf_failure tells fun accepted =>
            quiet (by rw [found, Option.map_some, here, accepted])
          rw [told, failure]
          exact open_.failed within
    | acquired _ _ _ => exact held.still
    | left _ => exact held.still
    | elsewhere _ => exact held.still
    | ticked => exact fun early => held.still (Nat.lt_of_le_of_lt (Nat.le_add_right _ _) early)
    | restarted reset _ => rcases reset with rfl | ⟨_, rfl⟩ <;> exact quiet.elim
  · cases gate_stepped step with
    | begun entered _ _ =>
        intro early call member inside
        rcases Table.mem_put.1 member with rfl | ⟨before, -⟩
        · rcases entered with rfl | rfl <;> cases inside
        · exact held.inside early call before inside
    | @moved _ call stage after claims found moves later =>
        intro early other member inside
        have open_ := ((held.still early).asked early).1
        rcases Table.mem_put.1 member with rfl | ⟨before, -⟩
        · exact held.inside early call (Table.mem_of_find? found) (moves.of_inside open_ inside)
        · exact held.inside early other before inside
    | @acquired call found here _ =>
        intro early other member inside
        rcases Table.mem_put.1 member with rfl | ⟨before, -⟩
        · exact held.inside early call (Table.mem_of_find? found) (by rw [here]; rfl)
        · exact held.inside early other before inside
    | left _ =>
        exact fun early other member => held.inside early other (List.mem_filter.1 member).1
    | elsewhere _ => exact held.inside
    | ticked => exact fun early => held.inside (Nat.lt_of_le_of_lt (Nat.le_add_right _ _) early)
    | restarted reset _ => rcases reset with rfl | ⟨_, rfl⟩ <;> exact quiet.elim

/-- **An open breaker lets nobody through**: from a state in which it is open until `deadline`, in
every run without an acceptance, whoever is between the breaker and its record before the
deadline had passed the breaker before it opened; and the breaker is open. -/
theorem open_circuit_holds {deadline : Nat} {t : GateState}
    (reached : (gateMachine settings).Reachable s)
    (open_ : s.circuit.openUntil = some deadline)
    (later : ((gateMachine settings).startingAt s).Reaches NoAcceptance t)
    (early : t.now < deadline) :
    (t.circuit.eligibility t.now).1 = .error "secondary_circuit_open" ∧
      ∀ call ∈ t.calls.rows, call.stage.inside = true →
        ∃ before ∈ s.calls.rows, before.id = call.id ∧ before.stage.inside = true := by
  have held : HeldOpen settings deadline s t := by
    refine later.invariant (I := HeldOpen settings deadline s) ?_ ?_
    · rintro _ rfl
      exact ⟨reached, fun _ => ⟨deadline, open_, Nat.le_refl _⟩,
        fun _ call member inside => ⟨call, member, rfl, inside⟩⟩
    · intro t e t' _ held quiet step
      exact held.step quiet step
  refine ⟨?_, held.inside early⟩
  have opened := ((held.still early).asked early).1
  have opened' : t.circuit.openUntil.any (fun deadline => decide (t.now < deadline)) = true := opened
  unfold SecondaryCircuitState.eligibility
  rw [if_pos opened']

/-- The third candidate left, and the second one's request is still out. -/
def Sample.turned (t : GateState) : Bool :=
  decide (t.calls.rows.map GateCall.stage = [.leaving, .posting, .leaving] ∧ t.now < 1000000000)

def Sample.turns (s : GateState) : Bool :=
  decide (s.circuit.openUntil = some 1000000000) &&
    ((gateMachine Sample.gateSettings).runUnder NoAcceptance s Sample.turnedAway).any Sample.turned

theorem open_circuit_holds_sample :
    ∃ s t : GateState, s.circuit.openUntil = some 1000000000 ∧
      t.calls.rows.map GateCall.stage = [.leaving, .posting, .leaving] ∧
      (t.circuit.eligibility t.now).1 = .error "secondary_circuit_open" := by
  obtain ⟨s, reached, shown⟩ := Machine.exists_of_run (gateMachine Sample.gateSettings)
    (s := .initial Sample.gateSettings) rfl Sample.oneFails Sample.turns (by decide +kernel)
  obtain ⟨opened, ran⟩ := Bool.and_eq_true_iff.1 shown
  obtain ⟨t, later, shown'⟩ := Machine.exists_of_runUnder
    ((gateMachine Sample.gateSettings).startingAt s) NoAcceptance rfl Sample.turnedAway _ ran
  obtain ⟨stages, early⟩ := of_decide_eq_true shown'
  exact ⟨s, t, of_decide_eq_true opened, stages,
    (open_circuit_holds reached (of_decide_eq_true opened) later early).1⟩

end Shapes

end CsdPool.Bridge
