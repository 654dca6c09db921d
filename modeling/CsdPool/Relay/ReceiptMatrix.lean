/-
# Relay.ReceiptMatrix — what became of the scheduled deliveries

Counters are kept per lane, the state of a delivery per key, and at most
`maxTrackedDeliveries` of them are tracked: scheduling one more first drops the
oldest, of whatever lane.  The coupling is per lane (`LaneLaw`): the counters of a
lane against the tracked deliveries of that lane, with a lemma for each of the four
things that can happen to it.

The log says which delivery each counted mark belongs to.  Per key the marks run
through the states of a delivery (`follow`), so between two schedulings a stage
counts at most once and there is exactly one outcome.

A counter of the code is a `u64`.  It is at most the number of calls
(`ReceiptLaws.scheduled_le`), so it is a `Nat` here.
-/
import CsdPool.Relay.Verification

namespace CsdPool.Relay

open Theory (Keyed Table Machine)

set_option autoImplicit false

def maxTrackedDeliveries : Nat := 512

structure LatencyBuckets where
  le50ms : Nat := 0
  le100ms : Nat := 0
  le250ms : Nat := 0
  le500ms : Nat := 0
  le1000ms : Nat := 0
  le2000ms : Nat := 0
  gt2000ms : Nat := 0
  deriving DecidableEq, Repr

def LatencyBuckets.note (buckets : LatencyBuckets) (latencyMs : UInt64) : LatencyBuckets :=
  if latencyMs ≤ 50 then { buckets with le50ms := buckets.le50ms + 1 }
  else if latencyMs ≤ 100 then { buckets with le100ms := buckets.le100ms + 1 }
  else if latencyMs ≤ 250 then { buckets with le250ms := buckets.le250ms + 1 }
  else if latencyMs ≤ 500 then { buckets with le500ms := buckets.le500ms + 1 }
  else if latencyMs ≤ 1000 then { buckets with le1000ms := buckets.le1000ms + 1 }
  else if latencyMs ≤ 2000 then { buckets with le2000ms := buckets.le2000ms + 1 }
  else { buckets with gt2000ms := buckets.gt2000ms + 1 }

def LatencyBuckets.total (buckets : LatencyBuckets) : Nat :=
  buckets.le50ms + buckets.le100ms + buckets.le250ms + buckets.le500ms + buckets.le1000ms +
    buckets.le2000ms + buckets.gt2000ms

structure LaneCounters where
  scheduled : Nat := 0
  announce : Nat := 0
  request : Nat := 0
  payload : Nat := 0
  appAccept : Nat := 0
  ackVerified : Nat := 0
  negative : Nat := 0
  timeout : Nat := 0
  transport : Nat := 0
  drop : Nat := 0
  abnormal : Nat := 0
  outstanding : Nat := 0
  latency : LatencyBuckets := {}
  deriving DecidableEq, Repr

def LaneCounters.conservationOk (lane : LaneCounters) : Bool :=
  lane.scheduled = lane.ackVerified + lane.negative + lane.timeout + lane.transport + lane.drop +
    lane.abnormal + lane.outstanding

inductive Terminal
  | ackVerified (latencyMs : UInt64)
  | negative
  | timeout
  | transport
  | drop
  | abnormal
  deriving DecidableEq, Repr

abbrev Lane := NodeRole × RelaySlot

structure DeliveryKey where
  sender : NodeRole
  relay : RelaySlot
  correlation : Bytes 16
  generation : UInt64
  deriving DecidableEq

def DeliveryKey.lane (key : DeliveryKey) : Lane := (key.sender, key.relay)

/-- `ReceiptMatrix::key`. -/
def RelayAnnouncement.deliveryKey (announcement : RelayAnnouncement) : DeliveryKey where
  sender := announcement.sender
  relay := announcement.relay
  correlation := announcement.correlation
  generation := announcement.generation

structure DeliveryState where
  terminal : Bool := false
  pullRequestSeen : Bool := false
  payloadCompleteSeen : Bool := false
  applicationAcceptSeen : Bool := false
  deriving DecidableEq, Repr

/-- An entry of the map. -/
structure Delivery where
  key : DeliveryKey
  state : DeliveryState
  deriving DecidableEq

instance instKeyedDelivery : Keyed Delivery DeliveryKey := ⟨Delivery.key⟩

/-- A lane without an entry in the code's map has the default counters. -/
structure ReceiptMatrix where
  lanes : Lane → LaneCounters
  deliveries : Table Delivery
  order : List DeliveryKey

/-- The flags `note_stage` selects. -/
inductive Stage
  | pullRequest
  | payloadComplete
  | applicationAccept
  deriving DecidableEq, Repr

def Stage.seen : Stage → DeliveryState → Bool
  | .pullRequest => DeliveryState.pullRequestSeen
  | .payloadComplete => DeliveryState.payloadCompleteSeen
  | .applicationAccept => DeliveryState.applicationAcceptSeen

def Stage.mark : Stage → DeliveryState → DeliveryState
  | .pullRequest, state => { state with pullRequestSeen := true }
  | .payloadComplete, state => { state with payloadCompleteSeen := true }
  | .applicationAccept, state => { state with applicationAcceptSeen := true }

def LaneCounters.finish (lane : LaneCounters) (terminal : Terminal) : LaneCounters :=
  let lane := { lane with outstanding := lane.outstanding - 1 }
  match terminal with
  | .ackVerified latencyMs =>
      { lane with ackVerified := lane.ackVerified + 1, latency := lane.latency.note latencyMs }
  | .negative => { lane with negative := lane.negative + 1 }
  | .timeout => { lane with timeout := lane.timeout + 1 }
  | .transport => { lane with transport := lane.transport + 1 }
  | .drop => { lane with drop := lane.drop + 1 }
  | .abnormal => { lane with abnormal := lane.abnormal + 1 }

namespace ReceiptMatrix

/-- `ReceiptMatrix::default()`. -/
def empty : ReceiptMatrix := ⟨fun _ => {}, .empty, []⟩

/-- `lane_mut` and what is done to it. -/
def onLane (lanes : Lane → LaneCounters) (lane : Lane) (change : LaneCounters → LaneCounters) :
    Lane → LaneCounters :=
  Function.update lanes lane (change (lanes lane))

/-- The eviction loop, along the queue it pops. -/
def makeRoom (lanes : Lane → LaneCounters) (deliveries : Table Delivery) :
    List DeliveryKey → ReceiptMatrix
  | [] => ⟨lanes, deliveries, []⟩
  | old :: rest =>
      if maxTrackedDeliveries ≤ deliveries.rows.length then
        let lanes :=
          if (deliveries.find? old).any fun delivery => !delivery.state.terminal then
            onLane lanes old.lane fun lane =>
              { lane with outstanding := lane.outstanding - 1, drop := lane.drop + 1 }
          else lanes
        makeRoom lanes (deliveries.erase old) rest
      else ⟨lanes, deliveries, old :: rest⟩

def schedule (m : ReceiptMatrix) (announcement : RelayAnnouncement) : Bool × ReceiptMatrix :=
  let key := announcement.deliveryKey
  if m.deliveries.contains key then (false, m)
  else
    let m := makeRoom m.lanes m.deliveries m.order
    (true,
      { lanes := onLane m.lanes key.lane fun lane =>
          { lane with
            scheduled := lane.scheduled + 1
            announce := lane.announce + 1
            outstanding := lane.outstanding + 1 }
        deliveries := m.deliveries.put ⟨key, {}⟩
        order := m.order ++ [key] })

def noteStage (m : ReceiptMatrix) (announcement : RelayAnnouncement) (stage : Stage) :
    Bool × ReceiptMatrix :=
  match m.deliveries.find? announcement.deliveryKey with
  | none => (false, m)
  | some delivery =>
      if delivery.state.terminal then (false, m)
      else if stage.seen delivery.state then (false, m)
      else (true, { m with
        deliveries := m.deliveries.put { delivery with state := stage.mark delivery.state } })

/-- The three callers of `note_stage`. -/
def noteCounted (m : ReceiptMatrix) (announcement : RelayAnnouncement) (stage : Stage)
    (count : LaneCounters → LaneCounters) : Bool × ReceiptMatrix :=
  let (noted, m) := m.noteStage announcement stage
  if noted then
    (true, { m with lanes := onLane m.lanes announcement.deliveryKey.lane count })
  else (false, m)

def notePullRequest (m : ReceiptMatrix) (announcement : RelayAnnouncement) :
    Bool × ReceiptMatrix :=
  m.noteCounted announcement .pullRequest fun lane => { lane with request := lane.request + 1 }

def notePayloadComplete (m : ReceiptMatrix) (announcement : RelayAnnouncement) :
    Bool × ReceiptMatrix :=
  m.noteCounted announcement .payloadComplete fun lane => { lane with payload := lane.payload + 1 }

def noteApplicationAccept (m : ReceiptMatrix) (announcement : RelayAnnouncement) :
    Bool × ReceiptMatrix :=
  m.noteCounted announcement .applicationAccept fun lane =>
    { lane with appAccept := lane.appAccept + 1 }

def finish (m : ReceiptMatrix) (announcement : RelayAnnouncement) (terminal : Terminal) :
    Bool × ReceiptMatrix :=
  match m.deliveries.find? announcement.deliveryKey with
  | none => (false, m)
  | some delivery =>
      if delivery.state.terminal then (false, m)
      else (true, { m with
        lanes := onLane m.lanes announcement.deliveryKey.lane (·.finish terminal)
        deliveries := m.deliveries.put
          { delivery with state := { delivery.state with terminal := true } } })

def allConserved (m : ReceiptMatrix) : Bool :=
  [NodeRole.a, NodeRole.b].all fun sender =>
    [RelaySlot.d, RelaySlot.e].all fun relay => (m.lanes (sender, relay)).conservationOk

end ReceiptMatrix

/-! ## One lane

The counters of a lane against the deliveries of the lane that are tracked. -/

/-- What a call counts for a delivery. -/
inductive Mark
  | scheduled
  | stage (stage : Stage)
  | terminal (terminal : Terminal)
  deriving DecidableEq, Repr

def Mark.isTerminal : Mark → Bool
  | .terminal _ => true
  | _ => false

def Stage.note : Stage → LaneCounters → LaneCounters
  | .pullRequest, lane => { lane with request := lane.request + 1 }
  | .payloadComplete, lane => { lane with payload := lane.payload + 1 }
  | .applicationAccept, lane => { lane with appAccept := lane.appAccept + 1 }

def Stage.count : Stage → LaneCounters → Nat
  | .pullRequest => LaneCounters.request
  | .payloadComplete => LaneCounters.payload
  | .applicationAccept => LaneCounters.appAccept

/-- The counters after one more mark. -/
def LaneCounters.mark (lane : LaneCounters) : Mark → LaneCounters
  | .scheduled =>
      { lane with
        scheduled := lane.scheduled + 1
        announce := lane.announce + 1
        outstanding := lane.outstanding + 1 }
  | .stage stage => stage.note lane
  | .terminal terminal => lane.finish terminal

def Delivery.isOpen (delivery : Delivery) : Bool := !delivery.state.terminal

/-- What holds between the counters of a lane and its tracked deliveries. -/
structure LaneLaw (lane : LaneCounters) (tracked : List Delivery) : Prop where
  outstanding : lane.outstanding = tracked.countP Delivery.isOpen
  conserved : lane.conservationOk = true
  /-- A tracked delivery that has not reached a stage can still be counted for it. -/
  stages : ∀ stage : Stage,
    stage.count lane + tracked.countP (fun delivery => !stage.seen delivery.state) ≤ lane.scheduled
  latency : lane.latency.total = lane.ackVerified

theorem laneLaw_empty : LaneLaw {} [] :=
  ⟨rfl, rfl, fun stage => by cases stage <;> exact Nat.le_refl _, rfl⟩

theorem LatencyBuckets.total_ite {c : Prop} [Decidable c] {first second : LatencyBuckets} {n : Nat}
    (left : first.total = n) (right : second.total = n) :
    (if c then first else second).total = n := by
  by_cases holds : c
  · rw [if_pos holds, left]
  · rw [if_neg holds, right]

/-- Every arm counts the latency once. -/
theorem LatencyBuckets.total_note (buckets : LatencyBuckets) (latencyMs : UInt64) :
    (buckets.note latencyMs).total = buckets.total + 1 := by
  unfold LatencyBuckets.note
  refine total_ite ?_ (total_ite ?_ (total_ite ?_ (total_ite ?_ (total_ite ?_ (total_ite ?_ ?_)))))
  all_goals
    simp only [LatencyBuckets.total]
    omega

/-! What a stage's mark does to a state, and its note to the counters. -/

@[simp] theorem Stage.seen_mark (stage : Stage) (state : DeliveryState) :
    stage.seen (stage.mark state) = true := by
  cases stage <;> rfl

theorem Stage.seen_mark_ne {stage stage' : Stage} (other : stage' ≠ stage) (state : DeliveryState) :
    stage'.seen (stage.mark state) = stage'.seen state := by
  cases stage <;> cases stage' <;> first | rfl | exact absurd rfl other

@[simp] theorem Stage.terminal_mark (stage : Stage) (state : DeliveryState) :
    (stage.mark state).terminal = state.terminal := by
  cases stage <;> rfl

@[simp] theorem Stage.seen_terminal (stage : Stage) (state : DeliveryState) :
    stage.seen { state with terminal := true } = stage.seen state := by
  cases stage <;> rfl

@[simp] theorem Stage.count_note (stage : Stage) (lane : LaneCounters) :
    stage.count (stage.note lane) = stage.count lane + 1 := by
  cases stage <;> rfl

theorem Stage.count_note_ne {stage stage' : Stage} (other : stage' ≠ stage) (lane : LaneCounters) :
    stage'.count (stage.note lane) = stage'.count lane := by
  cases stage <;> cases stage' <;> first | rfl | exact absurd rfl other

theorem Stage.note_frame (stage : Stage) (lane : LaneCounters) :
    (stage.note lane).scheduled = lane.scheduled ∧
      (stage.note lane).outstanding = lane.outstanding := by
  cases stage <;> exact ⟨rfl, rfl⟩

/-- What finishing a delivery does to the counters it does not name. -/
theorem LaneCounters.finish_frame (lane : LaneCounters) (terminal : Terminal) :
    (lane.finish terminal).scheduled = lane.scheduled ∧
      (lane.finish terminal).outstanding = lane.outstanding - 1 ∧
      ∀ stage : Stage, stage.count (lane.finish terminal) = stage.count lane := by
  cases terminal <;> exact ⟨rfl, rfl, fun stage => by cases stage <;> rfl⟩

/-- An outcome moves one delivery from `outstanding` to its own counter. -/
theorem LaneCounters.conservationOk_finish {lane : LaneCounters} (terminal : Terminal)
    (conserved : lane.conservationOk = true) (some_open : 1 ≤ lane.outstanding) :
    (lane.finish terminal).conservationOk = true := by
  simp only [LaneCounters.conservationOk, decide_eq_true_eq] at conserved ⊢
  cases terminal <;> simp only [LaneCounters.finish] <;> omega

theorem LaneCounters.latency_finish {lane : LaneCounters} (terminal : Terminal)
    (latency : lane.latency.total = lane.ackVerified) :
    (lane.finish terminal).latency.total = (lane.finish terminal).ackVerified := by
  cases terminal with
  | ackVerified latencyMs =>
      show (lane.latency.note latencyMs).total = lane.ackVerified + 1
      rw [LatencyBuckets.total_note, latency]
  | _ => exact latency

section LaneLaw

variable {lane : LaneCounters} {before after : List Delivery} {delivery : Delivery}

theorem LaneLaw.scheduled (law : LaneLaw lane before) (key : DeliveryKey) :
    LaneLaw (lane.mark .scheduled) (before ++ [⟨key, {}⟩]) := by
  have conserved := law.conserved
  simp only [LaneCounters.conservationOk, decide_eq_true_eq] at conserved
  refine ⟨?_, ?_, fun stage => ?_, law.latency⟩
  · rw [List.countP_append, ← law.outstanding]
    rfl
  · refine decide_eq_true ?_
    show lane.scheduled + 1 = lane.ackVerified + lane.negative + lane.timeout + lane.transport +
      lane.drop + lane.abnormal + (lane.outstanding + 1)
    omega
  · have room := law.stages stage
    have same : stage.count (lane.mark .scheduled) = stage.count lane := by cases stage <;> rfl
    have one : List.countP (fun delivery : Delivery => !stage.seen delivery.state)
        [⟨key, {}⟩] = 1 := by cases stage <;> rfl
    rw [same, List.countP_append, one]
    show _ ≤ lane.scheduled + 1
    omega

/-- The delivery is still tracked and open, and the stage is new to it. -/
theorem LaneLaw.stage (law : LaneLaw lane (before ++ delivery :: after)) {stage : Stage}
    (fresh : stage.seen delivery.state = false) :
    LaneLaw (lane.mark (.stage stage))
      (before ++ { delivery with state := stage.mark delivery.state } :: after) := by
  have outstanding := law.outstanding
  have conserved := law.conserved
  obtain ⟨scheduled, open_⟩ := stage.note_frame lane
  refine ⟨?_, ?_, fun stage' => ?_, ?_⟩
  · show (stage.note lane).outstanding = _
    have same : Delivery.isOpen { delivery with state := stage.mark delivery.state } =
        delivery.isOpen := congrArg (!·) (stage.terminal_mark delivery.state)
    rw [open_, outstanding]
    simp only [List.countP_append, List.countP_cons, same]
  · cases stage <;> exact conserved
  · show stage'.count (stage.note lane) + _ ≤ (stage.note lane).scheduled
    have room := law.stages stage'
    simp only [List.countP_append, List.countP_cons] at room ⊢
    rw [scheduled]
    by_cases same : stage' = stage
    · subst same
      rw [Stage.count_note]
      simp only [fresh, Stage.seen_mark, Bool.not_false, Bool.not_true, if_true] at room ⊢
      simp only [Bool.false_eq_true, if_false]
      omega
    · rw [Stage.count_note_ne same, Stage.seen_mark_ne same]
      exact room
  · cases stage <;> exact law.latency

/-- An open delivery is finished and stays tracked. -/
theorem LaneLaw.finish (law : LaneLaw lane (before ++ delivery :: after))
    (isOpen : delivery.isOpen = true) (terminal : Terminal) :
    LaneLaw (lane.mark (.terminal terminal))
      (before ++ { delivery with state := { delivery.state with terminal := true } } :: after) := by
  have outstanding := law.outstanding
  obtain ⟨scheduled, minusOne, stages⟩ := lane.finish_frame terminal
  simp only [List.countP_append, List.countP_cons, isOpen, if_true] at outstanding
  refine ⟨?_, LaneCounters.conservationOk_finish terminal law.conserved (by omega), fun stage => ?_,
    LaneCounters.latency_finish terminal law.latency⟩
  · show (lane.finish terminal).outstanding = _
    rw [minusOne]
    simp only [List.countP_append, List.countP_cons]
    have closed : Delivery.isOpen
        { delivery with state := { delivery.state with terminal := true } } = false := rfl
    rw [closed]
    simp only [Bool.false_eq_true, if_false]
    omega
  · show stage.count (lane.finish terminal) + _ ≤ (lane.finish terminal).scheduled
    rw [scheduled, stages]
    have room := law.stages stage
    simp only [List.countP_append, List.countP_cons, Stage.seen_terminal] at room ⊢
    exact room

/-- The oldest delivery is dropped. -/
theorem LaneLaw.evict (law : LaneLaw lane (delivery :: after)) :
    LaneLaw (if delivery.isOpen then lane.mark (.terminal .drop) else lane) after := by
  have stages := law.stages
  have outstanding := law.outstanding
  simp only [List.countP_cons] at stages outstanding
  by_cases isOpen : delivery.isOpen = true
  · simp only [isOpen, if_true] at outstanding ⊢
    obtain ⟨scheduled, minusOne, same⟩ := lane.finish_frame .drop
    refine ⟨?_, LaneCounters.conservationOk_finish .drop law.conserved (by omega), fun stage => ?_,
      LaneCounters.latency_finish .drop law.latency⟩
    · show (lane.finish .drop).outstanding = _
      omega
    · show stage.count (lane.finish .drop) + _ ≤ (lane.finish .drop).scheduled
      have room := stages stage
      rw [scheduled, same]
      omega
  · rw [if_neg isOpen] at outstanding ⊢
    exact ⟨outstanding, law.conserved, fun stage => le_trans (by omega) (stages stage),
      law.latency⟩

end LaneLaw

/-! ## One delivery -/

/-- The marks of a delivery, one after another.  A delivery that is over may be
scheduled again. -/
def follow (state : DeliveryState) : Mark → Option DeliveryState
  | .scheduled => if state.terminal then some {} else none
  | .stage stage =>
      if state.terminal ∨ stage.seen state then none else some (stage.mark state)
  | .terminal _ => if state.terminal then none else some { state with terminal := true }

section Follow

variable {state next : DeliveryState} {stage : Stage} {terminal : Terminal}

theorem follow_scheduled :
    follow state .scheduled = some next ↔ state.terminal = true ∧ {} = next := by
  by_cases closed : state.terminal = true
  · simp [follow, closed]
  · simp [follow, closed]

theorem follow_stage : follow state (.stage stage) = some next ↔
    state.terminal = false ∧ stage.seen state = false ∧ stage.mark state = next := by
  cases closed : state.terminal <;> cases seen : stage.seen state <;> simp [follow, closed, seen]

theorem follow_terminal : follow state (.terminal terminal) = some next ↔
    state.terminal = false ∧ { state with terminal := true } = next := by
  by_cases closed : state.terminal = true
  · simp [follow, closed]
  · simp [follow, closed]

end Follow

/-- Never scheduled, so over. -/
def unscheduled : DeliveryState := { terminal := true }

/-- Since its last scheduling a delivery was counted for what its state shows. -/
theorem follow_counts {life : List Mark} (unbroken : .scheduled ∉ life)
    {state state' : DeliveryState} (followed : life.foldlM follow state = some state') :
    (∀ stage : Stage, (stage.seen state).toNat + life.count (.stage stage) =
      (stage.seen state').toNat) ∧
    state.terminal.toNat + life.countP Mark.isTerminal = state'.terminal.toNat := by
  induction life generalizing state with
  | nil =>
      obtain rfl : state = state' := Option.some.inj followed
      exact ⟨fun _ => rfl, rfl⟩
  | cons mark life ih =>
      obtain ⟨next, moved, rest⟩ := Option.bind_eq_some_iff.1 followed
      obtain ⟨stages, terminals⟩ := ih (fun later => unbroken (List.mem_cons_of_mem _ later)) rest
      cases mark with
      | scheduled => exact absurd List.mem_cons_self unbroken
      | stage stage =>
          obtain ⟨-, fresh, rfl⟩ := follow_stage.1 moved
          refine ⟨fun stage' => ?_, ?_⟩
          · have later := stages stage'
            by_cases same : stage' = stage
            · subst same
              rw [Stage.seen_mark] at later
              rw [fresh, List.count_cons_self]
              simp only [Bool.toNat_true, Bool.toNat_false] at later ⊢
              omega
            · rw [Stage.seen_mark_ne same] at later
              rw [List.count_cons_of_ne (by simpa using Ne.symm same)]
              exact later
          · rw [Stage.terminal_mark] at terminals
            rw [List.countP_cons_of_neg (by simp [Mark.isTerminal])]
            exact terminals
      | terminal terminal =>
          obtain ⟨running, rfl⟩ := follow_terminal.1 moved
          refine ⟨fun stage => ?_, ?_⟩
          · rw [← stages stage, Stage.seen_terminal, List.count_cons_of_ne (by simp)]
          · rw [List.countP_cons_of_pos rfl, running]
            simp only [Bool.toNat_true, Bool.toNat_false] at terminals ⊢
            omega

/-! ## Runs -/

inductive MatrixCall
  | schedule (announcement : RelayAnnouncement)
  | notePullRequest (announcement : RelayAnnouncement)
  | notePayloadComplete (announcement : RelayAnnouncement)
  | noteApplicationAccept (announcement : RelayAnnouncement)
  | finish (announcement : RelayAnnouncement) (terminal : Terminal)

def MatrixCall.run (m : ReceiptMatrix) : MatrixCall → Bool × ReceiptMatrix
  | .schedule announcement => m.schedule announcement
  | .notePullRequest announcement => m.notePullRequest announcement
  | .notePayloadComplete announcement => m.notePayloadComplete announcement
  | .noteApplicationAccept announcement => m.noteApplicationAccept announcement
  | .finish announcement terminal => m.finish announcement terminal

/-- The open deliveries that making room drops. -/
def ReceiptMatrix.dropped (m : ReceiptMatrix) : List DeliveryKey :=
  (m.deliveries.rows.filter fun delivery => delivery.isOpen &&
    !(ReceiptMatrix.makeRoom m.lanes m.deliveries m.order).deliveries.contains delivery.key).map
    Delivery.key

/-- The marks of a call that answers `true`, each under its delivery. -/
def MatrixCall.marks (m : ReceiptMatrix) : MatrixCall → List (DeliveryKey × Mark)
  | .schedule announcement =>
      m.dropped.map (fun key => (key, .terminal .drop)) ++ [(announcement.deliveryKey, .scheduled)]
  | .notePullRequest announcement => [(announcement.deliveryKey, .stage .pullRequest)]
  | .notePayloadComplete announcement => [(announcement.deliveryKey, .stage .payloadComplete)]
  | .noteApplicationAccept announcement => [(announcement.deliveryKey, .stage .applicationAccept)]
  | .finish announcement terminal => [(announcement.deliveryKey, .terminal terminal)]

structure MatrixLog where
  calls : Nat
  marks : List (DeliveryKey × Mark)

def matrixMachine : Machine ReceiptMatrix MatrixCall where
  init m := m = .empty
  step m call := some (call.run m).2

abbrev recordedMatrix : Machine (ReceiptMatrix × MatrixLog) MatrixCall :=
  matrixMachine.recording ⟨0, []⟩ fun log m call =>
    { calls := log.calls + 1
      marks := if (call.run m).1 then log.marks ++ call.marks m else log.marks }

def marksOf (key : DeliveryKey) (marks : List (DeliveryKey × Mark)) : List Mark :=
  (marks.filter fun entry => entry.1 = key).map Prod.snd

def laneMarks (lane : Lane) (marks : List (DeliveryKey × Mark)) : List Mark :=
  (marks.filter fun entry => entry.1.lane = lane).map Prod.snd

/-- The deliveries of a lane that are tracked. -/
def ReceiptMatrix.tracked (m : ReceiptMatrix) (lane : Lane) : List Delivery :=
  m.deliveries.rows.filter fun delivery => delivery.key.lane = lane

/-- **What every sequence of calls keeps.** -/
structure ReceiptLaws (m : ReceiptMatrix) (log : MatrixLog) : Prop where
  conserved : ∀ lane, (m.lanes lane).conservationOk = true
  outstanding : ∀ lane, (m.lanes lane).outstanding = (m.tracked lane).countP Delivery.isOpen
  /-- So no subtraction of one from it is clamped. -/
  unclamped : ∀ delivery ∈ m.deliveries.rows, delivery.isOpen = true →
    1 ≤ (m.lanes delivery.key.lane).outstanding
  stages : ∀ lane, (m.lanes lane).request ≤ (m.lanes lane).scheduled ∧
    (m.lanes lane).payload ≤ (m.lanes lane).scheduled ∧
    (m.lanes lane).appAccept ≤ (m.lanes lane).scheduled
  latency : ∀ lane, (m.lanes lane).latency.total = (m.lanes lane).ackVerified
  bounded : m.deliveries.rows.length ≤ maxTrackedDeliveries
  order : m.order = m.deliveries.rows.map Delivery.key ∧ m.order.Nodup
  /-- The counters of a lane are the marks of its deliveries, and nothing else. -/
  counted : ∀ lane, m.lanes lane = (laneMarks lane log.marks).foldl LaneCounters.mark {}
  scheduled_le : ∀ lane, (m.lanes lane).scheduled ≤ log.calls
  /-- From one scheduling of a delivery to the next, or to now. -/
  lives : ∀ key before life rest,
    marksOf key log.marks = before ++ .scheduled :: (life ++ rest) → .scheduled ∉ life →
    (∀ stage, life.count (.stage stage) ≤ 1) ∧ life.countP Mark.isTerminal ≤ 1 ∧
    (rest.head? = some .scheduled → life.countP Mark.isTerminal = 1) ∧
    (rest = [] → life.countP Mark.isTerminal =
      if (m.deliveries.find? key).any Delivery.isOpen then 0 else 1)

/-- The state a delivery's marks lead to is the one that is tracked. -/
def Followed (m : ReceiptMatrix) (marks : List (DeliveryKey × Mark)) (key : DeliveryKey) : Prop :=
  ∃ state, (marksOf key marks).foldlM follow unscheduled = some state ∧
    match m.deliveries.find? key with
    | some delivery => delivery.state = state
    | none => state.terminal = true

structure MatrixInv (m : ReceiptMatrix) (marks : List (DeliveryKey × Mark)) : Prop where
  aligned : m.deliveries.rows.map Delivery.key = m.order
  bounded : m.deliveries.rows.length ≤ maxTrackedDeliveries
  lanes : ∀ lane, LaneLaw (m.lanes lane) (m.tracked lane)
  counted : ∀ lane, m.lanes lane = (laneMarks lane marks).foldl LaneCounters.mark {}
  followed : ∀ key, Followed m marks key

theorem matrixInv_empty : MatrixInv .empty [] :=
  ⟨rfl, Nat.zero_le _, fun _ => laneLaw_empty, fun _ => rfl, fun _ => ⟨_, rfl, rfl⟩⟩

/-! ### Appending one mark -/

theorem onLane_apply (lanes : Lane → LaneCounters) (lane lane' : Lane)
    (change : LaneCounters → LaneCounters) :
    ReceiptMatrix.onLane lanes lane change lane' =
      if lane' = lane then change (lanes lane') else lanes lane' := by
  unfold ReceiptMatrix.onLane
  by_cases same : lane' = lane
  · subst same
    simp
  · simp [same]

section Append

variable {m : ReceiptMatrix} {marks : List (DeliveryKey × Mark)} {key : DeliveryKey} {mark : Mark}

theorem counted_append (inv : MatrixInv m marks) (lane : Lane) :
    ReceiptMatrix.onLane m.lanes key.lane (·.mark mark) lane =
      (laneMarks lane (marks ++ [(key, mark)])).foldl LaneCounters.mark {} := by
  rw [onLane_apply, laneMarks, List.filter_append, List.map_append, List.foldl_append]
  have before := inv.counted lane
  rw [laneMarks] at before
  rw [← before]
  by_cases same : lane = key.lane
  · simp [same]
  · simp [same, Ne.symm same]

theorem marksOf_append (key' : DeliveryKey) :
    marksOf key' (marks ++ [(key, mark)]) =
      if key' = key then marksOf key' marks ++ [mark] else marksOf key' marks := by
  simp only [marksOf, List.filter_append, List.map_append]
  by_cases same : key' = key
  · simp [same]
  · simp [same, Ne.symm same]

/-- Another delivery is followed as before. -/
theorem Followed.other {m' : ReceiptMatrix} {key' : DeliveryKey} (followed : Followed m marks key')
    (other : key' ≠ key) (same : m'.deliveries.find? key' = m.deliveries.find? key') :
    Followed m' (marks ++ [(key, mark)]) key' := by
  unfold Followed at followed ⊢
  rw [marksOf_append, if_neg other, same]
  exact followed

/-- The delivery itself takes one step. -/
theorem Followed.step {m' : ReceiptMatrix} {state : DeliveryState}
    (ran : (marksOf key marks).foldlM follow unscheduled = some state)
    {state' : DeliveryState} (moved : follow state mark = some state')
    (now : match m'.deliveries.find? key with
      | some delivery => delivery.state = state'
      | none => state'.terminal = true) :
    Followed m' (marks ++ [(key, mark)]) key := by
  refine ⟨state', ?_, now⟩
  rw [marksOf_append, if_pos rfl, List.foldlM_append, ran]
  show (follow state mark >>= fun s => [].foldlM follow s) = _
  rw [moved]
  rfl

end Append

/-! ### The four things that happen to a delivery -/

theorem find?_put_delivery (deliveries : Table Delivery) (delivery : Delivery)
    (key : DeliveryKey) : (deliveries.put delivery).find? key =
      if delivery.key = key then some delivery else deliveries.find? key :=
  Table.find?_put deliveries delivery key

section Steps

variable {m : ReceiptMatrix} {marks : List (DeliveryKey × Mark)}

/-- A tracked delivery is marked and stays tracked. -/
theorem MatrixInv.replaced (inv : MatrixInv m marks) {delivery : Delivery} {state : DeliveryState}
    {mark : Mark} (found : m.deliveries.find? delivery.key = some delivery)
    (moved : follow delivery.state mark = some state)
    (law : ∀ {lane before after}, LaneLaw lane (before ++ delivery :: after) →
      LaneLaw (lane.mark mark) (before ++ { delivery with state := state } :: after)) :
    MatrixInv ⟨ReceiptMatrix.onLane m.lanes delivery.key.lane (·.mark mark),
        m.deliveries.put { delivery with state := state }, m.order⟩
      (marks ++ [(delivery.key, mark)]) := by
  have tracked : m.deliveries.find? (Keyed.key { delivery with state := state }) = some delivery :=
    found
  obtain ⟨before, after, rows, rows'⟩ := Table.put_split tracked
  refine ⟨?_, ?_, fun lane => ?_, counted_append inv, fun key => ?_⟩
  · show (m.deliveries.put _).rows.map _ = _
    rw [rows', ← inv.aligned, rows]
    simp
  · show (m.deliveries.put _).rows.length ≤ _
    have bounded := inv.bounded
    rw [rows] at bounded
    rw [rows']
    simpa using bounded
  · dsimp only [ReceiptMatrix.tracked]
    have before' := inv.lanes lane
    rw [ReceiptMatrix.tracked, rows, List.filter_append] at before'
    rw [rows', onLane_apply, List.filter_append]
    by_cases same : lane = delivery.key.lane
    · subst same
      rw [List.filter_cons_of_pos (by simp)] at before' ⊢
      rw [if_pos rfl]
      exact law before'
    · rw [List.filter_cons_of_neg (by simpa using Ne.symm same)] at before' ⊢
      rw [if_neg same]
      exact before'
  · by_cases same : key = delivery.key
    · subst same
      obtain ⟨last, ran, agrees⟩ := inv.followed delivery.key
      rw [found] at agrees
      obtain rfl : delivery.state = last := agrees
      refine Followed.step ran moved ?_
      rw [find?_put_delivery, if_pos rfl]
    · refine (inv.followed key).other same ?_
      rw [find?_put_delivery, if_neg (Ne.symm same)]

/-- A delivery that is not tracked becomes so. -/
theorem MatrixInv.added (inv : MatrixInv m marks) {key : DeliveryKey}
    (fresh : m.deliveries.find? key = none)
    (room : m.deliveries.rows.length < maxTrackedDeliveries) :
    MatrixInv ⟨ReceiptMatrix.onLane m.lanes key.lane (·.mark .scheduled),
        m.deliveries.put ⟨key, {}⟩, m.order ++ [key]⟩
      (marks ++ [(key, .scheduled)]) := by
  have rows : (m.deliveries.put ⟨key, {}⟩).rows = m.deliveries.rows ++ [⟨key, {}⟩] :=
    Table.rows_put_of_fresh fresh
  refine ⟨?_, ?_, fun lane => ?_, counted_append inv, fun key' => ?_⟩
  · rw [rows, List.map_append, inv.aligned]
    rfl
  · rw [rows, List.length_append, List.length_singleton]
    omega
  · dsimp only [ReceiptMatrix.tracked]
    rw [rows, onLane_apply, List.filter_append]
    by_cases same : lane = key.lane
    · subst same
      rw [if_pos rfl, List.filter_cons_of_pos (by simp), List.filter_nil]
      exact (inv.lanes key.lane).scheduled key
    · rw [if_neg same, List.filter_cons_of_neg (by simpa using Ne.symm same), List.filter_nil,
        List.append_nil]
      exact inv.lanes lane
  · by_cases same : key' = key
    · subst same
      obtain ⟨last, ran, closed⟩ := inv.followed key'
      rw [fresh] at closed
      refine Followed.step ran (follow_scheduled.2 ⟨closed, rfl⟩) ?_
      rw [find?_put_delivery, if_pos rfl]
    · refine (inv.followed key').other same ?_
      rw [find?_put_delivery, if_neg (Ne.symm same)]

theorem MatrixInv.lanes_evicted (inv : MatrixInv m marks) {old : Delivery} {rest : List Delivery}
    (rows : m.deliveries.rows = old :: rest) (lane : Lane) :
    LaneLaw (if lane = old.key.lane ∧ old.isOpen then (m.lanes lane).mark (.terminal .drop)
        else m.lanes lane)
      (rest.filter fun delivery => delivery.key.lane = lane) := by
  have before := inv.lanes lane
  rw [ReceiptMatrix.tracked, rows] at before
  by_cases same : lane = old.key.lane
  · subst same
    rw [List.filter_cons_of_pos (by simp)] at before
    simpa using before.evict
  · rw [List.filter_cons_of_neg (by simpa using Ne.symm same)] at before
    rw [if_neg fun both => same both.1]
    exact before

/-- The oldest delivery is no longer tracked. -/
theorem MatrixInv.evicted (inv : MatrixInv m marks) {old : Delivery} {rest : List Delivery}
    (rows : m.deliveries.rows = old :: rest) :
    MatrixInv
      ⟨if old.isOpen then
          ReceiptMatrix.onLane m.lanes old.key.lane (·.mark (.terminal .drop)) else m.lanes,
        m.deliveries.erase old.key, rest.map Delivery.key⟩
      (if old.isOpen then marks ++ [(old.key, .terminal .drop)] else marks) := by
  have left : (m.deliveries.erase old.key).rows = rest := Table.rows_erase_head rows
  have found : m.deliveries.find? old.key = some old :=
    Table.find?_eq_some_iff.2 ⟨rows ▸ List.mem_cons_self, rfl⟩
  have laneLaw := inv.lanes_evicted rows
  have bounded : rest.length ≤ maxTrackedDeliveries := by
    have bounded := inv.bounded
    rw [rows, List.length_cons] at bounded
    omega
  have gone : (m.deliveries.erase old.key).find? old.key = none := by
    rw [Table.find?_erase, if_pos rfl]
  have others : ∀ {key}, key ≠ old.key →
      (m.deliveries.erase old.key).find? key = m.deliveries.find? key := by
    intro key other
    rw [Table.find?_erase, if_neg other]
  obtain ⟨last, ran, agrees⟩ := inv.followed old.key
  rw [found] at agrees
  obtain rfl : old.state = last := agrees
  by_cases isOpen : old.isOpen = true
  · simp only [isOpen, if_true, and_true] at laneLaw ⊢
    refine ⟨by rw [left], by rw [left]; exact bounded, fun lane => ?_, counted_append inv,
      fun key => ?_⟩
    · dsimp only [ReceiptMatrix.tracked]
      rw [onLane_apply, left]
      exact laneLaw lane
    · by_cases same : key = old.key
      · subst same
        have running : old.state.terminal = false := by simpa [Delivery.isOpen] using isOpen
        refine Followed.step ran (follow_terminal.2 ⟨running, rfl⟩) ?_
        rw [gone]
      · exact (inv.followed key).other same (others same)
  · simp only [isOpen, and_false, if_false, Bool.false_eq_true] at laneLaw ⊢
    refine ⟨by rw [left], by rw [left]; exact bounded, fun lane => ?_, inv.counted, fun key => ?_⟩
    · dsimp only [ReceiptMatrix.tracked]
      rw [left]
      exact laneLaw lane
    · by_cases same : key = old.key
      · subst same
        refine ⟨old.state, ran, ?_⟩
        rw [gone]
        simpa [Delivery.isOpen] using isOpen
      · unfold Followed
        rw [others same]
        exact inv.followed key

/-! ### The calls -/

theorem makeRoom_of_room {lanes : Lane → LaneCounters} {deliveries : Table Delivery}
    (room : deliveries.rows.length < maxTrackedDeliveries) (order : List DeliveryKey) :
    ReceiptMatrix.makeRoom lanes deliveries order = ⟨lanes, deliveries, order⟩ := by
  cases order with
  | nil => rfl
  | cons old rest => rw [ReceiptMatrix.makeRoom, if_neg (Nat.not_le.2 room)]

/-- A delivery that stays is not dropped. -/
theorem dropped_of_kept {deliveries kept : List Delivery} {table : Table Delivery}
    (rows : table.rows = kept) (among : ∀ delivery ∈ deliveries, delivery ∈ kept) :
    (deliveries.filter fun delivery => delivery.isOpen && !table.contains delivery.key) = [] := by
  rw [List.filter_eq_nil_iff]
  intro delivery member
  have tracked : table.contains delivery.key = true :=
    Table.contains_iff.2 ⟨delivery, rows ▸ among delivery member, rfl⟩
  simp [tracked]

/-- Making room keeps the invariant and logs what it drops. -/
theorem MatrixInv.makeRoom (inv : MatrixInv m marks) :
    MatrixInv (ReceiptMatrix.makeRoom m.lanes m.deliveries m.order)
        (marks ++ m.dropped.map fun key => (key, .terminal .drop)) ∧
      (ReceiptMatrix.makeRoom m.lanes m.deliveries m.order).deliveries.rows.length <
        maxTrackedDeliveries ∧
      ∀ {key}, m.deliveries.find? key = none →
        (ReceiptMatrix.makeRoom m.lanes m.deliveries m.order).deliveries.find? key = none := by
  unfold ReceiptMatrix.dropped
  by_cases room : m.deliveries.rows.length < maxTrackedDeliveries
  · rw [makeRoom_of_room room]
    rw [dropped_of_kept rfl fun _ member => member, List.map_nil, List.map_nil, List.append_nil]
    exact ⟨inv, room, id⟩
  · have full : m.deliveries.rows.length = maxTrackedDeliveries :=
      le_antisymm inv.bounded (Nat.not_lt.1 room)
    match rows : m.deliveries.rows with
    | [] =>
        rw [rows] at full
        cases full
    | old :: rest =>
        have left : (m.deliveries.erase old.key).rows = rest := Table.rows_erase_head rows
        have found : m.deliveries.find? old.key = some old :=
          Table.find?_eq_some_iff.2 ⟨rows ▸ List.mem_cons_self, rfl⟩
        have room' : (m.deliveries.erase old.key).rows.length < maxTrackedDeliveries := by
          rw [rows, List.length_cons] at full
          rw [left]
          omega
        have order : m.order = old.key :: rest.map Delivery.key := by
          rw [← inv.aligned, rows]
          rfl
        have made : ReceiptMatrix.makeRoom m.lanes m.deliveries m.order =
            ⟨if old.isOpen then
                ReceiptMatrix.onLane m.lanes old.key.lane (·.mark (.terminal .drop)) else m.lanes,
              m.deliveries.erase old.key, rest.map Delivery.key⟩ := by
          rw [order, ReceiptMatrix.makeRoom, if_pos full.ge, makeRoom_of_room room', found]
          rfl
        have dropped : ((old :: rest).filter fun delivery => delivery.isOpen &&
            !(m.deliveries.erase old.key).contains delivery.key) =
            if old.isOpen then [old] else [] := by
          have gone : (m.deliveries.erase old.key).contains old.key = false := by
            rw [Table.contains_eq_isSome, Table.find?_erase, if_pos rfl]
            rfl
          rw [List.filter_cons, dropped_of_kept left fun _ member => member, gone]
          simp
        have evicted := inv.evicted rows
        rw [made]
        refine ⟨?_, room', fun {key} fresh => ?_⟩
        · dsimp only
          rw [dropped]
          by_cases isOpen : old.isOpen = true
          · simpa [isOpen] using evicted
          · simpa [isOpen] using evicted
        · rw [Table.find?_erase, fresh, ite_self]

/-- `noted` is what a stage's caller does when it answers `true`. -/
theorem noteCounted_cases (m : ReceiptMatrix) (announcement : RelayAnnouncement) (stage : Stage)
    (count : LaneCounters → LaneCounters) :
    m.noteCounted announcement stage count = (false, m) ∨
    ∃ delivery, m.deliveries.find? announcement.deliveryKey = some delivery ∧
      follow delivery.state (.stage stage) = some (stage.mark delivery.state) ∧
      stage.seen delivery.state = false ∧
      m.noteCounted announcement stage count = (true,
        ⟨ReceiptMatrix.onLane m.lanes announcement.deliveryKey.lane count,
          m.deliveries.put { delivery with state := stage.mark delivery.state }, m.order⟩) := by
  unfold ReceiptMatrix.noteCounted ReceiptMatrix.noteStage
  cases found : m.deliveries.find? announcement.deliveryKey with
  | none => exact .inl rfl
  | some delivery =>
      by_cases closed : delivery.state.terminal = true
      · simp [closed]
      by_cases seen : stage.seen delivery.state = true
      · simp [closed, seen]
      · rw [Bool.not_eq_true] at closed seen
        refine .inr ⟨delivery, rfl, follow_stage.2 ⟨closed, seen, rfl⟩, seen, ?_⟩
        simp [closed, seen]

theorem finish_cases (m : ReceiptMatrix) (announcement : RelayAnnouncement) (terminal : Terminal) :
    m.finish announcement terminal = (false, m) ∨
    ∃ delivery, m.deliveries.find? announcement.deliveryKey = some delivery ∧
      delivery.isOpen = true ∧
      m.finish announcement terminal = (true,
        ⟨ReceiptMatrix.onLane m.lanes announcement.deliveryKey.lane (·.finish terminal),
          m.deliveries.put { delivery with state := { delivery.state with terminal := true } },
          m.order⟩) := by
  unfold ReceiptMatrix.finish
  cases found : m.deliveries.find? announcement.deliveryKey with
  | none => exact .inl rfl
  | some delivery =>
      by_cases closed : delivery.state.terminal = true
      · simp [closed]
      · refine .inr ⟨delivery, rfl, by simpa [Delivery.isOpen] using closed, ?_⟩
        simp [closed]

theorem MatrixInv.noted (inv : MatrixInv m marks) (announcement : RelayAnnouncement)
    (stage : Stage) {count : LaneCounters → LaneCounters}
    (counts : count = (·.mark (.stage stage))) :
    let answer := m.noteCounted announcement stage count
    MatrixInv answer.2
      (if answer.1 then marks ++ [(announcement.deliveryKey, .stage stage)] else marks) := by
  subst counts
  rcases noteCounted_cases m announcement stage (·.mark (.stage stage)) with
    same | ⟨delivery, found, moved, fresh, noted⟩
  · rw [same]
    exact inv
  · rw [noted]
    have key : delivery.key = announcement.deliveryKey := Table.key_of_find? found
    rw [← key] at found ⊢
    exact inv.replaced found moved fun law => law.stage fresh

/-- **One call.** -/
theorem MatrixInv.call (inv : MatrixInv m marks) (call : MatrixCall) :
    MatrixInv (call.run m).2 (if (call.run m).1 then marks ++ call.marks m else marks) := by
  cases call with
  | schedule announcement =>
      by_cases known : m.deliveries.contains announcement.deliveryKey = true
      · have same : m.schedule announcement = (false, m) := if_pos known
        show MatrixInv (m.schedule announcement).2 _
        rw [MatrixCall.run, same]
        exact inv
      · have fresh : m.deliveries.find? announcement.deliveryKey = none := by
          rw [Table.contains_eq_isSome] at known
          simpa using known
        obtain ⟨made, room, keeps⟩ := inv.makeRoom
        have added := made.added (keeps fresh) room
        rw [List.append_assoc] at added
        have went : m.schedule announcement = _ := if_neg known
        rw [MatrixCall.run, went]
        exact added
  | notePullRequest announcement => exact inv.noted announcement .pullRequest rfl
  | notePayloadComplete announcement => exact inv.noted announcement .payloadComplete rfl
  | noteApplicationAccept announcement => exact inv.noted announcement .applicationAccept rfl
  | finish announcement terminal =>
      rcases finish_cases m announcement terminal with same | ⟨delivery, found, isOpen, finished⟩
      · rw [MatrixCall.run, same]
        exact inv
      · rw [MatrixCall.run, finished]
        have key : delivery.key = announcement.deliveryKey := Table.key_of_find? found
        have running : delivery.state.terminal = false := by simpa [Delivery.isOpen] using isOpen
        have moved : follow delivery.state (.terminal terminal) =
            some { delivery.state with terminal := true } := follow_terminal.2 ⟨running, rfl⟩
        show MatrixInv _ (marks ++ [(announcement.deliveryKey, .terminal terminal)])
        rw [← key] at found ⊢
        exact inv.replaced found moved fun law => law.finish isOpen terminal

/-! ### Whole runs -/

theorem matrixInv_of_reachable {log : MatrixLog} (reached : recordedMatrix.Reachable (m, log)) :
    MatrixInv m log.marks := by
  refine reached.invariant (I := fun p => MatrixInv p.1 p.2.marks) ?_ ?_
  · rintro ⟨m, log⟩ ⟨rfl, rfl⟩
    exact matrixInv_empty
  · intro p call p' _ inv _ stepped
    obtain ⟨moved, logged⟩ := Machine.recording_step stepped
    rw [logged, ← Option.some.inj moved]
    exact inv.call call

/-- The `scheduled` counter is the number of schedulings. -/
theorem scheduled_foldl (marks : List Mark) (lane : LaneCounters) :
    (marks.foldl LaneCounters.mark lane).scheduled = lane.scheduled + marks.count .scheduled := by
  induction marks generalizing lane with
  | nil => rfl
  | cons mark marks ih =>
      rw [List.foldl_cons, ih]
      cases mark with
      | scheduled =>
          rw [List.count_cons_self]
          show lane.scheduled + 1 + _ = _
          omega
      | stage stage =>
          have kept : (lane.mark (.stage stage)).scheduled = lane.scheduled := by
            cases stage <;> rfl
          rw [kept, List.count_cons_of_ne (by simp)]
      | terminal terminal =>
          have kept : (lane.mark (.terminal terminal)).scheduled = lane.scheduled :=
            (lane.finish_frame terminal).1
          rw [kept, List.count_cons_of_ne (by simp)]

/-- A call schedules at most one delivery. -/
theorem scheduled_le_calls {log : MatrixLog} (reached : recordedMatrix.Reachable (m, log)) :
    (log.marks.map Prod.snd).count .scheduled ≤ log.calls := by
  refine reached.invariant (I := fun p => (p.2.marks.map Prod.snd).count .scheduled ≤ p.2.calls)
    ?_ ?_
  · rintro ⟨m, log⟩ ⟨-, rfl⟩
    exact Nat.le_refl _
  · rintro ⟨m, log⟩ call p' _ le _ stepped
    rw [(Machine.recording_step stepped).2]
    have one : ((call.marks m).map Prod.snd).count .scheduled ≤ 1 := by
      cases call with
      | schedule announcement =>
          have drops : ((m.dropped.map fun key => (key, Mark.terminal .drop)).map
              Prod.snd).count .scheduled = 0 := by
            rw [List.count_eq_zero]
            simp
          rw [MatrixCall.marks, List.map_append, List.count_append, drops]
          exact Nat.le_refl _
      | _ => exact Nat.zero_le _
    dsimp only at le ⊢
    by_cases noted : (call.run m).1 = true
    · rw [if_pos noted, List.map_append, List.count_append]
      omega
    · rw [if_neg noted]
      omega

theorem lives_of_followed {key : DeliveryKey} (followed : Followed m marks key)
    {before life rest : List Mark}
    (split : marksOf key marks = before ++ .scheduled :: (life ++ rest))
    (unbroken : .scheduled ∉ life) :
    (∀ stage, life.count (.stage stage) ≤ 1) ∧ life.countP Mark.isTerminal ≤ 1 ∧
    (rest.head? = some .scheduled → life.countP Mark.isTerminal = 1) ∧
    (rest = [] → life.countP Mark.isTerminal =
      if (m.deliveries.find? key).any Delivery.isOpen then 0 else 1) := by
  obtain ⟨last, ran, agrees⟩ := followed
  rw [split, List.foldlM_append] at ran
  obtain ⟨closed, -, ran⟩ := Option.bind_eq_some_iff.1 ran
  obtain ⟨begun, scheduled, ran⟩ := Option.bind_eq_some_iff.1 ran
  obtain ⟨-, rfl⟩ := follow_scheduled.1 scheduled
  rw [List.foldlM_append] at ran
  obtain ⟨state, lived, ran⟩ := Option.bind_eq_some_iff.1 ran
  obtain ⟨stages, terminals⟩ := follow_counts unbroken lived
  have terminals : life.countP Mark.isTerminal = state.terminal.toNat := by simpa using terminals
  refine ⟨fun stage => ?_, ?_, fun again => ?_, fun ended => ?_⟩
  · have counted := stages stage
    have le_one := Bool.toNat_le (stage.seen state)
    omega
  · rw [terminals]
    exact Bool.toNat_le _
  · obtain ⟨after, rfl⟩ : ∃ after, rest = .scheduled :: after := by
      cases rest with
      | nil => cases again
      | cons mark after =>
          obtain rfl := Option.some.inj again
          exact ⟨after, rfl⟩
    obtain ⟨next, moved, -⟩ := Option.bind_eq_some_iff.1 ran
    rw [terminals, (follow_scheduled.1 moved).1]
    rfl
  · subst ended
    obtain rfl : state = last := Option.some.inj ran
    rw [terminals]
    cases found : m.deliveries.find? key with
    | none =>
        rw [found] at agrees
        have closed : state.terminal = true := agrees
        rw [closed]
        rfl
    | some delivery =>
        rw [found] at agrees
        obtain rfl : delivery.state = state := agrees
        rw [Option.any_some]
        cases terminal : delivery.state.terminal
        · simp [Delivery.isOpen, terminal]
        · simp [Delivery.isOpen, terminal]

/-- The matrix's own check never fails. -/
theorem allConserved_of_reachable {log : MatrixLog}
    (reached : recordedMatrix.Reachable (m, log)) : m.allConserved = true := by
  have inv := matrixInv_of_reachable reached
  simp only [ReceiptMatrix.allConserved, List.all_eq_true]
  exact fun sender _ relay _ => (inv.lanes (sender, relay)).conserved

/-- **Receipt conservation.** -/
theorem receipt_conservation {log : MatrixLog} (reached : recordedMatrix.Reachable (m, log)) :
    ReceiptLaws m log := by
  have inv := matrixInv_of_reachable reached
  have order : m.order = m.deliveries.rows.map Delivery.key := inv.aligned.symm
  refine ⟨fun lane => (inv.lanes lane).conserved, fun lane => (inv.lanes lane).outstanding,
    fun delivery member isOpen => ?_, fun lane => ?_, fun lane => (inv.lanes lane).latency,
    inv.bounded, ⟨order, order ▸ m.deliveries.unique⟩, inv.counted, fun lane => ?_,
    fun key before life rest split unbroken =>
      lives_of_followed (inv.followed key) split unbroken⟩
  · rw [(inv.lanes delivery.key.lane).outstanding]
    refine List.countP_pos_iff.2 ⟨delivery, ?_, isOpen⟩
    exact List.mem_filter.2 ⟨member, by simp⟩
  · have stages := (inv.lanes lane).stages
    exact ⟨le_trans (Nat.le_add_right _ _) (stages .pullRequest),
      le_trans (Nat.le_add_right _ _) (stages .payloadComplete),
      le_trans (Nat.le_add_right _ _) (stages .applicationAccept)⟩
  · rw [inv.counted lane, scheduled_foldl]
    refine le_trans ?_ (scheduled_le_calls reached)
    show 0 + (laneMarks lane log.marks).count .scheduled ≤ _
    rw [Nat.zero_add]
    exact (List.filter_sublist.map Prod.snd).count_le _

end Steps

/-- A delivery whose callbacks come twice, and one that is left open. -/
def callbacksTwice : List MatrixCall :=
  let delivered := markedAnnouncement .a .d 1
  [.schedule delivered, .schedule (markedAnnouncement .a .d 2), .schedule delivered,
    .notePullRequest delivered, .notePullRequest delivered, .notePayloadComplete delivered,
    .noteApplicationAccept delivered, .finish delivered (.ackVerified 120), .finish delivered .drop]

/-- Two deliveries on one lane, of which one has come to its end, with every callback made twice. -/
theorem receipts_of_callbacks_twice : ∃ p : ReceiptMatrix × MatrixLog,
    (p.1.lanes (.a, .d)).scheduled = 2 ∧ (p.1.lanes (.a, .d)).outstanding = 1 ∧
      (p.1.lanes (.a, .d)).request = 1 ∧ ReceiptLaws p.1 p.2 := by
  obtain ⟨p, reached, counted⟩ := Machine.exists_of_run recordedMatrix
    (s := (.empty, ⟨0, []⟩)) ⟨rfl, rfl⟩ callbacksTwice
    (fun p => decide ((p.1.lanes (.a, .d)).scheduled = 2 ∧ (p.1.lanes (.a, .d)).outstanding = 1 ∧
      (p.1.lanes (.a, .d)).request = 1)) (by decide +kernel)
  obtain ⟨scheduled, outstanding, request⟩ := of_decide_eq_true counted
  exact ⟨p, scheduled, outstanding, request, receipt_conservation reached⟩

end CsdPool.Relay
