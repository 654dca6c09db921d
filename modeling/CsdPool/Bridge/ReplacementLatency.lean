/-
# Bridge.ReplacementLatency — the telemetry of tip replacements

An event follows one tip from its observation over the replacement job to the fan-out of that
job to the sessions.  Events, the roster of tracked sessions and two indexes live behind one lock
that is only ever tried; the session totals are atomics outside of it.  A session that misses the
lock when it is authorized goes untracked, and one that misses it when it is dropped stays on the
roster as stale.

Every operation on an atomic outside the lock is a step, and so is every section under the lock.
The section of `mark_published` is more than one: it loads three atomics, and between the loads
other tasks go on counting, while their attempts at the lock fail.  Any attempt may fail.

A clock reading is in nanoseconds.  Counts are numbers without a bound; those of the source are
64 bits wide.  A step adds at most one to each count that a section decides on, so in a run of fewer
than 2^64 steps these are the source's own (`counts_within`).  `finished` keeps every summary with
its event, also when `completed` has dropped it.
-/
import Mathlib.Data.Finset.Card
import CsdPool.Theory.Machine
import CsdPool.Theory.Table

namespace CsdPool.Bridge.ReplacementLatency

open Theory (Keyed Machine Table)

set_option autoImplicit false

def maxInFlightEvents : Nat := 16
def maxTrackedSessions : Nat := 1024
def maxCompletedSummaries : Nat := 16
def maxLogsPerMinute : Nat := 120
def maxCorrelationKeyBytes : Nat := 128
def eventTimeout : Nat := 30 * 10 ^ 9
def logWindow : Nat := 60 * 10 ^ 9

/-- Who saw the new tip first. -/
inductive UpstreamClass
  | primaryAlreadyReady
  | independentSentinelAhead
  deriving DecidableEq, Repr

def UpstreamClass.asStr : UpstreamClass → String
  | .primaryAlreadyReady => "primary_already_ready"
  | .independentSentinelAhead => "independent_sentinel_ahead"

/-- What became of the notify to one session. -/
inductive FanoutOutcome
  | success
  | failed
  | skipped
  deriving DecidableEq, Repr

/-- The atomics. -/
structure Counters where
  nextId : Nat
  droppedEvents : Nat
  droppedSessions : Nat
  untrackedSessions : Nat
  untrackedActiveSessions : Nat
  rosterCleanupFailures : Nat
  staleTrackedSessions : Nat
  droppedLogs : Nat
  activeSessionTotal : Nat
  lockContention : Nat
  lockPoisoned : Nat
  outOfOrder : Nat
  deriving DecidableEq, Repr

/-- `totals` are the atomics its `_total` fields are read from. -/
structure LatencySummary where
  correlationId : String
  source : String
  status : String
  reason : String
  observedToAReadyMs : Option Nat
  aReadyToPublishedMs : Option Nat
  publishedToFanoutMs : Option Nat
  totalMs : Option Nat
  targetSessions : Nat
  notifySuccess : Nat
  notifyFailed : Nat
  notifySkipped : Nat
  trackingGapSessions : Nat
  staleRosterSessions : Nat
  totals : Counters

/-- One replacement on its way: the keys that lead to it, when each stage was reached, and where its
sessions are. -/
structure LatencyEvent where
  id : Nat
  source : UpstreamClass
  dedupeKey : String
  replacementKey : Option String
  observedAt : Nat
  aReadyAt : Option Nat
  publishedAt : Option Nat
  targetSessions : Nat
  pendingSessions : Finset Nat
  notifySuccess : Nat
  notifyFailed : Nat
  notifySkipped : Nat
  trackingGapSessions : Nat
  staleRosterSessions : Nat
  deriving DecidableEq

instance : Keyed LatencyEvent Nat := ⟨LatencyEvent.id⟩

/-- What is behind the lock: the roster, the events, the two indexes and what was finished last. -/
structure LatencyState where
  activeSessions : Finset Nat
  events : Table LatencyEvent
  dedupe : String → Option Nat
  publishedJobs : String → Option Nat
  completed : List LatencySummary
  logWindowStarted : Nat
  logsInWindow : Nat

/-- The atomics, what is behind the lock, and every summary so far. -/
structure Telemetry where
  counters : Counters
  state : LatencyState
  finished : List (Nat × LatencySummary)

structure Config where
  enabled : Bool
  runId : Nat
  /-- Summaries go to a log queue. -/
  logSender : Bool
  /-- The id each session was made with. -/
  sessionId : Nat → Nat

def Counters.zero : Counters := ⟨1, 0, 0, 0, 0, 0, 0, 0, 0, 0, 0, 0⟩

/-- The telemetry at the start of the bridge. -/
def Telemetry.new (now : Nat) : Telemetry where
  counters := .zero
  state := ⟨∅, .empty, fun _ => none, fun _ => none, [], now, 0⟩
  finished := []

/-! ## Under the lock -/

/-- `now.checked_duration_since(earlier)`. -/
def checkedDurationSince (now earlier : Nat) : Option Nat :=
  if earlier ≤ now then some (now - earlier) else none

/-- Nothing, unless both stages were reached in this order. -/
def elapsedMsPair (start finish : Option Nat) : Option Nat := do
  let finish ← finish
  let start ← start
  let elapsed ← checkedDurationSince finish start
  return min (elapsed / 10 ^ 6) (2 ^ 64 - 1)

/-- Eight hex digits at least. -/
def hexPadded (n : Nat) : List Char := (Nat.toDigits 16 n).leftpad 8 '0'

/-- So many summaries a minute are logged. -/
def logAllowed (state : LatencyState) (now : Nat) : Bool × LatencyState :=
  let state :=
    if (checkedDurationSince now state.logWindowStarted).any fun elapsed =>
        decide (logWindow ≤ elapsed) then
      { state with logWindowStarted := now, logsInWindow := 0 }
    else state
  if maxLogsPerMinute ≤ state.logsInWindow then (false, state)
  else (true, { state with logsInWindow := state.logsInWindow + 1 })

section Locked

variable (config : Config)

/-- The run and the event, in hex. -/
def correlationId (eventId : Nat) : String :=
  String.ofList (hexPadded config.runId ++ '-' :: hexPadded eventId)

-- The log queue is `full` when the summary of an event is sent.
variable (full : Nat → Bool)

/-- What is reported of an event. The sessions it still waited for count as skipped; where some
could not be followed the last two times are left out. -/
def summaryOf (counters : Counters) (event : LatencyEvent) (status reason : String)
    (finishedAt : Nat) : LatencySummary :=
  let fanoutUnobservable := decide (status = "tracking_gap")
  { correlationId := correlationId config event.id
    source := event.source.asStr
    status
    reason
    observedToAReadyMs := elapsedMsPair (some event.observedAt) event.aReadyAt
    aReadyToPublishedMs := elapsedMsPair event.aReadyAt event.publishedAt
    publishedToFanoutMs :=
      if fanoutUnobservable then none else elapsedMsPair event.publishedAt (some finishedAt)
    totalMs :=
      if fanoutUnobservable then none
      else elapsedMsPair (some event.observedAt) (some finishedAt)
    targetSessions := event.targetSessions
    notifySuccess := event.notifySuccess
    notifyFailed := event.notifyFailed
    notifySkipped := event.notifySkipped + event.pendingSessions.card
    trackingGapSessions := event.trackingGapSessions
    staleRosterSessions := event.staleRosterSessions
    totals := counters }

/-- `finish_locked` up to the log: the event leaves the maps, and its summary is kept. -/
def LatencyState.finish (state : LatencyState) (event : LatencyEvent) (summary : LatencySummary) :
    LatencyState :=
  let completed :=
    if maxCompletedSummaries ≤ state.completed.length then state.completed.tail
    else state.completed
  { state with
    events := state.events.erase event.id
    dedupe := Function.update state.dedupe event.dedupeKey none
    publishedJobs :=
      match event.replacementKey with
      | some replacementKey => Function.update state.publishedJobs replacementKey none
      | none => state.publishedJobs
    completed := completed ++ [summary] }

/-- An event that is there leaves the maps, and its summary goes to the log if there is room. -/
def finishLocked (t : Telemetry) (eventId : Nat) (status reason : String) (finishedAt : Nat) :
    Telemetry :=
  match t.state.events.find? eventId with
  | none => t
  | some event =>
      let summary := summaryOf config t.counters event status reason finishedAt
      let logged := logAllowed (t.state.finish event summary) finishedAt
      let dropped := if logged.1 then config.logSender && full event.id else true
      { counters :=
          { t.counters with droppedLogs := t.counters.droppedLogs + if dropped then 1 else 0 }
        state := logged.2
        finished := t.finished ++ [(event.id, summary)] }

/-- An event with sessions that could not be followed is never complete. -/
def finishFanoutLocked (t : Telemetry) (eventId : Nat) (completeReason : String)
    (finishedAt : Nat) : Telemetry :=
  if (t.state.events.find? eventId).any fun event => decide (0 < event.trackingGapSessions) then
    finishLocked config full t eventId "tracking_gap" "untracked_sessions" finishedAt
  else finishLocked config full t eventId "complete" completeReason finishedAt

/-- The events past their time. -/
def expireLocked (t : Telemetry) (now : Nat) : Telemetry :=
  let expired := t.state.events.rows.filter fun event =>
    (checkedDurationSince now event.observedAt).any fun elapsed => decide (eventTimeout ≤ elapsed)
  (expired.map LatencyEvent.id).foldl
    (fun t id => finishLocked config full t id "timeout" "stage_timeout" now) t

/-- A tip that was just observed. -/
def LatencyEvent.observed (id : Nat) (source : UpstreamClass) (dedupeKey : String) (now : Nat) :
    LatencyEvent where
  id
  source
  dedupeKey
  replacementKey := none
  observedAt := now
  aReadyAt := none
  publishedAt := none
  targetSessions := 0
  pendingSessions := ∅
  notifySuccess := 0
  notifyFailed := 0
  notifySkipped := 0
  trackingGapSessions := 0
  staleRosterSessions := 0

/-- What `observe_upstream_at` does under the lock, and what it returns. -/
def observeLocked (t : Telemetry) (dedupeKey : String) (source : UpstreamClass) (now : Nat) :
    Telemetry × Option Nat :=
  let t := expireLocked config full t now
  match (t.state.dedupe dedupeKey).bind t.state.events.find? with
  | some event => (t, some event.id)
  | none =>
      let dedupe := Function.update t.state.dedupe dedupeKey none
      if maxInFlightEvents ≤ t.state.events.rows.length then
        ({ t with
          counters := { t.counters with droppedEvents := t.counters.droppedEvents + 1 }
          state := { t.state with dedupe } }, none)
      else
        let id := t.counters.nextId
        ({ t with
          counters := { t.counters with nextId := id + 1 }
          state :=
            { t.state with
              dedupe := Function.update dedupe dedupeKey (some id)
              events := t.state.events.put (.observed id source dedupeKey now) } }, some id)

def Telemetry.countOutOfOrder (t : Telemetry) : Telemetry :=
  { t with counters := { t.counters with outOfOrder := t.counters.outOfOrder + 1 } }

def Telemetry.countDroppedEvent (t : Telemetry) : Telemetry :=
  { t with counters := { t.counters with droppedEvents := t.counters.droppedEvents + 1 } }

/-- `state.events.get_mut(&event_id)`, and a change of what is there. -/
def Telemetry.modifyEvent (t : Telemetry) (eventId : Nat) (f : LatencyEvent → LatencyEvent)
    (keeps : ∀ event, (f event).id = event.id := by intro; rfl) : Telemetry :=
  { t with state :=
    { t.state with events := (t.state.events.update eventId (fun _ => true) f keeps).1 } }

/-- The replacement job is ready; a second report leaves the first time. -/
def markAReadyLocked (t : Telemetry) (eventId now : Nat) : Telemetry :=
  let t := expireLocked config full t now
  if (t.state.events.find? eventId).any fun event =>
      event.publishedAt.isSome || (checkedDurationSince now event.observedAt).isNone then
    finishLocked config full t.countOutOfOrder eventId "failed" "out_of_order" now
  else
    t.modifyEvent eventId fun event => { event with aReadyAt := some (event.aReadyAt.getD now) }

/-- Take a session out of what an event waits for. -/
def LatencyEvent.skip (sessionId : Nat) (event : LatencyEvent) : LatencyEvent :=
  if sessionId ∈ event.pendingSessions then
    { event with
      pendingSessions := event.pendingSessions.erase sessionId
      notifySkipped := event.notifySkipped + 1 }
  else event

theorem LatencyEvent.skip_id (sessionId : Nat) (event : LatencyEvent) :
    (event.skip sessionId).id = event.id := by
  unfold skip
  split <;> rfl

/-- The loop over the events the session still stands in, except one; what it leaves without a
session is finished. -/
def skipSession (t : Telemetry) (sessionId : Nat) (except : Option Nat) (reason : String)
    (now : Nat) : Telemetry :=
  let applies (event : LatencyEvent) : Bool := decide (except ≠ some event.id)
  let removed := t.state.events.rows.filter fun event =>
    applies event && decide (sessionId ∈ event.pendingSessions)
  let done := removed.filter fun event =>
    event.publishedAt.isSome && decide (event.pendingSessions.erase sessionId = ∅)
  let t : Telemetry :=
    { t with state :=
      { t.state with
        events := t.state.events.map
          (fun event => if applies event then event.skip sessionId else event) (by
            intro event
            show LatencyEvent.id (if _ then _ else _) = event.id
            split
            · exact event.skip_id sessionId
            · rfl) } }
  (done.map LatencyEvent.id).foldl (fun t id => finishFanoutLocked config full t id reason now) t

/-- A session that was on the roster leaves it, and every event that waits for it. -/
def deactivateLocked (t : Telemetry) (sessionId now : Nat) : Telemetry :=
  let missing := decide (sessionId ∉ t.state.activeSessions)
  let t : Telemetry :=
    { t with
      counters :=
        { t.counters with
          rosterCleanupFailures :=
            t.counters.rosterCleanupFailures + if missing then 1 else 0 }
      state := { t.state with activeSessions := t.state.activeSessions.erase sessionId } }
  skipSession config full t sessionId none "session_disconnected" now

/-- The outcome of a notify, for a session the event waits for. -/
def LatencyEvent.record (sessionId : Nat) (outcome : FanoutOutcome) (event : LatencyEvent) :
    LatencyEvent :=
  let event := { event with pendingSessions := event.pendingSessions.erase sessionId }
  match outcome with
  | .success => { event with notifySuccess := event.notifySuccess + 1 }
  | .failed => { event with notifyFailed := event.notifyFailed + 1 }
  | .skipped => { event with notifySkipped := event.notifySkipped + 1 }

theorem LatencyEvent.record_id (sessionId : Nat) (outcome : FanoutOutcome)
    (event : LatencyEvent) : (event.record sessionId outcome).id = event.id := by
  cases outcome <;> rfl

/-- The worst outcome gives the reason. -/
def fanoutReason (event : LatencyEvent) : String :=
  if 0 < event.notifyFailed then "partial_notify_failure"
  else if 0 < event.notifySkipped then "partial_notify_skip"
  else "all_notified"

/-- The outcome of a notify. The session leaves every other event it stands in, and the job's event
too; that one is finished with its last session. -/
def recordFanoutLocked (t : Telemetry) (sessionId : Nat) (replacementKey : String)
    (outcome : FanoutOutcome) (now : Nat) : Telemetry :=
  let t := expireLocked config full t now
  match t.state.publishedJobs replacementKey with
  | none => t
  | some eventId =>
      let t := skipSession config full t sessionId (some eventId) "superseded" now
      match t.state.events.find? eventId with
      | none => t
      | some event =>
          if sessionId ∈ event.pendingSessions then
            let recorded := event.record sessionId outcome
            let t := t.modifyEvent eventId (LatencyEvent.record sessionId outcome)
              (LatencyEvent.record_id sessionId outcome)
            if recorded.pendingSessions = ∅ then
              finishFanoutLocked config full t eventId (fanoutReason recorded) now
            else t
          else t

/-! ## Publication -/

/-- What `mark_published` has loaded so far. -/
inductive Loads
  | none
  | active (activeTotal : Nat)
  | untracked (activeTotal untrackedActive : Nat)
  deriving DecidableEq, Repr

/-- `mark_published` in its section. -/
structure Publishing where
  eventId : Nat
  replacementKey : String
  now : Nat
  loads : Loads

/-- `mark_published_at` up to its loads; it goes on with a publication, or is done. -/
def beginPublish (t : Telemetry) (eventId : Nat) (replacementKey : String) (now : Nat) :
    Telemetry × Option Publishing :=
  let t := expireLocked config full t now
  if maxCorrelationKeyBytes < replacementKey.utf8ByteSize then
    (finishLocked config full t.countDroppedEvent eventId "failed" "replacement_key_oversize" now,
      none)
  else if (t.state.events.find? eventId).any fun event =>
      event.aReadyAt.isNone || event.publishedAt.isSome ||
        (event.aReadyAt.bind (checkedDurationSince now)).isNone then
    (finishLocked config full t.countOutOfOrder eventId "failed" "out_of_order" now, none)
  else (t, some ⟨eventId, replacementKey, now, .none⟩)

/-- The roster is not the one the totals speak of. -/
def rosterInconsistent (tracked active untracked stale : Nat) : Bool :=
  decide (0 < stale) || decide (tracked ≠ active - untracked)

/-- The event of a publication that cannot be followed. -/
def LatencyEvent.publishGap (active tracked stale now : Nat) (replacementKey : String)
    (event : LatencyEvent) : LatencyEvent :=
  { event with
    publishedAt := some now
    replacementKey := some replacementKey
    targetSessions := active
    notifySkipped := active
    trackingGapSessions := active
    staleRosterSessions := max stale (tracked - active) }

/-- The event of a publication: it waits for the roster, and counts the others as skipped. -/
def LatencyEvent.publish (active untracked : Nat) (roster : Finset Nat) (now : Nat)
    (replacementKey : String) (event : LatencyEvent) : LatencyEvent :=
  { event with
    publishedAt := some now
    replacementKey := some replacementKey
    targetSessions := active
    pendingSessions := roster
    notifySkipped := untracked
    trackingGapSessions := untracked }

/-- The event waits for the roster from now on, and the job leads to it. -/
def Telemetry.publishEvent (t : Telemetry) (eventId : Nat) (replacementKey : String)
    (now active untracked : Nat) : Telemetry :=
  let published := t.modifyEvent eventId
    (LatencyEvent.publish active untracked t.state.activeSessions now replacementKey)
  { published with state :=
    { published.state with
      publishedJobs := Function.update t.state.publishedJobs replacementKey (some eventId) } }

/-- The rest of `mark_published_at`, once everything is loaded. -/
def commitPublish (t : Telemetry) (eventId : Nat) (replacementKey : String)
    (now active untracked stale : Nat) : Telemetry :=
  let tracked := t.state.activeSessions.card
  if (t.state.events.find? eventId).isNone then t
  else if rosterInconsistent tracked active untracked stale then
    let t := t.modifyEvent eventId (LatencyEvent.publishGap active tracked stale now replacementKey)
    finishLocked config full t eventId "tracking_gap"
      (if 0 < stale ∨ active < tracked then "stale_session_roster"
        else "session_roster_inconsistent") now
  else
    let published := t.publishEvent eventId replacementKey now active untracked
    if t.state.activeSessions = ∅ then
      finishLocked config full published eventId
        (if active = 0 then "complete" else "tracking_gap")
        (if active = 0 then "zero_sessions" else "untracked_sessions") now
    else published

end Locked

/-! ## Steps -/

/-- `try_lock`. -/
inductive TryLock
  | held
  | wouldBlock
  | poisoned
  deriving DecidableEq, Repr

/-- The atomics that a session adds to outside of the lock. -/
inductive CounterOp
  | droppedSessions
  | untrackedSessions
  | untrackedActiveSessions
  | rosterCleanupFailures
  | staleTrackedSessions
  deriving DecidableEq, Repr

/-- `fetch_add(1)`. -/
def Counters.add (c : Counters) : CounterOp → Counters
  | .droppedSessions => { c with droppedSessions := c.droppedSessions + 1 }
  | .untrackedSessions => { c with untrackedSessions := c.untrackedSessions + 1 }
  | .untrackedActiveSessions =>
      { c with untrackedActiveSessions := c.untrackedActiveSessions + 1 }
  | .rosterCleanupFailures => { c with rosterCleanupFailures := c.rosterCleanupFailures + 1 }
  | .staleTrackedSessions => { c with staleTrackedSessions := c.staleTrackedSessions + 1 }

/-- What a session adds to that is not on the roster. -/
def countUntrackedSession : List CounterOp :=
  [.droppedSessions, .untrackedSessions, .untrackedActiveSessions]

/-- Where a `TelemetrySession` is; the operations it still has to make stand with it. -/
inductive SessionPc
  | new
  | entering
  | counting (todo : List CounterOp)
  | active (tracked : Bool)
  | leaving (tracked : Bool)
  | cleaning (todo : List CounterOp)
  | gone
  deriving DecidableEq, Repr

/-- The telemetry, the publication that holds the lock, and where each session is. -/
structure State where
  telemetry : Telemetry
  publishing : Option Publishing
  sessions : Nat → SessionPc

/-- What the tasks do.  `full` says for which summaries the log queue is full. -/
inductive Event
  | observeUpstream (dedupeKey : String) (source : UpstreamClass) (now : Nat) (lock : TryLock)
      (full : Nat → Bool)
  | markAReady (eventId now : Nat) (lock : TryLock) (full : Nat → Bool)
  | markPublished (eventId : Nat) (replacementKey : String) (now : Nat) (lock : TryLock)
      (full : Nat → Bool)
  | load (full : Nat → Bool)
  | failEvent (eventId : Nat) (reason : String) (now : Nat) (lock : TryLock) (full : Nat → Bool)
  | expire (now : Nat) (lock : TryLock) (full : Nat → Bool)
  | recordNotify (session : Nat) (replacementKey : String) (outcome : FanoutOutcome) (now : Nat)
      (lock : TryLock) (full : Nat → Bool)
  | authorize (session : Nat)
  | activate (session : Nat) (lock : TryLock)
  | count (session : Nat)
  | drop (session : Nat)
  | untrack (session : Nat)
  | deactivate (session now : Nat) (lock : TryLock) (full : Nat → Bool)

namespace State

def start (now : Nat) : State := ⟨.new now, none, fun _ => .new⟩

def mapCounters (s : State) (f : Counters → Counters) : State :=
  { s with telemetry := { s.telemetry with counters := f s.telemetry.counters } }

def move (s : State) (session : Nat) (pc : SessionPc) : State :=
  { s with sessions := Function.update s.sessions session pc }

/-- `try_state`: the lock is free unless `mark_published` is in its section; a miss is counted. -/
def tryState (s : State) (lock : TryLock) (inside missed : State → State) : Option State :=
  match lock with
  | .held => if s.publishing.isSome then none else some (inside s)
  | .wouldBlock =>
      some (missed (s.mapCounters fun c => { c with lockContention := c.lockContention + 1 }))
  | .poisoned =>
      some (missed (s.mapCounters fun c => { c with lockPoisoned := c.lockPoisoned + 1 }))

def mapTelemetry (s : State) (f : Telemetry → Telemetry) : State :=
  { s with telemetry := f s.telemetry }

/-- `activate_session` under the lock. -/
def activateLocked (s : State) (session sessionId : Nat) : State :=
  let roster := s.telemetry.state.activeSessions
  if maxTrackedSessions ≤ roster.card ∨ sessionId ∈ roster then
    (s.mapCounters fun c => countUntrackedSession.foldl Counters.add c).move session (.active false)
  else
    (s.mapTelemetry fun t =>
      { t with state := { t.state with activeSessions := insert sessionId roster } }).move session
        (.active true)

/-- The next load of `mark_published`; the last one ends the section. -/
def load (config : Config) (full : Nat → Bool) (s : State) (p : Publishing) : State :=
  match p.loads with
  | .none =>
      { s with
        publishing := some { p with loads := .active s.telemetry.counters.activeSessionTotal } }
  | .active activeTotal =>
      { s with
        publishing := some { p with
          loads := .untracked activeTotal s.telemetry.counters.untrackedActiveSessions } }
  | .untracked activeTotal untrackedActive =>
      { s with
        telemetry := commitPublish config full s.telemetry p.eventId p.replacementKey p.now
          activeTotal untrackedActive s.telemetry.counters.staleTrackedSessions
        publishing := none }

/-- One atomic operation or one section. The telemetry is off altogether unless configured, and
everything then leaves the state as it is. -/
def step (config : Config) (s : State) (event : Event) : Option State :=
  if !config.enabled then some s
  else
    match event with
    | .observeUpstream dedupeKey source now lock full =>
        if maxCorrelationKeyBytes < dedupeKey.utf8ByteSize then
          some (s.mapCounters fun c => { c with droppedEvents := c.droppedEvents + 1 })
        else
          s.tryState lock
            (fun s => s.mapTelemetry fun t => (observeLocked config full t dedupeKey source now).1)
            id
    | .markAReady eventId now lock full =>
        s.tryState lock (fun s => s.mapTelemetry fun t => markAReadyLocked config full t eventId now)
          id
    | .markPublished eventId replacementKey now lock full =>
        s.tryState lock
          (fun s =>
            let begun := beginPublish config full s.telemetry eventId replacementKey now
            { s with telemetry := begun.1, publishing := begun.2 })
          id
    | .load full => s.publishing.map (s.load config full)
    | .failEvent eventId reason now lock full =>
        s.tryState lock
          (fun s => s.mapTelemetry fun t => finishLocked config full t eventId "failed" reason now)
          id
    | .expire now lock full =>
        s.tryState lock (fun s => s.mapTelemetry fun t => expireLocked config full t now) id
    | .recordNotify session replacementKey outcome now lock full =>
        match s.sessions session with
        | .active _ =>
            s.tryState lock
              (fun s => s.mapTelemetry fun t =>
                recordFanoutLocked config full t (config.sessionId session) replacementKey outcome
                  now)
              id
        | _ => none
    | .authorize session =>
        match s.sessions session with
        | .new =>
            some ((s.mapCounters fun c =>
              { c with activeSessionTotal := c.activeSessionTotal + 1 }).move session .entering)
        | _ => none
    | .activate session lock =>
        match s.sessions session with
        | .entering =>
            s.tryState lock (fun s => s.activateLocked session (config.sessionId session))
              fun s => s.move session (.counting countUntrackedSession)
        | _ => none
    | .count session =>
        match s.sessions session with
        | .counting (op :: todo) =>
            some ((s.mapCounters fun c => c.add op).move session
              (if todo = [] then .active false else .counting todo))
        | .cleaning (op :: todo) =>
            some ((s.mapCounters fun c => c.add op).move session
              (if todo = [] then .gone else .cleaning todo))
        | _ => none
    | .drop session =>
        match s.sessions session with
        | .active tracked =>
            some ((s.mapCounters fun c =>
              { c with activeSessionTotal := c.activeSessionTotal - 1 }).move session
                (.leaving tracked))
        | _ => none
    | .untrack session =>
        match s.sessions session with
        | .leaving false =>
            some ((s.mapCounters fun c =>
              { c with untrackedActiveSessions := c.untrackedActiveSessions - 1 }).move session
                .gone)
        | _ => none
    | .deactivate session now lock full =>
        match s.sessions session with
        | .leaving true =>
            s.tryState lock
              (fun s => (s.mapTelemetry fun t =>
                deactivateLocked config full t (config.sessionId session) now).move session .gone)
              fun s => s.move session (.cleaning [.rosterCleanupFailures, .staleTrackedSessions])
        | _ => none

end State

/-- The telemetry from the start of the bridge. -/
def machine (config : Config) : Machine State Event where
  init s := ∃ now, s = .start now
  step := State.step config

/-! ## How far the counts get -/

/-- The counts that a section decides on: the next id, and the totals a publication loads. -/
structure Counters.Within (bound : Nat) (c : Counters) : Prop where
  nextId : c.nextId ≤ bound + 1
  active : c.activeSessionTotal ≤ bound
  untracked : c.untrackedActiveSessions ≤ bound
  stale : c.staleTrackedSessions ≤ bound

/-- The counts that a section decides on. -/
def Counters.decisive (c : Counters) : Nat × Nat × Nat × Nat :=
  (c.nextId, c.activeSessionTotal, c.untrackedActiveSessions, c.staleTrackedSessions)

theorem Counters.Within.mono {c : Counters} {bound bound' : Nat} (within : c.Within bound)
    (le : bound ≤ bound') : c.Within bound' :=
  ⟨within.nextId.trans (Nat.succ_le_succ le), within.active.trans le, within.untracked.trans le,
    within.stale.trans le⟩

/-- The bounds are on these counts only. -/
theorem Counters.Within.congr {c c' : Counters} {bound : Nat} (within : c.Within bound)
    (same : c'.decisive = c.decisive) : c'.Within bound := by
  simp only [decisive, Prod.mk.injEq] at same
  obtain ⟨nextId, active, untracked, stale⟩ := same
  exact ⟨nextId ▸ within.nextId, active ▸ within.active, untracked ▸ within.untracked,
    stale ▸ within.stale⟩

section Counts

variable {config : Config} {full : Nat → Bool} {t : Telemetry} {eventId now : Nat}
  {status reason : String}

theorem decisive_finishLocked :
    (finishLocked config full t eventId status reason now).counters.decisive =
      t.counters.decisive := by
  unfold finishLocked
  split <;> rfl

theorem decisive_finishFanoutLocked :
    (finishFanoutLocked config full t eventId reason now).counters.decisive =
      t.counters.decisive := by
  unfold finishFanoutLocked
  split <;> exact decisive_finishLocked

/-- Finishing several events moves none of them if finishing one does not. -/
theorem decisive_foldl {finish : Telemetry → Nat → Telemetry}
    (keeps : ∀ t id, (finish t id).counters.decisive = t.counters.decisive) (ids : List Nat) :
    ∀ t, (ids.foldl finish t).counters.decisive = t.counters.decisive := by
  induction ids with
  | nil => exact fun _ => rfl
  | cons id rest ih => exact fun t => (ih _).trans (keeps t id)

theorem decisive_expireLocked :
    (expireLocked config full t now).counters.decisive = t.counters.decisive :=
  decisive_foldl (fun _ _ => decisive_finishLocked) _ _

theorem decisive_markAReadyLocked :
    (markAReadyLocked config full t eventId now).counters.decisive = t.counters.decisive := by
  unfold markAReadyLocked
  dsimp only
  split
  · exact decisive_finishLocked.trans decisive_expireLocked
  · exact decisive_expireLocked

theorem decisive_skipSession {sessionId : Nat} {except : Option Nat} :
    (skipSession config full t sessionId except reason now).counters.decisive =
      t.counters.decisive :=
  decisive_foldl (fun _ _ => decisive_finishFanoutLocked) _ _

theorem decisive_deactivateLocked {sessionId : Nat} :
    (deactivateLocked config full t sessionId now).counters.decisive = t.counters.decisive :=
  decisive_skipSession

theorem decisive_recordFanoutLocked {sessionId : Nat} {replacementKey : String}
    {outcome : FanoutOutcome} :
    (recordFanoutLocked config full t sessionId replacementKey outcome now).counters.decisive =
      t.counters.decisive := by
  unfold recordFanoutLocked
  dsimp only
  split
  · exact decisive_expireLocked
  · split
    · exact decisive_skipSession.trans decisive_expireLocked
    · split
      · split
        · exact decisive_finishFanoutLocked.trans (decisive_skipSession.trans decisive_expireLocked)
        · exact decisive_skipSession.trans decisive_expireLocked
      · exact decisive_skipSession.trans decisive_expireLocked

theorem decisive_beginPublish {replacementKey : String} :
    (beginPublish config full t eventId replacementKey now).1.counters.decisive =
      t.counters.decisive := by
  unfold beginPublish
  dsimp only
  split
  · exact decisive_finishLocked.trans decisive_expireLocked
  · split
    · exact decisive_finishLocked.trans decisive_expireLocked
    · exact decisive_expireLocked

theorem decisive_commitPublish {replacementKey : String} {active untracked stale : Nat} :
    (commitPublish config full t eventId replacementKey now active untracked
      stale).counters.decisive = t.counters.decisive := by
  unfold commitPublish
  dsimp only
  split
  · rfl
  · split
    · exact decisive_finishLocked
    · split
      · exact decisive_finishLocked
      · rfl

/-- An observation takes one id at most. -/
theorem within_observeLocked {dedupeKey : String} {source : UpstreamClass} {bound : Nat}
    (within : t.counters.Within bound) :
    (observeLocked config full t dedupeKey source now).1.counters.Within (bound + 1) := by
  have expired : (expireLocked config full t now).counters.Within bound :=
    within.congr decisive_expireLocked
  unfold observeLocked
  dsimp only
  split
  · exact expired.mono (Nat.le_succ _)
  · split
    · exact (expired.mono (Nat.le_succ _)).congr rfl
    · exact ⟨Nat.succ_le_succ expired.nextId, expired.active.trans (Nat.le_succ _),
        expired.untracked.trans (Nat.le_succ _), expired.stale.trans (Nat.le_succ _)⟩

/-- One operation adds one at most. -/
theorem within_add {c : Counters} {bound : Nat} (within : c.Within bound) (op : CounterOp) :
    (c.add op).Within (bound + 1) := by
  obtain ⟨nextId, active, untracked, stale⟩ := within
  cases op <;> constructor <;> simp only [Counters.add] <;> omega

/-- A section, or an attempt at the lock that is missed. -/
theorem within_tryState {s s' : State} {lock : TryLock} {inside missed : State → State}
    {bound : Nat} (within : s.telemetry.counters.Within bound)
    (tried : s.tryState lock inside missed = some s')
    (section_ : (inside s).telemetry.counters.Within (bound + 1))
    (unmoved : ∀ s, (missed s).telemetry = s.telemetry) :
    s'.telemetry.counters.Within (bound + 1) := by
  unfold State.tryState at tried
  cases lock with
  | held =>
      dsimp only at tried
      split at tried
      · cases tried
      · cases tried
        exact section_
  | wouldBlock =>
      cases tried
      rw [unmoved]
      exact (within.mono (Nat.le_succ _)).congr rfl
  | poisoned =>
      cases tried
      rw [unmoved]
      exact (within.mono (Nat.le_succ _)).congr rfl

end Counts

/-- One step. -/
theorem within_step {config : Config} {s s' : State} {event : Event} {bound : Nat}
    (within : s.telemetry.counters.Within bound)
    (stepped : State.step config s event = some s') :
    s'.telemetry.counters.Within (bound + 1) := by
  have later := within.mono (Nat.le_succ bound)
  unfold State.step at stepped
  split at stepped
  · cases stepped
    exact later
  · cases event with
    | observeUpstream dedupeKey source now lock full =>
        dsimp only at stepped
        split at stepped
        · cases stepped
          exact later.congr rfl
        · exact within_tryState within stepped (within_observeLocked within) (fun _ => rfl)
    | markAReady eventId now lock full =>
        exact within_tryState within stepped (later.congr decisive_markAReadyLocked) (fun _ => rfl)
    | markPublished eventId replacementKey now lock full =>
        exact within_tryState within stepped (later.congr decisive_beginPublish) (fun _ => rfl)
    | load full =>
        obtain ⟨p, -, rfl⟩ := Option.map_eq_some_iff.1 stepped
        unfold State.load
        split
        · exact later
        · exact later
        · exact later.congr decisive_commitPublish
    | failEvent eventId reason now lock full =>
        exact within_tryState within stepped (later.congr decisive_finishLocked) (fun _ => rfl)
    | expire now lock full =>
        exact within_tryState within stepped (later.congr decisive_expireLocked) (fun _ => rfl)
    | recordNotify session replacementKey outcome now lock full =>
        dsimp only at stepped
        split at stepped
        · exact within_tryState within stepped (later.congr decisive_recordFanoutLocked) (fun _ => rfl)
        · cases stepped
    | authorize session =>
        dsimp only at stepped
        split at stepped
        · cases stepped
          exact ⟨later.nextId, Nat.succ_le_succ within.active, later.untracked, later.stale⟩
        · cases stepped
    | activate session lock =>
        dsimp only at stepped
        split at stepped
        · refine within_tryState within stepped ?_ (fun _ => rfl)
          unfold State.activateLocked
          dsimp only
          split
          · exact ⟨later.nextId, later.active, Nat.succ_le_succ within.untracked, later.stale⟩
          · exact later
        · cases stepped
    | count session =>
        dsimp only at stepped
        split at stepped
        · cases stepped
          exact within_add within _
        · cases stepped
          exact within_add within _
        · cases stepped
    | drop session =>
        dsimp only at stepped
        split at stepped
        · cases stepped
          exact ⟨later.nextId, (Nat.sub_le _ _).trans later.active, later.untracked, later.stale⟩
        · cases stepped
    | untrack session =>
        dsimp only at stepped
        split at stepped
        · cases stepped
          exact ⟨later.nextId, later.active, (Nat.sub_le _ _).trans later.untracked, later.stale⟩
        · cases stepped
    | deactivate session now lock full =>
        dsimp only at stepped
        split at stepped
        · exact within_tryState within stepped (later.congr decisive_deactivateLocked) (fun _ => rfl)
        · cases stepped

/-- **The counts of a run** are at most its steps. -/
theorem counts_within {config : Config} {s s' : State} {events : List Event} {bound : Nat}
    (within : s.telemetry.counters.Within bound)
    (ran : (machine config).run s events = some s') :
    s'.telemetry.counters.Within (bound + events.length) := by
  induction events generalizing s bound with
  | nil =>
      cases ran
      exact within
  | cons event rest ih =>
      obtain ⟨next, stepped, later⟩ := Machine.run_cons ran
      rw [List.length_cons, Nat.add_comm rest.length, ← Nat.add_assoc]
      exact ih (within_step within stepped) later

theorem within_start (now : Nat) : (State.start now).telemetry.counters.Within 0 :=
  ⟨le_rfl, le_rfl, le_rfl, le_rfl⟩

/-- From a fresh start the counts are within the number of steps. -/
theorem counts_within_start {config : Config} {now : Nat} {s : State} {events : List Event}
    (ran : (machine config).run (State.start now) events = some s) :
    s.telemetry.counters.Within events.length := by
  rw [← Nat.zero_add events.length]
  exact counts_within (within_start now) ran

end CsdPool.Bridge.ReplacementLatency
