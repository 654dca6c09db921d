/-
# Bridge.LatencyAccounts — what the telemetry's books say

The books of an event balance: the sessions notified, failed, skipped and still awaited are the
sessions it was published to (`EventOk`).  Everything the sections under the lock do keeps this,
keeps the two indexes on live events, and finishes an event once (`Kept`).

One thing does not: a publication takes its sessions from two totals and the roster, and compares
them through a subtraction that stops at zero.  An untracked session on its way out has left the
total of active sessions before it leaves that of untracked ones; a publication in between finds
an empty roster, as expected, no sessions to notify and one that was skipped.
`telemetry_accounting` says that nothing else goes wrong.
-/
import CsdPool.Bridge.ReplacementLatency

namespace CsdPool.Bridge.ReplacementLatency

open Theory (Keyed Machine Table)

set_option autoImplicit false

/-- The books of one event: every session it was published to is in one of the four places, and
before its publication there is none. -/
structure EventOk (event : LatencyEvent) : Prop where
  balanced : event.notifySuccess + event.notifyFailed + event.notifySkipped +
    event.pendingSessions.card = event.targetSessions
  unpublished : event.publishedAt = none →
    event.replacementKey = none ∧ event.targetSessions = 0

/-- A summary waits for nobody, so three places are left. -/
def LatencySummary.Balanced (summary : LatencySummary) : Prop :=
  summary.notifySuccess + summary.notifyFailed + summary.notifySkipped = summary.targetSessions

/-- What the telemetry should be able to say at any time. -/
structure Accounted (t : Telemetry) : Prop where
  balanced : ∀ entry ∈ t.finished, entry.2.Balanced
  once : (t.finished.map Prod.fst).Nodup
  apart : ∀ event ∈ t.state.events.rows, event.id ∉ t.finished.map Prod.fst
  bounded : t.state.events.rows.length ≤ maxInFlightEvents
  dedupe : ∀ key id, t.state.dedupe key = some id → ∃ event ∈ t.state.events.rows,
    event.id = id ∧ event.dedupeKey = key ∧
      ∀ other ∈ t.state.events.rows, other.dedupeKey = key → other = event
  published : ∀ key id, t.state.publishedJobs key = some id → ∃ event ∈ t.state.events.rows,
    event.id = id ∧ event.replacementKey = some key
  held : t.state.completed <:+ t.finished.map Prod.snd

/-- The invariant of the sections under the lock. -/
structure Kept (t : Telemetry) : Prop where
  events : ∀ event ∈ t.state.events.rows, EventOk event
  balanced : ∀ entry ∈ t.finished, entry.2.Balanced
  fresh : ∀ event ∈ t.state.events.rows, event.id < t.counters.nextId
  finished : ∀ entry ∈ t.finished, entry.1 < t.counters.nextId
  once : (t.finished.map Prod.fst).Nodup
  apart : ∀ event ∈ t.state.events.rows, event.id ∉ t.finished.map Prod.fst
  bounded : t.state.events.rows.length ≤ maxInFlightEvents
  dedupe : ∀ key id, t.state.dedupe key = some id →
    ∃ event ∈ t.state.events.rows, event.id = id ∧ event.dedupeKey = key
  deduped : ∀ event ∈ t.state.events.rows, t.state.dedupe event.dedupeKey = some event.id
  published : ∀ key id, t.state.publishedJobs key = some id →
    ∃ event ∈ t.state.events.rows, event.id = id ∧ event.replacementKey = some key
  held : t.state.completed <:+ t.finished.map Prod.snd

theorem event_unique {t : Table LatencyEvent} {a b : LatencyEvent} (inA : a ∈ t.rows)
    (inB : b ∈ t.rows) (same : a.id = b.id) : a = b :=
  List.inj_on_of_nodup_map t.unique inA inB same

/-- The invariant has all that the telemetry should be able to say. -/
theorem Kept.accounted {t : Telemetry} (kept : Kept t) : Accounted t where
  balanced := kept.balanced
  once := kept.once
  apart := kept.apart
  bounded := kept.bounded
  dedupe := fun key id entry => by
    obtain ⟨event, member, named, keyed⟩ := kept.dedupe key id entry
    refine ⟨event, member, named, keyed, fun other inRows same => ?_⟩
    have owner := kept.deduped other inRows
    rw [same, entry] at owner
    exact event_unique inRows member ((Option.some.inj owner).symm.trans named.symm)
  published := kept.published
  held := kept.held

theorem kept_new (now : Nat) : Kept (.new now) where
  events := fun _ member => (by cases member)
  balanced := fun _ member => (by cases member)
  fresh := fun _ member => (by cases member)
  finished := fun _ member => (by cases member)
  once := List.nodup_nil
  apart := fun _ member => (by cases member)
  bounded := Nat.zero_le _
  dedupe := fun _ _ entry => (by cases entry)
  deduped := fun _ member => (by cases member)
  published := fun _ _ entry => (by cases entry)
  held := List.suffix_refl _

/-- The counters beside the ids play no part. -/
theorem Kept.congr {t t' : Telemetry} (kept : Kept t) (state : t'.state = t.state)
    (finished : t'.finished = t.finished) (nextId : t'.counters.nextId = t.counters.nextId) :
    Kept t' where
  events := by rw [state]; exact kept.events
  balanced := by rw [finished]; exact kept.balanced
  fresh := by rw [state, nextId]; exact kept.fresh
  finished := by rw [finished, nextId]; exact kept.finished
  once := by rw [finished]; exact kept.once
  apart := by rw [state, finished]; exact kept.apart
  bounded := by rw [state]; exact kept.bounded
  dedupe := by rw [state]; exact kept.dedupe
  deduped := by rw [state]; exact kept.deduped
  published := by rw [state]; exact kept.published
  held := by rw [state, finished]; exact kept.held

/-! ## Changing events -/

/-- A change of events that names them as before, balances them, and takes back no job. -/
structure Rewrites (rows : List LatencyEvent) (g : LatencyEvent → LatencyEvent) : Prop where
  id : ∀ event, (g event).id = event.id
  dedupeKey : ∀ event, (g event).dedupeKey = event.dedupeKey
  replacementKey : ∀ event ∈ rows, ∀ key, event.replacementKey = some key →
    (g event).replacementKey = some key
  ok : ∀ event ∈ rows, EventOk event → EventOk (g event)

/-- A change of all events at once. -/
theorem Kept.rewrite {t t' : Telemetry} {g : LatencyEvent → LatencyEvent} (kept : Kept t)
    (rewrites : Rewrites t.state.events.rows g)
    (rows : t'.state.events.rows = t.state.events.rows.map g)
    (dedupe : t'.state.dedupe = t.state.dedupe)
    (publishedJobs : t'.state.publishedJobs = t.state.publishedJobs)
    (completed : t'.state.completed = t.state.completed) (finished : t'.finished = t.finished)
    (nextId : t'.counters.nextId = t.counters.nextId) : Kept t' where
  events := by
    rw [rows]
    intro event member
    obtain ⟨before, inRows, rfl⟩ := List.mem_map.1 member
    exact rewrites.ok before inRows (kept.events before inRows)
  balanced := by rw [finished]; exact kept.balanced
  fresh := by
    rw [rows, nextId]
    intro event member
    obtain ⟨before, inRows, rfl⟩ := List.mem_map.1 member
    rw [rewrites.id]
    exact kept.fresh before inRows
  finished := by rw [finished, nextId]; exact kept.finished
  once := by rw [finished]; exact kept.once
  apart := by
    rw [rows, finished]
    intro event member
    obtain ⟨before, inRows, rfl⟩ := List.mem_map.1 member
    rw [rewrites.id]
    exact kept.apart before inRows
  bounded := by rw [rows, List.length_map]; exact kept.bounded
  dedupe := by
    rw [rows, dedupe]
    intro key id entry
    obtain ⟨event, member, named, keyed⟩ := kept.dedupe key id entry
    exact ⟨g event, List.mem_map_of_mem member, (rewrites.id event).trans named,
      (rewrites.dedupeKey event).trans keyed⟩
  deduped := by
    rw [rows, dedupe]
    intro event member
    obtain ⟨before, inRows, rfl⟩ := List.mem_map.1 member
    rw [rewrites.id, rewrites.dedupeKey]
    exact kept.deduped before inRows
  published := by
    rw [rows, publishedJobs]
    intro key id entry
    obtain ⟨event, member, named, keyed⟩ := kept.published key id entry
    exact ⟨g event, List.mem_map_of_mem member, (rewrites.id event).trans named,
      rewrites.replacementKey event member key keyed⟩
  held := by rw [completed, finished]; exact kept.held

/-- A change of one event. -/
theorem Kept.modifyEvent {t : Telemetry} (kept : Kept t) (eventId : Nat)
    (f : LatencyEvent → LatencyEvent) (keeps : ∀ event, (f event).id = event.id)
    (dedupeKey : ∀ event, (f event).dedupeKey = event.dedupeKey)
    (ok : ∀ event ∈ t.state.events.rows, event.id = eventId → EventOk event →
      EventOk (f event) ∧
        ∀ key, event.replacementKey = some key → (f event).replacementKey = some key) :
    Kept (t.modifyEvent eventId f keeps) := by
  refine kept.rewrite (g := fun event =>
    if Keyed.key event = eventId ∧ (true : Bool) then f event else event) ?_ rfl rfl rfl rfl rfl rfl
  refine ⟨fun event => ?_, fun event => ?_, fun event member key keyed => ?_,
    fun event member okBefore => ?_⟩
  · by_cases here : Keyed.key event = eventId ∧ (true : Bool)
    · rw [if_pos here]
      exact keeps event
    · rw [if_neg here]
  · by_cases here : Keyed.key event = eventId ∧ (true : Bool)
    · rw [if_pos here]
      exact dedupeKey event
    · rw [if_neg here]
  · by_cases here : Keyed.key event = eventId ∧ (true : Bool)
    · rw [if_pos here]
      exact (ok event member here.1 (kept.events event member)).2 key keyed
    · rw [if_neg here]
      exact keyed
  · by_cases here : Keyed.key event = eventId ∧ (true : Bool)
    · rw [if_pos here]
      exact (ok event member here.1 okBefore).1
    · rw [if_neg here]
      exact okBefore

/-! ## Finishing -/

/-- The log's budget is all that a permission to log changes. -/
theorem logAllowed_state (state : LatencyState) (now : Nat) :
    ∃ started logs, (logAllowed state now).2 =
      { state with logWindowStarted := started, logsInWindow := logs } := by
  unfold logAllowed
  dsimp only
  split
  · split
    · exact ⟨_, _, rfl⟩
    · exact ⟨_, _, rfl⟩
  · split
    · exact ⟨state.logWindowStarted, state.logsInWindow, rfl⟩
    · exact ⟨state.logWindowStarted, _, rfl⟩

section Finish

variable {config : Config} {full : Nat → Bool} {t : Telemetry} {eventId : Nat}
  {event : LatencyEvent} {status reason : String} {finishedAt : Nat}

theorem finishLocked_absent (absent : t.state.events.find? eventId = none) :
    finishLocked config full t eventId status reason finishedAt = t := by
  unfold finishLocked
  rw [absent]

/-- What finishing an event leaves. -/
structure Finishes (t : Telemetry) (event : LatencyEvent) (summary : LatencySummary)
    (t' : Telemetry) : Prop where
  events : t'.state.events = t.state.events.erase event.id
  roster : t'.state.activeSessions = t.state.activeSessions
  dedupe : t'.state.dedupe = Function.update t.state.dedupe event.dedupeKey none
  publishedJobs : ∀ key id, t'.state.publishedJobs key = some id →
    t.state.publishedJobs key = some id ∧ event.replacementKey ≠ some key
  completed : t'.state.completed = t.state.completed ++ [summary] ∨
    t'.state.completed = t.state.completed.tail ++ [summary]
  finished : t'.finished = t.finished ++ [(event.id, summary)]
  nextId : t'.counters.nextId = t.counters.nextId

/-- An event that is there is finished. -/
theorem finishLocked_finishes (found : t.state.events.find? eventId = some event) :
    Finishes t event (summaryOf config t.counters event status reason finishedAt)
      (finishLocked config full t eventId status reason finishedAt) := by
  obtain rfl : event.id = eventId := Table.key_of_find? found
  unfold finishLocked
  rw [found]
  dsimp only
  obtain ⟨started, logs, logged⟩ := logAllowed_state (t.state.finish event
    (summaryOf config t.counters event status reason finishedAt)) finishedAt
  rw [logged]
  refine ⟨rfl, rfl, rfl, fun key id entry => ?_, ?_, rfl, rfl⟩
  · unfold LatencyState.finish at entry
    dsimp only at entry
    cases replaced : event.replacementKey with
    | none =>
        rw [replaced] at entry
        exact ⟨entry, fun same => (by cases same)⟩
    | some replacementKey =>
        rw [replaced] at entry
        by_cases same : key = replacementKey
        · rw [same] at entry
          simp at entry
        · dsimp only at entry
          rw [Function.update_of_ne same] at entry
          exact ⟨entry, fun again => same (Option.some.inj again).symm⟩
  · unfold LatencyState.finish
    dsimp only
    split
    · exact .inr rfl
    · exact .inl rfl

/-- The sessions an event still waits for are counted as skipped in its summary. -/
theorem summaryOf_balanced {counters : Counters} (ok : EventOk event) :
    (summaryOf config counters event status reason finishedAt).Balanced := by
  show event.notifySuccess + event.notifyFailed +
    (event.notifySkipped + event.pendingSessions.card) = event.targetSessions
  have := ok.balanced
  omega

theorem mem_erase {t : Table LatencyEvent} {id : Nat} {event : LatencyEvent} :
    event ∈ (t.erase id).rows ↔ event ∈ t.rows ∧ event.id ≠ id := by
  show event ∈ t.rows.filter (fun r => Keyed.key r ≠ id) ↔ _
  rw [List.mem_filter]
  simp [Keyed.key]

theorem Finishes.kept {t' : Telemetry} {summary : LatencySummary} (kept : Kept t)
    (member : event ∈ t.state.events.rows) (finishes : Finishes t event summary t')
    (balanced : summary.Balanced) : Kept t' where
  events := by
    rw [finishes.events]
    exact fun other left => kept.events other (mem_erase.1 left).1
  balanced := by
    rw [finishes.finished]
    intro entry inFinished
    rcases List.mem_append.1 inFinished with before | last
    · exact kept.balanced entry before
    · rw [List.mem_singleton.1 last]
      exact balanced
  fresh := by
    rw [finishes.events, finishes.nextId]
    exact fun other left => kept.fresh other (mem_erase.1 left).1
  finished := by
    rw [finishes.finished, finishes.nextId]
    intro entry inFinished
    rcases List.mem_append.1 inFinished with before | last
    · exact kept.finished entry before
    · rw [List.mem_singleton.1 last]
      exact kept.fresh event member
  once := by
    rw [finishes.finished, List.map_append]
    refine List.nodup_append'.2 ⟨kept.once, List.nodup_singleton _, ?_⟩
    exact List.disjoint_singleton.2 (kept.apart event member)
  apart := by
    rw [finishes.events, finishes.finished, List.map_append]
    intro other left inFinished
    obtain ⟨inRows, ne⟩ := mem_erase.1 left
    rcases List.mem_append.1 inFinished with before | last
    · exact kept.apart other inRows before
    · exact ne (List.mem_singleton.1 last)
  bounded := by
    rw [finishes.events]
    exact Nat.le_trans (List.length_filter_le _ _) kept.bounded
  dedupe := by
    rw [finishes.events, finishes.dedupe]
    intro key id entry
    by_cases same : key = event.dedupeKey
    · rw [same, Function.update_self] at entry
      cases entry
    · rw [Function.update_of_ne same] at entry
      obtain ⟨other, inRows, named, keyed⟩ := kept.dedupe key id entry
      refine ⟨other, mem_erase.2 ⟨inRows, fun again => same ?_⟩, named, keyed⟩
      rw [← keyed, event_unique inRows member again]
  deduped := by
    rw [finishes.events, finishes.dedupe]
    intro other left
    obtain ⟨inRows, ne⟩ := mem_erase.1 left
    have owner := kept.deduped other inRows
    rw [Function.update_of_ne]
    · exact owner
    · intro same
      rw [same, kept.deduped event member] at owner
      exact ne (Option.some.inj owner).symm
  published := by
    rw [finishes.events]
    intro key id entry
    obtain ⟨entry, other'⟩ := finishes.publishedJobs key id entry
    obtain ⟨other, inRows, named, keyed⟩ := kept.published key id entry
    refine ⟨other, mem_erase.2 ⟨inRows, fun again => other' ?_⟩, named, keyed⟩
    rw [← event_unique inRows member again]
    exact keyed
  held := by
    rw [finishes.finished, List.map_append]
    rcases finishes.completed with appended | shifted
    · rw [appended]
      exact List.suffix_append_self_iff.2 kept.held
    · rw [shifted]
      exact List.suffix_append_self_iff.2 ((List.tail_suffix _).trans kept.held)

/-- An event is finished once: its summary is kept, and its keys are given up with it. -/
theorem Kept.finishLocked (kept : Kept t) :
    Kept (finishLocked config full t eventId status reason finishedAt) := by
  cases found : t.state.events.find? eventId with
  | none =>
      rw [finishLocked_absent found]
      exact kept
  | some event =>
      have member := Table.mem_of_find? found
      exact (finishLocked_finishes found).kept kept member
        (summaryOf_balanced (kept.events event member))

theorem Kept.finishFanoutLocked (kept : Kept t) :
    Kept (finishFanoutLocked config full t eventId reason finishedAt) := by
  unfold ReplacementLatency.finishFanoutLocked
  split
  · exact kept.finishLocked
  · exact kept.finishLocked

/-- Finishing one event after another. -/
theorem Kept.foldl {finish : Telemetry → Nat → Telemetry}
    (keeps : ∀ t id, Kept t → Kept (finish t id)) (ids : List Nat) {t : Telemetry}
    (kept : Kept t) : Kept (ids.foldl finish t) := by
  induction ids generalizing t with
  | nil => exact kept
  | cons id ids ih => exact ih (keeps t id kept)

/-- The events past their time are finished, one after the other. -/
theorem Kept.expireLocked {now : Nat} (kept : Kept t) : Kept (expireLocked config full t now) :=
  kept.foldl (fun _ _ kept => kept.finishLocked) _

end Finish

/-! ## The other sections -/

section Sections

variable {config : Config} {full : Nat → Bool} {t : Telemetry}

/-- A new event has been published to nobody. -/
theorem eventOk_observed (id : Nat) (source : UpstreamClass) (key : String) (now : Nat) :
    EventOk (.observed id source key now) :=
  ⟨rfl, fun _ => ⟨rfl, rfl⟩⟩

/-- A key that leads to no event is not there at all. -/
theorem Kept.forgetKey (kept : Kept t) {key : String} (dead :
    (t.state.dedupe key).bind t.state.events.find? = none) : t.state.dedupe key = none := by
  cases entry : t.state.dedupe key with
  | none => rfl
  | some id =>
      obtain ⟨event, member, rfl, -⟩ := kept.dedupe key id entry
      rw [entry, Option.bind_some] at dead
      exact absurd (Table.find?_of_mem member) (by rw [show Keyed.key event = event.id from rfl, dead]; simp)

/-- A fresh event goes in under the key nobody holds. -/
theorem Kept.observe {t' : Telemetry} {source : UpstreamClass} {key : String} {now : Nat}
    (kept : Kept t) (free : t.state.dedupe key = none)
    (room : t.state.events.rows.length < maxInFlightEvents)
    (rows : t'.state.events.rows =
      t.state.events.rows ++ [.observed t.counters.nextId source key now])
    (dedupe : t'.state.dedupe = Function.update t.state.dedupe key (some t.counters.nextId))
    (publishedJobs : t'.state.publishedJobs = t.state.publishedJobs)
    (completed : t'.state.completed = t.state.completed) (finished : t'.finished = t.finished)
    (nextId : t'.counters.nextId = t.counters.nextId + 1) : Kept t' := by
  have cases_ : ∀ event ∈ t'.state.events.rows, event ∈ t.state.events.rows ∨
      event = .observed t.counters.nextId source key now := by
    intro event member
    rw [rows] at member
    rcases List.mem_append.1 member with before | last
    · exact .inl before
    · exact .inr (List.mem_singleton.1 last)
  have stays : ∀ event ∈ t.state.events.rows, event ∈ t'.state.events.rows := by
    intro event member
    rw [rows]
    exact List.mem_append_left _ member
  refine ⟨?_, ?_, ?_, ?_, ?_, ?_, ?_, ?_, ?_, ?_, ?_⟩
  · intro event member
    rcases cases_ event member with before | rfl
    · exact kept.events event before
    · exact eventOk_observed _ _ _ _
  · rw [finished]
    exact kept.balanced
  · intro event member
    rw [nextId]
    rcases cases_ event member with before | rfl
    · exact Nat.lt_succ_of_lt (kept.fresh event before)
    · exact Nat.lt_succ_self _
  · rw [finished, nextId]
    exact fun entry member => Nat.lt_succ_of_lt (kept.finished entry member)
  · rw [finished]
    exact kept.once
  · rw [finished]
    intro event member
    rcases cases_ event member with before | rfl
    · exact kept.apart event before
    · intro inFinished
      obtain ⟨entry, inEntries, same⟩ := List.mem_map.1 inFinished
      exact absurd (kept.finished entry inEntries) (by rw [same]; exact Nat.lt_irrefl _)
  · rw [rows, List.length_append, List.length_singleton]
    exact room
  · rw [dedupe]
    intro key' id entry
    by_cases same : key' = key
    · rw [same, Function.update_self] at entry
      refine ⟨.observed t.counters.nextId source key now, ?_, Option.some.inj entry, same.symm⟩
      rw [rows]
      exact List.mem_append_right _ List.mem_cons_self
    · rw [Function.update_of_ne same] at entry
      obtain ⟨event, member, named, keyed⟩ := kept.dedupe key' id entry
      exact ⟨event, stays event member, named, keyed⟩
  · rw [dedupe]
    intro event member
    rcases cases_ event member with before | rfl
    · have owner := kept.deduped event before
      rw [Function.update_of_ne]
      · exact owner
      · intro same
        rw [same, free] at owner
        cases owner
    · exact Function.update_self _ _ _
  · rw [publishedJobs]
    intro key' id entry
    obtain ⟨event, member, named, keyed⟩ := kept.published key' id entry
    exact ⟨event, stays event member, named, keyed⟩
  · rw [completed, finished]
    exact kept.held

theorem Kept.observeLocked {key : String} {source : UpstreamClass} {now : Nat} (kept : Kept t) :
    Kept (observeLocked config full t key source now).1 := by
  have expired : Kept (ReplacementLatency.expireLocked config full t now) := kept.expireLocked
  unfold ReplacementLatency.observeLocked
  dsimp only
  generalize ReplacementLatency.expireLocked config full t now = t at expired
  split
  · exact expired
  · rename_i dead
    have free := expired.forgetKey dead
    have unchanged : Function.update t.state.dedupe key none = t.state.dedupe :=
      Function.update_eq_self_iff.2 free.symm
    rw [unchanged]
    split
    · exact expired.congr rfl rfl rfl
    · rename_i room
      have rows : (t.state.events.put (.observed t.counters.nextId source key now)).rows =
          t.state.events.rows ++ [.observed t.counters.nextId source key now] := by
        refine Table.rows_put_of_fresh (Table.find?_eq_none_iff.2 fun event member same => ?_)
        exact absurd (expired.fresh event member) (Nat.not_lt.2 (Nat.le_of_eq same.symm))
      exact expired.observe free (Nat.lt_of_not_le room) rows rfl rfl rfl rfl rfl

theorem Kept.markAReadyLocked {eventId now : Nat} (kept : Kept t) :
    Kept (markAReadyLocked config full t eventId now) := by
  have expired : Kept (ReplacementLatency.expireLocked config full t now) := kept.expireLocked
  unfold ReplacementLatency.markAReadyLocked
  dsimp only
  generalize ReplacementLatency.expireLocked config full t now = t at expired
  split
  · have counted : Kept t.countOutOfOrder := expired.congr rfl rfl rfl
    exact counted.finishLocked
  · exact expired.modifyEvent eventId _ _ (fun _ => rfl) fun event _ _ ok =>
      ⟨⟨ok.balanced, ok.unpublished⟩, fun _ keyed => keyed⟩

/-- A session goes from those awaited to those skipped. -/
theorem EventOk.skip {event : LatencyEvent} (ok : EventOk event) (sessionId : Nat) :
    EventOk (event.skip sessionId) := by
  unfold LatencyEvent.skip
  split
  · rename_i member
    refine ⟨?_, ok.unpublished⟩
    show event.notifySuccess + event.notifyFailed + (event.notifySkipped + 1) +
      (event.pendingSessions.erase sessionId).card = event.targetSessions
    have one := Finset.card_erase_add_one member
    have := ok.balanced
    omega
  · exact ok

theorem skip_keys (event : LatencyEvent) (sessionId : Nat) :
    (event.skip sessionId).dedupeKey = event.dedupeKey ∧
      (event.skip sessionId).replacementKey = event.replacementKey := by
  unfold LatencyEvent.skip
  split
  · exact ⟨rfl, rfl⟩
  · exact ⟨rfl, rfl⟩

theorem Kept.skipSession {sessionId now : Nat} {except : Option Nat} {reason : String}
    (kept : Kept t) : Kept (skipSession config full t sessionId except reason now) := by
  unfold ReplacementLatency.skipSession
  dsimp only
  apply Kept.foldl fun _ _ kept => kept.finishFanoutLocked
  refine kept.rewrite (g := fun event =>
    if decide (except ≠ some event.id) = true then event.skip sessionId else event)
    ⟨fun event => ?_, fun event => ?_, fun event _ key keyed => ?_, fun event _ ok => ?_⟩
    rfl rfl rfl rfl rfl rfl
  · split
    · exact event.skip_id sessionId
    · rfl
  · split
    · exact (skip_keys event sessionId).1
    · rfl
  · split
    · rw [(skip_keys event sessionId).2]
      exact keyed
    · exact keyed
  · split
    · exact ok.skip sessionId
    · exact ok

theorem Kept.deactivateLocked {sessionId now : Nat} (kept : Kept t) :
    Kept (deactivateLocked config full t sessionId now) := by
  unfold ReplacementLatency.deactivateLocked
  apply Kept.skipSession
  exact kept.rewrite (g := id)
    ⟨fun _ => rfl, fun _ => rfl, fun _ _ _ keyed => keyed, fun _ _ ok => ok⟩
    (List.map_id _).symm rfl rfl rfl rfl rfl

/-- A session goes from those awaited to where its outcome says. -/
theorem EventOk.record {event : LatencyEvent} (ok : EventOk event) {sessionId : Nat}
    (member : sessionId ∈ event.pendingSessions) (outcome : FanoutOutcome) :
    EventOk (event.record sessionId outcome) := by
  have one := Finset.card_erase_add_one member
  have balanced := ok.balanced
  cases outcome with
  | success =>
      refine ⟨?_, ok.unpublished⟩
      show event.notifySuccess + 1 + event.notifyFailed + event.notifySkipped +
        (event.pendingSessions.erase sessionId).card = event.targetSessions
      omega
  | failed =>
      refine ⟨?_, ok.unpublished⟩
      show event.notifySuccess + (event.notifyFailed + 1) + event.notifySkipped +
        (event.pendingSessions.erase sessionId).card = event.targetSessions
      omega
  | skipped =>
      refine ⟨?_, ok.unpublished⟩
      show event.notifySuccess + event.notifyFailed + (event.notifySkipped + 1) +
        (event.pendingSessions.erase sessionId).card = event.targetSessions
      omega

theorem Kept.recordFanoutLocked {sessionId now : Nat} {replacementKey : String}
    {outcome : FanoutOutcome} (kept : Kept t) :
    Kept (recordFanoutLocked config full t sessionId replacementKey outcome now) := by
  have expired : Kept (ReplacementLatency.expireLocked config full t now) := kept.expireLocked
  unfold ReplacementLatency.recordFanoutLocked
  dsimp only
  generalize ReplacementLatency.expireLocked config full t now = t at expired
  split
  · exact expired
  · rename_i eventId _
    have skipped : Kept (ReplacementLatency.skipSession config full t sessionId (some eventId)
      "superseded" now) := expired.skipSession
    generalize ReplacementLatency.skipSession config full t sessionId (some eventId)
      "superseded" now = t at skipped
    split
    · exact skipped
    · rename_i event found
      split
      · rename_i member
        have recorded : Kept (t.modifyEvent eventId (LatencyEvent.record sessionId outcome)
            (LatencyEvent.record_id sessionId outcome)) := by
          apply skipped.modifyEvent
          · intro event
            cases outcome <;> rfl
          · intro other inRows named ok
            obtain rfl : other = event :=
              event_unique inRows (Table.mem_of_find? found)
                (named.trans (Table.key_of_find? found).symm)
            refine ⟨ok.record member outcome, fun key keyed => ?_⟩
            cases outcome <;> exact keyed
        split
        · exact recorded.finishFanoutLocked
        · exact recorded
      · exact skipped

end Sections

/-! ## Publication -/

section Publish

variable {config : Config} {full : Nat → Bool} {t : Telemetry}

/-- Nothing has been told of an event that is not published. -/
theorem EventOk.silent {event : LatencyEvent} (ok : EventOk event)
    (unpublished : event.publishedAt = none) :
    event.notifySuccess = 0 ∧ event.notifyFailed = 0 ∧ event.pendingSessions = ∅ := by
  have balanced := ok.balanced
  rw [(ok.unpublished unpublished).2] at balanced
  have empty : event.pendingSessions.card = 0 := by omega
  exact ⟨by omega, by omega, Finset.card_eq_zero.1 empty⟩

/-- The event a publication holds the lock for has not been published. -/
def Awaits (t : Telemetry) (publishing : Option Publishing) : Prop :=
  ∀ p, publishing = some p → ∀ event ∈ t.state.events.rows, event.id = p.eventId →
    event.publishedAt = none

theorem Kept.beginPublish {eventId now : Nat} {replacementKey : String} (kept : Kept t) :
    Kept (beginPublish config full t eventId replacementKey now).1 ∧
      Awaits (beginPublish config full t eventId replacementKey now).1
        (beginPublish config full t eventId replacementKey now).2 := by
  have expired : Kept (ReplacementLatency.expireLocked config full t now) := kept.expireLocked
  unfold ReplacementLatency.beginPublish
  dsimp only
  generalize ReplacementLatency.expireLocked config full t now = t at expired
  have oversize : Kept t.countDroppedEvent := expired.congr rfl rfl rfl
  have outOfOrder : Kept t.countOutOfOrder := expired.congr rfl rfl rfl
  split
  · exact ⟨oversize.finishLocked, fun p same => (by cases same)⟩
  · split
    · exact ⟨outOfOrder.finishLocked, fun p same => (by cases same)⟩
    · rename_i valid
      refine ⟨expired, fun p same event member named => ?_⟩
      cases same
      have found : t.state.events.find? eventId = some event :=
        Table.find?_eq_some_iff.2 ⟨member, named⟩
      rw [found, Option.any_some] at valid
      simp only [Bool.or_eq_true, not_or, Bool.not_eq_true, Option.isSome_eq_false_iff,
        Option.isNone_iff_eq_none] at valid
      exact valid.1.2

/-- The totals a publication has loaded are ones its sums can be made from. -/
def SnapshotConsistent (t : Telemetry) (eventId active untracked stale : Nat) : Prop :=
  (t.state.events.find? eventId).isSome = true →
    rosterInconsistent t.state.activeSessions.card active untracked stale = false →
      untracked ≤ active

/-- When a publication goes on: nobody is stale, and the roster has as many sessions as the totals
say. The difference of the totals stops at zero. -/
theorem rosterInconsistent_false {tracked active untracked stale : Nat} :
    rosterInconsistent tracked active untracked stale = false ↔
      stale = 0 ∧ tracked = active - untracked := by
  unfold rosterInconsistent
  simp

theorem publish_keys {event : LatencyEvent} (ok : EventOk event)
    (unpublished : event.publishedAt = none) {key : String} {replacement : Option String}
    (keyed : event.replacementKey = some key) : replacement = some key := by
  rw [(ok.unpublished unpublished).1] at keyed
  cases keyed

/-- A job points to the event that took it. -/
theorem Kept.addJob {t' : Telemetry} {event : LatencyEvent} {key : String} (kept : Kept t)
    (member : event ∈ t.state.events.rows) (keyed : event.replacementKey = some key)
    (events : t'.state.events = t.state.events) (dedupe : t'.state.dedupe = t.state.dedupe)
    (publishedJobs : t'.state.publishedJobs =
      Function.update t.state.publishedJobs key (some event.id))
    (completed : t'.state.completed = t.state.completed) (finished : t'.finished = t.finished)
    (nextId : t'.counters.nextId = t.counters.nextId) : Kept t' where
  events := by rw [events]; exact kept.events
  balanced := by rw [finished]; exact kept.balanced
  fresh := by rw [events, nextId]; exact kept.fresh
  finished := by rw [finished, nextId]; exact kept.finished
  once := by rw [finished]; exact kept.once
  apart := by rw [events, finished]; exact kept.apart
  bounded := by rw [events]; exact kept.bounded
  dedupe := by rw [events, dedupe]; exact kept.dedupe
  deduped := by rw [events, dedupe]; exact kept.deduped
  published := by
    rw [events, publishedJobs]
    intro key' id entry
    by_cases same : key' = key
    · rw [same, Function.update_self] at entry
      exact ⟨event, member, Option.some.inj entry, same ▸ keyed⟩
    · rw [Function.update_of_ne same] at entry
      exact kept.published key' id entry
  held := by rw [completed, finished]; exact kept.held

theorem mem_modifyEvent {eventId : Nat} {event : LatencyEvent} {f : LatencyEvent → LatencyEvent}
    {keeps : ∀ event, (f event).id = event.id}
    (found : t.state.events.find? eventId = some event) :
    f event ∈ (t.modifyEvent eventId f keeps).state.events.rows := by
  have here : Keyed.key event = eventId ∧ (true : Bool) = true :=
    ⟨Table.key_of_find? found, rfl⟩
  have member := List.mem_map_of_mem
    (f := fun event => if Keyed.key event = eventId ∧ (true : Bool) then f event else event)
    (Table.mem_of_find? found)
  rw [if_pos here] at member
  exact member

/-- A publication that goes on counts the roster and the untracked sessions against the active ones,
which is right if there are no more untracked ones than active. -/
theorem Kept.publishEvent {eventId active untracked : Nat} {event : LatencyEvent} (kept : Kept t)
    (replacementKey : String) (now : Nat) (found : t.state.events.find? eventId = some event)
    (awaits : ∀ event ∈ t.state.events.rows, event.id = eventId → event.publishedAt = none)
    (within : untracked ≤ active) (tracked : t.state.activeSessions.card = active - untracked) :
    Kept (t.publishEvent eventId replacementKey now active untracked) := by
  have modified : Kept (t.modifyEvent eventId
      (LatencyEvent.publish active untracked t.state.activeSessions now replacementKey)) := by
    refine kept.modifyEvent eventId _ _ (fun _ => rfl) fun event member named ok => ?_
    have unpublished := awaits event member named
    obtain ⟨success, failed, -⟩ := ok.silent unpublished
    refine ⟨⟨?_, fun none_ => (by cases none_)⟩, fun key keyed =>
      publish_keys ok unpublished keyed⟩
    show event.notifySuccess + event.notifyFailed + untracked +
      t.state.activeSessions.card = active
    rw [success, failed, tracked]
    omega
  obtain rfl : event.id = eventId := Table.key_of_find? found
  exact modified.addJob (mem_modifyEvent found) rfl rfl rfl rfl rfl rfl rfl

theorem publishEvent_find {eventId : Nat} {event : LatencyEvent} (replacementKey : String)
    (now active untracked : Nat) (found : t.state.events.find? eventId = some event) :
    (t.publishEvent eventId replacementKey now active untracked).state.events.find? eventId =
      some (event.publish active untracked t.state.activeSessions now replacementKey) := by
  have member : event.publish active untracked t.state.activeSessions now replacementKey ∈
      (t.modifyEvent eventId (LatencyEvent.publish active untracked t.state.activeSessions now
        replacementKey) fun _ => rfl).state.events.rows := mem_modifyEvent found
  have named : Keyed.key event = eventId := Table.key_of_find? found
  exact Table.find?_eq_some_iff.2 ⟨member, named⟩

/-- The rest of a publication keeps the books, if the totals were read consistently. -/
theorem Kept.commitPublish {eventId now active untracked stale : Nat} {replacementKey : String}
    (kept : Kept t)
    (awaits : ∀ event ∈ t.state.events.rows, event.id = eventId → event.publishedAt = none)
    (consistent : SnapshotConsistent t eventId active untracked stale) :
    Kept (commitPublish config full t eventId replacementKey now active untracked stale) := by
  unfold ReplacementLatency.commitPublish
  dsimp only
  split
  · exact kept
  · rename_i live
    obtain ⟨event, found⟩ : ∃ event, t.state.events.find? eventId = some event := by
      rw [← Option.isSome_iff_exists, ← Option.not_isNone, Bool.not_eq_true']
      exact Bool.eq_false_iff.2 live
    split
    · apply Kept.finishLocked
      refine kept.modifyEvent eventId _ _ (fun _ => rfl) fun event member named ok => ?_
      have unpublished := awaits event member named
      obtain ⟨success, failed, pending⟩ := ok.silent unpublished
      refine ⟨⟨?_, fun none_ => (by cases none_)⟩, fun key keyed =>
        publish_keys ok unpublished keyed⟩
      show event.notifySuccess + event.notifyFailed + active + event.pendingSessions.card = active
      rw [success, failed, pending, Finset.card_empty]
      omega
    · rename_i agrees
      have agrees := Bool.eq_false_iff.2 agrees
      have within := consistent (by rw [found]; rfl) agrees
      obtain ⟨-, tracked⟩ := rosterInconsistent_false.1 agrees
      have published := kept.publishEvent replacementKey now found awaits within tracked
      split
      · exact published.finishLocked
      · exact published

end Publish

/-! ## Steps -/

section Steps

variable {config : Config} {s s' : State}

/-- Nothing but counters and sessions has changed. -/
structure Quiet (s s' : State) : Prop where
  state : s'.telemetry.state = s.telemetry.state
  finished : s'.telemetry.finished = s.telemetry.finished
  nextId : s'.telemetry.counters.nextId = s.telemetry.counters.nextId
  publishing : s'.publishing = s.publishing

/-- What a step does to the books. -/
inductive Moves (config : Config) (s s' : State) : Event → Prop
  | quiet {event : Event} : Quiet s s' → Moves config s s' event
  | locked {event : Event} : (Kept s.telemetry → Kept s'.telemetry ∧
      Awaits s'.telemetry s'.publishing) → Moves config s s' event
  | load {full : Nat → Bool} (p : Publishing) (loads : Loads) : s.publishing = some p →
      (∀ active untracked, p.loads ≠ .untracked active untracked) →
      s' = { s with publishing := some { p with loads } } → Moves config s s' (.load full)
  | commit {full : Nat → Bool} (p : Publishing) (active untracked : Nat) :
      s.publishing = some p → p.loads = .untracked active untracked →
      s'.telemetry = commitPublish config full s.telemetry p.eventId p.replacementKey p.now active
        untracked s.telemetry.counters.staleTrackedSessions →
      s'.publishing = none → Moves config s s' (.load full)

/-- An attempt at the lock goes in when no publication is on its way; otherwise a counter notes the
miss. -/
theorem tryState_cases {lock : TryLock} {inside missed : State → State}
    (tried : s.tryState lock inside missed = some s') :
    s.publishing = none ∧ s' = inside s ∨
      ∃ f : Counters → Counters, (∀ c, (f c).nextId = c.nextId) ∧
        s' = missed (s.mapCounters f) := by
  cases lock with
  | held =>
      change (if s.publishing.isSome = true then none else some _) = _ at tried
      split at tried
      · cases tried
      · rename_i free
        cases tried
        exact .inl ⟨Option.isSome_eq_false_iff.1 (Bool.eq_false_iff.2 free) |>
          Option.isNone_iff_eq_none.1, rfl⟩
  | wouldBlock =>
      cases tried
      refine .inr ⟨_, ?_, rfl⟩
      intro c
      rfl
  | poisoned =>
      cases tried
      refine .inr ⟨_, ?_, rfl⟩
      intro c
      rfl

/-- A section that keeps the books, or a lock that was missed. -/
theorem moves_of_section {event : Event} {lock : TryLock} {f : Telemetry → Telemetry}
    {g h : State → State} (keeps : ∀ t, Kept t → Kept (f t))
    (telemetry : ∀ s, (g s).telemetry = s.telemetry ∧ (g s).publishing = s.publishing)
    (missed : ∀ s, (h s).telemetry = s.telemetry ∧ (h s).publishing = s.publishing)
    (tried : s.tryState lock (fun s => g (s.mapTelemetry f)) h = some s') :
    Moves config s s' event := by
  rcases tryState_cases tried with ⟨free, rfl⟩ | ⟨count, same, rfl⟩
  · refine .locked fun kept => ⟨?_, fun p same => ?_⟩
    · rw [(telemetry _).1]
      exact keeps _ kept
    · rw [(telemetry _).2] at same
      exact absurd (free.symm.trans same) (by simp)
  · refine .quiet ⟨?_, ?_, ?_, ?_⟩
    · rw [(missed _).1]
      rfl
    · rw [(missed _).1]
      rfl
    · rw [(missed _).1]
      exact same _
    · rw [(missed _).2]
      rfl

theorem quiet_move {f : Counters → Counters} (same : ∀ c, (f c).nextId = c.nextId)
    (session : Nat) (pc : SessionPc) : Quiet s ((s.mapCounters f).move session pc) :=
  ⟨rfl, rfl, same _, rfl⟩

theorem add_nextId (c : Counters) (op : CounterOp) : (c.add op).nextId = c.nextId := by
  cases op <;> rfl

theorem moves_activate {event : Event} {session sessionId : Nat} (free : s.publishing = none) :
    Moves config s (s.activateLocked session sessionId) event := by
  unfold State.activateLocked
  dsimp only
  split
  · exact .quiet ⟨rfl, rfl, rfl, rfl⟩
  · refine .locked fun kept => ⟨?_, fun p same => absurd (free.symm.trans same) (by simp)⟩
    exact kept.rewrite (g := id)
      ⟨fun _ => rfl, fun _ => rfl, fun _ _ _ keyed => keyed, fun _ _ ok => ok⟩
      (List.map_id _).symm rfl rfl rfl rfl rfl

/-- **One step.** -/
theorem step_moves {event : Event} (enabled : config.enabled = true)
    (stepped : State.step config s event = some s') : Moves config s s' event := by
  unfold State.step at stepped
  rw [enabled] at stepped
  simp only [Bool.not_true, Bool.false_eq_true, if_false] at stepped
  cases event with
  | observeUpstream dedupeKey source now lock full =>
      dsimp only at stepped
      split at stepped
      · cases stepped
        exact .quiet ⟨rfl, rfl, rfl, rfl⟩
      · exact moves_of_section (g := id) (fun _ kept => kept.observeLocked)
          (fun _ => ⟨rfl, rfl⟩) (fun _ => ⟨rfl, rfl⟩) stepped
  | markAReady eventId now lock full =>
      exact moves_of_section (g := id) (fun _ kept => kept.markAReadyLocked)
        (fun _ => ⟨rfl, rfl⟩) (fun _ => ⟨rfl, rfl⟩) stepped
  | markPublished eventId replacementKey now lock full =>
      rcases tryState_cases stepped with ⟨free, rfl⟩ | ⟨count, same, rfl⟩
      · exact .locked fun kept => kept.beginPublish
      · exact .quiet ⟨rfl, rfl, same _, rfl⟩
  | load full =>
      obtain ⟨p, holds, rfl⟩ := Option.map_eq_some_iff.1 stepped
      cases loads : p.loads with
      | none =>
          refine .load p (.active s.telemetry.counters.activeSessionTotal) holds ?_ ?_
          · rw [loads]
            exact fun _ _ same => (by cases same)
          · unfold State.load
            rw [loads]
      | active activeTotal =>
          refine .load p (.untracked activeTotal s.telemetry.counters.untrackedActiveSessions)
            holds ?_ ?_
          · rw [loads]
            exact fun _ _ same => (by cases same)
          · unfold State.load
            rw [loads]
      | untracked activeTotal untrackedActive =>
          refine .commit p activeTotal untrackedActive holds loads ?_ ?_
          · unfold State.load
            rw [loads]
          · unfold State.load
            rw [loads]
  | failEvent eventId reason now lock full =>
      exact moves_of_section (g := id) (fun _ kept => kept.finishLocked)
        (fun _ => ⟨rfl, rfl⟩) (fun _ => ⟨rfl, rfl⟩) stepped
  | expire now lock full =>
      exact moves_of_section (g := id) (fun _ kept => kept.expireLocked)
        (fun _ => ⟨rfl, rfl⟩) (fun _ => ⟨rfl, rfl⟩) stepped
  | recordNotify session replacementKey outcome now lock full =>
      dsimp only at stepped
      split at stepped
      · exact moves_of_section (g := id) (fun _ kept => kept.recordFanoutLocked)
          (fun _ => ⟨rfl, rfl⟩) (fun _ => ⟨rfl, rfl⟩) stepped
      · cases stepped
  | authorize session =>
      dsimp only at stepped
      split at stepped
      · cases stepped
        exact .quiet ⟨rfl, rfl, rfl, rfl⟩
      · cases stepped
  | activate session lock =>
      dsimp only at stepped
      split at stepped
      · rcases tryState_cases stepped with ⟨free, rfl⟩ | ⟨count, same, rfl⟩
        · exact moves_activate free
        · exact .quiet (quiet_move same _ _)
      · cases stepped
  | count session =>
      dsimp only at stepped
      split at stepped
      · cases stepped
        exact .quiet (quiet_move (fun c => add_nextId c _) _ _)
      · cases stepped
        exact .quiet (quiet_move (fun c => add_nextId c _) _ _)
      · cases stepped
  | drop session =>
      dsimp only at stepped
      split at stepped
      · cases stepped
        exact .quiet ⟨rfl, rfl, rfl, rfl⟩
      · cases stepped
  | untrack session =>
      dsimp only at stepped
      split at stepped
      · cases stepped
        exact .quiet ⟨rfl, rfl, rfl, rfl⟩
      · cases stepped
  | deactivate session now lock full =>
      dsimp only at stepped
      split at stepped
      · exact moves_of_section (g := fun s => s.move session .gone)
          (h := fun s => s.move session (.cleaning [.rosterCleanupFailures, .staleTrackedSessions]))
          (fun _ kept => kept.deactivateLocked) (fun _ => ⟨rfl, rfl⟩) (fun _ => ⟨rfl, rfl⟩) stepped
      · cases stepped

end Steps

/-! ## Runs -/

section Runs

variable {config : Config} {s s' : State} {event : Event}

/-- A publication that is about to be made takes its sums from totals they can be made from. -/
def PublishesConsistently (s : State) : Event → Prop
  | .load _ =>
      match s.publishing with
      | some ⟨eventId, _, _, .untracked active untracked⟩ =>
          SnapshotConsistent s.telemetry eventId active untracked
            s.telemetry.counters.staleTrackedSessions
      | _ => True
  | _ => True

instance (t : Telemetry) (eventId active untracked stale : Nat) :
    Decidable (SnapshotConsistent t eventId active untracked stale) :=
  inferInstanceAs (Decidable (_ → _ → _))

instance (s : State) (event : Event) : Decidable (PublishesConsistently s event) :=
  match event with
  | .load _ =>
      match same : s.publishing with
      | some ⟨eventId, _, _, .untracked active untracked⟩ =>
          decidable_of_iff (SnapshotConsistent s.telemetry eventId active untracked
            s.telemetry.counters.staleTrackedSessions) (by simp only [PublishesConsistently, same])
      | none => .isTrue (by simp only [PublishesConsistently, same])
      | some ⟨_, _, _, .none⟩ => .isTrue (by simp only [PublishesConsistently, same])
      | some ⟨_, _, _, .active _⟩ => .isTrue (by simp only [PublishesConsistently, same])
  | .observeUpstream .. | .markAReady .. | .markPublished .. | .failEvent .. | .expire ..
  | .recordNotify .. | .authorize .. | .activate .. | .count .. | .drop .. | .untrack ..
  | .deactivate .. => .isTrue trivial

theorem publishesConsistently_commit {full : Nat → Bool} {p : Publishing} {active untracked : Nat}
    (holds : s.publishing = some p) (loads : p.loads = .untracked active untracked) :
    PublishesConsistently s (.load full) ↔
      SnapshotConsistent s.telemetry p.eventId active untracked
        s.telemetry.counters.staleTrackedSessions := by
  obtain ⟨eventId, replacementKey, now, loads'⟩ := p
  cases loads
  simp only [PublishesConsistently, holds]

theorem publishes_of_not (inconsistent : ¬ PublishesConsistently s event) :
    ∃ full p active untracked, event = .load full ∧ s.publishing = some p ∧
      p.loads = .untracked active untracked := by
  cases event with
  | load full =>
      cases holds : s.publishing with
      | none => simp only [PublishesConsistently, holds, not_true_eq_false] at inconsistent
      | some p =>
          obtain ⟨eventId, replacementKey, now, loads⟩ := p
          cases loads with
          | untracked active untracked => exact ⟨full, _, active, untracked, rfl, rfl, rfl⟩
          | _ => simp only [PublishesConsistently, holds, not_true_eq_false] at inconsistent
  | _ => exact absurd trivial inconsistent

/-- What is true in every state: the books are kept, also those a publication works on. -/
structure Steady (config : Config) (s : State) : Prop where
  kept : Kept s.telemetry
  awaits : Awaits s.telemetry s.publishing
  disabled : config.enabled = false → s.publishing = none

theorem steady_start (now : Nat) : Steady config (.start now) :=
  ⟨kept_new now, fun p same => (by cases same), fun _ => rfl⟩

theorem Steady.step (steady : Steady config s) (stepped : State.step config s event = some s')
    (consistent : PublishesConsistently s event) : Steady config s' := by
  cases enabled : config.enabled with
  | false =>
      unfold State.step at stepped
      rw [enabled] at stepped
      cases stepped
      exact steady
  | true =>
      have off : config.enabled = false → s'.publishing = none := by
        rw [enabled]
        intro same
        cases same
      cases step_moves enabled stepped with
      | quiet quiet =>
          refine ⟨steady.kept.congr quiet.state quiet.finished quiet.nextId, ?_, off⟩
          intro p
          rw [quiet.publishing, quiet.state]
          exact steady.awaits p
      | locked keeps =>
          obtain ⟨kept, awaits⟩ := keeps steady.kept
          exact ⟨kept, awaits, off⟩
      | load p loads holds _ same =>
          subst same
          refine ⟨steady.kept, ?_, off⟩
          intro p' same'
          cases same'
          exact steady.awaits p holds
      | commit p active untracked holds loads telemetry free =>
          have snapshot := (publishesConsistently_commit holds loads).1 consistent
          refine ⟨?_, fun p same => ?_, off⟩
          · rw [telemetry]
            exact steady.kept.commitPublish (steady.awaits p holds) snapshot
          · rw [free] at same
            cases same

/-- The invariant holds along every run whose publications read the totals consistently. -/
theorem steady_reaches (reaches : (machine config).Reaches PublishesConsistently s) :
    Steady config s := by
  apply reaches.invariant
  · rintro _ ⟨now, rfl⟩
    exact steady_start now
  · intro s event s' _ steady consistent stepped
    exact steady.step stepped consistent

/-- What a publication leaves that finds more untracked sessions than sessions. -/
theorem commitPublish_unbalanced {t : Telemetry} {full : Nat → Bool}
    {eventId now active untracked stale : Nat} {replacementKey : String} (kept : Kept t)
    (awaits : ∀ event ∈ t.state.events.rows, event.id = eventId → event.publishedAt = none)
    (inconsistent : ¬ SnapshotConsistent t eventId active untracked stale) :
    ¬ Accounted (commitPublish config full t eventId replacementKey now active untracked
      stale) := by
  unfold SnapshotConsistent at inconsistent
  push Not at inconsistent
  obtain ⟨live, agrees, more⟩ := inconsistent
  obtain ⟨event, found⟩ := Option.isSome_iff_exists.1 live
  obtain ⟨-, tracked⟩ := rosterInconsistent_false.1 agrees
  have empty : t.state.activeSessions = ∅ := by
    rw [← Finset.card_eq_zero]
    omega
  have member := Table.mem_of_find? found
  have named := Table.key_of_find? found
  obtain ⟨success, failed, -⟩ :=
    (kept.events event member).silent (awaits event member named)
  have published := publishEvent_find (t := t) replacementKey now active untracked found
  intro accounted
  unfold commitPublish at accounted
  dsimp only at accounted
  rw [found, agrees, if_neg (by simp), if_neg (by simp), if_pos empty] at accounted
  have balanced := accounted.balanced
  rw [(finishLocked_finishes published).finished] at balanced
  have last := balanced _ (List.mem_append_right _ List.mem_cons_self)
  change event.notifySuccess + event.notifyFailed +
    (untracked + t.state.activeSessions.card) = active at last
  rw [success, failed, empty, Finset.card_empty] at last
  omega

/-- **The books of the telemetry.**  They are right in every run whose publications find no more
untracked sessions than sessions, and a publication that finds more puts them wrong. -/
theorem telemetry_accounting (config : Config) :
    (∀ s, (machine config).Reaches PublishesConsistently s → Accounted s.telemetry) ∧
    ∀ s event s', (machine config).Reaches PublishesConsistently s →
      (machine config).step s event = some s' →
        (Accounted s'.telemetry ↔ PublishesConsistently s event) := by
  refine ⟨fun s reaches => (steady_reaches reaches).kept.accounted,
    fun s event s' reaches stepped => ?_⟩
  have steady := steady_reaches reaches
  constructor
  · intro accounted
    by_contra inconsistent
    obtain ⟨full, p, active, untracked, rfl, holds, loads⟩ := publishes_of_not inconsistent
    rw [publishesConsistently_commit holds loads] at inconsistent
    have enabled : config.enabled = true := by
      by_contra off
      have idle := steady.disabled (Bool.eq_false_iff.2 off)
      rw [holds] at idle
      cases idle
    have ended : (s.load config full p).telemetry = s'.telemetry := by
      change (if !config.enabled then some s else s.publishing.map (s.load config full)) = some s'
        at stepped
      rw [enabled, holds] at stepped
      cases stepped
      rfl
    unfold State.load at ended
    rw [loads] at ended
    rw [← ended] at accounted
    exact commitPublish_unbalanced steady.kept (steady.awaits p holds) inconsistent accounted
  · exact fun consistent => (steady.step stepped consistent).kept.accounted

def sampleConfig : Config := ⟨true, 1, false, id⟩

def room : Nat → Bool := fun _ => false

/-- One session on the roster, notified of one replacement. -/
def notifiedRun : List Event :=
  [.authorize 7, .activate 7 .held,
    .observeUpstream "tip" .independentSentinelAhead 0 .held room, .markAReady 1 1 .held room,
    .markPublished 1 "job" 2 .held room, .load room, .load room, .load room,
    .recordNotify 7 "job" .success 3 .held room]

theorem telemetry_accounting_sample :
    ∃ s, (machine sampleConfig).Reaches PublishesConsistently s ∧ Accounted s.telemetry ∧
      s.telemetry.finished.map (fun entry => (entry.1, entry.2.notifySuccess)) = [(1, 1)] := by
  obtain ⟨s, reaches, finished⟩ := Machine.exists_of_runUnder (machine sampleConfig)
    PublishesConsistently (s := .start 0) ⟨0, rfl⟩ notifiedRun
    (fun s => decide (s.telemetry.finished.map (fun entry => (entry.1, entry.2.notifySuccess)) =
      [(1, 1)])) (by decide +kernel)
  exact ⟨s, reaches, (telemetry_accounting sampleConfig).1 s reaches, of_decide_eq_true finished⟩

/-- An untracked session has left the total of sessions, and not yet that of untracked ones, when
a job is published. -/
def departingRun : List Event :=
  [.authorize 7, .activate 7 .wouldBlock, .count 7, .count 7, .count 7,
    .observeUpstream "tip" .independentSentinelAhead 0 .held room, .markAReady 1 1 .held room,
    .drop 7, .markPublished 1 "job" 2 .held room, .load room, .load room, .load room]

/-- A summary of no sessions, one of which was skipped. -/
theorem departing_session_unbalanced :
    ∃ s, (machine sampleConfig).Reachable s ∧ ∃ entry ∈ s.telemetry.finished,
      entry.2.targetSessions = 0 ∧ entry.2.notifySkipped = 1 ∧ ¬ entry.2.Balanced := by
  obtain ⟨s, reached, found⟩ := Machine.exists_of_run (machine sampleConfig) (s := .start 0)
    ⟨0, rfl⟩ departingRun (fun s => s.telemetry.finished.any fun entry =>
      decide (entry.2.targetSessions = 0) && decide (entry.2.notifySkipped = 1) &&
        decide (entry.2.notifySuccess + entry.2.notifyFailed + entry.2.notifySkipped ≠
          entry.2.targetSessions)) (by decide +kernel)
  obtain ⟨entry, member, unbalanced⟩ := List.any_eq_true.1 found
  simp only [Bool.and_eq_true, decide_eq_true_eq] at unbalanced
  exact ⟨s, reached, entry, member, unbalanced.1.1, unbalanced.1.2, unbalanced.2⟩

end Runs

end CsdPool.Bridge.ReplacementLatency
