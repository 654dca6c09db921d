/-
# Bridge.Notify — which jobs a session is notified of

The refresh loop retains a job and then sends it over the watch channel; a session holds two
receivers of that channel.  One turn of an authorized session polls, in this order, the
receiver that waits for a clean job (it drops what is not clean), the receiver that takes any
job, and the line reader.  A job taken from either receiver marks both as seen, and is sent
unless its parent is fenced by then.  Three more paths write the channel's job: the answer to
a stale submit (always clean), to an authorize (with the job's own flag) and to a change of
the difficulty (never clean, and the receivers are left alone).

Every borrow, mark and write is a step of its own, so publications and the sentinel fall
between any two of them.  A session ends by a run that takes no more steps of it.
-/
import CsdPool.Bridge.Retained
import CsdPool.Bridge.Session
import CsdPool.Theory.Watch

namespace CsdPool.Bridge

open Theory (Table Machine Watch Receiver)

set_option autoImplicit false

/-! ## The channel -/

/-- What the loop shares with the sessions.  A job it has retained is `pending` until it is
sent. -/
structure Feed where
  channel : Watch PoolJob
  retained : RetainedJobs
  pending : Option PoolJob

namespace Feed

def watch (feed : Feed) : JobWatch := ⟨feed.channel.value, feed.retained⟩

def initial (job : PoolJob) (now : Nat) : Feed where
  channel := .channel job
  retained := .withInitial job now
  pending := none

/-- `retained_jobs.publish`. -/
def retain (feed : Feed) (next : PoolJob) (retention now : Nat) : Feed :=
  { feed with
    retained := (feed.watch.publish next retention now).retained
    pending := some (feed.watch.publish next retention now).current }

/-- `send_replace`. -/
def send (feed : Feed) (job : PoolJob) : Feed :=
  { feed with channel := feed.channel.sendReplace job, pending := none }

def invalidate (feed : Feed) : Feed := { feed with retained := feed.watch.invalidate.retained }

end Feed

inductive FeedEvent
  | retain (next : PoolJob) (retention now : Nat)
  | send
  | invalidate

namespace Feed

/-- The loop sends what it retained before it does anything else. -/
def step (feed : Feed) : FeedEvent → Option Feed
  | .retain next retention now =>
      if feed.pending.isSome || feed.watch.refuses next ||
          decide (next.template.jobId = feed.channel.value.template.jobId) then none
      else some (feed.retain next retention now)
  | .send => feed.pending.map feed.send
  | .invalidate => if feed.pending.isSome then none else some feed.invalidate

end Feed

def feedMachine : Machine Feed FeedEvent where
  init feed := ∃ job now, feed = .initial job now
  step := Feed.step

/-- Between a retained job and its sending the loop does nothing else, so what is shared is
always a state of the loop, or is one once the pending job is sent. -/
theorem feed_reached {feed : Feed} (reached : feedMachine.Reachable feed) :
    jobWatch.Reachable ⟨feed.pending.getD feed.channel.value, feed.retained⟩ := by
  apply reached.invariant
  · rintro _ ⟨job, now, rfl⟩
    exact .start ⟨job, now, rfl⟩
  · intro feed event feed' _ known _ stepped
    cases event with
    | retain next retention now =>
        change (if _ then none else some _) = some feed' at stepped
        split at stepped
        · cases stepped
        · rename_i accepted
          simp only [Bool.or_eq_true, not_or, Bool.not_eq_true] at accepted
          obtain ⟨⟨idle, unrefused⟩, -⟩ := accepted
          cases stepped
          rw [Option.isSome_eq_false_iff.1 idle |> Option.isNone_iff_eq_none.1] at known
          apply known.next (e := .publish next retention now) trivial
          show (if feed.watch.refuses next then none else _) = some _
          rw [unrefused]
          rfl
    | send =>
        obtain ⟨job, pending, rfl⟩ := Option.map_eq_some_iff.1 stepped
        rw [pending] at known
        exact known
    | invalidate =>
        change (if _ then none else some _) = some feed' at stepped
        split at stepped
        · cases stepped
        · rename_i idle
          cases stepped
          have none_pending := Option.not_isSome_iff_eq_none.1 idle
          rw [none_pending] at known
          show jobWatch.Reachable ⟨feed.pending.getD _, _⟩
          rw [none_pending]
          exact known.next (e := .invalidate) trivial rfl

/-! ## The session -/

inductive NotifyPath
  | select
  | resync
  | authorize
  | difficulty
  deriving DecidableEq, Repr

/-- A notify that was written to the client. -/
structure Notified where
  job : PoolJob
  path : NotifyPath
  params : NotifyParams

def Notified.parent (notified : Notified) : Hash32 := notified.job.template.prev

inductive SessionPc
  | turn
  | cleanPending
  | jobPending
  | taken (job : PoolJob)
  | jobMarked (job : PoolJob)
  | notifying (path : NotifyPath) (job : PoolJob)

/-- `notified` has the last notify first. -/
structure NotifySession where
  authorized : Bool
  jobRx : Receiver
  cleanJobRx : Receiver
  pc : SessionPc
  notified : List Notified

inductive Request
  | authorize
  | staleSubmit
  | difficulty
  | other
  deriving DecidableEq, Repr

/-- The notify each path makes of a job. -/
def paramsOn (path : NotifyPath) (job : PoolJob) : NotifyParams :=
  match path with
  | .select => job.notify
  | .authorize => job.notify
  | .resync => { job.notify with cleanJobs := true }
  | .difficulty => { job.notify with cleanJobs := false }

namespace NotifySession

def connect (channel : Watch PoolJob) : NotifySession where
  authorized := false
  jobRx := channel.subscribe
  cleanJobRx := channel.subscribe
  pc := .turn
  notified := []

/-- The job counts for submits, so it is sent. -/
def sends (retained : RetainedJobs) (job : PoolJob) : Bool :=
  (retained.getForSubmit job.template.jobId).isSome

def deliver (session : NotifySession) (retained : RetainedJobs) (path : NotifyPath)
    (job : PoolJob) : NotifySession :=
  if sends retained job then
    { session with pc := .turn, notified := ⟨job, path, paramsOn path job⟩ :: session.notified }
  else { session with pc := .turn }

/-- The session's own next step. -/
def poll (session : NotifySession) (feed : Feed) : Option NotifySession :=
  match session.pc with
  | .turn =>
      if session.authorized then
        if session.cleanJobRx.changed feed.channel then
          -- `next_clean_job` goes on waiting unless the job is clean
          some { session with
            cleanJobRx := feed.channel.borrowAndUpdate.2
            pc := if feed.channel.value.notify.cleanJobs then .taken feed.channel.value
              else .turn }
        else some { session with pc := .cleanPending }
      else none
  | .cleanPending =>
      if session.jobRx.changed feed.channel then
        some { session with
          jobRx := feed.channel.borrowAndUpdate.2
          pc := .taken feed.channel.value }
      else some { session with pc := .jobPending }
  | .jobPending => some { session with pc := .turn }
  | .taken job =>
      some { session with jobRx := feed.channel.borrowAndUpdate.2, pc := .jobMarked job }
  | .jobMarked job =>
      some { session with
        cleanJobRx := feed.channel.borrowAndUpdate.2
        pc := .notifying .select job }
  | .notifying path job => some (session.deliver feed.retained path job)

/-- Whether the line reader is polled. -/
def reads (session : NotifySession) : Bool :=
  match session.pc with
  | .turn => !session.authorized
  | .jobPending => true
  | _ => false

/-- A request is answered; the paths that send a job borrow it. -/
def request (session : NotifySession) (feed : Feed) : Request → Option NotifySession
  | .authorize =>
      if session.reads then
        some { session with
          authorized := true
          jobRx := feed.channel.borrowAndUpdate.2
          pc := .notifying .authorize feed.channel.value }
      else none
  | .staleSubmit =>
      if session.reads && session.authorized then
        some { session with
          jobRx := feed.channel.borrowAndUpdate.2
          pc := .notifying .resync feed.channel.value }
      else none
  | .difficulty =>
      if session.reads then
        some { session with pc := .notifying .difficulty feed.channel.value }
      else none
  | .other => if session.reads then some { session with pc := .turn } else none

end NotifySession

structure NotifyState where
  feed : Feed
  session : NotifySession

inductive NotifyEvent
  | feed (event : FeedEvent)
  | poll
  | request (request : Request)

namespace NotifyState

def step (s : NotifyState) : NotifyEvent → Option NotifyState
  | .feed event => (s.feed.step event).map fun feed => { s with feed }
  | .poll => (s.session.poll s.feed).map fun session => { s with session }
  | .request request => (s.session.request s.feed request).map fun session => { s with session }

end NotifyState

/-- A session that connects at any moment of the loop's run. -/
def notifyMachine : Machine NotifyState NotifyEvent where
  init s := feedMachine.Reachable s.feed ∧ s.session = .connect s.feed.channel
  step := NotifyState.step

end CsdPool.Bridge
