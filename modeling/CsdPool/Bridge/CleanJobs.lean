/-
# Bridge.CleanJobs — whether a move to a new parent is announced as clean

A miner that is sent a job on another parent must have been told to drop the old ones.  The
clean flag is on the tip change's own job only, and the channel keeps one value: a heartbeat
that overwrites a tip change the session has not taken hides the flag
(`clean_flag_lost`).

`KeepsUp` names the steps that lose it, as conditions on what the session has in hand and was
notified of: a heartbeat is read for a notify with its own flag, and its parent is not the last
notify's, or that one was moved to it by a notify for the difficulty; a notify for the difficulty
would move the parent and the job receiver is past the job; a job is skipped for its fenced parent
after such a notify.  In a run without them the flag arrives (`clean_delivered`).  Only parents
count: a tip that moves away and back, unseen, loses nothing.
-/
import CsdPool.Bridge.Notify

namespace CsdPool.Bridge

open Theory (Watch Receiver Machine)

set_option autoImplicit false

/-! ## What a session was notified of -/

/-- The last notify is one of a row of notifies for the difficulty that has moved the parent. -/
def astray : List Notified → Bool
  | [] => false
  | [_] => false
  | last :: before :: rest =>
      decide (last.path = .difficulty) &&
        (decide (before.parent ≠ last.parent) || astray (before :: rest))

/-- The job is on the parent of the last notify, and that one is not astray. -/
def upToDate (notified : List Notified) (job : PoolJob) : Bool :=
  (notified.head?.all fun last => decide (last.parent = job.template.prev)) && !astray notified

/-- The last notify is on the parent of an earlier one, or a clean notify on its parent came
after that. -/
def CleanlyMoved (notified : List Notified) : Prop :=
  ∀ last, notified.head? = some last →
    ∀ newer earlier older, notified = newer ++ earlier :: older → last.parent ≠ earlier.parent →
      ∃ clean ∈ newer, clean.parent = last.parent ∧ clean.params.cleanJobs = true

theorem astray_cons_difficulty {last : Notified} (rest : List Notified)
    (path : last.path = .difficulty) : astray (last :: rest) = !upToDate rest last.job := by
  cases rest with
  | nil => rfl
  | cons before rest =>
      rw [astray, decide_eq_true path, Bool.true_and]
      show _ = !(decide (before.parent = last.parent) && !astray (before :: rest))
      rw [Bool.not_and, Bool.not_not, decide_not]

theorem not_astray_cons {last : Notified} (rest : List Notified)
    (path : last.path ≠ .difficulty) : astray (last :: rest) = false := by
  cases rest with
  | nil => rfl
  | cons before rest =>
      unfold astray
      rw [decide_eq_false path, Bool.false_and]

/-- A clean notify settles everything before it. -/
theorem cleanlyMoved_cons_clean {last : Notified} (rest : List Notified)
    (clean : last.params.cleanJobs = true) : CleanlyMoved (last :: rest) := by
  intro last' head newer earlier older split moved
  cases head
  cases newer with
  | nil =>
      cases split
      exact absurd rfl moved
  | cons first newer =>
      cases split
      exact ⟨last, List.mem_cons_self, rfl, clean⟩

/-- A notify on the parent of the one before it changes nothing. -/
theorem cleanlyMoved_cons_same {last before : Notified} {rest : List Notified}
    (settled : CleanlyMoved (before :: rest)) (same : last.parent = before.parent) :
    CleanlyMoved (last :: before :: rest) := by
  intro last' head newer earlier older split moved
  cases head
  cases newer with
  | nil =>
      cases split
      exact absurd rfl moved
  | cons first newer =>
      injection split with first_eq split
      subst first_eq
      rw [same] at moved ⊢
      obtain ⟨clean, member, announced⟩ := settled before rfl newer earlier older split moved
      exact ⟨clean, List.mem_cons_of_mem _ member, announced⟩

theorem cleanlyMoved_nil : CleanlyMoved [] := by
  intro last head
  cases head

theorem cleanlyMoved_singleton (only : Notified) : CleanlyMoved [only] := by
  intro last head newer earlier older split moved
  cases head
  cases newer with
  | nil =>
      cases split
      exact absurd rfl moved
  | cons first newer =>
      injection split with first_eq split
      exact absurd split (by simp)

/-- Nor does a notify on a parent that the list is up to date with. -/
theorem cleanlyMoved_cons_upToDate {last : Notified} {rest : List Notified}
    (settled : astray rest = false → CleanlyMoved rest)
    (current : upToDate rest last.job = true) : CleanlyMoved (last :: rest) := by
  cases rest with
  | nil => exact cleanlyMoved_singleton last
  | cons before rest =>
      obtain ⟨same, straight⟩ := Bool.and_eq_true_iff.1 current
      have same : before.parent = last.parent := of_decide_eq_true same
      exact cleanlyMoved_cons_same (settled (by simpa using straight)) same.symm

/-! ## The condition -/

namespace NotifySession

/-- The job a session is about to be notified of, and on which path. -/
def held (session : NotifySession) : Option (NotifyPath × PoolJob) :=
  match session.pc with
  | .taken job => some (.select, job)
  | .jobMarked job => some (.select, job)
  | .notifying path job => some (path, job)
  | _ => none

/-- A job that goes out with its own flag is clean or moves no parent. -/
def fair (session : NotifySession) (job : PoolJob) : Bool :=
  job.notify.cleanJobs || upToDate session.notified job

end NotifySession

namespace NotifyState

/-- The step loses no clean flag. -/
def keepsUp (s : NotifyState) : NotifyEvent → Bool
  | .feed _ => true
  | .poll =>
      match s.session.pc with
      | .cleanPending =>
          !s.session.jobRx.changed s.feed.channel || s.session.fair s.feed.channel.value
      | .notifying _ job =>
          NotifySession.sends s.feed.retained job || !astray s.session.notified
      | _ => true
  | .request .authorize => s.session.fair s.feed.channel.value
  | .request .difficulty =>
      s.session.jobRx.changed s.feed.channel ||
        upToDate s.session.notified s.feed.channel.value
  | .request _ => true

/-- The session has no job in hand and both receivers have seen the channel's. -/
def consumed (s : NotifyState) : Bool :=
  s.session.held.isNone && !s.session.jobRx.changed s.feed.channel &&
    !s.session.cleanJobRx.changed s.feed.channel

end NotifyState

abbrev KeepsUp (s : NotifyState) (e : NotifyEvent) : Prop := s.keepsUp e = true

/-! ## The invariant -/

/-- Why a job in hand may be sent on its path. -/
def Fair (s : NotifyState) : NotifyPath → PoolJob → Prop
  | .select, job => s.session.fair job = true
  | .authorize, job => s.session.fair job = true
  | .resync, _ => True
  | .difficulty, job =>
      s.session.jobRx.changed s.feed.channel = true ∨ upToDate s.session.notified job = true

/-- What is settled stays so, and a session that is astray has a job still to see. -/
structure Tracks (s : NotifyState) : Prop where
  behind : s.session.jobRx.Behind s.feed.channel
  settled : astray s.session.notified = false → CleanlyMoved s.session.notified
  quiet : s.session.held = none → astray s.session.notified = true →
    s.session.jobRx.changed s.feed.channel = true
  held : ∀ path job, s.session.held = some (path, job) → Fair s path job

/-! ## What one step keeps -/

theorem feed_step_channel {feed feed' : Feed} {event : FeedEvent}
    (stepped : feed.step event = some feed') :
    feed'.channel = feed.channel ∨ ∃ job, feed' = feed.send job := by
  cases event with
  | retain next retention now =>
      unfold Feed.step at stepped
      dsimp only at stepped
      split at stepped
      · cases stepped
      · cases stepped
        exact .inl rfl
  | send =>
      obtain ⟨job, -, sent⟩ := Option.map_eq_some_iff.1 stepped
      exact .inr ⟨job, sent.symm⟩
  | invalidate =>
      unfold Feed.step at stepped
      dsimp only at stepped
      split at stepped
      · cases stepped
      · cases stepped
        exact .inl rfl

/-- A value sent later only makes the receiver's change pending. -/
theorem Tracks.feed {s : NotifyState} {event : FeedEvent} {feed' : Feed} (tracks : Tracks s)
    (stepped : s.feed.step event = some feed') : Tracks { s with feed := feed' } := by
  rcases feed_step_channel stepped with same | ⟨job, rfl⟩
  · refine ⟨?_, tracks.settled, ?_, ?_⟩
    · show s.session.jobRx.Behind feed'.channel
      rw [same]
      exact tracks.behind
    · dsimp only
      rw [same]
      exact tracks.quiet
    · intro path job inHand
      have fair := tracks.held path job inHand
      cases path with
      | select => exact fair
      | resync => trivial
      | authorize => exact fair
      | difficulty =>
          unfold Fair
          dsimp only
          rw [same]
          exact fair
  · have pending : s.session.jobRx.changed (s.feed.send job).channel = true :=
      Receiver.changed_send tracks.behind _
    refine ⟨tracks.behind.send _, tracks.settled, fun _ _ => pending, ?_⟩
    intro path job' inHand
    have fair := tracks.held path job' inHand
    cases path with
    | select => exact fair
    | resync => trivial
    | authorize => exact fair
    | difficulty => exact .inl pending

/-- What the invariant says of the notifies once one more has gone out. -/
theorem settled_deliver {s : NotifyState} {path : NotifyPath} {job : PoolJob}
    (tracks : Tracks s) (fair : Fair s path job) :
    let notified := ⟨job, path, paramsOn path job⟩ :: s.session.notified
    (astray notified = false → CleanlyMoved notified) ∧
      (astray notified = true → s.session.jobRx.changed s.feed.channel = true) := by
  intro notified
  have ownFlag : s.session.fair job = true →
      (paramsOn path job).cleanJobs = job.notify.cleanJobs → CleanlyMoved notified := by
    intro fair flag
    rcases Bool.or_eq_true_iff.1 fair with clean | current
    · exact cleanlyMoved_cons_clean _ (flag.trans clean)
    · exact cleanlyMoved_cons_upToDate tracks.settled current
  have straight : path ≠ .difficulty → astray notified = true →
      s.session.jobRx.changed s.feed.channel = true := by
    intro other wild
    rw [not_astray_cons _ other] at wild
    cases wild
  cases path with
  | select => exact ⟨fun _ => ownFlag fair rfl, straight (by decide)⟩
  | authorize => exact ⟨fun _ => ownFlag fair rfl, straight (by decide)⟩
  | resync => exact ⟨fun _ => cleanlyMoved_cons_clean _ rfl, straight (by decide)⟩
  | difficulty =>
      have astray_eq : astray notified = !upToDate s.session.notified job :=
        astray_cons_difficulty _ rfl
      refine ⟨?_, ?_⟩
      · intro calm
        rw [astray_eq] at calm
        exact cleanlyMoved_cons_upToDate tracks.settled (by simpa using calm)
      · intro wild
        rw [astray_eq] at wild
        rcases fair with pending | current
        · exact pending
        · rw [current] at wild
          cases wild

/-- The job in hand goes out, or is skipped. -/
theorem Tracks.deliver {s : NotifyState} {path : NotifyPath} {job : PoolJob}
    (tracks : Tracks s) (there : s.session.pc = .notifying path job)
    (allowed : NotifySession.sends s.feed.retained job = true ∨
      astray s.session.notified = false) :
    Tracks { s with session := s.session.deliver s.feed.retained path job } := by
  have inHand : s.session.held = some (path, job) := by
    unfold NotifySession.held
    rw [there]
  unfold NotifySession.deliver
  by_cases sent : NotifySession.sends s.feed.retained job = true
  · rw [if_pos sent]
    obtain ⟨settled, quiet⟩ := settled_deliver tracks (tracks.held path job inHand)
    refine ⟨tracks.behind, settled, fun _ => quiet, ?_⟩
    intro path job held
    cases held
  · rw [if_neg sent]
    have straight : astray s.session.notified = false := allowed.resolve_left sent
    refine ⟨tracks.behind, tracks.settled, ?_, ?_⟩
    · intro _ wild
      rw [straight] at wild
      cases wild
    · intro path job held
      cases held

/-- The session takes the channel's job in hand; `jobRx` is the job receiver after it. -/
theorem Tracks.take {s : NotifyState} {p : NotifyPath} {session : NotifySession}
    (tracks : Tracks s) (inHand : session.held = some (p, s.feed.channel.value))
    (same : session.notified = s.session.notified)
    (behind : session.jobRx.Behind s.feed.channel)
    (fair : Fair { s with session } p s.feed.channel.value) :
    Tracks { s with session } := by
  refine ⟨behind, ?_, ?_, ?_⟩
  · dsimp only
    rw [same]
    exact tracks.settled
  · intro held
    exact absurd (inHand.symm.trans held) (by simp)
  · intro path' job held
    cases inHand.symm.trans held
    exact fair

/-- The session moves on with the same job in hand, or none. -/
theorem Tracks.move {s : NotifyState} {session : NotifySession} (tracks : Tracks s)
    (inHand : session.held = s.session.held) (same : session.notified = s.session.notified)
    (behind : session.jobRx.Behind s.feed.channel)
    (quiet : session.held = none → session.jobRx = s.session.jobRx)
    (fair : ∀ path job, session.held = some (path, job) → Fair { s with session } path job) :
    Tracks { s with session } := by
  refine ⟨behind, ?_, ?_, fair⟩
  · dsimp only
    rw [same]
    exact tracks.settled
  · intro held wild
    dsimp only at held wild ⊢
    rw [quiet held]
    rw [same] at wild
    exact tracks.quiet (inHand.symm.trans held) wild

/-- The session moves on with nothing in hand. -/
theorem Tracks.idle {s : NotifyState} {session : NotifySession} (tracks : Tracks s)
    (free : s.session.held = none) (idle : session.held = none)
    (same : session.notified = s.session.notified) (unread : session.jobRx = s.session.jobRx) :
    Tracks { s with session } := by
  refine tracks.move (idle.trans free.symm) same ?_ (fun _ => unread) ?_
  · rw [unread]
    exact tracks.behind
  · intro path job inHand
    cases idle.symm.trans inHand

theorem Tracks.poll {s : NotifyState} {session : NotifySession} (tracks : Tracks s)
    (allowed : KeepsUp s .poll) (stepped : s.session.poll s.feed = some session) :
    Tracks { s with session } := by
  have held : ∀ pc, s.session.pc = pc → s.session.held =
      NotifySession.held { s.session with pc } := by
    intro pc there
    rw [← there]
  unfold NotifySession.poll at stepped
  unfold KeepsUp NotifyState.keepsUp at allowed
  cases there : s.session.pc with
  | turn =>
      have free := held _ there
      rw [there] at stepped
      dsimp only at stepped
      split at stepped
      · split at stepped
        · cases clean : s.feed.channel.value.notify.cleanJobs with
          | true =>
              rw [clean, if_pos rfl] at stepped
              cases stepped
              exact tracks.take (p := .select) rfl rfl tracks.behind
                (Bool.or_eq_true_iff.2 (.inl clean))
          | false =>
              rw [clean] at stepped
              cases stepped
              exact tracks.idle free rfl rfl rfl
        · cases stepped
          exact tracks.idle free rfl rfl rfl
      · cases stepped
  | cleanPending =>
      have free := held _ there
      rw [there] at stepped allowed
      dsimp only at stepped allowed
      split at stepped
      · rename_i changed
        rw [changed] at allowed
        cases stepped
        exact tracks.take (p := .select) rfl rfl (Receiver.behind_borrowed _) allowed
      · cases stepped
        exact tracks.idle free rfl rfl rfl
  | jobPending =>
      have free := held _ there
      rw [there] at stepped
      cases stepped
      exact tracks.idle free rfl rfl rfl
  | taken job =>
      have inHand := held _ there
      rw [there] at stepped
      cases stepped
      refine tracks.move inHand.symm rfl (Receiver.behind_borrowed _) (fun free => ?_) ?_
      · cases free
      · intro path job' same
        cases same
        exact tracks.held _ _ inHand
  | jobMarked job =>
      have inHand := held _ there
      rw [there] at stepped
      cases stepped
      refine tracks.move inHand.symm rfl tracks.behind (fun _ => rfl) ?_
      intro path job' same
      cases same
      exact tracks.held _ _ inHand
  | notifying path job =>
      rw [there] at stepped allowed
      cases stepped
      apply tracks.deliver there
      simpa using allowed

theorem Tracks.request {s : NotifyState} {request : Request} {session : NotifySession}
    (tracks : Tracks s) (allowed : KeepsUp s (.request request))
    (stepped : s.session.request s.feed request = some session) : Tracks { s with session } := by
  have free : s.session.reads = true → s.session.held = none := by
    intro reads
    unfold NotifySession.reads at reads
    unfold NotifySession.held
    cases pc : s.session.pc <;> rw [pc] at reads <;> first | rfl | cases reads
  unfold NotifySession.request at stepped
  cases request with
  | authorize =>
      dsimp only at stepped
      split at stepped
      · rename_i reads
        cases stepped
        exact tracks.take (p := .authorize) rfl rfl (Receiver.behind_borrowed _) allowed
      · cases stepped
  | staleSubmit =>
      dsimp only at stepped
      split at stepped
      · rename_i reads
        cases stepped
        exact tracks.take (p := .resync) rfl rfl (Receiver.behind_borrowed _) trivial
      · cases stepped
  | difficulty =>
      dsimp only at stepped
      split at stepped
      · rename_i reads
        cases stepped
        exact tracks.take (p := .difficulty) rfl rfl tracks.behind
          (Bool.or_eq_true_iff.1 allowed)
      · cases stepped
  | other =>
      dsimp only at stepped
      split at stepped
      · rename_i reads
        cases stepped
        exact tracks.idle (free reads) rfl rfl rfl
      · cases stepped

theorem tracks_known {s : NotifyState} (reached : notifyMachine.Reaches KeepsUp s) :
    Tracks s := by
  apply reached.invariant
  · rintro ⟨feed, session⟩ ⟨-, connected⟩
    change session = .connect feed.channel at connected
    subst connected
    refine ⟨Receiver.behind_subscribe _, fun _ => cleanlyMoved_nil, ?_, ?_⟩
    · intro _ wild
      cases wild
    · intro path job inHand
      cases inHand
  · intro s event s' _ tracks allowed stepped
    cases event with
    | feed event =>
        obtain ⟨feed, moved, rfl⟩ := Option.map_eq_some_iff.1 stepped
        exact tracks.feed moved
    | poll =>
        obtain ⟨session, moved, rfl⟩ := Option.map_eq_some_iff.1 stepped
        exact tracks.poll allowed moved
    | request request =>
        obtain ⟨session, moved, rfl⟩ := Option.map_eq_some_iff.1 stepped
        exact tracks.request allowed moved

/-! ## The law -/

/-- **Clean-job delivery.**  In every run that loses no clean flag, once the session has
consumed the channel, a notify on another parent than an earlier one's comes with a clean
notify for that parent since. -/
theorem clean_delivered {s : NotifyState} (reached : notifyMachine.Reaches KeepsUp s)
    (consumed : s.consumed = true) : CleanlyMoved s.session.notified := by
  have tracks := tracks_known reached
  unfold NotifyState.consumed at consumed
  simp only [Bool.and_eq_true, Option.isNone_iff_eq_none, Bool.not_eq_true'] at consumed
  apply tracks.settled
  cases wild : astray s.session.notified with
  | false => rfl
  | true =>
      have pending := tracks.quiet consumed.1.1 wild
      rw [consumed.1.2] at pending
      cases pending

namespace Sample

/-- A session that has authorized on the first job and waits for the next. -/
def listening : NotifyState where
  feed := .initial (jobOn "a" 1) 0
  session := .connect (Feed.initial (jobOn "a" 1) 0).channel

def authorizes : List NotifyEvent :=
  [.request .authorize, .poll, .poll, .poll]

/-- The tip moves. -/
def tipMoves : List NotifyEvent :=
  [.feed (.retain (jobOn "b" 2) 60 10), .feed .send]

/-- A heartbeat on the new tip. -/
def beats : List NotifyEvent :=
  [.feed (.retain (jobOn "c" 2) 60 20), .feed .send]

/-- The last notify and an earlier one are on two parents. -/
def movedParent (notified : List Notified) : Bool :=
  match notified with
  | last :: rest => rest.any fun earlier => decide (last.parent ≠ earlier.parent)
  | [] => false

/-- Two notifies on two parents, the later one not clean. -/
def movedQuietly (notified : List Notified) : Bool :=
  match notified with
  | [last, earlier] => decide (last.parent ≠ earlier.parent) && !last.params.cleanJobs
  | _ => false

theorem not_cleanlyMoved {notified : List Notified} (quietly : movedQuietly notified = true) :
    ¬ CleanlyMoved notified := by
  intro moved
  unfold movedQuietly at quietly
  split at quietly
  · rename_i last earlier
    obtain ⟨apart, flag⟩ := Bool.and_eq_true_iff.1 quietly
    obtain ⟨clean, member, -, announced⟩ :=
      moved last rfl [last] earlier [] rfl (of_decide_eq_true apart)
    rw [List.mem_singleton.1 member] at announced
    rw [announced] at flag
    cases flag
  · cases quietly

end Sample

/-- A session that takes the tip change before the heartbeat. -/
theorem clean_delivered_sample :
    ∃ s, notifyMachine.Reaches KeepsUp s ∧
      (s.consumed = true ∧ Sample.movedParent s.session.notified = true) ∧
        CleanlyMoved s.session.notified := by
  obtain ⟨s, reached, shown⟩ := Machine.exists_of_runUnder notifyMachine KeepsUp
    (s := Sample.listening) ⟨.start ⟨_, _, rfl⟩, rfl⟩
    (Sample.authorizes ++ Sample.tipMoves ++ List.replicate 5 .poll ++ Sample.beats ++
      List.replicate 6 .poll)
    (fun s => s.consumed && Sample.movedParent s.session.notified) (by decide +kernel)
  have both := Bool.and_eq_true_iff.1 shown
  exact ⟨s, reached, both, clean_delivered reached both.1⟩

/-- The tip moves away and back before the session takes it, and a heartbeat follows: the run keeps
up, and leaves nothing to announce. -/
example :
    (notifyMachine.runUnder KeepsUp Sample.listening
      (Sample.authorizes ++ Sample.tipMoves ++
        [.feed (.retain (Sample.jobOn "c" 1) 60 20), .feed .send,
          .feed (.retain (Sample.jobOn "d" 1) 60 30), .feed .send] ++
        List.replicate 7 .poll)).any
      (fun s => s.consumed && !Sample.movedParent s.session.notified) = true := by
  decide +kernel

/-- The heartbeat overwrites the tip change before the session takes it: the miner is moved by
a notify that is not clean. -/
theorem clean_flag_lost :
    ¬ ∀ s, notifyMachine.Reachable s → s.consumed = true →
      CleanlyMoved s.session.notified := by
  intro claimed
  obtain ⟨s, reached, shown⟩ := Machine.exists_of_run notifyMachine (s := Sample.listening)
    ⟨.start ⟨_, _, rfl⟩, rfl⟩
    (Sample.authorizes ++ Sample.tipMoves ++ Sample.beats ++ List.replicate 7 .poll)
    (fun s => s.consumed && Sample.movedQuietly s.session.notified) (by decide +kernel)
  have both := Bool.and_eq_true_iff.1 shown
  exact Sample.not_cleanlyMoved both.2 (claimed s reached both.1)

end CsdPool.Bridge
