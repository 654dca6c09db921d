/-
# Bridge.Dialogue — what a miner is told, and what the pool counts of it

Three things hold of a session at every point of every run.

* Each request is answered once, in order and under its own id, and the shares that the counters
  count are the ones the answers speak of, in the same order (`Dialogue`).  A session that failed
  may have counted one share, or heard one request, that it did not answer (`BrokenOff`).
* The miner works under the difficulty it was last told: that is the session's own difficulty
  whenever the session waits for a line, it is there once a worker is authorized, and no job is
  announced before it (`Settled`, `Preceded`).
* Three stale answers with no judged share between them end the session.

So a share that meets the difficulty its miner was last told is never refused as a low one
(`judged_as_told`), and over all sessions of a process the totals of the snapshot are the answers
on the wire (`totals_are_answers`).
-/
import CsdPool.Bridge.Conversation
import CsdPool.Bridge.NetworkSolution

namespace CsdPool.Bridge

open Theory (F64 Machine Ends ends_pure ends_throw ends_bind ends_get ends_modify ends_ite)

set_option autoImplicit false

/-! ## Frames -/

/-- No job is announced before a difficulty. -/
def Preceded (frames : List Frame) : Prop :=
  ∀ before params after, frames = before ++ .notify params :: after →
    (announced before).isSome = true

section Frames

variable {frames : List Frame} {frame : Frame}

theorem responses_snoc (sent : Protocol.Response) :
    responses (frames ++ [.response sent]) = responses frames ++ [sent] := by
  simp [responses, Frame.response?]

theorem responses_snoc_other (other : frame.response? = none) :
    responses (frames ++ [frame]) = responses frames := by
  simp [responses, other]

theorem announced_snoc_difficulty (difficulty : F64) :
    announced (frames ++ [.setDifficulty difficulty]) = some difficulty := by
  simp [announced, Frame.difficulty?]

theorem announced_snoc_other (other : frame.difficulty? = none) :
    announced (frames ++ [frame]) = announced frames := by
  simp [announced, other]

theorem Preceded.snoc (preceded : Preceded frames)
    (told : ∀ params, frame = .notify params → (announced frames).isSome = true) :
    Preceded (frames ++ [frame]) := by
  intro before params after same
  rcases List.eq_nil_or_concat after with rfl | ⟨after, last, rfl⟩
  · obtain ⟨rfl, is⟩ := List.append_inj' same rfl
    exact told params (List.singleton_inj.1 is)
  · have split : frames ++ [frame] = (before ++ .notify params :: after) ++ [last] := by
      rw [same, List.concat_eq_append, List.append_assoc, List.cons_append]
    obtain ⟨same, -⟩ := List.append_inj' split rfl
    exact preceded before params after same

end Frames

/-! ## What is answered -/

/-- What an exchange does to the streak of stale submits: it adds to it, ends it or is none of
its business. -/
def streakMark (exchange : Heard × Protocol.Response) : Option Bool :=
  if (answeredShare exchange).isSome then
    match exchange.2.code with
    | some 20 => none
    | some 21 => some true
    | _ => some false
  else none

/-- The stale answers at the end, with no judged share between them. -/
def trailingStale (exchanges : List (Heard × Protocol.Response)) : Nat :=
  ((exchanges.filterMap streakMark).rtakeWhile fun stale => stale).length

theorem trailingStale_snoc (exchanges : List (Heard × Protocol.Response))
    (exchange : Heard × Protocol.Response) :
    trailingStale (exchanges ++ [exchange]) =
      Conversation.streakAfter exchange (trailingStale exchanges) := by
  unfold trailingStale Conversation.streakAfter Conversation.nextStreak
  rw [List.filterMap_append]
  by_cases shared : (answeredShare exchange).isSome = true
  · have mark : streakMark exchange = match exchange.2.code with
        | some 20 => none
        | some 21 => some true
        | _ => some false := if_pos shared
    rw [if_pos shared]
    split
    · rename_i code
      rw [code] at mark
      simp [mark]
    · rename_i code
      rw [code] at mark
      simp [mark]
    · rename_i other stale
      have ends : streakMark exchange = some false := by
        rw [mark]
        split
        · rename_i code
          exact absurd code other
        · rename_i code
          exact absurd code stale
        · rfl
      simp [ends]
  · have mark : streakMark exchange = none := if_neg shared
    rw [if_neg shared]
    simp [mark]

structure Dialogue (c : Conversation) : Prop where
  aligned : (responses c.frames).map Protocol.Response.id = c.heard.map Heard.answerId
  counted : countedShares c.calls = c.exchanges.filterMap answeredShare
  streak : c.unknownJobStreak = trailingStale c.exchanges

structure BrokenOff (c : Conversation) : Prop where
  aligned : ∃ unanswered, unanswered.length ≤ 1 ∧
    c.heard.map Heard.answerId = (responses c.frames).map Protocol.Response.id ++ unanswered
  counted : ∃ extra, extra.length ≤ 1 ∧
    countedShares c.calls = c.exchanges.filterMap answeredShare ++ extra

theorem Dialogue.brokenOff {c : Conversation} (dialogue : Dialogue c) : BrokenOff c :=
  ⟨⟨[], Nat.zero_le _, by rw [dialogue.aligned, List.append_nil]⟩,
    [], Nat.zero_le _, by rw [dialogue.counted, List.append_nil]⟩

/-- Only these of a session matter. -/
theorem Dialogue.congr {c c' : Conversation} (dialogue : Dialogue c) (heard : c'.heard = c.heard)
    (spoken : responses c'.frames = responses c.frames)
    (counted : countedShares c'.calls = countedShares c.calls)
    (streak : c'.unknownJobStreak = c.unknownJobStreak) : Dialogue c' := by
  have same : c'.exchanges = c.exchanges := by
    unfold Conversation.exchanges
    rw [heard, spoken]
  exact ⟨by rw [spoken, heard, dialogue.aligned], by rw [counted, same, dialogue.counted],
    by rw [streak, same, dialogue.streak]⟩

theorem BrokenOff.congr {c c' : Conversation} (broken : BrokenOff c) (heard : c'.heard = c.heard)
    (spoken : responses c'.frames = responses c.frames)
    (counted : countedShares c'.calls = countedShares c.calls) : BrokenOff c' := by
  have same : c'.exchanges = c.exchanges := by
    unfold Conversation.exchanges
    rw [heard, spoken]
  exact ⟨by rw [heard, spoken]; exact broken.aligned, by rw [counted, same]; exact broken.counted⟩

theorem Dialogue.lengths {c : Conversation} (dialogue : Dialogue c) :
    c.heard.length = (responses c.frames).length := by
  simpa using (congrArg List.length dialogue.aligned).symm

/-- With one request more, and no answer to it, one share more may be counted. -/
theorem Dialogue.unanswered {c c' : Conversation} (dialogue : Dialogue c) {heard : Heard}
    (heard' : c'.heard = c.heard ++ [heard]) (spoken : responses c'.frames = responses c.frames)
    (counted : ∃ extra, extra.length ≤ 1 ∧
      countedShares c'.calls = countedShares c.calls ++ extra) : BrokenOff c' := by
  have same : c'.exchanges = c.exchanges := by
    unfold Conversation.exchanges
    rw [heard', spoken, ← List.append_nil (responses c.frames),
      List.zip_append dialogue.lengths, List.zip_nil_right, List.append_nil, List.append_nil]
  obtain ⟨extra, few, counted⟩ := counted
  refine ⟨⟨[heard.answerId], le_rfl, ?_⟩, extra, few, by rw [counted, dialogue.counted, same]⟩
  rw [heard', spoken, dialogue.aligned, List.map_append, List.map_singleton]

/-- The request and its answer. -/
theorem Dialogue.answered {c c' : Conversation} (dialogue : Dialogue c) {heard : Heard}
    {sent : Protocol.Response} (heard' : c'.heard = c.heard ++ [heard])
    (spoken : responses c'.frames = responses c.frames ++ [sent])
    (id : sent.id = heard.answerId)
    (counted : countedShares c'.calls =
      countedShares c.calls ++ (answeredShare (heard, sent)).toList)
    (streak : c'.unknownJobStreak =
      Conversation.streakAfter (heard, sent) c.unknownJobStreak) : Dialogue c' := by
  have same : c'.exchanges = c.exchanges ++ [(heard, sent)] := by
    unfold Conversation.exchanges
    rw [heard', spoken, List.zip_append dialogue.lengths]
    rfl
  refine ⟨?_, ?_, ?_⟩
  · rw [heard', spoken, List.map_append, List.map_append, dialogue.aligned]
    simp [id]
  · rw [counted, same, List.filterMap_append, dialogue.counted]
    cases share : answeredShare (heard, sent) <;> simp [share]
  · rw [streak, same, trailingStale_snoc, dialogue.streak]

/-! ## What is written -/

namespace Conversation

variable {setup : SessionSetup} {turn : Turn} {c : Conversation}

theorem write_ends (number : Nat) (frame : Frame) :
    Ends (write turn number frame) c
      (fun _ c' => c' = { c with frames := c.frames ++ [frame] })
      (fun ended c' => ended = .failed ∧ c' = c) := by
  unfold write
  simp only [ends_ite, ends_modify, ends_throw]
  simp

/-- A job goes out or not, and only what was delivered is noted. -/
structure Sent (c c' : Conversation) : Prop where
  same : ∃ frames generation,
    c' = { c with frames := frames, lastDeliveredCleanGeneration := generation }
  frames : c'.frames = c.frames ∨ ∃ params, c'.frames = c.frames ++ [.notify params]

theorem sendJob_ends (number : Nat) (params : NotifyParams → NotifyParams) :
    Ends (sendJob turn number params) c (fun _ c' => Sent c c')
      (fun ended c' => ended = .failed ∧ c' = c) := by
  unfold sendJob
  simp only [ends_ite, ends_pure]
  refine ⟨fun _ => ?_, fun _ => ⟨⟨c.frames, _, rfl⟩, .inl rfl⟩⟩
  apply (write_ends number _).bind
  rintro _ _ rfl
  split
  · exact ⟨⟨_, _, rfl⟩, .inr ⟨_, rfl⟩⟩
  · exact ⟨⟨_, c.lastDeliveredCleanGeneration, rfl⟩, .inr ⟨_, rfl⟩⟩

/-- What holds of a session at every point. -/
structure Sound (setup : SessionSetup) (c : Conversation) : Prop where
  reached : (vardiffMachine setup.vardiff).Reachable c.vardiff
  preceded : Preceded c.frames

/-- What holds once the answer is written: all is answered, and the difficulty is the one the
miner was told or is pending. -/
structure Spoken (setup : SessionSetup) (pending : Option F64) (c : Conversation) : Prop where
  running : c.ended = none
  sound : Sound setup c
  dialogue : Dialogue c
  current : ∀ difficulty, announced c.frames = some difficulty →
    difficulty = c.vardiff.currentDifficulty ∨ pending = some c.vardiff.currentDifficulty

/-- What holds of a session that waits for a line. -/
structure Settled (setup : SessionSetup) (c : Conversation) : Prop where
  spoken : Spoken setup none c
  authorized : c.authorizedWorker.isSome = true → (announced c.frames).isSome = true
  streak : c.unknownJobStreak < staleJobReconnectThreshold

/-- What holds where a turn throws. -/
structure Thrown (setup : SessionSetup) (ended : Ended) (c : Conversation) : Prop where
  sound : Sound setup c
  dialogue : ended ≠ .failed → Dialogue c
  broken : BrokenOff c

theorem Spoken.thrown {pending : Option F64} (spoken : Spoken setup pending c) (ended : Ended) :
    Thrown setup ended c :=
  ⟨spoken.sound, fun _ => spoken.dialogue, spoken.dialogue.brokenOff⟩

/-- A job is sent only under a difficulty that was announced. -/
theorem Spoken.sent {pending : Option F64} {c' : Conversation} (spoken : Spoken setup pending c)
    (told : (announced c.frames).isSome = true) (sent : Sent c c') :
    Spoken setup pending c' ∧ announced c'.frames = announced c.frames ∧
      c'.unknownJobStreak = c.unknownJobStreak ∧ c'.authorizedWorker = c.authorizedWorker ∧
      c'.vardiff = c.vardiff := by
  obtain ⟨frames, generation, rfl⟩ := sent.same
  have same : announced frames = announced c.frames ∧ responses frames = responses c.frames ∧
      Preceded frames := by
    rcases sent.frames with same | ⟨params, same⟩
    · rw [show frames = c.frames from same]
      exact ⟨rfl, rfl, spoken.sound.preceded⟩
    · rw [show frames = c.frames ++ [.notify params] from same]
      exact ⟨announced_snoc_other rfl, responses_snoc_other rfl,
        spoken.sound.preceded.snoc fun _ _ => told⟩
  refine ⟨⟨spoken.running, ⟨spoken.sound.reached, same.2.2⟩,
    spoken.dialogue.congr rfl same.2.1 rfl rfl, ?_⟩, same.1, rfl, rfl, rfl⟩
  intro difficulty is
  exact spoken.current difficulty (same.1 ▸ is)

/-- The difficulty is announced. -/
theorem Spoken.tell {pending : Option F64} (spoken : Spoken setup pending c) :
    Spoken setup none
      { c with frames := c.frames ++ [.setDifficulty c.vardiff.currentDifficulty] } := by
  refine ⟨spoken.running, ⟨spoken.sound.reached, ?_⟩,
    spoken.dialogue.congr rfl (responses_snoc_other rfl) rfl rfl, ?_⟩
  · exact spoken.sound.preceded.snoc fun _ is => (by cases is)
  · intro difficulty is
    rw [announced_snoc_difficulty] at is
    exact .inl (Option.some.inj is).symm

theorem resync_ends {pending : Option F64} (spoken : Spoken setup pending c)
    (told : (announced c.frames).isSome = true) :
    Ends (resync turn) c
      (fun _ c' => Spoken setup pending c' ∧ announced c'.frames = announced c.frames ∧
        c'.authorizedWorker = c.authorizedWorker ∧ c'.vardiff = c.vardiff ∧
        c'.unknownJobStreak < staleJobReconnectThreshold)
      (Thrown setup) := by
  have sending : Ends (sendJob turn 1 fun params => { params with cleanJobs := true }) c
      (fun _ c' => Sent c c') (Thrown setup) := by
    apply (sendJob_ends 1 _).mono (fun _ _ sent => sent)
    rintro _ _ ⟨rfl, rfl⟩
    exact spoken.thrown _
  unfold resync
  apply sending.bind
  intro _ c' sent
  obtain ⟨spoken, same, streak, worker, vardiff⟩ := spoken.sent told sent
  simp only [ends_bind, ends_get, ends_ite, ends_throw, ends_pure]
  exact ⟨fun _ => spoken.thrown _, fun few => ⟨spoken, same, worker, vardiff, by omega⟩⟩

theorem announce_ends {request : Protocol.Request} {answer : Answer}
    (spoken : Spoken setup answer.pendingDifficulty c)
    (pending : ∀ difficulty, answer.pendingDifficulty = some difficulty →
      difficulty = c.vardiff.currentDifficulty)
    (authorized : c.authorizedWorker.isSome = true →
      request.method = "mining.authorize" ∨ (announced c.frames).isSome = true)
    (few : c.unknownJobStreak < staleJobReconnectThreshold) :
    Ends (announce turn request answer) c (fun _ c' => Settled setup c') (Thrown setup) := by
  have told := spoken.tell
  -- the difficulty and the job under it
  have announcing : ∀ params, Ends (do
      write turn 1 (.setDifficulty c.vardiff.currentDifficulty)
      sendJob turn 2 params) c (fun _ c' => Settled setup c') (Thrown setup) := by
    intro params
    have telling : Ends (write turn 1 (.setDifficulty c.vardiff.currentDifficulty)) c
        (fun _ c' =>
          c' = { c with frames := c.frames ++ [.setDifficulty c.vardiff.currentDifficulty] })
        (Thrown setup) := by
      apply (write_ends 1 _).mono (fun _ _ wrote => wrote)
      rintro _ _ ⟨rfl, rfl⟩
      exact spoken.thrown _
    apply telling.bind
    rintro _ _ rfl
    have known : (announced
        (c.frames ++ [.setDifficulty c.vardiff.currentDifficulty])).isSome = true := by
      rw [announced_snoc_difficulty]
      rfl
    apply (sendJob_ends 2 params).mono
    · intro _ c' sent
      obtain ⟨spoken, same, streak, -, -⟩ := told.sent known sent
      refine ⟨spoken, fun _ => ?_, streak ▸ few⟩
      rw [same]
      exact known
    · rintro _ _ ⟨rfl, rfl⟩
      exact told.thrown _
  unfold announce
  simp only [ends_bind, ends_get, ends_ite]
  constructor
  · intro _
    rw [← ends_bind]
    exact announcing id
  · intro other
    split
    · rename_i difficulty is
      obtain rfl := pending difficulty is
      exact announcing _
    · rename_i none
      rw [ends_pure]
      refine ⟨none ▸ spoken, fun known => ?_, few⟩
      rcases authorized known with is | told
      · exact absurd ⟨is, known⟩ other
      · exact told

theorem Moved.current {v v' : Vardiff} {pending : Option F64}
    (moved : Moved setup v v' pending) :
    (v'.currentDifficulty = v.currentDifficulty ∧ pending = none) ∨
      pending = some v'.currentDifficulty := by
  rcases moved with ⟨rfl, rfl⟩ | ⟨event, -, rfl⟩
  · exact .inl ⟨rfl, rfl⟩
  · unfold Vardiff.returned
    split
    · rename_i same
      exact .inl ⟨same, rfl⟩
    · exact .inr rfl

theorem Moved.reached {v v' : Vardiff} {pending : Option F64}
    (reached : (vardiffMachine setup.vardiff).Reachable v)
    (moved : Moved setup v v' pending) : (vardiffMachine setup.vardiff).Reachable v' := by
  rcases moved with ⟨rfl, -⟩ | ⟨event, stepped, -⟩
  · exact reached
  · exact reached.next (e := event) trivial stepped

/-- **A whole turn**: a session that waited for a line waits for the next, or ends. -/
theorem turn_ends {request : Protocol.Request} (settled : Settled setup c) :
    Ends (Conversation.turn setup turn request) c (fun _ c' => Settled setup c')
      (Thrown setup) := by
  obtain ⟨spoken, authorized, few⟩ := settled
  have heard : ∀ c' : Conversation, c'.heard = c.heard ++ [⟨request, c.authorizedWorker⟩] →
      responses c'.frames = responses c.frames → (∃ extra, extra.length ≤ 1 ∧
        countedShares c'.calls = countedShares c.calls ++ extra) → BrokenOff c' :=
    fun c' heard same counted => spoken.dialogue.unanswered heard same counted
  unfold Conversation.turn
  simp only [ends_bind, ends_modify]
  apply answer_ends.mono
  · intro answer mid answered
    have unanswered : BrokenOff mid := by
      refine heard mid answered.kept.heard (by rw [answered.kept.frames]) ⟨_, ?_, answered.counted⟩
      cases answeredShare (⟨request, c.authorizedWorker⟩, answer.response) with
      | none => exact Nat.zero_le _
      | some share => exact le_rfl
    have sound : Sound setup mid := by
      refine ⟨answered.moved.reached spoken.sound.reached, ?_⟩
      rw [answered.kept.frames]
      exact spoken.sound.preceded
    apply (write_ends 0 _).mono
    · rintro _ _ rfl
      have told : announced (mid.frames ++ [.response answer.response]) = announced c.frames := by
        rw [announced_snoc_other rfl, answered.kept.frames]
      have spoken' : Spoken setup answer.pendingDifficulty
          { mid with frames := mid.frames ++ [.response answer.response] } := by
        refine ⟨answered.kept.ended.trans spoken.running, ⟨sound.reached,
          sound.preceded.snoc fun _ is => (by cases is)⟩, ?_, ?_⟩
        · refine spoken.dialogue.answered answered.kept.heard ?_ answered.id answered.counted
            answered.streak
          show responses (mid.frames ++ _) = _
          rw [responses_snoc, answered.kept.frames]
        · intro difficulty is
          rw [told] at is
          rcases answered.moved.current with ⟨same, none⟩ | pending
          · left
            rcases spoken.current difficulty is with known | known
            · exact known.trans same.symm
            · cases known
          · exact .inr pending
      have pending : ∀ difficulty, answer.pendingDifficulty = some difficulty →
          difficulty = mid.vardiff.currentDifficulty := by
        intro difficulty is
        rcases answered.moved.current with ⟨-, none⟩ | pending
        · rw [none] at is
          cases is
        · exact Option.some.inj (is.symm.trans pending)
      have known : mid.authorizedWorker.isSome = true →
          request.method = "mining.authorize" ∨ (announced c.frames).isSome = true := by
        intro is
        rcases answered.authorizes with authorizes | same
        · exact .inl authorizes
        · exact .inr (authorized (same ▸ is))
      -- from the ban on, whether a job was sent again or not
      have rest : ∀ c' : Conversation, Spoken setup answer.pendingDifficulty c' →
          c'.vardiff = mid.vardiff → announced c'.frames = announced c.frames →
          c'.authorizedWorker = mid.authorizedWorker →
          c'.unknownJobStreak < staleJobReconnectThreshold →
          Ends (if turn.banned = true then do
              throw Ended.closed
              announce turn request answer
            else announce turn request answer) c' (fun _ c' => Settled setup c')
            (Thrown setup) := by
        intro c' spoken' vardiff same worker few
        rw [ends_ite]
        constructor
        · intro _
          rw [ends_bind, ends_throw]
          exact spoken'.thrown _
        · intro _
          refine announce_ends spoken' (vardiff ▸ pending) ?_ few
          rw [worker, same]
          exact known
      rw [ends_ite]
      constructor
      · intro resyncs
        obtain ⟨worker, -⟩ := answered.resync resyncs
        apply (resync_ends spoken' (by rw [told]; exact authorized worker)).bind
        rintro _ c' ⟨spoken'', same, worker', vardiff, few⟩
        exact rest c' spoken'' vardiff (same.trans told) worker' few
      · intro quiet
        have fewer := answered.stale (by simpa using quiet)
        exact rest _ spoken' rfl told rfl (lt_of_le_of_lt fewer few)
    · rintro _ _ ⟨rfl, rfl⟩
      exact ⟨sound, fun running => absurd rfl running, unanswered⟩
  · intro ended mid broken
    obtain ⟨kept, rfl, vardiff, counted⟩ := broken
    refine ⟨⟨?_, ?_⟩, fun running => absurd rfl running, ?_⟩
    · rw [vardiff]
      exact spoken.sound.reached
    · rw [kept.frames]
      exact spoken.sound.preceded
    · exact heard mid kept.heard (by rw [kept.frames]) counted

/-! ## Runs -/

/-- What every reachable state of a session keeps. -/
structure Held (setup : SessionSetup) (c : Conversation) : Prop where
  sound : Sound setup c
  broken : BrokenOff c
  dialogue : c.ended ≠ some .failed → Dialogue c
  settled : c.ended = none → Settled setup c

theorem Settled.held (settled : Settled setup c) : Held setup c :=
  ⟨settled.spoken.sound, settled.spoken.dialogue.brokenOff, fun _ => settled.spoken.dialogue,
    fun _ => settled⟩

theorem countedShares_finish (ended : Ended) :
    countedShares (c.finish ended).calls = countedShares c.calls := by
  show countedShares (c.calls ++ [.connectionClosed]) = _
  rw [countedShares_append]
  exact List.append_nil _

theorem Thrown.held {ended : Ended} (thrown : Thrown setup ended c) :
    Held setup (c.finish ended) where
  sound := ⟨thrown.sound.reached, thrown.sound.preceded⟩
  broken := thrown.broken.congr rfl rfl (countedShares_finish ended)
  dialogue := by
    intro running
    have fine : ended ≠ .failed := fun failed => running (congrArg some failed)
    exact (thrown.dialogue fine).congr rfl rfl (countedShares_finish ended) rfl
  settled := fun running => (by cases running)

theorem held_afterTurn {talk : Talk PUnit}
    (ends : Ends talk c (fun _ c' => Settled setup c') (Thrown setup)) :
    Held setup (afterTurn talk c) := by
  unfold afterTurn
  cases ran : talk c with
  | ok _ c' => exact (ends.of_ok ran).held
  | error ended c' => exact (ends.of_error ran).held

theorem job_ends (settled : Settled setup c) (worker : c.authorizedWorker.isSome = true) :
    Ends (sendJob turn 0 id) c (fun _ c' => Settled setup c') (Thrown setup) := by
  apply (sendJob_ends 0 id).mono
  · intro _ c' sent
    have told := settled.authorized worker
    obtain ⟨spoken, same, streak, -, -⟩ := settled.spoken.sent told sent
    refine ⟨spoken, fun _ => ?_, streak ▸ settled.streak⟩
    rw [same]
    exact told
  · rintro _ _ ⟨rfl, rfl⟩
    exact settled.spoken.thrown _

theorem held_step {event : ConversationEvent} {c' : Conversation} (held : Held setup c)
    (stepped : Conversation.step setup c event = some c') : Held setup c' := by
  cases event with
  | line request turn =>
      cases request with
      | none =>
          obtain ⟨running, same⟩ := Option.ite_none_right_eq_some.1 stepped
          cases same
          have settled := held.settled (by simpa using running)
          split
          · exact (settled.spoken.thrown .closed).held
          · exact held
      | some request =>
          obtain ⟨running, same⟩ := Option.ite_none_right_eq_some.1 stepped
          cases same
          exact held_afterTurn (turn_ends (held.settled (by simpa using running)))
  | job turn =>
      obtain ⟨running, same⟩ := Option.ite_none_right_eq_some.1 stepped
      cases same
      simp only [Bool.and_eq_true, Option.isNone_iff_eq_none] at running
      exact held_afterTurn (job_ends (held.settled running.1) running.2)
  | gone =>
      obtain ⟨running, same⟩ := Option.ite_none_right_eq_some.1 stepped
      cases same
      exact ((held.settled (by simpa using running)).spoken.thrown .closed).held
  | readError =>
      obtain ⟨running, same⟩ := Option.ite_none_right_eq_some.1 stepped
      cases same
      exact ((held.settled (by simpa using running)).spoken.thrown .failed).held

theorem settled_connect {vardiff : Vardiff} (new : Vardiff.new setup.vardiff = some vardiff) :
    Settled setup (connect vardiff) := by
  refine ⟨⟨rfl, ⟨.start new, ?_⟩, ⟨rfl, rfl, rfl⟩, fun _ is => (by cases is)⟩,
    fun is => (by cases is), Nat.succ_pos 2⟩
  intro before params after none
  exact absurd none (by simp [connect])

/-- **At every point of every run of a session.** -/
theorem held (reached : (conversation setup).Reachable c) : Held setup c := by
  apply reached.invariant
  · rintro _ ⟨vardiff, new, rfl⟩
    exact (settled_connect new).held
  · intro c event c' _ held _ stepped
    exact held_step held stepped

end Conversation

/-! ## A session whose pool accepts everything -/

namespace Sample

def setup : SessionSetup where
  digest := fun _ => .replicate 32 0
  extranonce1Le := session.extranonce1Le
  vardiff := graceConfig
  repository := false
  asF64 := fun _ => none
  parseF64 := fun _ => none

def turn : Turn where
  now := 0
  acceptedAt := 0
  validationElapsed := 0
  lookup := .withInitial job 0
  fence := .withInitial job 0
  classed := .withInitial job 0
  addressSession := .ok ()
  openSession := true
  shareEvent := true
  acceptedShare := some true
  blockCandidate := some none
  banned := false
  malformedBan := false
  current := job
  retained := .withInitial job 0
  generations := .withInitial job 0
  written := fun _ => true

def authorizeRequest : Protocol.Request := ⟨some 1, "mining.authorize", .array [.string miner]⟩

def connected : Conversation := .connect graceStart

def authorized : Conversation :=
  Conversation.afterTurn (Conversation.turn setup turn authorizeRequest) connected

def accepted : Conversation :=
  Conversation.afterTurn (Conversation.turn setup turn (submitRequest 2 (submit "0a0b0c0b")))
    authorized

theorem authorized_reached : (conversation setup).Reachable authorized := by
  have started : (conversation setup).Reachable connected := .start ⟨graceStart, grace_start.1, rfl⟩
  exact started.next (e := .line (some authorizeRequest) turn) trivial rfl

theorem accepted_step : (conversation setup).step authorized
    (.line (some (submitRequest 2 (submit "0a0b0c0b"))) turn) = some accepted := rfl

theorem accepted_reached : (conversation setup).Reachable accepted :=
  authorized_reached.next trivial accepted_step

end Sample

/-- **Every request is answered once, in order and under its own id, and what the counters count
is what the answers say.**  A session that failed may leave its last request and one counted share
unanswered; one that runs has given fewer than three stale answers in a row. -/
theorem answered_in_order {setup : SessionSetup} {c : Conversation}
    (reached : (conversation setup).Reachable c) :
    (c.ended ≠ some .failed → Dialogue c) ∧ BrokenOff c ∧
      (c.ended = none → trailingStale c.exchanges < staleJobReconnectThreshold) := by
  obtain ⟨-, broken, dialogue, settled⟩ := Conversation.held reached
  refine ⟨dialogue, broken, fun running => ?_⟩
  rw [← (settled running).spoken.dialogue.streak]
  exact (settled running).streak

theorem answered_in_order_accepted :
    (responses Sample.accepted.frames).map Protocol.Response.id = [some 1, some 2] ∧
      countedShares Sample.accepted.calls = [(.accepted, Sample.miner)] := by
  have running : Sample.accepted.ended = none := rfl
  have dialogue := (answered_in_order Sample.accepted_reached).1 (by rw [running]; exact nofun)
  exact ⟨dialogue.aligned, dialogue.counted⟩

/-- **The miner is told its difficulty.**  No job is announced before a difficulty; a session that
waits for a line judges by the difficulty it announced last, a positive whole number, and an
authorized one has announced it. -/
theorem difficulty_told {setup : SessionSetup} {c : Conversation}
    (reached : (conversation setup).Reachable c) :
    Preceded c.frames ∧ (c.ended = none →
      (∀ difficulty, announced c.frames = some difficulty →
        difficulty = c.vardiff.currentDifficulty ∧ Whole difficulty) ∧
      (c.authorizedWorker.isSome = true → (announced c.frames).isSome = true)) := by
  obtain ⟨sound, -, -, settled⟩ := Conversation.held reached
  refine ⟨sound.preceded, fun running => ⟨fun difficulty told => ?_, (settled running).authorized⟩⟩
  rcases (settled running).spoken.current difficulty told with rfl | pending
  · exact ⟨rfl, (steady_known sound.reached).current⟩
  · cases pending

theorem difficulty_told_accepted :
    announced Sample.accepted.frames = some Sample.accepted.vardiff.currentDifficulty := by
  have told := (difficulty_told Sample.accepted_reached).2 rfl
  obtain ⟨difficulty, is⟩ := Option.isSome_iff_exists.1 (told.2 rfl)
  rw [is, (told.1 difficulty is).1]

/-! ## Judged as told -/

namespace Conversation

variable {setup : SessionSetup} {turn : Turn} {c : Conversation}

theorem Sent.exchanges {c' : Conversation} (sent : Sent c c') : c'.exchanges = c.exchanges := by
  obtain ⟨frames, generation, rfl⟩ := sent.same
  show c.heard.zip (responses frames) = _
  rcases sent.frames with same | ⟨params, same⟩
  · rw [show frames = c.frames from same]
    rfl
  · rw [show frames = c.frames ++ [.notify params] from same, responses_snoc_other rfl]
    rfl

theorem sendJob_quiet (number : Nat) (params : NotifyParams → NotifyParams) :
    Ends (sendJob turn number params) c (fun _ c' => c'.exchanges = c.exchanges)
      (fun _ c' => c'.exchanges = c.exchanges) := by
  apply (sendJob_ends number params).mono (fun _ _ sent => sent.exchanges)
  rintro _ _ ⟨rfl, rfl⟩
  rfl

theorem resync_quiet : Ends (resync turn) c (fun _ c' => c'.exchanges = c.exchanges)
    (fun _ c' => c'.exchanges = c.exchanges) := by
  unfold resync
  apply (sendJob_quiet 1 _).bind
  intro _ c' same
  simp only [ends_bind, ends_get, ends_ite, ends_throw, ends_pure]
  exact ⟨fun _ => same, fun _ => same⟩

theorem announce_quiet (request : Protocol.Request) (answer : Answer) :
    Ends (announce turn request answer) c (fun _ c' => c'.exchanges = c.exchanges)
      (fun _ c' => c'.exchanges = c.exchanges) := by
  have announcing : ∀ difficulty params, Ends (do
      write turn 1 (.setDifficulty difficulty)
      sendJob turn 2 params) c (fun _ c' => c'.exchanges = c.exchanges)
        (fun _ c' => c'.exchanges = c.exchanges) := by
    intro difficulty params
    have told : ∀ c' : Conversation, c' = { c with frames := c.frames ++ [.setDifficulty difficulty] } →
        c'.exchanges = c.exchanges := by
      rintro _ rfl
      show c.heard.zip (responses (c.frames ++ _)) = _
      rw [responses_snoc_other rfl]
      rfl
    have telling : Ends (write turn 1 (.setDifficulty difficulty)) c
        (fun _ c' => c'.exchanges = c.exchanges) (fun _ c' => c'.exchanges = c.exchanges) := by
      apply (write_ends 1 _).mono (fun _ => told)
      rintro _ _ ⟨rfl, rfl⟩
      rfl
    apply telling.bind
    intro _ c' same
    exact (sendJob_quiet 2 params).mono (fun _ _ quiet => quiet.trans same)
      fun _ _ quiet => quiet.trans same
  unfold announce
  simp only [ends_bind, ends_get, ends_ite]
  constructor
  · intro _
    rw [← ends_bind]
    exact announcing _ id
  · intro _
    split
    · exact announcing _ _
    · exact rfl

/-- The exchange of a turn. -/
def Exchanged (setup : SessionSetup) (turn : Turn) (request : Protocol.Request)
    (c c' : Conversation) : Prop :=
  ∃ answer mid, Answered setup turn request
      { c with heard := c.heard ++ [⟨request, c.authorizedWorker⟩] } answer mid ∧
    c'.exchanges = c.exchanges ++ [(⟨request, c.authorizedWorker⟩, answer.response)]

/-- A turn has one exchange, or broke off before it. -/
theorem turn_exchanges (request : Protocol.Request) (dialogue : Dialogue c) :
    Ends (Conversation.turn setup turn request) c (fun _ => Exchanged setup turn request c)
      (fun _ c' => Exchanged setup turn request c c' ∨ c'.exchanges = c.exchanges) := by
  have unanswered : ∀ c' : Conversation, c'.heard = c.heard ++ [⟨request, c.authorizedWorker⟩] →
      responses c'.frames = responses c.frames → c'.exchanges = c.exchanges := by
    intro c' heard same
    unfold exchanges
    rw [heard, same, ← List.append_nil (responses c.frames), List.zip_append dialogue.lengths,
      List.zip_nil_right, List.append_nil, List.append_nil]
  unfold Conversation.turn
  simp only [ends_bind, ends_modify]
  apply answer_ends.mono
  · intro answer mid answered
    have frames := answered.kept.frames
    apply (write_ends 0 _).mono
    · rintro _ _ rfl
      have exchanged : ({ mid with frames := mid.frames ++ [.response answer.response] } :
          Conversation).exchanges =
          c.exchanges ++ [(⟨request, c.authorizedWorker⟩, answer.response)] := by
        show mid.heard.zip (responses (mid.frames ++ _)) = _
        rw [responses_snoc, frames, answered.kept.heard, List.zip_append dialogue.lengths]
        rfl
      have rest : ∀ c' : Conversation,
          c'.exchanges = c.exchanges ++ [(⟨request, c.authorizedWorker⟩, answer.response)] →
          Ends (if turn.banned = true then do
              throw Ended.closed
              announce turn request answer
            else announce turn request answer) c'
            (fun _ => Exchanged setup turn request c)
            (fun _ c' => Exchanged setup turn request c c' ∨ c'.exchanges = c.exchanges) := by
        intro c' same
        rw [ends_ite, ends_bind, ends_throw]
        refine ⟨fun _ => .inl ⟨answer, mid, answered, same⟩, fun _ => ?_⟩
        exact (announce_quiet request answer).mono
          (fun _ _ quiet => ⟨answer, mid, answered, quiet.trans same⟩)
          fun _ _ quiet => .inl ⟨answer, mid, answered, quiet.trans same⟩
      rw [ends_ite]
      constructor
      · intro _
        have resyncing : Ends (resync turn)
            { mid with frames := mid.frames ++ [.response answer.response] }
            (fun _ c' => c'.exchanges =
              c.exchanges ++ [(⟨request, c.authorizedWorker⟩, answer.response)])
            (fun _ c' => Exchanged setup turn request c c' ∨ c'.exchanges = c.exchanges) :=
          resync_quiet.mono (fun _ _ quiet => quiet.trans exchanged)
            fun _ _ quiet => .inl ⟨answer, mid, answered, quiet.trans exchanged⟩
        exact resyncing.bind fun _ c' same => rest c' same
      · intro _
        exact rest _ exchanged
    · rintro _ _ ⟨rfl, rfl⟩
      exact .inr (unanswered _ answered.kept.heard (by rw [frames]))
  · intro _ mid broken
    exact .inr (unanswered mid broken.kept.heard (by rw [broken.kept.frames]))

end Conversation

/-- The solution meets this difficulty on the job. -/
def MeetsDifficulty (setup : SessionSetup) (job : PoolJob) (solution : SubmitSolution)
    (difficulty : ℚ) : Prop :=
  hashLeqTarget (solvedShare setup.digest job.template setup.extranonce1Le solution).hash
    (targetForDifficulty job.template.shareTarget difficulty) = true

namespace Conversation

variable {setup : SessionSetup} {turn : Turn} {request : Protocol.Request} {c c' : Conversation}

/-- The exchange of a step, if it has one. -/
theorem step_exchanged (held : Held setup c)
    (stepped : Conversation.step setup c (.line (some request) turn) = some c')
    (spoke : c'.exchanges ≠ c.exchanges) :
    c.ended = none ∧ Exchanged setup turn request c c' := by
  obtain ⟨running, same⟩ := Option.ite_none_right_eq_some.1 stepped
  rw [Option.isNone_iff_eq_none] at running
  cases same
  refine ⟨running, ?_⟩
  have exchanges : Ends (Conversation.turn setup turn request) c
      (fun _ => Exchanged setup turn request c)
      (fun _ c' => Exchanged setup turn request c c' ∨ c'.exchanges = c.exchanges) :=
    turn_exchanges request (held.settled running).spoken.dialogue
  unfold afterTurn at spoke ⊢
  cases ran : Conversation.turn setup turn request c with
  | ok _ mid =>
      rw [ran] at spoke
      exact exchanges.of_ok ran
  | error ended mid =>
      rw [ran] at spoke
      rcases exchanges.of_error ran with exchanged | same
      · exact exchanged
      · exact absurd same spoke

end Conversation

/-- **A submit is judged by the difficulty its miner was last told.**  It is answered as a low
share only if it does not meet that difficulty, and accepted only if it meets it or, in grace, a
lower one the session had before. -/
theorem judged_as_told {setup : SessionSetup} {c c' : Conversation}
    (reached : (conversation setup).Reachable c) {turn : Turn} {request : Protocol.Request}
    (stepped : (conversation setup).step c (.line (some request) turn) = some c')
    (submits : request.method = "mining.submit") {worker : Address}
    (authorized : c.authorizedWorker = some worker) {sent : Protocol.Response}
    (exchanged : c'.exchanges = c.exchanges ++ [(⟨request, some worker⟩, sent)]) :
    ∃ difficulty : ℚ, announced c.frames = some (.finite difficulty) ∧
      (sent.code = some 23 → ∃ submit job, Conversation.Verifies turn request submit job ∧
        ∀ solution, solutionFromSubmit submit = .ok solution →
          ¬ MeetsDifficulty setup job solution difficulty) ∧
      (sent.code = none → ∃ submit job solution, Conversation.Verifies turn request submit job ∧
        solutionFromSubmit submit = .ok solution ∧
        (MeetsDifficulty setup job solution difficulty ∨
          ∃ previous < difficulty, c.vardiff.view.previousDifficultyInGrace turn.now =
            some previous ∧ MeetsDifficulty setup job solution previous)) := by
  have held := Conversation.held reached
  have spoke : c'.exchanges ≠ c.exchanges := by
    rw [exchanged]
    exact fun same => List.cons_ne_nil _ _ (List.append_right_eq_self.1 same)
  obtain ⟨running, answer, mid, answered, same⟩ := Conversation.step_exchanged held stepped spoke
  obtain rfl : answer.response = sent := by
    rw [exchanged] at same
    have last := List.append_cancel_left same
    exact (congrArg Prod.snd (List.singleton_inj.1 last)).symm
  have submitted := answered.judged submits worker authorized
  -- what the session judges by is what it announced
  have told : announced c.frames = some (.finite c.vardiff.view.currentDifficulty) := by
    obtain ⟨difficulty, told⟩ := Option.isSome_iff_exists.1
      ((held.settled running).authorized (by rw [authorized]; rfl))
    rcases (held.settled running).spoken.current difficulty told with rfl | pending
    · rw [told, ← (steady_known held.sound.reached).finite.1]
    · cases pending
  refine ⟨_, told, fun low => ?_, fun met => ?_⟩
  · obtain ⟨submit, job, error, verifies, missed⟩ := submitted.low low
    refine ⟨submit, job, verifies, fun solution parsed meets => ?_⟩
    obtain ⟨share, difficulty, accepted⟩ :=
      (verifySubmitForVardiff_accepts_iff c.vardiff.view turn.now parsed).2 (.inl meets)
    cases missed.symm.trans accepted
  · obtain ⟨submit, job, share, difficulty, verifies, accepted⟩ := submitted.met met
    obtain ⟨solution, parsed, -⟩ := verifySubmitForVardiff_ok accepted
    refine ⟨submit, job, solution, verifies, parsed, ?_⟩
    rcases (verifySubmitForVardiff_accepts_iff c.vardiff.view turn.now parsed).1
        ⟨share, difficulty, accepted⟩ with meets | ⟨previous, inGrace, meets⟩
    · exact .inl meets
    · have lower := (Option.filter_eq_some_iff.1 inGrace).2
      exact .inr ⟨previous, of_decide_eq_true lower, inGrace, meets⟩

theorem judged_as_told_accepted : ∃ difficulty : ℚ,
    announced Sample.authorized.frames = some (.finite difficulty) ∧
      ∃ submit job solution, Conversation.Verifies Sample.turn
        (submitRequest 2 (Sample.submit "0a0b0c0b")) submit job ∧
        solutionFromSubmit submit = .ok solution ∧
          MeetsDifficulty Sample.setup job solution difficulty := by
  have exchanged : Sample.accepted.exchanges = Sample.authorized.exchanges ++
      [(⟨submitRequest 2 (Sample.submit "0a0b0c0b"), some Sample.miner⟩, responseOk 2)] := rfl
  obtain ⟨difficulty, told, -, met⟩ := judged_as_told Sample.authorized_reached
    Sample.accepted_step rfl rfl exchanged
  obtain ⟨submit, job, solution, verifies, parsed, meets | ⟨previous, -, inGrace, -⟩⟩ := met rfl
  · exact ⟨difficulty, told, submit, job, solution, verifies, parsed, meets⟩
  · cases inGrace

/-! ## The totals of a process -/

section Totals

variable (sessions : List (SessionSetup × Conversation))

/-- The shares the miners were answered, session by session. -/
def answeredShares : List (ShareKind × Address) :=
  sessions.flatMap fun p => p.2.exchanges.filterMap answeredShare

def failures : Nat := sessions.countP fun p => decide (p.2.ended = some .failed)

/-- The sessions count what they answer, and each failed one at most one share more. -/
theorem counted_sessions (reached : ∀ p ∈ sessions, (conversation p.1).Reachable p.2) :
    ∃ unanswered, unanswered.length ≤ failures sessions ∧
      (countedShares (sessions.flatMap fun p => p.2.calls)).Perm
        (answeredShares sessions ++ unanswered) := by
  induction sessions with
  | nil => exact ⟨[], le_rfl, .rfl⟩
  | cons p rest ih =>
      obtain ⟨unanswered, few, same⟩ := ih fun q member => reached q (List.mem_cons_of_mem _ member)
      obtain ⟨dialogue, broken, -⟩ := answered_in_order (reached p (List.mem_cons_self ..))
      have each : ∃ extra, extra.length ≤ (if p.2.ended = some .failed then 1 else 0) ∧
          countedShares p.2.calls = p.2.exchanges.filterMap answeredShare ++ extra := by
        by_cases failed : p.2.ended = some .failed
        · rw [if_pos failed]
          exact broken.counted
        · exact ⟨[], Nat.zero_le _, by rw [(dialogue failed).counted, List.append_nil]⟩
      obtain ⟨extra, bound, counted⟩ := each
      refine ⟨extra ++ unanswered, ?_, ?_⟩
      · unfold failures at few ⊢
        rw [List.length_append, List.countP_cons]
        simp only [decide_eq_true_eq]
        omega
      · rw [List.flatMap_cons, Conversation.countedShares_append, counted]
        unfold answeredShares at same ⊢
        rw [List.flatMap_cons, List.append_assoc, List.append_assoc]
        apply List.Perm.append_left
        calc extra ++ countedShares (rest.flatMap fun p => p.2.calls)
          _ |>.Perm (extra ++ (_ ++ unanswered)) := same.append_left extra
          _ |>.Perm (_ ++ (extra ++ unanswered)) := List.perm_append_comm_assoc ..

variable (entries : List PoolEntry)

/-- The calls on one kind of share, and on those of one worker. -/
def isShare (p : ShareKind × Address → Bool) (entry : PoolEntry) : Bool :=
  (countedShare entry.call).any p

theorem countP_shares (p : ShareKind × Address → Bool) :
    entries.countP (isShare p) = (countedShares (entries.map PoolEntry.call)).countP p := by
  unfold countedShares isShare
  rw [List.filterMap_map, filterMap_countP]
  rfl

theorem kind_cases (entry : PoolEntry) :
    entry.sample?.isSome = isShare (fun share => share.1 = .accepted) entry ∧
      entry.isRejected = isShare (fun share => share.1 = .rejected) entry ∧
      entry.isStale = isShare (fun share => share.1 = .stale) entry := by
  obtain ⟨call, now, now'⟩ := entry
  cases call <;> exact ⟨rfl, rfl, rfl⟩

/-- A call on a share is about the share's worker. -/
theorem share_worker (kind : ShareKind) (worker : Address) (entry : PoolEntry) :
    (isShare (fun share => share.1 = kind) entry && decide (entry.worker? = some worker)) =
      isShare (fun share => share = (kind, worker)) entry := by
  obtain ⟨call, now, now'⟩ := entry
  cases call with
  | shareAccepted | shareRejected | shareStale =>
      simp [isShare, countedShare, PoolEntry.worker?, Prod.ext_iff]
  | _ => rfl

theorem countP_about (kind : ShareKind) (worker : Address) :
    (about worker entries).countP (isShare fun share => share.1 = kind) =
      (countedShares (entries.map PoolEntry.call)).count (kind, worker) := by
  unfold about
  rw [List.countP_filter, funext (share_worker kind worker), countP_shares]
  congr 1
  funext share
  exact (beq_eq_decide share (kind, worker)).symm

/-- The counters of the snapshot that are about shares, for these shares. -/
structure Shows (shares : List (ShareKind × Address)) (state : PoolState) : Prop where
  accepted : state.snapshot.totals.sharesAccepted =
    .ofNat (shares.countP fun share => share.1 = .accepted)
  rejected : state.snapshot.totals.sharesRejected =
    .ofNat (shares.countP fun share => share.1 = .rejected)
  stale : state.snapshot.totals.sharesStale =
    .ofNat (shares.countP fun share => share.1 = .stale)
  workerAccepted : ∀ worker,
    (state.worker worker).sharesAccepted = .ofNat (shares.count (.accepted, worker))
  workerRejected : ∀ worker,
    (state.worker worker).sharesRejected = .ofNat (shares.count (.rejected, worker))
  workerStale : ∀ worker,
    (state.worker worker).sharesStale = .ofNat (shares.count (.stale, worker))

theorem shows_after {shares : List (ShareKind × Address)}
    (same : (countedShares (entries.map PoolEntry.call)).Perm shares) :
    Shows shares (PoolState.after entries) := by
  have accepted : ∀ entries : List PoolEntry, (entries.filterMap PoolEntry.sample?).length =
      entries.countP (isShare fun share => share.1 = .accepted) := by
    intro entries
    rw [List.length_filterMap_eq_countP]
    congr 1
    funext entry
    exact (kind_cases entry).1
  have rejected : PoolEntry.isRejected = isShare fun share => share.1 = .rejected :=
    funext fun entry => (kind_cases entry).2.1
  have stale : PoolEntry.isStale = isShare fun share => share.1 = .stale :=
    funext fun entry => (kind_cases entry).2.2
  constructor
  · show (PoolState.after entries).sharesAccepted = _
    rw [shares_after, accepted, countP_shares, same.countP_eq]
  · show (PoolState.after entries).sharesRejected = _
    rw [rejected_after, rejected, countP_shares, same.countP_eq]
  · show (PoolState.after entries).sharesStale = _
    rw [stale_after, stale, countP_shares, same.countP_eq]
  · intro worker
    rw [worker_after]
    show UInt64.ofNat ((about worker entries).filterMap PoolEntry.sample?).length = _
    rw [accepted, countP_about, same.count_eq]
  · intro worker
    rw [worker_after]
    show UInt64.ofNat ((about worker entries).countP PoolEntry.isRejected) = _
    rw [rejected, countP_about, same.count_eq]
  · intro worker
    rw [worker_after]
    show UInt64.ofNat ((about worker entries).countP PoolEntry.isStale) = _
    rw [stale, countP_about, same.count_eq]

end Totals

/-- **The totals are the answers on the wire.**  However the calls of a process' sessions
interleave, with each other and with calls that count no share, the snapshot counts the shares
the sessions answered; each failed session may have counted one more that it did not answer. -/
theorem totals_are_answers (sessions : List (SessionSetup × Conversation))
    (reached : ∀ p ∈ sessions, (conversation p.1).Reachable p.2) (entries : List PoolEntry)
    (others : List PoolCall) (uncounted : countedShares others = [])
    (interleaved : (entries.map PoolEntry.call).Perm
      ((sessions.flatMap fun p => p.2.calls) ++ others)) :
    ∃ unanswered, unanswered.length ≤ failures sessions ∧
      Shows (answeredShares sessions ++ unanswered) (PoolState.after entries) := by
  obtain ⟨unanswered, few, same⟩ := counted_sessions sessions reached
  refine ⟨unanswered, few, shows_after entries ?_⟩
  have counted := interleaved.filterMap countedShare
  rw [List.filterMap_append, show others.filterMap countedShare = [] from uncounted,
    List.append_nil] at counted
  exact counted.trans same

theorem totals_are_answers_accepted : (PoolState.after
    (Sample.accepted.calls.map fun call => ⟨call, 0, 0⟩)).snapshot.totals.sharesAccepted = 1 := by
  obtain ⟨unanswered, few, shows⟩ := totals_are_answers [(Sample.setup, Sample.accepted)]
    (by
      intro p member
      obtain rfl := List.mem_singleton.1 member
      exact Sample.accepted_reached)
    (Sample.accepted.calls.map fun call => ⟨call, 0, 0⟩) [] rfl
    (by
      have same : (Sample.accepted.calls.map fun call => (⟨call, 0, 0⟩ : PoolEntry)).map
          PoolEntry.call = Sample.accepted.calls := by
        rw [List.map_map]
        exact List.map_id _
      rw [same]
      simp)
  have none : unanswered = [] := List.eq_nil_of_length_eq_zero (Nat.le_zero.1 few)
  rw [shows.accepted, none]
  rfl

end CsdPool.Bridge
