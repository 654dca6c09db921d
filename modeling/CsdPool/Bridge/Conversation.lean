/-
# Bridge.Conversation — a session's dialogue with its miner

One turn of `handle_client` for every kind of line, with the frames it writes and the calls it
makes on the pool's counters.  What a turn finds around the session is in `Turn`: the retained
jobs as each lookup finds them, what the abuse manager and the repository answer, the job on the
channel and which writes go out.  A `?` that fails ends the session where it stands.

* Which job is announced when, and whether it is clean, is `Notify`'s; what the repository calls
  do to the database is `Session`'s; how bytes become lines is `Framing`'s.
* `heard` and `calls` are histories: the requests that were parsed, with the worker authorized at
  that time, and the calls on the counters.
-/
import CsdPool.Bridge.Abuse
import CsdPool.Bridge.Crediting
import CsdPool.Bridge.Grace
import CsdPool.Bridge.Protocol
import CsdPool.Bridge.Retained
import CsdPool.PoolState
import CsdPool.Theory.Effects

namespace CsdPool.Bridge

open Theory (F64 Machine Ends ends_pure ends_throw ends_bind ends_get ends_modify ends_ite)

set_option autoImplicit false

def staleJobReconnectThreshold : Nat := 3

/-! ## Frames -/

def responseOk (id : Nat) : Protocol.Response := ⟨some id, .bool true, none⟩

def responseError (id code : Nat) (message : String) : Protocol.Response :=
  ⟨some id, .bool false, some (.array [.number (.unsigned code), .string message, .null])⟩

def subscribeResponse (id : Option Nat) (extranonce1 : String) : Protocol.Response :=
  ⟨id, .array [.array [], .string extranonce1, .number (.unsigned 4)], none⟩

/-- A line written to the client. -/
inductive Frame
  | response (response : Protocol.Response)
  | setDifficulty (difficulty : F64)
  | notify (params : NotifyParams)

/-! ## The session -/

/-- `Ok(())` or an error. -/
inductive Ended
  | closed
  | failed
  deriving DecidableEq, Repr

/-- A request that was parsed, and the worker of the session then. -/
structure Heard where
  request : Protocol.Request
  worker : Option Address

structure Conversation where
  authorizedWorker : Option Address
  sessionPersisted : Bool
  seenShares : List ShareKey
  vardiff : Vardiff
  difficultySuggestionSeen : Bool
  acceptedShareSeen : Bool
  unknownJobStreak : Nat
  lastDeliveredCleanGeneration : Nat
  frames : List Frame
  heard : List Heard
  calls : List PoolCall
  ended : Option Ended

/-- What does not change in a session.  `asF64` and `parseF64` read a number out of a suggested
difficulty. -/
structure SessionSetup where
  digest : Digest
  extranonce1Le : Bytes 4
  vardiff : VardiffConfig
  repository : Bool
  asF64 : Json → Option F64
  parseF64 : String → Option F64

/-- What a turn finds. -/
structure Turn where
  now : Nat
  acceptedAt : Nat
  validationElapsed : Nat
  /-- The retained jobs at `get_for_submit`, `job_parent_is_invalidated` and
  `stale_generation_class`. -/
  lookup : RetainedJobs
  fence : RetainedJobs
  classed : RetainedJobs
  /-- `try_open_address_session`. -/
  addressSession : Except Abuse.AbuseReject Unit
  /-- Whether the repository's calls go through; `insert_share` says whether the share is new. -/
  openSession : Bool
  shareEvent : Bool
  acceptedShare : Option Bool
  /-- `submit_block_candidate`, and what it records if there is a submitter. -/
  blockCandidate : Option (Option CandidatePropagation)
  banned : Bool
  malformedBan : Bool
  /-- The job on the channel, and the retained jobs at `get_for_submit` and `clean_generation`
  when it is to be sent. -/
  current : PoolJob
  retained : RetainedJobs
  generations : RetainedJobs
  /-- Whether the frame of this number in the turn goes out. -/
  written : Nat → Bool

abbrev Talk := EStateM Ended Conversation

/-- The result of the call that `Vardiff` leaves out: the difficulty it went to. -/
def Vardiff.returned (before after : Vardiff) : Option F64 :=
  if after.currentDifficulty = before.currentDifficulty then none else some after.currentDifficulty

/-- The first element of an array. -/
def firstParam (params : Json) : Option Json := params.asArray.bind List.head?

namespace Conversation

def record (call : PoolCall) : Talk PUnit :=
  modify fun c => { c with calls := c.calls ++ [call] }

/-- `write_client_frame` of the frame of this number. -/
def write (turn : Turn) (number : Nat) (frame : Frame) : Talk PUnit :=
  if turn.written number then modify fun c => { c with frames := c.frames ++ [frame] }
  else throw .failed

def persistShareEvent (turn : Turn) : Talk PUnit :=
  if turn.shareEvent then pure ⟨⟩ else throw .failed

/-- What a request is answered and what the turn does after the answer. -/
structure Answer where
  response : Protocol.Response
  pendingDifficulty : Option F64 := none
  resyncAfterStaleSubmit : Bool := false

/-- A submit that is counted as rejected. -/
def refuse (turn : Turn) (worker : Address) (response : Protocol.Response) : Talk Answer := do
  record (.shareRejected worker)
  persistShareEvent turn
  return { response }

section Answer

variable (setup : SessionSetup) (turn : Turn)

def submitBlockCandidate : Talk PUnit :=
  match turn.blockCandidate with
  | none => throw .failed
  | some none => pure ⟨⟩
  | some (some times) => record (.candidatePropagation times)

/-- The accepted share is counted and the difficulty may move. -/
def credit (worker : Address) (id : Nat) (share : VerifiedShare) (difficulty : ℚ) :
    Talk Answer := do
  record (.shareAccepted worker (.finite difficulty) share.isBlockCandidate)
  let c ← get
  match c.vardiff.recordAcceptedShare turn.acceptedAt with
  | none => throw .failed
  | some vardiff =>
      modify fun c => { c with vardiff }
      return { response := responseOk id, pendingDifficulty := c.vardiff.returned vardiff }

/-- What follows a share that was inserted. -/
def accept (worker : Address) (id : Nat) (share : VerifiedShare) (difficulty : ℚ) :
    Talk Answer := do
  modify fun c => { c with acceptedShareSeen := true }
  if share.isBlockCandidate then submitBlockCandidate turn
  credit turn worker id share difficulty

/-- From the check for a repeated share on. -/
def judge (worker : Address) (id : Nat) (submit : SubmitParams) (job : PoolJob) :
    Talk Answer := do
  let c ← get
  modify fun c => { c with unknownJobStreak := 0 }
  if c.seenShares.contains (ShareKey.fromSubmit submit) then
    refuse turn worker (responseError id 22 "duplicate share")
  else
    modify fun c => { c with seenShares := ShareKey.fromSubmit submit :: c.seenShares }
    record (.shareValidation turn.validationElapsed)
    match verifySubmitForVardiff setup.digest job.template setup.extranonce1Le submit
        c.vardiff.view turn.now with
    | .error _ => refuse turn worker (responseError id 23 "low difficulty share")
    | .ok (share, difficulty) =>
        match turn.acceptedShare with
        | none => throw .failed
        | some false => refuse turn worker (responseError id 22 "duplicate share")
        | some true => accept turn worker id share difficulty

/-- A submit on a job that does not count any more. -/
def stale (worker : Address) (fences : List PoolCall) (response : Protocol.Response) :
    Talk Answer := do
  modify fun c =>
    { c with
      unknownJobStreak := c.unknownJobStreak + 1
      calls := c.calls ++ .shareStale worker :: fences }
  persistShareEvent turn
  return { response, resyncAfterStaleSubmit := true }

def submit (worker : Address) (id : Nat) (params : Json) : Talk Answer :=
  match SubmitParams.parse params with
  | .error _ => refuse turn worker (responseError id 20 "malformed submit")
  | .ok submit =>
      if !authorizedSubmitWorker worker submit.workerName then
        refuse turn worker (responseError id 20 "invalid worker")
      else if turn.fence.jobParentIsInvalidated submit.jobId then do
        let c ← get
        let generationClass :=
          turn.classed.staleGenerationClass submit.jobId c.lastDeliveredCleanGeneration
        stale turn worker [.staleGenerationFence generationClass.asStr]
          (responseError id 21 "stale job")
      else
        match turn.lookup.getForSubmit submit.jobId with
        | none => stale turn worker [] (responseError id 21 "unknown job")
        | some job => judge setup turn worker id submit job

def authorize (id : Nat) (params : Json) : Talk Answer :=
  match ((firstParam params).bind Json.asStr).bind parseAuthorizeWorker with
  | none => pure { response := responseError id 20 "invalid address" }
  | some worker =>
      if !validAddr20 worker then pure { response := responseError id 20 "invalid address" }
      else do
        let c ← get
        if c.authorizedWorker = some worker then return { response := responseOk id }
        else
          match turn.addressSession with
          | .error .tooManyAddressSessions =>
              return { response := responseError id 25 "too many sessions for address" }
          | .error _ => return { response := responseError id 20 "invalid address" }
          | .ok () => do
              record (.authorizedWorker worker)
              modify fun c =>
                { c with
                  sessionPersisted :=
                    c.sessionPersisted || (setup.repository && turn.openSession)
                  authorizedWorker := some worker }
              return { response := responseOk id }

def parseSuggestedDifficulty (params : Json) : Option F64 := do
  let value ← firstParam params
  ((setup.asF64 value).orElse fun _ => value.asStr.bind setup.parseF64).filter fun value =>
    value.isFinite && (F64.finite 0).lt value

def suggestDifficulty (id : Nat) (params : Json) : Talk Answer :=
  match parseSuggestedDifficulty setup params with
  | none => pure { response := responseError id 20 "invalid suggested difficulty" }
  | some suggested => do
      let c ← get
      if !c.difficultySuggestionSeen && !c.acceptedShareSeen then
        match c.vardiff.applySuggestedDifficulty suggested turn.now with
        | none => throw .failed
        | some vardiff =>
            modify fun c => { c with difficultySuggestionSeen := true, vardiff }
            return { response := responseOk id, pendingDifficulty := c.vardiff.returned vardiff }
      else return { response := responseOk id }

def answer (request : Protocol.Request) : Talk Answer := do
  let id := request.id.getD 0
  if request.method = "mining.subscribe" then
    return { response := subscribeResponse request.id (hexEncode setup.extranonce1Le.toList) }
  else if request.method = "mining.authorize" then authorize setup turn id request.params
  else if request.method = "mining.suggest_difficulty" then
    suggestDifficulty setup turn id request.params
  else if request.method = "mining.submit" then
    match (← get).authorizedWorker with
    | none => return { response := responseError id 24 "unauthorized" }
    | some worker => submit setup turn worker id request.params
  else return { response := responseError id 20 "unknown method" }

end Answer

section Write

variable (turn : Turn)

/-- The job of the channel with these parameters, unless its parent is fenced. -/
def sendJob (number : Nat) (params : NotifyParams → NotifyParams) : Talk PUnit := do
  let jobId := turn.current.template.jobId
  if (turn.retained.getForSubmit jobId).isSome then
    write turn number (.notify (params turn.current.notify))
    match turn.generations.cleanGeneration jobId with
    | some generation =>
        modify fun c =>
          { c with
            lastDeliveredCleanGeneration := max c.lastDeliveredCleanGeneration generation }
    | none => pure ⟨⟩

/-- What follows a stale submit. -/
def resync : Talk PUnit := do
  sendJob turn 1 fun params => { params with cleanJobs := true }
  if staleJobReconnectThreshold ≤ (← get).unknownJobStreak then throw .closed

/-- What follows the answer: the difficulty with a job under it. -/
def announce (request : Protocol.Request) (answer : Answer) : Talk PUnit := do
  if request.method = "mining.authorize" ∧ (← get).authorizedWorker.isSome = true then
    write turn 1 (.setDifficulty (← get).vardiff.currentDifficulty)
    sendJob turn 2 id
  else
    match answer.pendingDifficulty with
    | some difficulty =>
        write turn 1 (.setDifficulty difficulty)
        sendJob turn 2 fun params => { params with cleanJobs := false }
    | none => pure ⟨⟩

end Write

def turn (setup : SessionSetup) (turn : Turn) (request : Protocol.Request) : Talk PUnit := do
  modify fun c => { c with heard := c.heard ++ [⟨request, c.authorizedWorker⟩] }
  let answer ← answer setup turn request
  write turn 0 (.response answer.response)
  if answer.resyncAfterStaleSubmit then resync turn
  if turn.banned then throw .closed
  announce turn request answer

/-- The connection's guard is dropped with the session. -/
def finish (c : Conversation) (ended : Ended) : Conversation :=
  { c with ended := some ended, calls := c.calls ++ [.connectionClosed] }

/-- The session after a turn. -/
def afterTurn (talk : Talk PUnit) (c : Conversation) : Conversation :=
  match talk c with
  | .ok _ c => c
  | .error ended c => c.finish ended

def connect (vardiff : Vardiff) : Conversation where
  authorizedWorker := none
  sessionPersisted := false
  seenShares := []
  vardiff := vardiff
  difficultySuggestionSeen := false
  acceptedShareSeen := false
  unknownJobStreak := 0
  lastDeliveredCleanGeneration := 0
  frames := []
  heard := []
  calls := [.connectionGuard]
  ended := none

end Conversation

inductive ConversationEvent
  /-- A line and the request it parses to. -/
  | line (request : Option Protocol.Request) (turn : Turn)
  /-- A job off the channel. -/
  | job (turn : Turn)
  /-- The client or the channel is gone. -/
  | gone
  | readError

namespace Conversation

variable (setup : SessionSetup)

def step (c : Conversation) : ConversationEvent → Option Conversation
  | .line (some request) turn =>
      if c.ended.isNone then some (afterTurn (Conversation.turn setup turn request) c) else none
  | .line none turn =>
      if c.ended.isNone then some (if turn.malformedBan then c.finish .closed else c) else none
  | .job turn =>
      if c.ended.isNone && c.authorizedWorker.isSome then
        some (afterTurn (sendJob turn 0 id) c)
      else none
  | .gone => if c.ended.isNone then some (c.finish .closed) else none
  | .readError => if c.ended.isNone then some (c.finish .failed) else none

end Conversation

def conversation (setup : SessionSetup) : Machine Conversation ConversationEvent where
  init c := ∃ vardiff, Vardiff.new setup.vardiff = some vardiff ∧ c = .connect vardiff
  step := Conversation.step setup

/-! ## What is counted and what is answered -/

inductive ShareKind
  | accepted
  | rejected
  | stale
  deriving DecidableEq, Repr

/-- The share a call counts, and whose it is. -/
def countedShare : PoolCall → Option (ShareKind × Address)
  | .shareAccepted worker _ _ => some (.accepted, worker)
  | .shareRejected worker => some (.rejected, worker)
  | .shareStale worker => some (.stale, worker)
  | _ => none

def countedShares (calls : List PoolCall) : List (ShareKind × Address) :=
  calls.filterMap countedShare

/-- The code of an error answer. -/
def Protocol.Response.code (response : Protocol.Response) : Option Nat :=
  match response.error with
  | some (.array (.number (.unsigned code) :: _)) => some code
  | _ => none

/-- What the answer to an authorized worker's submit says of the share. -/
def kindOfCode : Option Nat → ShareKind
  | none => .accepted
  | some 21 => .stale
  | some _ => .rejected

/-- The share an exchange is about. -/
def answeredShare (exchange : Heard × Protocol.Response) : Option (ShareKind × Address) :=
  if exchange.1.request.method = "mining.submit" then
    exchange.1.worker.map fun worker => (kindOfCode exchange.2.code, worker)
  else none

def Frame.response? : Frame → Option Protocol.Response
  | .response sent => some sent
  | _ => none

def Frame.difficulty? : Frame → Option F64
  | .setDifficulty difficulty => some difficulty
  | _ => none

def responses (frames : List Frame) : List Protocol.Response := frames.filterMap Frame.response?

/-- The difficulty the miner was last told. -/
def announced (frames : List Frame) : Option F64 := (frames.filterMap Frame.difficulty?).getLast?

def Conversation.exchanges (c : Conversation) : List (Heard × Protocol.Response) :=
  c.heard.zip (responses c.frames)

/-- The id the answer to a request carries. -/
def Heard.answerId (heard : Heard) : Option Nat :=
  if heard.request.method = "mining.subscribe" then heard.request.id
  else some (heard.request.id.getD 0)

/-! ## The answer to a submit -/

namespace Conversation

/-- What an answer leaves alone. -/
structure Kept (c c' : Conversation) : Prop where
  frames : c'.frames = c.frames
  heard : c'.heard = c.heard
  ended : c'.ended = c.ended

theorem Kept.refl (c : Conversation) : Kept c c := ⟨rfl, rfl, rfl⟩

/-- An answer that broke off: at most one share was counted. -/
structure Broken (c : Conversation) (ended : Ended) (c' : Conversation) : Prop where
  kept : Kept c c'
  failed : ended = .failed
  vardiff : c'.vardiff = c.vardiff
  counted : ∃ extra, extra.length ≤ 1 ∧ countedShares c'.calls = countedShares c.calls ++ extra

/-- The difficulty is left, or it moved and is pending. -/
def Moved (setup : SessionSetup) (v v' : Vardiff) (pending : Option F64) : Prop :=
  (v' = v ∧ pending = none) ∨
    ∃ event, (vardiffMachine setup.vardiff).step v event = some v' ∧ pending = v.returned v'

/-- The streak after the answer to an authorized worker's submit. -/
def nextStreak (code : Option Nat) (streak : Nat) : Nat :=
  match code with
  | some 20 => streak
  | some 21 => streak + 1
  | _ => 0

/-- The job and the solution of a submit were found. -/
structure Verifies (turn : Turn) (request : Protocol.Request) (submit : SubmitParams)
    (job : PoolJob) : Prop where
  parsed : SubmitParams.parse request.params = .ok submit
  found : turn.lookup.getForSubmit submit.jobId = some job

/-- The answer to an authorized worker's submit. -/
structure Submitted (setup : SessionSetup) (turn : Turn) (worker : Address)
    (request : Protocol.Request) (c : Conversation) (answer : Answer) (c' : Conversation) :
    Prop where
  kept : Kept c c'
  stays : c'.authorizedWorker = c.authorizedWorker
  id : answer.response.id = some (request.id.getD 0)
  counted : countedShares c'.calls =
    countedShares c.calls ++ [(kindOfCode answer.response.code, worker)]
  streak : c'.unknownJobStreak = nextStreak answer.response.code c.unknownJobStreak
  resync : answer.resyncAfterStaleSubmit = true ↔ answer.response.code = some 21
  moved : Moved setup c.vardiff c'.vardiff answer.pendingDifficulty
  low : answer.response.code = some 23 → ∃ submit job error, Verifies turn request submit job ∧
    verifySubmitForVardiff setup.digest job.template setup.extranonce1Le submit c.vardiff.view
      turn.now = .error error
  met : answer.response.code = none → ∃ submit job share difficulty,
    Verifies turn request submit job ∧
      verifySubmitForVardiff setup.digest job.template setup.extranonce1Le submit c.vardiff.view
        turn.now = .ok (share, difficulty)

@[simp] theorem code_responseOk (id : Nat) : (responseOk id).code = none := rfl

@[simp] theorem code_responseError (id code : Nat) (message : String) :
    (responseError id code message).code = some code := rfl

@[simp] theorem countedShares_append (calls calls' : List PoolCall) :
    countedShares (calls ++ calls') = countedShares calls ++ countedShares calls' :=
  List.filterMap_append ..

variable {setup : SessionSetup} {turn : Turn} {worker : Address} {c : Conversation}

theorem refuse_ends (response : Protocol.Response) :
    Ends (refuse turn worker response) c
      (fun answer c' => answer = { response } ∧
        c' = { c with calls := c.calls ++ [.shareRejected worker] })
      (fun ended c' => ended = .failed ∧
        c' = { c with calls := c.calls ++ [.shareRejected worker] }) := by
  unfold refuse record persistShareEvent
  simp only [ends_bind, ends_modify, ends_ite, ends_pure, ends_throw]
  simp

theorem stale_ends (fences : List PoolCall) (response : Protocol.Response) :
    Ends (stale turn worker fences response) c
      (fun answer c' => answer = { response, resyncAfterStaleSubmit := true } ∧
        c' = { c with
          unknownJobStreak := c.unknownJobStreak + 1
          calls := c.calls ++ .shareStale worker :: fences })
      (fun ended c' => ended = .failed ∧
        c' = { c with
          unknownJobStreak := c.unknownJobStreak + 1
          calls := c.calls ++ .shareStale worker :: fences }) := by
  unfold stale persistShareEvent
  simp only [ends_bind, ends_modify, ends_ite, ends_pure, ends_throw]
  simp

/-- A submit that is counted as rejected, from where its answer is settled. -/
theorem refuse_submitted {request : Protocol.Request} {mid : Conversation} {code : Nat}
    {message : String} (kept : Kept c mid) (stays : mid.authorizedWorker = c.authorizedWorker)
    (counted : countedShares mid.calls = countedShares c.calls) (vardiff : mid.vardiff = c.vardiff)
    (rejected : kindOfCode (some code) = .rejected)
    (streak : mid.unknownJobStreak = nextStreak (some code) c.unknownJobStreak)
    (low : code = 23 → ∃ submit job error, Verifies turn request submit job ∧
      verifySubmitForVardiff setup.digest job.template setup.extranonce1Le submit c.vardiff.view
        turn.now = .error error) :
    Ends (refuse turn worker (responseError (request.id.getD 0) code message)) mid
      (Submitted setup turn worker request c) (Broken c) := by
  have unstale : code ≠ 21 := by
    rintro rfl
    cases rejected
  apply (refuse_ends _).mono
  · rintro _ _ ⟨rfl, rfl⟩
    refine ⟨⟨kept.frames, kept.heard, kept.ended⟩, stays, rfl, ?_, streak, ?_, .inl ⟨vardiff, rfl⟩,
      ?_, ?_⟩
    · show countedShares (mid.calls ++ [.shareRejected worker]) = _
      rw [countedShares_append, counted, code_responseError, rejected]
      rfl
    · simpa using unstale
    · intro is
      exact low (Option.some.inj is)
    · intro is
      cases is
  · rintro _ _ ⟨rfl, rfl⟩
    refine ⟨⟨kept.frames, kept.heard, kept.ended⟩, rfl, vardiff, [(.rejected, worker)], le_rfl, ?_⟩
    show countedShares (mid.calls ++ [.shareRejected worker]) = _
    rw [countedShares_append, counted]
    rfl

/-- A submit on a job that does not count any more. -/
theorem stale_submitted {request : Protocol.Request} {fences : List PoolCall} {message : String}
    (fencing : countedShares fences = []) :
    Ends (stale turn worker fences (responseError (request.id.getD 0) 21 message)) c
      (Submitted setup turn worker request c) (Broken c) := by
  have counted : countedShares (c.calls ++ .shareStale worker :: fences) =
      countedShares c.calls ++ [(.stale, worker)] := by
    rw [countedShares_append]
    show _ ++ (_ :: countedShares fences) = _
    rw [fencing]
  apply (stale_ends _ _).mono
  · rintro _ _ ⟨rfl, rfl⟩
    exact ⟨⟨rfl, rfl, rfl⟩, rfl, rfl, counted, rfl, by simp, .inl ⟨rfl, rfl⟩,
      fun is => (by cases is), fun is => (by cases is)⟩
  · rintro _ _ ⟨rfl, rfl⟩
    exact ⟨⟨rfl, rfl, rfl⟩, rfl, rfl, [(.stale, worker)], le_rfl, counted⟩

section Accept

variable {request : Protocol.Request} {submit : SubmitParams} {job : PoolJob}
  {share : VerifiedShare} {difficulty : ℚ}

/-- A panic in the difficulty breaks off after the share was counted. -/
theorem credit_submitted {mid : Conversation} (kept : Kept c mid)
    (stays : mid.authorizedWorker = c.authorizedWorker)
    (counted : countedShares mid.calls = countedShares c.calls) (vardiff : mid.vardiff = c.vardiff)
    (streak : mid.unknownJobStreak = 0) (verifies : Verifies turn request submit job)
    (verified : verifySubmitForVardiff setup.digest job.template setup.extranonce1Le submit
      c.vardiff.view turn.now = .ok (share, difficulty)) :
    Ends (credit turn worker (request.id.getD 0) share difficulty) mid
      (Submitted setup turn worker request c) (Broken c) := by
  have recorded : countedShares
      (mid.calls ++ [.shareAccepted worker (.finite difficulty) share.isBlockCandidate]) =
        countedShares c.calls ++ [(.accepted, worker)] := by
    rw [countedShares_append, counted]
    rfl
  unfold credit record
  simp only [ends_bind, ends_get, ends_modify]
  split
  · exact ⟨⟨kept.frames, kept.heard, kept.ended⟩, rfl, vardiff, [_], le_rfl, recorded⟩
  · rename_i moved ran
    simp only [ends_bind, ends_modify, ends_pure]
    rw [vardiff] at ran ⊢
    exact ⟨⟨kept.frames, kept.heard, kept.ended⟩, stays, rfl, recorded, streak, by simp,
      .inr ⟨.acceptedShare turn.acceptedAt, ran, rfl⟩, fun is => (by cases is),
      fun _ => ⟨submit, job, share, difficulty, verifies, verified⟩⟩

theorem accept_submitted {mid : Conversation} (kept : Kept c mid)
    (stays : mid.authorizedWorker = c.authorizedWorker)
    (counted : countedShares mid.calls = countedShares c.calls) (vardiff : mid.vardiff = c.vardiff)
    (streak : mid.unknownJobStreak = 0) (verifies : Verifies turn request submit job)
    (verified : verifySubmitForVardiff setup.digest job.template setup.extranonce1Le submit
      c.vardiff.view turn.now = .ok (share, difficulty)) :
    Ends (accept turn worker (request.id.getD 0) share difficulty) mid
      (Submitted setup turn worker request c) (Broken c) := by
  have kept' : Kept c { mid with acceptedShareSeen := true } := ⟨kept.frames, kept.heard, kept.ended⟩
  unfold accept submitBlockCandidate record
  simp only [ends_bind, ends_modify, ends_ite]
  constructor
  · intro candidate
    split
    · exact ⟨kept', rfl, vardiff, [], Nat.zero_le _, by rw [counted, List.append_nil]⟩
    · exact credit_submitted kept' stays counted vardiff streak verifies verified
    · rename_i times _
      have same : countedShares (mid.calls ++ [.candidatePropagation times]) =
          countedShares c.calls := by
        rw [countedShares_append, counted]
        exact List.append_nil _
      exact credit_submitted ⟨kept.frames, kept.heard, kept.ended⟩ stays same vardiff streak
        verifies verified
  · intro plain
    exact credit_submitted kept' stays counted vardiff streak verifies verified

end Accept

/-- A submit on a job that counts. -/
theorem judge_submitted {request : Protocol.Request} {submit : SubmitParams} {job : PoolJob}
    (verifies : Verifies turn request submit job) :
    Ends (judge setup turn worker (request.id.getD 0) submit job) c
      (Submitted setup turn worker request c) (Broken c) := by
  unfold judge record
  simp only [ends_bind, ends_get, ends_modify, ends_ite]
  constructor
  · intro seen
    exact refuse_submitted ⟨rfl, rfl, rfl⟩ rfl rfl rfl rfl rfl fun is => (by cases is)
  · intro fresh
    have validating : countedShares (c.calls ++ [.shareValidation turn.validationElapsed]) =
        countedShares c.calls := by
      rw [countedShares_append]
      exact List.append_nil _
    split
    · rename_i error missed
      exact refuse_submitted ⟨rfl, rfl, rfl⟩ rfl validating rfl rfl rfl fun _ =>
        ⟨submit, job, error, verifies, missed⟩
    · rename_i share difficulty verified
      split
      · exact ⟨⟨rfl, rfl, rfl⟩, rfl, rfl, [], Nat.zero_le _, by rw [List.append_nil, validating]⟩
      · exact refuse_submitted ⟨rfl, rfl, rfl⟩ rfl validating rfl rfl rfl fun is => (by cases is)
      · exact accept_submitted ⟨rfl, rfl, rfl⟩ rfl validating rfl rfl verifies verified

theorem submit_submitted (request : Protocol.Request) :
    Ends (submit setup turn worker (request.id.getD 0) request.params) c
      (Submitted setup turn worker request c) (Broken c) := by
  unfold submit
  split
  · exact refuse_submitted (.refl c) rfl rfl rfl rfl rfl fun is => (by cases is)
  · rename_i submit parsed
    rw [ends_ite]
    refine ⟨fun _ => refuse_submitted (.refl c) rfl rfl rfl rfl rfl fun is => (by cases is), fun _ => ?_⟩
    rw [ends_ite]
    constructor
    · intro _
      simp only [ends_bind, ends_get]
      exact stale_submitted rfl
    · intro _
      split
      · exact stale_submitted rfl
      · rename_i job found
        exact judge_submitted ⟨parsed, found⟩

/-! ## The answer to a request -/

/-- The streak after an exchange. -/
def streakAfter (exchange : Heard × Protocol.Response) (streak : Nat) : Nat :=
  if (answeredShare exchange).isSome then nextStreak exchange.2.code streak else streak

structure Answered (setup : SessionSetup) (turn : Turn) (request : Protocol.Request)
    (c : Conversation) (answer : Answer) (c' : Conversation) : Prop where
  kept : Kept c c'
  id : answer.response.id = Heard.answerId ⟨request, c.authorizedWorker⟩
  counted : countedShares c'.calls = countedShares c.calls ++
    (answeredShare (⟨request, c.authorizedWorker⟩, answer.response)).toList
  streak : c'.unknownJobStreak =
    streakAfter (⟨request, c.authorizedWorker⟩, answer.response) c.unknownJobStreak
  authorized : c.authorizedWorker.isSome = true → c'.authorizedWorker.isSome = true
  authorizes : request.method = "mining.authorize" ∨ c'.authorizedWorker = c.authorizedWorker
  resync : answer.resyncAfterStaleSubmit = true →
    c.authorizedWorker.isSome = true ∧ answer.response.code = some 21
  stale : answer.resyncAfterStaleSubmit = false → c'.unknownJobStreak ≤ c.unknownJobStreak
  moved : Moved setup c.vardiff c'.vardiff answer.pendingDifficulty
  judged : request.method = "mining.submit" → ∀ worker, c.authorizedWorker = some worker →
    Submitted setup turn worker request c answer c'

variable {request : Protocol.Request}

/-- An answer that is about no share. -/
theorem Answered.ofOther {answer : Answer} {c' : Conversation} (kept : Kept c c')
    (id : answer.response.id = Heard.answerId ⟨request, c.authorizedWorker⟩)
    (unshared : answeredShare (⟨request, c.authorizedWorker⟩, answer.response) = none)
    (counted : countedShares c'.calls = countedShares c.calls)
    (streak : c'.unknownJobStreak = c.unknownJobStreak)
    (authorized : c.authorizedWorker.isSome = true → c'.authorizedWorker.isSome = true)
    (authorizes : request.method = "mining.authorize" ∨ c'.authorizedWorker = c.authorizedWorker)
    (quiet : answer.resyncAfterStaleSubmit = false)
    (moved : Moved setup c.vardiff c'.vardiff answer.pendingDifficulty) :
    Answered setup turn request c answer c' where
  kept := kept
  id := id
  counted := by rw [counted, unshared, Option.toList_none, List.append_nil]
  streak := by
    unfold streakAfter
    rw [unshared, streak]
    rfl
  authorized := authorized
  authorizes := authorizes
  resync := by
    intro resyncs
    rw [quiet] at resyncs
    cases resyncs
  stale := fun _ => le_of_eq streak
  moved := moved
  judged := by
    intro submits worker is
    unfold answeredShare at unshared
    rw [if_pos submits, is] at unshared
    cases unshared

theorem answerId_of_ne (request : Protocol.Request) (worker : Option Address)
    (other : request.method ≠ "mining.subscribe") :
    Heard.answerId ⟨request, worker⟩ = some (request.id.getD 0) := if_neg other

theorem unshared_of_ne (worker : Option Address) (response : Protocol.Response)
    (other : request.method ≠ "mining.submit") :
    answeredShare (⟨request, worker⟩, response) = none := if_neg other

/-- A plain answer, which changes nothing. -/
theorem Answered.plain {response : Protocol.Response} (other : request.method ≠ "mining.submit")
    (id : response.id = Heard.answerId ⟨request, c.authorizedWorker⟩) :
    Answered setup turn request c { response } c :=
  .ofOther (.refl c) id (unshared_of_ne _ _ other) rfl rfl (fun is => is) (.inr rfl) rfl
    (.inl ⟨rfl, rfl⟩)

theorem authorize_ends (is : request.method = "mining.authorize") :
    Ends (authorize setup turn (request.id.getD 0) request.params) c
      (Answered setup turn request c) (Broken c) := by
  have notSubmit : request.method ≠ "mining.submit" := by
    rw [is]
    decide
  have id := answerId_of_ne request c.authorizedWorker (by rw [is]; decide)
  unfold authorize record
  split
  · exact .plain notSubmit id.symm
  · rename_i worker parsed
    rw [ends_ite]
    refine ⟨fun _ => .plain notSubmit id.symm, fun _ => ?_⟩
    simp only [ends_bind, ends_get, ends_ite, ends_pure]
    refine ⟨fun _ => .plain notSubmit id.symm, fun _ => ?_⟩
    split
    · exact .plain notSubmit id.symm
    · exact .plain notSubmit id.symm
    · simp only [ends_bind, ends_modify, ends_pure]
      refine .ofOther ⟨rfl, rfl, rfl⟩ id.symm (unshared_of_ne _ _ notSubmit) ?_ rfl (fun _ => rfl)
        (.inl is) rfl (.inl ⟨rfl, rfl⟩)
      show countedShares (c.calls ++ [.authorizedWorker worker]) = _
      rw [countedShares_append]
      exact List.append_nil _

theorem suggestDifficulty_ends (is : request.method = "mining.suggest_difficulty") :
    Ends (suggestDifficulty setup turn (request.id.getD 0) request.params) c
      (Answered setup turn request c) (Broken c) := by
  have notSubmit : request.method ≠ "mining.submit" := by
    rw [is]
    decide
  have id := answerId_of_ne request c.authorizedWorker (by rw [is]; decide)
  unfold suggestDifficulty
  split
  · exact .plain notSubmit id.symm
  · rename_i suggested _
    simp only [ends_bind, ends_get, ends_ite, ends_pure]
    refine ⟨fun _ => ?_, fun _ => .plain notSubmit id.symm⟩
    split
    · exact ⟨.refl c, rfl, rfl, [], Nat.zero_le _, (List.append_nil _).symm⟩
    · rename_i vardiff moved
      simp only [ends_bind, ends_modify, ends_pure]
      exact .ofOther ⟨rfl, rfl, rfl⟩ id.symm (unshared_of_ne _ _ notSubmit) rfl rfl (fun is => is)
        (.inr rfl) rfl (.inr ⟨.suggestedDifficulty suggested turn.now, moved, rfl⟩)

theorem Submitted.answered {worker : Address} {answer : Answer} {c' : Conversation}
    (is : request.method = "mining.submit") (authorized : c.authorizedWorker = some worker)
    (submitted : Submitted setup turn worker request c answer c') :
    Answered setup turn request c answer c' := by
  have share : answeredShare (⟨request, c.authorizedWorker⟩, answer.response) =
      some (kindOfCode answer.response.code, worker) := by
    unfold answeredShare
    rw [if_pos is, authorized]
    rfl
  refine ⟨submitted.kept, ?_, ?_, ?_, ?_, .inr submitted.stays, ?_, ?_, submitted.moved, ?_⟩
  · rw [submitted.id, answerId_of_ne _ _ (by rw [is]; decide)]
  · rw [submitted.counted, share]
    rfl
  · rw [submitted.streak, streakAfter, share]
    rfl
  · rw [submitted.stays]
    exact fun is => is
  · intro resyncs
    exact ⟨by rw [authorized]; rfl, submitted.resync.1 resyncs⟩
  · intro quiet
    rw [submitted.streak]
    have fresh : answer.response.code ≠ some 21 := by
      rw [Ne, ← submitted.resync, quiet]
      exact Bool.false_ne_true
    unfold nextStreak
    split
    · exact le_rfl
    · rename_i stale
      exact absurd stale fresh
    · exact Nat.zero_le _
  · intro _ other same
    rw [authorized] at same
    cases same
    exact submitted

/-- **What an answer does.** -/
theorem answer_ends :
    Ends (answer setup turn request) c (Answered setup turn request c) (Broken c) := by
  unfold answer
  simp only [ends_ite, ends_pure]
  refine ⟨fun subscribes => ?_, fun other => ⟨authorize_ends, fun _ =>
    ⟨suggestDifficulty_ends, fun _ => ⟨fun submits => ?_, fun unknown => ?_⟩⟩⟩⟩
  · refine .plain (by rw [subscribes]; decide) ?_
    exact (if_pos subscribes).symm
  · simp only [ends_bind, ends_get]
    split
    · rename_i unauthorized
      refine .ofOther (.refl c) (answerId_of_ne _ _ other).symm ?_ rfl rfl (fun is => is) (.inr rfl)
        rfl (.inl ⟨rfl, rfl⟩)
      unfold answeredShare
      rw [if_pos submits, unauthorized]
      rfl
    · rename_i worker authorized
      exact (submit_submitted request).mono (fun answer c' => Submitted.answered submits authorized)
        fun _ _ broken => broken
  · exact .plain unknown (answerId_of_ne _ _ other).symm

end Conversation

end CsdPool.Bridge
