/-
# Bridge.Crediting — sessions that credit shares to one database

Any number of daemons serve one database.  Each counts its sessions from one, and the counter is
the session's `extranonce1`; a restart begins anew.  A session keeps the texts of the submits it
has seen, verifies a new one at its own difficulty and hands it to the database, whose unique
key says once more whether it is new.  The two decisions look at different things: the session
at the texts without the worker, the database at the texts with the worker and without the
`extranonce1`.

The insert is a step of its own, so other sessions may come between it and the verification, and
it may fail with nothing written or with only its acknowledgement lost.  A job goes by its id:
all daemons mean one template by it.  Which jobs are stale, who is disconnected and when are
choices of the environment.  `credited` and `duplicates` are histories that nothing reads.
-/
import CsdPool.Bridge.Session
import CsdPool.Bridge.Vardiff

namespace CsdPool.Bridge

open Theory (F64 Keyed Table Machine)

set_option autoImplicit false

/-! ## Workers -/

/-- `text.split_once(c)`. -/
def splitOnce (c : Char) (text : String) : Option (String × String) :=
  match text.toList.dropWhile fun d => d ≠ c with
  | [] => none
  | _ :: rest => some (String.ofList (text.toList.takeWhile fun d => d ≠ c), String.ofList rest)

def validAddr20 (address : String) : Bool :=
  address.toList.length == 40 && address.toList.all isAsciiHexdigit

def isAsciiAlphanumeric (c : Char) : Bool :=
  ('0' ≤ c && c ≤ '9') || ('a' ≤ c && c ≤ 'z') || ('A' ≤ c && c ≤ 'Z')

def validWorkerName (name : String) : Bool :=
  !name.toList.isEmpty && name.toList.length ≤ 64 &&
    name.toList.all fun c => isAsciiAlphanumeric c || c == '_' || c == '-' || c == '.'

/-- Without its `0x`, in lower case. -/
def normalizedUsername (username : String) : String :=
  toAsciiLowercase
    (((stripPrefix "0x" username).orElse fun _ => stripPrefix "0X" username).getD username)

def parseAuthorizeWorker (username : String) : Option Address :=
  let username := normalizedUsername (trim username)
  match splitOnce '.' username with
  | none => if validAddr20 username then some username else none
  | some (address, worker) =>
      if validAddr20 address && validWorkerName worker then some address else none

def authorizedSubmitWorker (miner : Address) (submitted : String) : Bool :=
  let normalized := normalizedUsername submitted
  normalized == miner || (stripPrefix (miner ++ ".") normalized).any validWorkerName

/-! ## Sessions -/

/-- What a session knows a submit by. -/
structure ShareKey where
  jobId : String
  extranonce2Hex : String
  ntimeHex : String
  nonceHex : String
  deriving DecidableEq, Repr

def ShareKey.fromSubmit (submit : SubmitParams) : ShareKey where
  jobId := submit.jobId
  extranonce2Hex := submit.extranonce2Hex
  ntimeHex := submit.ntimeHex
  nonceHex := submit.nonceHex

/-- A submit that was verified. -/
structure VerifiedSubmit where
  job : PoolJob
  miner : Address
  submit : SubmitParams
  share : VerifiedShare
  difficulty : ℚ

/-- The row of a share; its session is left out. -/
def VerifiedSubmit.record (verified : VerifiedSubmit) : ShareRecord :=
  shareRecordFromSubmit none verified.miner verified.submit verified.share verified.difficulty

structure StratumSession where
  id : Nat
  daemon : Nat
  extranonce1Le : Bytes 4
  authorizedWorker : Option Address
  seenShares : List ShareKey
  vardiff : Vardiff
  difficultySuggestionSeen : Bool
  acceptedShareSeen : Bool
  pending : Option VerifiedSubmit

instance instKeyedStratumSession : Keyed StratumSession Nat := ⟨StratumSession.id⟩

/-- A process and its `NEXT_SESSION_ID`. -/
structure Daemon where
  id : Nat
  nextSessionId : UInt64
  deriving DecidableEq, Repr

instance instKeyedDaemon : Keyed Daemon Nat := ⟨Daemon.id⟩

/-- A share that was inserted, and the `extranonce1` it was solved with. -/
structure Credit where
  extranonce1Le : Bytes 4
  verified : VerifiedSubmit

/-- A submit that was answered as a duplicate. -/
structure DuplicateReply where
  extranonce1Le : Bytes 4
  submit : SubmitParams
  deriving DecidableEq

structure CreditState where
  db : Db
  daemons : Table Daemon
  sessions : Table StratumSession
  nextSession : Nat
  credited : List Credit
  duplicates : List DuplicateReply

/-- What the job ids mean. -/
structure JobBook where
  find : String → Option PoolJob
  named : ∀ jobId job, find jobId = some job → job.notify.jobId = jobId

inductive CreditEvent
  | start (daemon : Nat)
  | connect (daemon : Nat)
  | disconnect (session : Nat)
  | authorize (session : Nat) (username : String)
  | suggestDifficulty (session : Nat) (suggested : F64) (now : Nat)
  | submit (session : Nat) (submit : SubmitParams) (stale : Bool) (now : Nat)
  | persist (session : Nat) (fault : Fault) (now : Nat)

namespace CreditState

def initial : CreditState := ⟨.migrated, .empty, .empty, 0, [], []⟩

def put (s : CreditState) (session : StratumSession) : CreditState :=
  { s with sessions := s.sessions.put session }

def close (s : CreditState) (session : StratumSession) : CreditState :=
  { s with sessions := s.sessions.erase session.id }

/-- The session with its new difficulty, or its end if the difficulty code panicked. -/
def putVardiff (s : CreditState) (session : StratumSession) (vardiff : Option Vardiff) :
    CreditState :=
  match vardiff with
  | some vardiff => s.put { session with vardiff }
  | none => s.close session

section Step

variable (digest : Digest) (jobs : JobBook) (config : VardiffConfig)

def connect (s : CreditState) (daemon : Daemon) (vardiff : Vardiff) : CreditState :=
  { s with
    daemons := s.daemons.put { daemon with nextSessionId := daemon.nextSessionId + 1 }
    nextSession := s.nextSession + 1
    sessions := s.sessions.put
      { id := s.nextSession
        daemon := daemon.id
        extranonce1Le := toLeBytes 4 daemon.nextSessionId.toUInt32.toNat
        authorizedWorker := none
        seenShares := []
        vardiff := vardiff
        difficultySuggestionSeen := false
        acceptedShareSeen := false
        pending := none } }

/-- `mining.submit` of an authorized session, up to the database. -/
def submit (s : CreditState) (session : StratumSession) (miner : Address) (submit : SubmitParams)
    (stale : Bool) (now : Nat) : CreditState :=
  if !authorizedSubmitWorker miner submit.workerName || stale then s
  else match jobs.find submit.jobId with
    | none => s
    | some job =>
        if session.seenShares.contains (ShareKey.fromSubmit submit) then
          { s with duplicates := s.duplicates ++ [⟨session.extranonce1Le, submit⟩] }
        else
          let seenShares := ShareKey.fromSubmit submit :: session.seenShares
          match verifySubmitForVardiff digest job.template session.extranonce1Le submit
              session.vardiff.view now with
          | .error _ => s.put { session with seenShares }
          | .ok (share, difficulty) =>
              s.put { session with
                seenShares
                pending := some ⟨job, miner, submit, share, difficulty⟩ }

/-- `persist_accepted_share` and what follows its answer. -/
def persist (s : CreditState) (session : StratumSession) (verified : VerifiedSubmit)
    (fault : Fault) (now : Nat) : CreditState :=
  let credit : Credit := ⟨session.extranonce1Le, verified⟩
  match s.db.upsertJob (jobRecordFromPoolJob verified.job (JobReason.fromJob verified.job)) with
  | .error _ => s.close session
  | .ok db =>
      match db.insertShare verified.record with
      | .error _ => { s.close session with db }
      | .ok (inserted, written) =>
          match fault with
          | .failed => { s.close session with db }
          | .unacknowledged =>
              { s.close session with
                db := written
                credited := if inserted then s.credited ++ [credit] else s.credited }
          | .none =>
              let answered := { session with pending := none }
              if inserted then
                { s.putVardiff { answered with acceptedShareSeen := true }
                    (session.vardiff.recordAcceptedShare now) with
                  db := written
                  credited := s.credited ++ [credit] }
              else
                { s.put answered with
                  db := written
                  duplicates := s.duplicates ++ [⟨session.extranonce1Le, verified.submit⟩] }

def step (s : CreditState) : CreditEvent → Option CreditState
  | .start daemon =>
      some { s with
        daemons := s.daemons.put ⟨daemon, 1⟩
        sessions := s.sessions.filter fun session => decide (session.daemon ≠ daemon) }
  | .connect daemon =>
      match s.daemons.find? daemon, Vardiff.new config with
      | some daemon, some vardiff => some (s.connect daemon vardiff)
      | _, _ => none
  | .disconnect session => (s.sessions.find? session).map s.close
  | .authorize session username =>
      match s.sessions.find? session, parseAuthorizeWorker username with
      | some session, some worker =>
          if session.pending.isSome then none
          else some (s.put { session with authorizedWorker := some worker })
      | _, _ => none
  | .suggestDifficulty session suggested now =>
      match s.sessions.find? session with
      | some session =>
          if session.pending.isSome || session.difficultySuggestionSeen ||
              session.acceptedShareSeen then none
          else
            some (s.putVardiff { session with difficultySuggestionSeen := true }
              (session.vardiff.applySuggestedDifficulty suggested now))
      | none => none
  | .submit session submit stale now =>
      match s.sessions.find? session with
      | some session =>
          match session.authorizedWorker, session.pending with
          | some miner, none => some (s.submit digest jobs session miner submit stale now)
          | _, _ => none
      | none => none
  | .persist session fault now =>
      match s.sessions.find? session with
      | some session => session.pending.map fun verified => s.persist session verified fault now
      | none => none

end Step

end CreditState

def creditMachine (digest : Digest) (jobs : JobBook) (config : VardiffConfig) :
    Machine CreditState CreditEvent where
  init := (· = .initial)
  step := CreditState.step digest jobs config

end CsdPool.Bridge
