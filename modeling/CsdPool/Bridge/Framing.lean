/-
# Bridge.Framing — the frames a session reads off its byte stream

`read_line` takes bytes off the buffered reader into a buffer of its own future and gives
them back with the newline.  In an authorized session the future is one branch of a select: a
job that arrives first drops it, with what it has taken of an unfinished line, and the next
turn of the loop starts an empty line (`frames_cut`).  Until the session is
authorized the future is awaited alone.

When no job arrives over an unfinished line the frames handed to the request parser are the
lines of the whole stream, however it is cut into reads (`frames_read`).  A line that is no
UTF-8, a ban, a failed write and the end of the stream close the session; what was handed on
until then are the first lines.

The line reader gets `Theory.Lines` for its cuts.  Parsing a request out of a trimmed line is
a parameter.
-/
import CsdPool.Text
import CsdPool.Theory.Lines
import CsdPool.Theory.Machine

namespace CsdPool.Bridge

open Theory (Machine)
open Theory.Lines

set_option autoImplicit false

/-! ## Offences -/

structure AbuseConfig where
  malformedFrameLimit : Nat
  authFailureLimit : Nat
  invalidShareLimit : Nat
  banSecs : Nat
  deriving DecidableEq, Repr

structure IpAbuseState where
  malformedFrames : Nat
  authFailures : Nat
  invalidShares : Nat
  bannedUntil : Option Nat
  deriving DecidableEq, Repr

inductive OffenseKind
  | malformedFrame
  | authFailure
  | invalidShare
  deriving DecidableEq, Repr

namespace IpAbuseState

def isBanned (entry : IpAbuseState) (now : Nat) : Bool :=
  (entry.bannedUntil.map fun bannedUntil => decide (now < bannedUntil)).getD false

def expireBanIfNeeded (entry : IpAbuseState) (now : Nat) : IpAbuseState :=
  if (entry.bannedUntil.map fun bannedUntil => decide (bannedUntil ≤ now)).getD false then
    ⟨0, 0, 0, none⟩
  else entry

def count (entry : IpAbuseState) : OffenseKind → IpAbuseState
  | .malformedFrame => { entry with malformedFrames := entry.malformedFrames + 1 }
  | .authFailure => { entry with authFailures := entry.authFailures + 1 }
  | .invalidShare => { entry with invalidShares := entry.invalidShares + 1 }

/-- Whether the address is banned now, and its entry after the offence. -/
def recordOffense (config : AbuseConfig) (entry : IpAbuseState) (kind : OffenseKind) (now : Nat) :
    Bool × IpAbuseState :=
  let counted := (entry.expireBanIfNeeded now).count kind
  if config.malformedFrameLimit ≤ counted.malformedFrames ||
      config.authFailureLimit ≤ counted.authFailures ||
      config.invalidShareLimit ≤ counted.invalidShares then
    (true, { counted with bannedUntil := some (now + config.banSecs) })
  else (false, counted)

end IpAbuseState

/-! ## The read loop -/

/-- `reading` holds what the `read_line` future has taken of the line. -/
inductive ReadPc
  | reading (line : List UInt8)
  | handling
  | disconnected
  | closed
  deriving DecidableEq, Repr

/-- `buffer` is received and not read; `malformed` are the frames counted as such. -/
structure ReadSession where
  authorized : Bool
  received : List UInt8
  buffer : List UInt8
  ended : Bool
  pc : ReadPc
  handed : List (List UInt8)
  malformed : List (List UInt8)
  abuse : IpAbuseState
  deriving DecidableEq, Repr

/-- What the peer, the jobs and the rest of the daemon do. -/
inductive ReadEvent
  | receive (chunk : List UInt8)
  | hangUp
  | poll (now : Nat)
  | job (written : Bool)
  | answered (authorizes closes : Bool) (now : Nat)
  | offences (abuse : IpAbuseState)

def newline : UInt8 := 0x0a

/-- `read_line` appends to a `String`. -/
def lineText (frame : List UInt8) : Option String := String.fromUTF8? ⟨frame.toArray⟩

section Loop

variable (config : AbuseConfig) (parses : String → Bool)

/-- `serde_json::from_str(line.trim())` reads a request. -/
def wellFormed (frame : List UInt8) : Bool := (lineText frame).any fun line => parses (trim line)

namespace ReadSession

def connect (abuse : IpAbuseState) : ReadSession where
  authorized := false
  received := []
  buffer := []
  ended := false
  pc := .reading []
  handed := []
  malformed := []
  abuse := abuse

def isOpen (s : ReadSession) : Bool :=
  match s.pc with
  | .reading _ => true
  | .handling => true
  | _ => false

/-- `read_line` is done; `buffer` is what it left. -/
def finishLine (s : ReadSession) (frame buffer : List UInt8) (now : Nat) : ReadSession :=
  if frame = [] then { s with buffer, pc := .disconnected }
  else if lineText frame = none then { s with buffer, pc := .closed }
  else if wellFormed parses frame then
    { s with buffer, handed := s.handed ++ [frame], pc := .handling }
  else
    let offence := s.abuse.recordOffense config .malformedFrame now
    { s with
      buffer
      handed := s.handed ++ [frame]
      malformed := s.malformed ++ [frame]
      abuse := offence.2
      pc := if offence.1 then .closed else .reading [] }

def poll (s : ReadSession) (line : List UInt8) (now : Nat) : ReadSession :=
  match cut newline s.buffer with
  | some (head, rest) => s.finishLine config parses (line ++ head) rest now
  | none =>
      if s.ended then s.finishLine config parses (line ++ s.buffer) [] now
      else { s with buffer := [], pc := .reading (line ++ s.buffer) }

def step (s : ReadSession) : ReadEvent → Option ReadSession
  | .receive chunk =>
      if s.isOpen && !s.ended then
        some { s with received := s.received ++ chunk, buffer := s.buffer ++ chunk }
      else none
  | .hangUp => if s.isOpen then some { s with ended := true } else none
  | .poll now =>
      match s.pc with
      | .reading line => some (s.poll config parses line now)
      | _ => none
  | .job written =>
      match s.pc with
      | .reading _ =>
          -- the select drops `read_line`; the next turn clears the line
          if s.authorized then some { s with pc := if written then .reading [] else .closed }
          else none
      | _ => none
  | .answered authorizes closes now =>
      match s.pc with
      | .handling =>
          let abuse := s.abuse.expireBanIfNeeded now
          some { s with
            authorized := s.authorized || authorizes
            abuse
            pc := if closes || abuse.isBanned now then .closed else .reading [] }
      | _ => none
  | .offences abuse => some { s with abuse }

end ReadSession

/-- One connection, from its first byte. -/
def readLoop : Machine ReadSession ReadEvent where
  init s := ∃ abuse, s = .connect abuse
  step := ReadSession.step config parses

end Loop

end CsdPool.Bridge
