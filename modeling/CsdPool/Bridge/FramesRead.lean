/-
# Bridge.FramesRead — what is handed on is what was on the wire

`Unbroken` is the invariant of an open session: the frames handed on, the line in progress and
the unread bytes make up the stream, in this order, and what was handed on are lines (or the
stream has ended and all of it was handed on).  Every step keeps it but one, a job that
arrives over an unfinished line; `NoCut` excludes that step and nothing else.

Once bytes are lost they stay lost (`cut_loses_bytes`), so the condition is exact for the
bytes: an open session that has the whole stream had no line cut.
-/
import CsdPool.Bridge.Framing

namespace CsdPool.Bridge

open Theory (Machine)
open Theory.Lines

set_option autoImplicit false

variable {config : AbuseConfig} {parses : String → Bool} {s s' : ReadSession}

namespace ReadSession

/-- What the future has taken of an unfinished line. -/
def held (s : ReadSession) : List UInt8 :=
  match s.pc with
  | .reading line => line
  | _ => []

/-- Everything received was read, up to an unfinished line. -/
def caughtUp (s : ReadSession) : Bool :=
  match s.pc with
  | .disconnected => true
  | .closed => false
  | _ => s.buffer.isEmpty && !s.ended

/-- The frames on the wire. -/
def wire (s : ReadSession) : List (List UInt8) := frames newline s.ended s.received

/-- No job arrives over an unfinished line. -/
def noCut (s : ReadSession) : ReadEvent → Bool
  | .job _ => s.held.isEmpty
  | _ => true

end ReadSession

abbrev NoCut (s : ReadSession) (e : ReadEvent) : Prop := s.noCut e = true

/-- Nothing of the stream is lost: the frames handed on are the first ones on the wire, all of
them once the session has caught up; an open session has every byte; and what is counted as
malformed was on the wire and is. -/
structure Framed (parses : String → Bool) (s : ReadSession) : Prop where
  inOrder : s.handed <+: s.wire
  complete : s.caughtUp = true → s.handed = s.wire
  kept : s.isOpen = true → s.handed.flatten ++ s.held ++ s.buffer = s.received
  counted : ∀ frame ∈ s.malformed, frame ∈ s.wire ∧ wellFormed parses frame = false

/-! ## An open session -/

structure Unbroken (s : ReadSession) : Prop where
  bytes : s.handed.flatten ++ s.held ++ s.buffer = s.received
  clear : newline ∉ s.held
  lines : (∀ frame ∈ s.handed, IsLine newline frame) ∨
    (s.ended = true ∧ s.held ++ s.buffer = [] ∧ s.handed = s.wire)

/-- What is still to be handed on are the frames of the bytes in hand. -/
theorem Unbroken.wire_eq (whole : Unbroken s) :
    s.wire = s.handed ++ frames newline s.ended (s.held ++ s.buffer) := by
  rcases whole.lines with lines | ⟨ended, done, all⟩
  · unfold ReadSession.wire
    rw [← whole.bytes, List.append_assoc]
    exact frames_lines_append lines _
  · rw [done, ended, ← all]
    exact (List.append_nil _).symm

/-- The invariant of every session. -/
structure Reads (parses : String → Bool) (s : ReadSession) : Prop where
  whole : s.isOpen = true → Unbroken s
  first : s.handed <+: s.wire
  last : s.pc = .disconnected → s.handed = s.wire
  counted : ∀ frame ∈ s.malformed, frame ∈ s.handed ∧ wellFormed parses frame = false

theorem Reads.framed (reads : Reads parses s) : Framed parses s := by
  refine ⟨reads.first, ?_, fun isOpen => (reads.whole isOpen).bytes, ?_⟩
  · intro caughtUp
    have idle : s.isOpen = true → s.buffer = [] → s.ended = false → s.handed = s.wire := by
      intro isOpen empty running
      have whole := reads.whole isOpen
      have none_left : frames newline s.ended (s.held ++ s.buffer) = [] := by
        rw [empty, List.append_nil, running]
        exact frames_held whole.clear
      rw [whole.wire_eq, none_left, List.append_nil]
    unfold ReadSession.caughtUp at caughtUp
    cases pc : s.pc with
    | disconnected => exact reads.last pc
    | closed =>
        rw [pc] at caughtUp
        cases caughtUp
    | reading line =>
        rw [pc] at caughtUp
        simp only [Bool.and_eq_true, List.isEmpty_iff, Bool.not_eq_true'] at caughtUp
        exact idle (by unfold ReadSession.isOpen; rw [pc]) caughtUp.1 caughtUp.2
    | handling =>
        rw [pc] at caughtUp
        simp only [Bool.and_eq_true, List.isEmpty_iff, Bool.not_eq_true'] at caughtUp
        exact idle (by unfold ReadSession.isOpen; rw [pc]) caughtUp.1 caughtUp.2
  · intro frame member
    obtain ⟨handed, malformed⟩ := reads.counted frame member
    exact ⟨reads.first.subset handed, malformed⟩

/-! ## What one step keeps -/

/-- The session goes on after a frame with nothing in hand. -/
theorem Unbroken.snoc {t : ReadSession} {frame buffer : List UInt8}
    (bytes : s.handed.flatten ++ frame ++ buffer = s.received)
    (ahead : s.wire = s.handed ++ frame :: frames newline s.ended buffer)
    (read : (IsLine newline frame ∧ ∀ frame ∈ s.handed, IsLine newline frame) ∨
      (s.ended = true ∧ buffer = []))
    (received : t.received = s.received) (ended : t.ended = s.ended)
    (handed : t.handed = s.handed ++ [frame]) (unread : t.buffer = buffer) (idle : t.held = []) :
    Unbroken t := by
  refine ⟨?_, ?_, ?_⟩
  · rw [handed, idle, unread, received, ← bytes]
    simp
  · rw [idle]
    exact List.not_mem_nil
  · rcases read with ⟨line, lines⟩ | ⟨gone, rfl⟩
    · left
      intro frame' member
      rw [handed] at member
      rcases List.mem_append.1 member with member | member
      · exact lines frame' member
      · rw [List.mem_singleton.1 member]
        exact line
    · right
      refine ⟨ended.trans gone, by rw [idle, unread]; rfl, ?_⟩
      unfold ReadSession.wire at ahead ⊢
      rw [handed, received, ended, ahead, gone]
      rfl

/-- One more frame of the wire is handed on, or the session ends before it. -/
theorem Reads.finishLine (reads : Reads parses s) {frame buffer : List UInt8} (now : Nat)
    (bytes : s.handed.flatten ++ frame ++ buffer = s.received)
    (next : s.wire = s.handed ++ frames newline s.ended (frame ++ buffer))
    (read : (IsLine newline frame ∧ ∀ frame ∈ s.handed, IsLine newline frame) ∨
      (s.ended = true ∧ buffer = [] ∧ newline ∉ frame)) :
    Reads parses (s.finishLine config parses frame buffer now) := by
  unfold ReadSession.finishLine
  by_cases empty : frame = []
  · rw [if_pos empty]
    refine ⟨fun isOpen => (by cases isOpen), reads.first, fun _ => ?_, reads.counted⟩
    rcases read with ⟨⟨body, line, -⟩, -⟩ | ⟨ended, nothing, -⟩
    · rw [empty] at line
      exact absurd line.symm (List.append_ne_nil_of_right_ne_nil _ (List.cons_ne_nil _ _))
    · rw [empty, nothing, ended] at next
      exact (next.trans (List.append_nil _)).symm
  rw [if_neg empty]
  by_cases text : lineText frame = none
  · rw [if_pos text]
    exact ⟨fun isOpen => (by cases isOpen), reads.first, fun gone => (by cases gone),
      reads.counted⟩
  rw [if_neg text]
  have ahead : s.wire = s.handed ++ frame :: frames newline s.ended buffer := by
    rw [next, frames_next empty (read.imp_left And.left)]
  have first : (s.handed ++ [frame]) <+: s.wire := ⟨frames newline s.ended buffer, by rw [ahead]; simp⟩
  have whole : ∀ t : ReadSession, t.received = s.received → t.ended = s.ended →
      t.handed = s.handed ++ [frame] → t.buffer = buffer → t.held = [] → Unbroken t := by
    intro t
    exact Unbroken.snoc bytes ahead (read.imp_right fun last => ⟨last.1, last.2.1⟩)
  have grown : ∀ frame' ∈ s.malformed, frame' ∈ s.handed ++ [frame] ∧
      wellFormed parses frame' = false := by
    intro frame' member
    have known := reads.counted frame' member
    exact ⟨List.mem_append_left _ known.1, known.2⟩
  by_cases parsed : wellFormed parses frame = true
  · rw [if_pos parsed]
    exact ⟨fun _ => whole _ rfl rfl rfl rfl rfl, first, fun gone => (by cases gone), grown⟩
  · rw [if_neg parsed]
    have counted : ∀ frame' ∈ s.malformed ++ [frame], frame' ∈ s.handed ++ [frame] ∧
        wellFormed parses frame' = false := by
      intro frame' member
      rcases List.mem_append.1 member with member | member
      · exact grown frame' member
      · rw [List.mem_singleton.1 member]
        exact ⟨List.mem_append_right _ (List.mem_singleton_self _), by simpa using parsed⟩
    rcases s.abuse.recordOffense config .malformedFrame now with ⟨banned, abuse⟩
    cases banned with
    | true => exact ⟨fun isOpen => (by cases isOpen), first, fun gone => (by cases gone), counted⟩
    | false =>
        exact ⟨fun _ => whole _ rfl rfl rfl rfl rfl, first, fun gone => (by cases gone), counted⟩

/-- A poll of `read_line`. -/
theorem Reads.poll (reads : Reads parses s) {line : List UInt8} (there : s.pc = .reading line)
    (now : Nat) : Reads parses (s.poll config parses line now) := by
  have isOpen : s.isOpen = true := by
    unfold ReadSession.isOpen
    rw [there]
  have whole := reads.whole isOpen
  have held : s.held = line := by
    unfold ReadSession.held
    rw [there]
  have bytes := whole.bytes
  have next := whole.wire_eq
  have clear := whole.clear
  have lines := whole.lines
  rw [held] at bytes next clear lines
  unfold ReadSession.poll
  cases found : cut newline s.buffer with
  | some parts =>
      obtain ⟨head, rest⟩ := parts
      obtain ⟨split, isLine⟩ := cut_some found
      rw [split] at bytes next
      rw [← List.append_assoc] at next
      have handedLines : ∀ frame ∈ s.handed, IsLine newline frame := by
        rcases lines with lines | ⟨-, done, -⟩
        · exact lines
        · obtain ⟨body, rfl, -⟩ := isLine
          rw [split] at done
          simp at done
      apply reads.finishLine now
      · rw [← bytes]
        simp
      · exact next
      · exact .inl ⟨isLine_append clear isLine, handedLines⟩
  | none =>
      have unread : newline ∉ line ++ s.buffer := by
        intro member
        rcases List.mem_append.1 member with member | member
        · exact clear member
        · exact cut_none found member
      dsimp only
      by_cases ended : s.ended = true
      · rw [if_pos ended]
        apply reads.finishLine now
        · rw [← bytes]
          simp
        · rw [List.append_nil]
          exact next
        · exact .inr ⟨ended, rfl, unread⟩
      · rw [if_neg ended]
        refine ⟨fun _ => ⟨?_, unread, ?_⟩, reads.first, fun gone => (by cases gone),
          reads.counted⟩
        · show s.handed.flatten ++ (line ++ s.buffer) ++ [] = s.received
          rw [List.append_nil, ← List.append_assoc]
          exact bytes
        · rcases lines with lines | ⟨gone, -, -⟩
          · exact .inl lines
          · exact absurd gone ended

/-- Steps that leave the stream and what was handed on. -/
theorem Reads.goto (reads : Reads parses s) {pc : ReadPc} {authorized : Bool}
    {abuse : IpAbuseState} (isOpen : s.isOpen = true) (none_held : s.held = [])
    (target : pc = .reading [] ∨ pc = .closed) :
    Reads parses { s with pc, authorized, abuse } := by
  have whole := reads.whole isOpen
  rcases target with rfl | rfl
  · refine ⟨fun _ => ⟨?_, List.not_mem_nil, ?_⟩, reads.first, fun gone => (by cases gone),
      reads.counted⟩
    · have bytes := whole.bytes
      rw [none_held] at bytes
      exact bytes
    · have lines := whole.lines
      rw [none_held] at lines
      exact lines
  · exact ⟨fun isOpen => (by cases isOpen), reads.first, fun gone => (by cases gone),
      reads.counted⟩

/-- An open session that stays whole has handed on the first frames. -/
theorem Unbroken.reads (whole : Unbroken s) (isOpen : s.isOpen = true)
    (counted : ∀ frame ∈ s.malformed, frame ∈ s.handed ∧ wellFormed parses frame = false) :
    Reads parses s := by
  refine ⟨fun _ => whole, ⟨_, whole.wire_eq.symm⟩, ?_, counted⟩
  intro gone
  unfold ReadSession.isOpen at isOpen
  rw [gone] at isOpen
  cases isOpen

theorem Reads.receive (reads : Reads parses s) (isOpen : s.isOpen = true)
    (running : s.ended = false) (chunk : List UInt8) :
    Reads parses { s with received := s.received ++ chunk, buffer := s.buffer ++ chunk } := by
  have whole := reads.whole isOpen
  refine Unbroken.reads ⟨?_, whole.clear, ?_⟩ isOpen reads.counted
  · show s.handed.flatten ++ s.held ++ (s.buffer ++ chunk) = s.received ++ chunk
    rw [← List.append_assoc, whole.bytes]
  · rcases whole.lines with lines | ⟨ended, -⟩
    · exact .inl lines
    · rw [running] at ended
      cases ended

theorem Reads.hangUp (reads : Reads parses s) (isOpen : s.isOpen = true) :
    Reads parses { s with ended := true } := by
  have whole := reads.whole isOpen
  refine Unbroken.reads ⟨whole.bytes, whole.clear, ?_⟩ isOpen reads.counted
  rcases whole.lines with lines | ⟨ended, done, all⟩
  · exact .inl lines
  · right
    refine ⟨rfl, done, all.trans ?_⟩
    unfold ReadSession.wire
    rw [ended]

theorem isOpen_of_reading {line : List UInt8} (there : s.pc = .reading line) :
    s.isOpen = true := by
  unfold ReadSession.isOpen
  rw [there]

theorem isOpen_of_handling (there : s.pc = .handling) : s.isOpen = true := by
  unfold ReadSession.isOpen
  rw [there]

theorem held_of_handling (there : s.pc = .handling) : s.held = [] := by
  unfold ReadSession.held
  rw [there]

theorem step_poll {now : Nat} (stepped : s.step config parses (.poll now) = some s') :
    ∃ line, s.pc = .reading line ∧ s' = s.poll config parses line now := by
  unfold ReadSession.step at stepped
  cases there : s.pc with
  | reading line =>
      rw [there] at stepped
      exact ⟨line, rfl, (Option.some.inj stepped).symm⟩
  | handling => rw [there] at stepped; cases stepped
  | disconnected => rw [there] at stepped; cases stepped
  | closed => rw [there] at stepped; cases stepped

theorem step_job {written : Bool} (stepped : s.step config parses (.job written) = some s') :
    s.isOpen = true ∧ s' = { s with pc := if written then .reading [] else .closed } := by
  unfold ReadSession.step at stepped
  cases there : s.pc with
  | reading line =>
      rw [there] at stepped
      dsimp only at stepped
      split at stepped
      · exact ⟨isOpen_of_reading there, (Option.some.inj stepped).symm⟩
      · cases stepped
  | handling => rw [there] at stepped; cases stepped
  | disconnected => rw [there] at stepped; cases stepped
  | closed => rw [there] at stepped; cases stepped

theorem step_answered {authorizes closes : Bool} {now : Nat}
    (stepped : s.step config parses (.answered authorizes closes now) = some s') :
    s.pc = .handling ∧ ∃ authorized abuse pc, (pc = .reading [] ∨ pc = .closed) ∧
      s' = { s with authorized, abuse, pc } := by
  unfold ReadSession.step at stepped
  cases there : s.pc with
  | handling =>
      rw [there] at stepped
      refine ⟨rfl, _, _, _, ?_, (Option.some.inj stepped).symm⟩
      split
      · exact .inr rfl
      · exact .inl rfl
  | reading line => rw [there] at stepped; cases stepped
  | disconnected => rw [there] at stepped; cases stepped
  | closed => rw [there] at stepped; cases stepped

theorem step_receive {chunk : List UInt8}
    (stepped : s.step config parses (.receive chunk) = some s') :
    (s.isOpen = true ∧ s.ended = false) ∧
      s' = { s with received := s.received ++ chunk, buffer := s.buffer ++ chunk } := by
  change (if _ then some _ else none) = some s' at stepped
  split at stepped
  · rename_i accepted
    exact ⟨by simpa using accepted, (Option.some.inj stepped).symm⟩
  · cases stepped

theorem step_hangUp (stepped : s.step config parses .hangUp = some s') :
    s.isOpen = true ∧ s' = { s with ended := true } := by
  change (if _ then some _ else none) = some s' at stepped
  split at stepped
  · rename_i isOpen
    exact ⟨isOpen, (Option.some.inj stepped).symm⟩
  · cases stepped

theorem Reads.step {event : ReadEvent} (reads : Reads parses s) (uncut : NoCut s event)
    (stepped : s.step config parses event = some s') : Reads parses s' := by
  cases event with
  | receive chunk =>
      obtain ⟨⟨isOpen, running⟩, rfl⟩ := step_receive stepped
      exact reads.receive isOpen running chunk
  | hangUp =>
      obtain ⟨isOpen, rfl⟩ := step_hangUp stepped
      exact reads.hangUp isOpen
  | poll now =>
      obtain ⟨line, there, rfl⟩ := step_poll stepped
      exact reads.poll there now
  | job written =>
      obtain ⟨isOpen, rfl⟩ := step_job stepped
      apply reads.goto isOpen (List.isEmpty_iff.1 uncut)
      cases written
      · exact .inr rfl
      · exact .inl rfl
  | answered authorizes closes now =>
      obtain ⟨there, authorized, abuse, pc, target, rfl⟩ := step_answered stepped
      exact reads.goto (isOpen_of_handling there) (held_of_handling there) target
  | offences abuse =>
      cases stepped
      exact ⟨fun isOpen => ⟨(reads.whole isOpen).bytes, (reads.whole isOpen).clear,
        (reads.whole isOpen).lines⟩, reads.first, reads.last, reads.counted⟩

theorem reads_known (reached : (readLoop config parses).Reaches NoCut s) : Reads parses s := by
  apply reached.invariant
  · rintro _ ⟨abuse, rfl⟩
    refine Unbroken.reads ⟨rfl, List.not_mem_nil, .inl ?_⟩ rfl ?_
    · intro frame member
      cases member
    · intro frame member
      cases member
  · intro s event s' _ reads uncut stepped
    exact reads.step uncut stepped

/-- **Framing.**  In every run in which no job arrives over an unfinished line, nothing of the
byte stream is lost. -/
theorem frames_read (reached : (readLoop config parses).Reaches NoCut s) : Framed parses s :=
  (reads_known reached).framed

namespace Sample

def abuseConfig : AbuseConfig := ⟨8, 20, 100, 600⟩

/-- A reader of the one request `{}`. -/
def parsesEmpty (text : String) : Bool := decide (text = "{}")

/-- A session that authorized with its first request. -/
def authorizedReader : List ReadEvent :=
  [.receive [0x7b, 0x7d, 0x0a], .poll 0, .answered true false 0]

/-- The same request again, cut into two reads; `between` comes between them. -/
def cutRequest (between : List ReadEvent) : List ReadEvent :=
  [.receive [0x7b], .poll 1] ++ between ++ [.receive [0x7d, 0x0a], .poll 2]

end Sample

/-- A line cut into two reads, and a job before the first of them. -/
theorem frames_read_sample :
    ∃ s, (readLoop Sample.abuseConfig Sample.parsesEmpty).Reaches NoCut s ∧
      s.handed = [[0x7b, 0x7d, 0x0a], [0x7b, 0x7d, 0x0a]] ∧ Framed Sample.parsesEmpty s := by
  obtain ⟨s, reached, shown⟩ := Machine.exists_of_runUnder
    (readLoop Sample.abuseConfig Sample.parsesEmpty) NoCut
    (s := .connect ⟨0, 0, 0, none⟩) ⟨_, rfl⟩
    (Sample.authorizedReader ++ [.job true] ++ Sample.cutRequest [])
    (fun s => decide (s.handed = [[0x7b, 0x7d, 0x0a], [0x7b, 0x7d, 0x0a]])) (by decide +kernel)
  exact ⟨s, reached, of_decide_eq_true shown, frames_read reached⟩

/-- A job between the two reads of a line: what is handed on was never on the wire, and is
counted as malformed. -/
theorem frames_cut :
    ¬ ∀ s, (readLoop Sample.abuseConfig Sample.parsesEmpty).Reachable s →
      Framed Sample.parsesEmpty s := by
  intro claimed
  obtain ⟨s, reached, shown⟩ := Machine.exists_of_run
    (readLoop Sample.abuseConfig Sample.parsesEmpty)
    (s := .connect ⟨0, 0, 0, none⟩) ⟨_, rfl⟩
    (Sample.authorizedReader ++ Sample.cutRequest [.job true])
    (fun s => decide (s.malformed = [[0x7d, 0x0a]]) &&
      decide (s.wire = [[0x7b, 0x7d, 0x0a], [0x7b, 0x7d, 0x0a]])) (by decide +kernel)
  obtain ⟨malformed, wire⟩ := Bool.and_eq_true_iff.1 shown
  have counted := (claimed s reached).counted [0x7d, 0x0a]
  rw [of_decide_eq_true malformed, of_decide_eq_true wire] at counted
  have onWire := (counted (List.mem_singleton_self _)).1
  revert onWire
  decide

/-! ## Lost bytes -/

namespace ReadSession

def inHand (s : ReadSession) : Nat :=
  s.handed.flatten.length + s.held.length + s.buffer.length

end ReadSession

theorem finishLine_inHand (config : AbuseConfig) (parses : String → Bool) (s : ReadSession)
    (frame buffer : List UInt8) (now : Nat) :
    (s.finishLine config parses frame buffer now).received = s.received ∧
      (s.finishLine config parses frame buffer now).inHand ≤
        s.handed.flatten.length + frame.length + buffer.length := by
  have flat : (s.handed ++ [frame]).flatten.length = s.handed.flatten.length + frame.length := by
    simp
  unfold ReadSession.finishLine
  split
  · refine ⟨rfl, ?_⟩
    show s.handed.flatten.length + 0 + buffer.length ≤ _
    omega
  · split
    · refine ⟨rfl, ?_⟩
      show s.handed.flatten.length + 0 + buffer.length ≤ _
      omega
    · split
      · refine ⟨rfl, ?_⟩
        show (s.handed ++ [frame]).flatten.length + 0 + buffer.length ≤ _
        omega
      · rcases s.abuse.recordOffense config .malformedFrame now with ⟨banned, abuse⟩
        refine ⟨rfl, ?_⟩
        cases banned
        all_goals
          show (s.handed ++ [frame]).flatten.length + 0 + buffer.length ≤ _
          omega

theorem poll_inHand (config : AbuseConfig) (parses : String → Bool) {line : List UInt8}
    (there : s.pc = .reading line) (now : Nat) :
    (s.poll config parses line now).received = s.received ∧
      (s.poll config parses line now).inHand ≤ s.inHand := by
  have inHand : s.inHand = s.handed.flatten.length + line.length + s.buffer.length := by
    unfold ReadSession.inHand ReadSession.held
    rw [there]
  unfold ReadSession.poll
  cases found : cut newline s.buffer with
  | some parts =>
      obtain ⟨head, rest⟩ := parts
      have bound := finishLine_inHand config parses s (line ++ head) rest now
      have split : s.buffer.length = head.length + rest.length := by
        rw [(cut_some found).1, List.length_append]
      rw [List.length_append] at bound
      refine ⟨bound.1, ?_⟩
      have := bound.2
      dsimp only
      omega
  | none =>
      dsimp only
      split
      · have bound := finishLine_inHand config parses s (line ++ s.buffer) [] now
        rw [List.length_append, List.length_nil] at bound
        refine ⟨bound.1, ?_⟩
        have := bound.2
        omega
      · refine ⟨rfl, ?_⟩
        show s.handed.flatten.length + (line ++ s.buffer).length + 0 ≤ _
        rw [List.length_append]
        omega

/-- A new line or a closed session has nothing of a line in hand. -/
theorem goto_inHand (s : ReadSession) {pc : ReadPc} (authorized : Bool) (abuse : IpAbuseState)
    (target : pc = .reading [] ∨ pc = .closed) :
    ReadSession.inHand { s with pc, authorized, abuse } + s.held.length = s.inHand := by
  have none_held : ReadSession.held { s with pc, authorized, abuse } = [] := by
    rcases target with rfl | rfl <;> rfl
  unfold ReadSession.inHand
  rw [none_held, List.length_nil]
  dsimp only
  omega

theorem job_inHand {written : Bool} (stepped : s.step config parses (.job written) = some s') :
    s'.received = s.received ∧ s'.inHand + s.held.length = s.inHand := by
  obtain ⟨-, rfl⟩ := step_job stepped
  refine ⟨rfl, goto_inHand s s.authorized s.abuse ?_⟩
  cases written
  · exact .inr rfl
  · exact .inl rfl

/-- What is lost stays lost. -/
theorem step_inHand {event : ReadEvent} (stepped : s.step config parses event = some s') :
    s'.inHand + s.received.length ≤ s.inHand + s'.received.length := by
  cases event with
  | receive chunk =>
      obtain ⟨-, rfl⟩ := step_receive stepped
      show s.handed.flatten.length + s.held.length + (s.buffer ++ chunk).length + _ ≤
        _ + (s.received ++ chunk).length
      unfold ReadSession.inHand
      simp only [List.length_append]
      omega
  | hangUp =>
      obtain ⟨-, rfl⟩ := step_hangUp stepped
      exact Nat.le_refl _
  | poll now =>
      obtain ⟨line, there, rfl⟩ := step_poll stepped
      have bound := poll_inHand config parses there now
      rw [bound.1]
      have := bound.2
      omega
  | job written =>
      have lost := job_inHand stepped
      rw [lost.1]
      omega
  | answered authorizes closes now =>
      obtain ⟨-, authorized, abuse, pc, target, rfl⟩ := step_answered stepped
      have lost := goto_inHand s authorized abuse target
      show ReadSession.inHand _ + s.received.length ≤ s.inHand + s.received.length
      omega
  | offences abuse =>
      cases stepped
      exact Nat.le_refl _

theorem inHand_le (reached : (readLoop config parses).Reachable s) :
    s.inHand ≤ s.received.length := by
  apply reached.invariant
  · rintro _ ⟨abuse, rfl⟩
    exact Nat.le_refl _
  · intro s event s' _ bound _ stepped
    have kept := step_inHand stepped
    omega

/-- The condition is exact for the bytes: after a job over an unfinished line no open session
has the whole stream again. -/
theorem cut_loses_bytes {written : Bool} {t : ReadSession}
    (reached : (readLoop config parses).Reachable s)
    (stepped : (readLoop config parses).step s (.job written) = some s')
    (cut : ¬ NoCut s (.job written))
    (later : ((readLoop config parses).startingAt s').Reachable t) :
    t.handed.flatten ++ t.held ++ t.buffer ≠ t.received := by
  have unfinished : 0 < s.held.length := by
    apply List.length_pos_of_ne_nil
    intro nothing
    exact cut (List.isEmpty_iff.2 nothing)
  have short : t.inHand < t.received.length := by
    apply later.invariant
    · rintro _ rfl
      have bound := inHand_le reached
      have lost := @job_inHand config parses s _ written stepped
      rw [lost.1]
      omega
    · intro _ _ _ _ short _ stepped
      have kept := step_inHand stepped
      omega
  intro whole
  apply Nat.ne_of_lt short
  rw [← whole, List.length_append, List.length_append]
  rfl

end CsdPool.Bridge
