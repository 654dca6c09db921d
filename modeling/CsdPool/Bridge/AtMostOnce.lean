/-
# Bridge.AtMostOnce — a candidate goes to the secondary at most once

A call that sends stands behind a marker it created itself and synced; a marker is created
where none stands, and a synced one stays.  So two sends behind one marker are one call's, and
a call sends once (`apart`).  Everything else that may happen takes claims away: a claim that
timed out is a failed claim whatever its thread does later, a write error leaves the marker
and refuses everyone, a power loss takes markers no send stands behind.

`secondary_at_most_once` counts: one send at all behind the latch, one for each hash behind
the journal, whose key is the hash in one spelling.
-/
import CsdPool.Bridge.SecondaryClaim

namespace CsdPool.Bridge

open Theory (Keyed Table Machine Mark Marks)

set_option autoImplicit false

variable {control : SecondaryCandidateControl} {s s' : SecondaryState}

/-! ## Claims -/

/-- A claim that was granted stands behind a marker its call keeps. -/
def ClaimGrounded (control : SecondaryCandidateControl) (files : Marks (Option String)) (id : Nat)
    (candidateHash : String) (claim : SecondaryCandidateClaim) : Prop :=
  claim.claimed = true → control.accepts candidateHash = true ∧
    files.Kept (control.marker candidateHash) id ∧ claim.error = none

/-- What the thread of a claim has done so far. -/
def ThreadGrounded (control : SecondaryCandidateControl) (files : Marks (Option String)) (id : Nat)
    (candidateHash : String) : ClaimPc → Prop
  | .queued => True
  | .opening _ => control.accepts candidateHash = true
  | .created _ | .written _ | .synced _ =>
      control.accepts candidateHash = true ∧ files.Owns (control.marker candidateHash) id
  | .returned claim => ClaimGrounded control files id candidateHash claim

theorem ClaimGrounded.grow {files files' : Marks (Option String)} {id : Nat} {hash : String}
    {claim : SecondaryCandidateClaim} (grounded : ClaimGrounded control files id hash claim)
    (grows : files.Grows files') : ClaimGrounded control files' id hash claim := by
  intro claimed
  obtain ⟨accepted, kept, clean⟩ := grounded claimed
  exact ⟨accepted, grows.kept _ _ kept, clean⟩

theorem ThreadGrounded.grow {files files' : Marks (Option String)} {id : Nat} {hash : String}
    {thread : ClaimPc} (grounded : ThreadGrounded control files id hash thread)
    (grows : files.Grows files') : ThreadGrounded control files' id hash thread := by
  cases thread with
  | queued => trivial
  | opening _ => exact grounded
  | created _ => exact ⟨grounded.1, grows.owns _ _ grounded.2⟩
  | written _ => exact ⟨grounded.1, grows.owns _ _ grounded.2⟩
  | synced _ => exact ⟨grounded.1, grows.owns _ _ grounded.2⟩
  | returned _ => exact ClaimGrounded.grow grounded grows

theorem failed_unclaimed (hash error : String) : (control.failed hash error).claimed = false := by
  cases control <;> rfl

/-- A claim is granted by a creation that was persisted. -/
theorem claimOf_claimed {hash : String} {before : Nat} {opened : Opened}
    {persisted : Except String Unit}
    (claimed : (control.claimOf hash before opened persisted).claimed = true) :
    opened = .created ∧ persisted = .ok () ∧
      (control.claimOf hash before opened persisted).error = none := by
  cases control with
  | oneShot budget latch =>
      cases opened with
      | created =>
          cases persisted with
          | ok _ => exact ⟨rfl, rfl, rfl⟩
          | error _ => cases claimed
      | alreadyExists => cases claimed
      | failed _ => cases claimed
  | continuousBounded journal =>
      cases opened with
      | created =>
          cases persisted with
          | ok _ => exact ⟨rfl, rfl, rfl⟩
          | error _ => cases claimed
      | alreadyExists => cases claimed
      | failed _ => cases claimed

/-- **One step of a claim's thread**: it stays grounded, and takes nothing from anyone. -/
theorem claimStep_grounded {call : SubmitCall} {io : Except String Unit}
    {files files' : Marks (Option String)} {thread thread' : ClaimPc}
    (grounded : ThreadGrounded control files call.id call.candidateHash thread)
    (stepped : claimStep control call io files thread = some (thread', files')) :
    ThreadGrounded control files' call.id call.candidateHash thread' ∧ files.Grows files' := by
  have refused : ∀ before opened persisted, opened ≠ .created ∨ persisted ≠ .ok () →
      ClaimGrounded control files call.id call.candidateHash
        (control.claimOf call.candidateHash before opened persisted) := by
    intro before opened persisted failed claimed
    obtain ⟨created, ok, -⟩ := claimOf_claimed claimed
    rcases failed with wrong | wrong
    · exact absurd created wrong
    · exact absurd ok wrong
  cases thread with
  | queued =>
      unfold claimStep at stepped
      dsimp only at stepped
      split at stepped
      · rename_i accepted
        cases stepped
        exact ⟨accepted, Marks.Grows.refl _⟩
      · cases stepped
        exact ⟨fun claimed => (by cases claimed), Marks.Grows.refl _⟩
  | opening before =>
      unfold claimStep at stepped
      cases io with
      | error error =>
          cases stepped
          exact ⟨refused _ _ _ (.inl (by simp)), Marks.Grows.refl _⟩
      | ok _ =>
          dsimp only at stepped
          cases stands : files (control.marker call.candidateHash) with
          | some mark =>
              rw [stands] at stepped
              cases stepped
              exact ⟨refused _ _ _ (.inl (by simp)), Marks.Grows.refl _⟩
          | none =>
              rw [stands] at stepped
              cases stepped
              exact ⟨⟨grounded, Marks.owns_create _ _ _⟩, Marks.grows_create stands _⟩
  | created before =>
      unfold claimStep at stepped
      cases io with
      | error error =>
          cases stepped
          exact ⟨refused _ _ _ (.inr (by simp)), Marks.Grows.refl _⟩
      | ok _ =>
          cases stepped
          exact ⟨grounded, Marks.Grows.refl _⟩
  | written before =>
      unfold claimStep at stepped
      cases io with
      | error error =>
          cases stepped
          exact ⟨refused _ _ _ (.inr (by simp)), Marks.Grows.refl _⟩
      | ok _ =>
          cases stepped
          exact ⟨grounded, Marks.Grows.refl _⟩
  | synced before =>
      unfold claimStep at stepped
      cases io with
      | error error =>
          cases stepped
          exact ⟨refused _ _ _ (.inr (by simp)), Marks.Grows.refl _⟩
      | ok _ =>
          cases stepped
          refine ⟨?_, Marks.grows_sync _ _⟩
          intro claimed
          exact ⟨grounded.1, Marks.kept_sync grounded.2, (claimOf_claimed claimed).2.2⟩
  | returned _ => cases stepped

/-! ## The invariant -/

/-- What a call has in hand. -/
structure CallGrounded (control : SecondaryCandidateControl) (s : SecondaryState)
    (call : SubmitCall) : Prop where
  known : call.id < s.nextId
  thread : ∀ thread, call.claim = some thread →
    ThreadGrounded control s.files call.id call.candidateHash thread
  decided : ∀ claim, call.pc = .decided claim →
    ClaimGrounded control s.files call.id call.candidateHash claim
  unsent : call.pc ≠ .finished → ∀ x ∈ s.sent, x.call ≠ call.id

structure SentGrounded (control : SecondaryCandidateControl) (s : SecondaryState)
    (x : SentCandidate) : Prop where
  known : x.call < s.nextId
  claimed : x.claim.claimed = true
  grounded : ClaimGrounded control s.files x.call x.candidateHash x.claim

structure Grounded (control : SecondaryCandidateControl) (s : SecondaryState) : Prop where
  calls : ∀ call ∈ s.calls.rows, CallGrounded control s call
  sent : ∀ x ∈ s.sent, SentGrounded control s x
  apart : s.sent.Pairwise fun x y =>
    control.marker x.candidateHash ≠ control.marker y.candidateHash

theorem CallGrounded.grow {call : SubmitCall} (grounded : CallGrounded control s call)
    (ids : s.nextId ≤ s'.nextId) (grows : s.files.Grows s'.files)
    (sent : s'.sent = s.sent) : CallGrounded control s' call := by
  refine ⟨Nat.lt_of_lt_of_le grounded.known ids, ?_, ?_, ?_⟩
  · intro thread here
    exact (grounded.thread thread here).grow grows
  · intro claim here
    exact (grounded.decided claim here).grow grows
  · rw [sent]
    exact grounded.unsent

/-- A step that changes one call, and lets the files grow. -/
theorem Grounded.put (grounded : Grounded control s) {call : SubmitCall} {nextId : Nat}
    {files : Marks (Option String)} (ids : s.nextId ≤ nextId) (grows : s.files.Grows files)
    (changed : CallGrounded control { s with nextId, files } call) :
    Grounded control { s with calls := s.calls.put call, nextId, files } := by
  refine ⟨?_, ?_, grounded.apart⟩
  · intro other member
    rcases Table.mem_put.1 member with rfl | ⟨before, -⟩
    · exact ⟨changed.known, changed.thread, changed.decided, changed.unsent⟩
    · exact (grounded.calls other before).grow ids grows rfl
  · intro x member
    have before := grounded.sent x member
    exact ⟨Nat.lt_of_lt_of_le before.known ids, before.claimed, before.grounded.grow grows⟩

/-- A call goes on without a claim of its own in the files. -/
theorem Grounded.move (grounded : Grounded control s) {call call' : SubmitCall}
    (member : call ∈ s.calls.rows) (id : call'.id = call.id)
    (hash : call'.candidateHash = call.candidateHash)
    (thread : ∀ thread, call'.claim = some thread → call.claim = some thread ∨ thread = .queued)
    (decided : ∀ claim, call'.pc = .decided claim →
      call.claim = some (.returned claim) ∨ claim.claimed = false)
    (going : call'.pc ≠ .finished → call.pc ≠ .finished) : Grounded control (s.put call') := by
  have before := grounded.calls call member
  apply grounded.put (Nat.le_refl _) (Marks.Grows.refl _)
  refine ⟨by rw [id]; exact before.known, ?_, ?_, ?_⟩
  · intro thread' here
    rw [id, hash]
    rcases thread thread' here with same | rfl
    · exact before.thread thread' same
    · trivial
  · intro claim here claimed
    rw [id, hash]
    rcases decided claim here with returned | refused
    · exact before.thread _ returned claimed
    · rw [refused] at claimed
      cases claimed
  · intro running
    rw [id]
    exact before.unsent (going running)

/-- The one step that sends. -/
theorem Grounded.send (grounded : Grounded control s) {call : SubmitCall}
    {claim : SecondaryCandidateClaim} (member : call ∈ s.calls.rows)
    (here : call.pc = .decided claim) (claimed : claim.claimed = true) :
    Grounded control { s.put { call with pc := .finished } with
      sent := s.sent ++ [⟨call.id, call.candidateHash, claim⟩] } := by
  have mine := grounded.calls call member
  have kept := mine.decided claim here claimed
  have unsent := mine.unsent (by rw [here]; simp)
  refine ⟨?_, ?_, ?_⟩
  · intro other there
    rcases Table.mem_put.1 there with rfl | ⟨before, apart⟩
    · refine ⟨mine.known, mine.thread, ?_, fun running => absurd rfl running⟩
      intro claim' wrong
      cases wrong
    · have theirs := grounded.calls other before
      refine ⟨theirs.known, theirs.thread, theirs.decided, ?_⟩
      intro running x inSent
      rcases List.mem_append.1 inSent with old | new
      · exact theirs.unsent running x old
      · rw [List.mem_singleton.1 new]
        exact fun same => apart same.symm
  · intro x inSent
    rcases List.mem_append.1 inSent with old | new
    · exact ⟨(grounded.sent x old).known, (grounded.sent x old).claimed,
        (grounded.sent x old).grounded⟩
    · cases List.mem_singleton.1 new
      exact ⟨mine.known, claimed, fun _ => kept⟩
  · apply List.pairwise_append.2
    refine ⟨grounded.apart, List.pairwise_singleton _ _, ?_⟩
    intro x old y new same
    cases List.mem_singleton.1 new
    have theirs := (grounded.sent x old).grounded (grounded.sent x old).claimed
    have owner : x.call = call.id := by
      apply Marks.owns_unique theirs.2.1.owns
      rw [show control.marker x.candidateHash = control.marker call.candidateHash from same]
      exact kept.2.1.owns
    exact unsent x old owner

theorem eligible_claim {claim : SecondaryCandidateClaim} {health : Except String Unit}
    (eligible : eligibility control claim health = .ok ()) : claim.claimed = true := by
  unfold eligibility at eligible
  split at eligible
  · cases eligible
  · split at eligible
    · cases eligible
    · rename_i claimed
      simpa using claimed

theorem Grounded.step {event : SecondaryEvent} (grounded : Grounded control s)
    (stepped : s.step control event = some s') : Grounded control s' := by
  unfold SecondaryState.step at stepped
  cases event with
  | begin process hash =>
      cases stepped
      apply grounded.put (Nat.le_succ _) (Marks.Grows.refl _)
      refine ⟨Nat.lt_succ_self _, fun thread here => (by cases here),
        fun claim here => (by cases here), ?_⟩
      intro _ x member
      exact Nat.ne_of_lt (grounded.sent x member).known
  | gate id refused =>
      dsimp only at stepped
      split at stepped
      · rename_i id process hash found
        have member := Table.mem_of_find? found
        split at stepped
        · cases stepped
          exact grounded.move member rfl rfl (fun thread here => (by cases here))
            (fun claim here => (by cases here)) (fun running => absurd rfl running)
        · cases stepped
          refine grounded.move member rfl rfl ?_ (fun claim here => (by cases here)) (by simp)
          intro thread here
          exact .inr (Option.some.inj here).symm
      · cases stepped
  | claim id io =>
      dsimp only at stepped
      split at stepped
      · rename_i call found
        have member := Table.mem_of_find? found
        have before := grounded.calls call member
        split at stepped
        · rename_i thread here
          obtain ⟨⟨thread', files⟩, moved, rfl⟩ := Option.map_eq_some_iff.1 stepped
          obtain ⟨after, grows⟩ := claimStep_grounded (before.thread thread here) moved
          apply grounded.put (Nat.le_refl _) grows
          refine ⟨before.known, ?_, ?_, before.unsent⟩
          · intro thread' there
            cases there
            exact after
          · intro claim there
            exact (before.decided claim there).grow grows
        · cases stepped
      · cases stepped
  | claimReturned id =>
      dsimp only at stepped
      split at stepped
      · rename_i id process hash claim found
        have member := Table.mem_of_find? found
        cases stepped
        refine grounded.move member rfl rfl (fun thread here => .inl here) ?_ (by simp)
        intro claim' here
        cases here
        exact .inl rfl
      · cases stepped
  | claimTimedOut id error =>
      dsimp only at stepped
      split at stepped
      · rename_i id process hash thread found
        have member := Table.mem_of_find? found
        cases stepped
        refine grounded.move member rfl rfl (fun thread here => .inl here) ?_ (by simp)
        intro claim' here
        cases here
        exact .inr (failed_unclaimed hash error)
      · cases stepped
  | decide id health =>
      dsimp only at stepped
      split at stepped
      · rename_i id process hash thread claim found
        have member := Table.mem_of_find? found
        split at stepped
        · rename_i eligible
          cases stepped
          exact grounded.send member rfl (eligible_claim eligible)
        · cases stepped
          exact grounded.move member rfl rfl (fun thread here => .inl here)
            (fun claim here => (by cases here)) (fun running => absurd rfl running)
      · cases stepped
  | crash process =>
      cases stepped
      refine ⟨?_, ?_, grounded.apart⟩
      · intro call member
        have before := grounded.calls call (Table.mem_filter.1 member).1
        exact ⟨before.known, before.thread, before.decided, before.unsent⟩
      · intro x member
        have before := grounded.sent x member
        exact ⟨before.known, before.claimed, before.grounded⟩
  | powerLoss lost =>
      cases stepped
      refine ⟨fun call member => (by cases member), ?_, grounded.apart⟩
      intro x member
      have before := grounded.sent x member
      refine ⟨before.known, before.claimed, ?_⟩
      intro claimed
      obtain ⟨accepted, kept, clean⟩ := before.grounded claimed
      exact ⟨accepted, kept.lose lost, clean⟩

theorem grounded_known (reached : (secondaryMachine control).Reachable s) :
    Grounded control s := by
  apply reached.invariant
  · rintro _ rfl
    exact ⟨fun call member => (by cases member), fun x member => (by cases member),
      List.Pairwise.nil⟩
  · intro s event s' _ grounded _ stepped
    exact grounded.step stepped

/-! ## Counting the sends -/

/-- The journal knows a hash by its number. -/
theorem marker_eq_of_hexDecode {journal hash hash' : String}
    (accepted : (SecondaryCandidateControl.continuousBounded journal).accepts hash = true)
    (number : hexDecode hash = hexDecode hash') :
    (SecondaryCandidateControl.continuousBounded journal).marker hash =
      (SecondaryCandidateControl.continuousBounded journal).marker hash' := by
  obtain ⟨length, digits⟩ := Bool.and_eq_true_iff.1 accepted
  obtain ⟨bytes, decoded⟩ := Option.isSome_iff_exists.1
    (hexDecodeChars_isSome (n := 32) (beq_iff_eq.1 length) digits)
  have here : hexDecode hash = some bytes := decoded
  have there : hexDecode hash' = some bytes := number.symm.trans here
  unfold SecondaryCandidateControl.marker
  rw [toAsciiLowercase_of_hexDecode here, toAsciiLowercase_of_hexDecode there]

/-- Of what excludes each other, at most one stands. -/
theorem length_filter_le_one {α : Type} {p : α → Bool} {xs : List α}
    (apart : xs.Pairwise fun x y => p x = true → p y = true → False) :
    (xs.filter p).length ≤ 1 := by
  induction xs with
  | nil => exact Nat.zero_le 1
  | cons x rest ih =>
      obtain ⟨head, tail⟩ := List.pairwise_cons.1 apart
      cases here : p x with
      | false =>
          rw [List.filter_cons_of_neg (by simp [here])]
          exact ih tail
      | true =>
          have others : rest.filter p = [] := by
            apply List.filter_eq_nil_iff.2
            intro y member there
            exact head y member here there
          rw [List.filter_cons_of_pos here, others]
          exact Nat.le_refl 1

/-- **At most once.**  Over any interleaving of calls, in any number of processes that share the
latch or the journal, with claims that time out, fail or are cut short, the secondary is sent
one candidate at all in `one_shot` mode and each candidate hash once in `continuous_bounded`
mode, hashes compared as numbers; and no claim that reported an error is sent. -/
theorem secondary_at_most_once (reached : (secondaryMachine control).Reachable s) :
    (control.mode = "one_shot" → s.sent.length ≤ 1) ∧
      (control.mode = "continuous_bounded" → ∀ hash : String,
        (s.sent.filter fun x => hexDecode x.candidateHash == hexDecode hash).length ≤ 1) ∧
      ∀ x ∈ s.sent, x.claim.claimed = true ∧ x.claim.error = none := by
  have grounded := grounded_known reached
  refine ⟨?_, ?_, ?_⟩
  · intro oneShot
    cases control with
    | continuousBounded journal => exact absurd oneShot (by simp [SecondaryCandidateControl.mode])
    | oneShot budget latch =>
        have single := length_filter_le_one (p := fun _ : SentCandidate => true)
          (grounded.apart.imp fun apart _ _ => apart rfl)
        rwa [List.filter_true] at single
  · intro continuous hash
    cases control with
    | oneShot budget latch => exact absurd continuous (by simp [SecondaryCandidateControl.mode])
    | continuousBounded journal =>
        apply length_filter_le_one
        apply List.Pairwise.imp_of_mem ?_ grounded.apart
        intro x y inSent _ apart sameX sameY
        have sent := grounded.sent x inSent
        exact apart (marker_eq_of_hexDecode (sent.grounded sent.claimed).1
          ((beq_iff_eq.1 sameX).trans (beq_iff_eq.1 sameY).symm))
  · intro x inSent
    have sent := grounded.sent x inSent
    exact ⟨sent.claimed, (sent.grounded sent.claimed).2.2⟩

namespace Sample

def candidateHash : String := String.ofList (List.replicate 64 'a')

def candidateHashUpper : String := String.ofList (List.replicate 64 'A')

/-- Two processes race for one hash in two spellings.  The first waits too long for its claim
and refuses; its thread goes on and finds the marker of the second, which sends; a third call
comes after the crash of both. -/
def racingCalls : List SecondaryEvent :=
  [.begin 1 candidateHash, .begin 2 candidateHashUpper, .gate 0 none, .gate 1 none,
    .claim 0 (.ok ()), .claim 1 (.ok ()), .claimTimedOut 0 "timed out", .claim 1 (.ok ()),
    .claim 0 (.ok ()), .claim 1 (.ok ()), .claim 1 (.ok ()), .claim 1 (.ok ()),
    .claimReturned 1, .decide 0 (.ok ()), .decide 1 (.ok ()), .crash 1, .crash 2,
    .begin 3 candidateHash, .gate 2 none, .claim 2 (.ok ()), .claim 2 (.ok ()),
    .claimReturned 2, .decide 2 (.ok ())]

end Sample

/-- Two calls race for one candidate, spelled in two ways, and one of them is sent. -/
theorem secondary_at_most_once_racing :
    ∃ s, (secondaryMachine (.continuousBounded "journal")).Reachable s ∧
      s.sent.map (fun x => x.candidateHash) = [Sample.candidateHashUpper] ∧
      (s.sent.filter fun x =>
        hexDecode x.candidateHash == hexDecode Sample.candidateHash).length = 1 ∧
      ∀ x ∈ s.sent, x.claim.error = none := by
  obtain ⟨s, reached, shown⟩ := Machine.exists_of_run
    (secondaryMachine (.continuousBounded "journal")) (s := .initial) rfl Sample.racingCalls
    (fun s => decide (s.sent.map (fun x => x.candidateHash) = [Sample.candidateHashUpper]) &&
      decide (0 < (s.sent.filter fun x =>
        hexDecode x.candidateHash == hexDecode Sample.candidateHash).length))
    (by decide +kernel)
  obtain ⟨sent, counted⟩ := Bool.and_eq_true_iff.1 shown
  obtain ⟨-, bounded, clean⟩ := secondary_at_most_once reached
  exact ⟨s, reached, of_decide_eq_true sent,
    Nat.le_antisymm (bounded rfl Sample.candidateHash) (of_decide_eq_true counted),
    fun x member => (clean x member).2⟩

end CsdPool.Bridge
