/-
# Adapter.DeliveryBooks — the evidence of full-block delivery adds up

The books are stated over the true numbers behind the saturating counters: the requests that came
in are those that ended and those that are pending, and no answer was written out that was not
queued, or queued that was not prepared (`Tally`).  A candidate and the node keep the same books
over different lists of pending requests, so each way a request can move is one lemma about
`Tally`.

Every call moves at most one request, of one candidate (`Sound.move`).  Only the eviction of a
candidate moves more: it ends all of its requests, which leaves the others' books as they are
(`evict_sound`).
-/
import CsdPool.Adapter.FullBlockDelivery
import CsdPool.Theory.Grouping

namespace CsdPool.Adapter.FullBlockDelivery

open Theory (Keyed Machine Table)
open Theory.Saturating (cap)

set_option autoImplicit false

/-! ## True numbers -/

/-- The ends a request can come to. -/
def ends (seen : Counter → Nat) : Nat :=
  seen .payloadWriteComplete + seen .negativeResponses + seen .timeouts +
    seen .transportFailures + seen .abnormal + seen .telemetryDrops

/-- One more of what has been seen. -/
def another (seen : Counter → Nat) (c : Counter) : Counter → Nat :=
  Function.update seen c (seen c + 1)

/-- How the true numbers go together. Every request has ended or is pending, and an answer that was
queued was prepared before, as one that was written out was queued. -/
structure Tally (seen : Counter → Nat) (responses : List PendingResponse) : Prop where
  conserved : seen .externalRequests = ends seen + responses.length
  prepared :
    seen .payloadEnqueued + responses.count .payloadPrepared ≤ seen .payloadPrepared
  enqueued :
    seen .payloadWriteComplete + responses.count .payloadEnqueued ≤ seen .payloadEnqueued

namespace Tally

variable {seen : Counter → Nat} {r : PendingResponse} {responses : List PendingResponse}

theorem perm {responses' : List PendingResponse} (tally : Tally seen responses)
    (perm : responses.Perm responses') : Tally seen responses' where
  conserved := perm.length_eq ▸ tally.conserved
  prepared := perm.count_eq _ ▸ tally.prepared
  enqueued := perm.count_eq _ ▸ tally.enqueued

theorem start : Tally (fun _ => 0) [] := ⟨rfl, le_rfl, le_rfl⟩

theorem requested (tally : Tally seen responses) :
    Tally (another seen .externalRequests) (.pending :: responses) := by
  obtain ⟨conserved, prepared, enqueued⟩ := tally
  constructor <;> simp [another, ends] at * <;> omega

/-- A request that is not taken on ends at once. -/
theorem dropped (tally : Tally seen responses) :
    Tally (another (another seen .externalRequests) .telemetryDrops) responses := by
  obtain ⟨conserved, prepared, enqueued⟩ := tally
  constructor <;> simp [another, ends] at * <;> omega

/-- An answer may be prepared in any state of its request. -/
theorem payloadPrepared (tally : Tally seen (r :: responses)) :
    Tally (another seen .payloadPrepared) (.payloadPrepared :: responses) := by
  obtain ⟨conserved, prepared, enqueued⟩ := tally
  constructor <;> simp [another, ends, List.count_cons] at * <;> omega

/-- An answer is queued with its payload only where one was prepared. -/
theorem payloadEnqueued (tally : Tally seen (.payloadPrepared :: responses)) :
    Tally (another seen .payloadEnqueued) (.payloadEnqueued :: responses) := by
  obtain ⟨conserved, prepared, enqueued⟩ := tally
  constructor <;> simp [another, ends] at * <;> omega

/-- A negative answer is queued, and no counter moves. -/
theorem negativeEnqueued (tally : Tally seen (r :: responses)) :
    Tally seen (.negativeEnqueued :: responses) := by
  obtain ⟨conserved, prepared, enqueued⟩ := tally
  constructor <;> simp [ends, List.count_cons] at * <;> omega

/-- A request ends.  It counts as written out only where a payload was queued for it. -/
theorem finished {c : Counter} (tally : Tally seen (r :: responses))
    (terminal : c ∈ [Counter.payloadWriteComplete, .negativeResponses, .timeouts,
      .transportFailures, .abnormal])
    (written : c = .payloadWriteComplete → r = .payloadEnqueued) :
    Tally (another seen c) responses := by
  obtain ⟨conserved, prepared, enqueued⟩ := tally
  simp only [List.mem_cons, List.not_mem_nil, or_false] at terminal
  rcases terminal with rfl | rfl | rfl | rfl | rfl
  · obtain rfl := written rfl
    constructor <;> simp [another, ends] at * <;> omega
  all_goals constructor <;> simp [another, ends, List.count_cons] at * <;> omega

end Tally

/-! ## Counters -/

/-- What the counters show are the numbers of some books. -/
def Balanced (counters : Counters) (responses : List PendingResponse) : Prop :=
  ∃ seen : Counter → Nat, (∀ c, counters c = cap u64Max (seen c)) ∧ Tally seen responses

namespace Balanced

variable {counters : Counters} {responses responses' : List PendingResponse}

theorem perm (balanced : Balanced counters responses) (perm : responses.Perm responses') :
    Balanced counters responses' := by
  obtain ⟨seen, shown, tally⟩ := balanced
  exact ⟨seen, shown, tally.perm perm⟩

theorem start : Balanced (fun _ => 0) [] :=
  ⟨fun _ => 0, fun _ => Theory.Saturating.cap_zero.symm, .start⟩

/-- The counters keep up with the numbers. -/
theorem bump_shows {seen : Counter → Nat} (shown : ∀ c, counters c = cap u64Max (seen c))
    (c x : Counter) : counters.bump c x = cap u64Max (another seen c x) := by
  unfold Counters.bump another
  by_cases same : x = c
  · subst same
    rw [Function.update_self, Function.update_self, shown, oneMore,
      Theory.Saturating.add_one_cap]
  · rw [Function.update_of_ne same, Function.update_of_ne same, shown]

/-- A counter moves with the number it shows. -/
theorem bump {c : Counter} (balanced : Balanced counters responses)
    (moves : ∀ seen, Tally seen responses → Tally (another seen c) responses') :
    Balanced (counters.bump c) responses' := by
  obtain ⟨seen, shown, tally⟩ := balanced
  exact ⟨another seen c, bump_shows shown c, moves seen tally⟩

theorem dropped (balanced : Balanced counters responses) :
    Balanced ((counters.bump .externalRequests).bump .telemetryDrops) responses := by
  obtain ⟨seen, shown, tally⟩ := balanced
  exact ⟨_, bump_shows (bump_shows shown .externalRequests) .telemetryDrops, tally.dropped⟩

theorem negativeEnqueued {r : PendingResponse} (balanced : Balanced counters (r :: responses)) :
    Balanced counters (.negativeEnqueued :: responses) := by
  obtain ⟨seen, shown, tally⟩ := balanced
  exact ⟨seen, shown, tally.negativeEnqueued⟩

/-- The terminal total shows the number of ends. -/
theorem terminalTotal_shows {seen : Counter → Nat}
    (shown : ∀ c, counters c = cap u64Max (seen c)) :
    terminalTotal counters = cap u64Max (ends seen) := by
  simp only [terminalTotal, shown, Theory.Saturating.add_cap, ends]

/-- The counters add up also where some of them have reached their end. -/
theorem conservationOk_eq (balanced : Balanced counters responses) :
    conservationOk counters responses.length = true := by
  obtain ⟨seen, shown, tally⟩ := balanced
  rw [conservationOk, terminalTotal_shows shown, Theory.Saturating.add_cap_left, shown,
    tally.conserved]
  exact beq_self_eq_true _

/-- No more was queued than prepared. -/
theorem enqueued_le (balanced : Balanced counters responses) :
    counters .payloadEnqueued ≤ counters .payloadPrepared := by
  obtain ⟨seen, shown, tally⟩ := balanced
  rw [shown, shown]
  exact Theory.Saturating.cap_le (Nat.le_of_add_right_le tally.prepared)

/-- No more was written out than queued. -/
theorem written_le (balanced : Balanced counters responses) :
    counters .payloadWriteComplete ≤ counters .payloadEnqueued := by
  obtain ⟨seen, shown, tally⟩ := balanced
  rw [shown, shown]
  exact Theory.Saturating.cap_le (Nat.le_of_add_right_le tally.enqueued)

/-- A counter shows nothing where there is nothing. -/
theorem cap_eq_zero {n : Nat} : cap u64Max n = 0 ↔ n = 0 := by
  simp only [cap, u64Max]
  omega

/-- Without a request nothing has ended. -/
theorem terminalTotal_le (balanced : Balanced counters responses) (quiet :
    counters .externalRequests = 0) : terminalTotal counters = 0 := by
  obtain ⟨seen, shown, tally⟩ := balanced
  rw [shown, cap_eq_zero, tally.conserved] at quiet
  rw [terminalTotal_shows shown, cap_eq_zero]
  exact (Nat.add_eq_zero_iff.1 quiet).1

end Balanced

theorem terminalTotal_eq_zero (counters : Counters) :
    terminalTotal counters = 0 ↔ counters .payloadWriteComplete = 0 ∧
      counters .negativeResponses = 0 ∧ counters .timeouts = 0 ∧
      counters .transportFailures = 0 ∧ counters .abnormal = 0 ∧
      counters .telemetryDrops = 0 := by
  simp only [terminalTotal, Theory.Saturating.add, u64Max]
  omega

/-- What the classification says of the counters: nothing ended; or payloads were written out and
nothing else ended. -/
theorem classify_text (counters : Counters) :
    ((classify counters).text = "NOT_OBSERVABLE_PROTOCOL_NO_ACK" ↔
      terminalTotal counters = 0 ∧ counters .externalRequests = 0) ∧
    ((classify counters).text = "EXTERNAL_PEER_REQUEST_OBSERVED" ↔
      terminalTotal counters = 0 ∧ 0 < counters .externalRequests) ∧
    ((classify counters).text = "DELIVERY_ATTEMPT_ONLY" →
      0 < counters .payloadWriteComplete ∧
        terminalTotal counters = min (counters .payloadWriteComplete) u64Max) := by
  rw [terminalTotal_eq_zero]
  simp only [classify, Bool.or_eq_true, decide_eq_true_eq, gt_iff_lt]
  split
  · refine ⟨?_, ?_, ?_⟩ <;> simp [Classification.text] <;> omega
  · split
    · refine ⟨?_, ?_, ?_⟩ <;>
        simp [Classification.text, terminalTotal, Theory.Saturating.add] <;> omega
    · split <;> refine ⟨?_, ?_, ?_⟩ <;> simp [Classification.text] <;> omega

/-! ## One candidate -/

/-- A candidate's evidence, over the pending requests that name it. -/
structure Accounts (candidate : CandidateEvidence) (responses : List PendingResponse) : Prop where
  balanced : Balanced candidate.counters responses
  outstanding : candidate.outstanding = responses.length
  requested :
    candidate.firstRequestLatencyUs.isSome = decide (0 < candidate.counters .externalRequests)
  written : candidate.firstWriteCompleteLatencyUs.isSome =
    decide (0 < candidate.counters .payloadWriteComplete)

theorem Accounts.perm {candidate : CandidateEvidence} {responses responses' : List PendingResponse}
    (accounts : Accounts candidate responses) (perm : responses.Perm responses') :
    Accounts candidate responses' :=
  { accounts with
    balanced := accounts.balanced.perm perm
    outstanding := accounts.outstanding.trans perm.length_eq }

theorem oneMore_pos (n : Nat) : 0 < oneMore n := by
  simp [oneMore, Theory.Saturating.add, u64Max]

theorem bump_self_pos (counters : Counters) (c : Counter) : 0 < counters.bump c c := by
  rw [Counters.bump, Function.update_self]
  exact oneMore_pos _

theorem bump_of_ne {c x : Counter} (other : x ≠ c) (counters : Counters) :
    counters.bump c x = counters x :=
  Function.update_of_ne other ..

/-- Counting something that has no latency of its own. -/
theorem Accounts.bump {candidate : CandidateEvidence} {responses responses' : List PendingResponse}
    {c : Counter} (accounts : Accounts candidate responses)
    (request : c ≠ .externalRequests) (write : c ≠ .payloadWriteComplete)
    (outstanding : responses'.length = responses.length)
    (moves : ∀ seen, Tally seen responses → Tally (another seen c) responses') :
    Accounts (candidate.bump c) responses' where
  balanced := accounts.balanced.bump moves
  outstanding := accounts.outstanding.trans outstanding.symm
  requested := by
    rw [show (candidate.bump c).counters .externalRequests = _ from
      bump_of_ne request.symm candidate.counters]
    exact accounts.requested
  written := by
    rw [show (candidate.bump c).counters .payloadWriteComplete = _ from
      bump_of_ne write.symm candidate.counters]
    exact accounts.written

/-- The first request sets the latency, and the counter with it. -/
theorem requested_isSome (candidate : CandidateEvidence) (peer : BlindKey) (now : Nat) :
    (candidate.requested peer now).firstRequestLatencyUs.isSome =
      decide (0 < (candidate.requested peer now).counters .externalRequests) :=
  (decide_eq_true (bump_self_pos candidate.counters .externalRequests)).symm

section Requests

variable {candidate : CandidateEvidence} {responses : List PendingResponse}

/-- A request that is taken on is pending. -/
theorem Accounts.requestTaken (accounts : Accounts candidate responses) (peer : BlindKey)
    (now : Nat) (room : candidate.outstanding < u64Max) :
    Accounts { candidate.requested peer now with outstanding := oneMore candidate.outstanding }
      (.pending :: responses) where
  balanced := accounts.balanced.bump fun _ tally => tally.requested
  outstanding := by
    show oneMore candidate.outstanding = _
    rw [List.length_cons, ← accounts.outstanding]
    exact Nat.min_eq_left room
  requested := requested_isSome candidate peer now
  written := by
    show _ = decide (0 < candidate.counters.bump .externalRequests .payloadWriteComplete)
    rw [bump_of_ne (by decide)]
    exact accounts.written

/-- A request that is not taken on counts as dropped, and leaves nothing pending. -/
theorem Accounts.requestDropped (accounts : Accounts candidate responses) (peer : BlindKey)
    (now : Nat) : Accounts ((candidate.requested peer now).bump .telemetryDrops) responses where
  balanced := accounts.balanced.dropped
  outstanding := accounts.outstanding
  requested := by
    show _ = decide (0 < Counters.bump _ .telemetryDrops .externalRequests)
    rw [bump_of_ne (by decide)]
    exact requested_isSome candidate peer now
  written := by
    show _ = decide (0 < Counters.bump _ .telemetryDrops .payloadWriteComplete)
    rw [bump_of_ne (by decide)]
    show _ = decide (0 < candidate.counters.bump .externalRequests .payloadWriteComplete)
    rw [bump_of_ne (by decide)]
    exact accounts.written

variable {r : PendingResponse}

/-- A request ends, and no payload was written out. -/
theorem Accounts.finished {c : Counter} (accounts : Accounts candidate (r :: responses))
    (terminal : c ∈ [Counter.negativeResponses, .timeouts, .transportFailures, .abnormal]) :
    Accounts (CandidateEvidence.bump { candidate with outstanding := candidate.outstanding - 1 } c)
      responses := by
  have requested : c ≠ .externalRequests := by rintro rfl; simp at terminal
  have written : c ≠ .payloadWriteComplete := by rintro rfl; simp at terminal
  constructor
  · exact accounts.balanced.bump fun seen tally =>
      tally.finished (List.mem_cons_of_mem _ terminal) fun same => absurd same written
  · show candidate.outstanding - 1 = _
    rw [accounts.outstanding]
    rfl
  · show _ = decide (0 < candidate.counters.bump c .externalRequests)
    rw [bump_of_ne requested.symm]
    exact accounts.requested
  · show _ = decide (0 < candidate.counters.bump c .payloadWriteComplete)
    rw [bump_of_ne written.symm]
    exact accounts.written

/-- The answer was written out: what that counts as depends on the state it was in. -/
theorem Accounts.responseSent (accounts : Accounts candidate (r :: responses)) (now : Nat) :
    Accounts (responseSentNoted now r (CandidateEvidence.bump
      { candidate with outstanding := candidate.outstanding - 1 } (responseSentCounter r)))
      responses := by
  cases r with
  | payloadEnqueued =>
      constructor
      · exact accounts.balanced.bump fun seen tally => tally.finished (by decide) fun _ => rfl
      · show candidate.outstanding - 1 = _
        rw [accounts.outstanding]
        rfl
      · show _ = decide (0 < candidate.counters.bump .payloadWriteComplete .externalRequests)
        rw [bump_of_ne (by decide)]
        exact accounts.requested
      · exact (decide_eq_true (bump_self_pos candidate.counters .payloadWriteComplete)).symm
  | pending => exact accounts.finished (by decide)
  | payloadPrepared => exact accounts.finished (by decide)
  | negativeEnqueued => exact accounts.finished (by decide)

end Requests

/-! ## The whole evidence -/

/-- The states of a candidate's pending requests. -/
def responsesOf (requests : List PendingRequest) (candidate : BlindKey) : List PendingResponse :=
  (requests.filter fun request => request.candidate = candidate).map PendingRequest.response

/-- What every call keeps. The node's counters are balanced over all pending requests and those of a
candidate over its own; a pending request has its candidate, and the queue lists the candidates. -/
structure Sound (inner : EvidenceInner) : Prop where
  node : Balanced inner.aggregate.counters (inner.pending.rows.map PendingRequest.response)
  accounts : ∀ candidate ∈ inner.candidates.rows,
    Accounts candidate (responsesOf inner.pending.rows candidate.key)
  tracked : ∀ request ∈ inner.pending.rows, inner.candidates.find? request.candidate ≠ none
  order : inner.candidates.rows.map CandidateEvidence.key = inner.order
  candidates : inner.candidates.rows.length ≤ maxTrackedCandidates
  pending : inner.pending.rows.length ≤ maxPendingRequests
  registered : ∃ registered evicted, inner.aggregate.candidatesRegistered = cap u64Max registered ∧
    inner.aggregate.candidatesEvicted = cap u64Max evicted ∧
    registered = evicted + inner.candidates.rows.length

theorem sound_start : Sound {} where
  node := .start
  accounts := by rintro _ ⟨⟩
  tracked := by rintro _ ⟨⟩
  order := rfl
  candidates := Nat.zero_le _
  pending := Nat.zero_le _
  registered := ⟨0, 0, Theory.Saturating.cap_zero.symm, Theory.Saturating.cap_zero.symm, rfl⟩

/-- The pending requests of a candidate, if its own are known and the rest. -/
theorem responsesOf_perm {requests own rest : List PendingRequest} {key : BlindKey}
    (perm : requests.Perm (own ++ rest)) (named : ∀ request ∈ own, request.candidate = key) :
    (responsesOf requests key).Perm (own.map PendingRequest.response ++ responsesOf rest key) := by
  have all : own.filter (fun request => request.candidate = key) = own := by
    rw [List.filter_eq_self]
    intro request member
    simpa using named request member
  have split := (perm.filter fun request => request.candidate = key).map PendingRequest.response
  rw [List.filter_append, all, List.map_append] at split
  exact split

theorem responsesOf_other {requests own rest : List PendingRequest} {key other : BlindKey}
    (perm : requests.Perm (own ++ rest)) (named : ∀ request ∈ own, request.candidate = key)
    (ne : other ≠ key) : (responsesOf requests other).Perm (responsesOf rest other) := by
  have none_ : own.filter (fun request => request.candidate = other) = [] := by
    rw [List.filter_eq_nil_iff]
    intro request member
    simpa [named request member] using ne.symm
  have split := (perm.filter fun request => request.candidate = other).map PendingRequest.response
  rw [List.filter_append, none_, List.nil_append] at split
  exact split

/-- **What one call does.**  The requests `before` of one candidate become the requests `after`;
the books of that candidate and of the node follow, and nobody else's change. -/
theorem Sound.move {inner inner' : EvidenceInner} (sound : Sound inner)
    {candidate : CandidateEvidence} (candidate' : CandidateEvidence)
    (before after rest : List PendingRequest)
    (found : inner.candidates.find? candidate'.key = some candidate)
    (candidates : inner'.candidates = inner.candidates.put candidate')
    (order : inner'.order = inner.order)
    (registered : inner'.aggregate.candidatesRegistered = inner.aggregate.candidatesRegistered)
    (evicted : inner'.aggregate.candidatesEvicted = inner.aggregate.candidatesEvicted)
    (was : inner.pending.rows.Perm (before ++ rest))
    (now : inner'.pending.rows.Perm (after ++ rest))
    (ownBefore : ∀ request ∈ before, request.candidate = candidate'.key)
    (ownAfter : ∀ request ∈ after, request.candidate = candidate'.key)
    (few : inner'.pending.rows.length ≤ maxPendingRequests)
    (accounts : ∀ responses, Accounts candidate (before.map PendingRequest.response ++ responses) →
      Accounts candidate' (after.map PendingRequest.response ++ responses))
    (node : ∀ responses,
      Balanced inner.aggregate.counters (before.map PendingRequest.response ++ responses) →
      Balanced inner'.aggregate.counters (after.map PendingRequest.response ++ responses)) :
    Sound inner' := by
  obtain ⟨member, same⟩ := Table.find?_eq_some_iff.1 found
  have keys : (inner.candidates.put candidate').rows.map CandidateEvidence.key =
      inner.candidates.rows.map CandidateEvidence.key :=
    Table.map_key_put_of_mem member same
  have length := congrArg List.length keys
  rw [List.length_map, List.length_map] at length
  have split := was.map PendingRequest.response
  have split' := now.map PendingRequest.response
  rw [List.map_append] at split split'
  refine ⟨(node _ (sound.node.perm split)).perm split'.symm, ?_, ?_, ?_, ?_, few, ?_⟩
  · intro c inRows
    rw [candidates, Table.mem_put] at inRows
    rcases inRows with rfl | ⟨inRows, other⟩
    · have held : Accounts candidate (responsesOf inner.pending.rows c.key) := by
        have own := sound.accounts candidate member
        rwa [show candidate.key = c.key from same] at own
      exact (accounts _ (held.perm (responsesOf_perm was ownBefore))).perm
        (responsesOf_perm now ownAfter).symm
    · exact (sound.accounts c inRows).perm ((responsesOf_other was ownBefore other).trans
        (responsesOf_other now ownAfter other).symm)
  · intro request inPending
    rw [candidates, Table.find?_put]
    by_cases own : Keyed.key candidate' = request.candidate
    · simp [own]
    · rw [if_neg own]
      rcases List.mem_append.1 (now.mem_iff.1 inPending) with mine | others
      · exact absurd (ownAfter request mine).symm own
      · exact sound.tracked request (was.mem_iff.2 (List.mem_append_right _ others))
  · rw [candidates, order, keys, sound.order]
  · rw [candidates, length]
    exact sound.candidates
  · rw [candidates, registered, evicted, length]
    exact sound.registered

/-! ## The calls -/

section Calls

variable {inner : EvidenceInner} {candidate : CandidateEvidence}

/-- There are never so many requests that the number of outstanding ones could stop. -/
theorem Sound.outstanding_lt (sound : Sound inner)
    (found : inner.candidates.find? candidate.key = some candidate) :
    candidate.outstanding < u64Max := by
  have few : (responsesOf inner.pending.rows candidate.key).length ≤ inner.pending.rows.length := by
    rw [responsesOf, List.length_map]
    exact List.length_filter_le ..
  rw [(sound.accounts candidate (Table.mem_of_find? found)).outstanding]
  exact (few.trans sound.pending).trans_lt (by decide)

/-- A call that notes something of a candidate and moves no request. -/
theorem Sound.note (sound : Sound inner) (candidate' : CandidateEvidence)
    (found : inner.candidates.find? candidate'.key = some candidate)
    (accounts : ∀ responses, Accounts candidate responses → Accounts candidate' responses)
    {inner' : EvidenceInner} (candidates : inner'.candidates = inner.candidates.put candidate')
    (order : inner'.order = inner.order) (pending : inner'.pending = inner.pending)
    (counters : inner'.aggregate.counters = inner.aggregate.counters)
    (registered : inner'.aggregate.candidatesRegistered = inner.aggregate.candidatesRegistered)
    (evicted : inner'.aggregate.candidatesEvicted = inner.aggregate.candidatesEvicted) :
    Sound inner' :=
  sound.move candidate' [] [] inner.pending.rows found candidates order registered evicted
     (.refl _) (pending ▸ .refl _) (by rintro _ ⟨⟩) (by rintro _ ⟨⟩)
    (pending ▸ sound.pending) (fun responses => accounts responses)
    (fun _ balanced => counters ▸ balanced)

theorem Sound.announceFailed (sound : Sound inner)
    (found : inner.candidates.find? candidate.key = some candidate) :
    Sound (announceFailed inner candidate) :=
  sound.note
    { candidate with announcePublishFailed := oneMore candidate.announcePublishFailed } found (fun _ accounts => { accounts with }) rfl rfl rfl rfl rfl rfl

theorem Sound.noteAnnounceEnqueued (keyed : Digest) (sound : Sound inner) (hash : Hash32)
    (queued : Bool) : Sound (noteAnnounceEnqueued keyed inner hash queued) := by
  unfold FullBlockDelivery.noteAnnounceEnqueued
  cases found : inner.candidates.find? (candidateKey keyed hash) with
  | none => exact sound
  | some candidate =>
      have own : inner.candidates.find? candidate.key = some candidate :=
        (show candidate.key = _ from Table.key_of_find? found) ▸ found
      dsimp only
      split
      · exact sound.note { candidate with announceEnqueued := true } own
          (fun _ accounts => { accounts with }) rfl rfl rfl rfl rfl rfl
      · split
        · exact sound.announceFailed own
        · exact sound

theorem Sound.noteAnnouncePublishComplete (keyed : Digest) (sound : Sound inner) (hash : Hash32)
    (published : Bool) : Sound (noteAnnouncePublishComplete keyed inner hash published) := by
  unfold FullBlockDelivery.noteAnnouncePublishComplete
  cases found : inner.candidates.find? (candidateKey keyed hash) with
  | none => exact sound
  | some candidate =>
      have own : inner.candidates.find? candidate.key = some candidate :=
        (show candidate.key = _ from Table.key_of_find? found) ▸ found
      dsimp only
      split
      · exact sound.note { candidate with announcePublishComplete := true } own
          (fun _ accounts => { accounts with }) rfl rfl rfl rfl rfl rfl
      · split
        · exact sound.announceFailed own
        · exact sound

theorem Sound.noteExternalRequestKey (keyed : Digest) (sound : Sound inner) (hash : Hash32)
    (peer : List UInt8) (requestId : String) (now : Nat) :
    Sound (noteExternalRequestKey keyed inner hash peer requestId now).2 := by
  unfold FullBlockDelivery.noteExternalRequestKey
  dsimp only
  cases found : inner.candidates.find? (candidateKey keyed hash) with
  | none => exact { sound with }
  | some candidate =>
      have key : candidate.key = candidateKey keyed hash := Table.key_of_find? found
      have own : inner.candidates.find? candidate.key = some candidate := key ▸ found
      dsimp only
      split
      next =>
        exact sound.move
          ((candidate.requested (peerKey keyed peer) now).bump .telemetryDrops)
          [] [] inner.pending.rows own rfl rfl rfl rfl (.refl _) (.refl _) (by rintro _ ⟨⟩) (by rintro _ ⟨⟩) sound.pending
          (fun _ accounts => accounts.requestDropped _ now) (fun _ balanced => balanced.dropped)
      next room =>
        rw [Bool.or_eq_true, not_or, decide_eq_true_eq, Table.contains_eq_isSome,
          Bool.not_eq_true, Option.isSome_eq_false_iff, Option.isNone_iff_eq_none] at room
        have rows : (inner.pending.put ⟨requestId, candidateKey keyed hash, .pending⟩).rows =
            inner.pending.rows ++ [⟨requestId, candidateKey keyed hash, .pending⟩] :=
          Table.rows_put_of_fresh room.2
        refine sound.move
          { candidate.requested (peerKey keyed peer) now with
            outstanding := oneMore candidate.outstanding }
          [] [⟨requestId, candidateKey keyed hash, .pending⟩] inner.pending.rows own rfl rfl rfl rfl (.refl _) (rows ▸ List.perm_append_comm) (by rintro _ ⟨⟩)
          (fun request member => ?_) ?_ (fun _ accounts => ?_)
          (fun _ balanced => balanced.bump fun _ tally => tally.requested)
        · rw [List.mem_singleton.1 member]
          exact key.symm
        · rw [rows, List.length_append]
          exact Nat.lt_of_not_le room.1
        · exact accounts.requestTaken _ now (sound.outstanding_lt own)

section Request

variable {request : PendingRequest} {requestId : String}

/-- A pending request has its candidate. -/
theorem Sound.candidate_of_request (sound : Sound inner)
    (found : inner.pending.find? requestId = some request) :
    ∃ candidate, inner.candidates.find? request.candidate = some candidate ∧
      candidate.key = request.candidate := by
  obtain ⟨candidate, tracked⟩ :=
    Option.ne_none_iff_exists'.1 (sound.tracked request (Table.mem_of_find? found))
  exact ⟨candidate, tracked, Table.key_of_find? tracked⟩

/-- A request changes its state: the others are as they were. -/
theorem pending_put_perm (found : inner.pending.find? requestId = some request)
    (response : PendingResponse) :
    (inner.pending.put { request with response }).rows.Perm
      ([{ request with response }] ++ (inner.pending.erase requestId).rows) := by
  have key : request.requestId = requestId := Table.key_of_find? found
  have same : Keyed.key { request with response } = requestId := key
  have swapped := Table.perm_put (same.symm ▸ found)
  rwa [same] at swapped

theorem pending_put_length (found : inner.pending.find? requestId = some request)
    (response : PendingResponse) :
    (inner.pending.put { request with response }).rows.length = inner.pending.rows.length :=
  (pending_put_perm found response).length_eq.trans (Table.perm_erase found).length_eq.symm

/-- A request goes on to its next state, and that is counted. -/
theorem Sound.advance (sound : Sound inner)
    (found : inner.pending.find? requestId = some request) {response : PendingResponse}
    {c : Counter} (requests : c ≠ .externalRequests) (written : c ≠ .payloadWriteComplete)
    (moves : ∀ seen responses, Tally seen (request.response :: responses) →
      Tally (another seen c) (response :: responses)) :
    Sound (countFor { inner with pending := inner.pending.put { request with response } }
      request.candidate c) := by
  obtain ⟨candidate, tracked, key⟩ := sound.candidate_of_request found
  unfold countFor
  dsimp only
  rw [tracked]
  refine sound.move (candidate.bump c) [request] [{ request with response }]
    (inner.pending.erase requestId).rows (key ▸ tracked) rfl rfl rfl rfl
    (Table.perm_erase found) (pending_put_perm found response) ?_ ?_
    ((pending_put_length found response).trans_le sound.pending)
    (fun _ accounts => accounts.bump requests written rfl fun seen => moves seen _)
    (fun _ balanced => balanced.bump fun seen => moves seen _)
  · rintro _ (_ | ⟨_, ⟨⟩⟩)
    exact key.symm
  · rintro _ (_ | ⟨_, ⟨⟩⟩)
    exact key.symm

theorem Sound.notePayloadPreparedKey (sound : Sound inner) (requestId : String) :
    Sound (notePayloadPreparedKey inner requestId) := by
  unfold FullBlockDelivery.notePayloadPreparedKey
  cases found : inner.pending.find? requestId with
  | none => exact sound
  | some request =>
      exact sound.advance found (by decide) (by decide) fun _ _ tally => tally.payloadPrepared

theorem Sound.negativeEnqueued (sound : Sound inner)
    (found : inner.pending.find? requestId = some request) :
    Sound { inner with
      pending := inner.pending.put { request with response := .negativeEnqueued } } := by
  obtain ⟨candidate, tracked, key⟩ := sound.candidate_of_request found
  refine sound.move candidate [request] [{ request with response := .negativeEnqueued }]
    (inner.pending.erase requestId).rows (key ▸ tracked) (Table.put_self (key ▸ tracked)).symm rfl rfl rfl
    (Table.perm_erase found) (pending_put_perm found .negativeEnqueued) ?_ ?_
    ((pending_put_length found .negativeEnqueued).trans_le sound.pending)
    (fun _ accounts => { accounts with balanced := accounts.balanced.negativeEnqueued })
    (fun _ balanced => balanced.negativeEnqueued)
  · rintro _ (_ | ⟨_, ⟨⟩⟩)
    exact key.symm
  · rintro _ (_ | ⟨_, ⟨⟩⟩)
    exact key.symm

theorem Sound.finish (sound : Sound inner) (requestId : String)
    {counter : PendingResponse → Counter}
    {noted : PendingResponse → CandidateEvidence → CandidateEvidence}
    (keeps : ∀ response candidate, (noted response candidate).key = candidate.key)
    (accounts : ∀ candidate response responses, Accounts candidate (response :: responses) →
      Accounts (noted response (CandidateEvidence.bump
        { candidate with outstanding := candidate.outstanding - 1 } (counter response))) responses)
    (moves : ∀ response seen responses, Tally seen (response :: responses) →
      Tally (another seen (counter response)) responses) :
    Sound (finish inner requestId counter noted) := by
  unfold FullBlockDelivery.finish
  cases found : inner.pending.find? requestId with
  | none => exact sound
  | some request =>
      obtain ⟨candidate, tracked, key⟩ := sound.candidate_of_request found
      dsimp only
      rw [tracked]
      have kept := (keeps request.response (CandidateEvidence.bump
        { candidate with outstanding := candidate.outstanding - 1 }
        (counter request.response))).trans key
      refine sound.move _ [request] [] (inner.pending.erase requestId).rows (kept.symm ▸ tracked) rfl rfl rfl rfl
        (Table.perm_erase found) (.refl _) ?_ (by rintro _ ⟨⟩) ?_
        (fun _ held => accounts candidate _ _ held)
        (fun _ balanced => balanced.bump fun seen => moves _ seen _)
      · rintro _ (_ | ⟨_, ⟨⟩⟩)
        exact kept.symm
      · exact (List.length_filter_le ..).trans sound.pending

/-- The ends that are no write. -/
theorem Sound.failed (sound : Sound inner) (requestId : String) {c : Counter}
    (terminal : c ∈ [Counter.negativeResponses, .timeouts, .transportFailures, .abnormal])
    (written : c ≠ .payloadWriteComplete) :
    Sound (FullBlockDelivery.finish inner requestId (fun _ => c) fun _ candidate => candidate) :=
  sound.finish requestId (fun _ _ => rfl) (fun _ _ _ accounts => accounts.finished terminal)
    fun _ _ _ tally =>
      tally.finished (List.mem_cons_of_mem _ terminal) fun same => absurd same written

theorem Sound.noteResponseEnqueuedKey (sound : Sound inner) (requestId : String) (sent : Bool) :
    Sound (noteResponseEnqueuedKey inner requestId sent) := by
  unfold FullBlockDelivery.noteResponseEnqueuedKey
  cases sent with
  | false => exact sound.failed requestId (by decide) (by decide)
  | true =>
      rw [if_neg (by decide)]
      cases found : inner.pending.find? requestId with
      | none => exact sound
      | some request =>
          dsimp only
          cases state : request.response with
          | payloadPrepared =>
              refine sound.advance found (by decide) (by decide) fun _ _ tally => ?_
              rw [state] at tally
              exact tally.payloadEnqueued
          | pending => exact sound.negativeEnqueued found
          | payloadEnqueued => exact sound.negativeEnqueued found
          | negativeEnqueued => exact sound.negativeEnqueued found

theorem Sound.noteResponseSentKey (sound : Sound inner) (requestId : String) (now : Nat) :
    Sound (noteResponseSentKey inner requestId now) := by
  refine sound.finish requestId ?_ (fun _ _ _ accounts => accounts.responseSent now) ?_
  · rintro (_ | _ | _ | _) candidate <;> rfl
  · rintro (_ | _ | _ | _) seen responses tally
    · exact tally.finished (by decide) (by rintro ⟨⟩)
    · exact tally.finished (by decide) (by rintro ⟨⟩)
    · exact tally.finished (by decide) fun _ => rfl
    · exact tally.finished (by decide) (by rintro ⟨⟩)

theorem Sound.noteInboundFailureKey (sound : Sound inner) (requestId : String)
    (timeout transport : Bool) :
    Sound (noteInboundFailureKey inner requestId timeout transport) := by
  cases timeout <;> cases transport <;>
    exact sound.failed requestId (by decide) (by decide)

end Request

/-! ### Eviction -/

/-- The requests of an evicted candidate are taken off and counted as abnormal. -/
theorem abandon_all {ids : List String} (nodup : ids.Nodup)
    (held : ∀ id ∈ ids, inner.pending.find? id ≠ none)
    (balanced : Balanced inner.aggregate.counters
      (inner.pending.rows.map PendingRequest.response)) :
    ∃ pending counters, ids.foldl abandon inner =
        { inner with pending, aggregate := { inner.aggregate with counters } } ∧
      pending.rows = inner.pending.rows.filter (fun request => request.requestId ∉ ids) ∧
      Balanced counters (pending.rows.map PendingRequest.response) := by
  induction ids generalizing inner with
  | nil => exact ⟨inner.pending, inner.aggregate.counters, rfl, by simp, balanced⟩
  | cons id ids ih =>
      rw [List.nodup_cons] at nodup
      obtain ⟨request, found⟩ := Option.ne_none_iff_exists'.1 (held id List.mem_cons_self)
      have others : ∀ other ∈ ids, (abandon inner id).pending.find? other ≠ none := by
        intro other member
        have ne : other ≠ id := fun same => nodup.1 (same ▸ member)
        show (inner.pending.erase id).find? other ≠ none
        rw [Table.find?_erase, if_neg ne]
        exact held other (List.mem_cons_of_mem _ member)
      have split := (Table.perm_erase found).map PendingRequest.response
      have fewer : Balanced (abandon inner id).aggregate.counters
          ((abandon inner id).pending.rows.map PendingRequest.response) :=
        (balanced.perm split).bump fun _ tally => tally.finished (by decide) (by rintro ⟨⟩)
      obtain ⟨pending, counters, folded, rows, after⟩ := ih nodup.2 others fewer
      refine ⟨pending, counters, folded, rows.trans ?_, after⟩
      show (inner.pending.rows.filter fun request => request.requestId ≠ id).filter _ = _
      rw [List.filter_filter]
      exact List.filter_congr fun request _ => by simp [Bool.and_comm]

/-- What the eviction of a candidate leaves of the pending requests. -/
theorem abandon_candidate
    (node : Balanced inner.aggregate.counters (inner.pending.rows.map PendingRequest.response))
    (evicted : BlindKey) :
    ∃ pending counters,
      ((inner.pending.rows.filter fun pending => pending.candidate = evicted).map
          PendingRequest.requestId).foldl abandon inner =
        { inner with pending, aggregate := { inner.aggregate with counters } } ∧
      pending.rows = inner.pending.rows.filter (fun request => request.candidate ≠ evicted) ∧
      Balanced counters (pending.rows.map PendingRequest.response) := by
  have unique := inner.pending.unique.sublist
    ((List.filter_sublist (p := fun r : PendingRequest => r.candidate = evicted)).map
      PendingRequest.requestId)
  have held : ∀ id ∈ (inner.pending.rows.filter fun pending => pending.candidate = evicted).map
      PendingRequest.requestId, inner.pending.find? id ≠ none := by
    intro id member
    obtain ⟨request, inRows, rfl⟩ := List.mem_map.1 member
    have found : inner.pending.find? request.requestId = some request :=
      Table.find?_of_mem (List.mem_filter.1 inRows).1
    simp [found]
  obtain ⟨pending, counters, folded, rows, balanced⟩ := abandon_all unique held node
  refine ⟨pending, counters, folded, rows.trans (List.filter_congr fun request member => ?_),
    balanced⟩
  rw [decide_eq_decide, not_iff_not]
  constructor
  · intro listed
    obtain ⟨other, inRows, same⟩ := List.mem_map.1 listed
    obtain ⟨inPending, named⟩ := List.mem_filter.1 inRows
    obtain rfl : other = request :=
      List.inj_on_of_nodup_map inner.pending.unique inPending member same
    simpa using named
  · intro named
    exact List.mem_map_of_mem (List.mem_filter.2 ⟨member, by simpa using named⟩)

/-- One turn of the eviction loop: the oldest candidate and its requests go, the others keep
their books. -/
theorem evict_sound {evicted : BlindKey} {rest : List BlindKey} (sound : Sound inner)
    (order : inner.order = evicted :: rest) :
    Sound (evict { inner with order := rest } evicted) ∧
      (evict { inner with order := rest } evicted).order = rest ∧
      (evict { inner with order := rest } evicted).candidates =
        inner.candidates.erase evicted := by
  have keys := sound.order.trans order
  obtain ⟨oldest, younger, rows, rfl, restKeys⟩ := List.map_eq_cons_iff.1 keys
  have erased : (inner.candidates.erase oldest.key).rows = younger := Table.rows_erase_head rows
  have held : inner.candidates.contains oldest.key = true :=
    Table.contains_iff.2 ⟨oldest, rows ▸ List.mem_cons_self, rfl⟩
  obtain ⟨pending, counters, folded, left, balanced⟩ :=
    abandon_candidate (show Balanced { inner with order := rest }.aggregate.counters _ from
      sound.node) oldest.key
  have after : evict { inner with order := rest } oldest.key =
      { inner with
        order := rest
        pending
        candidates := inner.candidates.erase oldest.key
        aggregate := { inner.aggregate with
          counters
          candidatesEvicted := oneMore inner.aggregate.candidatesEvicted } } := by
    unfold evict
    dsimp only at folded ⊢
    rw [folded, if_pos held]
  rw [after]
  refine ⟨⟨balanced, ?_, ?_, ?_, ?_, ?_, ?_⟩, rfl, rfl⟩
  · intro candidate member
    obtain ⟨inRows, other⟩ := List.mem_filter.1 member
    have ne : candidate.key ≠ oldest.key := of_decide_eq_true other
    have same : responsesOf pending.rows candidate.key =
        responsesOf inner.pending.rows candidate.key := by
      rw [responsesOf, responsesOf, left, List.filter_filter]
      refine congrArg _ (List.filter_congr fun request _ => ?_)
      by_cases own : request.candidate = candidate.key
      · simp [own, ne]
      · simp [own]
    show Accounts candidate (responsesOf pending.rows candidate.key)
    rw [same]
    exact sound.accounts candidate inRows
  · intro request member
    have member : request ∈ pending.rows := member
    rw [left] at member
    obtain ⟨inPending, other⟩ := List.mem_filter.1 member
    show (inner.candidates.erase oldest.key).find? request.candidate ≠ none
    rw [Table.find?_erase, if_neg (by simpa using other)]
    exact sound.tracked request inPending
  · show (inner.candidates.erase oldest.key).rows.map _ = rest
    rw [erased, restKeys]
  · exact (List.length_filter_le ..).trans sound.candidates
  · show pending.rows.length ≤ _
    rw [left]
    exact (List.length_filter_le ..).trans sound.pending
  · obtain ⟨registered, evicted, showsRegistered, showsEvicted, sum⟩ := sound.registered
    refine ⟨registered, evicted + 1, showsRegistered, ?_, ?_⟩
    · show oneMore inner.aggregate.candidatesEvicted = _
      rw [showsEvicted, oneMore, Theory.Saturating.add_one_cap]
    · show registered = evicted + 1 + (inner.candidates.erase oldest.key).rows.length
      rw [sum, erased, rows, List.length_cons]
      omega

theorem makeRoom_sound {order : List BlindKey} (sound : Sound inner) (queue : inner.order = order) :
    Sound (makeRoom order inner) ∧
      (makeRoom order inner).candidates.rows.length < maxTrackedCandidates ∧
      ∀ key, inner.candidates.find? key = none →
        (makeRoom order inner).candidates.find? key = none := by
  induction order generalizing inner with
  | nil =>
      have none_ : inner.candidates.rows = [] := List.map_eq_nil_iff.1 (sound.order.trans queue)
      exact ⟨sound, by simp [makeRoom, none_, maxTrackedCandidates], fun _ => id⟩
  | cons evicted rest ih =>
      rw [makeRoom]
      by_cases full : maxTrackedCandidates ≤ inner.candidates.rows.length
      · rw [if_pos full]
        obtain ⟨still, next, fewer⟩ := evict_sound sound queue
        obtain ⟨room, less, absent⟩ := ih still next
        refine ⟨room, less, fun key untracked => absent key ?_⟩
        rw [fewer, Table.find?_erase, untracked, ite_self]
      · rw [if_neg full]
        exact ⟨sound, Nat.lt_of_not_le full, fun _ => id⟩

theorem accounts_start {candidate : CandidateEvidence} (counters : candidate.counters = fun _ => 0)
    (outstanding : candidate.outstanding = 0) (request : candidate.firstRequestLatencyUs = none)
    (write : candidate.firstWriteCompleteLatencyUs = none) : Accounts candidate [] where
  balanced := counters ▸ .start
  outstanding := outstanding
  requested := by rw [request, counters]; rfl
  written := by rw [write, counters]; rfl

/-- A new candidate where there is room for it. -/
theorem Sound.register (sound : Sound inner) (generation : Nat)
    (less : inner.candidates.rows.length < maxTrackedCandidates)
    (fresh : inner.candidates.find? candidate.key = none) (start : Accounts candidate []) :
    Sound { inner with
      nextGeneration := generation
      candidates := inner.candidates.put candidate
      order := inner.order ++ [candidate.key]
      aggregate := { inner.aggregate with
        candidatesRegistered := oneMore inner.aggregate.candidatesRegistered } } := by
  have rows : (inner.candidates.put candidate).rows = inner.candidates.rows ++ [candidate] :=
    Table.rows_put_of_fresh fresh
  refine ⟨sound.node, ?_, ?_, ?_, ?_, sound.pending, ?_⟩
  · intro other member
    have member : other ∈ (inner.candidates.put candidate).rows := member
    rw [rows, List.mem_append, List.mem_singleton] at member
    rcases member with old | rfl
    · exact sound.accounts other old
    · have nobody : responsesOf inner.pending.rows other.key = [] := by
        rw [responsesOf, List.map_eq_nil_iff, List.filter_eq_nil_iff]
        intro request inPending named
        exact sound.tracked request inPending (of_decide_eq_true named ▸ fresh)
      show Accounts other (responsesOf inner.pending.rows other.key)
      rw [nobody]
      exact start
  · intro request member
    show (inner.candidates.put candidate).find? request.candidate ≠ none
    rw [Table.find?_put]
    split
    · simp
    · exact sound.tracked request member
  · show (inner.candidates.put candidate).rows.map _ = inner.order ++ [candidate.key]
    rw [rows, List.map_append, sound.order]
    rfl
  · show (inner.candidates.put candidate).rows.length ≤ _
    rw [rows, List.length_append]
    exact less
  · obtain ⟨registered, evicted, showsRegistered, showsEvicted, sum⟩ := sound.registered
    refine ⟨registered + 1, evicted, ?_, showsEvicted, ?_⟩
    · show oneMore inner.aggregate.candidatesRegistered = _
      rw [showsRegistered, oneMore, Theory.Saturating.add_one_cap]
    · show registered + 1 = evicted + (inner.candidates.put candidate).rows.length
      rw [rows, List.length_append, sum]
      rfl

theorem Sound.noteCandidatePersistedAt (keyed : Digest) (sound : Sound inner) (hash : Hash32)
    (now : Nat) : Sound (noteCandidatePersistedAt keyed inner hash now) := by
  unfold FullBlockDelivery.noteCandidatePersistedAt
  dsimp only
  cases found : inner.candidates.find? (candidateKey keyed hash) with
  | some candidate =>
      have own : inner.candidates.find? candidate.key = some candidate :=
        (show candidate.key = _ from Table.key_of_find? found) ▸ found
      exact sound.note { candidate with persisted := true } own (fun _ accounts => { accounts with })
        rfl rfl rfl rfl rfl rfl
  | none =>
      obtain ⟨room, less, absent⟩ := makeRoom_sound sound rfl
      exact room.register _ less (absent _ found) (accounts_start rfl rfl rfl rfl)

end Calls

/-! ## Every run -/

/-- **Every call keeps the books.** -/
theorem Sound.call (keyed : Digest) {inner : EvidenceInner} (sound : Sound inner) (c : Call) :
    Sound (call keyed inner c) := by
  cases c with
  | candidatePersisted hash now => exact sound.noteCandidatePersistedAt keyed hash now
  | announceEnqueued hash queued => exact sound.noteAnnounceEnqueued keyed hash queued
  | announcePublishComplete hash published =>
      exact sound.noteAnnouncePublishComplete keyed hash published
  | externalRequest hash peer requestId now =>
      exact sound.noteExternalRequestKey keyed hash peer requestId now
  | payloadPrepared requestId => exact sound.notePayloadPreparedKey requestId
  | responseEnqueued requestId sent => exact sound.noteResponseEnqueuedKey requestId sent
  | responseSent requestId now => exact sound.noteResponseSentKey requestId now
  | inboundFailure requestId timeout transport =>
      exact sound.noteInboundFailureKey requestId timeout transport

/-- **The books are kept in every order of calls.** -/
theorem evidence_sound (keyed : Digest) {inner : EvidenceInner}
    (reached : (evidence keyed).Reachable inner) : Sound inner := by
  refine reached.invariant ?_ ?_
  · rintro _ rfl
    exact sound_start
  · intro before c _ _ sound _ stepped
    exact Option.some.inj stepped ▸ sound.call keyed c

/-- **What a candidate's snapshot says is so.**  In every order of calls, eviction and saturation
included: the requests counted are the ends counted and the pending requests that name the
candidate; and the classification means what it says, since a candidate without requests has no
ends either. -/
theorem candidate_evidence_adds_up (keyed : Digest) {inner : EvidenceInner}
    (reached : (evidence keyed).Reachable inner) {hash : Hash32} {now : Nat}
    {snapshot : FullBlockCandidateEvidenceSnapshot}
    (shown : candidateSnapshotAt keyed inner hash now = some snapshot) :
    snapshot.conservationOk = true ∧
    snapshot.outstandingRequests =
      (inner.pending.rows.filter fun request =>
        request.candidate = candidateKey keyed hash).length ∧
    snapshot.counters .payloadWriteComplete ≤ snapshot.counters .payloadEnqueued ∧
    snapshot.counters .payloadEnqueued ≤ snapshot.counters .payloadPrepared ∧
    snapshot.distinctExternalPeers ≤ maxDistinctPeersPerCandidate ∧
    snapshot.firstRequestLatencyUs.isSome = decide (0 < snapshot.counters .externalRequests) ∧
    snapshot.firstWriteCompleteLatencyUs.isSome =
      decide (0 < snapshot.counters .payloadWriteComplete) ∧
    (snapshot.classification = "NOT_OBSERVABLE_PROTOCOL_NO_ACK" ↔
      snapshot.counters .externalRequests = 0) ∧
    (snapshot.classification = "EXTERNAL_PEER_REQUEST_OBSERVED" ↔
      0 < snapshot.counters .externalRequests ∧
        snapshot.counters .externalRequests = snapshot.outstandingRequests) ∧
    (snapshot.classification = "DELIVERY_ATTEMPT_ONLY" →
      0 < snapshot.counters .payloadWriteComplete ∧
        snapshot.counters .externalRequests = Theory.Saturating.add u64Max
          (snapshot.counters .payloadWriteComplete) snapshot.outstandingRequests) := by
  obtain ⟨candidate, found, rfl⟩ := Option.map_eq_some_iff.1 shown
  obtain ⟨member, key⟩ := Table.find?_eq_some_iff.1 found
  have key : candidate.key = candidateKey keyed hash := key
  have sound := evidence_sound keyed reached
  have accounts := sound.accounts candidate member
  rw [key] at accounts
  have few := sound.outstanding_lt (show inner.candidates.find? candidate.key = some candidate from
    key ▸ found)
  have adds := accounts.balanced.conservationOk_eq
  rw [← accounts.outstanding] at adds
  have conserved : candidate.counters .externalRequests =
      Theory.Saturating.add u64Max (terminalTotal candidate.counters) candidate.outstanding :=
    eq_of_beq adds
  obtain ⟨silent, asked, written⟩ := classify_text candidate.counters
  refine ⟨adds, ?_, accounts.balanced.written_le, accounts.balanced.enqueued_le,
    candidate.distinct.bounded, accounts.requested, accounts.written, ?_, ?_, ?_⟩
  · rw [← List.length_map (f := PendingRequest.response)]
    exact accounts.outstanding
  · exact silent.trans ⟨And.right, fun quiet => ⟨accounts.balanced.terminalTotal_le quiet, quiet⟩⟩
  · refine asked.trans ?_
    simp only [Theory.Saturating.add] at conserved
    constructor
    · rintro ⟨none_, some_⟩
      refine ⟨some_, ?_⟩
      show candidate.counters .externalRequests = candidate.outstanding
      omega
    · rintro ⟨some_, all⟩
      have all : candidate.counters .externalRequests = candidate.outstanding := all
      exact ⟨by omega, some_⟩
  · intro attempt
    obtain ⟨some_, only⟩ := written attempt
    refine ⟨some_, conserved.trans ?_⟩
    rw [only]
    simp only [Theory.Saturating.add]
    omega

/-- A run in which one candidate is fetched by two peers: one answer is written out, one request
is pending. -/
def sampleCalls : List Call :=
  [.candidatePersisted (.replicate 32 3) 0,
    .externalRequest (.replicate 32 3) [1] "1" 25000000,
    .payloadPrepared "1",
    .responseEnqueued "1" true,
    .externalRequest (.replicate 32 3) [2] "2" 30000000,
    .responseSent "1" 40000000]

/-- A hash that is good enough to tell the sample's two candidates apart. -/
def sampleKeyed : Digest := fun bytes => .replicate 32 (bytes.getLast?.getD 0)

def sampleEvidence : EvidenceInner := sampleCalls.foldl (call sampleKeyed) {}

theorem sample_reached : (evidence sampleKeyed).Reachable sampleEvidence :=
  (Machine.Reaches.start rfl).of_runUnder
    (show (evidence sampleKeyed).run {} sampleCalls = some sampleEvidence from rfl)

theorem candidate_evidence_adds_up_sample :
    ∃ snapshot, candidateSnapshotAt sampleKeyed sampleEvidence (.replicate 32 3) 50000000 =
        some snapshot ∧
      snapshot.classification = "DELIVERY_ATTEMPT_ONLY" ∧ snapshot.conservationOk = true ∧
      snapshot.counters .externalRequests = 2 ∧ snapshot.outstandingRequests = 1 := by
  have shown : candidateSnapshotAt sampleKeyed sampleEvidence (.replicate 32 3) 50000000 =
      some _ := rfl
  exact ⟨_, shown, by decide, (candidate_evidence_adds_up sampleKeyed sample_reached shown).1,
    by decide, by decide⟩

/-- **The node's own numbers add up.**  In every order of calls, eviction and saturation included:
the requests counted are the ends counted and the requests pending, each pending request is
outstanding for exactly one tracked candidate, and every candidate registered is tracked or was
evicted. -/
theorem aggregate_evidence_adds_up (keyed : Digest) {inner : EvidenceInner}
    (reached : (evidence keyed).Reachable inner) :
    let snapshot := aggregateSnapshot inner
    snapshot.conservationOk = true ∧
    snapshot.counters .payloadWriteComplete ≤ snapshot.counters .payloadEnqueued ∧
    snapshot.counters .payloadEnqueued ≤ snapshot.counters .payloadPrepared ∧
    snapshot.pendingRequests = (inner.candidates.rows.map CandidateEvidence.outstanding).sum ∧
    snapshot.pendingRequests ≤ maxPendingRequests ∧
    snapshot.trackedCandidates ≤ maxTrackedCandidates ∧
    snapshot.candidatesRegistered =
      Theory.Saturating.add u64Max snapshot.candidatesEvicted snapshot.trackedCandidates := by
  have sound := evidence_sound keyed reached
  have adds := sound.node.conservationOk_eq
  rw [List.length_map] at adds
  refine ⟨adds, sound.node.written_le, sound.node.enqueued_le, ?_, sound.pending,
    sound.candidates, ?_⟩
  · have each : inner.candidates.rows.map CandidateEvidence.outstanding =
        (inner.candidates.rows.map CandidateEvidence.key).map fun key =>
          (inner.pending.rows.filter fun request => request.candidate = key).length := by
      rw [List.map_map]
      refine List.map_congr_left fun candidate member => ?_
      exact (sound.accounts candidate member).outstanding.trans (List.length_map ..)
    have named : ∀ request ∈ inner.pending.rows, true = true →
        request.candidate ∈ inner.candidates.rows.map CandidateEvidence.key := by
      intro request member _
      obtain ⟨candidate, found⟩ := Option.ne_none_iff_exists'.1 (sound.tracked request member)
      obtain ⟨inRows, key⟩ := Table.find?_eq_some_iff.1 found
      exact List.mem_map.2 ⟨candidate, inRows, key⟩
    have grouped := Theory.Grouping.countP_by_key inner.candidates.unique PendingRequest.candidate
      (fun _ => true) named
    simp only [List.countP_true] at grouped
    rw [each]
    exact grouped.symm
  · obtain ⟨registered, evicted, showsRegistered, showsEvicted, sum⟩ := sound.registered
    show inner.aggregate.candidatesRegistered = Theory.Saturating.add u64Max
      inner.aggregate.candidatesEvicted inner.candidates.rows.length
    rw [showsRegistered, showsEvicted, sum, Theory.Saturating.add_cap_left]

theorem aggregate_evidence_adds_up_sample :
    (aggregateSnapshot sampleEvidence).conservationOk = true ∧
      (aggregateSnapshot sampleEvidence).pendingRequests = 1 ∧
      (aggregateSnapshot sampleEvidence).counters .payloadWriteComplete = 1 :=
  ⟨(aggregate_evidence_adds_up sampleKeyed sample_reached).1, by decide, by decide⟩

end CsdPool.Adapter.FullBlockDelivery
