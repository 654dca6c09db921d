/-
# Relay.Scheduler — the bounded queue of announcements

`BoundedRelayScheduler` takes a candidate once and queues it for relay D and for
relay E.  Through any sequence of offers and pops, what was popped and what is
still queued are together the pairs of the accepted candidates in the order they
were accepted (`SchedulerInv.queued`), and `scheduled` holds their keys.

The key is the correlation and the generation.  The sender is no part of it, so an
offer by node B of a block that node A queued is answered `Duplicate`:
`SameSender` is the condition under which `Duplicate` means what it says.
-/
import CsdPool.Relay.Announcement
import CsdPool.Theory.Machine
import CsdPool.Theory.Sha256

namespace CsdPool.Relay

open Theory (Machine)

set_option autoImplicit false

structure FeatureConfig where
  enabled : Bool
  relayDConfigured : Bool
  relayEConfigured : Bool
  deriving DecidableEq, Repr

def FeatureConfig.active (config : FeatureConfig) : Bool :=
  config.enabled && config.relayDConfigured && config.relayEConfigured

structure CandidateReady where
  sender : NodeRole
  generation : UInt64
  blockBytes : List UInt8
  localCanonical : Bool
  persisted : Bool
  blockBytesAvailable : Bool
  expiresUnixMs : UInt64
  deriving DecidableEq, Repr

inductive ScheduleResult
  | disabled
  | prerequisiteMissing
  | duplicate
  | capacityDropFailOpen
  | queuedBothRelays
  deriving DecidableEq, Repr

/-- `queue` was allocated with `capacity` elements of more than a byte each, so the
capacity is below `2 ^ 63`. -/
structure BoundedRelayScheduler where
  config : FeatureConfig
  correlationSecret : Bytes 32
  capacity : Nat
  queue : List RelayAnnouncement
  scheduled : List (Bytes 16 × UInt64)
  capacityDrops : Nat
  allocated : capacity < 2 ^ 63

/-- `saturating_add` at 64 bits. -/
def saturatingAdd64 (a b : Nat) : Nat := min (a + b) (2 ^ 64 - 1)

section Code

variable (digest : Digest)

def correlationDomain : List UInt8 :=
  "csd/external-relay-correlation/v15".toList.map fun c => UInt8.ofNat c.toNat

def deriveCorrelation (correlationSecret : Bytes 32) (generation : UInt64)
    (contentDigest : Hash32) : Bytes 16 :=
  (digest (correlationDomain ++ correlationSecret.toList ++
    (toLeBytes 8 generation.toNat).toList ++ contentDigest.toList)).take 16

namespace BoundedRelayScheduler

def new (config : FeatureConfig) (correlationSecret : Bytes 32) (capacity : Nat)
    (allocated : capacity < 2 ^ 63) : BoundedRelayScheduler where
  config := config
  correlationSecret := correlationSecret
  capacity := capacity
  queue := []
  scheduled := []
  capacityDrops := 0
  allocated := allocated

/-- The announcement of a candidate for one relay. -/
def announcementFor (correlationSecret : Bytes 32) (candidate : CandidateReady)
    (relay : RelaySlot) (nonce : Bytes 32) : RelayAnnouncement where
  protocolVersion := Relay.protocolVersion
  mode := .announceThenPull
  sender := candidate.sender
  relay := relay
  correlation := deriveCorrelation digest correlationSecret candidate.generation
    (digest candidate.blockBytes)
  generation := candidate.generation
  contentDigest := digest candidate.blockBytes
  nonce := nonce
  expiresUnixMs := candidate.expiresUnixMs

def trySchedule (s : BoundedRelayScheduler) (candidate : CandidateReady)
    (relayDNonce relayENonce : Bytes 32) : ScheduleResult × BoundedRelayScheduler :=
  if ¬ s.config.active then (.disabled, s)
  else if ¬ candidate.localCanonical ∨ ¬ candidate.persisted ∨ ¬ candidate.blockBytesAvailable ∨
      candidate.blockBytes.isEmpty then (.prerequisiteMissing, s)
  else
    let contentDigest := digest candidate.blockBytes
    let correlation :=
      deriveCorrelation digest s.correlationSecret candidate.generation contentDigest
    if s.scheduled.contains (correlation, candidate.generation) then (.duplicate, s)
    else if saturatingAdd64 s.queue.length 2 > s.capacity then
      (.capacityDropFailOpen, { s with capacityDrops := saturatingAdd64 s.capacityDrops 1 })
    else
      (.queuedBothRelays,
        { s with
          queue := s.queue ++
            [announcementFor digest s.correlationSecret candidate .d relayDNonce,
              announcementFor digest s.correlationSecret candidate .e relayENonce]
          scheduled := s.scheduled ++ [(correlation, candidate.generation)] })

def pop (s : BoundedRelayScheduler) : Option RelayAnnouncement × BoundedRelayScheduler :=
  (s.queue.head?, { s with queue := s.queue.tail })

end BoundedRelayScheduler

end Code

/-! ## One step -/

open BoundedRelayScheduler

/-- The prerequisites of a candidate. -/
def CandidateReady.ready (candidate : CandidateReady) : Bool :=
  candidate.localCanonical && candidate.persisted && candidate.blockBytesAvailable &&
    !candidate.blockBytes.isEmpty

/-- The deduplication key. -/
def candidateKey (digest : Digest) (correlationSecret : Bytes 32) (candidate : CandidateReady) :
    Bytes 16 × UInt64 :=
  (deriveCorrelation digest correlationSecret candidate.generation (digest candidate.blockBytes),
    candidate.generation)

section Step

variable (digest : Digest) {s : BoundedRelayScheduler}

theorem ready_iff (candidate : CandidateReady) :
    (¬ candidate.localCanonical ∨ ¬ candidate.persisted ∨ ¬ candidate.blockBytesAvailable ∨
      candidate.blockBytes.isEmpty) ↔ candidate.ready = false := by
  unfold CandidateReady.ready
  cases candidate.localCanonical <;> cases candidate.persisted <;>
    cases candidate.blockBytesAvailable <;> cases candidate.blockBytes.isEmpty <;> simp

/-- The pair has room. -/
theorem room_iff (s : BoundedRelayScheduler) :
    ¬ saturatingAdd64 s.queue.length 2 > s.capacity ↔ s.queue.length + 2 ≤ s.capacity := by
  have allocated := s.allocated
  unfold saturatingAdd64
  omega

/-- **The outcomes of an offer** to an active scheduler. -/
theorem trySchedule_cases (active : s.config.active = true) (candidate : CandidateReady)
    (nonceD nonceE : Bytes 32) :
    (candidate.ready = false ∧
      trySchedule digest s candidate nonceD nonceE = (.prerequisiteMissing, s)) ∨
    (candidate.ready = true ∧ candidateKey digest s.correlationSecret candidate ∈ s.scheduled ∧
      trySchedule digest s candidate nonceD nonceE = (.duplicate, s)) ∨
    (candidate.ready = true ∧ candidateKey digest s.correlationSecret candidate ∉ s.scheduled ∧
      s.capacity < s.queue.length + 2 ∧
      trySchedule digest s candidate nonceD nonceE =
        (.capacityDropFailOpen, { s with capacityDrops := saturatingAdd64 s.capacityDrops 1 })) ∨
    (candidate.ready = true ∧ candidateKey digest s.correlationSecret candidate ∉ s.scheduled ∧
      s.queue.length + 2 ≤ s.capacity ∧
      trySchedule digest s candidate nonceD nonceE = (.queuedBothRelays,
        { s with
          queue := s.queue ++ [announcementFor digest s.correlationSecret candidate .d nonceD,
            announcementFor digest s.correlationSecret candidate .e nonceE]
          scheduled := s.scheduled ++ [candidateKey digest s.correlationSecret candidate] })) := by
  unfold trySchedule
  rw [if_neg (not_not.2 active)]
  by_cases ready : candidate.ready = false
  · exact .inl ⟨ready, if_pos ((ready_iff candidate).2 ready)⟩
  rw [if_neg (mt (ready_iff candidate).1 ready)]
  rw [Bool.not_eq_false] at ready
  dsimp only
  have contains_iff : s.scheduled.contains (candidateKey digest s.correlationSecret candidate) =
      true ↔ candidateKey digest s.correlationSecret candidate ∈ s.scheduled :=
    List.contains_iff_mem
  by_cases known : candidateKey digest s.correlationSecret candidate ∈ s.scheduled
  · exact .inr (.inl ⟨ready, known, if_pos (contains_iff.2 known)⟩)
  refine .inr (.inr ?_)
  have fresh := mt contains_iff.1 known
  unfold candidateKey at fresh
  rw [if_neg fresh]
  by_cases room : s.queue.length + 2 ≤ s.capacity
  · exact .inr ⟨ready, known, room, if_neg ((room_iff s).2 room)⟩
  · exact .inl ⟨ready, known, by omega, if_pos (not_not.1 (mt (room_iff s).1 room))⟩

end Step
/-! ## Runs -/

/-- One offer to the scheduler. -/
structure Offer where
  candidate : CandidateReady
  relayDNonce : Bytes 32
  relayENonce : Bytes 32
  deriving DecidableEq

inductive SchedulerEvent
  | trySchedule (offer : Offer)
  | pop

/-- The offers made so far with their answers, and what was popped. -/
structure SchedulerLog where
  offers : List (Offer × ScheduleResult)
  popped : List RelayAnnouncement

def SchedulerLog.accepted (log : SchedulerLog) : List Offer :=
  (log.offers.filter fun answered => answered.2 = .queuedBothRelays).map Prod.fst

/-- The same sender, generation and bytes. -/
structure SameCandidate (a b : CandidateReady) : Prop where
  sender : a.sender = b.sender
  generation : a.generation = b.generation
  blockBytes : a.blockBytes = b.blockBytes

/-- Every `Duplicate` answers the candidate of an offer queued before. -/
def SchedulerLog.DuplicatesOwn (log : SchedulerLog) : Prop :=
  ∀ before offer after, log.offers = before ++ (offer, .duplicate) :: after →
    ∃ earlier, (earlier, .queuedBothRelays) ∈ before ∧
      SameCandidate earlier.candidate offer.candidate

section Runs

variable (digest : Digest)

def Offer.answer (offer : Offer) (s : BoundedRelayScheduler) :
    ScheduleResult × BoundedRelayScheduler :=
  trySchedule digest s offer.candidate offer.relayDNonce offer.relayENonce

/-- The two announcements of an offer. -/
def Offer.pair (correlationSecret : Bytes 32) (offer : Offer) : List RelayAnnouncement :=
  [announcementFor digest correlationSecret offer.candidate .d offer.relayDNonce,
    announcementFor digest correlationSecret offer.candidate .e offer.relayENonce]

def schedulerMachine : Machine BoundedRelayScheduler SchedulerEvent where
  init s := ∃ config correlationSecret capacity allocated,
    config.active = true ∧ s = .new config correlationSecret capacity allocated
  step s
    | .trySchedule offer => some (offer.answer digest s).2
    | .pop => some s.pop.2

def record (log : SchedulerLog) (s : BoundedRelayScheduler) : SchedulerEvent → SchedulerLog
  | .trySchedule offer => { log with offers := log.offers ++ [(offer, (offer.answer digest s).1)] }
  | .pop => { log with popped := log.popped ++ s.pop.1.toList }

abbrev recordedScheduler : Machine (BoundedRelayScheduler × SchedulerLog) SchedulerEvent :=
  (schedulerMachine digest).recording ⟨[], []⟩ (record digest)

/-- No accepted candidate of another generation or other bytes has the correlation of
the offered one. -/
abbrev CollisionFree (p : BoundedRelayScheduler × SchedulerLog) : SchedulerEvent → Prop
  | .trySchedule offer => ∀ earlier ∈ p.2.accepted,
      candidateKey digest p.1.correlationSecret earlier.candidate =
        candidateKey digest p.1.correlationSecret offer.candidate →
      earlier.candidate.generation = offer.candidate.generation ∧
        earlier.candidate.blockBytes = offer.candidate.blockBytes
  | .pop => True

/-- What is offered was not queued before by another sender. -/
abbrev SameSender (p : BoundedRelayScheduler × SchedulerLog) : SchedulerEvent → Prop
  | .trySchedule offer => offer.candidate.ready = true → ∀ earlier ∈ p.2.accepted,
      earlier.candidate.generation = offer.candidate.generation →
      earlier.candidate.blockBytes = offer.candidate.blockBytes →
      earlier.candidate.sender = offer.candidate.sender
  | .pop => True

instance (p : BoundedRelayScheduler × SchedulerLog) :
    ∀ e, Decidable (CollisionFree digest p e)
  | .trySchedule _ => inferInstanceAs (Decidable (∀ earlier ∈ p.2.accepted, _ → _))
  | .pop => inferInstanceAs (Decidable True)

instance (p : BoundedRelayScheduler × SchedulerLog) : ∀ e, Decidable (SameSender p e)
  | .trySchedule _ => inferInstanceAs (Decidable (_ → ∀ earlier ∈ p.2.accepted, _ → _))
  | .pop => inferInstanceAs (Decidable True)

/-- Every candidate is queued once for each relay and refused as its own duplicate only. -/
structure OncePerSender (s : BoundedRelayScheduler) (log : SchedulerLog) : Prop where
  bounded : s.queue.length ≤ s.capacity
  /-- First popped, then queued: the pairs of the accepted offers in their order. -/
  queued : log.popped ++ s.queue = log.accepted.flatMap (·.pair digest s.correlationSecret)
  once : ∀ offer ∈ log.accepted, ∀ relay, ∃ announcement,
    (log.popped ++ s.queue).filter (fun a => a.relay = relay ∧
      (a.correlation, a.generation) =
        candidateKey digest s.correlationSecret offer.candidate) = [announcement] ∧
    announcement.sender = offer.candidate.sender ∧
    announcement.generation = offer.candidate.generation ∧
    announcement.contentDigest = digest offer.candidate.blockBytes ∧
    announcement.expiresUnixMs = offer.candidate.expiresUnixMs
  duplicate : log.DuplicatesOwn
  unprepared : ∀ offer : Offer, offer.candidate.ready = false →
    offer.answer digest s = (.prerequisiteMissing, s)
  full : ∀ offer : Offer, (offer.answer digest s).1 = .capacityDropFailOpen →
    s.capacity < s.queue.length + 2 ∧
    (offer.answer digest s).2 = { s with capacityDrops := saturatingAdd64 s.capacityDrops 1 }
  /-- As soon as pops have made room, an offer is accepted if its candidate was not
  accepted before. -/
  retried : ∀ offer : Offer, offer.candidate.ready = true →
    CollisionFree digest (s, log) (.trySchedule offer) →
    SameSender (s, log) (.trySchedule offer) →
    (∀ earlier ∈ log.accepted, ¬ SameCandidate earlier.candidate offer.candidate) →
    ∀ n, s.queue.length - n + 2 ≤ s.capacity →
      (offer.answer digest ((fun s => s.pop.2)^[n] s)).1 = .queuedBothRelays

/-- `scheduled` holds the keys of the accepted offers. -/
structure SchedulerInv (s : BoundedRelayScheduler) (log : SchedulerLog) : Prop where
  active : s.config.active = true
  bounded : s.queue.length ≤ s.capacity
  queued : log.popped ++ s.queue = log.accepted.flatMap (·.pair digest s.correlationSecret)
  scheduled : s.scheduled =
    log.accepted.map fun offer => candidateKey digest s.correlationSecret offer.candidate
  distinct : s.scheduled.Nodup

variable {digest} {s : BoundedRelayScheduler} {log : SchedulerLog}

theorem mem_accepted {offer : Offer} :
    offer ∈ log.accepted ↔ (offer, .queuedBothRelays) ∈ log.offers := by
  simp [SchedulerLog.accepted]

theorem accepted_append (answered : Offer × ScheduleResult) (popped : List RelayAnnouncement) :
    SchedulerLog.accepted ⟨log.offers ++ [answered], popped⟩ =
      if answered.2 = .queuedBothRelays then log.accepted ++ [answered.1] else log.accepted := by
  simp only [SchedulerLog.accepted, List.filter_append, List.map_append]
  by_cases went : answered.2 = .queuedBothRelays
  · simp [went]
  · simp [went]

/-- The last element of a split list is in its last part. -/
theorem append_singleton_split {α : Type} {xs before after : List α} {x y : α}
    (split : xs ++ [x] = before ++ y :: after) :
    (before = xs ∧ y = x) ∨ ∃ after', xs = before ++ y :: after' := by
  rcases List.eq_nil_or_concat after with rfl | ⟨after', last, rfl⟩
  · obtain ⟨front, back⟩ := List.append_inj' split rfl
    exact .inl ⟨front.symm, (List.singleton_inj.1 back).symm⟩
  · rw [List.concat_eq_append, ← List.cons_append, ← List.append_assoc] at split
    exact .inr ⟨after', (List.append_inj' split rfl).1⟩

/-- An offer whose key is scheduled repeats an accepted candidate. -/
theorem SchedulerInv.earlier (inv : SchedulerInv digest s log) {offer : Offer}
    (ready : offer.candidate.ready = true)
    (collisionFree : CollisionFree digest (s, log) (.trySchedule offer))
    (sameSender : SameSender (s, log) (.trySchedule offer))
    (known : candidateKey digest s.correlationSecret offer.candidate ∈ s.scheduled) :
    ∃ earlier ∈ log.accepted, SameCandidate earlier.candidate offer.candidate := by
  rw [inv.scheduled] at known
  obtain ⟨earlier, member, same⟩ := List.mem_map.1 known
  obtain ⟨generation, bytes⟩ := collisionFree earlier member same
  exact ⟨earlier, member, sameSender ready earlier member generation bytes, generation, bytes⟩

/-! ### One step keeps the invariant -/

/-- An answer other than `QueuedBothRelays` keeps everything the invariant reads. -/
theorem SchedulerInv.refused (inv : SchedulerInv digest s log) (offer : Offer)
    {answer : ScheduleResult} (refused : answer ≠ .queuedBothRelays) (drops : Nat) :
    SchedulerInv digest { s with capacityDrops := drops }
      { log with offers := log.offers ++ [(offer, answer)] } := by
  have same : SchedulerLog.accepted ⟨log.offers ++ [(offer, answer)], log.popped⟩ =
      log.accepted := by
    rw [accepted_append, if_neg refused]
  refine ⟨inv.active, inv.bounded, ?_, ?_, inv.distinct⟩
  · rw [same]
    exact inv.queued
  · rw [same]
    exact inv.scheduled

theorem SchedulerInv.queuedBoth (inv : SchedulerInv digest s log) {offer : Offer}
    (fresh : candidateKey digest s.correlationSecret offer.candidate ∉ s.scheduled)
    (room : s.queue.length + 2 ≤ s.capacity) :
    SchedulerInv digest
      { s with
        queue := s.queue ++ offer.pair digest s.correlationSecret
        scheduled := s.scheduled ++ [candidateKey digest s.correlationSecret offer.candidate] }
      { log with offers := log.offers ++ [(offer, .queuedBothRelays)] } := by
  have more : SchedulerLog.accepted ⟨log.offers ++ [(offer, .queuedBothRelays)], log.popped⟩ =
      log.accepted ++ [offer] := by
    rw [accepted_append, if_pos rfl]
  refine ⟨inv.active, ?_, ?_, ?_, ?_⟩
  · show (s.queue ++ offer.pair digest s.correlationSecret).length ≤ s.capacity
    rw [List.length_append]
    show s.queue.length + 2 ≤ s.capacity
    exact room
  · rw [more, List.flatMap_append, ← inv.queued, List.append_assoc, List.flatMap_singleton]
  · rw [more, List.map_append, ← inv.scheduled]
    rfl
  · rw [List.nodup_append']
    exact ⟨inv.distinct, List.nodup_singleton _, by simpa using fresh⟩

theorem SchedulerInv.pop (inv : SchedulerInv digest s log) :
    SchedulerInv digest s.pop.2 { log with popped := log.popped ++ s.pop.1.toList } := by
  have whole : s.queue.head?.toList ++ s.queue.tail = s.queue := by
    cases s.queue <;> rfl
  refine ⟨inv.active, ?_, ?_, inv.scheduled, inv.distinct⟩
  · have bounded := inv.bounded
    show s.queue.tail.length ≤ s.capacity
    rw [List.length_tail]
    omega
  · show (log.popped ++ s.queue.head?.toList) ++ s.queue.tail = _
    rw [List.append_assoc, whole]
    exact inv.queued

theorem SchedulerInv.step (inv : SchedulerInv digest s log) {e : SchedulerEvent}
    {s' : BoundedRelayScheduler} (stepped : (schedulerMachine digest).step s e = some s') :
    SchedulerInv digest s' (record digest log s e) := by
  cases e with
  | pop => exact Option.some.inj stepped ▸ inv.pop
  | trySchedule offer =>
      rw [← Option.some.inj stepped]
      unfold record
      rcases trySchedule_cases digest inv.active offer.candidate offer.relayDNonce
          offer.relayENonce with ⟨-, answered⟩ | ⟨-, -, answered⟩ |
          ⟨-, -, -, answered⟩ | ⟨-, fresh, room, answered⟩
      · simp only [Offer.answer, answered]
        exact inv.refused offer (by simp) s.capacityDrops
      · simp only [Offer.answer, answered]
        exact inv.refused offer (by simp) s.capacityDrops
      · simp only [Offer.answer, answered]
        exact inv.refused offer (by simp) _
      · simp only [Offer.answer, answered]
        exact inv.queuedBoth fresh room

/-- The invariant needs no condition on the offers. -/
theorem schedulerInv_of_reaches
    {allow : BoundedRelayScheduler × SchedulerLog → SchedulerEvent → Prop}
    (reaches : (recordedScheduler digest).Reaches allow (s, log)) : SchedulerInv digest s log := by
  refine reaches.invariant (I := fun p => SchedulerInv digest p.1 p.2) ?_ ?_
  · rintro ⟨s, log⟩ ⟨⟨config, secret, capacity, allocated, active, rfl⟩, rfl⟩
    exact ⟨active, Nat.zero_le _, rfl, rfl, List.nodup_nil⟩
  · intro p e p' _ inv _ stepped
    obtain ⟨moved, recorded⟩ := Machine.recording_step stepped
    rw [recorded]
    exact inv.step moved

/-- The answers need both conditions. -/
theorem duplicatesOwn_of_reaches
    (reaches : (recordedScheduler digest).Reaches
      (fun p e => CollisionFree digest p e ∧ SameSender p e) (s, log)) : log.DuplicatesOwn := by
  refine reaches.invariant (I := fun p => p.2.DuplicatesOwn) ?_ ?_
  · rintro ⟨s, log⟩ ⟨-, rfl⟩ before offer after split
    simp at split
  · rintro ⟨s, log⟩ e p' before own ⟨collisionFree, sameSender⟩ stepped
    have inv := schedulerInv_of_reaches before
    rw [(Machine.recording_step stepped).2]
    cases e with
    | pop => exact own
    | trySchedule offer =>
        intro front other after split
        rcases append_singleton_split split with ⟨rfl, answered⟩ | ⟨after', old⟩
        · obtain ⟨rfl, duplicate⟩ := Prod.mk.inj answered
          rcases trySchedule_cases digest inv.active other.candidate other.relayDNonce
              other.relayENonce with ⟨-, outcome⟩ | ⟨ready, known, -⟩ | ⟨-, -, -, outcome⟩ |
              ⟨-, -, -, outcome⟩
          · exact absurd (duplicate.trans (congrArg Prod.fst outcome)) (by simp)
          · obtain ⟨earlier, member, same⟩ := inv.earlier ready collisionFree sameSender known
            exact ⟨earlier, mem_accepted.1 member, same⟩
          · exact absurd (duplicate.trans (congrArg Prod.fst outcome)) (by simp)
          · exact absurd (duplicate.trans (congrArg Prod.fst outcome)) (by simp)
        · exact own front other after' old

/-! ### What the invariant says about the queue -/

/-- Of blocks with distinct keys, what is collected for one key is its block's. -/
theorem flatMap_of_nodup_key {α β κ : Type} {key : α → κ} {f : α → List β} {xs : List α}
    (nodup : (xs.map key).Nodup) {x : α} (member : x ∈ xs)
    (others : ∀ y ∈ xs, key y ≠ key x → f y = []) : xs.flatMap f = f x := by
  induction xs with
  | nil => cases member
  | cons z zs ih =>
      rw [List.map_cons, List.nodup_cons] at nodup
      rw [List.flatMap_cons]
      rcases List.mem_cons.1 member with rfl | later
      · have rest : zs.flatMap f = [] := by
          rw [List.flatMap_eq_nil_iff]
          intro y inRest
          refine others y (List.mem_cons_of_mem _ inRest) fun same => nodup.1 ?_
          exact same ▸ List.mem_map_of_mem inRest
        rw [rest, List.append_nil]
      · have front : f z = [] :=
          others z List.mem_cons_self fun same => nodup.1 (same ▸ List.mem_map_of_mem later)
        rw [front, List.nil_append,
          ih nodup.2 later fun y inRest => others y (List.mem_cons_of_mem _ inRest)]

theorem SchedulerInv.once (inv : SchedulerInv digest s log) {offer : Offer}
    (member : offer ∈ log.accepted) (relay : RelaySlot) :
    ∃ nonce, (log.popped ++ s.queue).filter (fun a => a.relay = relay ∧
        (a.correlation, a.generation) =
          candidateKey digest s.correlationSecret offer.candidate) =
      [announcementFor digest s.correlationSecret offer.candidate relay nonce] := by
  have distinct := inv.distinct
  rw [inv.scheduled] at distinct
  rw [inv.queued, List.filter_flatMap, flatMap_of_nodup_key distinct member]
  · cases relay with
    | d => exact ⟨offer.relayDNonce, by simp [Offer.pair, announcementFor, candidateKey]⟩
    | e => exact ⟨offer.relayENonce, by simp [Offer.pair, announcementFor, candidateKey]⟩
  · intro other _ differs
    have absent : ∀ relay' nonce, ¬ ((announcementFor digest s.correlationSecret other.candidate
        relay' nonce).relay = relay ∧ candidateKey digest s.correlationSecret other.candidate =
          candidateKey digest s.correlationSecret offer.candidate) :=
      fun _ _ both => differs both.2
    rw [List.filter_eq_nil_iff]
    intro a inPair
    simp only [Offer.pair, List.mem_cons, List.not_mem_nil, or_false] at inPair
    rcases inPair with rfl | rfl
    · exact fun held => absent .d _ (of_decide_eq_true held)
    · exact fun held => absent .e _ (of_decide_eq_true held)

theorem iterate_pop (s : BoundedRelayScheduler) (n : Nat) :
    (fun s : BoundedRelayScheduler => s.pop.2)^[n] s = { s with queue := s.queue.drop n } := by
  induction n with
  | zero => rfl
  | succ n ih =>
      rw [Function.iterate_succ_apply', ih]
      simp [BoundedRelayScheduler.pop]

theorem SchedulerInv.retried (inv : SchedulerInv digest s log) {offer : Offer}
    (ready : offer.candidate.ready = true)
    (collisionFree : CollisionFree digest (s, log) (.trySchedule offer))
    (sameSender : SameSender (s, log) (.trySchedule offer))
    (unseen : ∀ earlier ∈ log.accepted, ¬ SameCandidate earlier.candidate offer.candidate)
    {n : Nat} (room : s.queue.length - n + 2 ≤ s.capacity) :
    (offer.answer digest ((fun s => s.pop.2)^[n] s)).1 = .queuedBothRelays := by
  rw [iterate_pop]
  have fresh : candidateKey digest s.correlationSecret offer.candidate ∉ s.scheduled := by
    intro known
    obtain ⟨earlier, member, same⟩ := inv.earlier ready collisionFree sameSender known
    exact unseen earlier member same
  rcases trySchedule_cases digest (s := { s with queue := s.queue.drop n }) inv.active
      offer.candidate offer.relayDNonce offer.relayENonce with ⟨unready, -⟩ | ⟨-, known, -⟩ |
      ⟨-, -, full, -⟩ | ⟨-, -, -, answered⟩
  · rw [ready] at unready
    cases unready
  · exact absurd known fresh
  · simp only [List.length_drop] at full
    omega
  · exact congrArg Prod.fst answered

/-- **Scheduling is exactly once** in every run that offers no sender's candidate after
another sender's. -/
theorem scheduled_once_per_sender
    (reaches : (recordedScheduler digest).Reaches
      (fun p e => CollisionFree digest p e ∧ SameSender p e) (s, log)) :
    OncePerSender digest s log := by
  have inv := schedulerInv_of_reaches reaches
  refine ⟨inv.bounded, inv.queued, fun offer member relay => ?_, duplicatesOwn_of_reaches reaches,
    fun offer unready => ?_, fun offer refused => ?_,
    fun offer ready collisionFree sameSender unseen n room =>
      inv.retried ready collisionFree sameSender unseen room⟩
  · obtain ⟨nonce, only⟩ := inv.once member relay
    exact ⟨_, only, rfl, rfl, rfl, rfl⟩
  all_goals
    rcases trySchedule_cases digest inv.active offer.candidate offer.relayDNonce
      offer.relayENonce with ⟨unprepared, answered⟩ | ⟨ready, -, answered⟩ |
      ⟨ready, -, full, answered⟩ | ⟨ready, -, -, answered⟩
  · exact answered
  · exact absurd (unready.symm.trans ready) (by simp)
  · exact absurd (unready.symm.trans ready) (by simp)
  · exact absurd (unready.symm.trans ready) (by simp)
  · exact absurd ((congrArg Prod.fst answered).symm.trans refused) (by simp)
  · exact absurd ((congrArg Prod.fst answered).symm.trans refused) (by simp)
  · exact ⟨full, congrArg Prod.snd answered⟩
  · exact absurd ((congrArg Prod.fst answered).symm.trans refused) (by simp)

end Runs

/-- Generation 7 of the code's own test. -/
def readyCandidate (sender : NodeRole) : CandidateReady where
  sender := sender
  generation := 7
  blockBytes := "full-block-bytes".toList.map fun c => UInt8.ofNat c.toNat
  localCanonical := true
  persisted := true
  blockBytesAvailable := true
  expiresUnixMs := 20000

def markedOffer (candidate : CandidateReady) (marker : UInt8) : Offer where
  candidate := candidate
  relayDNonce := List.Vector.replicate 32 marker
  relayENonce := List.Vector.replicate 32 (marker + 1)

def enabledScheduler : BoundedRelayScheduler :=
  .new ⟨true, true, true⟩ (List.Vector.replicate 32 19) 4 (by decide)

theorem enabledScheduler_init : (recordedScheduler Theory.Sha256.digest).init
    (enabledScheduler, ⟨[], []⟩) :=
  ⟨⟨_, _, _, _, rfl, rfl⟩, rfl⟩

/-- The code's own run: a candidate that is not canonical yet, then queued, popped, and
a duplicate. -/
theorem scheduled_once_in_own_run : ∃ p : BoundedRelayScheduler × SchedulerLog,
    p.2.offers.length = 3 ∧ p.2.popped.length = 2 ∧
      OncePerSender Theory.Sha256.digest p.1 p.2 := by
  obtain ⟨p, reaches, shape⟩ := Machine.exists_of_runUnder
    (recordedScheduler Theory.Sha256.digest)
    (fun p e => CollisionFree Theory.Sha256.digest p e ∧ SameSender p e)
    (s := (enabledScheduler, ⟨[], []⟩)) enabledScheduler_init
    [.trySchedule (markedOffer { readyCandidate .a with localCanonical := false } 1),
      .trySchedule (markedOffer (readyCandidate .a) 1), .pop, .pop,
      .trySchedule (markedOffer (readyCandidate .a) 3)]
    (fun p => decide (p.2.offers.length = 3 ∧ p.2.popped.length = 2)) (by decide +kernel)
  obtain ⟨offers, popped⟩ := of_decide_eq_true shape
  exact ⟨p, offers, popped, scheduled_once_per_sender reaches⟩

/-- Node B's offer of the block node A queued is answered `Duplicate`. -/
theorem other_sender_answered_duplicate : ∃ p : BoundedRelayScheduler × SchedulerLog,
    (recordedScheduler Theory.Sha256.digest).Reaches (CollisionFree Theory.Sha256.digest) p ∧
      ¬ OncePerSender Theory.Sha256.digest p.1 p.2 := by
  obtain ⟨p, reaches, answers⟩ := Machine.exists_of_runUnder
    (recordedScheduler Theory.Sha256.digest) (CollisionFree Theory.Sha256.digest)
    (s := (enabledScheduler, ⟨[], []⟩)) enabledScheduler_init
    [.trySchedule (markedOffer (readyCandidate .a) 1),
      .trySchedule (markedOffer (readyCandidate .b) 3)]
    (fun p => decide (p.2.offers = [(markedOffer (readyCandidate .a) 1, .queuedBothRelays),
      (markedOffer (readyCandidate .b) 3, .duplicate)])) (by decide +kernel)
  refine ⟨p, reaches, fun once => ?_⟩
  obtain ⟨earlier, member, same⟩ := once.duplicate [(markedOffer (readyCandidate .a) 1,
    .queuedBothRelays)] _ [] (of_decide_eq_true answers)
  obtain rfl : earlier = markedOffer (readyCandidate .a) 1 := by simpa using member
  exact absurd same.sender (by decide)

end CsdPool.Relay
