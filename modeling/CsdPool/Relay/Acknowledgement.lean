/-
# Relay.Acknowledgement — what an accepted acknowledgement proves

A relay signs in one place, `receiveValidateAcceptAndSign`, after its four checks.
`BuiltFrom block` are the announcements of a block a node can expect an answer to.
Then an acknowledgement that `verifyApplicationAck` accepts, whoever presents it,
comes from a call the relay made on that very announcement and block
(`acknowledgement_binding`).

Two assumptions are priced.  `Unforged` is about the presented acknowledgement only:
if its signature verifies, the relay signed its bytes.  Collision freedom of the
digest is on a set of blocks, those announced and those received.
-/
import CsdPool.Relay.Scheduler
import CsdPool.Relay.Verification
import Mathlib.Data.Set.Function

namespace CsdPool.Relay

open Theory (Machine)

set_option autoImplicit false

inductive ReceiverError
  | wrongProtocol
  | expired
  | contentMismatch
  | structuralValidation
  | applicationRejected
  deriving DecidableEq, Repr

section Receive

variable {SigningKey VerifyingKey : Type} (digest : Digest)
  (scheme : SignatureScheme SigningKey VerifyingKey)

/-- `acceptor` is what the relay's acceptor answers at this call. -/
def receiveValidateAcceptAndSign (announcement : RelayAnnouncement) (blockBytes : List UInt8)
    (nowUnixMs : UInt64) (acceptor : List UInt8 → Except ReceiverError Unit)
    (dedicatedRelayKey : SigningKey) : Except ReceiverError ApplicationAck :=
  if announcement.protocolVersion ≠ protocolVersion then .error .wrongProtocol
  else if nowUnixMs > announcement.expiresUnixMs then .error .expired
  else if digest blockBytes ≠ announcement.contentDigest then .error .contentMismatch
  else
    match acceptor blockBytes with
    | .error err => .error err
    | .ok _ =>
        let ack := ApplicationAck.unsigned announcement
        .ok { ack with signature := (scheme.sign dedicatedRelayKey (ackSigningBytes ack)).toList }

/-- What the relay checked before it signed. -/
theorem receiveValidateAcceptAndSign_ok {announcement : RelayAnnouncement}
    {blockBytes : List UInt8} {now : UInt64} {acceptor : List UInt8 → Except ReceiverError Unit}
    {key : SigningKey} {ack : ApplicationAck}
    (signed : receiveValidateAcceptAndSign digest scheme announcement blockBytes now acceptor key =
      .ok ack) :
    announcement.protocolVersion = protocolVersion ∧ now ≤ announcement.expiresUnixMs ∧
      digest blockBytes = announcement.contentDigest ∧ acceptor blockBytes = .ok () ∧
      ack = { ApplicationAck.unsigned announcement with signature :=
        (scheme.sign key (ackSigningBytes (.unsigned announcement))).toList } := by
  unfold receiveValidateAcceptAndSign at signed
  by_cases version : announcement.protocolVersion ≠ protocolVersion
  · rw [if_pos version] at signed
    cases signed
  rw [if_neg version] at signed
  by_cases late : now > announcement.expiresUnixMs
  · rw [if_pos late] at signed
    cases signed
  rw [if_neg late] at signed
  by_cases mismatch : digest blockBytes ≠ announcement.contentDigest
  · rw [if_pos mismatch] at signed
    cases signed
  rw [if_neg mismatch] at signed
  cases accepted : acceptor blockBytes with
  | error err =>
      rw [accepted] at signed
      cases signed
  | ok _ =>
      rw [accepted] at signed
      exact ⟨not_not.1 version, UInt64.not_lt.1 late, not_not.1 mismatch, rfl,
        (Except.ok.inj signed).symm⟩

end Receive

/-! ## The relay's history -/

/-- A call of the relay. -/
structure ReceiveCall where
  announcement : RelayAnnouncement
  blockBytes : List UInt8
  now : UInt64
  acceptor : List UInt8 → Except ReceiverError Unit

section Binding

variable {SigningKey VerifyingKey : Type} (digest : Digest)
  (scheme : SignatureScheme SigningKey VerifyingKey) (relayKey : SigningKey)

def ReceiveCall.answer (call : ReceiveCall) : Except ReceiverError ApplicationAck :=
  receiveValidateAcceptAndSign digest scheme call.announcement call.blockBytes call.now
    call.acceptor relayKey

/-- The byte strings the relay's key signed in a history of calls. -/
def signedBytes (history : List ReceiveCall) : List (List UInt8) :=
  history.filterMap fun call => (call.answer digest scheme relayKey).toOption.map ackSigningBytes

/-- Nobody else can make the relay's signatures. -/
def Unforged (history : List ReceiveCall) (ack : ApplicationAck) : Prop :=
  signatureVerifies scheme (scheme.verifyingKey relayKey) ack = true →
    ackSigningBytes ack ∈ signedBytes digest scheme relayKey history

/-- The announcements of a block: made by `RelayAnnouncement::new` or queued by a
scheduler for an accepted offer. -/
inductive BuiltFrom (block : List UInt8) : RelayAnnouncement → Prop
  | new (mode : DeliveryMode) (sender : NodeRole) (relay : RelaySlot) (correlation : Bytes 16)
      (generation : UInt64) (nonce : Bytes 32) (expiresUnixMs : UInt64) :
      BuiltFrom block
        (.new digest mode sender relay correlation generation block nonce expiresUnixMs)
  | scheduled {s : BoundedRelayScheduler} {log : SchedulerLog} {offer : Offer}
      {announcement : RelayAnnouncement} :
      (recordedScheduler digest).Reachable (s, log) → offer ∈ log.accepted →
      offer.candidate.blockBytes = block →
      announcement ∈ offer.pair digest s.correlationSecret → BuiltFrom block announcement

variable {digest}

/-- Everything a scheduler ever holds or hands out is built from an accepted block. -/
theorem builtFrom_of_queued {s : BoundedRelayScheduler} {log : SchedulerLog}
    (reached : (recordedScheduler digest).Reachable (s, log)) {announcement : RelayAnnouncement}
    (member : announcement ∈ log.popped ++ s.queue) :
    ∃ offer ∈ log.accepted, BuiltFrom digest offer.candidate.blockBytes announcement := by
  rw [(schedulerInv_of_reaches reached).queued] at member
  obtain ⟨offer, accepted, inPair⟩ := List.mem_flatMap.1 member
  exact ⟨offer, accepted, .scheduled reached accepted rfl inPair⟩

theorem BuiltFrom.fields {block : List UInt8} {announcement : RelayAnnouncement}
    (built : BuiltFrom digest block announcement) :
    announcement.protocolVersion = protocolVersion ∧ announcement.contentDigest = digest block := by
  cases built with
  | new => exact ⟨rfl, rfl⟩
  | scheduled _ _ same inPair =>
      subst same
      simp only [Offer.pair, List.mem_cons, List.not_mem_nil, or_false] at inPair
      rcases inPair with rfl | rfl
      · exact ⟨rfl, rfl⟩
      · exact ⟨rfl, rfl⟩

/-- A signed byte string is that of the acknowledgement for some call's announcement. -/
theorem mem_signedBytes {history : List ReceiveCall} {bytes : List UInt8}
    (member : bytes ∈ signedBytes digest scheme relayKey history) :
    ∃ call ∈ history, call.announcement.protocolVersion = protocolVersion ∧
      call.now ≤ call.announcement.expiresUnixMs ∧
      digest call.blockBytes = call.announcement.contentDigest ∧
      call.acceptor call.blockBytes = .ok () ∧
      bytes = ackSigningBytes (.unsigned call.announcement) := by
  obtain ⟨call, made, signed⟩ := List.mem_filterMap.1 member
  cases answered : call.answer digest scheme relayKey with
  | error err =>
      rw [answered] at signed
      cases signed
  | ok ack =>
      rw [answered] at signed
      obtain ⟨version, inTime, content, accepted, rfl⟩ :=
        receiveValidateAcceptAndSign_ok digest scheme answered
      exact ⟨call, made, version, inTime, content, accepted, (Option.some.inj signed).symm⟩

/-- Only one expectation of the protocol's version accepts an acknowledgement. -/
theorem Accepts.expected_unique {scheme : SignatureScheme SigningKey VerifyingKey}
    {expected expected' : RelayAnnouncement} {ack : ApplicationAck} {key key' : VerifyingKey}
    {now now' : UInt64} (accepts : Accepts scheme expected ack key now)
    (accepts' : Accepts scheme expected' ack key' now')
    (version : expected.protocolVersion = expected'.protocolVersion) : expected = expected' :=
  RelayAnnouncement.ext version (accepts.mode.symm.trans accepts'.mode)
    (accepts.sender.symm.trans accepts'.sender) (accepts.relay.symm.trans accepts'.relay)
    (accepts.correlation.symm.trans accepts'.correlation)
    (accepts.generation.symm.trans accepts'.generation)
    (accepts.content.symm.trans accepts'.content) (accepts.nonce.symm.trans accepts'.nonce)
    (accepts.expires.symm.trans accepts'.expires)

/-- The announcement an acknowledgement was made for is the expected one. -/
theorem Accepts.announcement {scheme : SignatureScheme SigningKey VerifyingKey}
    {expected announcement : RelayAnnouncement} {ack : ApplicationAck} {key : VerifyingKey}
    {now : UInt64} (accepts : Accepts scheme expected ack key now)
    (signed : ackSigningBytes ack = ackSigningBytes (.unsigned announcement))
    (version : announcement.protocolVersion = expected.protocolVersion) :
    announcement = expected := by
  have same := ackSigningBytes_inj signed
  have field : ∀ {α : Type} (f : ApplicationAck → α)
      (_ : f { ack with signature := (ApplicationAck.unsigned announcement).signature } = f ack),
      f (.unsigned announcement) = f ack :=
    fun f blind => (congrArg f same.symm).trans blind
  exact RelayAnnouncement.ext version
    ((field ApplicationAck.mode rfl).trans accepts.mode)
    ((field ApplicationAck.sender rfl).trans accepts.sender)
    ((field ApplicationAck.relay rfl).trans accepts.relay)
    ((field ApplicationAck.correlation rfl).trans accepts.correlation)
    ((field ApplicationAck.generation rfl).trans accepts.generation)
    ((field ApplicationAck.contentDigest rfl).trans accepts.content)
    ((field ApplicationAck.nonce rfl).trans accepts.nonce)
    ((field ApplicationAck.expiresUnixMs rfl).trans accepts.expires)

theorem accepts_of_ok {expected : RelayAnnouncement} {ack : ApplicationAck} {key : VerifyingKey}
    {now : UInt64} {replayGuard : ReplayGuard}
    (ok : (verifyApplicationAck digest scheme expected ack key now replayGuard).1 = .ok ()) :
    Accepts scheme expected ack key now := by
  rcases verifyApplicationAck_cases digest scheme expected ack key now replayGuard with
    ⟨err, refused⟩ | ⟨accepts, -⟩
  · rw [refused] at ok
    cases ok
  · exact accepts

variable {scheme relayKey}

/-- **Acknowledgement binding.**  An acknowledgement that is accepted for `expected`
comes from a call the relay made on that announcement, in time, on the announced block
and with its acceptor's consent; and no other expectation accepts it. -/
theorem acknowledgement_binding {blocks : Set (List UInt8)}
    (collisionFree : Set.InjOn digest blocks) {history : List ReceiveCall}
    (received : ∀ call ∈ history, call.blockBytes ∈ blocks) :
    (∀ ack ack', ackSigningBytes ack = ackSigningBytes ack' ↔
      { ack with signature := ack'.signature } = ack') ∧
    ∀ expected, ∀ block ∈ blocks, BuiltFrom digest block expected →
      ∀ ack now replayGuard, Unforged digest scheme relayKey history ack →
      (verifyApplicationAck digest scheme expected ack (scheme.verifyingKey relayKey) now
        replayGuard).1 = .ok () →
      (∃ call ∈ history, call.announcement = expected ∧ call.now ≤ expected.expiresUnixMs ∧
        digest call.blockBytes = expected.contentDigest ∧ call.blockBytes = block ∧
        call.acceptor call.blockBytes = .ok ()) ∧
      (∀ other, ∀ block' ∈ blocks, BuiltFrom digest block' other →
        ackSigningBytes ack = ackSigningBytes (.unsigned other) →
        other = expected ∧ block' = block) ∧
      ∀ other, ∀ block' ∈ blocks, BuiltFrom digest block' other → ∀ key now' replayGuard',
        (verifyApplicationAck digest scheme other ack key now' replayGuard').1 = .ok () →
        other = expected ∧ block' = block := by
  refine ⟨fun ack ack' => ⟨ackSigningBytes_inj, fun same => same ▸ rfl⟩,
    fun expected block announced built ack now replayGuard unforged ok => ?_⟩
  obtain ⟨version, content⟩ := built.fields
  have accepts := accepts_of_ok scheme ok
  -- two built announcements that agree have the same block
  have sameBlock : ∀ {other block'}, block' ∈ blocks → BuiltFrom digest block' other →
      other = expected → block' = block := by
    intro other block' announced' built' same
    refine collisionFree announced' announced ?_
    rw [← built'.fields.2, same, content]
  refine ⟨?_, fun other block' announced' built' signed => ?_,
    fun other block' announced' built' key now' replayGuard' ok' => ?_⟩
  · obtain ⟨call, made, callVersion, inTime, callContent, accepted, signed⟩ :=
      mem_signedBytes scheme relayKey (unforged accepts.signed)
    have same := accepts.announcement signed (callVersion.trans version.symm)
    rw [same] at inTime callContent
    have sameBytes := collisionFree (received call made) announced (callContent.trans content)
    exact ⟨call, made, same, inTime, callContent, sameBytes, accepted⟩
  · have same := accepts.announcement signed (built'.fields.1.trans version.symm)
    exact ⟨same, sameBlock announced' built' same⟩
  · have same := (accepts_of_ok scheme ok').expected_unique accepts
      (built'.fields.1.trans version.symm)
    exact ⟨same, sameBlock announced' built' same⟩

end Binding

/-- The relay receives the announcement `(B, E, 2)` with its block. -/
def recordedCall : ReceiveCall where
  announcement := markedAnnouncement .b .e 2
  blockBytes := "full-block-bytes".toList.map fun c => UInt8.ofNat c.toNat
  now := 10000
  acceptor _ := .ok ()

/-- A call as a relay made it, under a real signature: its answer is accepted for its own
announcement. -/
theorem recorded_ack_binds :
    (recordedCall.answer Theory.Sha256.digest recordedScheme (List.Vector.replicate 32 11) =
      .ok recordedAck) ∧
    ∃ call ∈ [recordedCall], call.announcement = markedAnnouncement .b .e 2 ∧
      call.acceptor call.blockBytes = .ok () := by
  have answered : recordedCall.answer Theory.Sha256.digest recordedScheme
      (List.Vector.replicate 32 11) = .ok recordedAck := by decide +kernel
  refine ⟨answered, ?_⟩
  have unforged : Unforged Theory.Sha256.digest recordedScheme (List.Vector.replicate 32 11)
      [recordedCall] recordedAck := by
    intro _
    refine List.mem_filterMap.2 ⟨recordedCall, List.mem_singleton_self _, ?_⟩
    rw [answered]
    rfl
  have received : ∀ call ∈ [recordedCall], call.blockBytes ∈ ({recordedCall.blockBytes} : Set _) := by
    simp
  obtain ⟨call, made, same, -, -, -, accepted⟩ :=
    ((acknowledgement_binding
      (Set.injOn_singleton Theory.Sha256.digest recordedCall.blockBytes) received).2
      (markedAnnouncement .b .e 2) _ rfl (.new ..) recordedAck 10100 .empty unforged
      (by decide +kernel)).1
  exact ⟨call, made, same, accepted⟩

end CsdPool.Relay
