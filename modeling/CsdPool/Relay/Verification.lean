/-
# Relay.Verification — `verify_application_ack`

The checks of the verifier in their order, with the replay guard last, over any
signature scheme.  `verifyApplicationAck_cases` is what a call can do: refuse and
leave the guard alone, refuse after the guard dropped its expired entries, or
accept, and then every check held (`Accepts`).

The machine is one guard through any sequence of calls.  Its law is that of the
guard and of the expiry check together: an entry may only be dropped once its
acknowledgement would fail on expiry, so nothing is accepted twice.
-/
import CsdPool.Relay.ReplayGuard
import CsdPool.Theory.Machine
import CsdPool.Theory.Sha256

namespace CsdPool.Relay

open Theory (Keyed Table Machine)

set_option autoImplicit false

/-- Ed25519 as the code uses it: 64-byte signatures over byte strings. -/
structure SignatureScheme (SigningKey VerifyingKey : Type) where
  verifyingKey : SigningKey → VerifyingKey
  sign : SigningKey → List UInt8 → Bytes 64
  verify : VerifyingKey → List UInt8 → Bytes 64 → Bool

/-- `Signature::from_slice`. -/
def signatureFromSlice (bytes : List UInt8) : Option (Bytes 64) :=
  if length : bytes.length = 64 then some ⟨bytes, length⟩ else none

section Verify

variable {SigningKey VerifyingKey : Type} (digest : Digest)
  (scheme : SignatureScheme SigningKey VerifyingKey)

def replayToken (ack : ApplicationAck) : Hash32 := digest (ackSigningBytes ack)

/-- The signature of an acknowledgement is one of its signed bytes. -/
def signatureVerifies (key : VerifyingKey) (ack : ApplicationAck) : Bool :=
  (signatureFromSlice ack.signature).any fun signature =>
    scheme.verify key (ackSigningBytes ack) signature

def verifyApplicationAck (expected : RelayAnnouncement) (ack : ApplicationAck)
    (expectedRelayKey : VerifyingKey) (nowUnixMs : UInt64) (replayGuard : ReplayGuard) :
    Except VerifyError Unit × ReplayGuard :=
  if ack.protocolVersion ≠ protocolVersion then (.error .wrongProtocol, replayGuard)
  else if ack.mode ≠ expected.mode then (.error .wrongMode, replayGuard)
  else if ack.sender ≠ expected.sender ∨ ack.relay ≠ expected.relay then
    (.error .wrongDirection, replayGuard)
  else if ack.correlation ≠ expected.correlation then (.error .wrongCorrelation, replayGuard)
  else if ack.generation ≠ expected.generation then (.error .wrongGeneration, replayGuard)
  else if ack.contentDigest ≠ expected.contentDigest then (.error .wrongContent, replayGuard)
  else if ack.nonce ≠ expected.nonce then (.error .wrongNonce, replayGuard)
  else if nowUnixMs > ack.expiresUnixMs ∨ ack.expiresUnixMs ≠ expected.expiresUnixMs then
    (.error .expired, replayGuard)
  else if ¬ ack.blockValidated ∨ ¬ ack.applicationAccepted then
    (.error .notApplicationAccepted, replayGuard)
  else if signatureVerifies scheme expectedRelayKey ack then
    replayGuard.insert (replayToken digest ack) ack.expiresUnixMs nowUnixMs
  else (.error .badSignature, replayGuard)

/-- What every check before the guard asks. -/
structure Accepts (expected : RelayAnnouncement) (ack : ApplicationAck)
    (expectedRelayKey : VerifyingKey) (nowUnixMs : UInt64) : Prop where
  version : ack.protocolVersion = protocolVersion
  mode : ack.mode = expected.mode
  sender : ack.sender = expected.sender
  relay : ack.relay = expected.relay
  correlation : ack.correlation = expected.correlation
  generation : ack.generation = expected.generation
  content : ack.contentDigest = expected.contentDigest
  nonce : ack.nonce = expected.nonce
  inTime : nowUnixMs ≤ ack.expiresUnixMs
  expires : ack.expiresUnixMs = expected.expiresUnixMs
  validated : ack.blockValidated = true
  accepted : ack.applicationAccepted = true
  signed : signatureVerifies scheme expectedRelayKey ack = true

/-- **What a call can do.** -/
theorem verifyApplicationAck_cases (expected : RelayAnnouncement) (ack : ApplicationAck)
    (key : VerifyingKey) (now : UInt64) (replayGuard : ReplayGuard) :
    (∃ err, verifyApplicationAck digest scheme expected ack key now replayGuard =
      (.error err, replayGuard)) ∨
    (Accepts scheme expected ack key now ∧
      verifyApplicationAck digest scheme expected ack key now replayGuard =
        replayGuard.insert (replayToken digest ack) ack.expiresUnixMs now) := by
  unfold verifyApplicationAck
  by_cases version : ack.protocolVersion ≠ protocolVersion
  · exact .inl ⟨_, if_pos version⟩
  rw [if_neg version]
  by_cases mode : ack.mode ≠ expected.mode
  · exact .inl ⟨_, if_pos mode⟩
  rw [if_neg mode]
  by_cases direction : ack.sender ≠ expected.sender ∨ ack.relay ≠ expected.relay
  · exact .inl ⟨_, if_pos direction⟩
  rw [if_neg direction]
  by_cases correlation : ack.correlation ≠ expected.correlation
  · exact .inl ⟨_, if_pos correlation⟩
  rw [if_neg correlation]
  by_cases generation : ack.generation ≠ expected.generation
  · exact .inl ⟨_, if_pos generation⟩
  rw [if_neg generation]
  by_cases content : ack.contentDigest ≠ expected.contentDigest
  · exact .inl ⟨_, if_pos content⟩
  rw [if_neg content]
  by_cases nonce : ack.nonce ≠ expected.nonce
  · exact .inl ⟨_, if_pos nonce⟩
  rw [if_neg nonce]
  by_cases expiry : now > ack.expiresUnixMs ∨ ack.expiresUnixMs ≠ expected.expiresUnixMs
  · exact .inl ⟨_, if_pos expiry⟩
  rw [if_neg expiry]
  by_cases flags : ¬ ack.blockValidated ∨ ¬ ack.applicationAccepted
  · exact .inl ⟨_, if_pos flags⟩
  rw [if_neg flags]
  by_cases signed : signatureVerifies scheme key ack = true
  · rw [if_pos signed]
    rw [not_or] at direction expiry flags
    exact .inr ⟨⟨not_not.1 version, not_not.1 mode, not_not.1 direction.1, not_not.1 direction.2,
      not_not.1 correlation, not_not.1 generation, not_not.1 content, not_not.1 nonce,
      UInt64.not_lt.1 expiry.1, not_not.1 expiry.2, not_not.1 flags.1, not_not.1 flags.2,
      signed⟩, rfl⟩
  · exact .inl ⟨_, if_neg signed⟩

end Verify

/-! ## One guard through a sequence of calls -/

/-- The acknowledgement without its signature. -/
def ApplicationAck.bare (ack : ApplicationAck) : ApplicationAck := { ack with signature := [] }

/-- A call of `verify_application_ack`. -/
structure VerifyCall (VerifyingKey : Type) where
  expected : RelayAnnouncement
  ack : ApplicationAck
  key : VerifyingKey
  now : UInt64

/-- The guard, the time of the last call, and what was accepted so far. -/
structure GuardState where
  replayGuard : ReplayGuard
  now : UInt64
  accepted : List ApplicationAck

section Machine

variable {SigningKey VerifyingKey : Type} (digest : Digest)
  (scheme : SignatureScheme SigningKey VerifyingKey)

def VerifyCall.run (call : VerifyCall VerifyingKey) (replayGuard : ReplayGuard) :
    Except VerifyError Unit × ReplayGuard :=
  verifyApplicationAck digest scheme call.expected call.ack call.key call.now replayGuard

def guardStep (s : GuardState) (call : VerifyCall VerifyingKey) : GuardState :=
  let (result, replayGuard) := call.run digest scheme s.replayGuard
  { replayGuard
    now := call.now
    accepted := match result with
      | .ok _ => s.accepted ++ [call.ack.bare]
      | .error _ => s.accepted }

def guardMachine : Machine GuardState (VerifyCall VerifyingKey) where
  init s := s = ⟨.empty, 0, []⟩
  step s call := some (guardStep digest scheme s call)

/-- The clock never goes back. -/
abbrev Monotone (s : GuardState) (call : VerifyCall VerifyingKey) : Prop := s.now ≤ call.now

structure GuardInv (s : GuardState) : Prop where
  aligned : s.replayGuard.Aligned
  bounded : s.replayGuard.order.length ≤ maxReplayTokens
  once : s.accepted.Nodup
  /-- What could still be accepted again is in the map. -/
  remembered : ∀ ack ∈ s.accepted, s.now ≤ ack.expiresUnixMs →
    s.replayGuard.seen.find? (replayToken digest ack) =
      some ⟨replayToken digest ack, ack.expiresUnixMs⟩

theorem guardInv_init : GuardInv digest ⟨.empty, 0, []⟩ :=
  ⟨ReplayGuard.aligned_empty, Nat.zero_le _, List.nodup_nil, by simp⟩

/-- The three shapes of a step. -/
theorem guardStep_cases (s : GuardState) (call : VerifyCall VerifyingKey)
    (aligned : s.replayGuard.Aligned) :
    (∃ err replayGuard, call.run digest scheme s.replayGuard = (.error err, replayGuard) ∧
      (replayGuard = s.replayGuard ∨ replayGuard = s.replayGuard.pruned call.now) ∧
      guardStep digest scheme s call = ⟨replayGuard, call.now, s.accepted⟩) ∨
    (Accepts scheme call.expected call.ack call.key call.now ∧
      (s.replayGuard.pruned call.now).seen.find? (replayToken digest call.ack) = none ∧
      (s.replayGuard.pruned call.now).order.length < maxReplayTokens ∧
      ∃ replayGuard, call.run digest scheme s.replayGuard = (.ok (), replayGuard) ∧
        replayGuard = ⟨((s.replayGuard.pruned call.now).seen.insert
            ⟨replayToken digest call.ack, call.ack.expiresUnixMs⟩).1,
          (s.replayGuard.pruned call.now).order ++ [replayToken digest call.ack]⟩ ∧
        guardStep digest scheme s call =
          ⟨replayGuard, call.now, s.accepted ++ [call.ack.bare]⟩) := by
  have stepEq : ∀ result replayGuard, call.run digest scheme s.replayGuard = (result, replayGuard) →
      guardStep digest scheme s call = ⟨replayGuard, call.now, match result with
        | .ok _ => s.accepted ++ [call.ack.bare]
        | .error _ => s.accepted⟩ := by
    intro result replayGuard ran
    rw [guardStep, ran]
  rcases verifyApplicationAck_cases digest scheme call.expected call.ack call.key call.now
      s.replayGuard with ⟨err, refused⟩ | ⟨accepts, inserted⟩
  · exact .inl ⟨err, _, refused, .inl rfl, stepEq _ _ refused⟩
  · have ran : call.run digest scheme s.replayGuard = _ := inserted
    rcases ReplayGuard.insert_cases aligned (replayToken digest call.ack) call.ack.expiresUnixMs
        call.now with ⟨refused, -⟩ | refused | ⟨fresh, room, went⟩
    · rw [refused] at ran
      exact .inl ⟨_, _, ran, .inr rfl, stepEq _ _ ran⟩
    · rw [refused] at ran
      exact .inl ⟨_, _, ran, .inr rfl, stepEq _ _ ran⟩
    · rw [went] at ran
      exact .inr ⟨accepts, fresh, room, _, ran, rfl, stepEq _ _ ran⟩

variable {digest} in
/-- A token that is not expired survives the pruning. -/
theorem find?_pruned_of_live {replayGuard : ReplayGuard} {token : Hash32} {entry : SeenToken}
    {now : UInt64} (found : replayGuard.seen.find? token = some entry)
    (inTime : now ≤ entry.expiresUnixMs) :
    (replayGuard.pruned now).seen.find? token = some entry := by
  rw [ReplayGuard.find?_pruned, found, Option.filter_some_pos]
  simpa [ReplayGuard.live] using inTime

theorem pruned_length (now : UInt64) {replayGuard : ReplayGuard} (aligned : replayGuard.Aligned) :
    (replayGuard.pruned now).order.length ≤ replayGuard.order.length := by
  rw [← aligned, List.length_map]
  show ((replayGuard.seen.rows.filter _).map _).length ≤ _
  rw [List.length_map]
  exact List.length_filter_le ..

theorem guardInv_step {s : GuardState} {call : VerifyCall VerifyingKey} (inv : GuardInv digest s)
    (monotone : Monotone s call) : GuardInv digest (guardStep digest scheme s call) := by
  have later : ∀ {expires : UInt64}, call.now ≤ expires → s.now ≤ expires :=
    fun le => UInt64.le_trans monotone le
  rcases guardStep_cases digest scheme s call inv.aligned with
    ⟨err, replayGuard, -, left, stepped⟩ | ⟨accepts, fresh, room, replayGuard, -, rfl, stepped⟩
  · rw [stepped]
    rcases left with rfl | rfl
    · exact ⟨inv.aligned, inv.bounded, inv.once,
        fun ack member inTime => inv.remembered ack member (later inTime)⟩
    · exact ⟨ReplayGuard.pruned_aligned _ _,
        le_trans (pruned_length call.now inv.aligned) inv.bounded, inv.once,
        fun ack member inTime =>
          find?_pruned_of_live (inv.remembered ack member (later inTime)) inTime⟩
  · rw [stepped]
    refine ⟨?_, ?_, ?_, fun ack member inTime => ?_⟩
    · show List.map _ _ = _
      rw [(Table.insert_of_fresh fresh).1, List.map_append, ReplayGuard.pruned_aligned]
      rfl
    · rw [List.length_append, List.length_singleton]
      omega
    · rw [List.nodup_append']
      refine ⟨inv.once, List.nodup_singleton _, ?_⟩
      rw [List.disjoint_singleton]
      intro again
      -- accepted before and still in time: its token would be in the map
      have held := find?_pruned_of_live (inv.remembered _ again (later accepts.inTime))
        accepts.inTime
      exact absurd (held.symm.trans fresh) (by simp)
    · rw [Table.find?_insert]
      rcases List.mem_append.1 member with old | new
      · have held := find?_pruned_of_live (inv.remembered ack old (later inTime)) inTime
        rw [held, if_neg]
        simp
      · rw [List.mem_singleton.1 new]
        have same : replayToken digest call.ack.bare = replayToken digest call.ack := rfl
        rw [same, if_pos ⟨rfl, fresh⟩]
        rfl

theorem guardInv_of_reaches {s : GuardState}
    (reaches : (guardMachine digest scheme).Reaches Monotone s) : GuardInv digest s :=
  reaches.invariant (fun _ initial => initial ▸ guardInv_init digest)
    fun _ _ _ _ inv monotone stepped => Option.some.inj stepped ▸
      guardInv_step digest scheme inv monotone

/-- **Replay protection.**  Whatever is verified against whatever at times that do
not go back, nothing is accepted twice, the guard keeps its bound and its shape, a
refused call only drops entries that are past their expiry, and no call drops one
that is not. -/
theorem replay_protection {s : GuardState}
    (reaches : (guardMachine digest scheme).Reaches Monotone s) :
    s.accepted.Nodup ∧
      s.replayGuard.seen.rows.length ≤ maxReplayTokens ∧
      s.replayGuard.order.length ≤ maxReplayTokens ∧
      s.replayGuard.order.Nodup ∧
      (∀ token, token ∈ s.replayGuard.order ↔ s.replayGuard.seen.contains token = true) ∧
      ∀ call : VerifyCall VerifyingKey, s.now ≤ call.now →
        let after := call.run digest scheme s.replayGuard
        (∀ err, after.1 = .error err →
          after.2.order.Sublist s.replayGuard.order ∧
          ∀ token, after.2.seen.find? token = s.replayGuard.seen.find? token ∨
            (after.2.seen.find? token = none ∧ ∃ entry,
              s.replayGuard.seen.find? token = some entry ∧ entry.expiresUnixMs < call.now)) ∧
        ∀ token entry, s.replayGuard.seen.find? token = some entry →
          call.now ≤ entry.expiresUnixMs → after.2.seen.find? token = some entry := by
  have inv := guardInv_of_reaches digest scheme reaches
  have size : s.replayGuard.seen.rows.length ≤ maxReplayTokens := by
    have bounded := inv.bounded
    rw [← inv.aligned, List.length_map] at bounded
    exact bounded
  refine ⟨inv.once, size, inv.bounded, inv.aligned.nodup, inv.aligned.mem_iff, fun call _ => ?_⟩
  rcases guardStep_cases digest scheme s call inv.aligned with
    ⟨err, replayGuard, ran, left, -⟩ | ⟨-, fresh, -, replayGuard, ran, rfl, -⟩
  · rw [ran]
    rcases left with rfl | rfl
    · exact ⟨fun _ _ => ⟨List.Sublist.refl _, fun _ => .inl rfl⟩, fun _ _ found _ => found⟩
    · refine ⟨fun _ _ => ⟨?_, fun token => ?_⟩, fun _ _ found inTime =>
        find?_pruned_of_live found inTime⟩
      · rw [← inv.aligned]
        exact List.filter_sublist.map _
      · rw [ReplayGuard.find?_pruned]
        cases found : s.replayGuard.seen.find? token with
        | none => exact .inl rfl
        | some entry =>
            by_cases inTime : call.now ≤ entry.expiresUnixMs
            · exact .inl (Option.filter_some_pos (by simpa [ReplayGuard.live] using inTime))
            · refine .inr ⟨Option.filter_some_neg (by simpa [ReplayGuard.live] using inTime),
                entry, rfl, UInt64.not_le.1 inTime⟩
  · rw [ran]
    refine ⟨fun _ refused => ?_, fun token entry found inTime => ?_⟩
    · cases refused
    have held := find?_pruned_of_live found inTime
    exact Table.find?_insert_of_some held

end Machine

/-! ## The code's own example -/

def hexBytes (n : Nat) (text : String) : Bytes n :=
  (decodeHex n "" text).toOption.getD (List.Vector.replicate n 0)

/-- `announcement(sender, relay, marker)` of the code's tests. -/
def markedAnnouncement (sender : NodeRole) (relay : RelaySlot) (marker : UInt8) :
    RelayAnnouncement :=
  .new Theory.Sha256.digest .announceThenPull sender relay (List.Vector.replicate 16 marker)
    marker.toUInt64 ("full-block-bytes".toList.map fun c => UInt8.ofNat c.toNat)
    (List.Vector.replicate 32 (marker + 1)) 20000

/-- The key pair of the seed `[11; 32]` and the one signature it made, under the
announcement `(B, E, 2)`. -/
def recordedScheme : SignatureScheme (Bytes 32) (Bytes 32) where
  verifyingKey _ := hexBytes 32 "66be7e332c7a453332bd9d0a7f7db055f5c5ef1a06ada66d98b39fb6810c473a"
  sign _ _ := hexBytes 64 ("412e8feccea8522698ffb918611652804788acf0800537ac6990662b6baa1085" ++
    "96db96ad37733928adb251082bbe9e76c9b2e498006223726cede38b3187770c")
  verify key message signature :=
    decide (key = hexBytes 32 "66be7e332c7a453332bd9d0a7f7db055f5c5ef1a06ada66d98b39fb6810c473a" ∧
      message = ackSigningBytes (.unsigned (markedAnnouncement .b .e 2)) ∧
      signature = hexBytes 64 ("412e8feccea8522698ffb918611652804788acf0800537ac6990662b6baa1085" ++
        "96db96ad37733928adb251082bbe9e76c9b2e498006223726cede38b3187770c"))

def recordedAck : ApplicationAck :=
  { ApplicationAck.unsigned (markedAnnouncement .b .e 2) with
    signature := (recordedScheme.sign (List.Vector.replicate 32 11) []).toList }

/-- The acknowledgement is presented twice. -/
def presentedTwice : List (VerifyCall (Bytes 32)) :=
  let key := recordedScheme.verifyingKey (List.Vector.replicate 32 11)
  [⟨markedAnnouncement .b .e 2, recordedAck, key, 10100⟩,
    ⟨markedAnnouncement .b .e 2, recordedAck, key, 10100⟩]

/-- The recorded acknowledgement is presented a second time. -/
theorem presented_twice_accepted_once :
    ∃ s : GuardState, s.accepted.length = 1 ∧ s.accepted.Nodup ∧
      s.replayGuard.order.length ≤ maxReplayTokens := by
  obtain ⟨s, reaches, accepted⟩ := Machine.exists_of_runUnder
    (guardMachine Theory.Sha256.digest recordedScheme) Monotone (s := ⟨.empty, 0, []⟩) rfl
    presentedTwice (fun s => decide (s.accepted.length = 1)) (by decide +kernel)
  have protection := replay_protection Theory.Sha256.digest recordedScheme reaches
  exact ⟨s, of_decide_eq_true accepted, protection.1, protection.2.2.1⟩

end CsdPool.Relay
