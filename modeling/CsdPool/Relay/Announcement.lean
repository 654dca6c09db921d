/-
# Relay.Announcement — what the V15 external relay protocol says

The announcements a node sends to its two external relays and the
acknowledgements a relay signs.  A relay's signature is over `ackSigningBytes`, a
domain tag followed by eleven fields of fixed width; `ackSigningBytes_inj` is the
law of the layout: the bytes determine every field but the signature.
-/
import CsdPool.Consensus

namespace CsdPool.Relay

set_option autoImplicit false

/-- Both records carry it. -/
def protocolVersion : UInt16 := 15

def ackDomain : List UInt8 :=
  "csd/external-relay-application-ack/v15".toList.map fun c => UInt8.ofNat c.toNat

/-- The two nodes that announce; a byte of each is among the signed ones. -/
inductive NodeRole
  | a
  | b
  deriving DecidableEq, Repr

/-- The two external relays. -/
inductive RelaySlot
  | d
  | e
  deriving DecidableEq, Repr

/-- Whether the block is sent with its announcement or fetched after it. -/
inductive DeliveryMode
  | push
  | announceThenPull
  deriving DecidableEq, Repr

/-- One block announced by one node to one relay, until a time; the digest stands for the block. -/
@[ext] structure RelayAnnouncement where
  protocolVersion : UInt16
  mode : DeliveryMode
  sender : NodeRole
  relay : RelaySlot
  correlation : Bytes 16
  generation : UInt64
  contentDigest : Hash32
  nonce : Bytes 32
  expiresUnixMs : UInt64
  deriving DecidableEq

/-- `RelayAnnouncement::new`. -/
def RelayAnnouncement.new (digest : Digest) (mode : DeliveryMode) (sender : NodeRole)
    (relay : RelaySlot) (correlation : Bytes 16) (generation : UInt64) (blockBytes : List UInt8)
    (nonce : Bytes 32) (expiresUnixMs : UInt64) : RelayAnnouncement where
  protocolVersion := Relay.protocolVersion
  mode := mode
  sender := sender
  relay := relay
  correlation := correlation
  generation := generation
  contentDigest := digest blockBytes
  nonce := nonce
  expiresUnixMs := expiresUnixMs

/-- A relay's word on an announcement: every field of it again, the two findings, and a signature.
-/
@[ext] structure ApplicationAck where
  protocolVersion : UInt16
  mode : DeliveryMode
  sender : NodeRole
  relay : RelaySlot
  correlation : Bytes 16
  generation : UInt64
  contentDigest : Hash32
  nonce : Bytes 32
  expiresUnixMs : UInt64
  blockValidated : Bool
  applicationAccepted : Bool
  signature : List UInt8
  deriving DecidableEq

/-- `ApplicationAck::unsigned`. -/
def ApplicationAck.unsigned (announcement : RelayAnnouncement) : ApplicationAck where
  protocolVersion := Relay.protocolVersion
  mode := announcement.mode
  sender := announcement.sender
  relay := announcement.relay
  correlation := announcement.correlation
  generation := announcement.generation
  contentDigest := announcement.contentDigest
  nonce := announcement.nonce
  expiresUnixMs := announcement.expiresUnixMs
  blockValidated := true
  applicationAccepted := true
  signature := List.replicate 64 0

/-! ## The signed bytes -/

def roleByte : NodeRole → UInt8
  | .a => 1
  | .b => 2

def relayByte : RelaySlot → UInt8
  | .d => 4
  | .e => 5

def modeByte : DeliveryMode → UInt8
  | .push => 1
  | .announceThenPull => 2

/-- `u8::from(flag)`. -/
def flagByte (flag : Bool) : UInt8 := if flag then 1 else 0

/-- What a relay signs: the tag, and every field but the signature, each at its own width. -/
def ackSigningBytes (ack : ApplicationAck) : List UInt8 :=
  ackDomain ++ ((toLeBytes 2 ack.protocolVersion.toNat).toList ++
    (modeByte ack.mode :: roleByte ack.sender :: relayByte ack.relay ::
      (ack.correlation.toList ++ ((toLeBytes 8 ack.generation.toNat).toList ++
        (ack.contentDigest.toList ++ (ack.nonce.toList ++
          ((toLeBytes 8 ack.expiresUnixMs.toNat).toList ++
            [flagByte ack.blockValidated, flagByte ack.applicationAccepted])))))))

theorem roleByte_inj {r r' : NodeRole} (same : roleByte r = roleByte r') : r = r' := by
  cases r <;> cases r' <;> first | rfl | exact absurd same (by decide)

theorem relayByte_inj {r r' : RelaySlot} (same : relayByte r = relayByte r') : r = r' := by
  cases r <;> cases r' <;> first | rfl | exact absurd same (by decide)

theorem modeByte_inj {m m' : DeliveryMode} (same : modeByte m = modeByte m') : m = m' := by
  cases m <;> cases m' <;> first | rfl | exact absurd same (by decide)

theorem flagByte_inj {f f' : Bool} (same : flagByte f = flagByte f') : f = f' := by
  cases f <;> cases f' <;> first | rfl | exact absurd same (by decide)

/-- A fixed-width field at the front is read off. -/
theorem field_inj {n : Nat} {x y : Bytes n} {rest rest' : List UInt8}
    (same : x.toList ++ rest = y.toList ++ rest') : x = y ∧ rest = rest' := by
  obtain ⟨front, back⟩ := List.append_inj same (by rw [x.toList_length, y.toList_length])
  exact ⟨List.Vector.toList_injective front, back⟩

/-- A field of eight bytes is read off at the front, and the rest with it. -/
theorem u64Field_inj {x y : UInt64} {rest rest' : List UInt8}
    (same : (toLeBytes 8 x.toNat).toList ++ rest = (toLeBytes 8 y.toNat).toList ++ rest') :
    x = y ∧ rest = rest' := by
  obtain ⟨bytes, back⟩ := field_inj same
  have value := toLeBytes_inj (by simpa using x.toNat_lt) (by simpa using y.toNat_lt) bytes
  exact ⟨UInt64.toNat_inj.1 value, back⟩

/-- **The layout.**  The signed bytes determine the acknowledgement up to its
signature. -/
theorem ackSigningBytes_inj {ack ack' : ApplicationAck}
    (same : ackSigningBytes ack = ackSigningBytes ack') :
    { ack with signature := ack'.signature } = ack' := by
  obtain ⟨version, same⟩ := field_inj (List.append_cancel_left same)
  obtain ⟨mode, same⟩ := List.cons.inj same
  obtain ⟨sender, same⟩ := List.cons.inj same
  obtain ⟨relay, same⟩ := List.cons.inj same
  obtain ⟨correlation, same⟩ := field_inj same
  obtain ⟨generation, same⟩ := u64Field_inj same
  obtain ⟨contentDigest, same⟩ := field_inj same
  obtain ⟨nonce, same⟩ := field_inj same
  obtain ⟨expires, same⟩ := u64Field_inj same
  obtain ⟨validated, same⟩ := List.cons.inj same
  obtain ⟨accepted, -⟩ := List.cons.inj same
  have version : ack.protocolVersion = ack'.protocolVersion :=
    UInt16.toNat_inj.1 (toLeBytes_inj (by simpa using ack.protocolVersion.toNat_lt)
      (by simpa using ack'.protocolVersion.toNat_lt) version)
  exact ApplicationAck.ext version (modeByte_inj mode) (roleByte_inj sender)
    (relayByte_inj relay) correlation generation contentDigest nonce expires
    (flagByte_inj validated) (flagByte_inj accepted) rfl

end CsdPool.Relay
