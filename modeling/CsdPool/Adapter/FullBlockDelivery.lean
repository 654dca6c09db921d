/-
# Adapter.FullBlockDelivery — what the node can say about who fetched a full block

The patch adds `src/net/full_block_delivery.rs` to the node: bounded evidence, kept under one
mutex, of the peers that asked for a candidate block and of what became of each answer.  A request
that is taken on stays pending until its answer was written out, failed, or its candidate was
evicted; each of these ends is a counter, of the candidate and of the whole node.

The counters are saturating.  The node counts its own traffic and that of each tracked candidate
with the same nine counters (`Counter`), so a call that counts one for a candidate counts the same
one for the node.

Instants are nanoseconds.  The keyed hash that blinds candidates and peers is a parameter; no
property of it is used, so candidates whose keys collide are one candidate here as in the source.
-/
import CsdPool.Adapter.PoolJobs
import CsdPool.Theory.Machine
import CsdPool.Theory.Saturating
import Mathlib.Data.Finset.Card

namespace CsdPool.Adapter.FullBlockDelivery

open Theory (Keyed Machine Table)

set_option autoImplicit false

def maxTrackedCandidates : Nat := 256
def maxDistinctPeersPerCandidate : Nat := 64
def maxPendingRequests : Nat := 1024

abbrev BlindKey := Bytes 16

/-- How far the answer to a request has come. -/
inductive PendingResponse
  | pending
  | payloadPrepared
  | payloadEnqueued
  | negativeEnqueued
  deriving DecidableEq, Repr

/-- An entry of the map of pending requests. -/
structure PendingRequest where
  requestId : String
  candidate : BlindKey
  response : PendingResponse

instance instKeyedPendingRequest : Keyed PendingRequest String := ⟨PendingRequest.requestId⟩

/-- The counters a candidate and the aggregate both have. -/
inductive Counter
  | externalRequests
  | payloadPrepared
  | payloadEnqueued
  | payloadWriteComplete
  | negativeResponses
  | timeouts
  | transportFailures
  | abnormal
  | telemetryDrops
  deriving DecidableEq, Repr

abbrev Counters := Counter → Nat

/-- `n.saturating_add(1)`. -/
def oneMore (n : Nat) : Nat := Theory.Saturating.add u64Max n 1

/-- One more under a counter, and no other counter moves. -/
def Counters.bump (counters : Counters) (c : Counter) : Counters :=
  Function.update counters c (oneMore (counters c))

/-- `distinct_peers` and `distinct_peer_count_saturated`. -/
structure DistinctPeers where
  peers : Finset BlindKey
  saturated : Bool
  bounded : peers.card ≤ maxDistinctPeersPerCandidate

/-- A peer more, while there is room; past it only the fact that there were others is kept. -/
def DistinctPeers.note (distinct : DistinctPeers) (peer : BlindKey) : DistinctPeers :=
  if room : distinct.peers.card < maxDistinctPeersPerCandidate then
    ⟨insert peer distinct.peers, distinct.saturated, (Finset.card_insert_le ..).trans room⟩
  else if peer ∉ distinct.peers then { distinct with saturated := true }
  else distinct

/-- An entry of the map of candidates. -/
structure CandidateEvidence where
  key : BlindKey
  generation : Nat
  createdAt : Option Nat
  persisted : Bool := false
  announceEnqueued : Bool := false
  announcePublishComplete : Bool := false
  announcePublishFailed : Nat := 0
  counters : Counters := fun _ => 0
  distinct : DistinctPeers := ⟨∅, false, Nat.zero_le _⟩
  outstanding : Nat := 0
  firstRequestLatencyUs : Option Nat := none
  firstWriteCompleteLatencyUs : Option Nat := none

instance instKeyedCandidateEvidence : Keyed CandidateEvidence BlindKey := ⟨CandidateEvidence.key⟩

/-- `now.saturating_duration_since(created).as_micros() as u64`, zero where there is no
`created`. -/
def CandidateEvidence.latencyUs (candidate : CandidateEvidence) (now : Nat) : Nat :=
  (candidate.createdAt.map fun created => (now - created) / 1000 % 2 ^ 64).getD 0

def CandidateEvidence.bump (candidate : CandidateEvidence) (c : Counter) : CandidateEvidence :=
  { candidate with counters := candidate.counters.bump c }

/-- The evidence of the node as a whole. -/
structure AggregateEvidence where
  candidatesRegistered : Nat := 0
  candidatesEvicted : Nat := 0
  announceEnqueued : Nat := 0
  announcePublishComplete : Nat := 0
  announcePublishFailed : Nat := 0
  counters : Counters := fun _ => 0
  unknownBlockRequests : Nat := 0

def AggregateEvidence.bump (aggregate : AggregateEvidence) (c : Counter) : AggregateEvidence :=
  { aggregate with counters := aggregate.counters.bump c }

/-- What is behind the mutex: the candidates and the order they came in, the requests under way, and
the evidence of the node. -/
structure EvidenceInner where
  nextGeneration : Nat := 0
  candidates : Table CandidateEvidence := .empty
  order : List BlindKey := []
  pending : Table PendingRequest := .empty
  aggregate : AggregateEvidence := {}

/-! ## The calls -/

section Calls

variable (keyed : Digest)

/-- The keyed hash of a value, under a domain of its own. -/
def blind (domain : String) (value : List UInt8) : BlindKey :=
  slice (keyed (domain.toList.map (fun c => UInt8.ofNat c.toNat) ++ value)) 0 16 (by decide)

def candidateKey (hash : Hash32) : BlindKey :=
  blind keyed "csd-v13-full-block-candidate" hash.toList

def peerKey (peer : List UInt8) : BlindKey := blind keyed "csd-v13-full-block-peer" peer

/-- A request ends with its candidate, as an abnormal one. -/
def abandon (inner : EvidenceInner) (requestId : String) : EvidenceInner :=
  { inner with
    pending := inner.pending.erase requestId
    aggregate := inner.aggregate.bump .abnormal }

/-- One turn of the eviction loop, after the pop. -/
def evict (inner : EvidenceInner) (evicted : BlindKey) : EvidenceInner :=
  let pendingIds := (inner.pending.rows.filter fun pending => pending.candidate = evicted).map
    PendingRequest.requestId
  let inner := pendingIds.foldl abandon inner
  if inner.candidates.contains evicted then
    { inner with
      candidates := inner.candidates.erase evicted
      aggregate := { inner.aggregate with
        candidatesEvicted := oneMore inner.aggregate.candidatesEvicted } }
  else inner

/-- `while inner.candidates.len() >= MAX_TRACKED_CANDIDATES`; the list is the queue as it is
popped. -/
def makeRoom : List BlindKey → EvidenceInner → EvidenceInner
  | [], inner => inner
  | evicted :: rest, inner =>
      if maxTrackedCandidates ≤ inner.candidates.rows.length then
        makeRoom rest (evict { inner with order := rest } evicted)
      else inner

/-- A candidate is tracked from its first persistence on; the oldest make room for it. -/
def noteCandidatePersistedAt (inner : EvidenceInner) (hash : Hash32) (now : Nat) :
    EvidenceInner :=
  let key := candidateKey keyed hash
  match inner.candidates.find? key with
  | some candidate =>
      { inner with candidates := inner.candidates.put { candidate with persisted := true } }
  | none =>
      let inner := makeRoom inner.order inner
      let generation := oneMore inner.nextGeneration
      { inner with
        nextGeneration := generation
        candidates := inner.candidates.put
          { key, generation, createdAt := some now, persisted := true }
        order := inner.order ++ [key]
        aggregate := { inner.aggregate with
          candidatesRegistered := oneMore inner.aggregate.candidatesRegistered } }

/-- A failed announcement counts each time. -/
def announceFailed (inner : EvidenceInner) (candidate : CandidateEvidence) : EvidenceInner :=
  { inner with
    candidates := inner.candidates.put { candidate with
      announcePublishFailed := oneMore candidate.announcePublishFailed }
    aggregate := { inner.aggregate with
      announcePublishFailed := oneMore inner.aggregate.announcePublishFailed } }

/-- The first announcement that was queued counts, and each that was not. -/
def noteAnnounceEnqueued (inner : EvidenceInner) (hash : Hash32) (queued : Bool) :
    EvidenceInner :=
  match inner.candidates.find? (candidateKey keyed hash) with
  | none => inner
  | some candidate =>
      if queued && !candidate.announceEnqueued then
        { inner with
          candidates := inner.candidates.put { candidate with announceEnqueued := true }
          aggregate := { inner.aggregate with
            announceEnqueued := oneMore inner.aggregate.announceEnqueued } }
      else if !queued then announceFailed inner candidate
      else inner

/-- The first publication counts, and each failure. -/
def noteAnnouncePublishComplete (inner : EvidenceInner) (hash : Hash32) (published : Bool) :
    EvidenceInner :=
  match inner.candidates.find? (candidateKey keyed hash) with
  | none => inner
  | some candidate =>
      if published && !candidate.announcePublishComplete then
        { inner with
          candidates := inner.candidates.put { candidate with announcePublishComplete := true }
          aggregate := { inner.aggregate with
            announcePublishComplete := oneMore inner.aggregate.announcePublishComplete } }
      else if !published then announceFailed inner candidate
      else inner

/-- The candidate once a request for it came in, whether it is taken on or dropped. -/
def CandidateEvidence.requested (candidate : CandidateEvidence) (peer : BlindKey) (now : Nat) :
    CandidateEvidence :=
  { candidate.bump .externalRequests with
    firstRequestLatencyUs := some
      (candidate.firstRequestLatencyUs.getD (candidate.latencyUs now))
    distinct := candidate.distinct.note peer }

/-- A request for a block. One for a tracked candidate is taken on if there is room and its id is
free; the answer tells whether it was. -/
def noteExternalRequestKey (inner : EvidenceInner) (hash : Hash32) (peer : List UInt8)
    (requestId : String) (now : Nat) : Bool × EvidenceInner :=
  let key := candidateKey keyed hash
  match inner.candidates.find? key with
  | none =>
      (false, { inner with aggregate := { inner.aggregate with
        unknownBlockRequests := oneMore inner.aggregate.unknownBlockRequests } })
  | some candidate =>
      let exhausted := decide (maxPendingRequests ≤ inner.pending.rows.length) ||
        inner.pending.contains requestId
      let aggregate := inner.aggregate.bump .externalRequests
      let candidate := candidate.requested (peerKey keyed peer) now
      if exhausted then
        (false, { inner with
          candidates := inner.candidates.put (candidate.bump .telemetryDrops)
          aggregate := aggregate.bump .telemetryDrops })
      else
        (true, { inner with
          candidates := inner.candidates.put
            { candidate with outstanding := oneMore candidate.outstanding }
          pending := inner.pending.put { requestId, candidate := key, response := .pending }
          aggregate })

/-- Count one more of `c`, for the candidate if it is tracked and then for the node. -/
def countFor (inner : EvidenceInner) (key : BlindKey) (c : Counter) : EvidenceInner :=
  match inner.candidates.find? key with
  | none => inner
  | some candidate =>
      { inner with
        candidates := inner.candidates.put (candidate.bump c)
        aggregate := inner.aggregate.bump c }

/-- The payload of a request is ready. -/
def notePayloadPreparedKey (inner : EvidenceInner) (requestId : String) : EvidenceInner :=
  match inner.pending.find? requestId with
  | none => inner
  | some request =>
      countFor { inner with
        pending := inner.pending.put { request with response := .payloadPrepared } }
        request.candidate .payloadPrepared

/-- A pending request ends: what is counted, and what is noted of the candidate, depend on the
state it was in. -/
def finish (inner : EvidenceInner) (requestId : String) (counter : PendingResponse → Counter)
    (noted : PendingResponse → CandidateEvidence → CandidateEvidence) : EvidenceInner :=
  match inner.pending.find? requestId with
  | none => inner
  | some request =>
      let inner := { inner with pending := inner.pending.erase requestId }
      match inner.candidates.find? request.candidate with
      | none => { inner with aggregate := inner.aggregate.bump .abnormal }
      | some candidate =>
          let candidate := { candidate with outstanding := candidate.outstanding - 1 }
          { inner with
            candidates := inner.candidates.put
              (noted request.response (candidate.bump (counter request.response)))
            aggregate := inner.aggregate.bump (counter request.response) }

def finishTransportFailure (inner : EvidenceInner) (requestId : String) : EvidenceInner :=
  finish inner requestId (fun _ => .transportFailures) fun _ candidate => candidate

/-- The answer to a request was queued, with its payload or without, or could not be. -/
def noteResponseEnqueuedKey (inner : EvidenceInner) (requestId : String) (sent : Bool) :
    EvidenceInner :=
  if !sent then finishTransportFailure inner requestId
  else
    match inner.pending.find? requestId with
    | none => inner
    | some request =>
        match request.response with
        | .payloadPrepared =>
            countFor { inner with
              pending := inner.pending.put { request with response := .payloadEnqueued } }
              request.candidate .payloadEnqueued
        | _ =>
            { inner with
              pending := inner.pending.put { request with response := .negativeEnqueued } }

def responseSentCounter : PendingResponse → Counter
  | .payloadEnqueued => .payloadWriteComplete
  | .negativeEnqueued => .negativeResponses
  | .pending | .payloadPrepared => .abnormal

def responseSentNoted (now : Nat) : PendingResponse → CandidateEvidence → CandidateEvidence
  | .payloadEnqueued, candidate =>
      { candidate with
        firstWriteCompleteLatencyUs := some
          (candidate.firstWriteCompleteLatencyUs.getD (candidate.latencyUs now)) }
  | _, candidate => candidate

/-- The answer to a request was written out. -/
def noteResponseSentKey (inner : EvidenceInner) (requestId : String) (now : Nat) :
    EvidenceInner :=
  finish inner requestId responseSentCounter (responseSentNoted now)

def inboundFailureCounter (timeout transport : Bool) : Counter :=
  if timeout then .timeouts else if transport then .transportFailures else .abnormal

/-- A request ended in a failure. -/
def noteInboundFailureKey (inner : EvidenceInner) (requestId : String) (timeout transport : Bool) :
    EvidenceInner :=
  finish inner requestId (fun _ => inboundFailureCounter timeout transport)
    fun _ candidate => candidate

/-! ## Snapshots -/

/-- What the evidence of a candidate comes to. -/
inductive Classification
  | negative
  | deliveryAttemptOnly
  | externalPeerRequestObserved
  | notObservableProtocolNoAck
  deriving DecidableEq, Repr

def Classification.text : Classification → String
  | .negative => "NEGATIVE"
  | .deliveryAttemptOnly => "DELIVERY_ATTEMPT_ONLY"
  | .externalPeerRequestObserved => "EXTERNAL_PEER_REQUEST_OBSERVED"
  | .notObservableProtocolNoAck => "NOT_OBSERVABLE_PROTOCOL_NO_ACK"

/-- The requests that have ended. -/
def terminalTotal (counters : Counters) : Nat :=
  let saturatingAdd := Theory.Saturating.add u64Max
  saturatingAdd (saturatingAdd (saturatingAdd (saturatingAdd (saturatingAdd
    (counters .payloadWriteComplete) (counters .negativeResponses)) (counters .timeouts))
    (counters .transportFailures)) (counters .abnormal)) (counters .telemetryDrops)

/-- `external_requests == terminal_total.saturating_add(outstanding)`. -/
def conservationOk (counters : Counters) (outstanding : Nat) : Bool :=
  counters .externalRequests == Theory.Saturating.add u64Max (terminalTotal counters) outstanding

/-- One bad end outweighs everything else; after that the furthest that a request has come. -/
def classify (counters : Counters) : Classification :=
  if counters .negativeResponses > 0 || counters .timeouts > 0 || counters .transportFailures > 0 ||
      counters .abnormal > 0 || counters .telemetryDrops > 0 then .negative
  else if counters .payloadWriteComplete > 0 then .deliveryAttemptOnly
  else if counters .externalRequests > 0 then .externalPeerRequestObserved
  else .notObservableProtocolNoAck

/-- What every snapshot says of itself. -/
structure Semantics where
  protocolVersion : Nat := 1
  evidenceSemantics : String :=
    "EXTERNAL_GETBLOCK_REQUEST_AND_LOCAL_RESPONSE_FLUSH_NO_REMOTE_APPLICATION_ACK"
  remoteApplicationAckSupported : Bool := false
  remoteReceiptObserved : Bool := false
  fullBlockRemoteEchoObserved : Bool := false
  peerEvidenceStorage : String := "EPHEMERAL_KEYED_BLIND_COUNTS_ONLY"

/-- What the snapshot shows of one candidate; `counters` are its nine fields that count traffic. -/
structure FullBlockCandidateEvidenceSnapshot extends Semantics where
  classification : String
  candidateGeneration : Nat
  candidateAgeMs : Nat
  candidatePersisted : Bool
  announceEnqueued : Bool
  announcePublishComplete : Bool
  announcePublishFailed : Nat
  counters : Counters
  distinctExternalPeers : Nat
  distinctPeerCountSaturated : Bool
  boundedDistinctPeersPerCandidate : Nat := maxDistinctPeersPerCandidate
  outstandingRequests : Nat
  terminalTotal : Nat
  conservationOk : Bool
  firstRequestLatencyUs : Option Nat
  firstWriteCompleteLatencyUs : Option Nat

/-- What the node shows of a candidate that it tracks. -/
def candidateSnapshotAt (inner : EvidenceInner) (hash : Hash32) (now : Nat) :
    Option FullBlockCandidateEvidenceSnapshot :=
  (inner.candidates.find? (candidateKey keyed hash)).map fun candidate =>
    { classification := (classify candidate.counters).text
      candidateGeneration := candidate.generation
      candidateAgeMs :=
        (candidate.createdAt.map fun created => (now - created) / 1000000 % 2 ^ 64).getD 0
      candidatePersisted := candidate.persisted
      announceEnqueued := candidate.announceEnqueued
      announcePublishComplete := candidate.announcePublishComplete
      announcePublishFailed := candidate.announcePublishFailed
      counters := candidate.counters
      distinctExternalPeers := candidate.distinct.peers.card
      distinctPeerCountSaturated := candidate.distinct.saturated
      outstandingRequests := candidate.outstanding
      terminalTotal := terminalTotal candidate.counters
      conservationOk := conservationOk candidate.counters candidate.outstanding
      firstRequestLatencyUs := candidate.firstRequestLatencyUs
      firstWriteCompleteLatencyUs := candidate.firstWriteCompleteLatencyUs }

/-- What the node shows of itself. -/
structure FullBlockDeliveryAggregateSnapshot extends Semantics where
  trackedCandidates : Nat
  pendingRequests : Nat
  candidatesRegistered : Nat
  candidatesEvicted : Nat
  announceEnqueued : Nat
  announcePublishComplete : Nat
  announcePublishFailed : Nat
  counters : Counters
  unknownBlockRequests : Nat
  conservationOk : Bool
  boundedCandidates : Nat := maxTrackedCandidates
  boundedPendingRequests : Nat := maxPendingRequests

def aggregateSnapshot (inner : EvidenceInner) : FullBlockDeliveryAggregateSnapshot where
  trackedCandidates := inner.candidates.rows.length
  pendingRequests := inner.pending.rows.length
  candidatesRegistered := inner.aggregate.candidatesRegistered
  candidatesEvicted := inner.aggregate.candidatesEvicted
  announceEnqueued := inner.aggregate.announceEnqueued
  announcePublishComplete := inner.aggregate.announcePublishComplete
  announcePublishFailed := inner.aggregate.announcePublishFailed
  counters := inner.aggregate.counters
  unknownBlockRequests := inner.aggregate.unknownBlockRequests
  conservationOk := conservationOk inner.aggregate.counters inner.pending.rows.length

/-! ## The machine

Each call takes the lock once, so the runs are the orders the calls of the node's tasks come in. -/

inductive Call
  | candidatePersisted (hash : Hash32) (now : Nat)
  | announceEnqueued (hash : Hash32) (queued : Bool)
  | announcePublishComplete (hash : Hash32) (published : Bool)
  | externalRequest (hash : Hash32) (peer : List UInt8) (requestId : String) (now : Nat)
  | payloadPrepared (requestId : String)
  | responseEnqueued (requestId : String) (sent : Bool)
  | responseSent (requestId : String) (now : Nat)
  | inboundFailure (requestId : String) (timeout transport : Bool)

def call (inner : EvidenceInner) : Call → EvidenceInner
  | .candidatePersisted hash now => noteCandidatePersistedAt keyed inner hash now
  | .announceEnqueued hash queued => noteAnnounceEnqueued keyed inner hash queued
  | .announcePublishComplete hash published =>
      noteAnnouncePublishComplete keyed inner hash published
  | .externalRequest hash peer requestId now =>
      (noteExternalRequestKey keyed inner hash peer requestId now).2
  | .payloadPrepared requestId => notePayloadPreparedKey inner requestId
  | .responseEnqueued requestId sent => noteResponseEnqueuedKey inner requestId sent
  | .responseSent requestId now => noteResponseSentKey inner requestId now
  | .inboundFailure requestId timeout transport =>
      noteInboundFailureKey inner requestId timeout transport

/-- The evidence of a node from its start. -/
def evidence : Machine EvidenceInner Call where
  init inner := inner = {}
  step inner c := some (call keyed inner c)

end Calls

end CsdPool.Adapter.FullBlockDelivery
