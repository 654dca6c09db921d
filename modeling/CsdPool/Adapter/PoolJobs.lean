/-
# Adapter.PoolJobs — the jobs an adapter node hands out and the blocks it assembles

The patch `ops/csd-node-adapter/compute-substrate-pool-adapter.patch` gives the official node a
template endpoint and two submit endpoints.  A template is the node's own block with eight bytes
reserved in the coinbase; the cache keeps the jobs of one parent.  A candidate comes back as a
header and a coinbase: the node puts them into the block it remembers (`poolBlockSubmit`) or into
the block it is shown (`poolBlockSubmitFull`) and checks what it can check.

The node the patch is applied to is not in this repository.  What the adapter uses of it is
`OfficialNode`: the consensus codec, the transaction id, the header hash and the proof-of-work
test.  What comes out of the node's database and mempool for one template is a `ChainView`.  The
bearer token is checked before any of this, and what happens to an assembled block (index, reorg,
relay) comes after it.
-/
import CsdPool.Bridge.MaterialCache
import CsdPool.Theory.MerkleBranch

namespace CsdPool.Adapter

open Theory (Keyed Table)

set_option autoImplicit false

/-! ## Headers -/

structure BlockHeader where
  version : UInt32
  prev : Hash32
  merkle : Hash32
  time : UInt64
  bits : UInt32
  nonce : UInt32
  deriving DecidableEq

/-- The 84 bytes of a header. -/
def BlockHeader.bytes (header : BlockHeader) : Bytes 84 :=
  header84 header.version header.prev header.merkle header.time header.bits header.nonce

/-- `&bytes[start..start + width]`. -/
def slice {n : Nat} (bytes : Bytes n) (start width : Nat) (fits : start + width ≤ n) :
    Bytes width :=
  ⟨(bytes.toList.drop start).take width, by
    rw [List.length_take, List.length_drop, bytes.toList_length]
    omega⟩

/-- The number a little-endian byte string denotes. -/
def leValue (bytes : List UInt8) : Nat :=
  bytes.foldr (fun byte value => byte.toNat + 256 * value) 0

def normalizedHash (value : String) : String := (stripPrefix "0x" value).getD value

def decodePoolHeader (value : String) : Except String BlockHeader :=
  match hexDecode (normalizedHash value) with
  | none => .error "header_hex is invalid hex"
  | some bytes =>
      if length : bytes.length = 84 then
        let raw : Bytes 84 := ⟨bytes, length⟩
        .ok {
          version := UInt32.ofNat (leValue (slice raw 0 4 (by decide)).toList)
          prev := slice raw 4 32 (by decide)
          merkle := slice raw 36 32 (by decide)
          time := UInt64.ofNat (leValue (slice raw 68 8 (by decide)).toList)
          bits := UInt32.ofNat (leValue (slice raw 76 4 (by decide)).toList)
          nonce := UInt32.ofNat (leValue (slice raw 80 4 (by decide)).toList) }
      else .error s!"header_hex must be 84 bytes, got {bytes.length}"

/-! ## The official node -/

structure Block (Tx : Type) where
  header : BlockHeader
  txs : List Tx

/-- What the adapter takes from the node it is compiled into. -/
structure OfficialNode where
  Transaction : Type
  serialize : Transaction → Except String (List UInt8)
  deserialize : List UInt8 → Except String Transaction
  serializeBlock : Block Transaction → Except String (List UInt8)
  deserializeBlock : List UInt8 → Except String (Block Transaction)
  /-- `tx.inputs[0].script_sig.extend_from_slice(bytes)`. -/
  extendScriptSig : Transaction → List UInt8 → Transaction
  txid : Transaction → Hash32
  headerHash : BlockHeader → Hash32
  bitsToTargetBytes : UInt32 → Hash32
  powOk : Hash32 → UInt32 → Bool
  maxBlockBytes : Nat

/-- What the node's chain and mempool give to one template: the tip, `build_template` (the
coinbase first), `choose_pool_block_time` and `expected_bits`. -/
structure ChainView (Tx : Type) where
  parent : Hash32
  height : Nat
  coinbase : Tx
  others : List Tx
  time : UInt64
  bits : UInt32

structure PoolApiError where
  status : Nat
  error : String
  deriving DecidableEq, Repr

def badRequest (error : String) : PoolApiError := ⟨400, error⟩
def conflict (error : String) : PoolApiError := ⟨409, error⟩
def payloadTooLarge (error : String) : PoolApiError := ⟨413, error⟩
def internalServerError (error : String) : PoolApiError := ⟨500, error⟩

/-! ## Merkle roots and branches -/

section Merkle

variable (digest : Digest)

/-- `sha256d(left || right)`. -/
def pairDigest (left right : Hash32) : Hash32 := sha256d digest (left.toList ++ right.toList)

/-- The branch of the first transaction: the loop notes its sibling in every layer. -/
def poolMerkleBranch (txids : List Hash32) : List Hash32 :=
  if txids.length ≤ 1 then []
  else Theory.Merkle.siblings (pairDigest digest) txids.length txids

/-- The layers are climbed while they have two nodes; a block has a coinbase, so there is a first
one. -/
def merkleRootTxids (coinbase : Hash32) (others : List Hash32) : Hash32 :=
  (Theory.Merkle.climb (pairDigest digest) (others.length + 1) (coinbase :: others)).headD coinbase

end Merkle

/-! ## Templates -/

/-- The response has the fields the pool reads a template from. -/
abbrev PoolTemplateResp := Bridge.NodeMiningTemplate

/-- A job of the cache, under the job id of its template. -/
structure PoolMiningJob (Tx : Type) where
  block : Block Tx
  coinb1 : List UInt8
  coinb2 : List UInt8
  height : Nat
  template : PoolTemplateResp

instance instKeyedPoolMiningJob (Tx : Type) : Keyed (PoolMiningJob Tx) String :=
  ⟨fun job => job.template.jobId⟩

abbrev PoolJobs (Tx : Type) := Table (PoolMiningJob Tx)

def poolExtranoncePlaceholder : List UInt8 := [0xfa, 0xce, 0xb0, 0x0c, 0xc5, 0xd0, 0x0d, 0x01]

/-- Where the placeholder stands among the windows of a byte string. -/
def placeholderPositions (bytes : List UInt8) : List Nat :=
  (List.range (bytes.length + 1 - poolExtranoncePlaceholder.length)).filter fun index =>
    (bytes.drop index).take poolExtranoncePlaceholder.length = poolExtranoncePlaceholder

/-- The bytes before and after the placeholder, if it stands in one place only. -/
def splitAtPlaceholder (bytes : List UInt8) : Option (List UInt8 × List UInt8) :=
  match placeholderPositions bytes with
  | [split] => some (bytes.take split, bytes.drop (split + poolExtranoncePlaceholder.length))
  | _ => none

/-- `{:08x}`: the digits of the big-endian bytes. -/
def hex08 (n : UInt32) : String := hexEncode (toLeBytes 4 n.toNat).toList.reverse

/-- The target of difficulty one. -/
def pdiff1 : Hash32 :=
  ⟨List.replicate 4 0 ++ [0xff, 0xff] ++ List.replicate 26 0, by decide⟩

section Endpoints

variable (digest : Digest) (node : OfficialNode)

/-- The block of a template and what the pool is told of it. -/
def templateJob (view : ChainView node.Transaction) (coinb1 coinb2 : List UInt8) :
    PoolMiningJob node.Transaction :=
  let coinbase := node.extendScriptSig view.coinbase poolExtranoncePlaceholder
  let txids := view.others.map node.txid
  let header : BlockHeader :=
    { version := 1
      prev := view.parent
      merkle := merkleRootTxids digest (node.txid coinbase) txids
      time := view.time
      bits := view.bits
      nonce := 0 }
  { block := ⟨header, coinbase :: view.others⟩
    coinb1, coinb2
    height := view.height
    template :=
      { jobId := hexEncode (node.headerHash header).toList
        prevHashBeHex := hexEncode view.parent.toList.reverse
        coinb1Hex := hexEncode coinb1
        coinb2Hex := hexEncode coinb2
        merkleBranchesHex :=
          (poolMerkleBranch digest (node.txid coinbase :: txids)).map fun hash => hexEncode hash.toList
        versionHex := hex08 1
        nbitsHex := hex08 view.bits
        ntimeHex := hex08 view.time.toUInt32
        cleanJobs := true
        shareTargetHex := hexEncode pdiff1.toList
        networkTargetHex := hexEncode (node.bitsToTargetBytes view.bits).toList } }

/-- `jobs.retain`, `jobs.clear` of a full cache, `jobs.insert`. -/
def cacheJob (jobs : PoolJobs node.Transaction) (job : PoolMiningJob node.Transaction) :
    PoolJobs node.Transaction :=
  let kept := jobs.filter fun old => old.block.header.prev = job.block.header.prev
  (if kept.rows.length ≥ 32 then Table.empty else kept).put job

def poolMiningTemplate (jobs : PoolJobs node.Transaction) (view : ChainView node.Transaction) :
    Except PoolApiError (PoolTemplateResp × PoolJobs node.Transaction) :=
  match node.serialize (node.extendScriptSig view.coinbase poolExtranoncePlaceholder) with
  | .error error => .error (internalServerError error)
  | .ok bytes =>
      match splitAtPlaceholder bytes with
      | none => .error (internalServerError "coinbase extranonce placeholder is not unique")
      | some (coinb1, coinb2) =>
          if view.time.toNat > 2 ^ 32 - 1 then
            .error (internalServerError "block time exceeds Stratum v1 range")
          else
            let job := templateJob digest node view coinb1 coinb2
            .ok (job.template, cacheJob node jobs job)

/-! ## Candidates -/

structure PoolCandidateReq where
  jobId : String
  headerHex : String
  hashHex : String
  coinbaseTxidHex : String
  coinbaseHex : String
  deriving DecidableEq, Repr

structure PoolFullCandidateReq where
  candidate : PoolCandidateReq
  blockTemplateHex : String
  blockTemplateSha256Hex : String
  blockTemplateBytes : Nat
  deriving DecidableEq, Repr

/-- The part of the assembly that looks at the header: the fixed fields, then the block with its
new coinbase and header is checked against the hash and the target. -/
def solvedBlock (block : Block node.Transaction) (coinbase : node.Transaction)
    (request : PoolCandidateReq) : Except PoolApiError (Block node.Transaction) :=
  match decodePoolHeader request.headerHex with
  | .error error => .error (badRequest error)
  | .ok header =>
      if header.version ≠ block.header.version ∨ header.prev ≠ block.header.prev ∨
          header.time ≠ block.header.time ∨ header.bits ≠ block.header.bits then
        .error (conflict "header fixed fields do not match pool job")
      else
        match block.txs with
        | [] => .error (badRequest "pool job has no coinbase")
        | _ :: others =>
            let hash := node.headerHash header
            if header.merkle ≠
                merkleRootTxids digest (node.txid coinbase) (others.map node.txid) then
              .error (badRequest "block merkle root mismatch")
            else if ¬ eqIgnoreAsciiCase (hexEncode hash.toList) (normalizedHash request.hashHex) then
              .error (badRequest "block hash mismatch")
            else if ¬ node.powOk hash header.bits then
              .error (badRequest "block proof of work failed")
            else .ok ⟨header, coinbase :: others⟩

def assemblePoolBlock (block : Block node.Transaction) (coinb1 coinb2 : List UInt8)
    (request : PoolCandidateReq) : Except PoolApiError (Block node.Transaction) :=
  match hexDecode (normalizedHash request.coinbaseHex) with
  | none => .error (badRequest "coinbase_hex is invalid")
  | some bytes =>
      if bytes.length ≠ coinb1.length + 8 + coinb2.length ∨ ¬ coinb1 <+: bytes ∨
          ¬ coinb2 <:+ bytes then
        .error (badRequest "coinbase does not match pool job")
      else
        match node.deserialize bytes with
        | .error error => .error (badRequest s!"coinbase decode failed: {error}")
        | .ok coinbase =>
            if (node.serialize coinbase).toOption ≠ some bytes then
              .error (badRequest "coinbase encoding is not canonical")
            else if ¬ eqIgnoreAsciiCase (hexEncode (node.txid coinbase).toList)
                (normalizedHash request.coinbaseTxidHex) then
              .error (badRequest "coinbase txid mismatch")
            else solvedBlock digest node block coinbase request

def poolBlockSubmit (jobs : PoolJobs node.Transaction) (request : PoolCandidateReq) :
    Except PoolApiError (Block node.Transaction) :=
  match jobs.find? request.jobId with
  | none => .error (conflict "stale or unknown pool job")
  | some job => assemblePoolBlock digest node job.block job.coinb1 job.coinb2 request

/-- The bytes of the job's own block, for a pool that will show them to another node. -/
def poolMiningTemplateMaterial (jobs : PoolJobs node.Transaction) (jobId : String) :
    Except PoolApiError Bridge.StatelessNodeMiningTemplate :=
  match jobs.find? jobId with
  | none => .error (conflict "stale or unknown pool job")
  | some job =>
      match node.serializeBlock job.block with
      | .error error => .error (internalServerError error)
      | .ok bytes =>
          if bytes.length > node.maxBlockBytes then
            .error (internalServerError "cached pool block exceeds consensus size limit")
          else .ok
            { template := job.template
              blockTemplateHex := hexEncode bytes
              blockTemplateSha256Hex := hexEncode (digest bytes).toList
              blockTemplateBytes := bytes.length }

/-- The checks that bind the shown block to the candidate, and the split of its coinbase. -/
def shownBlock (bytes : List UInt8) (jobId : String) :
    Except PoolApiError (Block node.Transaction × List UInt8 × List UInt8) :=
  match node.deserializeBlock bytes with
  | .error error => .error (badRequest s!"block template decode failed: {error}")
  | .ok template =>
      if (node.serializeBlock template).toOption ≠ some bytes then
        .error (badRequest "block template encoding is not canonical")
      else if ¬ eqIgnoreAsciiCase (hexEncode (node.headerHash template.header).toList)
          (normalizedHash jobId) then
        .error (conflict "job_id does not bind the canonical block template")
      else
        match template.txs with
        | [] => .error (badRequest "block template has no coinbase")
        | coinbase :: _ =>
            match node.serialize coinbase with
            | .error error => .error (badRequest error)
            | .ok coinbaseBytes =>
                match splitAtPlaceholder coinbaseBytes with
                | none =>
                    .error (badRequest "block template coinbase placeholder is not unique")
                | some (coinb1, coinb2) => .ok (template, coinb1, coinb2)

def poolBlockSubmitFull (request : PoolFullCandidateReq) :
    Except PoolApiError (Block node.Transaction) :=
  let encoded := normalizedHash request.blockTemplateHex
  if encoded.utf8ByteSize > node.maxBlockBytes * 2 ∨ encoded.utf8ByteSize % 2 ≠ 0 then
    .error (payloadTooLarge
      "block_template_hex exceeds the encoded consensus limit or has odd length")
  else
    match hexDecode encoded with
    | none => .error (badRequest "block_template_hex is invalid")
    | some bytes =>
        if bytes.length > node.maxBlockBytes ∨ request.blockTemplateBytes ≠ bytes.length then
          .error (badRequest "block template byte length mismatch")
        else if ¬ eqIgnoreAsciiCase (hexEncode (digest bytes).toList)
            (normalizedHash request.blockTemplateSha256Hex) then
          .error (badRequest "block template sha256 mismatch")
        else
          match shownBlock node bytes request.candidate.jobId with
          | .error error => .error error
          | .ok (template, coinb1, coinb2) =>
              assemblePoolBlock digest node template coinb1 coinb2 request.candidate

end Endpoints

end CsdPool.Adapter
