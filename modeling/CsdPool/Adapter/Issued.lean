/-
# Adapter.Issued — what is known of a job an adapter node handed out

`Issued` says of a cached job that its block is the one of some view of the chain and that its two
halves of the coinbase are the only ones around the placeholder; it holds of every job in every run
of the template endpoint (`issued_known`).  `OfficialNode.Documented` is what the adapter relies on
of the node it is compiled into.  With it a coinbase with an extranonce in the place of the
placeholder has the bytes the pool hashes (`serialize_solved`), the branch of the template folds to
the root of the block with that coinbase, and the pool reads every template
(`intoPoolJob_templateJob`).
-/
import CsdPool.Adapter.Headers
import CsdPool.Theory.Machine

namespace CsdPool.Adapter

open Theory (Keyed Table Machine)

set_option autoImplicit false

/-! ## The cache over runs -/

section Runs

variable (digest : Digest) (node : OfficialNode)

/-- Every answered template request is a step. -/
def jobsMachine : Machine (PoolJobs node.Transaction) (ChainView node.Transaction) where
  init := (· = .empty)
  step jobs view := ((poolMiningTemplate digest node jobs view).toOption).map Prod.snd

variable {digest node}

/-- A job of the endpoint: its block is the one of some view, and its split is the only one. -/
structure Issued (digest : Digest) (node : OfficialNode) (job : PoolMiningJob node.Transaction) :
    Prop where
  built : ∃ view, job = templateJob digest node view job.coinb1 job.coinb2 ∧
    view.time.toNat ≤ 2 ^ 32 - 1 ∧
    ∃ bytes, node.serialize (node.extendScriptSig view.coinbase poolExtranoncePlaceholder) =
        .ok bytes ∧
      splitAtPlaceholder bytes = some (job.coinb1, job.coinb2)

theorem poolMiningTemplate_ok {jobs jobs' : PoolJobs node.Transaction}
    {view : ChainView node.Transaction} {template : PoolTemplateResp}
    (answered : poolMiningTemplate digest node jobs view = .ok (template, jobs')) :
    ∃ job, Issued digest node job ∧ job.block.header.prev = view.parent ∧
      template = job.template ∧ jobs' = cacheJob node jobs job := by
  unfold poolMiningTemplate at answered
  split at answered
  · cases answered
  · rename_i bytes written
    split at answered
    · cases answered
    · rename_i coinb1 coinb2 halves
      split at answered
      · cases answered
      · rename_i time
        cases answered
        exact ⟨templateJob digest node view coinb1 coinb2,
          ⟨view, rfl, Nat.le_of_not_lt time, bytes, written, halves⟩, rfl, rfl, rfl⟩

theorem step_cached {jobs jobs' : PoolJobs node.Transaction} {view : ChainView node.Transaction}
    (stepped : (jobsMachine digest node).step jobs view = some jobs') :
    ∃ job, Issued digest node job ∧ job.block.header.prev = view.parent ∧
      jobs' = cacheJob node jobs job := by
  obtain ⟨⟨template, rest⟩, answered, rfl⟩ := Option.map_eq_some_iff.1 stepped
  cases result : poolMiningTemplate digest node jobs view with
  | error error => rw [result] at answered; cases answered
  | ok pair =>
      rw [result] at answered
      cases answered
      obtain ⟨job, issued, parent, -, cached⟩ := poolMiningTemplate_ok result
      exact ⟨job, issued, parent, cached⟩

/-- What is in the cache after a job came in. -/
theorem mem_cacheJob {jobs : PoolJobs node.Transaction} {job x : PoolMiningJob node.Transaction}
    (member : x ∈ (cacheJob node jobs job).rows) :
    x = job ∨ x ∈ jobs.rows ∧ x.block.header.prev = job.block.header.prev := by
  unfold cacheJob at member
  dsimp only at member
  rcases Table.mem_put.1 member with rfl | ⟨old, -⟩
  · exact .inl rfl
  · split at old
    · cases old
    · obtain ⟨kept, parent⟩ := Table.mem_filter.1 old
      exact .inr ⟨kept, of_decide_eq_true parent⟩

/-- The job that came in last is found. -/
theorem find?_cacheJob (jobs : PoolJobs node.Transaction) (job : PoolMiningJob node.Transaction) :
    (cacheJob node jobs job).find? job.template.jobId = some job := by
  unfold cacheJob
  dsimp only
  exact (Table.find?_put _ job _).trans (if_pos rfl)

/-- **Every cached job was issued**, in every run of the template endpoint. -/
theorem issued_known {jobs : PoolJobs node.Transaction}
    (reached : (jobsMachine digest node).Reachable jobs) :
    ∀ job ∈ jobs.rows, Issued digest node job := by
  refine reached.invariant (I := fun jobs => ∀ job ∈ jobs.rows, Issued digest node job) ?_ ?_
  · rintro jobs rfl job member
    cases member
  · intro jobs view jobs' _ known _ stepped job member
    obtain ⟨new, issued, -, rfl⟩ := step_cached stepped
    rcases mem_cacheJob member with rfl | ⟨old, -⟩
    · exact issued
    · exact known job old

end Runs

/-! ## The placeholder -/

theorem length_placeholder : poolExtranoncePlaceholder.length = 8 := rfl

/-- **Where the placeholder was written is where it is found**, if it is found in one place. -/
theorem splitAtPlaceholder_unique {bytes front back coinb1 coinb2 : List UInt8}
    (split : splitAtPlaceholder bytes = some (coinb1, coinb2))
    (written : bytes = front ++ poolExtranoncePlaceholder ++ back) :
    front = coinb1 ∧ back = coinb2 := by
  unfold splitAtPlaceholder at split
  split at split
  · rename_i position only
    have there : front.length ∈ placeholderPositions bytes := by
      apply List.mem_filter.2
      constructor
      · apply List.mem_range.2
        rw [written, List.length_append, List.length_append, length_placeholder]
        omega
      · apply decide_eq_true
        rw [written, List.append_assoc, List.drop_left, List.take_left' rfl]
    rw [only, List.mem_singleton] at there
    cases split
    rw [← there, written]
    constructor
    · rw [List.append_assoc, List.take_left]
    · exact (List.drop_left' List.length_append).symm
  · cases split

/-! ## What is known of the node -/

/-- The node's own header hash, transaction id, proof of work and codec.  The id of a transaction
is the double digest of its bytes, the codec reads back what it wrote, and bytes at the end of the
signature script are somewhere among the bytes of the transaction, where as many others would be.
The pool's limit for a block is the node's. -/
structure OfficialNode.Documented (node : OfficialNode) (digest : Digest) : Prop where
  headerHash : ∀ header, node.headerHash header = CsdPool.headerHash digest header.bytes
  powOk : ∀ hash bits, node.powOk hash bits = hashLeqTarget hash (node.bitsToTargetBytes bits)
  txid : ∀ {tx bytes}, node.serialize tx = .ok bytes → node.txid tx = sha256d digest bytes
  deserialize : ∀ {tx bytes}, node.serialize tx = .ok bytes → node.deserialize bytes = .ok tx
  deserializeBlock : ∀ {block bytes}, node.serializeBlock block = .ok bytes →
    node.deserializeBlock bytes = .ok block
  scriptSig : ∀ {tx added bytes}, node.serialize (node.extendScriptSig tx added) = .ok bytes →
    ∃ front back, bytes = front ++ added ++ back ∧ ∀ other : List UInt8,
      other.length = added.length →
        node.serialize (node.extendScriptSig tx other) = .ok (front ++ other ++ back)
  blockLimit : node.maxBlockBytes = Bridge.maxCsdBlockBytes

section Documented

variable {digest : Digest} {node : OfficialNode} {view : ChainView node.Transaction}
  {coinb1 coinb2 bytes : List UInt8}

/-- The coinbase with an extranonce for the placeholder is the one the pool hashes. -/
theorem serialize_solved (documented : node.Documented digest)
    (written : node.serialize (node.extendScriptSig view.coinbase poolExtranoncePlaceholder) =
      .ok bytes)
    (split : splitAtPlaceholder bytes = some (coinb1, coinb2)) (extranonce : UInt64) :
    node.serialize
        (node.extendScriptSig view.coinbase (toLeBytes 8 extranonce.toNat).toList) =
      .ok (coinbaseBytes coinb1 extranonce coinb2) := by
  obtain ⟨front, back, around, others⟩ := documented.scriptSig written
  obtain ⟨rfl, rfl⟩ := splitAtPlaceholder_unique split around
  apply others
  rw [List.Vector.toList_length, length_placeholder]

/-- **The branch of a template folds to the root of the block with another coinbase.** -/
theorem merkleRootFromBranch_poolMerkleBranch (digest : Digest) (leaf coinbase : Hash32)
    (others : List Hash32) :
    merkleRootFromBranch digest leaf (poolMerkleBranch digest (coinbase :: others)) =
      merkleRootTxids digest leaf others := by
  have branch : poolMerkleBranch digest (coinbase :: others) =
      Theory.Merkle.branch (pairDigest digest) others := by
    unfold poolMerkleBranch
    split
    · rename_i short
      rw [List.length_cons] at short
      rw [List.eq_nil_of_length_eq_zero (by omega : others.length = 0), Theory.Merkle.branch]
    · exact Theory.Merkle.siblings_eq (Nat.le_succ _)
  rw [branch]
  show (Theory.Merkle.branch (pairDigest digest) others).foldl (pairDigest digest) leaf = _
  rw [Theory.Merkle.foldl_branch]
  unfold merkleRootTxids
  rw [Theory.Merkle.climb_eq (Nat.le_succ _), List.headD_cons]

/-! ## The job of the pool -/

/-- What the pool makes of a template. -/
def poolWorkTemplate (digest : Digest) (node : OfficialNode) (view : ChainView node.Transaction)
    (coinb1 coinb2 : List UInt8) : WorkTemplate :=
  let job := templateJob digest node view coinb1 coinb2
  { jobId := job.template.jobId
    version := 1
    prev := view.parent
    time := view.time.toUInt32.toUInt64
    bits := view.bits
    shareTarget := pdiff1
    networkTarget := node.bitsToTargetBytes view.bits
    coinbasePrefix := coinb1
    coinbaseSuffix := coinb2
    merkleBranch := poolMerkleBranch digest
      (node.txid (node.extendScriptSig view.coinbase poolExtranoncePlaceholder) ::
        view.others.map node.txid) }

theorem decodePrevHash_reversed (hash : Hash32) :
    decodePrevHashFromStratum (hexEncode hash.toList.reverse) = .ok hash := by
  let reversed : Hash32 := ⟨hash.toList.reverse, by rw [List.length_reverse, hash.toList_length]⟩
  have read := decodeHex_hexEncode "prev_hash_be_hex" reversed
  show (decodeHex 32 "prev_hash_be_hex" (hexEncode reversed.toList)).map _ = _
  rw [read]
  show Except.ok _ = _
  congr 1
  apply List.Vector.eq
  exact List.reverse_reverse _

/-- **The pool reads every template of the endpoint.** -/
theorem intoPoolJob_templateJob (digest : Digest) (node : OfficialNode)
    (view : ChainView node.Transaction) (coinb1 coinb2 : List UInt8) :
    ∃ poolJob, (templateJob digest node view coinb1 coinb2).template.intoPoolJob = .ok poolJob ∧
      poolJob.template = poolWorkTemplate digest node view coinb1 coinb2 := by
  have target : ∀ (field : String) (hash : Hash32),
      decodeHash32Hex field (hexEncode hash.toList) = .ok hash :=
    fun field hash => decodeHex_hexEncode field hash
  have branch : ∀ branches : List Hash32,
      (branches.map fun hash => hexEncode hash.toList).mapM (decodeHash32Hex "merkle_branch") =
        .ok branches := by
    intro branches
    rw [List.mapM_map]
    exact (Theory.mapM_of_forall (f := id) fun hash _ => target _ hash).trans (by rw [List.map_id])
  unfold Bridge.NodeMiningTemplate.intoPoolJob Bridge.jobFromNotify templateJob
  simp only [target, branch, parseU32Hex_hex08, decodePrevHash_reversed, hexDecode_hexEncode,
    Bridge.NodeError.ofConsensus, Bridge.NodeError.ofHex, Except.mapError, Option.elim_some]
  exact ⟨_, rfl, rfl⟩

end Documented

end CsdPool.Adapter
