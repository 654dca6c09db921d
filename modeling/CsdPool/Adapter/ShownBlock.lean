/-
# Adapter.ShownBlock — a node without the job

A second node never cached the pool's job; it is shown the whole block of it and does what the
first node does with its cache.  The pool takes the material of every cached job, and the block
reads back as it was written, so the answers are the same, errors included (`submit_full_agrees`).
-/
import CsdPool.Adapter.Assembly

namespace CsdPool.Adapter

open Theory (Keyed Table Machine)

set_option autoImplicit false

/-! ## The block that is shown -/

section Shown

variable {digest : Digest} {node : OfficialNode}

theorem poolMiningTemplateMaterial_ok {jobs : PoolJobs node.Transaction} {jobId : String}
    {job : PoolMiningJob node.Transaction} {response : Bridge.StatelessNodeMiningTemplate}
    (found : jobs.find? jobId = some job)
    (answered : poolMiningTemplateMaterial digest node jobs jobId = .ok response) :
    ∃ bytes, node.serializeBlock job.block = .ok bytes ∧ bytes.length ≤ node.maxBlockBytes ∧
      response = ⟨job.template, hexEncode bytes, hexEncode (digest bytes).toList, bytes.length⟩ := by
  unfold poolMiningTemplateMaterial at answered
  rw [found] at answered
  dsimp only at answered
  split at answered
  · cases answered
  · rename_i bytes written
    split at answered
    · cases answered
    · rename_i fits
      cases answered
      exact ⟨bytes, written, Nat.le_of_not_lt fits, rfl⟩

/-- **The pool accepts every material of the endpoint**, and keeps it as it got it. -/
theorem intoParts_material (digest : Digest) (template : Bridge.NodeMiningTemplate)
    {bytes : List UInt8} (fits : bytes.length ≤ Bridge.maxCsdBlockBytes) :
    Bridge.StatelessNodeMiningTemplate.intoParts digest
        ⟨template, hexEncode bytes, hexEncode (digest bytes).toList, bytes.length⟩ =
      .ok (template, ⟨hexEncode bytes, hexEncode (digest bytes).toList, bytes.length⟩) := by
  have lower : toAsciiLowercase (hexEncode bytes) = hexEncode bytes :=
    toAsciiLowercase_of_lowerHex (matchesLowerHex_hexEncode bytes)
  have size : ¬ (Bridge.maxCsdBlockTemplateHexLen < (hexEncode bytes).utf8ByteSize ∨
      (hexEncode bytes).utf8ByteSize % 2 ≠ 0) := by
    rw [utf8ByteSize_hexEncode, Bridge.maxCsdBlockTemplateHexLen]
    omega
  have read : Bridge.candidateTemplateMaterial digest (some (hexEncode bytes))
      (some (hexEncode (digest bytes).toList)) (some bytes.length) =
        .ok (some ⟨hexEncode bytes, hexEncode (digest bytes).toList, bytes.length⟩) := by
    unfold Bridge.candidateTemplateMaterial
    dsimp only
    rw [if_neg size, if_neg (Nat.not_lt.2 fits), hexDecode_hexEncode]
    apply Theory.bind_ok.2
    refine ⟨bytes, rfl, ?_⟩
    rw [if_neg (not_not_intro rfl), eqIgnoreAsciiCase_self, if_neg (by simp), lower]
    rfl
  exact Theory.bind_ok.2 ⟨_, read, rfl⟩

theorem shownBlock_issued (documented : node.Documented digest)
    {job : PoolMiningJob node.Transaction} (issued : Issued digest node job) {bytes : List UInt8}
    (written : node.serializeBlock job.block = .ok bytes) :
    shownBlock node bytes job.template.jobId = .ok (job.block, job.coinb1, job.coinb2) := by
  obtain ⟨view, built, -, coinbaseBytes, coinbase, split⟩ := issued.built
  have named : job.template.jobId = hexEncode (node.headerHash job.block.header).toList := by
    rw [built]
    rfl
  have txs : job.block.txs =
      node.extendScriptSig view.coinbase poolExtranoncePlaceholder :: view.others := by
    rw [built]
    rfl
  unfold shownBlock
  rw [documented.deserializeBlock written]
  dsimp only
  rw [written, if_neg (by simp [Except.toOption]), named, normalizedHash_hexEncode,
    eqIgnoreAsciiCase_self, if_neg (by simp), txs]
  dsimp only
  rw [coinbase]
  dsimp only
  rw [split]

/-- **Showing the block does what remembering it does.**  The pool accepts the material of every
cached job, and a node that is shown it answers every candidate for the job as the node that has
the job in its cache. -/
theorem submit_full_agrees (documented : node.Documented digest) {jobs : PoolJobs node.Transaction}
    (reached : (jobsMachine digest node).Reachable jobs) (candidate : PoolCandidateReq)
    {response : Bridge.StatelessNodeMiningTemplate}
    (answered : poolMiningTemplateMaterial digest node jobs candidate.jobId = .ok response) :
    ∃ material, response.intoParts digest = .ok (response.template, material) ∧
      poolBlockSubmitFull digest node
          ⟨candidate, material.blockTemplateHex, material.blockTemplateSha256Hex,
            material.blockTemplateBytes⟩ =
        poolBlockSubmit digest node jobs candidate := by
  cases found : jobs.find? candidate.jobId with
  | none =>
      unfold poolMiningTemplateMaterial at answered
      rw [found] at answered
      cases answered
  | some job =>
      obtain ⟨bytes, written, fits, rfl⟩ := poolMiningTemplateMaterial_ok found answered
      have issued := issued_known reached job (Table.mem_of_find? found)
      have named : job.template.jobId = candidate.jobId := Table.key_of_find? found
      have shown := shownBlock_issued documented issued written
      rw [named] at shown
      refine ⟨_, intoParts_material digest job.template (documented.blockLimit ▸ fits), ?_⟩
      rw [poolBlockSubmit_found found]
      unfold poolBlockSubmitFull
      dsimp only
      rw [normalizedHash_hexEncode, utf8ByteSize_hexEncode, if_neg (by omega),
        hexDecode_hexEncode]
      dsimp only
      rw [if_neg (by omega), normalizedHash_hexEncode, eqIgnoreAsciiCase_self, if_neg (by simp),
        shown]

end Shown

/-- The material of the sample's job is given out. -/
theorem Sample.material (digest : Digest) : ∃ response,
    poolMiningTemplateMaterial digest (node digest (shown digest)) (jobs digest (shown digest))
      (job digest (shown digest)).template.jobId = .ok response := by
  have written : serializeBlock (shown digest) (job digest (shown digest)).block =
      .ok [0x0a, 0x0b] := by
    rw [job_block]
    exact serializeBlock_self _
  unfold poolMiningTemplateMaterial
  rw [job_found]
  dsimp only
  rw [show (node digest (shown digest)).serializeBlock (job digest (shown digest)).block =
    .ok [0x0a, 0x0b] from written]
  exact ⟨_, rfl⟩

/-- The request of the mined share. -/
def Sample.request (digest : Digest) (block : Block Sample.Tx) : PoolCandidateReq where
  jobId := (job digest block).template.jobId
  headerHex := hexEncode (share digest block).header.toList
  hashHex := hexEncode (share digest block).hash.toList
  coinbaseTxidHex := hexEncode (share digest block).coinbaseTxid.toList
  coinbaseHex := hexEncode (coinbaseBytes coinb1
    (composeExtranonce extranonce1Le solution.extranonce2Le) coinb2)

/-- The node that cached the job takes it. -/
theorem Sample.taken {digest : Digest} {block : Block Sample.Tx}
    (met : hashLeqTarget (share digest block).hash (compactTarget view.bits) = true) :
    poolBlockSubmit digest (node digest block) (jobs digest block) (request digest block) =
      .ok (candidateBlock digest (node digest block) view
        (composeExtranonce extranonce1Le solution.extranonce2Le) solution) := by
  have split : splitAtPlaceholder (coinb1 ++ poolExtranoncePlaceholder ++ coinb2) =
      some (coinb1, coinb2) := by decide
  have solved : share digest block =
      solvedShare digest (poolWorkTemplate digest (node digest block) view coinb1 coinb2)
        extranonce1Le solution := rfl
  rw [poolBlockSubmit_found (job_found digest block)]
  exact (assemblePoolBlock_candidate (documented digest block) rfl split solved (candidate met)
    rfl rfl rfl rfl).trans (if_pos rfl)

/-- A node that never had the job takes the mined share with it. -/
theorem submit_full_agrees_sample :
    let node := Sample.node Theory.Sha256.digest (Sample.shown Theory.Sha256.digest)
    let jobs := Sample.jobs Theory.Sha256.digest (Sample.shown Theory.Sha256.digest)
    let candidate := Sample.request Theory.Sha256.digest (Sample.shown Theory.Sha256.digest)
    ∃ response material block,
      poolMiningTemplateMaterial Theory.Sha256.digest node jobs candidate.jobId = .ok response ∧
      response.intoParts Theory.Sha256.digest = .ok (response.template, material) ∧
      candidate.hashHex = hexEncode Sample.mined.toList ∧
      poolBlockSubmit Theory.Sha256.digest node jobs candidate = .ok block ∧
      poolBlockSubmitFull Theory.Sha256.digest node
          ⟨candidate, material.blockTemplateHex, material.blockTemplateSha256Hex,
            material.blockTemplateBytes⟩ = .ok block := by
  intro node jobs candidate
  obtain ⟨response, answered⟩ := Sample.material Theory.Sha256.digest
  obtain ⟨material, parts, same⟩ := submit_full_agrees (Sample.documented _ _)
    (Sample.jobs_reached Theory.Sha256.digest (Sample.shown Theory.Sha256.digest)) candidate answered
  have met : hashLeqTarget
      (Sample.share Theory.Sha256.digest (Sample.shown Theory.Sha256.digest)).hash
      (Sample.compactTarget Sample.view.bits) = true := by
    rw [Sample.share_hash]
    decide +kernel
  have taken := Sample.taken met
  refine ⟨response, material, _, answered, parts, ?_, taken, same.trans taken⟩
  rw [← Sample.share_hash]
  rfl

end CsdPool.Adapter
