/-
# Adapter.Assembly — a candidate of the pool against the block of its job

The pool rebuilds a header from a template it was handed; the node rebuilds the block from a header
it is handed back.  The two meet in `candidate_assembled`: for every job an adapter ever cached and
every share the bridge verified as a block candidate on it, the node assembles a block with exactly
the header the miner hashed, unless the miner rolled the time of the header.  A rolled time passes
the pool's verification and is the one thing the node refuses.
-/
import CsdPool.Adapter.Issued
import CsdPool.Bridge.Candidate
import CsdPool.Theory.Sha256

namespace CsdPool.Adapter

open Theory (Keyed Table Machine)

set_option autoImplicit false

/-! ## Candidates -/

/-- What the node reads of the pool's request. -/
def poolCandidateReq (request : Bridge.BlockCandidateSubmitRequest) : PoolCandidateReq where
  jobId := request.jobId
  headerHex := request.headerHex
  hashHex := request.hashHex
  coinbaseTxidHex := request.coinbaseTxidHex
  coinbaseHex := request.coinbaseHex

section Candidates

variable {digest : Digest} {node : OfficialNode}

/-- The block a solution makes of a view. -/
def candidateBlock (digest : Digest) (node : OfficialNode) (view : ChainView node.Transaction)
    (extranonce : UInt64) (solution : SubmitSolution) : Block node.Transaction :=
  let coinbase := node.extendScriptSig view.coinbase (toLeBytes 8 extranonce.toNat).toList
  { header :=
      { version := 1
        prev := view.parent
        merkle := merkleRootTxids digest (node.txid coinbase) (view.others.map node.txid)
        time := solution.ntime.toUInt64
        bits := view.bits
        nonce := solution.nonce }
    txs := coinbase :: view.others }

/-- The share a solution makes of the pool's job is the header of that block. -/
theorem solvedShare_header (documented : node.Documented digest)
    {view : ChainView node.Transaction} {coinb1 coinb2 bytes : List UInt8}
    (written : node.serialize (node.extendScriptSig view.coinbase poolExtranoncePlaceholder) =
      .ok bytes)
    (split : splitAtPlaceholder bytes = some (coinb1, coinb2)) (extranonce1Le : Bytes 4)
    (solution : SubmitSolution) :
    let share := solvedShare digest (poolWorkTemplate digest node view coinb1 coinb2)
      extranonce1Le solution
    let block := candidateBlock digest node view
      (composeExtranonce extranonce1Le solution.extranonce2Le) solution
    block.header.bytes = share.header ∧ node.headerHash block.header = share.hash ∧
      share.coinbaseTxid = node.txid (node.extendScriptSig view.coinbase
        (toLeBytes 8 (composeExtranonce extranonce1Le solution.extranonce2Le).toNat).toList) := by
  intro share block
  have txid : node.txid (node.extendScriptSig view.coinbase
      (toLeBytes 8 (composeExtranonce extranonce1Le solution.extranonce2Le).toNat).toList) =
      share.coinbaseTxid :=
    documented.txid (serialize_solved documented written split _)
  have merkle : block.header.merkle = share.merkleRoot := by
    show merkleRootTxids digest (node.txid _) _ = merkleRootFromBranch digest share.coinbaseTxid _
    rw [txid]
    exact (merkleRootFromBranch_poolMerkleBranch digest _ _ _).symm
  have header : block.header.bytes = share.header := by
    show header84 1 view.parent block.header.merkle _ _ _ = header84 1 view.parent share.merkleRoot
      _ _ _
    rw [merkle]
    rfl
  exact ⟨header, by rw [documented.headerHash, header]; rfl, txid.symm⟩

/-- The header is the last thing to be checked: a rolled time is a conflict, any other candidate
is the block. -/
theorem solvedBlock_eq (documented : node.Documented digest) {view : ChainView node.Transaction}
    (coinb1 coinb2 : List UInt8) {extranonce : UInt64} {solution : SubmitSolution}
    {request : PoolCandidateReq}
    (header : request.headerHex =
      hexEncode (candidateBlock digest node view extranonce solution).header.bytes.toList)
    (hash : request.hashHex =
      hexEncode (node.headerHash (candidateBlock digest node view extranonce solution).header).toList)
    (work : hashLeqTarget
      (node.headerHash (candidateBlock digest node view extranonce solution).header)
      (node.bitsToTargetBytes view.bits) = true) :
    solvedBlock digest node (templateJob digest node view coinb1 coinb2).block
        (node.extendScriptSig view.coinbase (toLeBytes 8 extranonce.toNat).toList) request =
      if solution.ntime.toUInt64 = view.time then
        .ok (candidateBlock digest node view extranonce solution)
      else .error (conflict "header fixed fields do not match pool job") := by
  unfold solvedBlock
  rw [header, decodePoolHeader_bytes]
  dsimp only
  by_cases kept : solution.ntime.toUInt64 = view.time
  · have fixed : ¬ ((candidateBlock digest node view extranonce solution).header.version ≠
          (templateJob digest node view coinb1 coinb2).block.header.version ∨
        (candidateBlock digest node view extranonce solution).header.prev ≠
          (templateJob digest node view coinb1 coinb2).block.header.prev ∨
        (candidateBlock digest node view extranonce solution).header.time ≠
          (templateJob digest node view coinb1 coinb2).block.header.time ∨
        (candidateBlock digest node view extranonce solution).header.bits ≠
          (templateJob digest node view coinb1 coinb2).block.header.bits) := by
      simp [candidateBlock, templateJob, kept]
    rw [if_neg fixed, if_pos kept]
    have merkle : (candidateBlock digest node view extranonce solution).header.merkle =
        merkleRootTxids digest
          (node.txid (node.extendScriptSig view.coinbase (toLeBytes 8 extranonce.toNat).toList))
          (view.others.map node.txid) := rfl
    have txs : (templateJob digest node view coinb1 coinb2).block.txs =
        node.extendScriptSig view.coinbase poolExtranoncePlaceholder :: view.others := rfl
    rw [txs]
    dsimp only
    rw [if_neg (not_not_intro merkle), hash, normalizedHash_hexEncode, eqIgnoreAsciiCase_self,
      if_neg (by simp), documented.powOk]
    exact if_neg (not_not_intro work)
  · rw [if_pos (.inr (.inr (.inl kept))), if_neg kept]

/-- A request with the bytes of its coinbase gets to the header. -/
theorem assemblePoolBlock_written (documented : node.Documented digest)
    {block : Block node.Transaction} {coinb1 coinb2 : List UInt8} {extranonce : UInt64}
    {coinbase : node.Transaction} {request : PoolCandidateReq}
    (written : node.serialize coinbase = .ok (coinbaseBytes coinb1 extranonce coinb2))
    (bytes : request.coinbaseHex = hexEncode (coinbaseBytes coinb1 extranonce coinb2))
    (txid : request.coinbaseTxidHex = hexEncode (node.txid coinbase).toList) :
    assemblePoolBlock digest node block coinb1 coinb2 request =
      solvedBlock digest node block coinbase request := by
  have length : (coinbaseBytes coinb1 extranonce coinb2).length =
      coinb1.length + 8 + coinb2.length := by
    simp [coinbaseBytes, Nat.add_assoc]
  have begins : coinb1 <+: coinbaseBytes coinb1 extranonce coinb2 := by
    simp [coinbaseBytes]
  have ends : coinb2 <:+ coinbaseBytes coinb1 extranonce coinb2 := List.suffix_append _ _
  unfold assemblePoolBlock
  rw [bytes, normalizedHash_hexEncode, hexDecode_hexEncode]
  dsimp only
  rw [if_neg (by simp [length, begins, ends]), documented.deserialize written]
  dsimp only
  rw [written, if_neg (by simp [Except.toOption]), txid, normalizedHash_hexEncode,
    eqIgnoreAsciiCase_self, if_neg (by simp)]

/-- A request of the share a solution makes, against the block of its template. -/
theorem assemblePoolBlock_candidate (documented : node.Documented digest)
    {view : ChainView node.Transaction} {coinb1 coinb2 bytes : List UInt8}
    (written : node.serialize (node.extendScriptSig view.coinbase poolExtranoncePlaceholder) =
      .ok bytes)
    (split : splitAtPlaceholder bytes = some (coinb1, coinb2)) {extranonce1Le : Bytes 4}
    {solution : SubmitSolution} {share : VerifiedShare}
    (solved : share = solvedShare digest (poolWorkTemplate digest node view coinb1 coinb2)
      extranonce1Le solution)
    (candidate : share.isBlockCandidate = true) {request : PoolCandidateReq}
    (header : request.headerHex = hexEncode share.header.toList)
    (hash : request.hashHex = hexEncode share.hash.toList)
    (txid : request.coinbaseTxidHex = hexEncode share.coinbaseTxid.toList)
    (coinbase : request.coinbaseHex = hexEncode
      (coinbaseBytes coinb1 (composeExtranonce extranonce1Le solution.extranonce2Le) coinb2)) :
    assemblePoolBlock digest node (templateJob digest node view coinb1 coinb2).block coinb1 coinb2
        request =
      if solution.ntime.toUInt64 = view.time then
        .ok (candidateBlock digest node view
          (composeExtranonce extranonce1Le solution.extranonce2Le) solution)
      else .error (conflict "header fixed fields do not match pool job") := by
  subst solved
  obtain ⟨sameHeader, sameHash, sameTxid⟩ :=
    solvedShare_header documented written split extranonce1Le solution
  have serialized := serialize_solved documented written split
    (composeExtranonce extranonce1Le solution.extranonce2Le)
  rw [assemblePoolBlock_written documented serialized coinbase (by rw [txid, sameTxid])]
  refine solvedBlock_eq documented coinb1 coinb2 (by rw [header, ← sameHeader])
    (by rw [hash, ← sameHash]) ?_
  rw [sameHash]
  exact candidate

/-- A candidate for a cached job is assembled on the block of that job. -/
theorem poolBlockSubmit_found {jobs : PoolJobs node.Transaction} {request : PoolCandidateReq}
    {job : PoolMiningJob node.Transaction} (found : jobs.find? request.jobId = some job) :
    poolBlockSubmit digest node jobs request =
      assemblePoolBlock digest node job.block job.coinb1 job.coinb2 request := by
  unfold poolBlockSubmit
  rw [found]

/-- **A candidate of the pool is a block of the node.**  In every run of the template endpoint the
pool reads every cached job, and of every share it verified as a block candidate on that job the
node makes the block whose header the miner hashed and whose transactions are the job's with the
miner's coinbase, unless the miner changed the time; then, and only then, the node refuses it. -/
theorem candidate_assembled (documented : node.Documented digest) {jobs : PoolJobs node.Transaction}
    (reached : (jobsMachine digest node).Reachable jobs) {jobId : String}
    {job : PoolMiningJob node.Transaction} (found : jobs.find? jobId = some job) :
    ∃ poolJob, job.template.intoPoolJob = .ok poolJob ∧
      ∀ (extranonce1Le : Bytes 4) (miner : Address) (submit : Bridge.SubmitParams)
        (vardiff : Bridge.VardiffState) (now : Nat) (share : VerifiedShare) (difficulty : ℚ)
        (request : Bridge.BlockCandidateSubmitRequest), submit.jobId = jobId →
        Bridge.verifySubmitForVardiff digest poolJob.template extranonce1Le submit vardiff now =
          .ok (share, difficulty) →
        share.isBlockCandidate = true →
        Bridge.blockCandidateSubmitRequest poolJob miner submit share extranonce1Le = .ok request →
        ∃ (block : Block node.Transaction) (coinbase : node.Transaction) (ntime : UInt32),
          parseU32Hex "ntime_hex" submit.ntimeHex = .ok ntime ∧
          block.header.bytes = share.header ∧ node.headerHash block.header = share.hash ∧
          block.txs = coinbase :: job.block.txs.tail ∧ node.txid coinbase = share.coinbaseTxid ∧
          poolBlockSubmit digest node jobs (poolCandidateReq request) =
            if ntime.toUInt64 = job.block.header.time then .ok block
            else .error (conflict "header fixed fields do not match pool job") := by
  obtain ⟨view, built, -, bytes, written, split⟩ :=
    (issued_known reached job (Table.mem_of_find? found)).built
  obtain ⟨poolJob, read, template⟩ :=
    intoPoolJob_templateJob digest node view job.coinb1 job.coinb2
  refine ⟨poolJob, by rw [built]; exact read, ?_⟩
  intro extranonce1Le miner submit vardiff now share difficulty request named verified candidate
    requested
  rw [template] at verified
  obtain ⟨solution, parsed, solved⟩ := Bridge.verifySubmitForVardiff_ok verified
  obtain ⟨extranonce2, ntime, -⟩ := Bridge.solutionFromSubmit_ok parsed
  have decoded : parseLeU32HexBytes "extranonce2" submit.extranonce2Hex =
      .ok solution.extranonce2Le := Bridge.decodeHex_ok_field extranonce2 _
  unfold Bridge.blockCandidateSubmitRequest at requested
  rw [decoded, template] at requested
  cases requested
  obtain ⟨header, hash, txid⟩ :=
    solvedShare_header documented written split extranonce1Le solution
  rw [← solved] at header hash txid
  refine ⟨_, _, solution.ntime, ntime, header, hash, ?_, txid.symm, ?_⟩
  · rw [built]
    rfl
  · have known : jobs.find? submit.jobId = some job := by rw [named, found]
    rw [poolBlockSubmit_found known, built]
    exact assemblePoolBlock_candidate documented written split solved candidate rfl rfl rfl rfl

end Candidates

/-! ### One node -/

namespace Sample

/-- A coinbase is its signature script, written after its length, and what follows it. -/
structure Tx where
  scriptSig : List UInt8
  rest : List UInt8
  deriving DecidableEq, Repr

def serialize (tx : Tx) : Except String (List UInt8) :=
  if tx.scriptSig.length < 256 then
    .ok (UInt8.ofNat tx.scriptSig.length :: (tx.scriptSig ++ tx.rest))
  else .error "script_sig is too long"

def deserialize : List UInt8 → Except String Tx
  | [] => .error "unexpected end"
  | length :: bytes => .ok ⟨bytes.take length.toNat, bytes.drop length.toNat⟩

/-- The chain as the sample's node sees it. -/
def view : ChainView Tx where
  parent := .replicate 32 7
  height := 1
  coinbase := ⟨[1, 2], [3, 4]⟩
  others := [⟨[5], [6]⟩, ⟨[8], [9]⟩]
  time := 100
  bits := 0x1d00ffff

/-- A mantissa of 23 bits and an exponent that counts bytes. -/
def compactTarget (bits : UInt32) : Hash32 :=
  let target := bits.toNat % 2 ^ 23 * 256 ^ (bits.toNat / 2 ^ 24 - 3)
  .ofFn fun i => UInt8.ofNat (target / 256 ^ (31 - i.val))

example : compactTarget 0x1d00ffff = pdiff1 := by decide

def extranonce1Le : Bytes 4 := toLeBytes 4 10

/-- A codec of the one block `shown`. -/
def serializeBlock (shown block : Block Tx) : Except String (List UInt8) :=
  if block.header = shown.header ∧ block.txs = shown.txs then .ok [0x0a, 0x0b]
  else .error "another block"

theorem serializeBlock_self (shown : Block Tx) : serializeBlock shown shown = .ok [0x0a, 0x0b] :=
  if_pos ⟨rfl, rfl⟩

def deserializeBlock (shown : Block Tx) (bytes : List UInt8) : Except String (Block Tx) :=
  if bytes = [0x0a, 0x0b] then .ok shown else .error "another block"

/-- A node on that chain, which can write and read one block. -/
def node (digest : Digest) (shown : Block Tx) : OfficialNode where
  Transaction := Tx
  serialize := serialize
  deserialize := deserialize
  serializeBlock := serializeBlock shown
  deserializeBlock := deserializeBlock shown
  extendScriptSig tx added := ⟨tx.scriptSig ++ added, tx.rest⟩
  txid tx := sha256d digest ((serialize tx).toOption.getD [])
  headerHash header := CsdPool.headerHash digest header.bytes
  bitsToTargetBytes := compactTarget
  powOk hash bits := hashLeqTarget hash (compactTarget bits)
  maxBlockBytes := Bridge.maxCsdBlockBytes

/-- The sample's node does what a node is documented to do. -/
theorem documented (digest : Digest) (shown : Block Tx) :
    (node digest shown).Documented digest where
  headerHash _ := rfl
  powOk _ _ := rfl
  txid := by
    intro tx bytes written
    show sha256d digest ((serialize tx).toOption.getD []) = _
    rw [show serialize tx = .ok bytes from written]
    rfl
  deserialize := by
    intro tx bytes written
    change serialize tx = .ok bytes at written
    show deserialize bytes = .ok tx
    unfold serialize at written
    split at written
    · rename_i short
      cases written
      have length : (UInt8.ofNat tx.scriptSig.length).toNat = tx.scriptSig.length := by
        simpa using Nat.mod_eq_of_lt short
      simp only [deserialize, length, List.take_left, List.drop_left]
      rfl
    · cases written
  deserializeBlock := by
    intro block bytes written
    change serializeBlock shown block = .ok bytes at written
    show deserializeBlock shown bytes = .ok block
    unfold serializeBlock at written
    split at written
    · rename_i same
      cases written
      obtain ⟨header, txs⟩ := block
      obtain ⟨rfl, rfl⟩ := same
      rfl
    · cases written
  scriptSig := by
    intro tx added bytes written
    change serialize ⟨tx.scriptSig ++ added, tx.rest⟩ = .ok bytes at written
    unfold serialize at written
    split at written
    · rename_i short
      cases written
      refine ⟨UInt8.ofNat (tx.scriptSig ++ added).length :: tx.scriptSig, tx.rest, by simp, ?_⟩
      intro other length
      have same : (tx.scriptSig ++ other).length = (tx.scriptSig ++ added).length := by
        rw [List.length_append, List.length_append, length]
      show serialize ⟨tx.scriptSig ++ other, tx.rest⟩ = _
      unfold serialize
      dsimp only
      rw [same, if_pos short]
      simp
    · cases written
  blockLimit := rfl

def coinb1 : List UInt8 := [10, 1, 2]

def coinb2 : List UInt8 := [3, 4]

variable (digest : Digest) (block : Block Tx)

def job : PoolMiningJob (node digest block).Transaction :=
  templateJob digest (node digest block) view coinb1 coinb2

def jobs : PoolJobs (node digest block).Transaction :=
  cacheJob (node digest block) .empty (job digest block)

theorem jobs_reached : (jobsMachine digest (node digest block)).Reachable (jobs digest block) :=
  .next (e := view) (.start rfl) trivial rfl

theorem job_found :
    (jobs digest block).find? (job digest block).template.jobId = some (job digest block) :=
  find?_cacheJob _ _

/-- The block of `view`'s template, of which the codec is no part. -/
def shown : Block Tx := (job digest ⟨⟨0, view.parent, view.parent, 0, 0, 0⟩, []⟩).block

theorem job_block : (job digest (shown digest)).block = shown digest := rfl

/-- A solution of difficulty one. -/
def submit : Bridge.SubmitParams where
  workerName := "csd1miner.rig"
  jobId := (job digest block).template.jobId
  extranonce2Hex := "0f000000"
  ntimeHex := "00000064"
  nonceHex := "315455fa"

/-- A solution that was found by search. -/
def solution : SubmitSolution := ⟨toLeBytes 4 15, 100, 827610618⟩

theorem parsed : Bridge.solutionFromSubmit (submit digest block) = .ok solution := by
  have extranonce2 : parseLeU32HexBytes "extranonce2_hex" "0f000000" = .ok (toLeBytes 4 15) := by
    decide
  have ntime : parseU32Hex "ntime_hex" "00000064" = .ok 100 := by decide
  have nonce : parseU32Hex "nonce_hex" "315455fa" = .ok 827610618 := by decide
  unfold Bridge.solutionFromSubmit submit
  rw [extranonce2, ntime, nonce]
  rfl

def workTemplate : WorkTemplate := poolWorkTemplate digest (node digest block) view coinb1 coinb2

def share : VerifiedShare := solvedShare digest (workTemplate digest block) extranonce1Le solution

/-- The pool reads the template as the node built it. -/
theorem read : ∃ poolJob, (job digest block).template.intoPoolJob = .ok poolJob ∧
    poolJob.template = workTemplate digest block :=
  intoPoolJob_templateJob digest (node digest block) view coinb1 coinb2

theorem verified {digest : Digest} {block : Block Tx}
    (met : hashLeqTarget (share digest block).hash (targetForDifficulty pdiff1 1) = true) :
    Bridge.verifySubmitForVardiff digest (workTemplate digest block) extranonce1Le
        (submit digest block) ⟨1, none, none⟩ 0 = .ok (share digest block, 1) :=
  Bridge.verifySubmitForVardiff_of_met (parsed digest block) (by exact met) 0

theorem candidate {digest : Digest} {block : Block Tx}
    (met : hashLeqTarget (share digest block).hash (compactTarget view.bits) = true) :
    (share digest block).isBlockCandidate = true := met

/-- The digest of the header that the solution makes. -/
def mined : Hash32 :=
  ⟨[0x00, 0x00, 0x00, 0x00, 0x3d, 0x15, 0xbf, 0x12, 0xae, 0x60, 0xe8, 0xbe, 0x3b, 0xd3, 0x95, 0xa8,
    0x29, 0x8b, 0xcf, 0x58, 0x35, 0x43, 0x2a, 0x5a, 0x66, 0xe4, 0x94, 0x95, 0x3c, 0xf5, 0x6b, 0xa9],
    by decide⟩

theorem share_hash : (share Theory.Sha256.digest (shown Theory.Sha256.digest)).hash = mined := by
  apply List.Vector.eq
  decide +kernel

end Sample

/-- A header mined at difficulty one becomes a block. -/
theorem candidate_assembled_sample :
    ∃ poolJob request block,
      (Sample.job Theory.Sha256.digest (Sample.shown Theory.Sha256.digest)).template.intoPoolJob =
        .ok poolJob ∧
      Bridge.blockCandidateSubmitRequest poolJob "csd1miner"
          (Sample.submit Theory.Sha256.digest (Sample.shown Theory.Sha256.digest))
          (Sample.share Theory.Sha256.digest (Sample.shown Theory.Sha256.digest))
          Sample.extranonce1Le = .ok request ∧
      request.hashHex = hexEncode Sample.mined.toList ∧
      block.header.bytes =
        (Sample.share Theory.Sha256.digest (Sample.shown Theory.Sha256.digest)).header ∧
      poolBlockSubmit Theory.Sha256.digest
          (Sample.node Theory.Sha256.digest (Sample.shown Theory.Sha256.digest))
          (Sample.jobs Theory.Sha256.digest (Sample.shown Theory.Sha256.digest))
        (poolCandidateReq request) = .ok block := by
  obtain ⟨poolJob, read, all⟩ :=
    candidate_assembled (Sample.documented _ _) (Sample.jobs_reached Theory.Sha256.digest
      (Sample.shown Theory.Sha256.digest)) (Sample.job_found _ _)
  obtain ⟨same, read', template⟩ := Sample.read Theory.Sha256.digest
    (Sample.shown Theory.Sha256.digest)
  obtain rfl : poolJob = same := Except.ok.inj (read.symm.trans read')
  have verified := Sample.verified (by rw [Sample.share_hash]; decide +kernel)
  have candidate := Sample.candidate (by rw [Sample.share_hash]; decide +kernel)
  rw [← template] at verified
  obtain ⟨request, requested, written⟩ := Bridge.blockCandidateSubmitRequest_ok "csd1miner" verified
  obtain ⟨block, coinbase, ntime, parsed, header, -, -, -, submitted⟩ :=
    all _ _ (Sample.submit _ _) _ _ _ _ request rfl verified candidate requested
  have time : parseU32Hex "ntime_hex" "00000064" = .ok 100 := by decide
  obtain rfl : ntime = 100 := Except.ok.inj (parsed.symm.trans time)
  refine ⟨poolJob, request, block, read, requested, ?_, header, submitted.trans (if_pos rfl)⟩
  rw [← Sample.share_hash]
  exact written.2.2

end CsdPool.Adapter
