/-
# Bridge.Submit — jobs, submits and their verification

What a Stratum session knows when a `mining.submit` arrives: the retained job with
its template, the session's `extranonce1` and its variable difficulty.  A submit
that misses the current difficulty is tried once more at the previous, lower one
while the transition's grace lasts.

The hex texts of a submit are kept as the miner spelled them: the verification reads
numbers out of them, the database keys and constraints see the texts.
-/
import CsdPool.Consensus
import CsdPool.Db.Mining

namespace CsdPool.Bridge

set_option autoImplicit false

/-! ## Jobs -/

/-- The fields of a `mining.notify`, all of them texts but the flag. -/
structure NotifyParams where
  jobId : String
  prevHashBeHex : String
  coinb1Hex : String
  coinb2Hex : String
  merkleBranchesHex : List String
  versionHex : String
  nbitsHex : String
  ntimeHex : String
  cleanJobs : Bool
  deriving DecidableEq, Repr

/-- The serialized block of a template, which a node that never had the job is shown with a
candidate. -/
structure CandidateTemplateMaterial where
  blockTemplateHex : String
  blockTemplateSha256Hex : String
  blockTemplateBytes : Nat
  deriving DecidableEq, Repr

/-- A job goes by one id: its template is built from its notify. -/
structure PoolJob where
  notify : NotifyParams
  template : WorkTemplate
  candidateMaterial : Option CandidateTemplateMaterial
  named : template.jobId = notify.jobId

/-- Why a template makes no job. -/
inductive NodeError
  | consensus (error : ConsensusError)
  | invalidResponse (message : String)
  deriving DecidableEq, Repr

namespace NodeError

def ofConsensus {α : Type} (result : Except ConsensusError α) : Except NodeError α :=
  result.mapError .consensus

/-- A missing reading is an invalid response that names the field. -/
def ofHex (message : String) (bytes : Option (List UInt8)) : Except NodeError (List UInt8) :=
  bytes.elim (.error (.invalidResponse message)) .ok

end NodeError

open NodeError in
/-- The job of a notify: each of its texts is decoded in turn, and the first that cannot be is the
error. -/
def jobFromNotify (notify : NotifyParams) (shareTarget networkTarget : Hash32) :
    Except NodeError PoolJob := do
  let version ← ofConsensus (parseU32Hex "version_hex" notify.versionHex)
  let prev ← ofConsensus (decodePrevHashFromStratum notify.prevHashBeHex)
  let time ← ofConsensus (parseU32Hex "ntime_hex" notify.ntimeHex)
  let bits ← ofConsensus (parseU32Hex "nbits_hex" notify.nbitsHex)
  let coinbasePrefix ← ofHex "coinb1 hex" (hexDecode notify.coinb1Hex)
  let coinbaseSuffix ← ofHex "coinb2 hex" (hexDecode notify.coinb2Hex)
  let merkleBranch ← ofConsensus (notify.merkleBranchesHex.mapM (decodeHash32Hex "merkle_branch"))
  return {
    notify
    template := {
      jobId := notify.jobId
      version, prev
      time := time.toUInt64
      bits, shareTarget, networkTarget, coinbasePrefix, coinbaseSuffix, merkleBranch }
    candidateMaterial := none
    named := rfl }

/-- Why a job is published: the parent is a new one, or the time of the last job was up. -/
inductive JobReason
  | tipChange
  | heartbeat
  deriving DecidableEq, Repr

namespace JobReason

def asStr : JobReason → String
  | tipChange => "tip_change"
  | heartbeat => "heartbeat"

/-- Read off the flag that the miners are sent. -/
def fromJob (job : PoolJob) : JobReason := if job.notify.cleanJobs then tipChange else heartbeat

end JobReason

/-- The row of a job: its texts as they were sent, and the two targets as bytes. -/
def jobRecordFromPoolJob (job : PoolJob) (reason : JobReason) : JobRecord where
  jobId := job.notify.jobId
  prevHashBeHex := job.notify.prevHashBeHex
  versionHex := job.notify.versionHex
  nbitsHex := job.notify.nbitsHex
  ntimeHex := job.notify.ntimeHex
  networkTarget := job.template.networkTarget.toList
  shareTarget := job.template.shareTarget.toList
  coinb1Hex := job.notify.coinb1Hex
  coinb2Hex := job.notify.coinb2Hex
  merkleBranchesHex := job.notify.merkleBranchesHex
  cleanJobs := job.notify.cleanJobs
  jobReason := reason.asStr

/-! ## Submits -/

/-- The five parameters of a `mining.submit`, as the miner spelled them. -/
structure SubmitParams where
  workerName : String
  jobId : String
  extranonce2Hex : String
  ntimeHex : String
  nonceHex : String
  deriving DecidableEq, Repr

/-- What is left of the submitted name once the session's address and a dot are taken from its
front. Where one of them is missing, or nothing is left, the name is `default`. -/
def workerNameFromSubmit (miner submitWorkerName : String) : String :=
  (((stripPrefix miner submitWorkerName).bind (stripPrefix ".")).filter
    fun suffix => suffix ≠ "").getD "default"

/-- The row of an accepted share: the texts are those of the submit, the hash and the candidate flag
those of the verified share. -/
def shareRecordFromSubmit (sessionId : Option String) (miner : Address) (submit : SubmitParams)
    (share : VerifiedShare) (difficulty : ℚ) : ShareRecord where
  sessionId := sessionId
  miner := miner
  workerName := workerNameFromSubmit miner submit.workerName
  jobId := submit.jobId
  difficulty := difficulty
  hash := share.hash.toList
  extranonce2Hex := submit.extranonce2Hex
  ntimeHex := submit.ntimeHex
  nonceHex := submit.nonceHex
  isBlockCandidate := share.isBlockCandidate

/-! ## Verification -/

/-- What verification reads of the session's difficulty; instants are numbers. -/
structure VardiffState where
  currentDifficulty : ℚ
  previousDifficulty : Option ℚ
  transitionUntil : Option Nat

/-- The difficulty before the last change, up to its deadline and only while it is the lower one. -/
def VardiffState.previousDifficultyInGrace (vardiff : VardiffState) (now : Nat) : Option ℚ :=
  ((vardiff.transitionUntil.filter fun limit => now ≤ limit).bind
    fun _ => vardiff.previousDifficulty).filter fun previous => previous < vardiff.currentDifficulty

/-- The numbers of a submit. The time and the nonce are read as big-endian texts, the extranonce is
kept as bytes. -/
def solutionFromSubmit (submit : SubmitParams) : Except ConsensusError SubmitSolution := do
  let extranonce2Le ← parseLeU32HexBytes "extranonce2_hex" submit.extranonce2Hex
  let ntime ← parseU32Hex "ntime_hex" submit.ntimeHex
  let nonce ← parseU32Hex "nonce_hex" submit.nonceHex
  return { extranonce2Le, ntime, nonce }

section Verify

variable (digest : Digest)

/-- One trial, at one difficulty. -/
def verifySubmit (template : WorkTemplate) (extranonce1Le : Bytes 4) (submit : SubmitParams)
    (difficulty : ℚ) : Except ConsensusError VerifiedShare := do
  let solution ← solutionFromSubmit submit
  verifyShareWithDifficulty digest template extranonce1Le solution difficulty

/-- A submit is tried at the current difficulty and, should that fail, at the previous one while its
grace lasts. What comes with the share is the difficulty it met; what comes back on failure is the
error of the first trial. -/
def verifySubmitForVardiff (template : WorkTemplate) (extranonce1Le : Bytes 4)
    (submit : SubmitParams) (vardiff : VardiffState) (now : Nat) :
    Except ConsensusError (VerifiedShare × ℚ) :=
  match verifySubmit digest template extranonce1Le submit vardiff.currentDifficulty with
  | .ok share => .ok (share, vardiff.currentDifficulty)
  | .error currentError =>
      match vardiff.previousDifficultyInGrace now with
      | none => .error currentError
      | some previousDifficulty =>
          match verifySubmit digest template extranonce1Le submit previousDifficulty with
          | .ok share => .ok (share, previousDifficulty)
          | .error _ => .error currentError

variable {digest} {template : WorkTemplate} {extranonce1Le : Bytes 4} {submit : SubmitParams}
  {share : VerifiedShare}

/-- A verified share is the one the submitted solution makes, whatever the difficulty. -/
theorem verifySubmit_ok {difficulty : ℚ}
    (verified : verifySubmit digest template extranonce1Le submit difficulty = .ok share) :
    ∃ solution, solutionFromSubmit submit = .ok solution ∧
      share = solvedShare digest template extranonce1Le solution := by
  obtain ⟨solution, parsed, met⟩ := Theory.bind_ok.1 verified
  exact ⟨solution, parsed, (verifyShareAgainstTarget_ok met).1⟩

/-- At whatever difficulty a submit is accepted, the share is the one its solution makes. -/
theorem verifySubmitForVardiff_ok {vardiff : VardiffState} {now : Nat} {difficulty : ℚ}
    (verified : verifySubmitForVardiff digest template extranonce1Le submit vardiff now =
      .ok (share, difficulty)) :
    ∃ solution, solutionFromSubmit submit = .ok solution ∧
      share = solvedShare digest template extranonce1Le solution := by
  unfold verifySubmitForVardiff at verified
  split at verified
  · rename_i atCurrent
    cases verified
    exact verifySubmit_ok atCurrent
  · split at verified
    · cases verified
    · split at verified
      · rename_i atPrevious
        cases verified
        exact verifySubmit_ok atPrevious
      · cases verified

/-- A submit whose solution meets the current difficulty is accepted at it. -/
theorem verifySubmitForVardiff_of_met {solution : SubmitSolution} {vardiff : VardiffState}
    (parsed : solutionFromSubmit submit = .ok solution)
    (met : hashLeqTarget (solvedShare digest template extranonce1Le solution).hash
      (targetForDifficulty template.shareTarget vardiff.currentDifficulty) = true) (now : Nat) :
    verifySubmitForVardiff digest template extranonce1Le submit vardiff now =
      .ok (solvedShare digest template extranonce1Le solution, vardiff.currentDifficulty) := by
  have verified : verifySubmit digest template extranonce1Le submit vardiff.currentDifficulty =
      .ok (solvedShare digest template extranonce1Le solution) := by
    apply Theory.bind_ok.2
    refine ⟨solution, parsed, ?_⟩
    unfold verifyShareWithDifficulty verifyShareAgainstTarget
    exact if_pos met
  unfold verifySubmitForVardiff
  rw [verified]

/-- A solution that was read has each of its numbers from its own text. -/
theorem solutionFromSubmit_ok {solution : SubmitSolution}
    (parsed : solutionFromSubmit submit = .ok solution) :
    parseLeU32HexBytes "extranonce2_hex" submit.extranonce2Hex = .ok solution.extranonce2Le ∧
      parseU32Hex "ntime_hex" submit.ntimeHex = .ok solution.ntime ∧
        parseU32Hex "nonce_hex" submit.nonceHex = .ok solution.nonce := by
  obtain ⟨extranonce2Le, first, later⟩ := Theory.bind_ok.1 parsed
  obtain ⟨ntime, second, last⟩ := Theory.bind_ok.1 later
  obtain ⟨nonce, third, built⟩ := Theory.bind_ok.1 last
  cases built
  exact ⟨first, second, third⟩

end Verify

end CsdPool.Bridge
