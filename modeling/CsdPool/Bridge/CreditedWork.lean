/-
# Bridge.CreditedWork — a credited share is real work, and settlement reads all of it

What verification accepts is the hash of the header the submit makes of the template, and the
hash times the credited difficulty is within the base target: the difficulty is a positive whole
number (`Steady`), so its target is an exact quotient (`work_of_verified`).  Above the largest
`u64` the division saturates, and a difficulty configured there is credited in full for less
(`work_saturates`).

Whole difficulties are stored as whole numbers, so the integer part settlement takes of a miner's
sum loses nothing of what is stored (`weights_stored`).  What is stored is the text of a double:
the difficulty itself up to `2 ^ 53` (`weights_exact`), and a neighbouring decimal beyond it
(`work_saturates`).
-/
import CsdPool.Bridge.CreditSteps
import CsdPool.Targets
import Mathlib.Data.List.Dedup

namespace CsdPool.Bridge

open Theory (F64 Keyed Table Machine)

set_option autoImplicit false

variable {digest : Digest} {jobs : JobBook} {config : VardiffConfig} {s : CreditState}

/-! ## One share -/

/-- The header a solution makes of a template. -/
def solvedHeader (digest : Digest) (template : WorkTemplate) (extranonce1Le : Bytes 4)
    (solution : SubmitSolution) : Bytes 84 :=
  header84 template.version template.prev
    (merkleRootFromBranch digest
      (coinbaseTxid digest template.coinbasePrefix
        (composeExtranonce extranonce1Le solution.extranonce2Le) template.coinbaseSuffix)
      template.merkleBranch)
    solution.ntime.toUInt64 template.bits solution.nonce

/-- **What is hashed, byte for byte.** -/
theorem toList_solvedHeader (digest : Digest) (template : WorkTemplate) (extranonce1Le : Bytes 4)
    (solution : SubmitSolution) :
    (solvedHeader digest template extranonce1Le solution).toList =
      (toLeBytes 4 template.version.toNat).toList ++ template.prev.toList ++
        (merkleRootFromBranch digest (sha256d digest (template.coinbasePrefix ++
          (extranonce1Le.toList ++ solution.extranonce2Le.toList) ++ template.coinbaseSuffix))
          template.merkleBranch).toList ++
        (toLeBytes 8 solution.ntime.toUInt64.toNat).toList ++
          (toLeBytes 4 template.bits.toNat).toList ++ (toLeBytes 4 solution.nonce.toNat).toList := by
  unfold solvedHeader coinbaseTxid
  rw [toList_header84, coinbaseBytes_composeExtranonce]

/-- A share of whole difficulty `n`, as far as `cap` of it is looked at. -/
structure RealWork (digest : Digest) (cap : Nat) (template : WorkTemplate)
    (extranonce1Le : Bytes 4) (submit : SubmitParams) (v : Vardiff) (now : Nat)
    (share : VerifiedShare) (difficulty : ℚ) : Prop where
  hash : ∃ solution, solutionFromSubmit submit = .ok solution ∧
    share.header = solvedHeader digest template extranonce1Le solution ∧
    share.hash = sha256d digest share.header.toList
  work : ∃ n : Nat, 0 < n ∧ difficulty = n ∧
    share.hash.value * min n cap ≤ template.shareTarget.value
  assigned : v.currentDifficulty = .finite difficulty ∨
    ∃ limit current, v.transitionUntil = some limit ∧ now ≤ limit ∧
      v.previousDifficulty = some (.finite difficulty) ∧ v.currentDifficulty = .finite current ∧
      difficulty < current

/-- At which difficulty a submit was accepted. -/
theorem verifySubmitForVardiff_assigned {template : WorkTemplate} {extranonce1Le : Bytes 4}
    {submit : SubmitParams} {vardiff : VardiffState} {now : Nat} {share : VerifiedShare}
    {difficulty : ℚ}
    (verified : verifySubmitForVardiff digest template extranonce1Le submit vardiff now =
      .ok (share, difficulty)) :
    verifySubmit digest template extranonce1Le submit difficulty = .ok share ∧
      (difficulty = vardiff.currentDifficulty ∨
        vardiff.previousDifficultyInGrace now = some difficulty) := by
  unfold verifySubmitForVardiff at verified
  split at verified
  · rename_i atCurrent
    cases verified
    exact ⟨atCurrent, .inl rfl⟩
  · split at verified
    · cases verified
    · rename_i previous inGrace
      split at verified
      · rename_i atPrevious
        cases verified
        exact ⟨atPrevious, .inr inGrace⟩
      · cases verified

theorem previousDifficultyInGrace_some {vardiff : VardiffState} {now : Nat} {difficulty : ℚ}
    (inGrace : vardiff.previousDifficultyInGrace now = some difficulty) :
    vardiff.previousDifficulty = some difficulty ∧ difficulty < vardiff.currentDifficulty ∧
      ∃ limit, vardiff.transitionUntil = some limit ∧ now ≤ limit := by
  obtain ⟨found, lower⟩ := Option.filter_eq_some_iff.1 inGrace
  obtain ⟨limit, within, previous⟩ := Option.bind_eq_some_iff.1 found
  obtain ⟨here, inTime⟩ := Option.filter_eq_some_iff.1 within
  exact ⟨previous, of_decide_eq_true lower, limit, here, of_decide_eq_true inTime⟩

theorem realWork_of_verified {v : Vardiff} {template : WorkTemplate} {extranonce1Le : Bytes 4}
    {submit : SubmitParams} {now : Nat} {share : VerifiedShare} {difficulty : ℚ}
    (steady : Steady v)
    (verified : verifySubmitForVardiff digest template extranonce1Le submit v.view now =
      .ok (share, difficulty)) :
    RealWork digest u64Max template extranonce1Le submit v now share difficulty := by
  obtain ⟨atDifficulty, assigned⟩ := verifySubmitForVardiff_assigned verified
  obtain ⟨solution, parsed, met⟩ := Theory.bind_ok.1 atDifficulty
  have solved := (verifyShareAgainstTarget_ok met).1
  have whole : ∃ n : Nat, 0 < n ∧ difficulty = n := by
    rcases assigned with rfl | inGrace
    · exact whole_toRat steady.current
    · obtain ⟨found, -, -⟩ := previousDifficultyInGrace_some inGrace
      obtain ⟨previous, held, rfl⟩ := Option.map_eq_some_iff.1 found
      exact whole_toRat (steady.previous previous held)
  refine ⟨⟨solution, parsed, ?_, ?_⟩, ?_, ?_⟩
  · rw [solved]
    rfl
  · rw [solved]
    rfl
  · obtain ⟨n, positive, rfl⟩ := whole
    exact ⟨n, positive, rfl, work_of_verified positive met⟩
  · obtain ⟨current, previous⟩ := steady.finite
    rcases assigned with rfl | inGrace
    · exact .inl current
    · obtain ⟨found, lower, limit, bounded, inTime⟩ := previousDifficultyInGrace_some inGrace
      rw [found] at previous
      exact .inr ⟨limit, _, bounded, inTime, previous, current, lower⟩

/-! ## What settlement reads -/

/-- The difficulties credited to a miner on a job. -/
def CreditState.creditedTo (s : CreditState) (jobId : String) (miner : Address) : List ℚ :=
  (s.credited.filter fun credit =>
    credit.verified.submit.jobId = jobId && credit.verified.miner = miner).map
      fun credit => credit.verified.difficulty

/-- The same difficulties as their rows hold them. -/
def CreditState.storedFor (s : CreditState) (jobId : String) (miner : Address) : List ℚ :=
  (s.creditedTo jobId miner).map F64.shortest

theorem storedFor_rows (sound : Sound digest jobs config s) (jobId : String) (miner : Address) :
    (((s.db.shares.rows.filter fun share => share.jobId = jobId).filter
        fun share => share.miner = miner).map fun share => share.difficulty) =
      s.storedFor jobId miner := by
  unfold CreditState.storedFor CreditState.creditedTo
  rw [sound.rows, List.filter_map, List.filter_map, List.filter_filter, List.map_map, List.map_map]
  have same : ∀ credit : Credit,
      (decide (credit.verified.miner = miner) && decide (credit.verified.submit.jobId = jobId)) =
        (decide (credit.verified.submit.jobId = jobId) && decide (credit.verified.miner = miner)) :=
    fun credit => Bool.and_comm ..
  exact congrArg (List.map fun credit => F64.shortest credit.verified.difficulty)
    (List.filter_congr fun credit _ => same credit)

/-- A sum of whole numbers is whole. -/
theorem sum_whole {xs : List ℚ} (whole : ∀ x ∈ xs, ∃ n : Nat, x = n) : ∃ n : Nat, xs.sum = n := by
  induction xs with
  | nil => exact ⟨0, by simp⟩
  | cons x rest ih =>
      obtain ⟨n, rfl⟩ := whole x List.mem_cons_self
      obtain ⟨m, total⟩ := ih fun y member => whole y (List.mem_cons_of_mem _ member)
      exact ⟨n + m, by rw [List.sum_cons, total]; push_cast; rfl⟩

theorem creditedTo_whole (sound : Sound digest jobs config s) {jobId : String} {miner : Address}
    {difficulty : ℚ} (member : difficulty ∈ s.creditedTo jobId miner) :
    ∃ n : Nat, difficulty = n := by
  obtain ⟨credit, inside, rfl⟩ := List.mem_map.1 member
  obtain ⟨v, now, reached, verified⟩ := (sound.credited credit (List.mem_of_mem_filter inside)).1.call
  obtain ⟨n, -, is, -⟩ := (realWork_of_verified (steady_known reached) verified).work
  exact ⟨n, is⟩

theorem storedFor_whole (sound : Sound digest jobs config s) (jobId : String) (miner : Address) :
    ∃ n : Nat, (s.storedFor jobId miner).sum = n := by
  apply sum_whole
  intro stored member
  obtain ⟨difficulty, inside, rfl⟩ := List.mem_map.1 member
  obtain ⟨n, rfl⟩ := creditedTo_whole sound inside
  exact F64.shortest_natCast n

/-- Difficulties of at most 53 bits are stored as they are. -/
theorem storedFor_small (sound : Sound digest jobs config s) {jobId : String} {miner : Address}
    (small : ∀ difficulty ∈ s.creditedTo jobId miner, difficulty ≤ 2 ^ 53) :
    s.storedFor jobId miner = s.creditedTo jobId miner := by
  unfold CreditState.storedFor
  refine (List.map_congr_left ?_).trans (List.map_id _)
  intro difficulty member
  obtain ⟨n, rfl⟩ := creditedTo_whole sound member
  exact F64.shortest_whole (by exact_mod_cast small _ member)

theorem parseIntegerPart_natCast (n : Nat) :
    Db.parseIntegerPart n = if n < 2 ^ 64 then .ok n else .error .parseInt := by
  have floor : (n : ℚ).floor = n := by
    show ⌊(n : ℚ)⌋ = (n : ℤ)
    exact Int.floor_natCast n
  unfold Db.parseIntegerPart
  rw [floor]
  have same : (0 ≤ (n : ℚ) ∧ (n : ℤ) < 2 ^ 64) ↔ n < 2 ^ 64 := by
    constructor
    · rintro ⟨-, word⟩
      exact_mod_cast word
    · intro word
      exact ⟨Nat.cast_nonneg n, by exact_mod_cast word⟩
  simp only [same, Int.toNat_natCast]

/-- What is read for a miner is what its rows hold. -/
theorem weights_stored (sound : Sound digest jobs config s) {jobId : String}
    {weights : List ShareWeight} (read : s.db.shareWeightsForJob jobId = .ok weights)
    {weight : ShareWeight} (member : weight ∈ weights) :
    (weight.difficulty : ℚ) = (s.storedFor jobId weight.miner).sum := by
  obtain ⟨miner, -, converted⟩ := Theory.mem_mapM read member
  rw [storedFor_rows sound] at converted
  obtain ⟨n, whole⟩ := storedFor_whole sound jobId miner
  rw [whole, parseIntegerPart_natCast] at converted
  split at converted
  · cases converted
    exact whole.symm
  · cases converted

/-- What is read for a miner is what was credited, as long as a double counts in ones. -/
theorem weights_exact (sound : Sound digest jobs config s) {jobId : String}
    {weights : List ShareWeight} (read : s.db.shareWeightsForJob jobId = .ok weights)
    {weight : ShareWeight} (member : weight ∈ weights)
    (small : ∀ difficulty ∈ s.creditedTo jobId weight.miner, difficulty ≤ 2 ^ 53) :
    (weight.difficulty : ℚ) = (s.creditedTo jobId weight.miner).sum := by
  rw [weights_stored sound read member, storedFor_small sound small]

/-- Everyone who was credited on the job is read. -/
theorem weights_complete (sound : Sound digest jobs config s) {jobId : String}
    {weights : List ShareWeight} (read : s.db.shareWeightsForJob jobId = .ok weights)
    {credit : Credit} (member : credit ∈ s.credited)
    (onJob : credit.verified.submit.jobId = jobId) :
    ∃ weight ∈ weights, weight.miner = credit.verified.miner := by
  have row : credit.verified.record.row ∈
      s.db.shares.rows.filter fun share => share.jobId = jobId := by
    rw [sound.rows]
    exact List.mem_filter.2 ⟨List.mem_map.2 ⟨credit, member, rfl⟩, decide_eq_true onJob⟩
  have listed : credit.verified.miner ∈
      (((s.db.shares.rows.filter fun share => share.jobId = jobId).map
        (·.miner)).dedup).insertionSort (· ≤ ·) :=
    List.mem_insertionSort (· ≤ ·) |>.2 (List.mem_dedup.2 (List.mem_map.2 ⟨_, row, rfl⟩))
  obtain ⟨weight, inside, converted⟩ := Theory.mapM_mem read listed
  refine ⟨weight, inside, ?_⟩
  obtain ⟨n, -, rfl⟩ := Theory.map_ok.1 converted
  rfl

/-- They are read as long as no sum exceeds a `u64`. -/
theorem weights_read (sound : Sound digest jobs config s) {jobId : String}
    (fits : ∀ miner, (s.storedFor jobId miner).sum < 2 ^ 64) :
    ∃ weights, s.db.shareWeightsForJob jobId = .ok weights := by
  apply Theory.mapM_total
  intro miner _
  obtain ⟨n, whole⟩ := storedFor_whole sound jobId miner
  have word : n < 2 ^ 64 := by
    have sum := fits miner
    rw [whole] at sum
    exact_mod_cast sum
  refine ⟨⟨miner, n⟩, ?_⟩
  rw [storedFor_rows sound, whole, parseIntegerPart_natCast, if_pos word]
  rfl

/-- **Credited shares are real work.**  In every reachable state of a session's difficulty, what
verification accepts is the double digest of the header the submit makes of the template, at a
positive whole difficulty that is the current one or a lower previous one in its grace, and the
hash times the difficulty, taken as the largest `u64` where it is larger, is within the base
target.  In every run, what settlement reads for a miner on a job is the sum of what its rows hold,
and that is the sum of what was credited where no credited difficulty exceeds `2 ^ 53`; every
credited miner is read, and reading succeeds whenever no miner's sum exceeds a `u64`. -/
theorem credited_work (digest : Digest) (config : VardiffConfig) :
    (∀ v, (vardiffMachine config).Reachable v →
      ∀ template extranonce1Le submit now share difficulty,
        verifySubmitForVardiff digest template extranonce1Le submit v.view now =
          .ok (share, difficulty) →
        RealWork digest u64Max template extranonce1Le submit v now share difficulty) ∧
      ∀ jobs s, (creditMachine digest jobs config).Reachable s → ∀ jobId,
        (∀ weights, s.db.shareWeightsForJob jobId = .ok weights →
          (∀ weight ∈ weights,
            (weight.difficulty : ℚ) = (s.storedFor jobId weight.miner).sum ∧
            ((∀ difficulty ∈ s.creditedTo jobId weight.miner, difficulty ≤ 2 ^ 53) →
              (weight.difficulty : ℚ) = (s.creditedTo jobId weight.miner).sum)) ∧
          ∀ credit ∈ s.credited, credit.verified.submit.jobId = jobId →
            ∃ weight ∈ weights, weight.miner = credit.verified.miner) ∧
        ((∀ miner, (s.storedFor jobId miner).sum < 2 ^ 64) →
          ∃ weights, s.db.shareWeightsForJob jobId = .ok weights) := by
  refine ⟨?_, ?_⟩
  · intro v reached template extranonce1Le submit now share difficulty verified
    exact realWork_of_verified (steady_known reached) verified
  · intro jobs s reached jobId
    have sound := sound_known reached
    refine ⟨fun weights read => ⟨fun weight member => ⟨?_, ?_⟩, ?_⟩, weights_read sound⟩
    · exact weights_stored sound read member
    · exact weights_exact sound read member
    · exact fun credit member onJob => weights_complete sound read member onJob

namespace Sample

def jobBook : JobBook where
  find jobId := if jobId = "job-1" then some job else none
  named := by
    intro jobId job' found
    split at found
    · rename_i here
      cases found
      exact here.symm
    · cases found

/-- A pool that starts everyone at `initial` and goes up to `most`. -/
def vardiffConfig (initial most : ℚ) : VardiffConfig where
  initialDifficulty := .finite initial
  minDifficulty := .finite 1
  maxDifficulty := .finite most
  targetShareSecs := 20
  ewmaAlpha := .finite (1 / 4)
  raiseRatio := .ofRat (70 / 100)
  lowerRatio := .ofRat (140 / 100)
  minAdjustSecs := 120
  maxAdjustFactor := .finite 2
  transitionGraceSecs := 120

theorem new_vardiff (initial most : ℚ)
    (starts : (Vardiff.new (vardiffConfig initial most)).map (fun v =>
      (v.currentDifficulty, v.previousDifficulty, v.transitionUntil)) =
        some (.finite initial, none, none)) :
    ∃ v, Vardiff.new (vardiffConfig initial most) = some v ∧ v.view = ⟨initial, none, none⟩ := by
  obtain ⟨v, new, fields⟩ := Option.map_eq_some_iff.1 starts
  refine ⟨v, new, ?_⟩
  obtain ⟨current, previous, limit⟩ : v.currentDifficulty = .finite initial ∧
      v.previousDifficulty = none ∧ v.transitionUntil = none := by
    simpa using fields
  unfold Vardiff.view
  rw [current, previous, limit]
  rfl

/-- A submit of `solution` as the miner itself spells it. -/
def ownSubmit : SubmitParams := submit "0a0b0c0b"

/-- One session, one share. -/
def oneShare : List CreditEvent :=
  [.start 1, .connect 1, .authorize 0 miner, .submit 0 ownSubmit false 0, .persist 0 .none 0]

end Sample

/-- A session's first share, credited at a difficulty of one. -/
theorem credited_work_one_share :
    ∃ s, (creditMachine Theory.Sha256.digest Sample.jobBook
        (Sample.vardiffConfig 1 512)).Reachable s ∧
      ∃ weights, s.db.shareWeightsForJob "job-1" = .ok weights ∧
        weights.map (fun weight => weight.difficulty) = [1] ∧
        (∀ weight ∈ weights,
          (∀ difficulty ∈ s.creditedTo "job-1" weight.miner, difficulty ≤ 2 ^ 53) →
          (weight.difficulty : ℚ) = (s.creditedTo "job-1" weight.miner).sum) ∧
        ∃ v, (vardiffMachine (Sample.vardiffConfig 1 512)).Reachable v ∧
          RealWork Theory.Sha256.digest u64Max Sample.job.template Sample.session.extranonce1Le
            Sample.ownSubmit v 0 Sample.share 1 := by
  obtain ⟨s, reached, shown⟩ := Machine.exists_of_run
    (creditMachine Theory.Sha256.digest Sample.jobBook (Sample.vardiffConfig 1 512))
    (s := .initial) rfl Sample.oneShare
    (fun s => match s.db.shareWeightsForJob "job-1" with
      | .ok weights => decide (weights.map (fun weight => weight.difficulty) = [1])
      | .error _ => false)
    (by decide +kernel)
  have law := credited_work Theory.Sha256.digest (Sample.vardiffConfig 1 512)
  refine ⟨s, reached, ?_⟩
  cases read : s.db.shareWeightsForJob "job-1" with
  | error _ =>
      rw [read] at shown
      cases shown
  | ok weights =>
      rw [read] at shown
      refine ⟨weights, rfl, of_decide_eq_true shown,
        fun weight member => (((law.2 Sample.jobBook s reached "job-1").1 weights read).1
          weight member).2, ?_⟩
      obtain ⟨v, new, start⟩ := Sample.new_vardiff 1 512 (by decide +kernel)
      have reachable : (vardiffMachine (Sample.vardiffConfig 1 512)).Reachable v := .start new
      refine ⟨v, reachable, law.1 v reachable _ _ _ _ _ _ ?_⟩
      rw [start]
      exact Sample.verified (by decide +kernel)

/-! ## Beyond the precision of a double, and of a machine word -/

namespace Sample

/-- A hash with 64 leading zero bits. -/
def rareHash : Hash32 := .cons 0 (.cons 0 (.cons 0 (.cons 0 (.cons 0 (.cons 0 (.cons 0 (.cons 0
  (.cons 0x80 (.replicate 23 0)))))))))

/-- SHA-256, but for the one input that makes `share` rare. -/
def luckyDigest : Digest := fun bytes =>
  if bytes = (Theory.Sha256.digest share.header.toList).toList then rareHash
  else Theory.Sha256.digest bytes

end Sample

/-- At a difficulty configured above a machine word, a share is credited for more than its work. -/
theorem work_saturates :
    ∃ v, (vardiffMachine (Sample.vardiffConfig (2 ^ 65) (2 ^ 65))).Reachable v ∧
      ∃ share difficulty,
        verifySubmitForVardiff Sample.luckyDigest Sample.job.template Sample.session.extranonce1Le
          Sample.ownSubmit v.view 0 = .ok (share, difficulty) ∧
        ¬ (share.hash.value : ℚ) * difficulty ≤ Sample.job.template.shareTarget.value := by
  obtain ⟨v, new, start⟩ := Sample.new_vardiff (2 ^ 65) (2 ^ 65) (by decide +kernel)
  refine ⟨v, .start new, ?_⟩
  rw [start]
  have accepted : (match verifySubmitForVardiff Sample.luckyDigest Sample.job.template
      Sample.session.extranonce1Le Sample.ownSubmit ⟨2 ^ 65, none, none⟩ 0 with
    | .ok (share, difficulty) =>
        decide ((Sample.job.template.shareTarget.value : ℚ) < (share.hash.value : ℚ) * difficulty)
    | .error _ => false) = true := by
    decide +kernel
  split at accepted
  · rename_i share difficulty verified
    exact ⟨share, difficulty, verified, not_le.2 (of_decide_eq_true accepted)⟩
  · cases accepted

/-- A difficulty of `2 ^ 57` is a double, and its shortest text is two below it. -/
theorem weight_rounded :
    ∃ s, (creditMachine Sample.luckyDigest Sample.jobBook
        (Sample.vardiffConfig (2 ^ 57) (2 ^ 57))).Reachable s ∧
      ∃ weights, s.db.shareWeightsForJob "job-1" = .ok weights ∧
        weights.map (fun weight => weight.difficulty) = [144115188075855870] ∧
        weights.map (fun weight => (s.creditedTo "job-1" weight.miner).sum) =
          [144115188075855872] := by
  obtain ⟨s, reached, shown⟩ := Machine.exists_of_run
    (creditMachine Sample.luckyDigest Sample.jobBook (Sample.vardiffConfig (2 ^ 57) (2 ^ 57)))
    (s := .initial) rfl Sample.oneShare
    (fun s => match s.db.shareWeightsForJob "job-1" with
      | .ok weights =>
          decide (weights.map (fun weight => weight.difficulty) = [144115188075855870]) &&
            decide (weights.map (fun weight => (s.creditedTo "job-1" weight.miner).sum) =
              [144115188075855872])
      | .error _ => false)
    (by decide +kernel)
  refine ⟨s, reached, ?_⟩
  cases read : s.db.shareWeightsForJob "job-1" with
  | error _ =>
      rw [read] at shown
      cases shown
  | ok weights =>
      rw [read, Bool.and_eq_true] at shown
      exact ⟨weights, rfl, of_decide_eq_true shown.1, of_decide_eq_true shown.2⟩

/-- A credited difficulty is neither always worked for nor always read back. -/
theorem credited_work_inexact :
    (∃ v, (vardiffMachine (Sample.vardiffConfig (2 ^ 65) (2 ^ 65))).Reachable v ∧
      ∃ share difficulty,
        verifySubmitForVardiff Sample.luckyDigest Sample.job.template Sample.session.extranonce1Le
          Sample.ownSubmit v.view 0 = .ok (share, difficulty) ∧
        ¬ (share.hash.value : ℚ) * difficulty ≤ Sample.job.template.shareTarget.value) ∧
      ∃ s, (creditMachine Sample.luckyDigest Sample.jobBook
          (Sample.vardiffConfig (2 ^ 57) (2 ^ 57))).Reachable s ∧
        ∃ weights, s.db.shareWeightsForJob "job-1" = .ok weights ∧
          weights.map (fun weight => weight.difficulty) = [144115188075855870] ∧
          weights.map (fun weight => (s.creditedTo "job-1" weight.miner).sum) =
            [144115188075855872] :=
  ⟨work_saturates, weight_rounded⟩

end CsdPool.Bridge
