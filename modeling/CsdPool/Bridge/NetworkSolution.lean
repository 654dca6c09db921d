/-
# Bridge.NetworkSolution — when a network solution is recognised

`verify_share_against_target` looks at the network target only after the hash has
passed the assigned target, so a hash between the two is refused as a low-difficulty
share.  A refused hash has one more chance, at the previous difficulty of a vardiff
transition.  `network_solution_kept_iff` is the exact condition, submit by submit; it
holds of every submit when the network target is not above the assigned one.
-/
import CsdPool.Bridge.Session
import CsdPool.Targets

namespace CsdPool.Bridge

set_option autoImplicit false

section NetworkSolution

variable (digest : Digest) (template : WorkTemplate) (extranonce1Le : Bytes 4)
  (vardiff : VardiffState) (now : Nat)

/-- The hash of a solution passes the target of the current difficulty, or in a
transition that of the previous one. -/
def MeetsAssigned (solution : SubmitSolution) : Prop :=
  let hash := (solvedShare digest template extranonce1Le solution).hash
  hashLeqTarget hash (targetForDifficulty template.shareTarget vardiff.currentDifficulty) = true ∨
    ∃ previous, vardiff.previousDifficultyInGrace now = some previous ∧
      hashLeqTarget hash (targetForDifficulty template.shareTarget previous) = true

/-- A submit whose header hash is at most the network target. -/
def SolvesNetwork (submit : SubmitParams) (solution : SubmitSolution) : Prop :=
  solutionFromSubmit submit = .ok solution ∧
    hashLeqTarget (solvedShare digest template extranonce1Le solution).hash
      template.networkTarget = true

/-- A submit that solves the network is accepted as a block candidate. -/
def NetworkSolutionKept (submit : SubmitParams) : Prop :=
  ∀ solution, SolvesNetwork digest template extranonce1Le submit solution →
    ∃ share difficulty, verifySubmitForVardiff digest template extranonce1Le submit vardiff now =
      .ok (share, difficulty) ∧ share.isBlockCandidate = true

variable {digest template extranonce1Le} {submit : SubmitParams} {solution : SubmitSolution}

/-- Verification at one difficulty is one comparison. -/
theorem verifySubmit_of_parsed (parsed : solutionFromSubmit submit = .ok solution)
    (difficulty : ℚ) :
    verifySubmit digest template extranonce1Le submit difficulty =
      if hashLeqTarget (solvedShare digest template extranonce1Le solution).hash
          (targetForDifficulty template.shareTarget difficulty) then
        .ok (solvedShare digest template extranonce1Le solution)
      else .error .lowDifficultyShare := by
  unfold verifySubmit
  rw [parsed]
  rfl

/-- **What is accepted**: the solution's own share, when one of the two targets is met. -/
theorem verifySubmitForVardiff_accepts_iff (parsed : solutionFromSubmit submit = .ok solution) :
    (∃ share difficulty, verifySubmitForVardiff digest template extranonce1Le submit vardiff now =
      .ok (share, difficulty)) ↔
      MeetsAssigned digest template extranonce1Le vardiff now solution := by
  unfold verifySubmitForVardiff MeetsAssigned
  simp only [verifySubmit_of_parsed parsed]
  by_cases current : hashLeqTarget (solvedShare digest template extranonce1Le solution).hash
      (targetForDifficulty template.shareTarget vardiff.currentDifficulty) = true
  · simp [current]
  · simp only [current, Bool.false_eq_true, if_false, false_or]
    cases grace : vardiff.previousDifficultyInGrace now with
    | none => simp
    | some previous =>
        by_cases met : hashLeqTarget (solvedShare digest template extranonce1Le solution).hash
            (targetForDifficulty template.shareTarget previous) = true
        · simp [met]
        · simp [met]

theorem meetsAssigned_of_le
    (reachable : hashLeqTarget template.networkTarget
      (targetForDifficulty template.shareTarget vardiff.currentDifficulty) = true)
    (solves : SolvesNetwork digest template extranonce1Le submit solution) :
    MeetsAssigned digest template extranonce1Le vardiff now solution := by
  refine .inl ?_
  have solved := solves.2
  rw [hashLeqTarget_iff] at solved reachable ⊢
  omega

variable (digest template extranonce1Le)

/-- **Exactly which network solutions are kept**: those that meet a target the share is
held to.  All of them are when the network target is not above the current one. -/
theorem network_solution_kept_iff :
    (∀ submit, NetworkSolutionKept digest template extranonce1Le vardiff now submit ↔
      ∀ solution, SolvesNetwork digest template extranonce1Le submit solution →
        MeetsAssigned digest template extranonce1Le vardiff now solution) ∧
    (hashLeqTarget template.networkTarget
        (targetForDifficulty template.shareTarget vardiff.currentDifficulty) = true →
      ∀ submit, NetworkSolutionKept digest template extranonce1Le vardiff now submit) := by
  have exact_ : ∀ submit, NetworkSolutionKept digest template extranonce1Le vardiff now submit ↔
      ∀ solution, SolvesNetwork digest template extranonce1Le submit solution →
        MeetsAssigned digest template extranonce1Le vardiff now solution := by
    intro submit
    constructor
    · intro kept solution solves
      obtain ⟨share, difficulty, accepted, -⟩ := kept solution solves
      exact (verifySubmitForVardiff_accepts_iff vardiff now solves.1).1
        ⟨share, difficulty, accepted⟩
    · intro meets solution solves
      obtain ⟨share, difficulty, accepted⟩ :=
        (verifySubmitForVardiff_accepts_iff vardiff now solves.1).2 (meets solution solves)
      refine ⟨share, difficulty, accepted, ?_⟩
      obtain ⟨solution', parsed, rfl⟩ := verifySubmitForVardiff_ok accepted
      obtain rfl : solution = solution' := Except.ok.inj (solves.1.symm.trans parsed)
      exact solves.2
  exact ⟨exact_, fun reachable submit => (exact_ submit).2 fun _ solves =>
    meetsAssigned_of_le vardiff now reachable solves⟩

end NetworkSolution

/-- **A solved block is refused as a low-difficulty share**: at difficulty 4 the assigned
target is a quarter of the network's. -/
theorem network_solution_thrown_away :
    ∃ (template : WorkTemplate) (extranonce1Le : Bytes 4) (vardiff : VardiffState) (now : Nat)
      (submit : SubmitParams),
      ¬ NetworkSolutionKept Theory.Sha256.digest template extranonce1Le vardiff now submit := by
  refine ⟨Sample.job.template, Sample.session.extranonce1Le, ⟨4, none, none⟩, 0,
    Sample.submit "0a0b0c0b", fun kept => ?_⟩
  have parsed : solutionFromSubmit (Sample.submit "0a0b0c0b") = .ok Sample.solution := by decide
  obtain ⟨share, difficulty, accepted, -⟩ := kept Sample.solution ⟨parsed, Sample.meets⟩
  have above : ¬ Sample.share.hash.value ≤ Sample.target.value / min 4 u64Max := by decide +kernel
  have quarter : (targetForDifficulty Sample.target (4 : ℕ)).value =
      Sample.target.value / min 4 u64Max := value_targetForDifficulty Sample.target (by decide)
  rcases (verifySubmitForVardiff_accepts_iff _ _ parsed).1 ⟨share, difficulty, accepted⟩ with
    current | ⟨previous, inGrace, -⟩
  · have le := hashLeqTarget_iff.1 current
    have same : (targetForDifficulty Sample.job.template.shareTarget 4).value =
        Sample.target.value / min 4 u64Max := quarter
    rw [same] at le
    exact above le
  · cases inGrace

end CsdPool.Bridge
