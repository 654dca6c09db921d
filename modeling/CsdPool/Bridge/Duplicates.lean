/-
# Bridge.Duplicates — one credit for one proof of work

A proof of work is the job and the numbers a header is made of.  The database admits one spelling
of each number (`texts_unique`), so its key is the proof without the `extranonce1` and with the
worker: two proofs under one key, and one proof under two.  The session's own key is entered
before verification, so it also holds what was refused.

The two decisions are exact while these differences do not matter (`settled`): a credited share
that agrees with a new one in everything but worker and `extranonce1` agrees in both or in
neither, and what a session sends again it was credited for.
-/
import CsdPool.Bridge.CreditedWork

namespace CsdPool.Bridge

open Theory (Keyed Table Machine)

set_option autoImplicit false

/-! ## One spelling -/

/-- In admitted texts a solution has one spelling. -/
theorem texts_unique {a b : VerifiedSubmit} {solution : SubmitSolution}
    (admitted : Db.shareAdmitted a.record = true) (admitted' : Db.shareAdmitted b.record = true)
    (parsed : solutionFromSubmit a.submit = .ok solution)
    (parsed' : solutionFromSubmit b.submit = .ok solution) :
    a.submit.extranonce2Hex = b.submit.extranonce2Hex ∧ a.submit.ntimeHex = b.submit.ntimeHex ∧
      a.submit.nonceHex = b.submit.nonceHex := by
  obtain ⟨rest, nonce⟩ := Bool.and_eq_true_iff.1 admitted
  obtain ⟨extranonce2, ntime⟩ := Bool.and_eq_true_iff.1 rest
  obtain ⟨rest', nonce'⟩ := Bool.and_eq_true_iff.1 admitted'
  obtain ⟨extranonce2', ntime'⟩ := Bool.and_eq_true_iff.1 rest'
  obtain ⟨first, second, third⟩ := solutionFromSubmit_ok parsed
  obtain ⟨first', second', third'⟩ := solutionFromSubmit_ok parsed'
  exact ⟨hexDecode_unique extranonce2 extranonce2' (hexDecode_of_parsed first)
      (hexDecode_of_parsed first'),
    parseU32Hex_unique ntime ntime' second second',
    parseU32Hex_unique nonce nonce' third third'⟩

/-- The numbers are read off the texts. -/
theorem solutionFromSubmit_congr {submit submit' : SubmitParams}
    (extranonce2 : submit.extranonce2Hex = submit'.extranonce2Hex)
    (ntime : submit.ntimeHex = submit'.ntimeHex) (nonce : submit.nonceHex = submit'.nonceHex) :
    solutionFromSubmit submit = solutionFromSubmit submit' := by
  unfold solutionFromSubmit
  rw [extranonce2, ntime, nonce]

/-! ## Proofs of work -/

/-- The job and the numbers of a header, whoever sent them and however they were spelled. -/
structure ProofOfWork where
  jobId : String
  extranonce1Le : Bytes 4
  solution : SubmitSolution
  deriving DecidableEq

/-- The proof a submit is, if its texts are numbers. -/
def proofOfWork (extranonce1Le : Bytes 4) (submit : SubmitParams) : Option ProofOfWork :=
  match solutionFromSubmit submit with
  | .ok solution => some ⟨submit.jobId, extranonce1Le, solution⟩
  | .error _ => none

def Credit.proof (credit : Credit) : Option ProofOfWork :=
  proofOfWork credit.extranonce1Le credit.verified.submit

theorem proofOfWork_eq_some {extranonce1Le : Bytes 4} {submit : SubmitParams} {proof : ProofOfWork} :
    proofOfWork extranonce1Le submit = some proof ↔
      proof.jobId = submit.jobId ∧ proof.extranonce1Le = extranonce1Le ∧
        solutionFromSubmit submit = .ok proof.solution := by
  unfold proofOfWork
  cases proof
  split
  · rename_i solution parsed
    rw [parsed]
    simp only [Option.some.injEq, ProofOfWork.mk.injEq, Except.ok.injEq, eq_comm]
  · rename_i failed
    rw [failed]
    simp

variable {digest : Digest} {jobs : JobBook} {config : VardiffConfig} {s s' : CreditState}

/-- The header a credited share was hashed from. -/
theorem header_of_verified {extranonce1Le : Bytes 4} {verified : VerifiedSubmit}
    (sound : Verified digest jobs config extranonce1Le verified) :
    ∃ solution, solutionFromSubmit verified.submit = .ok solution ∧
      verified.share.header = solvedHeader digest verified.job.template extranonce1Le solution := by
  obtain ⟨v, now, -, call⟩ := sound.call
  obtain ⟨solution, parsed, solved⟩ := verifySubmitForVardiff_ok call
  exact ⟨solution, parsed, by rw [solved]; rfl⟩

/-! ## The condition -/

/-- What was credited for the numbers of a submit on its job, under any `extranonce1`. -/
def CreditState.twins (s : CreditState) (submit : SubmitParams) : List Credit :=
  s.credited.filter fun credit =>
    credit.proof == proofOfWork credit.extranonce1Le submit

/-- Whether the two keys of a share find the same among its twins. -/
def CreditState.agrees (s : CreditState) (extranonce1Le : Bytes 4) (verified : VerifiedSubmit) :
    Bool :=
  ((s.twins verified.submit).any fun credit => credit.extranonce1Le == extranonce1Le) ==
    (s.twins verified.submit).any fun credit => credit.verified.miner == verified.miner &&
      credit.verified.record.workerName == verified.record.workerName

def CreditState.repeats (s : CreditState) (session : StratumSession) (submit : SubmitParams) :
    Bool :=
  !session.seenShares.contains (ShareKey.fromSubmit submit) ||
    (proofOfWork session.extranonce1Le submit).all fun proof =>
      s.credited.any fun credit => credit.proof == some proof

/-- A session sends again only what was credited, and what was credited for the numbers of a
verified submit is of its worker exactly if it is of its `extranonce1`. -/
def settled (s : CreditState) : CreditEvent → Bool
  | .submit session submit stale _ =>
      stale || (s.sessions.find? session).all fun session => s.repeats session submit
  | .persist session _ _ =>
      (s.sessions.find? session).all fun session =>
        session.pending.all fun verified =>
          !Db.shareAdmitted verified.record || s.agrees session.extranonce1Le verified
  | _ => true

abbrev Settled (s : CreditState) (event : CreditEvent) : Prop := settled s event = true

/-! ## Twins -/

theorem mem_twins {submit : SubmitParams} {credit : Credit} :
    credit ∈ s.twins submit ↔
      credit ∈ s.credited ∧ credit.proof = proofOfWork credit.extranonce1Le submit := by
  unfold CreditState.twins
  rw [List.mem_filter, beq_iff_eq]

/-- Where the keys agree, a twin of one kind is there exactly if one of the other is. -/
theorem agrees_iff {extranonce1Le : Bytes 4} {verified : VerifiedSubmit} :
    s.agrees extranonce1Le verified = true ↔
      ((∃ credit ∈ s.credited, credit.proof = proofOfWork extranonce1Le verified.submit ∧
          credit.extranonce1Le = extranonce1Le) ↔
        ∃ credit ∈ s.twins verified.submit, credit.verified.miner = verified.miner ∧
          credit.verified.record.workerName = verified.record.workerName) := by
  have same : (∃ credit ∈ s.twins verified.submit, credit.extranonce1Le = extranonce1Le) ↔
      ∃ credit ∈ s.credited, credit.proof = proofOfWork extranonce1Le verified.submit ∧
        credit.extranonce1Le = extranonce1Le := by
    constructor
    · rintro ⟨credit, twin, rfl⟩
      obtain ⟨member, proof⟩ := mem_twins.1 twin
      exact ⟨credit, member, proof, rfl⟩
    · rintro ⟨credit, member, proof, rfl⟩
      exact ⟨credit, mem_twins.2 ⟨member, proof⟩, rfl⟩
  rw [← same]
  unfold CreditState.agrees
  rw [beq_iff_eq, Bool.eq_iff_iff, List.any_eq_true, List.any_eq_true]
  simp only [Bool.and_eq_true, beq_iff_eq]

/-- The database's key says: a twin of the same worker. -/
theorem taken_iff {extranonce1Le : Bytes 4} {verified : VerifiedSubmit}
    (sound : Sound digest jobs config s)
    (mine : Verified digest jobs config extranonce1Le verified)
    (admitted : Db.shareAdmitted verified.record = true) :
    s.db.shares.find? (Keyed.key verified.record) ≠ none ↔
      ∃ credit ∈ s.twins verified.submit, credit.verified.miner = verified.miner ∧
        credit.verified.record.workerName = verified.record.workerName := by
  obtain ⟨solution, parsed, -⟩ := header_of_verified mine
  constructor
  · intro taken
    obtain ⟨row, found⟩ := Option.ne_none_iff_exists'.1 taken
    have member := Table.mem_of_find? found
    rw [sound.rows] at member
    obtain ⟨credit, inside, rfl⟩ := List.mem_map.1 member
    have keys := Table.key_of_find? found
    obtain ⟨jobId, miner, worker, extranonce2, ntime, nonce⟩ := CsdPool.ShareKey.mk.inj keys
    refine ⟨credit, mem_twins.2 ⟨inside, ?_⟩, miner, worker⟩
    have numbers : solutionFromSubmit credit.verified.submit = .ok solution := by
      rw [solutionFromSubmit_congr extranonce2 ntime nonce, parsed]
    rw [Credit.proof, proofOfWork, proofOfWork, numbers, parsed]
    exact congrArg (fun jobId => some (ProofOfWork.mk jobId _ solution)) jobId
  · rintro ⟨credit, twin, miner, worker⟩
    obtain ⟨inside, same⟩ := mem_twins.1 twin
    have proof : proofOfWork credit.extranonce1Le verified.submit =
        some ⟨verified.submit.jobId, credit.extranonce1Le, solution⟩ :=
      proofOfWork_eq_some.2 ⟨rfl, rfl, parsed⟩
    obtain ⟨jobId, -, numbers⟩ := proofOfWork_eq_some.1 (same.trans proof)
    obtain ⟨extranonce2, ntime, nonce⟩ :=
      texts_unique (sound.credited credit inside).2 admitted numbers parsed
    have key : Keyed.key credit.verified.record = Keyed.key verified.record := by
      show CsdPool.ShareKey.mk _ _ _ _ _ _ = CsdPool.ShareKey.mk _ _ _ _ _ _
      exact (CsdPool.ShareKey.mk.injEq ..).mpr ⟨jobId.symm, miner, worker, extranonce2, ntime, nonce⟩
    have row : credit.verified.record.row ∈ s.db.shares.rows := by
      rw [sound.rows]
      exact List.mem_map.2 ⟨credit, inside, rfl⟩
    rw [← key, ← ShareRecord.key_row, Table.find?_of_mem row]
    exact Option.some_ne_none _

/-- Where the keys agree, the database says exactly whether the proof was credited. -/
theorem taken_of_agrees {extranonce1Le : Bytes 4} {verified : VerifiedSubmit}
    (sound : Sound digest jobs config s)
    (mine : Verified digest jobs config extranonce1Le verified)
    (admitted : Db.shareAdmitted verified.record = true)
    (agrees : s.agrees extranonce1Le verified = true) :
    s.db.shares.find? (Keyed.key verified.record) ≠ none ↔
      ∃ credit ∈ s.credited, credit.proof = proofOfWork extranonce1Le verified.submit ∧
        credit.extranonce1Le = extranonce1Le := by
  rw [taken_iff sound mine admitted, agrees_iff.1 agrees]

/-- What a session is refused for it was credited for. -/
theorem known_of_repeats {session : StratumSession} {submit : SubmitParams}
    (repeats : s.repeats session submit = true)
    (seen : session.seenShares.contains (ShareKey.fromSubmit submit) = true) {proof : ProofOfWork}
    (is : proofOfWork session.extranonce1Le submit = some proof) :
    ∃ credit ∈ s.credited, credit.proof = some proof := by
  unfold CreditState.repeats at repeats
  rw [seen, Bool.not_true, Bool.false_or, is, Option.all_some, List.any_eq_true] at repeats
  obtain ⟨credit, member, same⟩ := repeats
  exact ⟨credit, member, beq_iff_eq.1 same⟩

/-! ## Runs -/

structure DuplicatesExact (digest : Digest) (jobs : JobBook) (s : CreditState) : Prop where
  once : s.credited.Pairwise fun credit credit' => credit.proof ≠ credit'.proof
  apart : ∀ reply ∈ s.duplicates, ∀ job solution, jobs.find reply.submit.jobId = some job →
    solutionFromSubmit reply.submit = .ok solution →
      ∃ credit ∈ s.credited, credit.verified.submit.jobId = reply.submit.jobId ∧
        credit.verified.share.header =
          solvedHeader digest job.template reply.extranonce1Le solution

namespace DuplicatesExact

theorem of_same (exact' : DuplicatesExact digest jobs s) (credited : s'.credited = s.credited)
    (duplicates : s'.duplicates = s.duplicates) : DuplicatesExact digest jobs s' := by
  refine ⟨?_, ?_⟩
  · rw [credited]
    exact exact'.once
  · rw [credited, duplicates]
    exact exact'.apart

/-- A reply about a proof that was credited. -/
theorem reply (exact' : DuplicatesExact digest jobs s) (sound : Sound digest jobs config s)
    {extranonce1Le : Bytes 4} {submit : SubmitParams} (credited : s'.credited = s.credited)
    (duplicates : s'.duplicates = s.duplicates ++ [⟨extranonce1Le, submit⟩])
    (known : ∀ proof, proofOfWork extranonce1Le submit = some proof →
      ∃ credit ∈ s.credited, credit.proof = some proof) : DuplicatesExact digest jobs s' := by
  refine ⟨by rw [credited]; exact exact'.once, ?_⟩
  rw [credited, duplicates]
  intro reply member job solution found parsed
  rcases List.mem_append.1 member with before | new
  · exact exact'.apart reply before job solution found parsed
  · cases List.mem_singleton.1 new
    have proof : proofOfWork extranonce1Le submit = some ⟨submit.jobId, extranonce1Le, solution⟩ :=
      proofOfWork_eq_some.2 ⟨rfl, rfl, parsed⟩
    obtain ⟨credit, inside, same⟩ := known _ proof
    obtain ⟨jobId, extranonce1, numbers⟩ := proofOfWork_eq_some.1 same
    have verified := (sound.credited credit inside).1
    obtain ⟨solution', parsed', header⟩ := header_of_verified verified
    refine ⟨credit, inside, jobId.symm, ?_⟩
    have book := verified.job
    rw [← jobId, found] at book
    cases book
    rw [parsed'] at numbers
    cases numbers
    rw [header, ← extranonce1]

theorem credit (exact' : DuplicatesExact digest jobs s) {credit : Credit}
    (credited : s'.credited = s.credited ++ [credit]) (duplicates : s'.duplicates = s.duplicates)
    (fresh : ∀ other ∈ s.credited, other.proof ≠ credit.proof) :
    DuplicatesExact digest jobs s' := by
  refine ⟨?_, ?_⟩
  · rw [credited, List.pairwise_append]
    refine ⟨exact'.once, List.pairwise_singleton _ _, ?_⟩
    intro other member new inside
    rw [List.mem_singleton.1 inside]
    exact fresh other member
  · rw [credited, duplicates]
    intro reply member job solution found parsed
    obtain ⟨credit, inside, same⟩ := exact'.apart reply member job solution found parsed
    exact ⟨credit, List.mem_append_left _ inside, same⟩

theorem persist (exact' : DuplicatesExact digest jobs s) (sound : Sound digest jobs config s)
    {session : StratumSession} {verified : VerifiedSubmit} {fault : Fault} {now : Nat}
    (mine : Verified digest jobs config session.extranonce1Le verified)
    (agrees : Db.shareAdmitted verified.record = true →
      s.agrees session.extranonce1Le verified = true) :
    DuplicatesExact digest jobs (s.persist session verified fault now) := by
  have outcome : Persisted s ⟨session.extranonce1Le, verified⟩
      (s.persist session verified fault now) := persist_persisted
  cases outcome with
  | nothing _ credited duplicates => exact exact'.of_same credited duplicates
  | credited admitted fresh _ credited duplicates =>
      refine exact'.credit credited duplicates ?_
      intro other member same
      obtain ⟨solution, parsed, -⟩ := header_of_verified mine
      have proof : other.proof = some ⟨verified.submit.jobId, session.extranonce1Le, solution⟩ :=
        same.trans (proofOfWork_eq_some.2 ⟨rfl, rfl, parsed⟩)
      have twin := (proofOfWork_eq_some.1 proof).2.1
      exact (taken_of_agrees sound mine admitted (agrees admitted)).2
        ⟨other, member, same, twin.symm⟩ fresh
  | duplicate admitted taken _ credited duplicates =>
      refine exact'.reply sound credited duplicates ?_
      intro proof is
      obtain ⟨credit, member, same, -⟩ :=
        (taken_of_agrees sound mine admitted (agrees admitted)).1 taken
      exact ⟨credit, member, same.trans is⟩

theorem step {event : CreditEvent} (exact' : DuplicatesExact digest jobs s)
    (sound : Sound digest jobs config s) (allowed : Settled s event)
    (stepped : s.step digest jobs config event = some s') : DuplicatesExact digest jobs s' := by
  unfold Settled settled at allowed
  cases step_stepped sound.sessions stepped with
  | quiet _ credited duplicates _ => exact exact'.of_same credited duplicates
  | refused is found seen shape =>
      subst is shape
      dsimp only at allowed
      rw [found, Bool.false_or, Option.all_some] at allowed
      refine exact'.reply sound rfl rfl ?_
      intro proof
      exact known_of_repeats allowed seen
  | persisted is found here shape =>
      subst is shape
      dsimp only at allowed
      rw [found, Option.all_some, here, Option.all_some] at allowed
      refine exact'.persist sound ((sound.sessions _ (Table.mem_of_find? found)).pending _ here) ?_
      intro admitted
      rw [admitted, Bool.not_true, Bool.false_or] at allowed
      exact allowed

end DuplicatesExact

/-- **Duplicates are exact in settled runs.**  Whatever the sessions, daemons and restarts: no
proof of work is credited twice, and what is answered as a duplicate has the header of a share
credited on its job. -/
theorem duplicates_exact (digest : Digest) (jobs : JobBook) (config : VardiffConfig)
    (s : CreditState) (reaches : (creditMachine digest jobs config).Reaches Settled s) :
    DuplicatesExact digest jobs s := by
  apply reaches.invariant
  · rintro _ rfl
    exact ⟨List.Pairwise.nil, fun reply member => (by cases member)⟩
  · intro s event s' before exact' allowed stepped
    exact exact'.step (sound_known before.reachable) allowed stepped

namespace Sample

/-- The share of `oneShare`, then a session of another daemon; both have the first `extranonce1`. -/
def otherDaemon : List CreditEvent :=
  oneShare ++ [.start 2, .connect 2, .authorize 1 miner]

/-- A submit of session `session` up to its answer. -/
def answered (session : Nat) (submit : SubmitParams) : List CreditEvent :=
  [.submit session submit false 0, .persist session .none 0]

/-- Texts that solve the job under the first and under the second `extranonce1`. -/
def twiceSubmit : SubmitParams := submit "0a0b0c11"

def twiceSolution : SubmitSolution := { solution with nonce := 0x0a0b0c11 }

/-- Session 0 sends the texts, then session 1 of the other daemon, for another worker but with the
same `extranonce1`, then session 2 of the first daemon, with another `extranonce1`. -/
def sameTexts : List CreditEvent :=
  [.start 1, .start 2, .connect 1, .connect 2, .connect 1] ++
    [.authorize 0 miner, .authorize 1 miner, .authorize 2 miner] ++
    answered 0 twiceSubmit ++ answered 1 { twiceSubmit with workerName := miner ++ ".rig" } ++
    answered 2 twiceSubmit

end Sample

/-- The other daemon's database row and the session's own memory both tell. -/
theorem duplicates_exact_two_daemons :
    ∃ s, (creditMachine Theory.Sha256.digest Sample.jobBook (Sample.vardiffConfig 1 512)).Reaches
        Settled s ∧
      s.credited.length = 1 ∧ s.duplicates.length = 2 ∧
        DuplicatesExact Theory.Sha256.digest Sample.jobBook s := by
  obtain ⟨s, reaches, shown⟩ := Machine.exists_of_runUnder
    (creditMachine Theory.Sha256.digest Sample.jobBook (Sample.vardiffConfig 1 512)) Settled
    (s := .initial) rfl
    (Sample.otherDaemon ++ Sample.answered 1 Sample.ownSubmit ++
      [.submit 0 Sample.ownSubmit false 0])
    (fun s => decide (s.credited.length = 1) && decide (s.duplicates.length = 2))
    (by decide +kernel)
  obtain ⟨credited, duplicates⟩ := Bool.and_eq_true_iff.1 shown
  exact ⟨s, reaches, of_decide_eq_true credited, of_decide_eq_true duplicates,
    duplicates_exact _ _ _ s reaches⟩

/-- One proof is credited to two workers, and of two proofs by one worker the second is refused. -/
theorem duplicates_inexact :
    ∃ s, (creditMachine Theory.Sha256.digest Sample.jobBook
        (Sample.vardiffConfig 1 512)).Reachable s ∧
      (¬ s.credited.Pairwise fun (credit credit' : Credit) => credit.proof ≠ credit'.proof) ∧
      ∃ reply ∈ s.duplicates, solutionFromSubmit reply.submit = .ok Sample.twiceSolution ∧
        ∀ credit ∈ s.credited, credit.verified.share.header ≠
          solvedHeader Theory.Sha256.digest Sample.job.template reply.extranonce1Le
            Sample.twiceSolution := by
  obtain ⟨s, reached, shown⟩ := Machine.exists_of_run
    (creditMachine Theory.Sha256.digest Sample.jobBook (Sample.vardiffConfig 1 512))
    (s := .initial) rfl Sample.sameTexts
    (fun s => decide ((¬ s.credited.Pairwise fun (credit credit' : Credit) =>
        credit.proof ≠ credit'.proof) ∧
      ∃ reply ∈ s.duplicates, solutionFromSubmit reply.submit = .ok Sample.twiceSolution ∧
        ∀ credit ∈ s.credited, credit.verified.share.header ≠
          solvedHeader Theory.Sha256.digest Sample.job.template reply.extranonce1Le
            Sample.twiceSolution))
    (by decide +kernel)
  exact ⟨s, reached, of_decide_eq_true shown⟩

end CsdPool.Bridge
