/-
# Payout.Approval — the manual approval threshold

`create_payouts` compares a batch with `manual_payout_approval_base_units` and
parks it in `needs_approval`; `retry_failed_payout` copies a failed or cancelled batch into
`created` and compares nothing.  So a batch over the threshold that was parked,
cancelled and retried is signed without `mark_payout_approved`
(`retry_bypasses_approval`).  With every retried batch at most at the threshold,
approval is respected in every reachable state (`approval_respected`).
-/
import CsdPool.Payout.Invariants

namespace CsdPool.Payout

open Theory (Keyed Table Machine)

set_option autoImplicit false

variable {cfg : Config} {s s' : State} {e : Event}

/-- No batch over the threshold is signed, submitted or confirmed unapproved. -/
def ApprovalRespected (cfg : Config) (s : State) : Prop :=
  ∀ id r, s.db.payoutBatches.find? id = some r →
    cfg.manualPayoutApprovalBaseUnits < r.totalBaseUnits →
    r.status = .signed ∨ r.status = .submitted ∨ r.status = .confirmed → id ∈ s.approvals

/-- A retry inserts a batch of at most the threshold. -/
def RetryWithin (cfg : Config) (s : State) (e : Event) : Prop :=
  match s.running e with
  | some (.retryInsert draft) => draft.totalBaseUnits ≤ cfg.manualPayoutApprovalBaseUnits
  | _ => True

def RetryWithin.holds (cfg : Config) (s : State) (e : Event) : Bool :=
  match s.running e with
  | some (.retryInsert draft) => decide (draft.totalBaseUnits ≤ cfg.manualPayoutApprovalBaseUnits)
  | _ => true

theorem RetryWithin.holds_iff {cfg : Config} {s : State} {e : Event} :
    RetryWithin.holds cfg s e = true ↔ RetryWithin cfg s e := by
  unfold RetryWithin.holds RetryWithin
  split
  · exact decide_eq_true_iff
  · exact iff_of_true rfl trivial

instance (cfg : Config) (s : State) (e : Event) : Decidable (RetryWithin cfg s e) :=
  decidable_of_iff _ RetryWithin.holds_iff

/-- Over the threshold a batch waits, has been given up, or was approved. -/
def Approved (cfg : Config) (s : State) : Prop :=
  ∀ id r, s.db.payoutBatches.find? id = some r →
    cfg.manualPayoutApprovalBaseUnits < r.totalBaseUnits →
    r.status = .needsApproval ∨ r.status = .cancelled ∨ r.status = .failed ∨ id ∈ s.approvals

theorem approvals_grow (stepped : Stepped cfg s e s') {id : String} (given : id ∈ s.approvals) :
    id ∈ s'.approvals := by
  cases stepped with
  | wrote _ _ _ => rw [State.resume_approvals]; exact given
  | approved =>
      show id ∈ if _ then _ else _
      split
      · exact List.mem_append_left _ given
      · exact given
  | spawned _ => exact given
  | failed _ _ _ => exact given
  | moved _ _ _ => exact given
  | sent _ _ _ => exact given
  | locked _ _ _ _ => exact given
  | finished _ _ _ => exact given
  | crashed _ => exact given
  | severed _ _ => exact given
  | accepted _ => exact given
  | dropped _ => exact given
  | switched => exact given
  | rewarded _ _ => exact given

/-- `mark_payout_approved` on a waiting batch succeeds, and only then. -/
theorem approval_recorded {r : PayoutBatchRow} (stepped : Stepped cfg s (.approve r.id) s')
    (found : s.db.payoutBatches.find? r.id = some r) (waiting : r.status = .needsApproval) :
    r.id ∈ s'.approvals := by
  cases stepped with
  | approved =>
      have succeeded : (s.db.markPayoutApproved r.id).1 = true := by
        rw [Db.markPayoutApproved, Db.updatePayoutBatch_fst, found]
        simp [waiting]
      show r.id ∈ if _ then _ else _
      rw [if_pos succeeded]
      exact List.mem_append_right _ (List.mem_singleton_self _)

theorem RowChange.approved_kept {id : String} {r r' : PayoutBatchRow}
    (stepped : Stepped cfg s e s') (change : RowChange s e r r')
    (found : s.db.payoutBatches.find? id = some r)
    (known : r.status = .needsApproval ∨ r.status = .cancelled ∨ r.status = .failed ∨
      id ∈ s.approvals) :
    r'.status = .needsApproval ∨ r'.status = .cancelled ∨ r'.status = .failed ∨
      id ∈ s'.approvals := by
  have given (source : r.status ≠ .needsApproval ∧ r.status ≠ .cancelled ∧
      r.status ≠ .failed) : id ∈ s'.approvals := by
    rcases known with h | h | h | h
    · exact absurd h source.1
    · exact absurd h source.2.1
    · exact absurd h source.2.2
    · exact approvals_grow stepped h
  cases change with
  | same =>
      rcases known with h | h | h | h
      · exact .inl h
      · exact .inr (.inl h)
      · exact .inr (.inr (.inl h))
      · exact .inr (.inr (.inr (approvals_grow stepped h)))
  | approved is source =>
      have same : r.id = id := Table.key_of_find? found
      subst same
      subst is
      exact .inr (.inr (.inr (approval_recorded stepped found source)))
  | signed _ _ _ source => exact .inr (.inr (.inr (given (by simp [source]))))
  | submitted _ _ _ source =>
      refine .inr (.inr (.inr (given ?_)))
      rcases source with h | h <;> simp [h]
  | confirmed _ _ _ source =>
      refine .inr (.inr (.inr (given ?_)))
      rcases source with h | h <;> simp [h]
  | failed _ _ _ _ => exact .inr (.inr (.inl rfl))
  | cancelled _ _ _ _ => exact .inr (.inl rfl)

theorem approved_invariant (reached : (payoutMachine cfg).Reaches (RetryWithin cfg) s) :
    Approved cfg s := by
  refine reached.invariant (I := Approved cfg) ?_ ?_
  · rintro s rfl id r found
    cases found
  · intro s e s' before known within step id r' found exceeds
    have stepped := step_stepped step
    rcases row_before stepped found with ⟨r, old, change⟩ | inserted
    · rw [change.totalBaseUnits] at exceeds
      exact change.approved_kept stepped old (known id r old exceeds)
    · obtain ⟨⟨pid, env, pc, draft, rfl, here, writes, shape⟩, -⟩ := inserted
      rw [shape] at exceeds
      unfold RetryWithin at within
      rw [running_of_at here] at within
      cases pc with
      | createInsert draft' status =>
          simp only [Pc.write, Option.some.injEq, Write.createLocked.injEq] at writes
          obtain ⟨rfl, status⟩ := writes
          rcases inserts_known before.reachable pid _ _ here with waiting | ⟨-, small⟩
          · exact .inl (status ▸ waiting)
          · exact absurd exceeds (Nat.not_lt.2 small)
      | retryInsert draft' =>
          simp only [Pc.write, Option.some.injEq, Write.createLocked.injEq] at writes
          obtain ⟨rfl, -⟩ := writes
          exact absurd exceeds (Nat.not_lt.2 within)
      | _ => cases writes

/-- **Approval cannot be bypassed** in a run whose retries stay within the threshold. -/
theorem approval_respected (cfg : Config) (s : State)
    (reached : (payoutMachine cfg).Reaches (RetryWithin cfg) s) : ApprovalRespected cfg s := by
  intro id r found exceeds status
  rcases approved_invariant reached id r found exceeds with h | h | h | given
  · rw [h] at status; simp at status
  · rw [h] at status; simp at status
  · rw [h] at status; simp at status
  · exact given

/-- `id` is a signed batch over the threshold. -/
def signedOver (cfg : Config) (id : String) (s : State) : Bool :=
  (s.db.payoutBatches.find? id).any fun r =>
    decide (r.status = .signed ∧ cfg.manualPayoutApprovalBaseUnits < r.totalBaseUnits)

/-- A batch over the threshold that was approved and signed. -/
theorem approval_respected_signed :
    ∃ s, ApprovalRespected Sample.config s ∧ signedOver Sample.config "p" s = true := by
  obtain ⟨s, reached, signed⟩ := Machine.exists_of_runUnder (payoutMachine Sample.config)
    (RetryWithin Sample.config) (s := .initial) rfl
    (Sample.funded 1000 ++ Sample.create 0 "p" ++ [.approve "p"] ++ Sample.sign 1)
    (signedOver Sample.config "p") (by decide +kernel)
  exact ⟨s, approval_respected _ s reached, signed⟩

/-- Parked, cancelled, retried, signed: nobody approved the retried batch. -/
theorem retry_bypasses_approval :
    ∃ s, (payoutMachine Sample.config).Reachable s ∧ ¬ ApprovalRespected Sample.config s := by
  obtain ⟨s, reached, bypassed⟩ := Machine.exists_of_run (payoutMachine Sample.config)
    (s := .initial) rfl
    (Sample.funded 1000 ++ Sample.create 0 "p" ++ Sample.cancel 1 "p" ++
      Sample.retry 2 "p" "q" ++ Sample.sign 3)
    (fun s => signedOver Sample.config "q" s && !s.approvals.contains "q") (by decide +kernel)
  refine ⟨s, reached, fun respected => ?_⟩
  rw [Bool.and_eq_true, signedOver, Option.any_eq_true] at bypassed
  obtain ⟨⟨r, found, row⟩, unapproved⟩ := bypassed
  simp only [decide_eq_true_eq] at row
  have given := respected "q" r found row.2 (.inl row.1)
  simp [given] at unapproved

end CsdPool.Payout
