/-
# Bridge.Fencing — which retained jobs a submit counts on

Old-parent shares are never counted.  The refresh loop never removes a job of an earlier
parent before its retention is over; it fences the parent instead.  Two facts carry the
law through every run of the loop:

* `Split`: a retained job is on the current parent or on a fenced one.  A tip change fences
  every other retained parent before the prune, so the prune only drops parents no retained
  job is on.
* `Fenced`: the sentinel's fence on the current parent holds until another parent is
  published, because the loop refuses its own parent while it is fenced.

`parent_fenced` reads the law off both.  A return to an earlier parent takes the fence off
again, so the jobs of that parent that are still retained count once more.

How long that is, is the other half: a published job stays retained, whatever is published after
it, until a publication finds its retention over (`retained_until_expiry`, `dropped_at_expiry`).
-/
import CsdPool.Bridge.Retained
import CsdPool.Bridge.Session

namespace CsdPool.Bridge

open Theory (Table Machine)

set_option autoImplicit false

variable {watch watch' : JobWatch}

/-- Every retained job is on the current parent or on an invalidated one. -/
def Split (watch : JobWatch) : Prop :=
  ∀ entry ∈ watch.retained.inner.rows,
    entry.job.template.prev = watch.current.template.prev ∨
      entry.job.template.prev ∈ watch.retained.invalidatedParents

/-- The sentinel has invalidated the current parent. -/
def Fenced (watch : JobWatch) : Prop :=
  watch.current.template.prev ∈ watch.retained.invalidatedParents

/-- Not a publication on another parent. -/
def SameParent (watch : JobWatch) : WatchEvent → Prop
  | .publish next _ _ => next.template.prev = watch.current.template.prev
  | .invalidate => True

/-- Not a call of the sentinel. -/
def Unfenced (_ : JobWatch) : WatchEvent → Prop
  | .publish _ _ _ => True
  | .invalidate => False

/-- The last step was a publication. -/
def JustPublished (watch : JobWatch) : Prop :=
  jobWatch.init watch ∨
    ∃ before next retention now, jobWatch.Reachable before ∧
      jobWatch.step before (.publish next retention now) = some watch

theorem step_publish {next : PoolJob} {retention now : Nat}
    (stepped : jobWatch.step watch (.publish next retention now) = some watch') :
    watch.refuses next = false ∧ watch' = watch.publish next retention now := by
  change (if watch.refuses next then none else some (watch.publish next retention now)) =
    some watch' at stepped
  split at stepped
  · cases stepped
  · rename_i accepted
    cases stepped
    exact ⟨by simpa using accepted, rfl⟩

theorem step_invalidate (stepped : jobWatch.step watch .invalidate = some watch') :
    watch' = watch.invalidate :=
  (Option.some.inj stepped).symm

/-- A publication that is not a tip change stays on the parent. -/
theorem reason_tipChange_of_ne {next : PoolJob}
    (moved : next.template.prev ≠ watch.current.template.prev) :
    watch.reason next = .tipChange :=
  if_pos moved

/-! ## The split -/

theorem split_initial (job : PoolJob) (now : Nat) : Split (.initial job now) := by
  intro entry member
  rcases Table.mem_put.1 member with rfl | ⟨absent, -⟩
  · exact .inl rfl
  · cases absent

theorem split_publish (split : Split watch) (next : PoolJob) (retention now : Nat) :
    Split (watch.publish next retention now) := by
  intro entry member
  show entry.job.template.prev = next.template.prev ∨ _
  rcases RetainedJobs.mem_publish member with published | ⟨before, young⟩
  · have same : entry.job.template = (watch.flagged next).template := by rw [published]
    exact .inl (congrArg WorkTemplate.prev same)
  · by_cases same : entry.job.template.prev = next.template.prev
    · exact .inl same
    · right
      apply RetainedJobs.mem_invalidated_publish.2
      refine ⟨same, ?_, entry, before, young, rfl⟩
      -- a job off the new parent was fenced already, or the parent just changed
      by_cases moved : next.template.prev = watch.current.template.prev
      · rcases split entry before with onCurrent | fenced
        · exact absurd (onCurrent.trans moved.symm) same
        · exact .inl fenced
      · exact .inr (reason_tipChange_of_ne moved)

theorem split_invalidate (split : Split watch) : Split watch.invalidate := by
  intro entry member
  rcases split entry member with onCurrent | fenced
  · exact .inl onCurrent
  · exact .inr (Finset.mem_insert_of_mem fenced)

theorem split_known (reached : jobWatch.Reachable watch) : Split watch := by
  apply reached.invariant
  · rintro _ ⟨job, now, rfl⟩
    exact split_initial job now
  · intro watch event watch' _ split _ stepped
    cases event with
    | publish next retention now =>
        obtain ⟨-, rfl⟩ := step_publish stepped
        exact split_publish split next retention now
    | invalidate =>
        cases step_invalidate stepped
        exact split_invalidate split

theorem onCurrent_of_getForSubmit (split : Split watch) {jobId : String} {job : PoolJob}
    (counts : watch.retained.getForSubmit jobId = some job) :
    job.template.prev = watch.current.template.prev ∧ ¬ Fenced watch := by
  obtain ⟨⟨entry, found, rfl⟩, unfenced⟩ := RetainedJobs.getForSubmit_iff.1 counts
  have member := Table.mem_of_find? found
  rcases split entry member with onCurrent | fenced
  · refine ⟨onCurrent, ?_⟩
    intro fenced
    apply unfenced
    rw [onCurrent]
    exact fenced
  · exact absurd fenced unfenced

/-! ## The fence -/

theorem fenced_invalidate : Fenced watch.invalidate :=
  Finset.mem_insert_self _ _

theorem not_fenced_initial (job : PoolJob) (now : Nat) : ¬ Fenced (.initial job now) :=
  Finset.notMem_empty _

theorem not_fenced_publish (next : PoolJob) (retention now : Nat) :
    ¬ Fenced (watch.publish next retention now) := by
  intro fenced
  exact (RetainedJobs.mem_invalidated_publish.1 fenced).1 rfl

/-- The loop refuses its own parent while it is fenced. -/
theorem refuses_of_fenced (fenced : Fenced watch) {next : PoolJob}
    (same : next.template.prev = watch.current.template.prev) : watch.refuses next = true := by
  have invalidated : watch.retained.parentIsInvalidated next.template.prev = true := by
    rw [same]
    exact decide_eq_true fenced
  unfold JobWatch.refuses RetainedJobs.parentIsRetained
  rw [invalidated, decide_eq_true same]
  rfl

theorem fenced_step (fenced : Fenced watch) {event : WatchEvent} (same : SameParent watch event)
    (stepped : jobWatch.step watch event = some watch') : Fenced watch' := by
  cases event with
  | publish next retention now =>
      have accepted := (step_publish stepped).1
      rw [refuses_of_fenced fenced same] at accepted
      cases accepted
  | invalidate =>
      cases step_invalidate stepped
      exact fenced_invalidate

theorem not_fenced_step {event : WatchEvent} (unfenced : Unfenced watch event)
    (stepped : jobWatch.step watch event = some watch') :
    ¬ Fenced watch' := by
  cases event with
  | publish next retention now =>
      obtain ⟨-, rfl⟩ := step_publish stepped
      exact not_fenced_publish next retention now
  | invalidate => cases unfenced

theorem not_fenced_justPublished (published : JustPublished watch) : ¬ Fenced watch := by
  rcases published with ⟨job, now, rfl⟩ | ⟨before, next, retention, now, -, stepped⟩
  · exact not_fenced_initial job now
  · obtain ⟨-, rfl⟩ := step_publish stepped
    exact not_fenced_publish next retention now

theorem JustPublished.reachable (published : JustPublished watch) : jobWatch.Reachable watch := by
  rcases published with initial | ⟨before, next, retention, now, reached, stepped⟩
  · exact .start initial
  · exact .next reached trivial stepped

/-! ## How long a job is retained -/

/-- Not a publication under the job's id, and none that finds its retention over. -/
def Spares (jobId : String) (publishedAt : Nat) (_ : JobWatch) : WatchEvent → Prop
  | .publish next retention now =>
      next.template.jobId ≠ jobId ∧ now - publishedAt ≤ retention
  | .invalidate => True

theorem find?_publish {jobId : String} {next : PoolJob} {retention now : Nat}
    (other : jobId ≠ next.template.jobId) :
    (watch.publish next retention now).retained.inner.find? jobId =
      (watch.retained.inner.find? jobId).filter
        fun entry => decide (now - entry.publishedAt ≤ retention) :=
  RetainedJobs.find?_publish (show jobId ≠ (watch.flagged next).template.jobId from other)

theorem find?_step {jobId : String} {entry : RetainedJob} {event : WatchEvent}
    (known : watch.retained.inner.find? jobId = some entry)
    (spares : Spares jobId entry.publishedAt watch event)
    (stepped : jobWatch.step watch event = some watch') :
    watch'.retained.inner.find? jobId = some entry := by
  cases event with
  | publish next retention now =>
      obtain ⟨-, rfl⟩ := step_publish stepped
      obtain ⟨other, young⟩ := spares
      rw [find?_publish (Ne.symm other), known]
      exact Option.filter_eq_some_iff.2 ⟨rfl, decide_eq_true young⟩
  | invalidate =>
      cases step_invalidate stepped
      exact known

/-- **A published job is retained** through every run that does not outlast its retention. -/
theorem retained_until_expiry {next : PoolJob} {retention now : Nat}
    (later : (jobWatch.startingAt (watch.publish next retention now)).Reaches
      (Spares next.template.jobId now) watch') :
    watch'.retained.get next.template.jobId = some (watch.flagged next) := by
  obtain ⟨entry, known, same⟩ := Option.map_eq_some_iff.1 (RetainedJobs.find?_publish_self
    watch.retained (watch.flagged next) (watch.reason next) retention now)
  obtain ⟨own, at_⟩ := Prod.mk.inj same
  have kept : watch'.retained.inner.find? next.template.jobId = some entry := by
    apply later.invariant
    · rintro _ rfl
      exact known
    · intro _ _ _ _ known spares stepped
      rw [← at_] at spares
      exact find?_step known spares stepped
  rw [RetainedJobs.get, kept, ← own]
  rfl

/-- The first publication past the retention drops it. -/
theorem dropped_at_expiry {jobId : String} {entry : RetainedJob} {next : PoolJob}
    {retention now : Nat} (known : watch.retained.inner.find? jobId = some entry)
    (other : jobId ≠ next.template.jobId) (old : retention < now - entry.publishedAt) :
    (watch.publish next retention now).retained.get jobId = none := by
  rw [RetainedJobs.get, find?_publish other, known, Option.map_eq_none_iff,
    Option.filter_eq_none_iff]
  rintro found ⟨⟩ young
  exact absurd (of_decide_eq_true young) (Nat.not_le.2 old)

/-! ## The law -/

/-- **Parent fencing.**  In every run of the loop: a submit counts only on a job of the last
published parent; from a call of the sentinel until another parent is published it counts on
none; and while the sentinel has not called since the last publication it counts on every
retained job of the current parent. -/
theorem parent_fenced :
    (∀ watch, jobWatch.Reachable watch → ∀ jobId job,
      watch.retained.getForSubmit jobId = some job →
        job.template.prev = watch.current.template.prev) ∧
    (∀ before watch, jobWatch.Reachable before →
      (jobWatch.startingAt before.invalidate).Reaches SameParent watch →
        ∀ jobId, watch.retained.getForSubmit jobId = none) ∧
    (∀ published watch, JustPublished published →
      (jobWatch.startingAt published).Reaches Unfenced watch →
        ∀ jobId job, watch.retained.get jobId = some job →
          job.template.prev = watch.current.template.prev →
            watch.retained.getForSubmit jobId = some job) := by
  refine ⟨?_, ?_, ?_⟩
  · intro watch reached jobId job counts
    exact (onCurrent_of_getForSubmit (split_known reached) counts).1
  · intro before watch reached later jobId
    have invalidated : jobWatch.Reachable before.invalidate :=
      .next (e := .invalidate) reached trivial rfl
    have split : Split watch := split_known (invalidated.trans later.reachable)
    have fenced : Fenced watch := by
      apply later.invariant
      · rintro _ rfl
        exact fenced_invalidate
      · intro _ _ _ _ fenced same stepped
        exact fenced_step fenced same stepped
    cases counts : watch.retained.getForSubmit jobId with
    | none => rfl
    | some job => exact absurd fenced (onCurrent_of_getForSubmit split counts).2
  · intro published watch just later jobId job retained onCurrent
    have free : ¬ Fenced watch := by
      apply later.invariant
      · rintro _ rfl
        exact not_fenced_justPublished just
      · intro _ _ _ _ _ unfenced stepped
        exact not_fenced_step unfenced stepped
    obtain ⟨entry, found, rfl⟩ := Option.map_eq_some_iff.1 retained
    apply RetainedJobs.getForSubmit_iff.2
    refine ⟨⟨entry, found, rfl⟩, ?_⟩
    rw [onCurrent]
    exact free

/-- A tip that moves away and back: the first job counts, does not, and counts again, until the
sentinel calls. -/
example :
    let runs := fun events =>
      ((jobWatch.run (.initial (Sample.jobOn "a" 1) 0) events).bind fun watch =>
        watch.retained.getForSubmit "a").isSome
    let away := WatchEvent.publish (Sample.jobOn "b" 2) 60 10
    let back := WatchEvent.publish (Sample.jobOn "c" 1) 60 20
    (runs [], runs [away], runs [away, back], runs [away, back, .invalidate]) =
      (true, false, true, false) := by
  decide +kernel

end CsdPool.Bridge
