/-
# Bridge.Retained — the retained jobs and the loop that publishes them

`RetainedJobs` and the refresh loop of `SharedJobWatch`.  A published job stays in a map
under its id until the retention drops it at a later publication; whether a submit on it
counts is decided by a second structure, the set of invalidated parents.

* A tip change adds every other retained parent to that set, the tip sentinel adds the
  current one, and each publication prunes it to the retained parents and takes its own
  parent out.
* So every retained job is on the current parent or on an invalidated one (`Split`), and
  the current parent is in the set exactly from the sentinel's call to the next
  publication, which the loop only lets through on another parent (`Fenced`).

Times are numbers of one clock and a subtraction saturates, as `TokioInstant` has it.  The
telemetry of replacement latencies is left out.
-/
import CsdPool.Bridge.Submit
import CsdPool.Theory.Machine
import Mathlib.Data.Finset.Image

namespace CsdPool.Bridge

open Theory (Keyed Table Machine)

set_option autoImplicit false

/-- A published job, with the time of its last publication and the generation it went out under. -/
structure RetainedJob where
  job : PoolJob
  publishedAt : Nat
  cleanGeneration : Nat

instance instKeyedRetainedJob : Keyed RetainedJob String := ⟨fun entry => entry.job.template.jobId⟩

/-- The jobs by id, the parents whose jobs count no longer, and the generation of the last tip
change. -/
structure RetainedJobs where
  inner : Table RetainedJob
  invalidatedParents : Finset Hash32
  currentCleanGeneration : Nat

/-- On whose side a stale share was late. -/
inductive StaleGenerationClass
  | notifyDeliveryLag
  | minerSwitchLag
  | unclassified
  deriving DecidableEq, Repr

def StaleGenerationClass.asStr : StaleGenerationClass → String
  | notifyDeliveryLag => "notify_delivery_lag"
  | minerSwitchLag => "miner_switch_lag"
  | unclassified => "unclassified"

namespace RetainedJobs

def withInitial (job : PoolJob) (now : Nat) : RetainedJobs where
  inner := Table.empty.put ⟨job, now, 1⟩
  invalidatedParents := ∅
  currentCleanGeneration := 1

def get (jobs : RetainedJobs) (jobId : String) : Option PoolJob :=
  (jobs.inner.find? jobId).map RetainedJob.job

def parentIsInvalidated (jobs : RetainedJobs) (parent : Hash32) : Bool :=
  decide (parent ∈ jobs.invalidatedParents)

/-- A submit counts on a retained job, unless the parent of the job is invalidated. -/
def getForSubmit (jobs : RetainedJobs) (jobId : String) : Option PoolJob :=
  (jobs.get jobId).filter fun job => !jobs.parentIsInvalidated job.template.prev

def jobParentIsInvalidated (jobs : RetainedJobs) (jobId : String) : Bool :=
  (jobs.get jobId).any fun job => jobs.parentIsInvalidated job.template.prev

def cleanGeneration (jobs : RetainedJobs) (jobId : String) : Option Nat :=
  (jobs.inner.find? jobId).map RetainedJob.cleanGeneration

/-- The session had not been sent the current generation, or it had and its miner worked on. -/
def staleGenerationClass (jobs : RetainedJobs) (jobId : String) (lastDeliveredGeneration : Nat) :
    StaleGenerationClass :=
  if lastDeliveredGeneration < jobs.currentCleanGeneration then .notifyDeliveryLag
  else if (jobs.cleanGeneration jobId).any (· < jobs.currentCleanGeneration) then .minerSwitchLag
  else .unclassified

/-- The parents of a map of retained jobs. -/
def parents (inner : Table RetainedJob) : Finset Hash32 :=
  (inner.rows.map fun entry => entry.job.template.prev).toFinset

/-- One publication. The jobs whose retention is over go; a tip change invalidates the parents of
those that stay, all but the new job's own, and no parent is kept that has no job. -/
def publish (jobs : RetainedJobs) (job : PoolJob) (reason : JobReason) (retention now : Nat) :
    RetainedJobs :=
  let cleanGeneration := match reason with
    | .tipChange => jobs.currentCleanGeneration + 1
    | .heartbeat => jobs.currentCleanGeneration
  let kept := jobs.inner.filter fun entry => decide (now - entry.publishedAt ≤ retention)
  let retainedParents := parents kept
  let invalidated :=
    if reason = .tipChange then
      jobs.invalidatedParents ∪ retainedParents.filter (· ≠ job.template.prev)
    else jobs.invalidatedParents
  { inner := kept.put ⟨job, now, cleanGeneration⟩
    invalidatedParents := (invalidated.filter (· ∈ retainedParents)).erase job.template.prev
    currentCleanGeneration := cleanGeneration }

/-- Returns how many retained jobs the parent has. -/
def invalidateParent (jobs : RetainedJobs) (parent : Hash32) : Nat × RetainedJobs :=
  ((jobs.inner.rows.filter fun entry => decide (entry.job.template.prev = parent)).length,
    { jobs with invalidatedParents := insert parent jobs.invalidatedParents })

/-- Some job stands on the parent, and its shares count. -/
def parentIsRetained (jobs : RetainedJobs) (parent : Hash32) : Bool :=
  !jobs.parentIsInvalidated parent &&
    jobs.inner.rows.any fun entry => decide (entry.job.template.prev = parent)

/-! ## What the operations do -/

theorem mem_parents {inner : Table RetainedJob} {parent : Hash32} :
    parent ∈ parents inner ↔ ∃ entry ∈ inner.rows, entry.job.template.prev = parent := by
  simp [parents]

/-- A submit is taken exactly for a retained job on a parent that is not invalidated. -/
theorem getForSubmit_iff {jobs : RetainedJobs} {jobId : String} {job : PoolJob} :
    jobs.getForSubmit jobId = some job ↔
      (∃ entry, jobs.inner.find? jobId = some entry ∧ entry.job = job) ∧
        job.template.prev ∉ jobs.invalidatedParents := by
  unfold getForSubmit get parentIsInvalidated
  simp only [Option.filter_eq_some_iff, Option.map_eq_some_iff, Bool.not_eq_true',
    decide_eq_false_iff_not]

/-- After a publication there is the job published, and of the others those in their retention. -/
theorem mem_publish {jobs : RetainedJobs} {job : PoolJob} {reason : JobReason}
    {retention now : Nat} {entry : RetainedJob}
    (member : entry ∈ (jobs.publish job reason retention now).inner.rows) :
    entry.job = job ∨ (entry ∈ jobs.inner.rows ∧ now - entry.publishedAt ≤ retention) := by
  rcases Table.mem_put.1 member with rfl | ⟨kept, -⟩
  · exact .inl rfl
  · have known := Table.mem_filter.1 kept
    exact .inr ⟨known.1, of_decide_eq_true known.2⟩

/-- A publication retains its own job. -/
theorem find?_publish_self (jobs : RetainedJobs) (job : PoolJob) (reason : JobReason)
    (retention now : Nat) :
    ((jobs.publish job reason retention now).inner.find? job.template.jobId).map
      (fun entry => (entry.job, entry.publishedAt)) = some (job, now) := by
  unfold publish
  rw [Table.find?_put]
  show Option.map _ (if job.template.jobId = job.template.jobId then _ else _) = _
  rw [if_pos rfl]
  rfl

/-- Of the others it drops the job whose retention is over, and no other. -/
theorem find?_publish {jobs : RetainedJobs} {job : PoolJob} {reason : JobReason}
    {retention now : Nat} {jobId : String} (other : jobId ≠ job.template.jobId) :
    (jobs.publish job reason retention now).inner.find? jobId =
      (jobs.inner.find? jobId).filter fun entry => decide (now - entry.publishedAt ≤ retention) := by
  unfold publish
  rw [Table.find?_put]
  show (if job.template.jobId = jobId then _ else _) = _
  rw [if_neg (Ne.symm other), Table.find?_filter]

/-- The invalidated parents after a publication: they still have a job in its retention, are not the
parent of the new job, and were invalidated before or are so by a change of the tip. -/
theorem mem_invalidated_publish {jobs : RetainedJobs} {job : PoolJob} {reason : JobReason}
    {retention now : Nat} {parent : Hash32} :
    parent ∈ (jobs.publish job reason retention now).invalidatedParents ↔
      parent ≠ job.template.prev ∧
        (parent ∈ jobs.invalidatedParents ∨ reason = .tipChange) ∧
          ∃ entry ∈ jobs.inner.rows, now - entry.publishedAt ≤ retention ∧
            entry.job.template.prev = parent := by
  have retained : (∃ entry ∈ jobs.inner.rows, now - entry.publishedAt ≤ retention ∧
      entry.job.template.prev = parent) ↔ parent ∈ parents
        (jobs.inner.filter fun entry => decide (now - entry.publishedAt ≤ retention)) := by
    rw [mem_parents]
    simp only [Table.mem_filter, decide_eq_true_eq, and_assoc]
  rw [retained]
  unfold publish
  cases reason with
  | tipChange =>
      simp only [if_pos, Finset.mem_erase, Finset.mem_filter, Finset.mem_union]
      tauto
  | heartbeat =>
      simp only [reduceCtorEq, if_false, Finset.mem_erase, Finset.mem_filter, or_false]

end RetainedJobs

/-! ## The refresh loop -/

/-- The value of the watch channel and the retained jobs. -/
structure JobWatch where
  current : PoolJob
  retained : RetainedJobs

namespace JobWatch

def initial (job : PoolJob) (now : Nat) : JobWatch := ⟨job, .withInitial job now⟩

/-- A job on another parent than the current one is a tip change. -/
def reason (watch : JobWatch) (next : PoolJob) : JobReason :=
  if next.template.prev ≠ watch.current.template.prev then .tipChange else .heartbeat

/-- The loop refuses to publish on a parent the sentinel invalidated. -/
def refuses (watch : JobWatch) (next : PoolJob) : Bool :=
  !watch.retained.parentIsRetained next.template.prev &&
    decide (next.template.prev = watch.current.template.prev)

/-- `next.notify.clean_jobs = reason == TipChange`. -/
def flagged (watch : JobWatch) (next : PoolJob) : PoolJob :=
  { next with
    notify := { next.notify with cleanJobs := decide (watch.reason next = .tipChange) }
    named := next.named }

/-- The flagged job becomes the channel's value and is retained. -/
def publish (watch : JobWatch) (next : PoolJob) (retention now : Nat) : JobWatch :=
  let job := watch.flagged next
  ⟨job, watch.retained.publish job (watch.reason next) retention now⟩

/-- The sentinel's call: the current parent stops counting until a job is published on another one.
-/
def invalidate (watch : JobWatch) : JobWatch :=
  { watch with
    retained := (watch.retained.invalidateParent watch.current.template.prev).2 }

/-- One turn of the loop from the fetched template on; `persisted` is whether `upsert_job`
went through. -/
def turn (watch : JobWatch) (next : PoolJob) (persisted : Bool) (retention now : Nat) : JobWatch :=
  if watch.refuses next then watch
  else if next.template.jobId = watch.current.template.jobId then watch
  else if persisted then watch.publish next retention now else watch

end JobWatch

/-- What changes the watch. -/
inductive WatchEvent
  | publish (next : PoolJob) (retention now : Nat)
  | invalidate

/-- Every publication the refusal lets through, and the sentinel's calls. -/
def jobWatch : Machine JobWatch WatchEvent where
  init watch := ∃ job now, watch = .initial job now
  step watch
    | .publish next retention now =>
        if watch.refuses next then none else some (watch.publish next retention now)
    | .invalidate => some watch.invalidate

/-- A turn of the loop publishes through the machine or changes nothing. -/
theorem turn_step (watch : JobWatch) (next : PoolJob) (persisted : Bool) (retention now : Nat) :
    watch.turn next persisted retention now = watch ∨
      jobWatch.step watch (.publish next retention now) =
        some (watch.turn next persisted retention now) := by
  unfold JobWatch.turn jobWatch
  by_cases refused : watch.refuses next = true
  · exact .inl (if_pos refused)
  · by_cases same : next.template.jobId = watch.current.template.jobId
    · simp [refused, same]
    · cases persisted <;> simp [refused, same]

end CsdPool.Bridge
