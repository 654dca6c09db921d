/-
# Adapter.JobCache — how long a node has a job

A template that comes in finds the jobs on its own parent; where those are 32 the cache is cleared,
and where the cache was on another parent nothing of it stays.  So the node either forgets nothing
or everything but the new job, and what it knows are the templates since it last did the latter:
the latest `stretch` of its answers, which the answers alone determine (`knows_stretch`).

A candidate on any other job is refused as stale or unknown, and no other candidate is
(`job_cache`).  A job can therefore be forgotten by the very next template on its parent.
-/
import CsdPool.Adapter.Assembly
import Mathlib.Data.List.Dedup

namespace CsdPool.Adapter

open Theory (Keyed Table Machine)

set_option autoImplicit false

/-! ## The answers of the template endpoint -/

structure Answered where
  parent : Hash32
  jobId : String
  deriving DecidableEq

/-- There is room for one more after these, and they are on its parent. -/
def RoomAfter (latest : Answered) (stretch : List Answered) : Prop :=
  (∀ answered ∈ stretch, answered.parent = latest.parent) ∧
    (stretch.map (·.jobId)).dedup.length < 32

instance (latest : Answered) (stretch : List Answered) : Decidable (RoomAfter latest stretch) :=
  inferInstanceAs (Decidable (_ ∧ _))

/-- The answers since the cache was last emptied, the latest first: a template on another parent
empties it, and one that finds 32 jobs. -/
def stretch : List Answered → List Answered
  | [] => []
  | latest :: earlier =>
      if RoomAfter latest (stretch earlier) then latest :: stretch earlier else [latest]

/-- A stretch is the end of the run. -/
theorem stretch_prefix (history : List Answered) : stretch history <+: history := by
  induction history with
  | nil => exact List.prefix_refl _
  | cons latest earlier ih =>
      unfold stretch
      split
      · exact List.prefix_cons_inj latest |>.2 ih
      · exact List.prefix_cons_inj latest |>.2 (List.nil_prefix)

/-- All of it is on the parent of the latest template. -/
theorem stretch_parent {latest : Answered} {earlier : List Answered} :
    ∀ answered ∈ stretch (latest :: earlier), answered.parent = latest.parent := by
  intro answered member
  unfold stretch at member
  split at member
  · rename_i room
    rcases List.mem_cons.1 member with rfl | before
    · rfl
    · exact room.1 answered before
  · rw [List.mem_singleton.1 member]

section Cache

variable (digest : Digest) (node : OfficialNode)

/-- The template endpoint with its answers so far. -/
def answeredMachine :
    Machine (PoolJobs node.Transaction × List Answered) (ChainView node.Transaction) :=
  (jobsMachine digest node).recording [] fun history jobs view =>
    match poolMiningTemplate digest node jobs view with
    | .ok (template, _) => ⟨view.parent, template.jobId⟩ :: history
    | .error _ => history

variable {digest node}

/-- One answer. -/
theorem answered_cases {s s' : PoolJobs node.Transaction × List Answered}
    {view : ChainView node.Transaction}
    (stepped : (answeredMachine digest node).step s view = some s') :
    ∃ job : PoolMiningJob node.Transaction,
      s' = (cacheJob node s.1 job, ⟨job.block.header.prev, job.template.jobId⟩ :: s.2) := by
  obtain ⟨moved, recorded⟩ := Machine.recording_step stepped
  obtain ⟨⟨template, jobs'⟩, ran, cached⟩ := Option.map_eq_some_iff.1 moved
  cases answer : poolMiningTemplate digest node s.1 view with
  | error error =>
      rw [answer] at ran
      cases ran
  | ok pair =>
      rw [answer] at ran recorded
      cases ran
      obtain ⟨job, -, parent, rfl, rfl⟩ := poolMiningTemplate_ok answer
      exact ⟨job, Prod.ext cached.symm (by rw [recorded, parent])⟩

/-- The jobs of the cache are those of a stretch, each on the parent it was answered for. -/
structure Knows (jobs : PoolJobs node.Transaction) (answers : List Answered) : Prop where
  found : ∀ jobId, jobs.find? jobId ≠ none ↔ jobId ∈ answers.map (·.jobId)
  parents : ∀ job ∈ jobs.rows, ∃ answered ∈ answers, answered.parent = job.block.header.prev
  oneParent : ∀ a ∈ answers, ∀ b ∈ answers, a.parent = b.parent
  bounded : (answers.map (·.jobId)).dedup.length ≤ 32

/-- As many jobs as different ids. -/
theorem Knows.length_eq {jobs : PoolJobs node.Transaction} {answers : List Answered}
    (knows : Knows jobs answers) :
    jobs.rows.length = (answers.map (·.jobId)).dedup.length := by
  have same : (jobs.rows.map Keyed.key).Perm (answers.map (·.jobId)).dedup := by
    rw [List.perm_ext_iff_of_nodup jobs.unique (List.nodup_dedup _)]
    intro jobId
    rw [List.mem_dedup, ← knows.found]
    exact Table.mem_map_key_iff
  rw [← same.length_eq, List.length_map]

/-- A cache that was emptied has the new job alone. -/
theorem knows_alone (job : PoolMiningJob node.Transaction) :
    Knows (Table.empty.put job) [⟨job.block.header.prev, job.template.jobId⟩] where
  found jobId := by
    rw [Table.find?_put]
    show (if job.template.jobId = jobId then some job else none) ≠ none ↔ _
    rw [List.map_singleton, List.mem_singleton]
    split
    · rename_i here
      simp [here]
    · rename_i other
      simp [Ne.symm other]
  parents x member := by
    rcases Table.mem_put.1 member with rfl | ⟨old, -⟩
    · exact ⟨_, List.mem_cons_self, rfl⟩
    · cases old
  oneParent a inA b inB := by rw [List.mem_singleton.1 inA, List.mem_singleton.1 inB]
  bounded := by simp

/-- A job on the cache's parent joins it while there is room. -/
theorem Knows.put {jobs : PoolJobs node.Transaction} {answers : List Answered}
    (knows : Knows jobs answers) (job : PoolMiningJob node.Transaction)
    (parents : ∀ answered ∈ answers, answered.parent = job.block.header.prev)
    (room : jobs.rows.length < 32) :
    Knows (jobs.put job) (⟨job.block.header.prev, job.template.jobId⟩ :: answers) where
  found jobId := by
    rw [Table.find?_put, List.map_cons, List.mem_cons, ← knows.found]
    show (if job.template.jobId = jobId then some job else jobs.find? jobId) ≠ none ↔ _
    split
    · rename_i here
      simp [here]
    · rename_i other
      simp [Ne.symm other]
  parents x member := by
    rcases Table.mem_put.1 member with rfl | ⟨old, -⟩
    · exact ⟨_, List.mem_cons_self, rfl⟩
    · obtain ⟨answered, inside, parent⟩ := knows.parents x old
      exact ⟨answered, List.mem_cons_of_mem _ inside, parent⟩
  oneParent a inA b inB := by
    have parent : ∀ c ∈ (⟨job.block.header.prev, job.template.jobId⟩ : Answered) :: answers,
        c.parent = job.block.header.prev := by
      intro c inside
      rcases List.mem_cons.1 inside with rfl | before
      · rfl
      · exact parents c before
    rw [parent a inA, parent b inB]
  bounded := by
    rw [List.map_cons]
    by_cases again : job.template.jobId ∈ answers.map (·.jobId)
    · rw [List.dedup_cons_of_mem again]
      exact knows.bounded
    · rw [List.dedup_cons_of_notMem again, List.length_cons, ← knows.length_eq]
      exact room

/-- Nothing is dropped from a cache that is on the template's parent. -/
theorem Knows.filter_same {jobs : PoolJobs node.Transaction} {answers : List Answered}
    (knows : Knows jobs answers) {parent : Hash32}
    (parents : ∀ answered ∈ answers, answered.parent = parent) :
    (jobs.filter fun old => old.block.header.prev = parent) = jobs := by
  apply Table.ext
  apply List.filter_eq_self.2
  intro old member
  obtain ⟨answered, inside, same⟩ := knows.parents old member
  exact decide_eq_true (same.symm.trans (parents answered inside))

/-- Everything is dropped from a cache that is on another. -/
theorem Knows.filter_other {jobs : PoolJobs node.Transaction} {answers : List Answered}
    (knows : Knows jobs answers) {parent : Hash32}
    (other : ¬ ∀ answered ∈ answers, answered.parent = parent) :
    (jobs.filter fun old => old.block.header.prev = parent) = Table.empty := by
  apply Table.ext
  apply List.filter_eq_nil_iff.2
  intro old member here
  obtain ⟨answered, inside, same⟩ := knows.parents old member
  refine other fun another inside' => ?_
  rw [knows.oneParent another inside' answered inside, same]
  exact of_decide_eq_true here

/-- **One template.** -/
theorem Knows.cacheJob {jobs : PoolJobs node.Transaction} {history : List Answered}
    (knows : Knows jobs (stretch history)) (job : PoolMiningJob node.Transaction) :
    Knows (Adapter.cacheJob node jobs job)
      (stretch (⟨job.block.header.prev, job.template.jobId⟩ :: history)) := by
  have length := knows.length_eq
  unfold stretch Adapter.cacheJob
  dsimp only
  by_cases parents : ∀ answered ∈ stretch history, answered.parent = job.block.header.prev
  · rw [knows.filter_same parents]
    by_cases room : jobs.rows.length < 32
    · rw [if_neg (Nat.not_le.2 room), if_pos ⟨parents, length ▸ room⟩]
      exact knows.put job parents room
    · rw [if_pos (Nat.not_lt.1 room), if_neg fun fits => room (length ▸ fits.2)]
      exact knows_alone job
  · rw [knows.filter_other parents, if_neg (by simp), if_neg fun fits => parents fits.1]
    exact knows_alone job

/-- **The cache is the latest stretch**, in every run. -/
theorem knows_stretch {s : PoolJobs node.Transaction × List Answered}
    (reached : (answeredMachine digest node).Reachable s) : Knows s.1 (stretch s.2) := by
  refine reached.invariant (I := fun s => Knows s.1 (stretch s.2)) ?_ ?_
  · rintro ⟨jobs, history⟩ ⟨rfl, rfl⟩
    exact ⟨fun jobId => (by simp [stretch]), fun _ member => (by cases member),
      fun _ member => (by cases member), (by simp [stretch])⟩
  · intro s view s' _ knows _ stepped
    obtain ⟨job, rfl⟩ := answered_cases stepped
    exact knows.cacheJob job

/-! ## What the node refuses -/

def staleOrUnknown : PoolApiError := conflict "stale or unknown pool job"

/-- A malformed request is refused for another reason. -/
theorem badRequest_ne_stale {α : Type} (message : String) :
    (.error (badRequest message) : Except PoolApiError α) ≠ .error staleOrUnknown := by
  simp [badRequest, staleOrUnknown, conflict]

theorem solvedBlock_ne_stale (block : Block node.Transaction) (coinbase : node.Transaction)
    (request : PoolCandidateReq) :
    solvedBlock digest node block coinbase request ≠ .error staleOrUnknown := by
  unfold solvedBlock
  split
  · exact badRequest_ne_stale _
  · split
    · simp [staleOrUnknown, conflict]
    · split
      · exact badRequest_ne_stale _
      · dsimp only
        split
        · exact badRequest_ne_stale _
        · split
          · exact badRequest_ne_stale _
          · split
            · exact badRequest_ne_stale _
            · simp

/-- A job that is there is refused for other reasons. -/
theorem assemblePoolBlock_ne_stale (block : Block node.Transaction) (coinb1 coinb2 : List UInt8)
    (request : PoolCandidateReq) :
    assemblePoolBlock digest node block coinb1 coinb2 request ≠ .error staleOrUnknown := by
  unfold assemblePoolBlock
  split
  · exact badRequest_ne_stale _
  · split
    · exact badRequest_ne_stale _
    · split
      · exact badRequest_ne_stale _
      · split
        · exact badRequest_ne_stale _
        · split
          · exact badRequest_ne_stale _
          · exact solvedBlock_ne_stale block _ request

theorem poolBlockSubmit_stale_iff {jobs : PoolJobs node.Transaction} {request : PoolCandidateReq} :
    poolBlockSubmit digest node jobs request = .error staleOrUnknown ↔
      jobs.find? request.jobId = none := by
  unfold poolBlockSubmit
  split
  · rename_i missing
    exact iff_of_true rfl missing
  · rename_i job found
    rw [found]
    exact iff_of_false (assemblePoolBlock_ne_stale _ _ _ _) (Option.some_ne_none job)

/-- **The cache of the node.**  In every run of the template endpoint, a candidate is refused as
stale or unknown exactly when its job is not one of the latest stretch of answers; the stretch ends
the run, and the cache holds its different jobs, 32 at most, all on the parent of the latest. -/
theorem job_cache {s : PoolJobs node.Transaction × List Answered}
    (reached : (answeredMachine digest node).Reachable s) :
    (∀ request, poolBlockSubmit digest node s.1 request = .error staleOrUnknown ↔
      request.jobId ∉ (stretch s.2).map (·.jobId)) ∧
    stretch s.2 <+: s.2 ∧ s.1.rows.length = ((stretch s.2).map (·.jobId)).dedup.length ∧
    s.1.rows.length ≤ 32 ∧
    ∀ latest ∈ s.2.head?, ∀ job ∈ s.1.rows, job.block.header.prev = latest.parent := by
  have knows := knows_stretch reached
  refine ⟨fun request => ?_, stretch_prefix s.2, knows.length_eq, knows.length_eq ▸ knows.bounded,
    ?_⟩
  · rw [poolBlockSubmit_stale_iff, ← knows.found, not_not]
  · intro latest newest job member
    obtain ⟨answered, inside, parent⟩ := knows.parents job member
    obtain ⟨earlier, history⟩ : ∃ earlier, s.2 = latest :: earlier :=
      List.head?_eq_some_iff.1 newest
    rw [history] at inside
    rw [← parent]
    exact stretch_parent answered inside

end Cache

/-! ### A new parent -/

namespace Sample

/-- The next block came, and a second template on it. -/
def nextView (time : UInt64) : ChainView Tx := { view with parent := .replicate 32 8, time }

def firstId : String := "7dc987f6717db8bc54ef5fb1434099cf84cf76c28cf2a68b9e72e0fd39f343a3"

def secondId : String := "5031e20e3adbbee7361ab0562d1834b4f02a660b494ce6a19d55579bbf8b7c60"

def thirdId : String := "fb58561b76a31e51da9f9d87e82cf94cb689e837d7f850ce46753d360e476957"

end Sample

/-- The first job is forgotten with its parent, and the second is still known after the third. -/
theorem job_cache_new_parent :
    let node := Sample.node Theory.Sha256.digest (Sample.shown Theory.Sha256.digest)
    ∃ s, (answeredMachine Theory.Sha256.digest node).Reachable s ∧
      s.2.map (·.jobId) = [Sample.thirdId, Sample.secondId, Sample.firstId] ∧
      s.1.rows.length = 2 ∧
      (∀ request, request.jobId = Sample.firstId →
        poolBlockSubmit Theory.Sha256.digest node s.1 request = .error staleOrUnknown) ∧
      ∀ request, request.jobId = Sample.secondId ∨ request.jobId = Sample.thirdId →
        poolBlockSubmit Theory.Sha256.digest node s.1 request ≠ .error staleOrUnknown := by
  intro node
  obtain ⟨s, reached, shown⟩ := Machine.exists_of_run (answeredMachine Theory.Sha256.digest node)
    (s := (.empty, [])) ⟨rfl, rfl⟩ [Sample.view, Sample.nextView 101, Sample.nextView 102]
    (fun s => decide (s.2 = [⟨.replicate 32 8, Sample.thirdId⟩, ⟨.replicate 32 8, Sample.secondId⟩,
      ⟨.replicate 32 7, Sample.firstId⟩]))
    (by decide +kernel)
  have history := of_decide_eq_true shown
  have recent : stretch s.2 = [⟨.replicate 32 8, Sample.thirdId⟩,
      ⟨.replicate 32 8, Sample.secondId⟩] := by
    rw [history]
    decide +kernel
  obtain ⟨refused, -, length, -, -⟩ := job_cache reached
  rw [recent] at refused length
  refine ⟨s, reached, by rw [history]; rfl, length.trans (by decide +kernel), ?_, ?_⟩
  · intro request first
    rw [refused, first]
    decide +kernel
  · rintro request (second | third)
    · rw [Ne, refused, second, not_not]
      decide +kernel
    · rw [Ne, refused, third, not_not]
      decide +kernel

end CsdPool.Adapter
