/-
# Bridge.MaterialFetch — calls, the fetch in flight, and completions

`current_job` takes the cache lock for `slot_for` and, when it is to start a fetch, the lock of the
fetch in flight.  Under that second lock it aborts the previous fetch, if it is another job's, then
takes the cache lock again to cancel that job's mark, and then spawns its own task.  A task ends in
`finish_fetch`, also after it was told to abort, unless the runtime drops it before.  `step` is one
of these moves, so calls and completions interleave at every lock.

`Inv` is what holds in every reachable state; its `pending` says that no entry is stuck: one that
is marked as started and has no material has a fetch on its way, or is about to lose its mark.
Between an abort and the cancellation that follows it, the mark still stands and nothing fetches
(`abort_hides_entry`).
-/
import CsdPool.Bridge.MaterialCache
import CsdPool.Theory.Machine
import CsdPool.Theory.Sha256

namespace CsdPool.Bridge

open Theory TemplateMaterialCache

set_option autoImplicit false

/-- What a call hands to the task it spawns. -/
structure MaterialFetch where
  template : NodeMiningTemplate
  slot : Nat
  deriving DecidableEq, Repr

structure MaterialFetchTask where
  fetch : MaterialFetch
  aborted : Bool
  deriving DecidableEq, Repr

/-- The call that has the lock of the fetch in flight; `cancels` is the job id whose fetch it
aborted and whose mark it has yet to cancel. -/
structure InFlightCheck where
  fetch : MaterialFetch
  cancels : Option String
  deriving DecidableEq, Repr

/-- `waiting` are the calls that are to start a fetch and do not have the lock yet, `tasks` the
spawned tasks that have not ended. -/
structure LiveTemplateProvider where
  cache : TemplateMaterialCache
  waiting : List MaterialFetch
  checking : Option InFlightCheck
  tasks : Nat → Option MaterialFetchTask
  spawned : Nat
  inFlight : Option (String × Nat)

/-- `currentJob` is a call up to the end of `slot_for`, `response` what the node answered to the
task, `none` for an error or a timeout. -/
inductive ProviderEvent
  | currentJob (template : NodeMiningTemplate)
  | lockMaterialFetch (call : Nat)
  | cancelFetch
  | spawn
  | finishFetch (task : Nat) (response : Option StatelessNodeMiningTemplate)
  | dropAborted (task : Nat)

def TemplateMaterialCacheEntry.fetch (entry : TemplateMaterialCacheEntry) : MaterialFetch :=
  ⟨entry.template, entry.slot⟩

/-- What a task has fetched when its node answered. -/
def fetchedMaterial (digest : Digest) (template : NodeMiningTemplate)
    (response : Option StatelessNodeMiningTemplate) : Option CandidateTemplateMaterial :=
  match response with
  | some fullTemplate =>
      match fullTemplate.intoParts digest with
      | .ok (fullBase, material) => if fullBase = template then some material else none
      | .error _ => none
  | none => none

namespace LiveTemplateProvider

def newStateless : LiveTemplateProvider where
  cache := .empty
  waiting := []
  checking := none
  tasks _ := none
  spawned := 0
  inFlight := none

/-- The call has the lock: another job's fetch in flight is aborted. -/
def check (s : LiveTemplateProvider) (fetch : MaterialFetch) : LiveTemplateProvider :=
  match s.inFlight with
  | some (previousJobId, previous) =>
      if previousJobId ≠ fetch.template.jobId then
        { s with
          tasks := Function.update s.tasks previous
            ((s.tasks previous).map fun task => { task with aborted := true })
          checking := some ⟨fetch, some previousJobId⟩ }
      else { s with checking := some ⟨fetch, none⟩ }
  | none => { s with checking := some ⟨fetch, none⟩ }

def step (digest : Digest) (s : LiveTemplateProvider) :
    ProviderEvent → Option LiveTemplateProvider
  | .currentJob template =>
      match template.intoPoolJob with
      | .error _ => some s
      | .ok _ =>
          let (cache, slot, shouldFetch) := s.cache.slotFor template
          some { s with
            cache
            waiting := if shouldFetch then s.waiting ++ [⟨template, slot⟩] else s.waiting }
  | .lockMaterialFetch call =>
      match s.checking, s.waiting[call]? with
      | none, some fetch => some ({ s with waiting := s.waiting.eraseIdx call }.check fetch)
      | _, _ => none
  | .cancelFetch =>
      match s.checking with
      | some ⟨fetch, some previousJobId⟩ =>
          some { s with
            cache := s.cache.cancelFetch previousJobId
            checking := some ⟨fetch, none⟩ }
      | _ => none
  | .spawn =>
      match s.checking with
      | some ⟨fetch, none⟩ =>
          some { s with
            checking := none
            tasks := Function.update s.tasks s.spawned (some ⟨fetch, false⟩)
            spawned := s.spawned + 1
            inFlight := some (fetch.template.jobId, s.spawned) }
      | _ => none
  | .finishFetch task response =>
      (s.tasks task).map fun ended =>
        { s with
          cache := s.cache.finishFetch ended.fetch.template ended.fetch.slot
            (fetchedMaterial digest ended.fetch.template response)
          tasks := Function.update s.tasks task none }
  | .dropAborted task =>
      match s.tasks task with
      | some ⟨_, true⟩ => some { s with tasks := Function.update s.tasks task none }
      | _ => none

def machine (digest : Digest) : Machine LiveTemplateProvider ProviderEvent where
  init s := s = newStateless
  step := step digest

variable {digest : Digest} {s s' : LiveTemplateProvider} {event : ProviderEvent}

/-! ## What a step does to the cache -/

inductive CacheStep (digest : Digest) (s : LiveTemplateProvider) :
    ProviderEvent → TemplateMaterialCache → Prop
  | same {event : ProviderEvent} : CacheStep digest s event s.cache
  | slotFor {template : NodeMiningTemplate} {job : PoolJob}
      (converts : template.intoPoolJob = .ok job)
      {result : TemplateMaterialCache × Nat × Bool}
      (outcome : SlotForOutcome s.cache template result) :
      CacheStep digest s (.currentJob template) result.1
  | cancel {jobId : String} {entry : TemplateMaterialCacheEntry}
      (found : s.cache.entries.find? jobId = some entry) :
      CacheStep digest s .cancelFetch (s.cache.marked entry false s.cache.slots)
  | finish {task : Nat} {response : Option StatelessNodeMiningTemplate}
      {entry : TemplateMaterialCacheEntry} {ended : MaterialFetchTask}
      (running : s.tasks task = some ended)
      (found : s.cache.entries.find? ended.fetch.template.jobId = some entry)
      (own : entry.fetch = ended.fetch) :
      CacheStep digest s (.finishFetch task response)
        (s.cache.marked entry false
          ((fetchedMaterial digest entry.template response).elim s.cache.slots fun material =>
            Function.update s.cache.slots entry.slot (some material)))

theorem check_cache (s : LiveTemplateProvider) (fetch : MaterialFetch) :
    (s.check fetch).cache = s.cache := by
  unfold check
  split
  · split <;> rfl
  · rfl

theorem cacheStep (kept : s.cache.Kept) (stepped : s.step digest event = some s') :
    CacheStep digest s event s'.cache := by
  cases event with
  | currentJob template =>
      simp only [step] at stepped
      split at stepped
      · cases stepped
        exact .same
      · rename_i job converts
        cases stepped
        exact .slotFor converts (slotFor_outcome kept template)
  | lockMaterialFetch call =>
      simp only [step] at stepped
      split at stepped
      · cases stepped
        rw [check_cache]
        exact .same
      · cases stepped
  | cancelFetch =>
      simp only [step] at stepped
      split at stepped
      · rename_i fetch previousJobId checking
        cases stepped
        show CacheStep digest s .cancelFetch (s.cache.cancelFetch previousJobId)
        rcases cancelFetch_cases s.cache previousJobId with ⟨same, -⟩ | ⟨entry, found, same⟩
        · rw [same]
          exact .same
        · rw [same]
          exact .cancel found
      · cases stepped
  | spawn =>
      simp only [step] at stepped
      split at stepped
      · cases stepped
        exact .same
      · cases stepped
  | finishFetch task response =>
      obtain ⟨ended, running, rfl⟩ := Option.map_eq_some_iff.1 stepped
      show CacheStep digest s _ (s.cache.finishFetch _ _ _)
      rcases finishFetch_cases s.cache ended.fetch.template ended.fetch.slot
          (fetchedMaterial digest ended.fetch.template response) with
        ⟨same, -⟩ | ⟨entry, found, template, slot, same⟩
      · rw [same]
        exact .same
      · rw [same, ← template, ← slot]
        exact .finish running found (by rw [TemplateMaterialCacheEntry.fetch, template, slot])
  | dropAborted task =>
      simp only [step] at stepped
      split at stepped
      · cases stepped
        exact .same
      · cases stepped

/-- The entries after a step: marked or not, each was there before under its slot, or it is the
new one. -/
theorem CacheStep.entries {cache' : TemplateMaterialCache}
    (cacheStep : CacheStep digest s event cache') {entry : TemplateMaterialCacheEntry}
    (member : entry ∈ cache'.entries.rows) :
    (∃ before ∈ s.cache.entries.rows,
      before.jobId = entry.jobId ∧ before.fetch = entry.fetch) ∨
      ∃ template job, event = .currentJob template ∧ template.intoPoolJob = .ok job ∧
        entry = ⟨template.jobId, template, s.cache.allocated, true⟩ ∧
        cache'.slots entry.slot = none := by
  cases cacheStep with
  | same => exact .inl ⟨entry, member, rfl, rfl⟩
  | slotFor converts outcome =>
      cases outcome with
      | again found same =>
          rcases mem_marked.1 member with rfl | ⟨before, -⟩
          · exact .inl ⟨_, Table.mem_of_find? found, rfl, rfl⟩
          · exact .inl ⟨entry, before, rfl, rfl⟩
      | inserted next inserted =>
          rcases inserted.stays entry member with rfl | ⟨before, -⟩
          · exact .inr ⟨_, _, rfl, converts, rfl, inserted.fresh⟩
          · exact .inl ⟨entry, before, rfl, rfl⟩
  | cancel found =>
      rcases mem_marked.1 member with rfl | ⟨before, -⟩
      · exact .inl ⟨_, Table.mem_of_find? found, rfl, rfl⟩
      · exact .inl ⟨entry, before, rfl, rfl⟩
  | finish running found own =>
      rcases mem_marked.1 member with rfl | ⟨before, -⟩
      · exact .inl ⟨_, Table.mem_of_find? found, rfl, rfl⟩
      · exact .inl ⟨entry, before, rfl, rfl⟩

theorem CacheStep.kept {cache' : TemplateMaterialCache} (kept : s.cache.Kept)
    (cacheStep : CacheStep digest s event cache') : cache'.Kept := by
  cases cacheStep with
  | same => exact kept
  | slotFor converts outcome =>
      cases outcome with
      | again found same => exact kept.mark found true fun _ _ => rfl
      | inserted next inserted => exact inserted.kept
  | cancel found => exact kept.mark found false fun _ _ => rfl
  | finish running found own =>
      refine kept.mark found false fun slot other => ?_
      cases fetchedMaterial digest _ _ with
      | none => rfl
      | some material => exact Function.update_of_ne other ..

theorem length_marked (cache : TemplateMaterialCache) {entry : TemplateMaterialCacheEntry}
    {jobId : String} (found : cache.entries.find? jobId = some entry) (fetchStarted : Bool)
    (slots : Nat → Option CandidateTemplateMaterial) :
    (cache.marked entry fetchStarted slots).entries.rows.length = cache.entries.rows.length := by
  have keys := Table.map_key_put_of_mem (r := { entry with fetchStarted })
    (Table.mem_of_find? found) rfl
  have length := congrArg List.length keys
  rwa [List.length_map, List.length_map] at length

theorem CacheStep.bounded {cache' : TemplateMaterialCache}
    (bounded : s.cache.entries.rows.length ≤ maxStatelessTemplateCacheEntries)
    (cacheStep : CacheStep digest s event cache') :
    cache'.entries.rows.length ≤ maxStatelessTemplateCacheEntries := by
  cases cacheStep with
  | same => exact bounded
  | slotFor converts outcome =>
      cases outcome with
      | again found same => exact (length_marked _ found _ _).trans_le bounded
      | inserted next inserted => exact inserted.bounded
  | cancel found => exact (length_marked _ found _ _).trans_le bounded
  | finish running found own => exact (length_marked _ found _ _).trans_le bounded

/-! ## Slots that left the cache -/

/-- The slot was given out, and no entry has it. -/
def Retired (cache : TemplateMaterialCache)
    (slot : Nat) : Prop :=
  slot < cache.allocated ∧ ∀ entry ∈ cache.entries.rows, entry.slot ≠ slot

theorem CacheStep.allocated_le {cache' : TemplateMaterialCache}
    (cacheStep : CacheStep digest s event cache') :
    s.cache.allocated ≤ cache'.allocated := by
  cases cacheStep with
  | same => exact le_rfl
  | slotFor converts outcome =>
      cases outcome with
      | again found same => exact le_rfl
      | inserted next inserted => exact inserted.allocated ▸ Nat.le_succ _
  | cancel found => exact le_rfl
  | finish running found own => exact le_rfl

theorem CacheStep.retired {cache' : TemplateMaterialCache} {slot : Nat}
    (cacheStep : CacheStep digest s event cache') (retired : Retired s.cache slot) :
    Retired cache' slot := by
  refine ⟨retired.1.trans_le cacheStep.allocated_le, fun entry member same => ?_⟩
  rcases cacheStep.entries member with ⟨before, inRows, -, fetch⟩ | ⟨template, job, -, -, rfl, -⟩
  · have slots : before.slot = entry.slot := congrArg MaterialFetch.slot fetch
    exact retired.2 before inRows (slots.trans same)
  · exact retired.1.ne' same

/-! ## Nothing is stuck -/

/-- A call is to fetch for the entry, a task fetches for it, or its mark is about to go. -/
def Pending (s : LiveTemplateProvider) (entry : TemplateMaterialCacheEntry) : Prop :=
  entry.fetch ∈ s.waiting ∨
    (∃ check, s.checking = some check ∧
      (check.fetch = entry.fetch ∨ check.cancels = some entry.jobId)) ∨
    ∃ task, s.tasks task = some ⟨entry.fetch, false⟩

structure Inv (s : LiveTemplateProvider) : Prop where
  kept : s.cache.Kept
  bounded : s.cache.entries.rows.length ≤ maxStatelessTemplateCacheEntries
  converts : ∀ entry ∈ s.cache.entries.rows, ∃ job, entry.template.intoPoolJob = .ok job
  numbered : ∀ task, s.spawned ≤ task → s.tasks task = none
  identified : ∀ jobId task running, s.inFlight = some (jobId, task) →
    s.tasks task = some running → running.fetch.template.jobId = jobId
  pending : ∀ entry ∈ s.cache.entries.rows, entry.fetchStarted = true →
    s.cache.slots entry.slot = none → s.Pending entry

theorem Inv.init : Inv newStateless where
  kept := .empty
  bounded := Nat.zero_le _
  converts := by simp [newStateless, TemplateMaterialCache.empty]
  numbered _ _ := rfl
  identified _ _ _ inFlight := by cases inFlight
  pending := by simp [newStateless, TemplateMaterialCache.empty]

theorem Pending.mono {entry : TemplateMaterialCacheEntry} (pending : s.Pending entry)
    (waiting : ∀ fetch ∈ s.waiting, fetch ∈ s'.waiting) (checking : s'.checking = s.checking)
    (tasks : ∀ task run, s.tasks task = some run → run.aborted = false →
      run.fetch = entry.fetch → s'.tasks task = some run) : s'.Pending entry := by
  rcases pending with waits | ⟨check, held, does⟩ | ⟨task, running⟩
  · exact .inl (waiting _ waits)
  · exact .inr (.inl ⟨check, checking.trans held, does⟩)
  · exact .inr (.inr ⟨task, tasks task _ running rfl rfl⟩)

theorem Inv.converts_step (inv : Inv s) {cache' : TemplateMaterialCache}
    (cacheStep : CacheStep digest s event cache') :
    ∀ entry ∈ cache'.entries.rows, ∃ job, entry.template.intoPoolJob = .ok job := by
  intro entry member
  rcases cacheStep.entries member with
    ⟨before, inRows, -, fetch⟩ | ⟨template, job, -, converts, rfl, -⟩
  · have template : before.template = entry.template := congrArg MaterialFetch.template fetch
    exact template ▸ inv.converts before inRows
  · exact ⟨job, converts⟩

/-- The invariant after a step that leaves the tasks and the fetch in flight. -/
theorem Inv.of_cacheStep (inv : Inv s) (cacheStep : CacheStep digest s event s'.cache)
    (numbered : ∀ task, s'.spawned ≤ task → s'.tasks task = none)
    (identified : ∀ jobId task running, s'.inFlight = some (jobId, task) →
      s'.tasks task = some running → running.fetch.template.jobId = jobId)
    (pending : ∀ entry ∈ s'.cache.entries.rows, entry.fetchStarted = true →
      s'.cache.slots entry.slot = none → s'.Pending entry) : Inv s' where
  kept := cacheStep.kept inv.kept
  bounded := cacheStep.bounded inv.bounded
  converts := inv.converts_step cacheStep
  numbered := numbered
  identified := identified
  pending := pending

theorem Inv.currentJob (inv : Inv s) {template : NodeMiningTemplate}
    (stepped : s.step digest (.currentJob template) = some s') : Inv s' := by
  have cacheStep := cacheStep inv.kept stepped
  simp only [step] at stepped
  split at stepped
  · cases stepped
    exact inv
  · rename_i job converts
    have outcome := slotFor_outcome inv.kept template
    revert stepped
    generalize s.cache.slotFor template = result at outcome
    intro stepped
    cases stepped
    refine inv.of_cacheStep cacheStep inv.numbered inv.identified fun entry member marked empty => ?_
    have waits : ∀ fetch ∈ s.waiting, fetch ∈
        if result.2.2 then s.waiting ++ [⟨template, result.2.1⟩] else s.waiting := by
      intro fetch waits
      cases result.2.2
      · exact waits
      · exact List.mem_append_left _ waits
    cases outcome with
    | @again known found same =>
        rcases mem_marked.1 member with rfl | ⟨before, -⟩
        · by_cases started : known.fetchStarted = true
          · have pending := inv.pending known (Table.mem_of_find? found) started empty
            exact pending.mono waits rfl fun _ _ running _ _ => running
          · refine .inl ?_
            have none_ : s.cache.slots known.slot = none := empty
            have shouldFetch :
                (!known.fetchStarted && (s.cache.slots known.slot).isNone) = true := by
              simp [none_, started]
            show known.fetch ∈ if _ then _ else _
            rw [if_pos shouldFetch, ← same]
            exact List.mem_append_right _ (List.mem_singleton_self _)
        · exact (inv.pending entry before marked empty).mono waits rfl
            fun _ _ running _ _ => running
    | inserted next inserted =>
        rcases inserted.stays entry member with rfl | ⟨before, -, slots⟩
        · exact .inl (List.mem_append_right _ (by rw [next]; exact List.mem_singleton_self _))
        · exact (inv.pending entry before marked (slots ▸ empty)).mono waits rfl
            fun _ _ running _ _ => running

theorem mem_or_of_eraseIdx {α : Type} {xs : List α} {i : Nat} {x y : α} (found : xs[i]? = some y)
    (member : x ∈ xs) : x = y ∨ x ∈ xs.eraseIdx i := by
  obtain ⟨bound, rfl⟩ := List.getElem?_eq_some_iff.1 found
  exact List.mem_cons.1 ((List.getElem_cons_eraseIdx_perm bound).mem_iff.2 member)

/-- All that a check does before it cancels. -/
theorem check_outcome (s : LiveTemplateProvider) (fetch : MaterialFetch) :
    ∃ cancels tasks, s.check fetch = { s with checking := some ⟨fetch, cancels⟩, tasks } ∧
      (tasks = s.tasks ∨ ∃ previousJobId previous,
        s.inFlight = some (previousJobId, previous) ∧ cancels = some previousJobId ∧
          tasks = Function.update s.tasks previous
            ((s.tasks previous).map fun task => { task with aborted := true })) := by
  unfold check
  split
  · rename_i previousJobId previous inFlight
    split
    · exact ⟨some previousJobId, _, rfl, .inr ⟨previousJobId, previous, inFlight, rfl, rfl⟩⟩
    · exact ⟨none, s.tasks, rfl, .inl rfl⟩
  · exact ⟨none, s.tasks, rfl, .inl rfl⟩

theorem Inv.lockMaterialFetch (inv : Inv s) {call : Nat}
    (stepped : s.step digest (.lockMaterialFetch call) = some s') : Inv s' := by
  have cacheStep := cacheStep inv.kept stepped
  simp only [step] at stepped
  split at stepped
  · rename_i fetch free found
    obtain ⟨cancels, tasks, checked, does⟩ :=
      check_outcome { s with waiting := s.waiting.eraseIdx call } fetch
    rw [checked, Option.some.injEq] at stepped
    subst stepped
    -- the aborted task is still the one that is in flight
    have same : ∀ task running, tasks task = some running →
        ∃ before, s.tasks task = some before ∧ before.fetch = running.fetch := by
      intro task running now
      rcases does with rfl | ⟨-, previous, -, -, rfl⟩
      · exact ⟨running, now, rfl⟩
      · by_cases hit : task = previous
        · subst hit
          rw [Function.update_self] at now
          obtain ⟨before, was, rfl⟩ := Option.map_eq_some_iff.1 now
          exact ⟨before, was, rfl⟩
        · rw [Function.update_of_ne hit] at now
          exact ⟨running, now, rfl⟩
    refine inv.of_cacheStep cacheStep ?_ ?_ ?_
    · intro task unused
      cases now : tasks task with
      | none => exact now
      | some running =>
          obtain ⟨before, was, -⟩ := same task running now
          exact absurd (was.symm.trans (inv.numbered task unused)) (by simp)
    · intro jobId task running inFlight now
      obtain ⟨before, was, fetch⟩ := same task running now
      rw [← fetch]
      exact inv.identified jobId task before inFlight was
    · intro entry member marked empty
      rcases inv.pending entry member marked empty with waits | ⟨check, held, -⟩ | ⟨task, runs⟩
      · rcases mem_or_of_eraseIdx found waits with own | later
        · exact .inr (.inl ⟨_, rfl, .inl own.symm⟩)
        · exact .inl later
      · rw [free] at held
        cases held
      · rcases does with rfl | ⟨previousJobId, previous, inFlight, rfl, rfl⟩
        · exact .inr (.inr ⟨task, runs⟩)
        · by_cases hit : task = previous
          · -- the entry's own task is the aborted one, and its mark is to be cancelled
            subst hit
            have jobId := inv.identified previousJobId task _ inFlight runs
            rw [← jobId]
            exact .inr (.inl ⟨_, rfl, .inr (congrArg some (inv.kept.named entry member).symm)⟩)
          · exact .inr (.inr ⟨task, (Function.update_of_ne hit ..).trans runs⟩)
  · cases stepped

theorem Inv.cancelFetch (inv : Inv s) (stepped : s.step digest .cancelFetch = some s') :
    Inv s' := by
  have cacheStep := cacheStep inv.kept stepped
  simp only [step] at stepped
  split at stepped
  · rename_i fetch previousJobId checking
    cases stepped
    refine inv.of_cacheStep cacheStep inv.numbered inv.identified fun entry member marked empty => ?_
    have other : entry ∈ s.cache.entries.rows ∧ entry.jobId ≠ previousJobId ∧
        s.cache.slots entry.slot = none := by
      revert member empty
      rcases cancelFetch_cases s.cache previousJobId with ⟨same, absent⟩ | ⟨known, found, same⟩
      · rw [same]
        exact fun member empty => ⟨member, Table.find?_eq_none_iff.1 absent entry member, empty⟩
      · rw [same]
        intro member empty
        rcases mem_marked.1 member with rfl | ⟨before, named⟩
        · cases marked
        · have known_ : known.jobId = previousJobId := Table.key_of_find? found
          exact ⟨before, known_ ▸ named, empty⟩
    obtain ⟨before, named, empty⟩ := other
    rcases inv.pending entry before marked empty with waits | ⟨check, held, does⟩ | ⟨task, runs⟩
    · exact .inl waits
    · rw [checking, Option.some.injEq] at held
      subst held
      rcases does with own | cancels
      · exact .inr (.inl ⟨_, rfl, .inl own⟩)
      · exact absurd (Option.some.inj cancels).symm named
    · exact .inr (.inr ⟨task, runs⟩)
  · cases stepped

theorem Inv.spawn (inv : Inv s) (stepped : s.step digest .spawn = some s') : Inv s' := by
  have cacheStep := cacheStep inv.kept stepped
  simp only [step] at stepped
  split at stepped
  · rename_i fetch checking
    cases stepped
    refine inv.of_cacheStep cacheStep ?_ ?_ ?_
    · intro task unused
      have later : task ≠ s.spawned := (Nat.lt_of_succ_le unused).ne'
      exact (Function.update_of_ne later ..).trans (inv.numbered task (Nat.le_of_succ_le unused))
    · intro jobId task running inFlight now
      cases inFlight
      cases (Function.update_self ..).symm.trans now
      rfl
    · intro entry member marked empty
      rcases inv.pending entry member marked empty with waits | ⟨check, held, does⟩ | ⟨task, runs⟩
      · exact .inl waits
      · rw [checking, Option.some.injEq] at held
        subst held
        rcases does with own | cancels
        · exact .inr (.inr ⟨s.spawned, (Function.update_self ..).trans (by rw [← own])⟩)
        · cases cancels
      · have older : task ≠ s.spawned := by
          rintro rfl
          exact absurd (runs.symm.trans (inv.numbered _ le_rfl)) (by simp)
        exact .inr (.inr ⟨task, (Function.update_of_ne older ..).trans runs⟩)
  · cases stepped

theorem tasks_of_ended {task other : Nat} {run : MaterialFetchTask}
    (now : Function.update s.tasks task none other = some run) :
    s.tasks other = some run ∧ other ≠ task := by
  by_cases hit : other = task
  · subst hit
    cases (Function.update_self ..).symm.trans now
  · exact ⟨(Function.update_of_ne hit ..).symm.trans now, hit⟩

/-- The invariant after a task ended. -/
theorem Inv.of_ended (inv : Inv s) {task : Nat}
    (cacheStep : CacheStep digest s event s'.cache) (spawned : s'.spawned = s.spawned)
    (inFlight : s'.inFlight = s.inFlight) (tasks : s'.tasks = Function.update s.tasks task none)
    (pending : ∀ entry ∈ s'.cache.entries.rows, entry.fetchStarted = true →
      s'.cache.slots entry.slot = none → s'.Pending entry) : Inv s' := by
  refine inv.of_cacheStep cacheStep ?_ ?_ pending
  · intro other unused
    rw [spawned] at unused
    cases now : s'.tasks other with
    | none => rfl
    | some run =>
        rw [tasks] at now
        exact absurd ((tasks_of_ended now).1.symm.trans (inv.numbered other unused)) (by simp)
  · intro jobId other run held now
    rw [inFlight] at held
    rw [tasks] at now
    exact inv.identified jobId other run held (tasks_of_ended now).1

/-- A slot that is empty after a completion was empty before it. -/
theorem slots_of_filled {slots : Nat → Option CandidateTemplateMaterial}
    {material : Option CandidateTemplateMaterial} {own slot : Nat}
    (empty : (material.elim slots fun material =>
      Function.update slots own (some material)) slot = none) : slots slot = none := by
  cases material with
  | none => exact empty
  | some material =>
      by_cases hit : slot = own
      · subst hit
        cases (Function.update_self ..).symm.trans empty
      · exact (Function.update_of_ne hit ..).symm.trans empty

theorem Inv.finishFetch (inv : Inv s) {task : Nat} {response : Option StatelessNodeMiningTemplate}
    (stepped : s.step digest (.finishFetch task response) = some s') : Inv s' := by
  have cacheStep := cacheStep inv.kept stepped
  obtain ⟨ended, running, rfl⟩ := Option.map_eq_some_iff.1 stepped
  refine inv.of_ended cacheStep rfl rfl rfl fun entry member marked empty => ?_
  -- an entry that is still marked is not the one that the completion was for
  have other : entry ∈ s.cache.entries.rows ∧ entry.fetch ≠ ended.fetch ∧
      s.cache.slots entry.slot = none := by
    revert member empty
    show entry ∈ (s.cache.finishFetch _ _ _).entries.rows →
      (s.cache.finishFetch _ _ _).slots entry.slot = none → _
    rcases finishFetch_cases s.cache ended.fetch.template ended.fetch.slot
        (fetchedMaterial digest ended.fetch.template response) with
      ⟨same, foreign⟩ | ⟨known, found, template, slot, same⟩
    · rw [same]
      intro member empty
      refine ⟨member, fun own => ?_, empty⟩
      have template : entry.template = ended.fetch.template :=
        congrArg MaterialFetch.template own
      have found : s.cache.entries.find? ended.fetch.template.jobId = some entry :=
        Table.find?_eq_some_iff.2 ⟨member, template ▸ inv.kept.named entry member⟩
      rcases foreign entry found with differs | differs
      · exact differs template
      · exact differs (congrArg MaterialFetch.slot own)
    · rw [same]
      intro member empty
      rcases mem_marked.1 member with rfl | ⟨before, named⟩
      · cases marked
      · have apart : entry.slot ≠ known.slot := fun same => named (congrArg _
          (inv.kept.apart entry before known (Table.mem_of_find? found) same))
        refine ⟨before, fun own => apart ?_, ?_⟩
        · rw [slot]
          exact congrArg MaterialFetch.slot own
        · exact slots_of_filled empty
  obtain ⟨before, foreign, empty⟩ := other
  refine (inv.pending entry before marked empty).mono (fun _ waits => waits) rfl ?_
  intro other run runs _ fetch
  have apart : other ≠ task := by
    rintro rfl
    rw [running, Option.some.injEq] at runs
    exact foreign (runs ▸ fetch.symm)
  exact (Function.update_of_ne apart ..).trans runs

theorem Inv.dropAborted (inv : Inv s) {task : Nat}
    (stepped : s.step digest (.dropAborted task) = some s') : Inv s' := by
  have cacheStep := cacheStep inv.kept stepped
  simp only [step] at stepped
  split at stepped
  · rename_i fetch running
    cases stepped
    refine inv.of_ended cacheStep rfl rfl rfl fun entry member marked empty => ?_
    refine (inv.pending entry member marked empty).mono (fun _ waits => waits) rfl ?_
    intro other run runs unaborted _
    have apart : other ≠ task := by
      rintro rfl
      rw [running, Option.some.injEq] at runs
      subst runs
      cases unaborted
    exact (Function.update_of_ne apart ..).trans runs
  · cases stepped

theorem Inv.step (inv : Inv s) (stepped : s.step digest event = some s') : Inv s' := by
  cases event with
  | currentJob template => exact inv.currentJob stepped
  | lockMaterialFetch call => exact inv.lockMaterialFetch stepped
  | cancelFetch => exact inv.cancelFetch stepped
  | spawn => exact inv.spawn stepped
  | finishFetch task response => exact inv.finishFetch stepped
  | dropAborted task => exact inv.dropAborted stepped

theorem inv_of_reachable (reached : (machine digest).Reachable s) : Inv s :=
  reached.invariant (fun _ initial => initial ▸ Inv.init) fun _ _ _ _ inv _ stepped =>
    inv.step stepped

/-! ## What a slot holds -/

theorem fetchedMaterial_eq_some {template : NodeMiningTemplate}
    {response : Option StatelessNodeMiningTemplate} {material : CandidateTemplateMaterial}
    (fetched : fetchedMaterial digest template response = some material) :
    ∃ fullTemplate, response = some fullTemplate ∧
      fullTemplate.intoParts digest = .ok (template, material) := by
  unfold fetchedMaterial at fetched
  split at fetched
  · rename_i fullTemplate
    split at fetched
    · rename_i fullBase found parts
      split at fetched
      · rename_i same
        rw [Option.some.injEq] at fetched
        exact ⟨fullTemplate, rfl, by rw [parts, same, fetched]⟩
      · cases fetched
    · cases fetched
  · cases fetched

/-- What is in a cached slot was there before, or the task of this very entry fetched it. -/
theorem CacheStep.filled {cache' : TemplateMaterialCache} (kept : s.cache.Kept)
    (cacheStep : CacheStep digest s event cache') {entry : TemplateMaterialCacheEntry}
    (member : entry ∈ cache'.entries.rows) {material : CandidateTemplateMaterial}
    (holds : cache'.slots entry.slot = some material) :
    (∃ before ∈ s.cache.entries.rows, before.fetch = entry.fetch ∧
      s.cache.slots before.slot = some material) ∨
      ∃ task fullTemplate ended, event = .finishFetch task (some fullTemplate) ∧
        s.tasks task = some ended ∧ ended.fetch = entry.fetch ∧
        fullTemplate.intoParts digest = .ok (entry.template, material) := by
  cases cacheStep with
  | same => exact .inl ⟨entry, member, rfl, holds⟩
  | slotFor converts outcome =>
      cases outcome with
      | again found same =>
          rcases mem_marked.1 member with rfl | ⟨before, -⟩
          · exact .inl ⟨_, Table.mem_of_find? found, rfl, holds⟩
          · exact .inl ⟨entry, before, rfl, holds⟩
      | inserted next inserted =>
          rcases inserted.stays entry member with rfl | ⟨before, -, slots⟩
          · exact absurd (inserted.fresh.symm.trans holds) (by simp)
          · exact .inl ⟨entry, before, rfl, slots.symm.trans holds⟩
  | cancel found =>
      rcases mem_marked.1 member with rfl | ⟨before, -⟩
      · exact .inl ⟨_, Table.mem_of_find? found, rfl, holds⟩
      · exact .inl ⟨entry, before, rfl, holds⟩
  | @finish task response known ended running found own =>
      have known_ := Table.mem_of_find? found
      cases fetched : fetchedMaterial digest known.template response with
      | none =>
          rw [fetched] at member holds
          rcases mem_marked.1 member with rfl | ⟨before, -⟩
          · exact .inl ⟨known, known_, rfl, holds⟩
          · exact .inl ⟨entry, before, rfl, holds⟩
      | some fresh =>
          rw [fetched] at member holds
          rcases mem_marked.1 member with rfl | ⟨before, named⟩
          · obtain ⟨fullTemplate, rfl, parts⟩ := fetchedMaterial_eq_some fetched
            have same : fresh = material := by
              have now : Function.update s.cache.slots known.slot (some fresh) known.slot =
                some material := holds
              rwa [Function.update_self, Option.some.injEq] at now
            exact .inr ⟨task, fullTemplate, ended, rfl, running, own.symm, same ▸ parts⟩
          · have apart : entry.slot ≠ known.slot := fun same =>
              named (congrArg _ (kept.apart entry before known known_ same))
            exact .inl ⟨entry, before, rfl, (Function.update_of_ne apart ..).symm.trans holds⟩

/-- The answers that came for a template, with the template they were asked for. -/
abbrev FetchLog := List (NodeMiningTemplate × StatelessNodeMiningTemplate)

def recordFetched (log : FetchLog) (s : LiveTemplateProvider) : ProviderEvent → FetchLog
  | .finishFetch task (some fullTemplate) =>
      (s.tasks task).elim log fun ended => (ended.fetch.template, fullTemplate) :: log
  | _ => log

theorem mem_recordFetched {log : FetchLog} {answer : NodeMiningTemplate × StatelessNodeMiningTemplate}
    (s : LiveTemplateProvider) (event : ProviderEvent) (member : answer ∈ log) :
    answer ∈ recordFetched log s event := by
  unfold recordFetched
  split
  · cases s.tasks _ with
    | none => exact member
    | some ended => exact List.mem_cons_of_mem _ member
  · exact member

/-- Each cached slot holds what was fetched for its entry's template. -/
def Fetched (digest : Digest) (cache : TemplateMaterialCache) (log : FetchLog) : Prop :=
  ∀ entry ∈ cache.entries.rows, ∀ material, cache.slots entry.slot = some material →
    ∃ fullTemplate, (entry.template, fullTemplate) ∈ log ∧
      fullTemplate.intoParts digest = .ok (entry.template, material)

theorem fetched_of_reachable {log : FetchLog}
    (reached : ((machine digest).recording [] recordFetched).Reachable (s, log)) :
    Fetched digest s.cache log := by
  refine reached.invariant (I := fun p => Fetched digest p.1.cache p.2) ?_ ?_
  · rintro ⟨s, log⟩ ⟨initial, -⟩ entry member
    have initial : s = newStateless := initial
    subst initial
    cases member
  · rintro ⟨s, log⟩ event ⟨s', log'⟩ before fetched - stepped entry member material holds
    obtain ⟨moved, logged⟩ := Machine.recording_step stepped
    have moved : s.step digest event = some s' := moved
    have logged : log' = recordFetched log s event := logged
    have kept := (inv_of_reachable before.forget).kept
    rcases (cacheStep kept moved).filled kept member holds with
      ⟨old, inRows, same, held⟩ | ⟨task, fullTemplate, ended, rfl, running, own, parts⟩
    · have template : old.template = entry.template := congrArg MaterialFetch.template same
      obtain ⟨fullTemplate, answered, parts⟩ := fetched old inRows material held
      rw [template] at answered parts
      exact ⟨fullTemplate, logged ▸ mem_recordFetched s event answered, parts⟩
    · have template : ended.fetch.template = entry.template :=
        congrArg MaterialFetch.template own
      refine ⟨fullTemplate, ?_, parts⟩
      rw [logged, recordFetched, running, ← template]
      exact List.mem_cons_self

/-! ## A lost fetch is made up for -/

/-- The entry under the job id, if there is one, is not marked as started. -/
def NotStarted (cache : TemplateMaterialCache) (jobId : String) : Prop :=
  ∀ entry ∈ cache.entries.rows, entry.jobId = jobId → entry.fetchStarted = false

/-- A call of `current_job` whose template has the job id. -/
def AsksFor (jobId : String) : ProviderEvent → Prop
  | .currentJob template => template.jobId = jobId
  | _ => False

/-- The step ends the fetch of a job's entry without material: its task comes back with nothing, or
the check that aborted the task cancels the mark. -/
inductive Loses (digest : Digest) (s : LiveTemplateProvider) (jobId : String) :
    ProviderEvent → Prop
  | failed {task : Nat} {response : Option StatelessNodeMiningTemplate}
      {ended : MaterialFetchTask} {entry : TemplateMaterialCacheEntry}
      (running : s.tasks task = some ended)
      (nothing : fetchedMaterial digest ended.fetch.template response = none)
      (member : entry ∈ s.cache.entries.rows) (own : entry.fetch = ended.fetch)
      (named : entry.jobId = jobId) : Loses digest s jobId (.finishFetch task response)
  | cancelled {check : InFlightCheck} (checking : s.checking = some check)
      (cancels : check.cancels = some jobId) : Loses digest s jobId .cancelFetch

theorem notStarted_marked {cache : TemplateMaterialCache} {entry : TemplateMaterialCacheEntry}
    {jobId : String} {slots : Nat → Option CandidateTemplateMaterial}
    (others : ∀ other ∈ cache.entries.rows, other.jobId ≠ entry.jobId → other.jobId = jobId →
      other.fetchStarted = false) : NotStarted (cache.marked entry false slots) jobId := by
  intro other member named
  rcases mem_marked.1 member with rfl | ⟨before, apart⟩
  · rfl
  · exact others other before apart named

theorem Inv.notStarted_of_loses (inv : Inv s) {jobId : String} (loses : Loses digest s jobId event)
    (stepped : s.step digest event = some s') : NotStarted s'.cache jobId := by
  cases loses with
  | @failed task response ended entry running nothing member own named =>
      obtain ⟨ended', running', rfl⟩ := Option.map_eq_some_iff.1 stepped
      rw [running, Option.some.injEq] at running'
      subst running'
      show NotStarted (s.cache.finishFetch _ _ _) jobId
      have template : entry.template = ended.fetch.template := congrArg MaterialFetch.template own
      have known : s.cache.entries.find? ended.fetch.template.jobId = some entry :=
        Table.find?_eq_some_iff.2 ⟨member, template ▸ inv.kept.named entry member⟩
      rcases finishFetch_cases s.cache ended.fetch.template ended.fetch.slot
          (fetchedMaterial digest ended.fetch.template response) with
        ⟨-, foreign⟩ | ⟨found, found_, -, -, same⟩
      · rcases foreign entry known with differs | differs
        · exact absurd template differs
        · exact absurd (congrArg MaterialFetch.slot own) differs
      · rw [known, Option.some.injEq] at found_
        subst found_
        rw [same]
        exact notStarted_marked fun other _ apart same => absurd (same.trans named.symm) apart
  | @cancelled check checking cancels =>
      obtain ⟨fetch, cancels'⟩ := check
      have cancels : cancels' = some jobId := cancels
      subst cancels
      simp only [LiveTemplateProvider.step, checking, Option.some.injEq] at stepped
      subst stepped
      show NotStarted (s.cache.cancelFetch jobId) jobId
      rcases cancelFetch_cases s.cache jobId with ⟨same, absent⟩ | ⟨known, found, same⟩
      · rw [same]
        exact fun entry member named =>
          absurd named (Table.find?_eq_none_iff.1 absent entry member)
      · rw [same]
        have named : known.jobId = jobId := Table.key_of_find? found
        exact notStarted_marked fun other _ apart same => absurd (same.trans named.symm) apart

/-- Only a call for the job id sets the mark. -/
theorem CacheStep.notStarted {cache' : TemplateMaterialCache} {jobId : String}
    (cacheStep : CacheStep digest s event cache') (unasked : ¬ AsksFor jobId event)
    (notStarted : NotStarted s.cache jobId) : NotStarted cache' jobId := by
  cases cacheStep with
  | same => exact notStarted
  | @slotFor template job converts result outcome =>
      have other : template.jobId ≠ jobId := unasked
      cases outcome with
      | again found same =>
          intro entry member named
          rcases mem_marked.1 member with rfl | ⟨before, -⟩
          · exact absurd ((Table.key_of_find? found).symm.trans named) other
          · exact notStarted entry before named
      | inserted next inserted =>
          intro entry member named
          rcases inserted.stays entry member with rfl | ⟨before, -, -⟩
          · exact absurd named other
          · exact notStarted entry before named
  | cancel found =>
      exact notStarted_marked fun other member _ named => notStarted other member named
  | finish running found own =>
      exact notStarted_marked fun other member _ named => notStarted other member named

/-- A call for an entry that is not marked and has no material is to fetch. -/
theorem Inv.currentJob_fetches (inv : Inv s) {entry : TemplateMaterialCacheEntry}
    (member : entry ∈ s.cache.entries.rows) (idle : entry.fetchStarted = false)
    (empty : s.cache.slots entry.slot = none) :
    ∃ s', s.step digest (.currentJob entry.template) = some s' ∧
      s'.waiting = s.waiting ++ [entry.fetch] := by
  obtain ⟨job, converts⟩ := inv.converts entry member
  have found : s.cache.entries.find? entry.template.jobId = some entry :=
    Table.find?_eq_some_iff.2 ⟨member, inv.kept.named entry member⟩
  simp only [LiveTemplateProvider.step, converts, slotFor, found, if_pos, idle, empty]
  exact ⟨_, rfl, rfl⟩

theorem future_next {digest : Digest} {t u : LiveTemplateProvider}
    (reached : ((machine digest).startingAt s).Reachable t)
    (stepped : t.step digest event = some u) : ((machine digest).startingAt s).Reachable u :=
  have stepped : ((machine digest).startingAt s).step t event = some u := stepped
  .next reached trivial stepped

/-- The call that has the lock comes to its spawn. -/
theorem spawns_of_checking {check : InFlightCheck} (checking : s.checking = some check) :
    ∃ u task, ((machine digest).startingAt s).Reachable u ∧ u.checking = none ∧
      u.waiting = s.waiting ∧ u.tasks task = some ⟨check.fetch, false⟩ := by
  have start : ((machine digest).startingAt s).Reachable s := .start rfl
  have spawned : ∀ t : LiveTemplateProvider, ((machine digest).startingAt s).Reachable t →
      t.checking = some ⟨check.fetch, none⟩ → t.waiting = s.waiting →
      ∃ u task, ((machine digest).startingAt s).Reachable u ∧ u.checking = none ∧
        u.waiting = s.waiting ∧ u.tasks task = some ⟨check.fetch, false⟩ := by
    intro t reached held waiting
    have stepped : t.step digest .spawn = some { t with
        checking := none
        tasks := Function.update t.tasks t.spawned (some ⟨check.fetch, false⟩)
        spawned := t.spawned + 1
        inFlight := some (check.fetch.template.jobId, t.spawned) } := by
      simp only [LiveTemplateProvider.step, held]
    exact ⟨_, t.spawned, future_next reached stepped, rfl, waiting, Function.update_self ..⟩
  obtain ⟨fetch, cancels⟩ := check
  cases cancels with
  | none => exact spawned s start checking rfl
  | some previousJobId =>
      have stepped : s.step digest .cancelFetch = some { s with
          cache := s.cache.cancelFetch previousJobId
          checking := some ⟨fetch, none⟩ } := by
        simp only [LiveTemplateProvider.step, checking]
      exact spawned _ (future_next start stepped) rfl rfl

/-- A call that is to fetch comes to its spawn, whoever has the lock now. -/
theorem spawns_of_waiting {fetch : MaterialFetch} (waits : fetch ∈ s.waiting) :
    ∃ u task, ((machine digest).startingAt s).Reachable u ∧
      u.tasks task = some ⟨fetch, false⟩ := by
  have free : ∃ t, ((machine digest).startingAt s).Reachable t ∧ t.checking = none ∧
      t.waiting = s.waiting := by
    cases checking : s.checking with
    | none => exact ⟨s, .start rfl, checking, rfl⟩
    | some check =>
        obtain ⟨t, -, reached, free, waiting, -⟩ := spawns_of_checking checking
        exact ⟨t, reached, free, waiting⟩
  obtain ⟨t, reached, free, waiting⟩ := free
  obtain ⟨call, found⟩ := List.mem_iff_getElem?.1 (waiting ▸ waits)
  obtain ⟨cancels, tasks, checked, -⟩ :=
    check_outcome { t with waiting := t.waiting.eraseIdx call } fetch
  have locked : t.step digest (.lockMaterialFetch call) =
      some ({ t with waiting := t.waiting.eraseIdx call }.check fetch) := by
    simp only [LiveTemplateProvider.step, free, found]
  have checking : ({ t with waiting := t.waiting.eraseIdx call }.check fetch).checking =
      some ⟨fetch, cancels⟩ := by
    rw [checked]
  obtain ⟨u, task, later, -, -, runs⟩ := spawns_of_checking checking
  have reached := future_next reached locked
  exact ⟨u, task, reached.trans later, runs⟩

/-! ## The cache under every interleaving -/

/-- What every step keeps next to the invariant holds in every future. -/
theorem Inv.future (inv : Inv s) {I : LiveTemplateProvider → Prop}
    {allow : LiveTemplateProvider → ProviderEvent → Prop} (start : I s)
    (keep : ∀ t event t', Inv t → I t → allow t event →
      CacheStep digest t event t'.cache → I t')
    {t : LiveTemplateProvider} (later : ((machine digest).startingAt s).Reaches allow t) :
    Inv t ∧ I t := by
  refine later.invariant (I := fun t => Inv t ∧ I t) ?_ ?_
  · rintro t rfl
    exact ⟨inv, start⟩
  · intro t event t' _ before allowed stepped
    have moved : t.step digest event = some t' := stepped
    exact ⟨before.1.step moved, keep t event t' before.1 before.2 allowed
      (cacheStep before.1.kept moved)⟩

/-- The cache is bounded and its queue lists its keys; the slot of an entry that left is empty for
good; what a slot holds was fetched for its entry's template; and a fetch that came back with
nothing, or that was aborted and cancelled, is started again by the next call for the entry. -/
theorem template_material_cache (digest : Digest) {s : LiveTemplateProvider} {log : FetchLog}
    (reached : ((machine digest).recording [] recordFetched).Reachable (s, log)) :
    (s.cache.entries.rows.length ≤ maxStatelessTemplateCacheEntries ∧ s.cache.order.Nodup ∧
      ∀ jobId, jobId ∈ s.cache.order ↔ s.cache.entries.find? jobId ≠ none) ∧
    (∀ entry ∈ s.cache.entries.rows, ∀ t, ((machine digest).startingAt s).Reachable t →
      (∀ other ∈ t.cache.entries.rows, other.slot ≠ entry.slot) →
      ∀ u, ((machine digest).startingAt t).Reachable u →
        u.cache.slots entry.slot = none ∧
          ∀ other ∈ u.cache.entries.rows, other.slot ≠ entry.slot) ∧
    Fetched digest s.cache log ∧
    (∀ jobId event s', s.step digest event = some s' → Loses digest s jobId event →
      ∀ t, ((machine digest).startingAt s').Reaches (fun _ event => ¬ AsksFor jobId event) t →
      ∀ entry ∈ t.cache.entries.rows, entry.jobId = jobId → t.cache.slots entry.slot = none →
      ∃ t', t.step digest (.currentJob entry.template) = some t' ∧
        t'.waiting = t.waiting ++ [entry.fetch] ∧
        ∃ u task, ((machine digest).startingAt t').Reachable u ∧
          u.tasks task = some ⟨entry.fetch, false⟩) ∧
    ∀ entry ∈ s.cache.entries.rows, entry.fetchStarted = true →
      s.cache.slots entry.slot = none → s.Pending entry := by
  have inv := inv_of_reachable reached.forget
  refine ⟨⟨inv.bounded, inv.kept.order_nodup, fun jobId => ?_⟩, ?_, fetched_of_reachable reached,
    ?_, inv.pending⟩
  · rw [inv.kept.listed.mem_iff]
    exact Table.mem_map_key_iff
  · intro entry member t later gone u latest
    obtain ⟨invT, given⟩ := inv.future
      (I := fun t => entry.slot < t.cache.allocated) (inv.kept.given entry member)
      (fun t event t' _ below _ cacheStep => below.trans_le cacheStep.allocated_le) later
    have retired : Retired t.cache entry.slot := ⟨given, gone⟩
    obtain ⟨invU, retired⟩ := invT.future
      (I := fun u => Retired u.cache entry.slot) retired
      (fun u event u' _ retired _ cacheStep => cacheStep.retired retired) latest
    exact ⟨invU.kept.retired _ retired.2, retired.2⟩
  · intro jobId event s' stepped loses t later entry member named empty
    obtain ⟨invT, notStarted⟩ := (inv.step stepped).future
      (I := fun t => NotStarted t.cache jobId) (inv.notStarted_of_loses loses stepped)
      (fun t event t' _ notStarted unasked cacheStep => cacheStep.notStarted unasked notStarted)
      later
    obtain ⟨t', called, waiting⟩ := invT.currentJob_fetches member
      (notStarted entry member named) empty
    have waits : entry.fetch ∈ t'.waiting := by
      rw [waiting]
      exact List.mem_append_right _ (List.mem_singleton_self _)
    exact ⟨t', called, waiting, spawns_of_waiting waits⟩

/-! ## Runs -/

def sampleTemplate (jobId : String) : NodeMiningTemplate where
  jobId := jobId
  prevHashBeHex := hexEncode (List.replicate 32 0x00)
  coinb1Hex := "aa"
  coinb2Hex := "bb"
  merkleBranchesHex := []
  versionHex := "20000000"
  nbitsHex := "207fffff"
  ntimeHex := "665544cc"
  cleanJobs := true
  shareTargetHex := hexEncode (List.replicate 32 0xff)
  networkTargetHex := hexEncode (List.replicate 32 0x00)

def sampleFetch (jobId : String) (slot : Nat) : MaterialFetch := ⟨sampleTemplate jobId, slot⟩

/-- The node's answer for job `a`: one block byte with its digest. -/
def sampleAnswer : StatelessNodeMiningTemplate where
  template := sampleTemplate "a"
  blockTemplateHex := "61"
  blockTemplateSha256Hex := "ca978112ca1bbdcafac231b39a23dc4da786eff8147c4e72b9807785afee48bb"
  blockTemplateBytes := 1

/-- Job `a` has its material and job `b` is being fetched: another template under `a` takes the
place of the first, and an answer with nothing for `b` is followed by another fetch for it. -/
theorem template_material_cache_sample : ∃ s log,
    ((machine Sha256.digest).recording [] recordFetched).Reachable (s, log) ∧
    s.cache.order = ["a", "b"] ∧ s.cache.order.Nodup ∧
    (∃ material, s.cache.slots 0 = some material ∧
      ∃ fullTemplate, (sampleTemplate "a", fullTemplate) ∈ log ∧
        fullTemplate.intoParts Sha256.digest = .ok (sampleTemplate "a", material)) ∧
    (∃ t, ((machine Sha256.digest).startingAt s).Reachable t ∧
      ∀ u, ((machine Sha256.digest).startingAt t).Reachable u → u.cache.slots 0 = none) ∧
    (∃ s' t', s.step Sha256.digest (.finishFetch 1 none) = some s' ∧
      s'.step Sha256.digest (.currentJob (sampleTemplate "b")) = some t' ∧
      t'.waiting = s'.waiting ++ [sampleFetch "b" 1]) ∧
    s.Pending ⟨"b", sampleTemplate "b", 1, true⟩ := by
  obtain ⟨⟨s, log⟩, reached, shape⟩ := Machine.exists_of_run
    ((machine Sha256.digest).recording [] recordFetched) (s := (newStateless, [])) ⟨rfl, rfl⟩
    [.currentJob (sampleTemplate "a"), .lockMaterialFetch 0, .spawn,
      .finishFetch 0 (some sampleAnswer), .currentJob (sampleTemplate "b"), .lockMaterialFetch 0,
      .cancelFetch, .spawn]
    (fun p : LiveTemplateProvider × FetchLog => decide (p.1.cache.order = ["a", "b"] ∧
        p.1.cache.entries.find? "a" = some ⟨"a", sampleTemplate "a", 0, false⟩ ∧
        p.1.cache.entries.find? "b" = some ⟨"b", sampleTemplate "b", 1, true⟩ ∧
        p.1.cache.slots 0 ≠ none ∧ p.1.cache.slots 1 = none ∧
        p.1.tasks 1 = some ⟨sampleFetch "b" 1, false⟩) &&
      (((machine Sha256.digest).startingAt p.1).run p.1
        [.currentJob { sampleTemplate "a" with cleanJobs := false }]).any
        (fun t : LiveTemplateProvider => decide (∀ other ∈ t.cache.entries.rows, other.slot ≠ 0)) &&
      (p.1.step Sha256.digest (.finishFetch 1 none)).any fun s' : LiveTemplateProvider => decide
        (s'.cache.entries.find? "b" = some ⟨"b", sampleTemplate "b", 1, false⟩ ∧
          s'.cache.slots 1 = none))
    (by decide +kernel)
  rw [Bool.and_eq_true, Bool.and_eq_true] at shape
  obtain ⟨⟨here, evicts⟩, fails⟩ := shape
  obtain ⟨order, inA, inB, filled, empty, running⟩ := of_decide_eq_true here
  obtain ⟨t, later, gone⟩ := Machine.exists_of_run _ rfl _ _ evicts
  obtain ⟨s', stepped, after⟩ := (Option.any_eq_true _ _).1 fails
  obtain ⟨inB', empty'⟩ := of_decide_eq_true after
  have whole := template_material_cache Sha256.digest reached
  have a := Table.mem_of_find? inA
  have b := Table.mem_of_find? inB
  refine ⟨s, log, reached, order, whole.1.2.1, ?_, ⟨t, later, fun u latest => ?_⟩, ?_,
    whole.2.2.2.2 _ b rfl empty⟩
  · obtain ⟨material, holds⟩ := Option.ne_none_iff_exists'.1 filled
    exact ⟨material, holds, whole.2.2.1 _ a material holds⟩
  · exact (whole.2.1 _ a t later (of_decide_eq_true gone) u latest).1
  · obtain ⟨t', called, waiting, -⟩ := whole.2.2.2.1 "b" _ s' stepped
      (.failed running rfl b rfl rfl) s' (.start rfl) _ (Table.mem_of_find? inB') rfl empty'
    exact ⟨s', t', stepped, called, waiting⟩

/-- Job `b` aborts the fetch of job `a`, and the runtime drops the task before the mark is
cancelled: a call for `a` in between does not fetch. -/
theorem abort_hides_entry :
    ¬ ∀ s call s' task fetch, (machine Sha256.digest).Reachable s →
      s.step Sha256.digest (.lockMaterialFetch call) = some s' →
      s.tasks task = some ⟨fetch, false⟩ → s'.tasks task = some ⟨fetch, true⟩ →
      ∀ t, ((machine Sha256.digest).startingAt s').Reaches
          (fun _ event => ¬ AsksFor fetch.template.jobId event) t →
        t.tasks task = none →
      ∀ entry ∈ t.cache.entries.rows, entry.fetch = fetch → t.cache.slots entry.slot = none →
      ∀ t', t.step Sha256.digest (.currentJob entry.template) = some t' →
        entry.fetch ∈ t'.waiting := by
  intro claim
  obtain ⟨s, reached, shape⟩ := Machine.exists_of_run (machine Sha256.digest)
    (s := newStateless) rfl
    [.currentJob (sampleTemplate "a"), .lockMaterialFetch 0, .spawn,
      .currentJob (sampleTemplate "b")]
    (fun s : LiveTemplateProvider => decide (s.tasks 0 = some ⟨sampleFetch "a" 0, false⟩) &&
      (s.step Sha256.digest (.lockMaterialFetch 0)).any fun s' : LiveTemplateProvider =>
        decide (s'.tasks 0 = some ⟨sampleFetch "a" 0, true⟩) &&
        (s'.step Sha256.digest (.dropAborted 0)).any fun t : LiveTemplateProvider => decide
            (t.tasks 0 = none ∧ t.cache.slots 0 = none ∧
              t.cache.entries.find? "a" = some ⟨"a", sampleTemplate "a", 0, true⟩) &&
          (t.step Sha256.digest (.currentJob (sampleTemplate "a"))).any fun t' : LiveTemplateProvider =>
            decide (sampleFetch "a" 0 ∉ t'.waiting))
    (by decide +kernel)
  simp only [Bool.and_eq_true, decide_eq_true_eq, Option.any_eq_true] at shape
  obtain ⟨running, s', locked, aborted, t, dropped, ⟨gone, empty, found⟩, t', called, missed⟩ :=
    shape
  have later : ((machine Sha256.digest).startingAt s').Reaches
      (fun _ event => ¬ AsksFor "a" event) t := by
    have moved : ((machine Sha256.digest).startingAt s').step s' (.dropAborted 0) = some t :=
      dropped
    exact .next (.start rfl) id moved
  exact missed (claim s 0 s' 0 _ reached locked running aborted t later gone _
    (Table.mem_of_find? found) rfl empty t' called)

end LiveTemplateProvider

end CsdPool.Bridge
