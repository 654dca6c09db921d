/-
# Bridge.MaterialCache — templates, their material, and the cache of slots

A stateless node answers with a template without its block bytes; the bytes, the material, are
fetched after the job went out and land in the job's slot, which the job shares with the cache.
The cache keeps one entry for each job id, in the order of their arrival, and lets the oldest go
when there are more than `maxStatelessTemplateCacheEntries`.  A slot is a number; the one an entry
loses is emptied, and the numbers are not given out twice.

`Kept` is what every operation keeps.  `slotFor_outcome` says all that `slotFor` can do: an equal
template is marked as started, any other one comes in under a new slot, and the entries that stay
keep their slots with what is in them.
-/
import CsdPool.Bridge.Submit
import Mathlib.Data.List.Perm.Basic
import Mathlib.Logic.Function.Basic

namespace CsdPool.Bridge

open Theory

set_option autoImplicit false

def maxCsdBlockBytes : Nat := 2 * 1024 * 1024
def maxCsdBlockTemplateHexLen : Nat := maxCsdBlockBytes * 2
def maxStatelessTemplateCacheEntries : Nat := 8

/-! ## Templates -/

/-- A template as the node sends it, all texts but the flag. -/
structure NodeMiningTemplate where
  jobId : String
  prevHashBeHex : String
  coinb1Hex : String
  coinb2Hex : String
  merkleBranchesHex : List String
  versionHex : String
  nbitsHex : String
  ntimeHex : String
  cleanJobs : Bool
  shareTargetHex : String
  networkTargetHex : String
  deriving DecidableEq, Repr

/-- The job of a template: the two targets, and then the fields of its notify. -/
def NodeMiningTemplate.intoPoolJob (template : NodeMiningTemplate) : Except NodeError PoolJob := do
  let shareTarget ←
    NodeError.ofConsensus (decodeHash32Hex "share_target_hex" template.shareTargetHex)
  let networkTarget ←
    NodeError.ofConsensus (decodeHash32Hex "network_target_hex" template.networkTargetHex)
  jobFromNotify
    { jobId := template.jobId
      prevHashBeHex := template.prevHashBeHex
      coinb1Hex := template.coinb1Hex
      coinb2Hex := template.coinb2Hex
      merkleBranchesHex := template.merkleBranchesHex
      versionHex := template.versionHex
      nbitsHex := template.nbitsHex
      ntimeHex := template.ntimeHex
      cleanJobs := template.cleanJobs } shareTarget networkTarget

/-- A template with its block: the bytes in hex, their digest and their number. -/
structure StatelessNodeMiningTemplate where
  template : NodeMiningTemplate
  blockTemplateHex : String
  blockTemplateSha256Hex : String
  blockTemplateBytes : Nat
  deriving DecidableEq, Repr

open NodeError in
/-- The material of an answer. All three fields or none must be there; the bytes must fit the limit,
be as many as announced and have the digest announced. -/
def candidateTemplateMaterial (digest : Digest) (blockTemplateHex expectedSha256 : Option String)
    (expectedBytes : Option Nat) : Except NodeError (Option CandidateTemplateMaterial) :=
  match blockTemplateHex, expectedSha256, expectedBytes with
  | some blockTemplateHex, some expectedSha256, some expectedBytes =>
      if maxCsdBlockTemplateHexLen < blockTemplateHex.utf8ByteSize
          ∨ blockTemplateHex.utf8ByteSize % 2 ≠ 0 then
        .error (.invalidResponse
          "block_template_hex exceeds the encoded block limit or has odd length")
      else if maxCsdBlockBytes < expectedBytes then
        .error (.invalidResponse "block_template_bytes exceeds the consensus block limit")
      else do
        let bytes ← ofHex "block_template_hex is invalid hex" (hexDecode blockTemplateHex)
        if bytes.length ≠ expectedBytes then
          .error (.invalidResponse "block_template_bytes does not match decoded template length")
        else
          let actualSha256 := hexEncode (digest bytes).toList
          if ¬ eqIgnoreAsciiCase actualSha256 expectedSha256 then
            .error (.invalidResponse "block_template_sha256_hex does not match template bytes")
          else
            return some
              { blockTemplateHex := toAsciiLowercase blockTemplateHex
                blockTemplateSha256Hex := actualSha256
                blockTemplateBytes := expectedBytes }
  | none, none, none => .ok none
  | _, _, _ => .error (.invalidResponse "stateless block template fields are incomplete")

/-- The template and its material, which must be there. -/
def StatelessNodeMiningTemplate.intoParts (digest : Digest)
    (response : StatelessNodeMiningTemplate) :
    Except NodeError (NodeMiningTemplate × CandidateTemplateMaterial) := do
  match ← candidateTemplateMaterial digest (some response.blockTemplateHex)
      (some response.blockTemplateSha256Hex) (some response.blockTemplateBytes) with
  | some material => return (response.template, material)
  | none => .error (.invalidResponse "stateless block template material is missing")

/-! ## The cache -/

/-- An entry of the map with the job id it is under. -/
structure TemplateMaterialCacheEntry where
  jobId : String
  template : NodeMiningTemplate
  slot : Nat
  fetchStarted : Bool
  deriving DecidableEq, Repr

instance : Keyed TemplateMaterialCacheEntry String := ⟨TemplateMaterialCacheEntry.jobId⟩

/-- The cache with the slots it made: `slots` is what is in each of them, and the numbers below
`allocated` were given out. -/
structure TemplateMaterialCache where
  entries : Table TemplateMaterialCacheEntry
  order : List String
  slots : Nat → Option CandidateTemplateMaterial
  allocated : Nat

namespace TemplateMaterialCache

def empty : TemplateMaterialCache := ⟨.empty, [], fun _ => none, 0⟩

/-- `entries.remove(job_id)`, and the slot of what was there is emptied. -/
def remove (cache : TemplateMaterialCache) (jobId : String) : TemplateMaterialCache :=
  match cache.entries.find? jobId with
  | some removed =>
      { cache with
        entries := cache.entries.erase jobId
        slots := Function.update cache.slots removed.slot none }
  | none => cache

/-- The loop that pops the oldest job ids; the list is the queue of `cache`. -/
def evictOldest : List String → TemplateMaterialCache → TemplateMaterialCache
  | [], cache => cache
  | oldest :: rest, cache =>
      if maxStatelessTemplateCacheEntries < cache.order.length then
        evictOldest rest { cache.remove oldest with order := rest }
      else cache

/-- A template that the cache does not have comes in under a new slot. -/
def insertNew (cache : TemplateMaterialCache) (template : NodeMiningTemplate) :
    TemplateMaterialCache :=
  let order := cache.order ++ [template.jobId]
  evictOldest order
    { entries := cache.entries.put ⟨template.jobId, template, cache.allocated, true⟩
      order
      slots := cache.slots
      allocated := cache.allocated + 1 }

/-- The slot of `template`, and whether its fetch is to be started. -/
def slotFor (cache : TemplateMaterialCache) (template : NodeMiningTemplate) :
    TemplateMaterialCache × Nat × Bool :=
  match cache.entries.find? template.jobId with
  | some entry =>
      if entry.template = template then
        ({ cache with entries := cache.entries.put { entry with fetchStarted := true } },
          entry.slot, !entry.fetchStarted && (cache.slots entry.slot).isNone)
      else
        let replaced :=
          { cache.remove template.jobId with order := cache.order.filter (· ≠ template.jobId) }
        (replaced.insertNew template, replaced.allocated, true)
  | none => (cache.insertNew template, cache.allocated, true)

/-- A fetch that was given up may be started again. -/
def cancelFetch (cache : TemplateMaterialCache) (jobId : String) : TemplateMaterialCache :=
  match cache.entries.find? jobId with
  | some entry => { cache with entries := cache.entries.put { entry with fetchStarted := false } }
  | none => cache

/-- What a fetch brought goes into the slot it was started for, unless the entry has another
template or another slot by now. -/
def finishFetch (cache : TemplateMaterialCache) (template : NodeMiningTemplate) (slot : Nat)
    (material : Option CandidateTemplateMaterial) : TemplateMaterialCache :=
  match cache.entries.find? template.jobId with
  | some entry =>
      if entry.template ≠ template ∨ entry.slot ≠ slot then cache
      else
        { cache with
          entries := cache.entries.put { entry with fetchStarted := false }
          slots := material.elim cache.slots fun material =>
            Function.update cache.slots entry.slot (some material) }
  | none => cache

/-! ## What the operations keep -/

variable {cache cache' : TemplateMaterialCache} {template : NodeMiningTemplate}
  {entry : TemplateMaterialCacheEntry}

/-- What every operation keeps. The queue lists the entries, each entry has a slot of its own among
those given out, and a slot that no entry has is empty. -/
structure Kept (cache : TemplateMaterialCache) : Prop where
  named : ∀ entry ∈ cache.entries.rows, entry.jobId = entry.template.jobId
  listed : cache.order.Perm (cache.entries.rows.map Keyed.key)
  given : ∀ entry ∈ cache.entries.rows, entry.slot < cache.allocated
  apart : ∀ entry ∈ cache.entries.rows, ∀ other ∈ cache.entries.rows,
    entry.slot = other.slot → entry = other
  retired : ∀ slot, (∀ entry ∈ cache.entries.rows, entry.slot ≠ slot) → cache.slots slot = none

theorem Kept.empty : Kept empty where
  named := by simp [TemplateMaterialCache.empty]
  listed := by simp [TemplateMaterialCache.empty]
  given := by simp [TemplateMaterialCache.empty]
  apart := by simp [TemplateMaterialCache.empty]
  retired _ _ := rfl

theorem Kept.order_nodup (kept : Kept cache) : cache.order.Nodup :=
  kept.listed.nodup_iff.2 cache.entries.unique

/-- The queue is as long as the cache is large, so the bound on the one is a bound on the other. -/
theorem Kept.length_order (kept : Kept cache) :
    cache.order.length = cache.entries.rows.length := by
  rw [kept.listed.length_eq, List.length_map]

/-- An unused number has nothing in it. -/
theorem Kept.slots_allocated (kept : Kept cache) : cache.slots cache.allocated = none :=
  kept.retired _ fun entry member => (kept.given entry member).ne

/-- Entries left the cache, and the others are as they were. -/
structure Trims (cache cache' : TemplateMaterialCache) : Prop where
  allocated : cache'.allocated = cache.allocated
  stays : ∀ entry ∈ cache'.entries.rows,
    entry ∈ cache.entries.rows ∧ cache'.slots entry.slot = cache.slots entry.slot

theorem Trims.refl (cache : TemplateMaterialCache) : Trims cache cache :=
  ⟨rfl, fun _ member => ⟨member, rfl⟩⟩

theorem Trims.trans {cache'' : TemplateMaterialCache} (first : Trims cache cache')
    (second : Trims cache' cache'') : Trims cache cache'' where
  allocated := second.allocated.trans first.allocated
  stays entry member := by
    obtain ⟨between, slots⟩ := second.stays entry member
    exact ⟨(first.stays entry between).1, slots.trans (first.stays entry between).2⟩

/-! ### Removing and evicting -/

theorem rows_remove (cache : TemplateMaterialCache) (jobId : String) :
    (cache.remove jobId).entries.rows = cache.entries.rows.filter fun e => e.jobId ≠ jobId := by
  unfold remove
  split
  · rfl
  · rename_i absent
    rw [eq_comm, List.filter_eq_self]
    intro e member
    exact decide_eq_true (Table.find?_eq_none_iff.1 absent e member)

/-- The entry goes, and no other. -/
theorem mem_remove {jobId : String} :
    entry ∈ (cache.remove jobId).entries.rows ↔
      entry ∈ cache.entries.rows ∧ entry.jobId ≠ jobId := by
  simp [rows_remove]

/-- A slot is emptied only for the entry that is removed. -/
theorem slots_remove_cases (cache : TemplateMaterialCache) (jobId : String) (slot : Nat) :
    (cache.remove jobId).slots slot = cache.slots slot ∨
      (cache.remove jobId).slots slot = none ∧
        ∃ removed ∈ cache.entries.rows, removed.jobId = jobId ∧ removed.slot = slot := by
  unfold remove
  split
  · rename_i removed found
    by_cases same : slot = removed.slot
    · subst same
      exact .inr ⟨Function.update_self .., removed, Table.mem_of_find? found,
        Table.key_of_find? found, rfl⟩
    · exact .inl (Function.update_of_ne same ..)
  · exact .inl rfl

theorem allocated_remove (cache : TemplateMaterialCache) (jobId : String) :
    (cache.remove jobId).allocated = cache.allocated := by
  unfold remove
  split <;> rfl

/-- The queue without one job id, and its entry with it. -/
theorem Kept.remove (kept : Kept cache) (jobId : String) {order : List String}
    (queue : order = cache.order.filter (· ≠ jobId)) :
    Kept { cache.remove jobId with order } ∧
      Trims cache { cache.remove jobId with order } := by
  have slots : ∀ e ∈ (cache.remove jobId).entries.rows,
      (cache.remove jobId).slots e.slot = cache.slots e.slot := by
    intro e member
    obtain ⟨before, other⟩ := mem_remove.1 member
    rcases slots_remove_cases cache jobId e.slot with same | ⟨-, removed, inRows, named, same⟩
    · exact same
    · rw [kept.apart removed inRows e before same] at named
      exact absurd named other
  refine ⟨⟨?_, ?_, ?_, ?_, ?_⟩, allocated_remove cache jobId, fun e member =>
    ⟨(mem_remove.1 member).1, slots e member⟩⟩
  · exact fun e member => kept.named e (mem_remove.1 member).1
  · show order.Perm ((cache.remove jobId).entries.rows.map Keyed.key)
    rw [queue, rows_remove]
    have left := kept.listed.filter (· ≠ jobId)
    rw [List.filter_map] at left
    exact left
  · intro e member
    show e.slot < (cache.remove jobId).allocated
    rw [allocated_remove]
    exact kept.given e (mem_remove.1 member).1
  · exact fun e member other otherMember =>
      kept.apart e (mem_remove.1 member).1 other (mem_remove.1 otherMember).1
  · intro slot unused
    rcases slots_remove_cases cache jobId slot with same | ⟨emptied, -⟩
    · show (cache.remove jobId).slots slot = none
      by_cases used : ∃ e ∈ cache.entries.rows, e.slot = slot
      · -- the slot was the removed entry's, so it is one of those emptied
        obtain ⟨e, member, rfl⟩ := used
        by_cases named : e.jobId = jobId
        · have found : cache.entries.find? jobId = some e :=
            Table.find?_eq_some_iff.2 ⟨member, named⟩
          simp [TemplateMaterialCache.remove, found]
        · exact absurd rfl (unused e (mem_remove.2 ⟨member, named⟩))
      · rw [same]
        exact kept.retired slot fun e member same => used ⟨e, member, same⟩
    · exact emptied

theorem evictOldest_kept {order : List String} : ∀ {cache : TemplateMaterialCache},
    Kept cache → cache.order = order →
      Kept (evictOldest order cache) ∧ Trims cache (evictOldest order cache) ∧
        (evictOldest order cache).entries.rows.length ≤ maxStatelessTemplateCacheEntries := by
  induction order with
  | nil =>
      intro cache kept queue
      refine ⟨kept, .refl cache, ?_⟩
      rw [evictOldest, ← kept.length_order, queue]
      exact Nat.zero_le _
  | cons oldest rest ih =>
      intro cache kept queue
      rw [evictOldest]
      split
      · have fresh : oldest ∉ rest ∧ rest.Nodup := List.nodup_cons.1 (queue ▸ kept.order_nodup)
        have rest_eq : rest = cache.order.filter (· ≠ oldest) := by
          rw [queue, List.filter_cons_of_neg (by simp), eq_comm, List.filter_eq_self]
          intro jobId member
          simpa using fun same : jobId = oldest => fresh.1 (same ▸ member)
        obtain ⟨removed, trims⟩ := kept.remove oldest rest_eq
        obtain ⟨evicted, trims', bounded⟩ := ih removed rfl
        exact ⟨evicted, trims.trans trims', bounded⟩
      · rename_i small
        refine ⟨kept, .refl cache, ?_⟩
        rw [← kept.length_order]
        exact Nat.le_of_not_lt small

/-! ### A new template -/

/-- A template came in under the next number; the other entries are as they were. -/
structure Inserted (cache : TemplateMaterialCache) (template : NodeMiningTemplate)
    (cache' : TemplateMaterialCache) : Prop where
  kept : Kept cache'
  bounded : cache'.entries.rows.length ≤ maxStatelessTemplateCacheEntries
  allocated : cache'.allocated = cache.allocated + 1
  fresh : cache'.slots cache.allocated = none
  stays : ∀ entry ∈ cache'.entries.rows,
    entry = ⟨template.jobId, template, cache.allocated, true⟩ ∨
      entry ∈ cache.entries.rows ∧ entry.jobId ≠ template.jobId ∧
        cache'.slots entry.slot = cache.slots entry.slot

theorem Inserted.of_trims {cache'' : TemplateMaterialCache} (trims : Trims cache cache')
    (inserted : Inserted cache' template cache'') : Inserted cache template cache'' where
  kept := inserted.kept
  bounded := inserted.bounded
  allocated := by rw [inserted.allocated, trims.allocated]
  fresh := trims.allocated ▸ inserted.fresh
  stays entry member := by
    rcases inserted.stays entry member with new | ⟨before, named, slots⟩
    · exact .inl (trims.allocated ▸ new)
    · obtain ⟨old, same⟩ := trims.stays entry before
      exact .inr ⟨old, named, slots.trans same⟩

theorem Kept.insertNew (kept : Kept cache)
    (absent : cache.entries.find? template.jobId = none) :
    Inserted cache template (cache.insertNew template) := by
  have fresh : cache.entries.find? (Keyed.key
      (⟨template.jobId, template, cache.allocated, true⟩ : TemplateMaterialCacheEntry)) = none :=
    absent
  have rows := Table.rows_put_of_fresh fresh
  generalize inserted : ({
      entries := cache.entries.put ⟨template.jobId, template, cache.allocated, true⟩
      order := cache.order ++ [template.jobId]
      slots := cache.slots
      allocated := cache.allocated + 1 } : TemplateMaterialCache) = with_
  have mem : ∀ {e}, e ∈ with_.entries.rows ↔
      e ∈ cache.entries.rows ∨ e = ⟨template.jobId, template, cache.allocated, true⟩ := by
    intro e
    rw [← inserted, rows]
    simp
  have with_kept : Kept with_ := by
    refine ⟨?_, ?_, ?_, ?_, ?_⟩
    · intro e member
      rcases mem.1 member with before | rfl
      · exact kept.named e before
      · rfl
    · rw [← inserted]
      show (cache.order ++ [template.jobId]).Perm (List.map _ _)
      rw [rows, List.map_append]
      exact kept.listed.append_right _
    · intro e member
      rw [← inserted]
      rcases mem.1 member with before | rfl
      · exact Nat.lt_succ_of_lt (kept.given e before)
      · exact Nat.lt_succ_self _
    · intro e member other otherMember same
      rcases mem.1 member with before | rfl <;> rcases mem.1 otherMember with otherBefore | rfl
      · exact kept.apart e before other otherBefore same
      · exact absurd same (kept.given e before).ne
      · exact absurd same.symm (kept.given other otherBefore).ne
      · rfl
    · intro slot unused
      rw [← inserted]
      exact kept.retired slot fun e member => unused e (mem.2 (.inl member))
  have queue : with_.order = cache.order ++ [template.jobId] := inserted ▸ rfl
  obtain ⟨evicted, trims, bounded⟩ := evictOldest_kept with_kept queue
  have result : cache.insertNew template =
      evictOldest (cache.order ++ [template.jobId]) with_ := by
    rw [← inserted]
    rfl
  rw [result]
  have slots : with_.slots = cache.slots := inserted ▸ rfl
  refine ⟨evicted, bounded, trims.allocated.trans (inserted ▸ rfl), ?_, ?_⟩
  · by_cases used : ∃ e ∈ (evictOldest (cache.order ++ [template.jobId]) with_).entries.rows,
        e.slot = cache.allocated
    · obtain ⟨e, member, same⟩ := used
      have stays := (trims.stays e member).2
      rw [same, slots, kept.slots_allocated] at stays
      exact stays
    · exact evicted.retired _ fun e member same => used ⟨e, member, same⟩
  · intro e member
    obtain ⟨before, same⟩ := trims.stays e member
    rw [slots] at same
    rcases mem.1 before with old | new
    · exact .inr ⟨old, Table.find?_eq_none_iff.1 absent e old, same⟩
    · exact .inl new

/-! ### Marking an entry -/

/-- The entry of a job id, marked, with what is in its slot. -/
def marked (cache : TemplateMaterialCache) (entry : TemplateMaterialCacheEntry)
    (fetchStarted : Bool) (slots : Nat → Option CandidateTemplateMaterial) :
    TemplateMaterialCache :=
  { cache with entries := cache.entries.put { entry with fetchStarted }, slots }

theorem mem_marked {fetchStarted : Bool} {slots : Nat → Option CandidateTemplateMaterial}
    {e : TemplateMaterialCacheEntry} :
    e ∈ (cache.marked entry fetchStarted slots).entries.rows ↔
      e = { entry with fetchStarted } ∨ e ∈ cache.entries.rows ∧ e.jobId ≠ entry.jobId :=
  Table.mem_put

/-- An entry's mark changes, and what is in its slot may. -/
theorem Kept.mark (kept : Kept cache) {jobId : String}
    (found : cache.entries.find? jobId = some entry) (fetchStarted : Bool)
    {slots : Nat → Option CandidateTemplateMaterial}
    (only : ∀ slot, slot ≠ entry.slot → slots slot = cache.slots slot) :
    Kept (cache.marked entry fetchStarted slots) := by
  have member := Table.mem_of_find? found
  refine ⟨?_, ?_, ?_, ?_, ?_⟩
  · intro e inRows
    rcases mem_marked.1 inRows with rfl | ⟨before, -⟩
    · exact kept.named entry member
    · exact kept.named e before
  · have keys := Table.map_key_put_of_mem (r := { entry with fetchStarted }) member rfl
    exact kept.listed.trans (.of_eq keys.symm)
  · intro e inRows
    rcases mem_marked.1 inRows with rfl | ⟨before, -⟩
    · exact kept.given entry member
    · exact kept.given e before
  · intro e inRows other otherInRows same
    rcases mem_marked.1 inRows with rfl | ⟨before, named⟩ <;>
      rcases mem_marked.1 otherInRows with rfl | ⟨otherBefore, otherNamed⟩
    · rfl
    · exact absurd (congrArg _ (kept.apart entry member other otherBefore same).symm) otherNamed
    · exact absurd (congrArg _ (kept.apart e before entry member same)) named
    · exact kept.apart e before other otherBefore same
  · intro slot unused
    have others : slot ≠ entry.slot := fun same =>
      unused _ (mem_marked.2 (.inl rfl)) same.symm
    show slots slot = none
    rw [only slot others]
    refine kept.retired slot fun e before same => ?_
    by_cases named : e.jobId = entry.jobId
    · have : e = entry := by
        have first := Table.find?_of_mem before
        have second := Table.find?_of_mem member
        rw [show Keyed.key e = Keyed.key entry from named, second] at first
        exact (Option.some.inj first).symm
      exact others (this ▸ same.symm)
    · exact unused e (mem_marked.2 (.inr ⟨before, named⟩)) same

theorem cancelFetch_cases (cache : TemplateMaterialCache) (jobId : String) :
    cache.cancelFetch jobId = cache ∧ cache.entries.find? jobId = none ∨
      ∃ entry, cache.entries.find? jobId = some entry ∧
        cache.cancelFetch jobId = cache.marked entry false cache.slots := by
  unfold cancelFetch
  split
  · rename_i entry found
    exact .inr ⟨entry, found, rfl⟩
  · rename_i absent
    exact .inl ⟨rfl, absent⟩

/-- A completion is for nothing, or for the entry with its template and its slot. -/
theorem finishFetch_cases (cache : TemplateMaterialCache) (template : NodeMiningTemplate)
    (slot : Nat) (material : Option CandidateTemplateMaterial) :
    cache.finishFetch template slot material = cache ∧
        (∀ entry, cache.entries.find? template.jobId = some entry →
          entry.template ≠ template ∨ entry.slot ≠ slot) ∨
      ∃ entry, cache.entries.find? template.jobId = some entry ∧ entry.template = template ∧
        entry.slot = slot ∧
        cache.finishFetch template slot material =
          cache.marked entry false (material.elim cache.slots fun material =>
            Function.update cache.slots slot (some material)) := by
  unfold finishFetch
  split
  · rename_i entry found
    split
    · rename_i foreign
      exact .inl ⟨rfl, fun e same => Option.some.inj (found.symm.trans same) ▸ foreign⟩
    · rename_i own
      rw [not_or, not_not, not_not] at own
      obtain ⟨own, rfl⟩ := own
      exact .inr ⟨entry, found, own, rfl, rfl⟩
  · rename_i absent
    exact .inl ⟨rfl, fun entry found => absurd (absent.symm.trans found) (by simp)⟩

/-- All that `slotFor` can do. -/
inductive SlotForOutcome (cache : TemplateMaterialCache) (template : NodeMiningTemplate) :
    TemplateMaterialCache × Nat × Bool → Prop
  | again {entry : TemplateMaterialCacheEntry}
      (found : cache.entries.find? template.jobId = some entry)
      (same : entry.template = template) :
      SlotForOutcome cache template
        (cache.marked entry true cache.slots, entry.slot,
          !entry.fetchStarted && (cache.slots entry.slot).isNone)
  | inserted {cache' : TemplateMaterialCache} {slot : Nat} (next : slot = cache.allocated)
      (inserted : Inserted cache template cache') :
      SlotForOutcome cache template (cache', slot, true)

theorem slotFor_outcome (kept : Kept cache) (template : NodeMiningTemplate) :
    SlotForOutcome cache template (cache.slotFor template) := by
  unfold slotFor
  split
  · rename_i entry found
    split
    · rename_i same
      exact .again found same
    · -- another template was under the job id: the new one is inserted into what is left
      obtain ⟨removed, trims⟩ := kept.remove template.jobId rfl
      have absent : (cache.remove template.jobId).entries.find? template.jobId = none :=
        Table.find?_eq_none_iff.2 fun e member => (mem_remove.1 member).2
      exact .inserted trims.allocated ((removed.insertNew absent).of_trims trims)
  · rename_i absent
    exact .inserted rfl (kept.insertNew absent)

end TemplateMaterialCache

end CsdPool.Bridge
