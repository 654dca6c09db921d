/-
# Alerts.Rounds — a run is a round for each kind

The active alerts are a board (`Theory.Board`).  A fingerprint belongs to one kind, so a run treats
the kinds apart: of each it raises the alerts it `found`, and takes down what it has in `sight` and
did not find (`active_checkAlerts`).  What it finds is due (`found_due`).

`Due` and `found` are read off what the run reads; `sight` needs the table before the run and the
clock besides.  A sweep lists the thousand active alerts seen last, and the run itself has by then
raised some and taken down others: `untilBlocks`, `untilWorkers` and `untilQuality` are the logs of
those writes.
-/
import CsdPool.Alerts.Writes

namespace CsdPool.Alerts

open Theory
open Theory.Board (Write raise takeDown)

set_option autoImplicit false

/-! ## What the parts of a run do to the board -/

variable {clock : Nat → Nat} {run : Run} {table : AlertTable} {fingerprint : String}

/-- What a run raises is up, and nothing goes down. -/
theorem active_raiseAll (alerts : List AlertDraft) :
    ∀ {run : Run}, Active (run.raiseAll clock alerts).table fingerprint ↔
      fingerprint ∈ alerts.map AlertDraft.fingerprint ∨ Active run.table fingerprint := by
  induction alerts with
  | nil => simp [Run.raiseAll]
  | cons alert rest ih =>
      intro run
      show Active ((run.upsert clock alert).raiseAll clock rest).table fingerprint ↔ _
      rw [ih, Run.upsert, active_upsertAlert, List.map_cons, List.mem_cons]
      tauto

/-- Raising alerts under their own fingerprints keeps every alert so filed. -/
theorem filed_raiseAll {alerts : List AlertDraft} (own : ∀ alert ∈ alerts, alert.Filed) :
    ∀ {run : Run}, Filed run.table → Filed (run.raiseAll clock alerts).table := by
  induction alerts with
  | nil => exact fun filed => filed
  | cons alert rest ih =>
      intro run filed
      have member : alert ∈ alert :: rest := List.mem_cons_self
      exact ih (fun other member => own other (List.mem_cons_of_mem _ member))
        (filed.upsertAlert (own alert member) _)

/-- A fold that resolves some of the alerts of a list. -/
theorem active_foldl_resolve (p : AlertEvent → Bool) (alerts : List AlertEvent) :
    ∀ {run : Run}, Active (alerts.foldl (fun run alert =>
        if p alert then run.resolve clock alert.fingerprint else run) run).table fingerprint ↔
      Active run.table fingerprint ∧
        ¬ ∃ alert ∈ alerts, p alert = true ∧ alert.fingerprint = fingerprint := by
  induction alerts with
  | nil => simp
  | cons alert rest ih =>
      intro run
      have parts : (∃ other ∈ alert :: rest, p other = true ∧ other.fingerprint = fingerprint) ↔
          (p alert = true ∧ alert.fingerprint = fingerprint) ∨
            ∃ other ∈ rest, p other = true ∧ other.fingerprint = fingerprint := by
        simp
      rw [List.foldl_cons, ih, parts]
      by_cases hit : p alert = true
      · rw [if_pos hit, Run.resolve, active_resolveAlert]
        simp only [hit, true_and]
        rw [not_or, and_assoc, ne_comm]
      · rw [if_neg hit]
        simp [hit]

theorem filed_foldl_resolve (p : AlertEvent → Bool) (alerts : List AlertEvent) :
    ∀ {run : Run}, Filed run.table → Filed (alerts.foldl (fun run alert =>
      if p alert then run.resolve clock alert.fingerprint else run) run).table := by
  induction alerts with
  | nil => exact fun filed => filed
  | cons alert rest ih =>
      intro run filed
      rw [List.foldl_cons]
      split
      · exact ih (filed.resolveAlert _ _)
      · exact ih filed

/-- What a sweep leaves up: what it keeps, what is of another kind, and what it does not list. -/
theorem active_resolveOthers (filed : Filed run.table) {kinds : AlertKind → Bool}
    {kept : List AlertDraft} {kind : AlertKind} (of : KindOf fingerprint kind) :
    Active (run.resolveOthers clock kinds kept).table fingerprint ↔
      Active run.table fingerprint ∧ (kinds kind = true →
        fingerprint ∈ run.listed.map AlertEvent.fingerprint →
          fingerprint ∈ kept.map AlertDraft.fingerprint) := by
  rw [Run.resolveOthers, active_foldl_resolve]
  refine and_congr_right fun _ => ?_
  constructor
  · intro spared swept listed
    by_contra unkept
    obtain ⟨alert, member, rfl⟩ := List.mem_map.1 listed
    have own := filed alert (mem_listAlerts_active member).1
    refine spared ⟨alert, member, ?_, rfl⟩
    rw [own.unique of, swept, Bool.true_and, Bool.not_eq_true', List.contains_eq_mem]
    exact decide_eq_false unkept
  · rintro spared ⟨alert, member, resolved, rfl⟩
    rw [Bool.and_eq_true, Bool.not_eq_true', List.contains_eq_mem, decide_eq_false_iff_not]
      at resolved
    have own := filed alert (mem_listAlerts_active member).1
    exact resolved.2 (spared (own.unique of ▸ resolved.1) (List.mem_map_of_mem member))

/-- Up or down as it was found; the other fingerprints are not touched. -/
theorem active_raiseOrResolve {alert : Option AlertDraft} {own : String}
    (names : ∀ draft, alert = some draft → draft.fingerprint = own) :
    Active (run.raiseOrResolve clock alert own).table fingerprint ↔
      if fingerprint = own then alert.isSome = true else Active run.table fingerprint := by
  cases alert with
  | none =>
      rw [Run.raiseOrResolve, Run.resolve, active_resolveAlert]
      by_cases same : fingerprint = own <;> simp [same]
  | some draft =>
      rw [Run.raiseOrResolve, Run.upsert, active_upsertAlert, names draft rfl]
      by_cases same : fingerprint = own <;> simp [same]

theorem filed_raiseOrResolve (filed : Filed run.table) {alert : Option AlertDraft}
    (own : ∀ draft, alert = some draft → draft.Filed) (resolved : String) :
    Filed (run.raiseOrResolve clock alert resolved).table := by
  cases alert with
  | none => exact filed.resolveAlert _ _
  | some draft => exact filed.upsertAlert (own draft rfl) _

/-- Two nodes have two fingerprints. -/
theorem healthFingerprint_injective {a b : String}
    (same : healthFingerprint a = healthFingerprint b) : a = b := by
  have texts := congrArg String.toList same
  rw [healthFingerprint, healthFingerprint, String.toList_append, String.toList_append] at texts
  exact String.toList_injective (List.append_cancel_left texts)

/-- Each node of the list has its alert up or down as its sample says; the others stay. -/
theorem active_checkHealth {samples : List NodeSampleRecord} :
    ∀ {run : Run}, (samples.map NodeSampleRecord.nodeName).Nodup →
      (Active (run.checkHealth clock samples).table fingerprint ↔
        fingerprint ∈ (samples.filter (!·.ok)).map (healthFingerprint ·.nodeName) ∨
          Active run.table fingerprint ∧
            fingerprint ∉ samples.map (healthFingerprint ·.nodeName)) := by
  induction samples with
  | nil => simp [Run.checkHealth]
  | cons sample rest ih =>
      intro run distinct
      rw [List.map_cons, List.nodup_cons] at distinct
      have apart : ∀ other ∈ rest, healthFingerprint other.nodeName ≠
          healthFingerprint sample.nodeName := fun other member same =>
        distinct.1 (healthFingerprint_injective same ▸ List.mem_map_of_mem member)
      have fresh : healthFingerprint sample.nodeName ∉
          rest.map (healthFingerprint ·.nodeName) := by
        rw [List.mem_map]
        rintro ⟨other, member, same⟩
        exact apart other member same
      have next : ∀ {run : Run}, Active (run.checkHealth clock rest).table fingerprint ↔ _ :=
        fun {_} => ih distinct.2
      show Active (Run.checkHealth clock (if sample.ok = true then _ else _) rest).table
        fingerprint ↔ _
      cases ok : sample.ok with
      | true =>
          rw [if_pos rfl, next, Run.resolve, active_resolveAlert,
            List.filter_cons_of_neg (by simp [ok]), List.map_cons, List.mem_cons]
          tauto
      | false =>
          rw [if_neg (by simp), next, Run.upsert, active_upsertAlert,
            List.filter_cons_of_pos (by simp [ok]), List.map_cons, List.mem_cons, List.map_cons,
            List.mem_cons]
          show _ ∨ (fingerprint = healthFingerprint sample.nodeName ∨ _) ∧ _ ↔ _
          constructor
          · rintro (failing | ⟨rfl | up, unseen⟩)
            · exact .inl (.inr failing)
            · exact .inl (.inl rfl)
            · by_cases own : fingerprint = healthFingerprint sample.nodeName
              · exact .inl (.inl own)
              · exact .inr ⟨up, not_or.2 ⟨own, unseen⟩⟩
          · rintro ((rfl | failing) | ⟨up, unseen⟩)
            · exact .inr ⟨.inl rfl, fresh⟩
            · exact .inl failing
            · exact .inr ⟨.inr up, (not_or.1 unseen).2⟩

/-! ## Fingerprints of each kind -/

/-- A fingerprint that begins with its tag and a colon is of that kind, whatever follows. -/
theorem kindOf_append {kind : AlertKind} {start : String} (own : KindOf start kind)
    (closed : ':' ∈ kind.tag) (rest : String) : KindOf (start ++ rest) kind := by
  rw [KindOf, String.toList_append, throughColon_append (own.symm ▸ closed)]
  exact own

/-- The kinds that have one alert only. -/
theorem eq_of_kindOf {kind : AlertKind} {single : String} (of : KindOf fingerprint kind)
    (own : single.toList = kind.tag) (plain : ':' ∉ kind.tag) : fingerprint = single := by
  have whole := throughColon_eq (of.symm ▸ plain)
  exact String.toList_injective (whole.symm.trans (of.trans own.symm))

theorem kindOf_health (nodeName : String) : KindOf (healthFingerprint nodeName) .serviceHealth :=
  kindOf_append (by decide) (by decide) nodeName

theorem kindOf_noShare : KindOf noShareFingerprint .noAcceptedShares := by decide

theorem kindOf_templateAge : KindOf templateAgeFingerprint .templateAge := by decide

theorem kindOf_block (hashHex : String) :
    KindOf (blockSubmissionFingerprint hashHex) .blockSubmission :=
  kindOf_append (by decide) (by decide) hashHex

theorem kindOf_payout (batchId : String) : KindOf (payoutStuckFingerprint batchId) .payoutStuck :=
  kindOf_append (by decide) (by decide) batchId

theorem kindOf_worker (miner workerName : String) :
    KindOf (workerOfflineFingerprint miner workerName) .workerOffline := by
  show KindOf ("worker_offline:" ++ miner ++ ":" ++ workerName) .workerOffline
  rw [String.append_assoc, String.append_assoc]
  exact kindOf_append (by decide) (by decide) _

theorem kindOf_quality {kind : AlertKind} (quality : kind = .highRejectRate ∨ kind = .highStaleRate)
    (miner workerName : String) : KindOf (shareQualityFingerprint kind miner workerName) kind := by
  show KindOf (kind.asStr ++ ":" ++ miner ++ ":" ++ workerName) kind
  rw [String.append_assoc, String.append_assoc]
  rcases quality with rfl | rfl
  · exact kindOf_append (by decide) (by decide) _
  · exact kindOf_append (by decide) (by decide) _

/-! ## What is due, what is found, what is in sight -/

section Rounds

variable (config : AlertConfig) (reads : AlertReads)

/-- A worker's counts over the window of the run. -/
def qualityRow (worker : WorkerSeen) : ShareQualityRow :=
  shareQualityRow reads.quality config.shareQualityWindowMinutes reads.qualityNow worker

/-- The fingerprints whose condition holds in what the run reads, for any number of subjects. -/
def Due : AlertKind → Set String
  | .serviceHealth => {fingerprint | ∃ sample ∈ latestSamples reads.collation reads.nodeSamples,
      sample.ok = false ∧ healthFingerprint sample.nodeName = fingerprint}
  | .noAcceptedShares => {fingerprint | (noShareAlert config reads).isSome = true ∧
      noShareFingerprint = fingerprint}
  | .templateAge => {fingerprint |
      (∃ job, latestJob reads.collation reads.jobs reads.jobsNow = some job ∧
        templateAged config reads job = true) ∧ templateAgeFingerprint = fingerprint}
  | .blockSubmission => {fingerprint | ∃ block ∈ reads.blocks,
      needsAttention config.blockSubmissionStuckMinutes reads.blocksNow block = true ∧
        blockSubmissionFingerprint (block.hash.getD "") = fingerprint}
  | .payoutStuck => {fingerprint | ∃ batch ∈ reads.batches,
      stuck config.stuckPayoutMinutes reads.batchesNow batch = true ∧
        payoutStuckFingerprint batch.id = fingerprint}
  | .workerOffline => {fingerprint | ∃ worker ∈ reads.workers,
      offline config.workerOfflineMinutes reads.workersNow worker = true ∧
        workerOfflineAlertExcluded worker.workerName config.workerOfflineExcludedPrefixes = false ∧
        workerOfflineFingerprint worker.miner worker.workerName = fingerprint}
  | .highRejectRate => {fingerprint | ∃ worker ∈ reads.quality.workers,
      config.shareQualityMinTotal ≤ (qualityRow config reads worker).total ∧
        F64.lt config.maxRejectRate (rate (qualityRow config reads worker).rejectedCount
          (qualityRow config reads worker).total) = true ∧
        shareQualityFingerprint .highRejectRate worker.miner worker.workerName = fingerprint}
  | .highStaleRate => {fingerprint | ∃ worker ∈ reads.quality.workers,
      config.shareQualityMinTotal ≤ (qualityRow config reads worker).total ∧
        F64.lt config.maxStaleRate (rate (qualityRow config reads worker).staleCount
          (qualityRow config reads worker).total) = true ∧
        shareQualityFingerprint .highStaleRate worker.miner worker.workerName = fingerprint}

/-- The alerts that a run raises. -/
def raised : AlertKind → List AlertDraft
  | .serviceHealth =>
      ((latestNodeSamples reads.collation reads.nodeSamples 100).filter (!·.ok)).map healthAlert
  | .noAcceptedShares => (noShareAlert config reads).toList
  | .templateAge => (templateAgeAlert config reads).toList
  | .blockSubmission => blockSubmissionAlerts config reads
  | .payoutStuck => payoutStuckAlerts config reads
  | .workerOffline => workerOfflineAlerts config reads
  | .highRejectRate => (shareQualityAlerts config reads).filter (·.kind = .highRejectRate)
  | .highStaleRate => (shareQualityAlerts config reads).filter (·.kind = .highStaleRate)

/-- The fingerprints of what a run raises. -/
def found (kind : AlertKind) : Set String :=
  {fingerprint | fingerprint ∈ (raised config reads kind).map AlertDraft.fingerprint}

variable (clock : Nat → Nat) (table : AlertTable)

/-- What a run has written when it sweeps the block alerts: the health alerts, the two that go
without a list, and the block alerts it found. -/
def untilBlocks : List (Write String) :=
  (latestNodeSamples reads.collation reads.nodeSamples 100).map
      (fun sample => ⟨healthFingerprint sample.nodeName, !sample.ok⟩) ++
    [⟨noShareFingerprint, (noShareAlert config reads).isSome⟩] ++
    [⟨templateAgeFingerprint, (templateAgeAlert config reads).isSome⟩] ++
    raise ((blockSubmissionAlerts config reads).map AlertDraft.fingerprint)

/-- When it sweeps the worker alerts. -/
noncomputable def untilWorkers : List (Write String) :=
  untilBlocks config reads ++
    takeDown (swept clock table (untilBlocks config reads) (· = .blockSubmission)
      ((blockSubmissionAlerts config reads).map AlertDraft.fingerprint)) ++
    raise ((payoutStuckAlerts config reads).map AlertDraft.fingerprint) ++
    raise ((workerOfflineAlerts config reads).map AlertDraft.fingerprint)

/-- When it sweeps the alerts of share quality. -/
noncomputable def untilQuality : List (Write String) :=
  untilWorkers config reads clock table ++
    takeDown (swept clock table (untilWorkers config reads clock table) (· = .workerOffline)
      ((workerOfflineAlerts config reads).map AlertDraft.fingerprint)) ++
    raise ((shareQualityAlerts config reads).map AlertDraft.fingerprint)

/-- What a run would take down, did it not find it: the nodes it looks at, the two alerts that go
without a list, and the alerts its sweeps list. -/
def sight : AlertKind → Set String
  | .serviceHealth => {fingerprint | fingerprint ∈
      (latestNodeSamples reads.collation reads.nodeSamples 100).map (healthFingerprint ·.nodeName)}
  | .noAcceptedShares => {noShareFingerprint}
  | .templateAge => {templateAgeFingerprint}
  | .blockSubmission => {fingerprint | InSight clock table (untilBlocks config reads) fingerprint}
  | .payoutStuck => ∅
  | .workerOffline => {fingerprint |
      InSight clock table (untilWorkers config reads clock table) fingerprint}
  | .highRejectRate | .highStaleRate => {fingerprint |
      InSight clock table (untilQuality config reads clock table) fingerprint}

end Rounds

variable {config : AlertConfig} {reads : AlertReads}

/-- What is due of a kind has a fingerprint of that kind. -/
theorem due_kindOf {kind : AlertKind} (due : fingerprint ∈ Due config reads kind) :
    KindOf fingerprint kind := by
  cases kind with
  | serviceHealth => obtain ⟨_, _, _, rfl⟩ := due; exact kindOf_health _
  | noAcceptedShares => obtain ⟨_, rfl⟩ := due; exact kindOf_noShare
  | templateAge => obtain ⟨_, rfl⟩ := due; exact kindOf_templateAge
  | blockSubmission => obtain ⟨_, _, _, rfl⟩ := due; exact kindOf_block _
  | payoutStuck => obtain ⟨_, _, _, rfl⟩ := due; exact kindOf_payout _
  | workerOffline => obtain ⟨_, _, _, _, rfl⟩ := due; exact kindOf_worker _ _
  | highRejectRate => obtain ⟨_, _, _, _, rfl⟩ := due; exact kindOf_quality (.inl rfl) _ _
  | highStaleRate => obtain ⟨_, _, _, _, rfl⟩ := due; exact kindOf_quality (.inr rfl) _ _

theorem shareQualityAlerts_kind {alert : AlertDraft}
    (member : alert ∈ shareQualityAlerts config reads) :
    ∃ quality ∈ listShareQualityAlerts reads.quality config.shareQualityWindowMinutes
        config.shareQualityMinTotal config.maxRejectRate config.maxStaleRate reads.qualityNow 1000,
      (F64.lt config.maxRejectRate quality.rejectRate = true ∧
        alert = shareQualityAlert .highRejectRate quality) ∨
      F64.lt config.maxStaleRate quality.staleRate = true ∧
        alert = shareQualityAlert .highStaleRate quality := by
  obtain ⟨quality, listed, own⟩ := List.mem_flatMap.1 member
  refine ⟨quality, listed, ?_⟩
  rcases List.mem_append.1 own with rejects | stales
  · split at rejects
    · exact .inl ⟨‹_›, List.mem_singleton.1 rejects⟩
    · cases rejects
  · split at stales
    · exact .inr ⟨‹_›, List.mem_singleton.1 stales⟩
    · cases stales

/-- What a run raises is filed, under the kind it is raised for. -/
theorem raised_filed {kind : AlertKind} {alert : AlertDraft}
    (member : alert ∈ raised config reads kind) : alert.kind = kind ∧ alert.Filed := by
  have quality : ∀ {alert}, alert ∈ shareQualityAlerts config reads → alert.Filed := by
    intro alert member
    obtain ⟨quality, -, ⟨-, rfl⟩ | ⟨-, rfl⟩⟩ := shareQualityAlerts_kind member
    · exact kindOf_quality (.inl rfl) _ _
    · exact kindOf_quality (.inr rfl) _ _
  cases kind with
  | serviceHealth =>
      obtain ⟨sample, -, rfl⟩ := List.mem_map.1 member
      exact ⟨rfl, kindOf_health _⟩
  | noAcceptedShares =>
      obtain ⟨gap, -, rfl⟩ := Option.map_eq_some_iff.1 (Option.mem_toList.1 member)
      exact ⟨rfl, kindOf_noShare⟩
  | templateAge =>
      obtain ⟨job, -, rfl⟩ := Option.map_eq_some_iff.1 (Option.mem_toList.1 member)
      exact ⟨rfl, kindOf_templateAge⟩
  | blockSubmission =>
      obtain ⟨block, -, rfl⟩ := List.mem_map.1 member
      exact ⟨rfl, kindOf_block _⟩
  | payoutStuck =>
      obtain ⟨batch, -, rfl⟩ := List.mem_map.1 member
      exact ⟨rfl, kindOf_payout _⟩
  | workerOffline =>
      obtain ⟨worker, -, rfl⟩ := List.mem_map.1 member
      exact ⟨rfl, kindOf_worker _ _⟩
  | highRejectRate =>
      obtain ⟨inAlerts, kind⟩ := List.mem_filter.1 member
      exact ⟨by simpa using kind, quality inAlerts⟩
  | highStaleRate =>
      obtain ⟨inAlerts, kind⟩ := List.mem_filter.1 member
      exact ⟨by simpa using kind, quality inAlerts⟩

theorem lt_of_not_le {a b : F64} (less : F64.lt a b = true) : F64.le b a = false := by
  cases a <;> cases b <;> simp_all [F64.lt, F64.le]

/-- A record of the quality list comes from a worker with enough shares, with its rates. -/
theorem listedQuality {quality : ShareQualityAlertRecord} {limit : Nat}
    (listed : quality ∈ listShareQualityAlerts reads.quality config.shareQualityWindowMinutes
      config.shareQualityMinTotal config.maxRejectRate config.maxStaleRate reads.qualityNow limit) :
    ∃ worker ∈ reads.quality.workers,
      config.shareQualityMinTotal ≤ (qualityRow config reads worker).total ∧
      (quality.miner = worker.miner ∧ quality.workerName = worker.workerName) ∧
      quality.rejectRate = rate (qualityRow config reads worker).rejectedCount
        (qualityRow config reads worker).total ∧
      quality.staleRate = rate (qualityRow config reads worker).staleCount
        (qualityRow config reads worker).total := by
  obtain ⟨row, taken, counted⟩ := List.mem_filterMap.1 listed
  obtain ⟨inRows, enough⟩ :=
    List.mem_filter.1 ((List.mem_insertionSort _).1 (List.mem_of_mem_take taken))
  obtain ⟨worker, inWorkers, rfl⟩ := List.mem_map.1 inRows
  refine ⟨worker, inWorkers, of_decide_eq_true enough, ?_⟩
  unfold shareQualityAlertFromCounts at counted
  split at counted
  · cases counted
  · dsimp only at counted
    split at counted
    · cases counted
    · rw [Option.some.injEq] at counted
      subst counted
      exact ⟨⟨rfl, rfl⟩, rfl, rfl⟩

/-- A run raises only what is due. -/
theorem found_due (kind : AlertKind) : found config reads kind ⊆ Due config reads kind := by
  intro fingerprint member
  obtain ⟨alert, raised, rfl⟩ := List.mem_map.1 member
  cases kind with
  | serviceHealth =>
      obtain ⟨sample, listed, rfl⟩ := List.mem_map.1 raised
      obtain ⟨listed, failing⟩ := List.mem_filter.1 listed
      exact ⟨sample, List.mem_of_mem_take listed, by simpa using failing, rfl⟩
  | noAcceptedShares =>
      have alert_ := Option.mem_toList.1 raised
      obtain ⟨gap, -, rfl⟩ := Option.map_eq_some_iff.1 alert_
      exact ⟨Option.isSome_iff_exists.2 ⟨_, alert_⟩, rfl⟩
  | templateAge =>
      obtain ⟨job, aged, rfl⟩ := Option.map_eq_some_iff.1 (Option.mem_toList.1 raised)
      obtain ⟨latest, aged⟩ := Option.filter_eq_some_iff.1 aged
      exact ⟨⟨job, latest, aged⟩, rfl⟩
  | blockSubmission =>
      obtain ⟨record, listed, rfl⟩ := List.mem_map.1 raised
      obtain ⟨block, sorted, rfl⟩ := List.mem_map.1 (List.mem_of_mem_take listed)
      obtain ⟨inBlocks, needs⟩ := List.mem_filter.1 ((List.mem_insertionSort _).1 sorted)
      exact ⟨block, inBlocks, needs, rfl⟩
  | payoutStuck =>
      obtain ⟨batch, listed, rfl⟩ := List.mem_map.1 raised
      obtain ⟨inBatches, stuck⟩ :=
        List.mem_filter.1 ((List.mem_insertionSort _).1 (List.mem_of_mem_take listed))
      exact ⟨batch, inBatches, stuck, rfl⟩
  | workerOffline =>
      obtain ⟨worker, listed, rfl⟩ := List.mem_map.1 raised
      obtain ⟨listed, included⟩ := List.mem_filter.1 listed
      obtain ⟨inWorkers, offline⟩ :=
        List.mem_filter.1 ((List.mem_insertionSort _).1 (List.mem_of_mem_take listed))
      exact ⟨worker, inWorkers, offline, by simpa using included, rfl⟩
  | highRejectRate =>
      obtain ⟨inAlerts, kind⟩ := List.mem_filter.1 raised
      obtain ⟨quality, listed, ⟨above, rfl⟩ | ⟨-, rfl⟩⟩ := shareQualityAlerts_kind inAlerts
      · obtain ⟨worker, inWorkers, enough, ⟨miner, name⟩, rejectRate, -⟩ := listedQuality listed
        rw [rejectRate] at above
        exact ⟨worker, inWorkers, enough, above, by rw [shareQualityAlert, miner, name]⟩
      · cases of_decide_eq_true kind
  | highStaleRate =>
      obtain ⟨inAlerts, kind⟩ := List.mem_filter.1 raised
      obtain ⟨quality, listed, ⟨-, rfl⟩ | ⟨above, rfl⟩⟩ := shareQualityAlerts_kind inAlerts
      · cases of_decide_eq_true kind
      · obtain ⟨worker, inWorkers, enough, ⟨miner, name⟩, -, staleRate⟩ := listedQuality listed
        rw [staleRate] at above
        exact ⟨worker, inWorkers, enough, above, by rw [shareQualityAlert, miner, name]⟩

/-! ## One run is a round for each kind -/

theorem not_mem_fingerprints {kind : AlertKind} (of : KindOf fingerprint kind)
    {alerts : List AlertDraft} (others : ∀ alert ∈ alerts, alert.Filed ∧ alert.kind ≠ kind) :
    fingerprint ∉ alerts.map AlertDraft.fingerprint := by
  rw [List.mem_map]
  rintro ⟨alert, member, rfl⟩
  obtain ⟨filed, other⟩ := others alert member
  exact other (KindOf.unique filed of)

/-- Raising some alerts and sweeping their kinds: `log` is what the run has written between the
two, and it has not touched those kinds before. -/
theorem active_raised_swept {kinds : AlertKind → Bool} {alerts : List AlertDraft}
    (own : ∀ alert ∈ alerts, alert.Filed ∧ kinds alert.kind = true) (filed : Filed run.table)
    {kind : AlertKind} (of : KindOf fingerprint kind)
    {log : List (Write String)} (wrote : (run.raiseAll clock alerts).Wrote clock table log)
    (untouched : kinds kind = true → (Active run.table fingerprint ↔ Active table fingerprint)) :
    Active ((run.raiseAll clock alerts).resolveOthers clock kinds alerts).table fingerprint ↔
      if kinds kind = true then
        fingerprint ∈ alerts.map AlertDraft.fingerprint ∨ Active table fingerprint ∧
          ¬ InSight clock table log fingerprint
      else Active run.table fingerprint := by
  have filed' : Filed (run.raiseAll clock alerts).table :=
    filed_raiseAll (fun alert member => (own alert member).1) filed
  rw [active_resolveOthers filed' of, active_raiseAll]
  split
  · rename_i swept
    rw [← untouched swept]
    have listed : fingerprint ∉ alerts.map AlertDraft.fingerprint →
        Active run.table fingerprint →
          (fingerprint ∈ (run.raiseAll clock alerts).listed.map AlertEvent.fingerprint ↔
            InSight clock table log fingerprint) := by
      intro _ up
      obtain ⟨row, known, -⟩ := (untouched swept).1 up
      refine wrote.mem_listed ?_ ((active_raiseAll alerts).2 (.inr up))
      exact Table.mem_map_key_iff.2 (by rw [known]; simp)
    tauto
  · rename_i unswept
    have foreign := not_mem_fingerprints of fun alert member =>
      ⟨(own alert member).1, fun same => unswept (same ▸ (own alert member).2)⟩
    tauto

theorem filed_checkHealth {samples : List NodeSampleRecord} :
    ∀ {run : Run}, Filed run.table → Filed (run.checkHealth clock samples).table := by
  induction samples with
  | nil => exact fun filed => filed
  | cons sample rest ih =>
      intro run filed
      show Filed (Run.checkHealth clock (if sample.ok = true then _ else _) rest).table
      split
      · exact ih (filed.resolveAlert _ _)
      · exact ih (filed.upsertAlert (show (healthAlert sample).Filed from kindOf_health _) _)

theorem filed_resolveOthers (filed : Filed run.table) (kinds : AlertKind → Bool)
    (kept : List AlertDraft) : Filed (run.resolveOthers clock kinds kept).table :=
  filed_foldl_resolve _ _ filed

theorem noShareAlert_names {draft : AlertDraft} (alert : noShareAlert config reads = some draft) :
    draft.fingerprint = noShareFingerprint ∧ draft.Filed := by
  obtain ⟨gap, -, rfl⟩ := Option.map_eq_some_iff.1 alert
  exact ⟨rfl, kindOf_noShare⟩

theorem templateAgeAlert_names {draft : AlertDraft}
    (alert : templateAgeAlert config reads = some draft) :
    draft.fingerprint = templateAgeFingerprint ∧ draft.Filed := by
  obtain ⟨job, -, rfl⟩ := Option.map_eq_some_iff.1 alert
  exact ⟨rfl, kindOf_templateAge⟩

theorem shareQualityAlerts_filed {alert : AlertDraft}
    (member : alert ∈ shareQualityAlerts config reads) :
    alert.Filed ∧ (alert.kind = .highRejectRate ∨ alert.kind = .highStaleRate) := by
  obtain ⟨quality, -, ⟨-, rfl⟩ | ⟨-, rfl⟩⟩ := shareQualityAlerts_kind member
  · exact ⟨kindOf_quality (.inl rfl) _ _, .inl rfl⟩
  · exact ⟨kindOf_quality (.inr rfl) _ _, .inr rfl⟩

theorem filed_templateChecked (filed : Filed table) :
    Filed (templateChecked config reads clock table).table :=
  filed_raiseOrResolve (filed_raiseOrResolve (filed_checkHealth filed)
    (fun _ alert => (noShareAlert_names alert).2) _)
    (fun _ alert => (templateAgeAlert_names alert).2) _

theorem filed_blocksChecked (filed : Filed table) :
    Filed (blocksChecked config reads clock table).table :=
  filed_resolveOthers (filed_raiseAll
    (fun alert member =>
      (raised_filed (show alert ∈ raised config reads .blockSubmission from member)).2)
    (filed_templateChecked filed)) _ _

theorem filed_payoutsRaised (filed : Filed table) :
    Filed (payoutsRaised config reads clock table).table :=
  filed_raiseAll
    (fun alert member =>
      (raised_filed (show alert ∈ raised config reads .payoutStuck from member)).2)
    (filed_blocksChecked filed)

theorem filed_workersChecked (filed : Filed table) :
    Filed (workersChecked config reads clock table).table :=
  filed_resolveOthers (filed_raiseAll
    (fun alert member =>
      (raised_filed (show alert ∈ raised config reads .workerOffline from member)).2)
    (filed_payoutsRaised filed)) _ _

theorem filed_checkAlerts (filed : Filed table) :
    Filed (checkAlerts config reads clock table).1 :=
  filed_resolveOthers (filed_raiseAll (fun _ member => (shareQualityAlerts_filed member).1)
    (filed_workersChecked filed)) _ _

theorem active_healthChecked (config : AlertConfig) {kind : AlertKind} (of : KindOf fingerprint kind) :
    Active (healthChecked reads clock table).table fingerprint ↔
      if kind = .serviceHealth then
        fingerprint ∈ found config reads .serviceHealth ∨ Active table fingerprint ∧
          fingerprint ∉ sight config reads clock table .serviceHealth
      else Active table fingerprint := by
  have distinct : ((latestNodeSamples reads.collation reads.nodeSamples 100).map
      NodeSampleRecord.nodeName).Nodup :=
    (distinctOn_nodup _ _).sublist ((List.take_sublist _ _).map _)
  rw [healthChecked, active_checkHealth distinct]
  split
  · simp only [found, sight, raised, Set.mem_ofPred_eq, List.map_map]
    rfl
  · rename_i other
    have foreign : ∀ samples : List NodeSampleRecord,
        fingerprint ∉ samples.map (healthFingerprint ·.nodeName) := by
      intro samples member
      obtain ⟨sample, -, rfl⟩ := List.mem_map.1 member
      exact other (of.unique (kindOf_health _))
    simp [foreign]

theorem mem_toList_fingerprints {alert : Option AlertDraft} {own : String}
    (names : ∀ draft, alert = some draft → draft.fingerprint = own) :
    fingerprint ∈ alert.toList.map AlertDraft.fingerprint ↔
      fingerprint = own ∧ alert.isSome = true := by
  cases alert with
  | none => simp
  | some draft => simp [names draft rfl]

theorem active_templateChecked {kind : AlertKind} (of : KindOf fingerprint kind) :
    Active (templateChecked config reads clock table).table fingerprint ↔
      if kind = .noAcceptedShares ∨ kind = .templateAge then
        fingerprint ∈ found config reads kind
      else Active (healthChecked reads clock table).table fingerprint := by
  rw [templateChecked, active_raiseOrResolve fun _ alert => (templateAgeAlert_names alert).1,
    active_raiseOrResolve fun _ alert => (noShareAlert_names alert).1]
  by_cases template : kind = .templateAge
  · subst template
    have own : fingerprint = templateAgeFingerprint := eq_of_kindOf of (by decide) (by decide)
    rw [if_pos own, if_pos (.inr rfl)]
    show _ ↔ fingerprint ∈ (templateAgeAlert config reads).toList.map _
    rw [mem_toList_fingerprints fun _ alert => (templateAgeAlert_names alert).1]
    exact (and_iff_right own).symm
  · have foreign : fingerprint ≠ templateAgeFingerprint := fun same =>
      template (of.unique (same ▸ kindOf_templateAge))
    rw [if_neg foreign]
    by_cases shares : kind = .noAcceptedShares
    · subst shares
      have own : fingerprint = noShareFingerprint := eq_of_kindOf of (by decide) (by decide)
      rw [if_pos own, if_pos (.inl rfl)]
      show _ ↔ fingerprint ∈ (noShareAlert config reads).toList.map _
      rw [mem_toList_fingerprints fun _ alert => (noShareAlert_names alert).1]
      exact (and_iff_right own).symm
    · have foreign : fingerprint ≠ noShareFingerprint := fun same =>
        shares (of.unique (same ▸ kindOf_noShare))
      rw [if_neg foreign, if_neg (not_or.2 ⟨shares, template⟩)]

theorem wrote_blocksRaised :
    (blocksRaised config reads clock table).Wrote clock table (untilBlocks config reads) :=
  (((Run.Wrote.start clock table).checkHealth.raiseOrResolve
    fun _ alert => (noShareAlert_names alert).1).raiseOrResolve
      fun _ alert => (templateAgeAlert_names alert).1).raiseAll

/-- What the run has done to the block alerts before it raises those it found. -/
theorem untouched_templateChecked (of : KindOf fingerprint .blockSubmission) :
    Active (templateChecked config reads clock table).table fingerprint ↔
      Active table fingerprint := by
  rw [active_templateChecked of, active_healthChecked config of]
  simp

theorem blockSubmissionAlerts_own {alert : AlertDraft}
    (member : alert ∈ blockSubmissionAlerts config reads) :
    alert.Filed ∧ decide (alert.kind = .blockSubmission) = true :=
  have raised := raised_filed (show alert ∈ raised config reads .blockSubmission from member)
  ⟨raised.2, decide_eq_true raised.1⟩

theorem active_blocksChecked (filed : Filed table) {kind : AlertKind}
    (of : KindOf fingerprint kind) :
    Active (blocksChecked config reads clock table).table fingerprint ↔
      if kind = .blockSubmission then
        fingerprint ∈ found config reads kind ∨ Active table fingerprint ∧
          fingerprint ∉ sight config reads clock table kind
      else Active (templateChecked config reads clock table).table fingerprint := by
  have untouched : decide (kind = .blockSubmission) = true →
      (Active (templateChecked config reads clock table).table fingerprint ↔
        Active table fingerprint) := fun block =>
    untouched_templateChecked (of_decide_eq_true block ▸ of)
  rw [blocksChecked, blocksRaised, active_raised_swept (fun _ => blockSubmissionAlerts_own)
    (filed_templateChecked filed) of wrote_blocksRaised untouched]
  by_cases swept : kind = .blockSubmission
  · subst swept
    rw [if_pos rfl, if_pos (decide_eq_true rfl)]
    rfl
  · rw [if_neg swept, if_neg (by simpa using swept)]

theorem wrote_blocksChecked (filed : Filed table) :
    (blocksChecked config reads clock table).Wrote clock table (untilBlocks config reads ++
      takeDown (swept clock table (untilBlocks config reads) (· = .blockSubmission)
        ((blockSubmissionAlerts config reads).map AlertDraft.fingerprint))) := by
  refine wrote_blocksRaised.resolveOthers filed (filed_raiseAll
    (fun _ member => (blockSubmissionAlerts_own member).1) (filed_templateChecked filed)) ?_
  intro fingerprint kind of block unkept
  rw [blocksRaised, active_raiseAll, or_iff_right unkept]
  exact untouched_templateChecked (of_decide_eq_true block ▸ of)

theorem active_payoutsRaised {kind : AlertKind} (of : KindOf fingerprint kind) :
    Active (payoutsRaised config reads clock table).table fingerprint ↔
      if kind = .payoutStuck then
        fingerprint ∈ found config reads kind ∨
          Active (blocksChecked config reads clock table).table fingerprint
      else Active (blocksChecked config reads clock table).table fingerprint := by
  rw [payoutsRaised, active_raiseAll]
  split
  · rename_i own
    subst own
    rfl
  · rename_i other
    have own : ∀ alert ∈ payoutStuckAlerts config reads, alert.Filed ∧ alert.kind ≠ kind := by
      intro alert member
      obtain ⟨own, filed⟩ :=
        raised_filed (show alert ∈ raised config reads .payoutStuck from member)
      exact ⟨filed, own ▸ Ne.symm other⟩
    exact or_iff_right (not_mem_fingerprints of own)

theorem wrote_workersRaised (filed : Filed table) :
    (workersRaised config reads clock table).Wrote clock table
      (untilWorkers config reads clock table) :=
  (wrote_blocksChecked filed).raiseAll.raiseAll

/-- What the run has done to the worker alerts before it raises those it found. -/
theorem untouched_payoutsRaised (filed : Filed table) (of : KindOf fingerprint .workerOffline) :
    Active (payoutsRaised config reads clock table).table fingerprint ↔
      Active table fingerprint := by
  rw [active_payoutsRaised of, active_blocksChecked filed of, active_templateChecked of,
    active_healthChecked config of]
  simp

theorem workerOfflineAlerts_own {alert : AlertDraft}
    (member : alert ∈ workerOfflineAlerts config reads) :
    alert.Filed ∧ decide (alert.kind = .workerOffline) = true :=
  have raised := raised_filed (show alert ∈ raised config reads .workerOffline from member)
  ⟨raised.2, decide_eq_true raised.1⟩

theorem active_workersChecked (filed : Filed table) {kind : AlertKind}
    (of : KindOf fingerprint kind) :
    Active (workersChecked config reads clock table).table fingerprint ↔
      if kind = .workerOffline then
        fingerprint ∈ found config reads kind ∨ Active table fingerprint ∧
          fingerprint ∉ sight config reads clock table kind
      else Active (payoutsRaised config reads clock table).table fingerprint := by
  have untouched : decide (kind = .workerOffline) = true →
      (Active (payoutsRaised config reads clock table).table fingerprint ↔
        Active table fingerprint) := fun worker =>
    untouched_payoutsRaised filed (of_decide_eq_true worker ▸ of)
  rw [workersChecked, workersRaised, active_raised_swept (fun _ => workerOfflineAlerts_own)
    (filed_payoutsRaised filed) of (wrote_workersRaised filed) untouched]
  by_cases swept : kind = .workerOffline
  · subst swept
    rw [if_pos rfl, if_pos (decide_eq_true rfl)]
    rfl
  · rw [if_neg swept, if_neg (by simpa using swept)]

theorem wrote_qualityRaised (filed : Filed table) :
    (qualityRaised config reads clock table).Wrote clock table
      (untilQuality config reads clock table) := by
  refine ((wrote_workersRaised filed).resolveOthers filed (filed_raiseAll
    (fun _ member => (workerOfflineAlerts_own member).1) (filed_payoutsRaised filed)) ?_).raiseAll
  intro fingerprint kind of worker unkept
  rw [workersRaised, active_raiseAll, or_iff_right unkept]
  exact untouched_payoutsRaised filed (of_decide_eq_true worker ▸ of)

/-- Of the quality alerts, those of a kind are those under its fingerprints. -/
theorem mem_quality_found {kind : AlertKind}
    (quality : kind = .highRejectRate ∨ kind = .highStaleRate) (of : KindOf fingerprint kind) :
    fingerprint ∈ found config reads kind ↔
      fingerprint ∈ (shareQualityAlerts config reads).map AlertDraft.fingerprint := by
  have kinds : raised config reads kind =
      (shareQualityAlerts config reads).filter (·.kind = kind) := by
    rcases quality with rfl | rfl <;> rfl
  show fingerprint ∈ (raised config reads kind).map _ ↔ _
  rw [kinds, List.mem_map, List.mem_map]
  constructor
  · rintro ⟨alert, member, rfl⟩
    exact ⟨alert, (List.mem_filter.1 member).1, rfl⟩
  · rintro ⟨alert, member, rfl⟩
    have own := (shareQualityAlerts_filed member).1.unique of
    exact ⟨alert, List.mem_filter.2 ⟨member, decide_eq_true own⟩, rfl⟩

theorem active_qualityChecked (filed : Filed table) {kind : AlertKind}
    (of : KindOf fingerprint kind) :
    Active (checkAlerts config reads clock table).1 fingerprint ↔
      if kind = .highRejectRate ∨ kind = .highStaleRate then
        fingerprint ∈ found config reads kind ∨ Active table fingerprint ∧
          fingerprint ∉ sight config reads clock table kind
      else Active (workersChecked config reads clock table).table fingerprint := by
  show Active (qualityChecked config reads clock table).table fingerprint ↔ _
  have own : ∀ alert ∈ shareQualityAlerts config reads, alert.Filed ∧
      decide (alert.kind = .highRejectRate ∨ alert.kind = .highStaleRate) = true :=
    fun alert member =>
      ⟨(shareQualityAlerts_filed member).1, decide_eq_true (shareQualityAlerts_filed member).2⟩
  have untouched : decide (kind = .highRejectRate ∨ kind = .highStaleRate) = true →
      (Active (workersChecked config reads clock table).table fingerprint ↔
        Active table fingerprint) := by
    intro quality
    rw [active_workersChecked filed of, active_payoutsRaised of, active_blocksChecked filed of,
      active_templateChecked of, active_healthChecked config of]
    rcases of_decide_eq_true quality with rfl | rfl <;> simp
  rw [qualityChecked, qualityRaised, active_raised_swept own (filed_workersChecked filed) of
    (wrote_qualityRaised filed) untouched]
  by_cases swept : kind = .highRejectRate ∨ kind = .highStaleRate
  · rw [if_pos swept, if_pos (decide_eq_true swept), ← mem_quality_found swept of]
    rcases swept with rfl | rfl <;> rfl
  · rw [if_neg swept, if_neg (by simpa using swept)]

/-- **A run is a round.** -/
theorem active_checkAlerts (config : AlertConfig) (reads : AlertReads) (clock : Nat → Nat)
    (filed : Filed table) {kind : AlertKind} (of : KindOf fingerprint kind) :
    Active (checkAlerts config reads clock table).1 fingerprint ↔
      fingerprint ∈ Board.round (found config reads kind) (sight config reads clock table kind)
        {fingerprint | Active table fingerprint} := by
  show _ ↔ fingerprint ∈ found config reads kind ∨ Active table fingerprint ∧
    fingerprint ∉ sight config reads clock table kind
  rw [active_qualityChecked filed of, active_workersChecked filed of, active_payoutsRaised of,
    active_blocksChecked filed of, active_templateChecked of, active_healthChecked config of]
  cases kind with
  | serviceHealth => simp
  | noAcceptedShares =>
      have own : fingerprint = noShareFingerprint := eq_of_kindOf of (by decide) (by decide)
      simp [sight, own]
  | templateAge =>
      have own : fingerprint = templateAgeFingerprint := eq_of_kindOf of (by decide) (by decide)
      simp [sight, own]
  | blockSubmission => simp
  | payoutStuck => simp [sight]
  | workerOffline => simp
  | highRejectRate => simp
  | highStaleRate => simp

end CsdPool.Alerts
