/-
# Alerts.Convergence — when the alerts show what is so

Alert tables come about by runs, by an operator who resolves an alert, and by the deletion of
resolved ones (`alertMachine`).  After a run from any such table, the active alerts are the due ones
exactly if the run `Settles`: what is due beyond a limit is up already and out of sight, and what is
up and no longer due is in sight (`converged_iff_settles`).  All of that is read off the table before
the run, what the run reads, and the clock.

Within the limits a run settles, but for the alerts that nothing takes down: those of nodes without
samples, and those of batches that are no longer stuck (`settles_of_room`).
-/
import CsdPool.Alerts.Rounds

namespace CsdPool.Alerts

open Theory

set_option autoImplicit false

variable {clock : Nat → Nat} {run : Run} {table : AlertTable} {fingerprint : String}
  {config : AlertConfig} {reads : AlertReads}

/-! ## Histories -/

/-- What changes the alert table: a run, an operator, and the deletion of resolved alerts that were
last seen before a time, a batch at once. -/
inductive AlertStep
  | checkAlerts (config : AlertConfig) (reads : AlertReads) (clock : Nat → Nat)
  | operatorResolveAlert (fingerprint : String) (now : Nat)
  | prune (cutoff : Nat) (batch : List String)

def alertStep (table : AlertTable) : AlertStep → Option AlertTable
  | .checkAlerts config reads clock => some (checkAlerts config reads clock table).1
  | .operatorResolveAlert fingerprint now => some (resolveAlert table fingerprint now).1
  | .prune cutoff batch => some (table.filter fun row =>
      !(row.status = .resolved && row.lastSeenAt < cutoff && batch.contains row.fingerprint))

def alertMachine : Machine AlertTable AlertStep where
  init table := table = .empty
  step := alertStep

theorem filed_of_reachable (reached : alertMachine.Reachable table) : Filed table := by
  refine reached.invariant ?_ ?_
  · rintro _ rfl row member
    cases member
  · intro table event table' _ filed _ stepped
    have stepped : alertStep table event = some table' := stepped
    cases event with
    | checkAlerts config reads clock =>
        cases stepped
        exact filed_checkAlerts filed
    | operatorResolveAlert fingerprint now =>
        cases stepped
        exact filed.resolveAlert fingerprint now
    | prune cutoff batch =>
        cases stepped
        exact fun row member => filed row (Table.mem_filter.1 member).1

/-! ## Convergence -/

/-- An alert is active if and only if its condition held in what the run read. -/
def Converged (config : AlertConfig) (reads : AlertReads) (after : AlertTable) : Prop :=
  ∀ kind fingerprint,
    (∃ row ∈ after.rows, row.fingerprint = fingerprint ∧ row.kind = kind ∧
      row.status = .active) ↔ fingerprint ∈ Due config reads kind

/-- What is due and not found is up already and out of sight; what is up and not due is in
sight. -/
structure Settles (config : AlertConfig) (reads : AlertReads) (clock : Nat → Nat)
    (table : AlertTable) : Prop where
  beyond : ∀ kind, ∀ fingerprint ∈ Due config reads kind, fingerprint ∉ found config reads kind →
    Active table fingerprint ∧ fingerprint ∉ sight config reads clock table kind
  gone : ∀ kind fingerprint, KindOf fingerprint kind → Active table fingerprint →
    fingerprint ∉ Due config reads kind → fingerprint ∈ sight config reads clock table kind

/-- The active alerts of a filed table, by kind. -/
theorem active_iff_row (filed : Filed table) {kind : AlertKind} :
    (∃ row ∈ table.rows, row.fingerprint = fingerprint ∧ row.kind = kind ∧
      row.status = .active) ↔ KindOf fingerprint kind ∧ Active table fingerprint := by
  constructor
  · rintro ⟨row, member, rfl, rfl, status⟩
    exact ⟨filed row member, row, Table.find?_of_mem member, status⟩
  · rintro ⟨of, row, known, status⟩
    have own := Table.key_of_find? known
    have own : row.fingerprint = fingerprint := own
    have member := Table.mem_of_find? known
    exact ⟨row, member, own, (filed row member).unique (own ▸ of), status⟩

/-- After a run from any table that can come about, the active alerts are the due ones exactly if
the run settles. -/
theorem converged_iff_settles (config : AlertConfig) (reads : AlertReads) (clock : Nat → Nat)
    (reached : alertMachine.Reachable table) :
    Converged config reads (checkAlerts config reads clock table).1 ↔
      Settles config reads clock table := by
  have filed := filed_of_reachable reached
  have rounds : Converged config reads (checkAlerts config reads clock table).1 ↔
      ∀ kind fingerprint, KindOf fingerprint kind → fingerprint ∉ found config reads kind →
        (fingerprint ∈ Due config reads kind ↔ Active table fingerprint ∧
          fingerprint ∉ sight config reads clock table kind) := by
    refine forall_congr' fun kind => forall_congr' fun fingerprint => ?_
    rw [active_iff_row (filed_checkAlerts filed)]
    constructor
    · intro shown of
      have round := active_checkAlerts config reads clock filed of
      refine (Board.mem_round_iff (found_due kind)).1 (round.symm.trans ?_)
      rw [← shown]
      exact (and_iff_right of).symm
    · intro settles
      by_cases of : KindOf fingerprint kind
      · rw [active_checkAlerts config reads clock filed of, and_iff_right of]
        exact (Board.mem_round_iff (found_due kind)).2 (settles of)
      · exact ⟨fun up => absurd up.1 of, fun due => absurd (due_kindOf due) of⟩
  rw [rounds]
  constructor
  · intro settles
    refine ⟨fun kind fingerprint due missed =>
      (settles kind fingerprint (due_kindOf due) missed).1 due, ?_⟩
    intro kind fingerprint of up idle
    by_contra unseen
    have missed : fingerprint ∉ found config reads kind := fun hit => idle (found_due kind hit)
    exact idle ((settles kind fingerprint of missed).2 ⟨up, unseen⟩)
  · intro settles kind fingerprint of missed
    refine ⟨fun due => settles.beyond kind fingerprint due missed, ?_⟩
    rintro ⟨up, unseen⟩
    by_contra idle
    exact unseen (settles.gone kind fingerprint of up idle)

/-! ## Within the limits -/

/-- All that a run raises. -/
def raisedAlerts (config : AlertConfig) (reads : AlertReads) : List AlertDraft :=
  ((latestNodeSamples reads.collation reads.nodeSamples 100).filter (!·.ok)).map healthAlert ++
    (noShareAlert config reads).toList ++ (templateAgeAlert config reads).toList ++
    blockSubmissionAlerts config reads ++ payoutStuckAlerts config reads ++
    workerOfflineAlerts config reads ++ shareQualityAlerts config reads

/-- Every list is within its limit, a sweep could list all that is active or raised, and no alert
is up that nothing takes down. -/
structure Room (config : AlertConfig) (reads : AlertReads) (table : AlertTable) : Prop where
  samples : (latestSamples reads.collation reads.nodeSamples).length ≤ 100
  blocks : (submissionAlerts reads.blocks config.blockSubmissionStuckMinutes
    reads.blocksNow).length ≤ 100
  batches : (stuckBatches reads.collation reads.batches config.stuckPayoutMinutes
    reads.batchesNow).length ≤ 100
  workers : (offlineWorkers reads.workers config.workerOfflineMinutes
    reads.workersNow).length ≤ 1000
  quality : (measured reads.quality config.shareQualityWindowMinutes config.shareQualityMinTotal
    reads.qualityNow).length ≤ 1000
  listed : (table.rows.filter fun row => row.status = .active).length +
    (raisedAlerts config reads).length ≤ 1000
  nodes : ∀ fingerprint, KindOf fingerprint .serviceHealth → Active table fingerprint →
    ∃ sample ∈ latestSamples reads.collation reads.nodeSamples,
      healthFingerprint sample.nodeName = fingerprint
  payouts : ∀ fingerprint, KindOf fingerprint .payoutStuck → Active table fingerprint →
    fingerprint ∈ Due config reads .payoutStuck

/-- The writes of a run raise what it raises. -/
theorem length_untilQuality : ((untilQuality config reads clock table).filter (·.up)).length =
    (raisedAlerts config reads).length := by
  have single : ∀ (own : String) (alert : Option AlertDraft),
      ([⟨own, alert.isSome⟩] : List (Board.Write String)).filter (·.up) =
        alert.toList.map fun _ => ⟨own, true⟩ := by
    intro own alert
    cases alert <;> rfl
  have samples : ∀ samples : List NodeSampleRecord,
      ((samples.map fun sample => (⟨healthFingerprint sample.nodeName, !sample.ok⟩ :
        Board.Write String)).filter (·.up)).length = (samples.filter (!·.ok)).length := by
    intro samples
    rw [List.filter_map, List.length_map]
    rfl
  simp only [untilQuality, untilWorkers, untilBlocks, raisedAlerts, List.filter_append,
    List.length_append, Board.filter_raise, Board.filter_takeDown, Board.length_raise, single,
    samples, List.length_map, List.length_nil, Nat.add_zero]

/-- Within the limits a sweep lists every alert that was active. -/
theorem Room.inSight (room : Room config reads table) {log : List (Board.Write String)}
    (earlier : log.Sublist (untilQuality config reads clock table))
    (up : Active table fingerprint) : InSight clock table log fingerprint := by
  have raised := (earlier.filter (·.up)).length_le
  have listed := room.listed
  rw [length_untilQuality] at raised
  exact inSight_of_room (by omega) up

/-- A rate over a threshold is a rate of something: nothing out of nothing is not a number. -/
theorem total_ne_zero_of_over {row : ShareQualityRow} {rejects stales : F64}
    (above : F64.lt rejects (rate row.rejectedCount row.total) = true ∨
      F64.lt stales (rate row.staleCount row.total) = true) : row.total ≠ 0 := by
  intro none_
  have parts : row.rejectedCount = 0 ∧ row.staleCount = 0 := by
    unfold ShareQualityRow.total at none_
    omega
  have nothing : ∀ threshold, F64.lt threshold (rate 0 0) = false := by
    have nan : rate 0 0 = .nan := by decide +kernel
    intro threshold
    rw [nan]
    cases threshold <;> rfl
  rw [parts.1, parts.2, none_, nothing, nothing] at above
  simp at above

/-- A worker whose rate is over its threshold is in the list of all that are measured. -/
theorem mem_shareQuality_of_over {worker : WorkerSeen} (member : worker ∈ reads.quality.workers)
    (enough : config.shareQualityMinTotal ≤ (qualityRow config reads worker).total)
    (room : (measured reads.quality config.shareQualityWindowMinutes config.shareQualityMinTotal
      reads.qualityNow).length ≤ 1000)
    (above : F64.lt config.maxRejectRate (rate (qualityRow config reads worker).rejectedCount
        (qualityRow config reads worker).total) = true ∨
      F64.lt config.maxStaleRate (rate (qualityRow config reads worker).staleCount
        (qualityRow config reads worker).total) = true) :
    ∃ quality ∈ listShareQualityAlerts reads.quality config.shareQualityWindowMinutes
        config.shareQualityMinTotal config.maxRejectRate config.maxStaleRate reads.qualityNow 1000,
      (quality.miner = worker.miner ∧ quality.workerName = worker.workerName) ∧
      quality.rejectRate = rate (qualityRow config reads worker).rejectedCount
        (qualityRow config reads worker).total ∧
      quality.staleRate = rate (qualityRow config reads worker).staleCount
        (qualityRow config reads worker).total := by
  have inList : qualityRow config reads worker ∈
      (measured reads.quality config.shareQualityWindowMinutes config.shareQualityMinTotal
        reads.qualityNow).take 1000 := by
    rw [List.take_of_length_le room, measured, List.mem_insertionSort, List.mem_filter]
    exact ⟨List.mem_map_of_mem member, decide_eq_true enough⟩
  generalize row_eq : qualityRow config reads worker = row at *
  have counted := total_ne_zero_of_over above
  have bad : (F64.le (rate row.rejectedCount row.total) config.maxRejectRate &&
      F64.le (rate row.staleCount row.total) config.maxStaleRate) ≠ true := by
    rcases above with above | above
    · simp [lt_of_not_le above]
    · simp [lt_of_not_le above]
  have record : shareQualityAlertFromCounts config.maxRejectRate config.maxStaleRate row =
      some
        { miner := row.miner
          workerName := row.workerName
          acceptedCount := row.acceptedCount
          rejectedCount := row.rejectedCount
          staleCount := row.staleCount
          rejectRate := rate row.rejectedCount row.total
          staleRate := rate row.staleCount row.total } := by
    rw [shareQualityAlertFromCounts, if_neg counted]
    dsimp only
    rw [if_neg bad]
  refine ⟨_, List.mem_filterMap.2 ⟨row, inList, record⟩, ?_, rfl, rfl⟩
  subst row_eq
  exact ⟨rfl, rfl⟩

/-- Within the limits, a run finds all that is due. -/
theorem Room.due_found (room : Room config reads table) (kind : AlertKind) :
    Due config reads kind ⊆ found config reads kind := by
  intro fingerprint due
  cases kind with
  | serviceHealth =>
      obtain ⟨sample, latest, failing, rfl⟩ := due
      refine List.mem_map.2 ⟨healthAlert sample, List.mem_map_of_mem (List.mem_filter.2 ⟨?_, ?_⟩),
        rfl⟩
      · rwa [latestNodeSamples, List.take_of_length_le room.samples]
      · simp [failing]
  | noAcceptedShares =>
      obtain ⟨gap, rfl⟩ := due
      exact (mem_toList_fingerprints fun _ alert => (noShareAlert_names alert).1).2 ⟨rfl, gap⟩
  | templateAge =>
      obtain ⟨⟨job, latest, aged⟩, rfl⟩ := due
      refine (mem_toList_fingerprints fun _ alert => (templateAgeAlert_names alert).1).2 ⟨rfl, ?_⟩
      rw [templateAgeAlert, latest, Option.filter_some, if_pos aged]
      rfl
  | blockSubmission =>
      obtain ⟨block, inBlocks, needs, rfl⟩ := due
      refine List.mem_map.2 ⟨blockSubmissionAlert (toBlockSubmissionAlert block),
        List.mem_map_of_mem ?_, rfl⟩
      rw [listBlockSubmissionAlerts, List.take_of_length_le room.blocks]
      exact List.mem_map_of_mem
        ((List.mem_insertionSort _).2 (List.mem_filter.2 ⟨inBlocks, needs⟩))
  | payoutStuck =>
      obtain ⟨batch, inBatches, stuck, rfl⟩ := due
      refine List.mem_map.2 ⟨payoutStuckAlert batch, List.mem_map_of_mem ?_, rfl⟩
      rw [listStuckPayoutBatches, List.take_of_length_le room.batches]
      exact (List.mem_insertionSort _).2 (List.mem_filter.2 ⟨inBatches, stuck⟩)
  | workerOffline =>
      obtain ⟨worker, inWorkers, offline, included, rfl⟩ := due
      refine List.mem_map.2 ⟨workerOfflineAlert worker,
        List.mem_map_of_mem (List.mem_filter.2 ⟨?_, by simp [included]⟩), rfl⟩
      rw [listOfflineWorkers, List.take_of_length_le room.workers]
      exact (List.mem_insertionSort _).2 (List.mem_filter.2 ⟨inWorkers, offline⟩)
  | highRejectRate =>
      obtain ⟨worker, inWorkers, enough, above, rfl⟩ := due
      obtain ⟨quality, listed, ⟨miner, name⟩, rejects, -⟩ :=
        mem_shareQuality_of_over inWorkers enough room.quality (.inl above)
      rw [mem_quality_found (.inl rfl) (kindOf_quality (.inl rfl) _ _), ← miner, ← name]
      refine List.mem_map.2 ⟨shareQualityAlert .highRejectRate quality,
        List.mem_flatMap.2 ⟨quality, listed, List.mem_append_left _ ?_⟩, rfl⟩
      rw [if_pos (rejects ▸ above)]
      exact List.mem_singleton_self _
  | highStaleRate =>
      obtain ⟨worker, inWorkers, enough, above, rfl⟩ := due
      obtain ⟨quality, listed, ⟨miner, name⟩, -, stales⟩ :=
        mem_shareQuality_of_over inWorkers enough room.quality (.inr above)
      rw [mem_quality_found (.inr rfl) (kindOf_quality (.inr rfl) _ _), ← miner, ← name]
      refine List.mem_map.2 ⟨shareQualityAlert .highStaleRate quality,
        List.mem_flatMap.2 ⟨quality, listed, List.mem_append_right _ ?_⟩, rfl⟩
      rw [if_pos (stales ▸ above)]
      exact List.mem_singleton_self _

/-- **Within the limits a run settles.** -/
theorem settles_of_room (room : Room config reads table) : Settles config reads clock table := by
  have workers : (untilWorkers config reads clock table).Sublist
      (untilQuality config reads clock table) :=
    (List.sublist_append_left _ _).trans (List.sublist_append_left _ _)
  have blocks : (untilBlocks config reads).Sublist (untilWorkers config reads clock table) :=
    ((List.sublist_append_left _ _).trans (List.sublist_append_left _ _)).trans
      (List.sublist_append_left _ _)
  refine ⟨fun kind fingerprint due missed => absurd (room.due_found kind due) missed, ?_⟩
  intro kind fingerprint of up idle
  cases kind with
  | serviceHealth =>
      obtain ⟨sample, latest, rfl⟩ := room.nodes fingerprint of up
      refine List.mem_map.2 ⟨sample, ?_, rfl⟩
      rwa [latestNodeSamples, List.take_of_length_le room.samples]
  | noAcceptedShares => exact eq_of_kindOf of (by decide) (by decide)
  | templateAge => exact eq_of_kindOf of (by decide) (by decide)
  | blockSubmission => exact room.inSight (blocks.trans workers) up
  | payoutStuck => exact absurd (room.payouts fingerprint of up) idle
  | workerOffline => exact room.inSight workers up
  | highRejectRate => exact room.inSight (List.Sublist.refl _) up
  | highStaleRate => exact room.inSight (List.Sublist.refl _) up

/-! ## A batch that moves on -/

/-- The values the code takes when the environment sets none. -/
def defaultAlertConfig : AlertConfig where
  noAcceptedShareMinutes := 10
  maxTemplateAgeSecs := 120
  blockSubmissionStuckMinutes := 10
  stuckPayoutMinutes := 60
  workerOfflineMinutes := 15
  workerOfflineExcludedPrefixes := []
  shareQualityWindowMinutes := 10
  shareQualityMinTotal := 50
  maxRejectRate := F64.ofRat (5 / 100)
  maxStaleRate := F64.ofRat (2 / 100)

/-- One payout batch that was made at the start of the clock and one node, seen two hours later. -/
def batchReads (status : PayoutStatus) (nodeOk : Bool) : AlertReads where
  collation a b := decide (a < b)
  nodeSamples := [⟨"node-a", nodeOk, 7200000000⟩]
  shareTimes := []
  shareTimesNow := 7200000000
  jobs := []
  jobsNow := 7200000000
  nodeTips := []
  blocks := []
  blocksNow := 7200000000
  batches := [⟨"batch-1", status, 0, none, none⟩]
  batchesNow := 7200000000
  workers := []
  workersNow := 7200000000
  quality := ⟨[], [], []⟩
  qualityNow := 7200000000

def sampleClock (write : Nat) : Nat := 7200000000 + write

/-- The table after a run over an empty one, in which the node fails and the batch is stuck. -/
def firstRun : AlertTable :=
  (checkAlerts defaultAlertConfig (batchReads .created false) sampleClock .empty).1

theorem firstRun_reachable : alertMachine.Reachable firstRun := by
  have stepped : alertMachine.step .empty
      (.checkAlerts defaultAlertConfig (batchReads .created false) sampleClock) = some firstRun :=
    rfl
  exact .next (.start rfl) trivial stepped

theorem firstRun_rows : ∀ row ∈ firstRun.rows,
    row.fingerprint = "health:node-a" ∨ row.fingerprint = "payout_stuck:batch-1" := by
  decide +kernel

/-- The first run shows the node that fails and the batch that is stuck.  The node answers before
the second one, which takes its alert down and keeps the other. -/
theorem converged_iff_settles_recovery :
    (Converged defaultAlertConfig (batchReads .created false) firstRun ∧
      Active firstRun "health:node-a") ∧
    Converged defaultAlertConfig (batchReads .created true)
      (checkAlerts defaultAlertConfig (batchReads .created true) sampleClock firstRun).1 ∧
    ¬ Active (checkAlerts defaultAlertConfig (batchReads .created true) sampleClock firstRun).1
      "health:node-a" := by
  have first : Room defaultAlertConfig (batchReads .created false) .empty :=
    { samples := by decide +kernel
      blocks := by decide +kernel
      batches := by decide +kernel
      workers := by decide +kernel
      quality := by decide +kernel
      listed := by decide +kernel
      nodes := by
        rintro fingerprint - ⟨row, known, -⟩
        cases known
      payouts := by
        rintro fingerprint - ⟨row, known, -⟩
        cases known }
  have second : Room defaultAlertConfig (batchReads .created true) firstRun :=
    { samples := by decide +kernel
      blocks := by decide +kernel
      batches := by decide +kernel
      workers := by decide +kernel
      quality := by decide +kernel
      listed := by decide +kernel
      nodes := by
        rintro fingerprint of ⟨row, known, -⟩
        obtain rfl : row.fingerprint = fingerprint := Table.key_of_find? known
        rcases firstRun_rows row (Table.mem_of_find? known) with own | own
        · exact ⟨⟨"node-a", true, 7200000000⟩, by decide +kernel, own.symm⟩
        · exact absurd (own ▸ of) (show ¬ KindOf "payout_stuck:batch-1" .serviceHealth by decide)
      payouts := by
        rintro fingerprint of ⟨row, known, -⟩
        obtain rfl : row.fingerprint = fingerprint := Table.key_of_find? known
        rcases firstRun_rows row (Table.mem_of_find? known) with own | own
        · exact absurd (own ▸ of) (show ¬ KindOf "health:node-a" .payoutStuck by decide)
        · exact ⟨⟨"batch-1", .created, 0, none, none⟩, List.mem_singleton_self _,
            by decide +kernel, own.symm⟩ }
  have start : alertMachine.Reachable .empty := .start rfl
  exact ⟨⟨(converged_iff_settles _ _ _ start).2 (settles_of_room first), by decide +kernel⟩,
    (converged_iff_settles _ _ _ firstRun_reachable).2 (settles_of_room second),
    by decide +kernel⟩

/-- The batch is confirmed before the second run, and its alert stays up. -/
theorem payout_alert_outlives_batch :
    ¬ ∀ config reads clock table, alertMachine.Reachable table →
      Converged config reads (checkAlerts config reads clock table).1 := by
  intro claim
  have shown := claim defaultAlertConfig (batchReads .confirmed false) sampleClock firstRun
    firstRun_reachable .payoutStuck "payout_stuck:batch-1"
  have up : ∃ row ∈ (checkAlerts defaultAlertConfig (batchReads .confirmed false) sampleClock
      firstRun).1.rows, row.fingerprint = "payout_stuck:batch-1" ∧ row.kind = .payoutStuck ∧
        row.status = .active := by
    decide +kernel
  obtain ⟨batch, member, stuck, -⟩ := shown.1 up
  cases List.mem_singleton.1 member
  revert stuck
  decide +kernel

end CsdPool.Alerts
