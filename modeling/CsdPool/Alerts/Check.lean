/-
# Alerts.Check — one run of `check_alerts`

A run takes the kinds of alerts in turn.  It raises the alerts it found, at most as many as its
query's limit, and then takes others down: the health alerts of the nodes it looked at, and, for
blocks, workers and share quality, those of the thousand alerts seen last that it did not find.
Nothing takes a `payout_stuck` alert down.
-/
import CsdPool.Alerts.Events
import CsdPool.Alerts.Monitoring
import CsdPool.Bridge.NodeTips
import CsdPool.Theory.Machine

namespace CsdPool.Alerts

open Theory

set_option autoImplicit false

/-- The settings of a run, as the worker reads them from its environment. -/
structure AlertConfig where
  noAcceptedShareMinutes : Int
  maxTemplateAgeSecs : Nat
  blockSubmissionStuckMinutes : Int
  stuckPayoutMinutes : Int
  workerOfflineMinutes : Int
  workerOfflineExcludedPrefixes : List String
  shareQualityWindowMinutes : Int
  shareQualityMinTotal : Nat
  maxRejectRate : F64
  maxStaleRate : F64

/-- What each query of a run reads, with the time of its statement; `nodeTips` are the tips that
the configured nodes answer with, and `collation` is the database's order of texts. -/
structure AlertReads where
  collation : String → String → Bool
  nodeSamples : List NodeSampleRecord
  shareTimes : List Nat
  shareTimesNow : Nat
  jobs : List JobTimes
  jobsNow : Nat
  nodeTips : List (Option String)
  blocks : List SubmittedBlock
  blocksNow : Nat
  batches : List BatchTimes
  batchesNow : Nat
  workers : List WorkerSeen
  workersNow : Nat
  quality : ShareTables
  qualityNow : Nat

/-! ## Fingerprints -/

/-- A fingerprint is what an alert is raised and taken down by. It names the kind and the subject,
and nothing of what was found, so that a second finding meets the row of the first. -/
def healthFingerprint (nodeName : String) : String := "health:" ++ nodeName
def noShareFingerprint : String := "no_accepted_shares"
def templateAgeFingerprint : String := "template_age"
def blockSubmissionFingerprint (hashHex : String) : String := "block_submission:" ++ hashHex
def payoutStuckFingerprint (batchId : String) : String := "payout_stuck:" ++ batchId

def workerOfflineFingerprint (miner workerName : String) : String :=
  "worker_offline:" ++ miner ++ ":" ++ workerName

/-- A worker may have both quality alerts, each under the name of its own kind. -/
def shareQualityFingerprint (kind : AlertKind) (miner workerName : String) : String :=
  kind.asStr ++ ":" ++ miner ++ ":" ++ workerName

/-! ## The alerts a run raises -/

variable (config : AlertConfig) (reads : AlertReads)

/-- The alert of a node whose latest sample is not ok. -/
def healthAlert (sample : NodeSampleRecord) : AlertDraft where
  fingerprint := healthFingerprint sample.nodeName
  severity := .critical
  kind := .serviceHealth
  subject := sample.nodeName

/-- Raised when the last accepted share is too long ago; a pool that never had a share has no such
alert. -/
def noShareAlert : Option AlertDraft :=
  (acceptedShareGap reads.shareTimes config.noAcceptedShareMinutes reads.shareTimesNow).map
    fun _ =>
      { fingerprint := noShareFingerprint
        severity := .critical
        kind := .noAcceptedShares
        subject := "pool" }

/-- Some configured node answers with the parent of the job as its tip. -/
def jobMatchesAnyNodeTip (tips : List (Option String)) (job : LatestJobRecord) : Bool :=
  tips.any fun tip => tip.any fun tip => Bridge.nodeTipMatchesJobPrevHash tip job.prevHash

/-- A job past its age that no node's tip bears out. On a chain without new blocks the latest job
may be old and still good. -/
def templateAged (job : LatestJobRecord) : Bool :=
  config.maxTemplateAgeSecs < job.ageSeconds && !jobMatchesAnyNodeTip reads.nodeTips job

def templateAgeAlert : Option AlertDraft :=
  ((latestJob reads.collation reads.jobs reads.jobsNow).filter (templateAged config reads)).map
    fun job =>
      { fingerprint := templateAgeFingerprint
        severity := .critical
        kind := .templateAge
        subject := job.jobId }

def blockSubmissionAlert (block : BlockSubmissionAlertRecord) : AlertDraft where
  fingerprint := blockSubmissionFingerprint block.hashHex
  severity := .critical
  kind := .blockSubmission
  subject := block.hashHex

/-- Of the blocks whose submission is stuck, the first hundred. -/
def blockSubmissionAlerts : List AlertDraft :=
  (listBlockSubmissionAlerts reads.blocks config.blockSubmissionStuckMinutes reads.blocksNow
    100).map blockSubmissionAlert

def payoutStuckAlert (batch : BatchTimes) : AlertDraft where
  fingerprint := payoutStuckFingerprint batch.id
  severity := .warning
  kind := .payoutStuck
  subject := batch.id

/-- Of the batches that do not get on, the first hundred; nothing resolves these alerts. -/
def payoutStuckAlerts : List AlertDraft :=
  (listStuckPayoutBatches reads.collation reads.batches config.stuckPayoutMinutes
    reads.batchesNow 100).map payoutStuckAlert

def workerOfflineAlert (worker : WorkerSeen) : AlertDraft where
  fingerprint := workerOfflineFingerprint worker.miner worker.workerName
  severity := .warning
  kind := .workerOffline
  subject := worker.miner ++ "." ++ worker.workerName

/-- The excluded workers are dropped after the limit of the query, so they use up places of it. -/
def workerOfflineAlerts : List AlertDraft :=
  ((listOfflineWorkers reads.workers config.workerOfflineMinutes reads.workersNow 1000).filter
    fun worker => !workerOfflineAlertExcluded worker.workerName
      config.workerOfflineExcludedPrefixes).map workerOfflineAlert

def shareQualityAlert (kind : AlertKind) (quality : ShareQualityAlertRecord) : AlertDraft where
  fingerprint := shareQualityFingerprint kind quality.miner quality.workerName
  severity := .warning
  kind := kind
  subject := quality.miner ++ "." ++ quality.workerName

/-- The limit is on the workers that are measured. Which of the two alerts one of them gets is
decided afterwards, by its two rates. -/
def shareQualityAlerts : List AlertDraft :=
  (listShareQualityAlerts reads.quality config.shareQualityWindowMinutes
    config.shareQualityMinTotal config.maxRejectRate config.maxStaleRate reads.qualityNow
    1000).flatMap fun quality =>
      (if F64.lt config.maxRejectRate quality.rejectRate then
        [shareQualityAlert .highRejectRate quality] else []) ++
      if F64.lt config.maxStaleRate quality.staleRate then
        [shareQualityAlert .highStaleRate quality] else []

/-! ## The run -/

/-- The table in the course of a run, and how many writes the run has made. -/
structure Run where
  table : AlertTable
  writes : Nat

/-- `clock` is the time of each write. -/
def Run.upsert (clock : Nat → Nat) (run : Run) (alert : AlertDraft) : Run :=
  ⟨upsertAlert run.table alert (clock run.writes), run.writes + 1⟩

/-- A write of its own, also where there is nothing to resolve. -/
def Run.resolve (clock : Nat → Nat) (run : Run) (fingerprint : String) : Run :=
  ⟨(resolveAlert run.table fingerprint (clock run.writes)).1, run.writes + 1⟩

def Run.raiseAll (clock : Nat → Nat) (run : Run) (alerts : List AlertDraft) : Run :=
  alerts.foldl (Run.upsert clock) run

/-- For the kinds that have a single alert: it is taken down by its fingerprint, without a list. -/
def Run.raiseOrResolve (clock : Nat → Nat) (run : Run) (alert : Option AlertDraft)
    (fingerprint : String) : Run :=
  match alert with
  | some alert => run.upsert clock alert
  | none => run.resolve clock fingerprint

/-- Each node that has a sample gets its alert raised or taken down; the alerts of others stay. -/
def Run.checkHealth (clock : Nat → Nat) (run : Run) (samples : List NodeSampleRecord) : Run :=
  samples.foldl (fun run sample =>
    if sample.ok then run.resolve clock (healthFingerprint sample.nodeName)
    else run.upsert clock (healthAlert sample)) run

/-- The alerts a sweep lists. -/
def Run.listed (run : Run) : List AlertEvent := listAlerts run.table (some .active) 1000

/-- Of the alerts listed, those of the kinds that are not to be kept are resolved. -/
def Run.resolveOthers (clock : Nat → Nat) (run : Run) (kinds : AlertKind → Bool)
    (kept : List AlertDraft) : Run :=
  run.listed.foldl (fun run alert =>
    if kinds alert.kind && !(kept.map AlertDraft.fingerprint).contains alert.fingerprint then
      run.resolve clock alert.fingerprint
    else run) run

variable (clock : Nat → Nat) (table : AlertTable)

/-- The stages of a run, each from the one before it. -/
def healthChecked : Run :=
  Run.checkHealth clock ⟨table, 0⟩ (latestNodeSamples reads.collation reads.nodeSamples 100)

def templateChecked : Run :=
  ((healthChecked reads clock table).raiseOrResolve clock (noShareAlert config reads)
    noShareFingerprint).raiseOrResolve clock (templateAgeAlert config reads)
      templateAgeFingerprint

def blocksRaised : Run :=
  (templateChecked config reads clock table).raiseAll clock (blockSubmissionAlerts config reads)

def blocksChecked : Run :=
  (blocksRaised config reads clock table).resolveOthers clock (· = .blockSubmission)
    (blockSubmissionAlerts config reads)

/-- The stuck batches are raised, and no sweep follows. -/
def payoutsRaised : Run :=
  (blocksChecked config reads clock table).raiseAll clock (payoutStuckAlerts config reads)

def workersRaised : Run :=
  (payoutsRaised config reads clock table).raiseAll clock (workerOfflineAlerts config reads)

def workersChecked : Run :=
  (workersRaised config reads clock table).resolveOthers clock (· = .workerOffline)
    (workerOfflineAlerts config reads)

def qualityRaised : Run :=
  (workersChecked config reads clock table).raiseAll clock (shareQualityAlerts config reads)

def qualityChecked : Run :=
  (qualityRaised config reads clock table).resolveOthers clock
    (fun kind => kind = .highRejectRate ∨ kind = .highStaleRate) (shareQualityAlerts config reads)

/-- What a run reports: the alerts that are active at its end, at most a hundred of them, and the
fingerprints it raised. -/
structure CheckAlertsRun where
  activeCount : Nat
  activeFingerprints : List String
  alerts : List AlertEvent

/-- The whole run: the table it leaves, and its report. -/
def checkAlerts : AlertTable × CheckAlertsRun :=
  let table := (qualityChecked config reads clock table).table
  let alerts := listAlerts table (some .active) 100
  let failing := (latestNodeSamples reads.collation reads.nodeSamples 100).filter (!·.ok)
  (table,
    { activeCount := alerts.length
      activeFingerprints :=
        (failing.map healthAlert ++ (noShareAlert config reads).toList ++
          (templateAgeAlert config reads).toList ++ blockSubmissionAlerts config reads ++
          payoutStuckAlerts config reads ++ workerOfflineAlerts config reads ++
          shareQualityAlerts config reads).map AlertDraft.fingerprint
      alerts })

end CsdPool.Alerts
