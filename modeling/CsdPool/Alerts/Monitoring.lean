/-
# Alerts.Monitoring — what an alert run reads

The queries of `MonitoringRepository` that decide the alerts, each over the columns it reads and
with the time of its own statement.  A query that takes a limit is the rows that meet its
condition, in its order, cut off; the condition is a definition of its own (`stuck`, `offline`,
`needsAttention`, `measured`), since the limits and the conditions are what the runs confuse.
Times count microseconds.
-/
import CsdPool.Db.Blocks
import CsdPool.Text
import CsdPool.Theory.Binary64
import Mathlib.Data.List.Sort

namespace CsdPool.Alerts

open Theory

set_option autoImplicit false

/-- `now() - (minutes || ' minutes')::interval`, compared with a time; no less than a minute. -/
def olderThan (time : Nat) (minutes : Int) (now : Nat) : Bool :=
  time + (max minutes 1).toNat * 60000000 < now

/-! ## Node samples -/

/-- A node's answer to one health check. -/
structure NodeSampleRecord where
  nodeName : String
  ok : Bool
  sampledAt : Nat
  deriving DecidableEq, Repr

/-- `distinct on`: the first row of each key. -/
def distinctOn {α β : Type} [DecidableEq β] (key : α → β) : List α → List α
  | [] => []
  | row :: rest => row :: (distinctOn key rest).filter fun other => key other ≠ key row

/-- The latest sample of each node; `before` is the database's order of texts. -/
def latestSamples (before : String → String → Bool) (samples : List NodeSampleRecord) :
    List NodeSampleRecord :=
  distinctOn NodeSampleRecord.nodeName (samples.insertionSort fun a b =>
    a.nodeName ≠ b.nodeName ∧ before a.nodeName b.nodeName ∨
      a.nodeName = b.nodeName ∧ b.sampledAt ≤ a.sampledAt)

/-- The last sample of each node, of the first nodes by name. -/
def latestNodeSamples (before : String → String → Bool) (samples : List NodeSampleRecord)
    (limit : Nat) : List NodeSampleRecord :=
  (latestSamples before samples).take limit

/-! ## Accepted shares and jobs -/

structure AcceptedShareGapRecord where
  latestShareAt : Nat
  quietMinutes : Int
  deriving DecidableEq, Repr

/-- The time since the last accepted share, if that is too long. -/
def acceptedShareGap (createdAt : List Nat) (quietMinutes : Int) (now : Nat) :
    Option AcceptedShareGapRecord :=
  createdAt.max?.bind fun latest =>
    if olderThan latest quietMinutes now then some ⟨latest, max quietMinutes 1⟩ else none

structure JobTimes where
  id : String
  prevHash : String
  createdAt : Nat
  deriving DecidableEq, Repr

structure LatestJobRecord where
  jobId : String
  prevHash : String
  ageSeconds : Nat
  deriving DecidableEq, Repr

/-- `greatest(0, extract(epoch from now() - created_at)::bigint)`. -/
def ageSeconds (createdAt now : Nat) : Nat := (now - createdAt + 500000) / 1000000

/-- `order by created_at desc, id desc limit 1`. -/
def latestJob (before : String → String → Bool) (jobs : List JobTimes) (now : Nat) :
    Option LatestJobRecord :=
  (jobs.insertionSort fun a b =>
    b.createdAt < a.createdAt ∨ b.createdAt = a.createdAt ∧ before b.id a.id).head?.map fun job =>
      ⟨job.id, job.prevHash, ageSeconds job.createdAt now⟩

/-! ## Blocks -/

/-- `submitOk` is the answer's `ok`, if the stored answer has one. -/
structure SubmittedBlock where
  hash : Option String
  status : BlockStatus
  submittedAt : Option Nat
  submitOk : Option Bool
  deriving DecidableEq, Repr

structure BlockSubmissionAlertRecord where
  hashHex : String
  status : BlockStatus
  submitOk : Option Bool
  reason : String
  deriving DecidableEq, Repr

/-- A block that was submitted and not seen on the chain since, if its submission went wrong in part
or is too old. -/
def needsAttention (stuckMinutes : Int) (now : Nat) (block : SubmittedBlock) : Bool :=
  [BlockStatus.submitted, .submittedSecondary, .submittedDegraded, .relayFailed].contains
      block.status &&
    ([BlockStatus.submittedSecondary, .submittedDegraded, .relayFailed].contains block.status ||
      block.submitOk = some false ||
      block.submittedAt.any fun submitted => olderThan submitted stuckMinutes now)

def toBlockSubmissionAlert (block : SubmittedBlock) : BlockSubmissionAlertRecord where
  hashHex := block.hash.getD ""
  status := block.status
  submitOk := block.submitOk
  reason :=
    if block.status = .relayFailed then "local_canonical_relay_failed"
    else if block.status = .submittedSecondary then "authority_failed_secondary_accepted"
    else if block.status = .submittedDegraded then "redundant_relay_failed"
    else if block.submitOk = some false then "submit_response_not_ok"
    else "submitted_too_old"

/-- The blocks that need attention, the earliest submission first. -/
def submissionAlerts (blocks : List SubmittedBlock) (stuckMinutes : Int) (now : Nat) :
    List BlockSubmissionAlertRecord :=
  ((blocks.filter (needsAttention stuckMinutes now)).insertionSort fun a b =>
    ascNullsLast a.submittedAt b.submittedAt).map toBlockSubmissionAlert

def listBlockSubmissionAlerts (blocks : List SubmittedBlock) (stuckMinutes : Int) (now limit : Nat) :
    List BlockSubmissionAlertRecord :=
  (submissionAlerts blocks stuckMinutes now).take limit

/-! ## Payout batches -/

structure BatchTimes where
  id : String
  status : PayoutStatus
  createdAt : Nat
  signedAt : Option Nat
  submittedAt : Option Nat
  deriving DecidableEq, Repr

/-- `coalesce(submitted_at, signed_at, created_at)`. -/
def BatchTimes.latest (batch : BatchTimes) : Nat :=
  (batch.submittedAt <|> batch.signedAt).getD batch.createdAt

/-- A batch that is on its way and has not moved for too long. -/
def stuck (olderThanMinutes : Int) (now : Nat) (batch : BatchTimes) : Bool :=
  [PayoutStatus.created, .signed, .submitted].contains batch.status &&
    olderThan batch.latest olderThanMinutes now

/-- The stuck batches, the oldest first. -/
def stuckBatches (before : String → String → Bool) (batches : List BatchTimes)
    (olderThanMinutes : Int) (now : Nat) : List BatchTimes :=
  (batches.filter (stuck olderThanMinutes now)).insertionSort fun a b =>
    a.latest < b.latest ∨ a.latest = b.latest ∧ before a.id b.id

def listStuckPayoutBatches (before : String → String → Bool) (batches : List BatchTimes)
    (olderThanMinutes : Int) (now limit : Nat) : List BatchTimes :=
  (stuckBatches before batches olderThanMinutes now).take limit

/-! ## Workers -/

/-- The rows of `workers`, in the order of their ids, with their miners' addresses. -/
structure WorkerSeen where
  id : Nat
  miner : Address
  workerName : String
  lastSeenAt : Option Nat
  deriving DecidableEq, Repr

/-- A worker that was last seen too long ago. -/
def offline (offlineMinutes : Int) (now : Nat) (worker : WorkerSeen) : Bool :=
  worker.lastSeenAt.any fun seen => olderThan seen offlineMinutes now

/-- The workers that are offline, the longest first. -/
def offlineWorkers (workers : List WorkerSeen) (offlineMinutes : Int) (now : Nat) :
    List WorkerSeen :=
  (workers.filter (offline offlineMinutes now)).insertionSort fun a b =>
    ascNullsLast a.lastSeenAt b.lastSeenAt

def listOfflineWorkers (workers : List WorkerSeen) (offlineMinutes : Int) (now limit : Nat) :
    List WorkerSeen :=
  (offlineWorkers workers offlineMinutes now).take limit

/-- A name that begins with one of the prefixes raises no alert. -/
def workerOfflineAlertExcluded (workerName : String) (prefixes : List String) : Bool :=
  prefixes.any fun pattern => (stripPrefix pattern workerName).isSome

/-! ## Share quality -/

inductive ShareEventKind
  | rejected
  | stale
  deriving DecidableEq, Repr

structure ShareTables where
  workers : List WorkerSeen
  /-- The worker and the time of each accepted share. -/
  shares : List (Nat × Nat)
  shareEvents : List (Nat × ShareEventKind × Nat)

structure ShareQualityRow where
  miner : Address
  workerName : String
  acceptedCount : Nat
  rejectedCount : Nat
  staleCount : Nat
  lastSeenAt : Option Nat
  deriving DecidableEq, Repr

/-- Accepted, rejected and stale shares together. -/
def ShareQualityRow.total (row : ShareQualityRow) : Nat :=
  row.acceptedCount + row.rejectedCount + row.staleCount

/-- The counts of one worker within the window. -/
def shareQualityRow (tables : ShareTables) (windowMinutes : Int) (now : Nat)
    (worker : WorkerSeen) : ShareQualityRow :=
  let counts (kind : ShareEventKind) : Nat := (tables.shareEvents.filter fun event =>
    event.1 = worker.id ∧ event.2.1 = kind ∧ ¬ olderThan event.2.2 windowMinutes now).length
  { miner := worker.miner
    workerName := worker.workerName
    acceptedCount := (tables.shares.filter fun share =>
      share.1 = worker.id ∧ ¬ olderThan share.2 windowMinutes now).length
    rejectedCount := counts .rejected
    staleCount := counts .stale
    lastSeenAt := worker.lastSeenAt }

structure ShareQualityAlertRecord where
  miner : Address
  workerName : String
  acceptedCount : Nat
  rejectedCount : Nat
  staleCount : Nat
  rejectRate : F64
  staleRate : F64
  deriving DecidableEq

/-- A share of the total, in floating point. -/
def rate (count total : Nat) : F64 := F64.div (F64.ofNat count) (F64.ofNat total)

/-- A worker one of whose rates is too high. -/
def shareQualityAlertFromCounts (maxRejectRate maxStaleRate : F64) (row : ShareQualityRow) :
    Option ShareQualityAlertRecord :=
  if row.total = 0 then none
  else
    let rejectRate := rate row.rejectedCount row.total
    let staleRate := rate row.staleCount row.total
    if F64.le rejectRate maxRejectRate && F64.le staleRate maxStaleRate then none
    else some
      { miner := row.miner
        workerName := row.workerName
        acceptedCount := row.acceptedCount
        rejectedCount := row.rejectedCount
        staleCount := row.staleCount
        rejectRate, staleRate }

/-- The part of a worker's shares in the window that was not accepted. -/
def ShareQualityRow.lost (row : ShareQualityRow) : ℚ :=
  (row.rejectedCount + row.staleCount : Nat) / (max row.total 1 : Nat)

/-- `desc nulls last`. -/
def descNullsLast : Option Nat → Option Nat → Bool
  | some a, some b => b ≤ a
  | some _, none => true
  | none, some _ => false
  | none, none => true

/-- The workers with enough shares in the window, the worst first. -/
def measured (tables : ShareTables) (windowMinutes : Int) (minTotal now : Nat) :
    List ShareQualityRow :=
  ((tables.workers.map (shareQualityRow tables windowMinutes now)).filter fun row =>
    minTotal ≤ row.total).insertionSort fun a b =>
      b.lost < a.lost ∨ b.lost = a.lost ∧ descNullsLast a.lastSeenAt b.lastSeenAt

/-- The workers with enough shares in the window and a rate that is too high. -/
def listShareQualityAlerts (tables : ShareTables) (windowMinutes : Int) (minTotal : Nat)
    (maxRejectRate maxStaleRate : F64) (now limit : Nat) : List ShareQualityAlertRecord :=
  ((measured tables windowMinutes minTotal now).take limit).filterMap
    (shareQualityAlertFromCounts maxRejectRate maxStaleRate)

/-! ## The unlimited lists -/

/-- One row for each key. -/
theorem distinctOn_nodup {α β : Type} [DecidableEq β] (key : α → β) (rows : List α) :
    ((distinctOn key rows).map key).Nodup := by
  induction rows with
  | nil => exact List.nodup_nil
  | cons row rest ih =>
      rw [distinctOn, List.map_cons, List.nodup_cons]
      refine ⟨?_, ih.sublist (List.filter_sublist.map key)⟩
      rw [List.mem_map]
      rintro ⟨other, member, same⟩
      simpa [same] using (List.mem_filter.1 member).2

end CsdPool.Alerts
