/-
# PoolState — what the pool counts

The shared counters behind the pool's API and metrics.  Sessions, the job loop and the candidate
path call them under one lock; a snapshot copies them.  `PoolEntry` is one call with the readings
of the clock it made, and the state is the fold of the calls over the empty state.

The snapshot is a function of the calls that `totalsOf` and `workerOf` write down without the
state: every counter is a number of calls, every sum is the sum of its values in their order, the
round begins after the last candidate and the window is what is recent (`snapshot_of_calls`).
That is where the calls are those of guards that are dropped once and the clock does not go back.
The open connections and the window need that; the other totals and the workers are the same
functions of any calls (`find_after`, `sumsWorkers`).

Counters are 64 bits wide and wrap; timestamps are seconds.
-/
import CsdPool.Bridge.Vardiff
import CsdPool.Theory.Grouping
import CsdPool.Theory.Journal
import CsdPool.Theory.Table
import Mathlib.Data.Finset.Card
import Mathlib.Data.Finset.Dedup
import Mathlib.Data.List.DropRight

namespace CsdPool

open Theory (F64 Keyed Table)
open Theory.Journal
open Bridge (asSecsF64)

set_option autoImplicit false

def difficultyOneHashes : F64 := .finite 4294967296

def hashrateWindowSecs : Nat := 300

structure TimingStats where
  sum : F64 := .finite 0
  max : F64 := .finite 0
  deriving DecidableEq

/-- Durations are nanoseconds. -/
def TimingStats.record (stats : TimingStats) (elapsed : Nat) : TimingStats :=
  let seconds := asSecsF64 elapsed
  { sum := stats.sum.add seconds, max := stats.max.max seconds }

structure WorkerSnapshot where
  sharesAccepted : UInt64 := 0
  sharesRejected : UInt64 := 0
  sharesStale : UInt64 := 0
  blocksFound : UInt64 := 0
  lastDifficulty : F64 := .finite 0
  lastSeenTs : Nat := 0
  shareDifficultySum : F64 := .finite 0
  firstShareTs : Option Nat := none
  lastShareTs : Option Nat := none
  deriving DecidableEq

/-- An entry of the map of workers. -/
structure WorkerEntry where
  address : Address
  worker : WorkerSnapshot
  deriving DecidableEq

instance instKeyedWorkerEntry : Keyed WorkerEntry Address := ⟨WorkerEntry.address⟩

/-- A share that was accepted, as the round and the window count it. -/
structure ShareSample where
  address : Address
  difficulty : F64
  isBlockCandidate : Bool
  timestamp : Nat
  deriving DecidableEq

/-- `difficulty.max(0.0)`. -/
def ShareSample.work (sample : ShareSample) : F64 := sample.difficulty.max (.finite 0)

structure PoolState where
  workers : Table WorkerEntry := .empty
  sharesAccepted : UInt64 := 0
  sharesRejected : UInt64 := 0
  sharesStale : UInt64 := 0
  staleNotifyDeliveryLag : UInt64 := 0
  staleMinerSwitchLag : UInt64 := 0
  staleGenerationUnclassified : UInt64 := 0
  blocksFound : UInt64 := 0
  stratumConnections : UInt64 := 0
  shareValidationCount : UInt64 := 0
  shareValidationSecondsSum : F64 := .finite 0
  candidatePropagationCount : UInt64 := 0
  candidateDetectedToSubmit : TimingStats := {}
  candidateNodeRoundtrip : TimingStats := {}
  candidateRecord : TimingStats := {}
  candidateTotal : TimingStats := {}
  candidateNodeAcceptCount : UInt64 := 0
  candidateNodeAccept : TimingStats := {}
  candidateRelayEnqueueCount : UInt64 := 0
  candidateRelayEnqueue : TimingStats := {}
  jobNotifyCount : UInt64 := 0
  jobTipChangeCount : UInt64 := 0
  jobHeartbeatCount : UInt64 := 0
  lastJobNotifyTs : Option Nat := none
  shareDifficultySum : F64 := .finite 0
  roundShareDifficultySum : F64 := .finite 0
  /-- A sample of the source is its timestamp and its work. -/
  recentAcceptedShares : List ShareSample := []
  firstShareTs : Option Nat := none
  lastShareTs : Option Nat := none
  updatedTs : Nat := 0

/-- The durations of one candidate's way to the node. -/
structure CandidatePropagation where
  detectedToSubmitStart : Nat
  nodeRoundtrip : Nat
  candidateRecord : Nat
  total : Nat
  nodeAccept : Option Nat
  relayEnqueue : Option Nat
  deriving DecidableEq, Repr

namespace PoolState

/-- `workers.entry(address).or_default()`. -/
def worker (state : PoolState) (address : Address) : WorkerSnapshot :=
  ((state.workers.find? address).map WorkerEntry.worker).getD {}

def putWorker (state : PoolState) (address : Address) (worker : WorkerSnapshot) : PoolState :=
  { state with workers := state.workers.put ⟨address, worker⟩ }

def openConnection (state : PoolState) (now : Nat) : PoolState :=
  { state with stratumConnections := state.stratumConnections + 1, updatedTs := now }

/-- `saturating_sub(1)`. -/
def recordConnectionClosed (state : PoolState) (now : Nat) : PoolState :=
  { state with
    stratumConnections :=
      if state.stratumConnections = 0 then 0 else state.stratumConnections - 1
    updatedTs := now }

/-- Two readings of the clock, as in every call on a worker but the accepted share. -/
def recordAuthorizedWorker (state : PoolState) (address : Address) (now now' : Nat) : PoolState :=
  { state.putWorker address { state.worker address with lastSeenTs := now } with updatedTs := now' }

def recordShareAccepted (state : PoolState) (sample : ShareSample) : PoolState :=
  let now := sample.timestamp
  let worker := state.worker sample.address
  { state.putWorker sample.address
      { worker with
        sharesAccepted := worker.sharesAccepted + 1
        lastDifficulty := sample.difficulty
        lastSeenTs := now
        firstShareTs := some (worker.firstShareTs.getD now)
        lastShareTs := some now
        shareDifficultySum := worker.shareDifficultySum.add sample.work
        blocksFound :=
          if sample.isBlockCandidate then worker.blocksFound + 1 else worker.blocksFound } with
    recentAcceptedShares :=
      push hashrateWindowSecs ShareSample.timestamp state.recentAcceptedShares sample
    blocksFound := if sample.isBlockCandidate then state.blocksFound + 1 else state.blocksFound
    sharesAccepted := state.sharesAccepted + 1
    firstShareTs := some (state.firstShareTs.getD now)
    lastShareTs := some now
    shareDifficultySum := state.shareDifficultySum.add sample.work
    roundShareDifficultySum :=
      if sample.isBlockCandidate then .finite 0
      else state.roundShareDifficultySum.add sample.work
    updatedTs := now }

def recordShareRejected (state : PoolState) (address : Address) (now now' : Nat) : PoolState :=
  let worker := state.worker address
  { state.putWorker address
      { worker with sharesRejected := worker.sharesRejected + 1, lastSeenTs := now } with
    sharesRejected := state.sharesRejected + 1
    updatedTs := now' }

def recordShareStale (state : PoolState) (address : Address) (now now' : Nat) : PoolState :=
  let worker := state.worker address
  { state.putWorker address
      { worker with sharesStale := worker.sharesStale + 1, lastSeenTs := now } with
    sharesStale := state.sharesStale + 1
    updatedTs := now' }

/-- The arms of the source's match, one counter each. -/
def recordStaleGenerationFence (state : PoolState) (reason : String) (now : Nat) : PoolState :=
  { state with
    staleNotifyDeliveryLag :=
      if reason = "notify_delivery_lag" then state.staleNotifyDeliveryLag + 1
      else state.staleNotifyDeliveryLag
    staleMinerSwitchLag :=
      if reason = "miner_switch_lag" then state.staleMinerSwitchLag + 1
      else state.staleMinerSwitchLag
    staleGenerationUnclassified :=
      if reason ≠ "notify_delivery_lag" ∧ reason ≠ "miner_switch_lag" then
        state.staleGenerationUnclassified + 1
      else state.staleGenerationUnclassified
    updatedTs := now }

def recordShareValidation (state : PoolState) (elapsed now : Nat) : PoolState :=
  { state with
    shareValidationCount := state.shareValidationCount + 1
    shareValidationSecondsSum := state.shareValidationSecondsSum.add (asSecsF64 elapsed)
    updatedTs := now }

def recordCandidatePropagation (state : PoolState) (times : CandidatePropagation) (now : Nat) :
    PoolState :=
  { state with
    candidatePropagationCount := state.candidatePropagationCount + 1
    candidateDetectedToSubmit := state.candidateDetectedToSubmit.record times.detectedToSubmitStart
    candidateNodeRoundtrip := state.candidateNodeRoundtrip.record times.nodeRoundtrip
    candidateRecord := state.candidateRecord.record times.candidateRecord
    candidateTotal := state.candidateTotal.record times.total
    candidateNodeAcceptCount :=
      times.nodeAccept.elim state.candidateNodeAcceptCount fun _ =>
        state.candidateNodeAcceptCount + 1
    candidateNodeAccept :=
      times.nodeAccept.elim state.candidateNodeAccept state.candidateNodeAccept.record
    candidateRelayEnqueueCount :=
      times.relayEnqueue.elim state.candidateRelayEnqueueCount fun _ =>
        state.candidateRelayEnqueueCount + 1
    candidateRelayEnqueue :=
      times.relayEnqueue.elim state.candidateRelayEnqueue state.candidateRelayEnqueue.record
    updatedTs := now }

def recordJobNotify (state : PoolState) (reason : String) (now now' : Nat) : PoolState :=
  { state with
    jobNotifyCount := state.jobNotifyCount + 1
    jobHeartbeatCount :=
      if reason = "heartbeat" then state.jobHeartbeatCount + 1 else state.jobHeartbeatCount
    jobTipChangeCount :=
      if reason = "tip_change" then state.jobTipChangeCount + 1 else state.jobTipChangeCount
    lastJobNotifyTs := some now
    updatedTs := now' }

end PoolState

/-! ## Snapshots -/

structure TotalsSnapshot where
  workersOnline : UInt64
  sharesAccepted : UInt64
  sharesRejected : UInt64
  sharesStale : UInt64
  staleNotifyDeliveryLag : UInt64
  staleMinerSwitchLag : UInt64
  staleGenerationUnclassified : UInt64
  blocksFound : UInt64
  stratumConnections : UInt64
  shareValidationCount : UInt64
  shareValidationSecondsSum : F64
  candidatePropagationCount : UInt64
  candidateDetectedToSubmit : TimingStats
  candidateNodeRoundtrip : TimingStats
  candidateRecord : TimingStats
  candidateTotal : TimingStats
  candidateNodeAcceptCount : UInt64
  candidateNodeAccept : TimingStats
  candidateRelayEnqueueCount : UInt64
  candidateRelayEnqueue : TimingStats
  jobNotifyCount : UInt64
  jobTipChangeCount : UInt64
  jobHeartbeatCount : UInt64
  lastJobNotifyTs : Option Nat
  shareDifficultySum : F64
  roundShareDifficultySum : F64
  poolHashrateHs : F64
  deriving DecidableEq

structure PoolSnapshot where
  workers : Table WorkerEntry
  totals : TotalsSnapshot
  updatedTs : Nat

/-- The sum of these, from the left. -/
def workSum (samples : List ShareSample) : F64 :=
  samples.foldl (fun sum sample => sum.add sample.work) (.finite 0)

def rollingHashrate (samples : List ShareSample) : F64 :=
  match samples.head?, samples.getLast? with
  | some first, some last =>
      let elapsed := max (last.timestamp - first.timestamp) 1
      ((workSum samples).mul difficultyOneHashes).div (.ofNat elapsed)
  | _, _ => .finite 0

def PoolState.snapshot (state : PoolState) : PoolSnapshot where
  workers := state.workers
  totals :=
    { workersOnline := .ofNat state.workers.rows.length
      sharesAccepted := state.sharesAccepted
      sharesRejected := state.sharesRejected
      sharesStale := state.sharesStale
      staleNotifyDeliveryLag := state.staleNotifyDeliveryLag
      staleMinerSwitchLag := state.staleMinerSwitchLag
      staleGenerationUnclassified := state.staleGenerationUnclassified
      blocksFound := state.blocksFound
      stratumConnections := state.stratumConnections
      shareValidationCount := state.shareValidationCount
      shareValidationSecondsSum := state.shareValidationSecondsSum
      candidatePropagationCount := state.candidatePropagationCount
      candidateDetectedToSubmit := state.candidateDetectedToSubmit
      candidateNodeRoundtrip := state.candidateNodeRoundtrip
      candidateRecord := state.candidateRecord
      candidateTotal := state.candidateTotal
      candidateNodeAcceptCount := state.candidateNodeAcceptCount
      candidateNodeAccept := state.candidateNodeAccept
      candidateRelayEnqueueCount := state.candidateRelayEnqueueCount
      candidateRelayEnqueue := state.candidateRelayEnqueue
      jobNotifyCount := state.jobNotifyCount
      jobTipChangeCount := state.jobTipChangeCount
      jobHeartbeatCount := state.jobHeartbeatCount
      lastJobNotifyTs := state.lastJobNotifyTs
      shareDifficultySum := state.shareDifficultySum
      roundShareDifficultySum := state.roundShareDifficultySum
      poolHashrateHs := rollingHashrate state.recentAcceptedShares }
  updatedTs := state.updatedTs

/-! ## Calls -/

inductive PoolCall
  | connectionGuard
  | connectionClosed
  | authorizedWorker (address : Address)
  | shareAccepted (address : Address) (difficulty : F64) (isBlockCandidate : Bool)
  | shareRejected (address : Address)
  | shareStale (address : Address)
  | staleGenerationFence (reason : String)
  | shareValidation (elapsed : Nat)
  | candidatePropagation (times : CandidatePropagation)
  | jobNotify (reason : String)
  deriving DecidableEq

/-- A call and its one or two readings of the clock. -/
structure PoolEntry where
  call : PoolCall
  now : Nat
  now' : Nat
  deriving DecidableEq

def PoolState.apply (state : PoolState) (entry : PoolEntry) : PoolState :=
  match entry.call with
  | .connectionGuard => state.openConnection entry.now
  | .connectionClosed => state.recordConnectionClosed entry.now
  | .authorizedWorker address => state.recordAuthorizedWorker address entry.now entry.now'
  | .shareAccepted address difficulty isBlockCandidate =>
      state.recordShareAccepted ⟨address, difficulty, isBlockCandidate, entry.now⟩
  | .shareRejected address => state.recordShareRejected address entry.now entry.now'
  | .shareStale address => state.recordShareStale address entry.now entry.now'
  | .staleGenerationFence reason => state.recordStaleGenerationFence reason entry.now
  | .shareValidation elapsed => state.recordShareValidation elapsed entry.now
  | .candidatePropagation times => state.recordCandidatePropagation times entry.now
  | .jobNotify reason => state.recordJobNotify reason entry.now entry.now'

/-- The state after these calls. -/
def PoolState.after (entries : List PoolEntry) : PoolState := entries.foldl PoolState.apply {}

/-! ## What the calls say -/

namespace PoolEntry

def sample? (entry : PoolEntry) : Option ShareSample :=
  match entry.call with
  | .shareAccepted address difficulty isBlockCandidate =>
      some ⟨address, difficulty, isBlockCandidate, entry.now⟩
  | _ => none

/-- The worker a call is about. -/
def worker? (entry : PoolEntry) : Option Address :=
  match entry.call with
  | .authorizedWorker address | .shareRejected address | .shareStale address
  | .shareAccepted address _ _ => some address
  | _ => none

def isRejected (entry : PoolEntry) : Bool :=
  match entry.call with
  | .shareRejected _ => true
  | _ => false

def isStale (entry : PoolEntry) : Bool :=
  match entry.call with
  | .shareStale _ => true
  | _ => false

def fence? (entry : PoolEntry) : Option String :=
  match entry.call with
  | .staleGenerationFence reason => some reason
  | _ => none

def validation? (entry : PoolEntry) : Option Nat :=
  match entry.call with
  | .shareValidation elapsed => some elapsed
  | _ => none

def propagation? (entry : PoolEntry) : Option CandidatePropagation :=
  match entry.call with
  | .candidatePropagation times => some times
  | _ => none

def jobNotify? (entry : PoolEntry) : Option (String × Nat) :=
  match entry.call with
  | .jobNotify reason => some (reason, entry.now)
  | _ => none

def opens (entry : PoolEntry) : Bool := decide (entry.call = .connectionGuard)

def closes (entry : PoolEntry) : Bool := decide (entry.call = .connectionClosed)

end PoolEntry

/-- The guards alive after these calls. -/
def guards (entries : List PoolEntry) : Nat :=
  entries.countP PoolEntry.opens - entries.countP PoolEntry.closes

/-- The samples after the last candidate. -/
def round (samples : List ShareSample) : List ShareSample :=
  samples.rtakeWhile fun sample => !sample.isBlockCandidate

def timingOf (durations : List Nat) : TimingStats where
  sum := (durations.map asSecsF64).foldl F64.add (.finite 0)
  max := (durations.map asSecsF64).foldl F64.max (.finite 0)

def totalsOf (entries : List PoolEntry) : TotalsSnapshot :=
  let samples := entries.filterMap PoolEntry.sample?
  let fences := entries.filterMap PoolEntry.fence?
  let validations := entries.filterMap PoolEntry.validation?
  let propagations := entries.filterMap PoolEntry.propagation?
  let notifies := entries.filterMap PoolEntry.jobNotify?
  let accepts := propagations.filterMap CandidatePropagation.nodeAccept
  let relays := propagations.filterMap CandidatePropagation.relayEnqueue
  { workersOnline := .ofNat (entries.filterMap PoolEntry.worker?).toFinset.card
    sharesAccepted := .ofNat samples.length
    sharesRejected := .ofNat (entries.countP PoolEntry.isRejected)
    sharesStale := .ofNat (entries.countP PoolEntry.isStale)
    staleNotifyDeliveryLag := .ofNat (fences.count "notify_delivery_lag")
    staleMinerSwitchLag := .ofNat (fences.count "miner_switch_lag")
    staleGenerationUnclassified := .ofNat (fences.countP fun reason =>
      decide (reason ≠ "notify_delivery_lag" ∧ reason ≠ "miner_switch_lag"))
    blocksFound := .ofNat (samples.countP ShareSample.isBlockCandidate)
    stratumConnections := .ofNat (guards entries)
    shareValidationCount := .ofNat validations.length
    shareValidationSecondsSum := (timingOf validations).sum
    candidatePropagationCount := .ofNat propagations.length
    candidateDetectedToSubmit := timingOf (propagations.map (·.detectedToSubmitStart))
    candidateNodeRoundtrip := timingOf (propagations.map (·.nodeRoundtrip))
    candidateRecord := timingOf (propagations.map (·.candidateRecord))
    candidateTotal := timingOf (propagations.map (·.total))
    candidateNodeAcceptCount := .ofNat accepts.length
    candidateNodeAccept := timingOf accepts
    candidateRelayEnqueueCount := .ofNat relays.length
    candidateRelayEnqueue := timingOf relays
    jobNotifyCount := .ofNat notifies.length
    jobTipChangeCount := .ofNat (notifies.countP fun notify => decide (notify.1 = "tip_change"))
    jobHeartbeatCount := .ofNat (notifies.countP fun notify => decide (notify.1 = "heartbeat"))
    lastJobNotifyTs := notifies.getLast?.map Prod.snd
    shareDifficultySum := workSum samples
    roundShareDifficultySum := workSum (round samples)
    poolHashrateHs :=
      rollingHashrate (recent hashrateWindowSecs ShareSample.timestamp samples) }

/-- A worker's snapshot from the calls about it. -/
def tallyOf (entries : List PoolEntry) : WorkerSnapshot :=
  let samples := entries.filterMap PoolEntry.sample?
  { sharesAccepted := .ofNat samples.length
    sharesRejected := .ofNat (entries.countP PoolEntry.isRejected)
    sharesStale := .ofNat (entries.countP PoolEntry.isStale)
    blocksFound := .ofNat (samples.countP ShareSample.isBlockCandidate)
    lastDifficulty := (samples.getLast?.map ShareSample.difficulty).getD (.finite 0)
    lastSeenTs := (entries.getLast?.map PoolEntry.now).getD 0
    shareDifficultySum := workSum samples
    firstShareTs := samples.head?.map ShareSample.timestamp
    lastShareTs := samples.getLast?.map ShareSample.timestamp }

def about (address : Address) (entries : List PoolEntry) : List PoolEntry :=
  entries.filter fun entry => decide (entry.worker? = some address)

/-- The worker is in the map once a call is about it. -/
def workerOf (address : Address) (entries : List PoolEntry) : Option WorkerSnapshot :=
  if about address entries = [] then none else some (tallyOf (about address entries))

/-! ## Workers -/

/-- What a call does to the worker it is about. -/
def WorkerSnapshot.apply (worker : WorkerSnapshot) (entry : PoolEntry) : WorkerSnapshot :=
  match entry.call with
  | .authorizedWorker _ => { worker with lastSeenTs := entry.now }
  | .shareRejected _ =>
      { worker with sharesRejected := worker.sharesRejected + 1, lastSeenTs := entry.now }
  | .shareStale _ =>
      { worker with sharesStale := worker.sharesStale + 1, lastSeenTs := entry.now }
  | .shareAccepted address difficulty isBlockCandidate =>
      let sample : ShareSample := ⟨address, difficulty, isBlockCandidate, entry.now⟩
      { worker with
        sharesAccepted := worker.sharesAccepted + 1
        lastDifficulty := difficulty
        lastSeenTs := entry.now
        firstShareTs := some (worker.firstShareTs.getD entry.now)
        lastShareTs := some entry.now
        shareDifficultySum := worker.shareDifficultySum.add sample.work
        blocksFound :=
          if isBlockCandidate then worker.blocksFound + 1 else worker.blocksFound }
  | _ => { worker with lastSeenTs := entry.now }

section Workers

variable (state : PoolState) (entry : PoolEntry) (entries : List PoolEntry) (address : Address)

theorem workers_apply : (state.apply entry).workers = match entry.worker? with
    | some address => state.workers.put ⟨address, (state.worker address).apply entry⟩
    | none => state.workers := by
  obtain ⟨call, now, now'⟩ := entry
  cases call <;> rfl

theorem find_apply : (state.apply entry).workers.find? address =
    if entry.worker? = some address then
      some ⟨address, (state.worker address).apply entry⟩
    else state.workers.find? address := by
  rw [workers_apply]
  cases about : entry.worker? with
  | none => simp
  | some mentioned =>
      show (state.workers.put _).find? address = if some mentioned = some address then _ else _
      rw [Table.find?_put]
      show (if mentioned = address then _ else _) = _
      by_cases same : mentioned = address
      · subst same
        rw [if_pos rfl, if_pos rfl]
      · rw [if_neg same, if_neg (fun other => same (Option.some.inj other))]

theorem about_snoc : about address (entries ++ [entry]) =
    if entry.worker? = some address then about address entries ++ [entry]
    else about address entries := by
  unfold about
  rw [List.filter_append]
  split
  · rename_i here
    simp [here]
  · rename_i here
    simp [here]

/-- A worker's snapshot is its calls, one after another. -/
theorem tallyOf_snoc (touches : (entry.worker?).isSome = true) :
    tallyOf (entries ++ [entry]) = (tallyOf entries).apply entry := by
  unfold tallyOf
  rw [List.filterMap_append, List.countP_append, List.countP_append, List.getLast?_concat]
  generalize entries.filterMap PoolEntry.sample? = samples
  obtain ⟨call, now, now'⟩ := entry
  cases call with
  | shareAccepted mentioned difficulty isBlockCandidate =>
      have first : ∀ sample : ShareSample, (samples ++ [sample]).head?.map ShareSample.timestamp =
          some ((samples.head?.map ShareSample.timestamp).getD sample.timestamp) := by
        intro sample
        cases samples <;> rfl
      show WorkerSnapshot.mk _ _ _ _ _ _ _ ((samples ++ [_]).head?.map _) _ = _
      rw [first]
      cases isBlockCandidate <;>
        simp [WorkerSnapshot.apply, PoolEntry.sample?, PoolEntry.isRejected, PoolEntry.isStale,
          workSum, List.countP_append]
  | authorizedWorker | shareRejected | shareStale =>
      simp [WorkerSnapshot.apply, List.filterMap_cons, PoolEntry.sample?, PoolEntry.isRejected,
        PoolEntry.isStale]
  | _ => cases touches

theorem after_snoc : PoolState.after (entries ++ [entry]) = (PoolState.after entries).apply entry := by
  simp [PoolState.after]

/-- **The map of workers is the calls about each.** -/
theorem find_after : (PoolState.after entries).workers.find? address =
    (workerOf address entries).map fun worker => ⟨address, worker⟩ := by
  induction entries using List.reverseRecOn with
  | nil => rfl
  | append_singleton entries entry ih =>
      rw [after_snoc, find_apply, workerOf, about_snoc]
      split
      · rename_i here
        have known : (PoolState.after entries).worker address = tallyOf (about address entries) := by
          unfold PoolState.worker
          rw [ih]
          unfold workerOf
          split
          · rename_i none
            rw [none]
            rfl
          · rfl
        rw [if_neg (by simp), known, tallyOf_snoc _ _ (by rw [here]; rfl)]
        rfl
      · exact ih

/-- A worker that is not in the map has the default snapshot, that of no calls. -/
theorem worker_after : (PoolState.after entries).worker address =
    tallyOf (about address entries) := by
  unfold PoolState.worker
  rw [find_after]
  unfold workerOf
  split
  · rename_i none
    rw [none]
    rfl
  · rfl

end Workers

/-! ## Totals -/

section Totals

variable (entries : List PoolEntry)

/-- A field of the state is the fold of what the calls pass it. -/
theorem after_project {τ α : Type} (project : PoolState → τ) (pick : PoolEntry → Option α)
    (step : τ → α → τ)
    (each : ∀ state call now now', project (state.apply ⟨call, now, now'⟩) =
      (pick ⟨call, now, now'⟩).elim (project state) (step (project state))) :
    project (PoolState.after entries) = (entries.filterMap pick).foldl step (project {}) :=
  foldl_project project pick step (fun state entry => each state entry.call entry.now entry.now')
    entries {}

/-- A counter is the number of the calls that pass it something. -/
theorem after_count {α : Type} (project : PoolState → UInt64) (pick : PoolEntry → Option α)
    (each : ∀ state call now now', project (state.apply ⟨call, now, now'⟩) =
      (pick ⟨call, now, now'⟩).elim (project state) fun _ => project state + 1)
    (start : project {} = 0) :
    project (PoolState.after entries) = .ofNat (entries.filterMap pick).length := by
  rw [after_project entries project pick (fun n _ => n + 1) each, start, foldl_count_zero]

theorem after_countP {α : Type} (project : PoolState → UInt64) (pick : PoolEntry → Option α)
    (p : α → Bool)
    (each : ∀ state call now now', project (state.apply ⟨call, now, now'⟩) =
      (pick ⟨call, now, now'⟩).elim (project state) fun x =>
        if p x then project state + 1 else project state)
    (start : project {} = 0) :
    project (PoolState.after entries) = .ofNat ((entries.filterMap pick).countP p) := by
  rw [after_project entries project pick (fun n x => if p x then n + 1 else n) each, start]
  exact foldl_countP id p (fun _ _ => rfl) _ rfl

theorem timing_foldl (durations : List Nat) :
    durations.foldl TimingStats.record {} = timingOf durations := by
  induction durations using List.reverseRecOn with
  | nil => rfl
  | append_singleton durations elapsed ih =>
      rw [List.foldl_concat, ih]
      simp [timingOf, TimingStats.record]

theorem after_timing {α : Type} (project : PoolState → TimingStats) (pick : PoolEntry → Option α)
    (duration : α → Nat)
    (each : ∀ state call now now', project (state.apply ⟨call, now, now'⟩) =
      (pick ⟨call, now, now'⟩).elim (project state) fun x => (project state).record (duration x))
    (start : project {} = {}) :
    project (PoolState.after entries) = timingOf ((entries.filterMap pick).map duration) := by
  rw [after_project entries project pick (fun stats x => stats.record (duration x)) each, start,
    ← timing_foldl, List.foldl_map]

/-- The samples after the last candidate are what the round sums. -/
theorem round_foldl (samples : List ShareSample) :
    samples.foldl (fun sum sample =>
      if sample.isBlockCandidate then .finite 0 else sum.add sample.work) (.finite 0) =
      workSum (round samples) := by
  induction samples using List.reverseRecOn with
  | nil => rfl
  | append_singleton samples sample ih =>
      rw [List.foldl_concat, ih]
      unfold round
      rw [List.rtakeWhile_concat]
      cases sample.isBlockCandidate with
      | true => rfl
      | false => simp [workSum]

theorem shares_after : (PoolState.after entries).sharesAccepted =
    .ofNat (entries.filterMap PoolEntry.sample?).length :=
  after_count entries _ PoolEntry.sample? (fun _ call _ _ => by cases call <;> rfl) rfl

theorem rejected_after : (PoolState.after entries).sharesRejected =
    .ofNat (entries.countP PoolEntry.isRejected) :=
  foldl_countP _ PoolEntry.isRejected
    (by rintro state ⟨call, now, now'⟩; cases call <;> rfl) entries rfl

theorem stale_after : (PoolState.after entries).sharesStale =
    .ofNat (entries.countP PoolEntry.isStale) :=
  foldl_countP _ PoolEntry.isStale
    (by rintro state ⟨call, now, now'⟩; cases call <;> rfl) entries rfl

theorem blocks_after : (PoolState.after entries).blocksFound =
    .ofNat ((entries.filterMap PoolEntry.sample?).countP ShareSample.isBlockCandidate) :=
  after_countP entries _ PoolEntry.sample? _ (fun _ call _ _ => by cases call <;> rfl) rfl

theorem window_after : (PoolState.after entries).recentAcceptedShares =
    windowed hashrateWindowSecs ShareSample.timestamp (entries.filterMap PoolEntry.sample?) :=
  after_project entries PoolState.recentAcceptedShares PoolEntry.sample? _
    (fun _ call _ _ => by cases call <;> rfl)

/-- Every guard is dropped once, after it was taken, and there are never more than the counter
can count. -/
def Guarded : Prop :=
  ∀ before, before <+: entries →
    before.countP PoolEntry.closes ≤ before.countP PoolEntry.opens ∧ guards before < 2 ^ 64

variable {entries}

theorem Guarded.init {entry : PoolEntry} (guarded : Guarded (entries ++ [entry])) :
    Guarded entries :=
  fun _ shorter => guarded _ (shorter.trans (List.prefix_append _ _))

theorem connections_apply (state : PoolState) (entry : PoolEntry) :
    (state.apply entry).stratumConnections =
      if entry.opens then state.stratumConnections + 1
      else if entry.closes then
        if state.stratumConnections = 0 then 0 else state.stratumConnections - 1
      else state.stratumConnections := by
  obtain ⟨call, now, now'⟩ := entry
  cases call <;> rfl

theorem connections_after (guarded : Guarded entries) :
    (PoolState.after entries).stratumConnections = .ofNat (guards entries) := by
  induction entries using List.reverseRecOn with
  | nil => rfl
  | append_singleton entries entry ih =>
      obtain ⟨known, -⟩ := guarded entries (List.prefix_append _ _)
      have closed := (guarded _ List.prefix_rfl).1
      have before := ih guarded.init
      have few := (guarded entries (List.prefix_append _ _)).2
      rw [after_snoc, connections_apply, before]
      unfold guards at few ⊢
      simp only [List.countP_append, List.countP_singleton] at closed ⊢
      by_cases opens : entry.opens = true
      · have stays : entry.closes = false := by
          have call := of_decide_eq_true opens
          unfold PoolEntry.closes
          rw [call]
          rfl
        simp only [opens, stays, if_true, Bool.false_eq_true, if_false]
        rw [show entries.countP PoolEntry.opens + 1 - (entries.countP PoolEntry.closes + 0) =
          entries.countP PoolEntry.opens - entries.countP PoolEntry.closes + 1 by omega,
          UInt64.ofNat_add]
        rfl
      · by_cases closes : entry.closes = true
        · simp only [opens, closes, if_true, Bool.false_eq_true, if_false] at closed ⊢
          obtain ⟨left, same⟩ : ∃ left, entries.countP PoolEntry.opens -
              entries.countP PoolEntry.closes = left + 1 :=
            Nat.exists_eq_add_one.2 (by omega)
          rw [same] at few ⊢
          rw [if_neg]
          · have fewer : entries.countP PoolEntry.opens + 0 -
                (entries.countP PoolEntry.closes + 1) = left := by omega
            rw [fewer, UInt64.ofNat_add]
            exact UInt64.add_sub_cancel ..
          · intro zero
            have wide := congrArg UInt64.toNat zero
            rw [UInt64.toNat_ofNat_of_lt' few] at wide
            exact absurd wide (Nat.succ_ne_zero left)
        · simp [opens, closes]

end Totals

/-! ## The snapshot -/

section Snapshot

variable (entries : List PoolEntry)

/-- Every call about a worker is in its part of the map, and in no other. -/
theorem sum_workers (count : WorkerSnapshot → UInt64) (p : PoolEntry → Bool)
    (counts : ∀ entries, count (tallyOf entries) = .ofNat (entries.countP p))
    (known : ∀ entry, p entry = true → entry.worker?.isSome = true) :
    ((PoolState.after entries).workers.rows.map fun row => count row.worker).sum =
      .ofNat (entries.countP p) := by
  have each : ∀ row ∈ (PoolState.after entries).workers.rows, count row.worker =
      .ofNat ((entries.filter fun entry => entry.worker? = some row.address).countP p) := by
    intro row member
    have found : some row = (workerOf row.address entries).map fun worker =>
        ⟨row.address, worker⟩ :=
      (Table.find?_of_mem member).symm.trans (find_after entries row.address)
    unfold workerOf at found
    split at found
    · cases found
    · rw [Option.some.inj found]
      exact counts _
  have keys : ((PoolState.after entries).workers.rows.map fun row => some row.address).Nodup := by
    have unique := (PoolState.after entries).workers.unique.map (Option.some_injective _)
    rwa [List.map_map] at unique
  have covered : ∀ entry ∈ entries, p entry = true →
      entry.worker? ∈ (PoolState.after entries).workers.rows.map fun row => some row.address := by
    intro entry member counted
    obtain ⟨address, is⟩ := Option.isSome_iff_exists.1 (known entry counted)
    have mentioned : about address entries ≠ [] :=
      List.ne_nil_of_mem (List.mem_filter.2 ⟨member, decide_eq_true is⟩)
    have found := find_after entries address
    rw [workerOf, if_neg mentioned] at found
    exact List.mem_map.2 ⟨_, Table.mem_of_find? found, is.symm⟩
  have total := Theory.Grouping.countP_by_key keys PoolEntry.worker? p covered
  rw [List.map_map] at total
  rw [List.map_congr_left each, sum_ofNat, ← total]
  rfl

/-- The keys of the map are the workers the calls are about. -/
theorem workers_online : (PoolState.after entries).workers.rows.length =
    (entries.filterMap PoolEntry.worker?).toFinset.card := by
  have unique := (PoolState.after entries).workers.unique
  rw [← List.length_map (f := Keyed.key), ← List.toFinset_card_of_nodup unique]
  congr 1
  ext address
  simp only [List.mem_toFinset, List.mem_filterMap]
  rw [Table.mem_map_key_iff, find_after, workerOf]
  constructor
  · intro found
    split at found
    · exact absurd rfl found
    · rename_i mentioned
      obtain ⟨entry, member⟩ := List.exists_mem_of_ne_nil _ mentioned
      obtain ⟨member, is⟩ := List.mem_filter.1 member
      exact ⟨entry, member, of_decide_eq_true is⟩
  · rintro ⟨entry, member, is⟩
    have mentioned : about address entries ≠ [] :=
      List.ne_nil_of_mem (List.mem_filter.2 ⟨member, decide_eq_true is⟩)
    rw [if_neg mentioned]
    exact Option.some_ne_none _

/-- The clock does not go back between accepted shares. -/
def ClockSteady : Prop :=
  (entries.filterMap PoolEntry.sample?).Pairwise fun a b => a.timestamp ≤ b.timestamp

/-- The counter of one reason. -/
theorem after_fence (project : PoolState → UInt64) (p : String → Prop) [DecidablePred p]
    (each : ∀ state call now now', project (PoolState.apply state ⟨call, now, now'⟩) =
      (PoolEntry.fence? ⟨call, now, now'⟩).elim (project state) fun reason =>
        if p reason then project state + 1 else project state) (start : project {} = 0) :
    project (PoolState.after entries) =
      .ofNat ((entries.filterMap PoolEntry.fence?).countP fun reason => decide (p reason)) :=
  after_countP entries project PoolEntry.fence? _ (by simpa only [decide_eq_true_eq] using each)
    start

theorem after_notify (project : PoolState → UInt64) (kind : String)
    (each : ∀ state call now now', project (PoolState.apply state ⟨call, now, now'⟩) =
      (PoolEntry.jobNotify? ⟨call, now, now'⟩).elim (project state) fun notify =>
        if notify.1 = kind then project state + 1 else project state) (start : project {} = 0) :
    project (PoolState.after entries) = .ofNat
      ((entries.filterMap PoolEntry.jobNotify?).countP fun notify => decide (notify.1 = kind)) :=
  after_countP entries project PoolEntry.jobNotify? _
    (by simpa only [decide_eq_true_eq] using each) start

/-- The statistics of the two steps of a propagation that need not have happened. -/
theorem after_optional (count : PoolState → UInt64) (timing : PoolState → TimingStats)
    (pick : CandidatePropagation → Option Nat)
    (counts : ∀ state call now now', count (PoolState.apply state ⟨call, now, now'⟩) =
      ((PoolEntry.propagation? ⟨call, now, now'⟩).bind pick).elim (count state) fun _ =>
        count state + 1)
    (times : ∀ state call now now', timing (PoolState.apply state ⟨call, now, now'⟩) =
      ((PoolEntry.propagation? ⟨call, now, now'⟩).bind pick).elim (timing state)
        (timing state).record) (start : count {} = 0) (start' : timing {} = {}) :
    count (PoolState.after entries) =
        .ofNat ((entries.filterMap PoolEntry.propagation?).filterMap pick).length ∧
      timing (PoolState.after entries) =
        timingOf ((entries.filterMap PoolEntry.propagation?).filterMap pick) := by
  rw [List.filterMap_filterMap]
  refine ⟨after_count entries count _ counts start, ?_⟩
  have timed := after_timing entries timing (fun entry => entry.propagation?.bind pick)
    (fun elapsed => elapsed) times start'
  rwa [List.map_id'] at timed

theorem totals_after (guarded : Guarded entries) (steady : ClockSteady entries) :
    (PoolState.after entries).snapshot.totals = totalsOf entries := by
  have window : (PoolState.after entries).recentAcceptedShares =
      recent hashrateWindowSecs ShareSample.timestamp (entries.filterMap PoolEntry.sample?) := by
    rw [window_after, windowed_recent _ _ steady]
  have rounds : (PoolState.after entries).roundShareDifficultySum =
      workSum (round (entries.filterMap PoolEntry.sample?)) := by
    rw [← round_foldl]
    exact after_project entries PoolState.roundShareDifficultySum PoolEntry.sample? _
      fun _ call _ _ => by cases call <;> rfl
  have validated : (PoolState.after entries).shareValidationSecondsSum =
      (timingOf (entries.filterMap PoolEntry.validation?)).sum := by
    show _ = ((entries.filterMap PoolEntry.validation?).map asSecsF64).foldl F64.add (.finite 0)
    rw [List.foldl_map]
    exact after_project entries PoolState.shareValidationSecondsSum PoolEntry.validation? _
      fun _ call _ _ => by cases call <;> rfl
  have notified : (PoolState.after entries).lastJobNotifyTs =
      (entries.filterMap PoolEntry.jobNotify?).getLast?.map Prod.snd := by
    have last := after_project entries PoolState.lastJobNotifyTs PoolEntry.jobNotify?
      (fun _ notify => some notify.2) fun _ call _ _ => by cases call <;> rfl
    rw [last, foldl_last]
    cases (entries.filterMap PoolEntry.jobNotify?).getLast? <;> rfl
  obtain ⟨accepts, accepting⟩ := after_optional entries PoolState.candidateNodeAcceptCount
    PoolState.candidateNodeAccept CandidatePropagation.nodeAccept
    (fun _ call _ _ => by cases call <;> rfl) (fun _ call _ _ => by cases call <;> rfl) rfl rfl
  obtain ⟨relays, relaying⟩ := after_optional entries PoolState.candidateRelayEnqueueCount
    PoolState.candidateRelayEnqueue CandidatePropagation.relayEnqueue
    (fun _ call _ _ => by cases call <;> rfl) (fun _ call _ _ => by cases call <;> rfl) rfl rfl
  simp only [PoolState.snapshot, totalsOf, TotalsSnapshot.mk.injEq]
  refine ⟨by rw [workers_online], shares_after entries, rejected_after entries,
    stale_after entries, ?_, ?_, ?_, blocks_after entries, connections_after guarded, ?_,
    validated, ?_, ?_, ?_, ?_, ?_, accepts, accepting, relays, relaying, ?_, ?_, ?_, notified, ?_,
    rounds, by rw [window]⟩
  · exact after_fence entries _ _ (fun _ call _ _ => by cases call <;> rfl) rfl
  · exact after_fence entries _ _ (fun _ call _ _ => by cases call <;> rfl) rfl
  · exact after_fence entries _ _ (fun _ call _ _ => by cases call <;> rfl) rfl
  · exact after_count entries _ PoolEntry.validation? (fun _ call _ _ => by cases call <;> rfl) rfl
  · exact after_count entries _ PoolEntry.propagation? (fun _ call _ _ => by cases call <;> rfl) rfl
  · exact after_timing entries _ PoolEntry.propagation? _
      (fun _ call _ _ => by cases call <;> rfl) rfl
  · exact after_timing entries _ PoolEntry.propagation? _
      (fun _ call _ _ => by cases call <;> rfl) rfl
  · exact after_timing entries _ PoolEntry.propagation? _
      (fun _ call _ _ => by cases call <;> rfl) rfl
  · exact after_timing entries _ PoolEntry.propagation? _
      (fun _ call _ _ => by cases call <;> rfl) rfl
  · exact after_count entries _ PoolEntry.jobNotify? (fun _ call _ _ => by cases call <;> rfl) rfl
  · exact after_notify entries _ _ (fun _ call _ _ => by cases call <;> rfl) rfl
  · exact after_notify entries _ _ (fun _ call _ _ => by cases call <;> rfl) rfl
  · exact after_project entries _ PoolEntry.sample? _ fun _ call _ _ => by cases call <;> rfl

/-- What the totals have of the workers is the sum over the map. -/
structure SumsWorkers (snapshot : PoolSnapshot) : Prop where
  accepted : snapshot.totals.sharesAccepted =
    (snapshot.workers.rows.map fun row => row.worker.sharesAccepted).sum
  rejected : snapshot.totals.sharesRejected =
    (snapshot.workers.rows.map fun row => row.worker.sharesRejected).sum
  stale : snapshot.totals.sharesStale =
    (snapshot.workers.rows.map fun row => row.worker.sharesStale).sum
  blocks : snapshot.totals.blocksFound =
    (snapshot.workers.rows.map fun row => row.worker.blocksFound).sum

theorem filterMap_countP {α β : Type} (pick : α → Option β) (p : β → Bool) (xs : List α) :
    (xs.filterMap pick).countP p = xs.countP fun x => (pick x).any p := by
  induction xs with
  | nil => rfl
  | cons x xs ih =>
      rw [List.countP_cons, ← ih]
      cases picked : pick x with
      | none => simp [picked]
      | some y => simp [picked, List.countP_cons]

theorem sumsWorkers : SumsWorkers (PoolState.after entries).snapshot := by
  have ofSample : ∀ entry : PoolEntry, ∀ p, entry.sample?.any p = true →
      entry.worker?.isSome = true := by
    rintro ⟨call, now, now'⟩ p counted
    cases call <;> first | rfl | cases counted
  have length : ∀ samples : List ShareSample, samples.length = samples.countP fun _ => true := by
    intro samples
    rw [List.countP_true]
  constructor
  · show (PoolState.after entries).sharesAccepted = _
    rw [shares_after, length, filterMap_countP]
    refine (sum_workers entries WorkerSnapshot.sharesAccepted _ (fun entries => ?_)
      fun entry counted => ofSample entry _ counted).symm
    show UInt64.ofNat (entries.filterMap PoolEntry.sample?).length = _
    rw [length, filterMap_countP]
  · show (PoolState.after entries).sharesRejected = _
    rw [rejected_after]
    refine (sum_workers entries WorkerSnapshot.sharesRejected _ (fun entries => rfl) ?_).symm
    rintro ⟨call, now, now'⟩ counted
    cases call <;> first | rfl | cases counted
  · show (PoolState.after entries).sharesStale = _
    rw [stale_after]
    refine (sum_workers entries WorkerSnapshot.sharesStale _ (fun entries => rfl) ?_).symm
    rintro ⟨call, now, now'⟩ counted
    cases call <;> first | rfl | cases counted
  · show (PoolState.after entries).blocksFound = _
    rw [blocks_after, filterMap_countP]
    refine (sum_workers entries WorkerSnapshot.blocksFound _ (fun entries => ?_)
      fun entry counted => ofSample entry _ counted).symm
    show UInt64.ofNat ((entries.filterMap PoolEntry.sample?).countP _) = _
    rw [filterMap_countP]

/-- **The snapshot is a function of the calls.**  Its totals are `totalsOf`, its workers `workerOf`,
and the totals are the sums over the workers. -/
theorem snapshot_of_calls (guarded : Guarded entries) (steady : ClockSteady entries) :
    (PoolState.after entries).snapshot.totals = totalsOf entries ∧
      (∀ address, (PoolState.after entries).snapshot.workers.find? address =
        (workerOf address entries).map fun worker => ⟨address, worker⟩) ∧
      SumsWorkers (PoolState.after entries).snapshot :=
  ⟨totals_after entries guarded steady, find_after entries, sumsWorkers entries⟩

end Snapshot

/-- A session's connection, two shares of which the second is a candidate, and its end. -/
def someCalls : List PoolEntry :=
  [⟨.connectionGuard, 10, 10⟩, ⟨.authorizedWorker "a", 10, 11⟩,
    ⟨.shareAccepted "a" (.finite 8) false, 11, 11⟩, ⟨.shareStale "a", 12, 12⟩,
    ⟨.shareAccepted "a" (.finite 8) true, 400, 400⟩, ⟨.connectionClosed, 401, 401⟩]

theorem snapshot_of_some_calls :
    (PoolState.after someCalls).snapshot.totals.sharesAccepted = 2 ∧
      (PoolState.after someCalls).snapshot.totals.stratumConnections = 0 ∧
      (PoolState.after someCalls).snapshot.totals.roundShareDifficultySum = .finite 0 := by
  have guarded : Guarded someCalls := by
    intro before shorter
    have listed : ∀ before ∈ someCalls.inits,
        before.countP PoolEntry.closes ≤ before.countP PoolEntry.opens ∧
          guards before < 2 ^ 64 := by decide
    exact listed before ((List.mem_inits before someCalls).2 shorter)
  have steady : ClockSteady someCalls := by
    show List.Pairwise _ [_, _]
    simp
  rw [(snapshot_of_calls someCalls guarded steady).1]
  exact ⟨rfl, rfl, rfl⟩

end CsdPool
