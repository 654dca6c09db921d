/-
# Bridge.Abuse — connections, sessions, offenses and bans

`AbuseManager` keeps one entry for each IP address, with its active connections, its offenses
since the last ban and the end of a ban, and one count of sessions for each mining address.  A
permit is a value that the holder drops; dropping it takes its count back.  `World` is the manager
with the permits that are alive and the clock, and a step is one call, under the lock it takes.

The counts are those of the live permits in every reachable state (`accounted`), a ban lasts
(`bannedAt_future`) and no permit is granted under one.  The offense counters are 32 bits wide and
are raised without a check, so an offense recorded at `u32::MAX` returns one to zero under a ban
that runs (`countersKept_iff`).
-/
import CsdPool.Accounting
import CsdPool.Theory.Machine
import Mathlib.Data.List.Count
import Mathlib.Order.Basic

namespace CsdPool.Bridge.Abuse

open Theory

set_option autoImplicit false

inductive IpAddr
  | v4 (bits : BitVec 32)
  | v6 (bits : BitVec 128)
  deriving DecidableEq, Repr

/-- The limits of connections, sessions and offenses, and the length of a ban. -/
structure AbuseConfig where
  maxConnectionsPerIp : UInt32
  maxSessionsPerAddress : UInt32
  malformedFrameLimit : UInt32
  authFailureLimit : UInt32
  invalidShareLimit : UInt32
  banSecs : UInt64
  deriving DecidableEq, Repr

/-- Why a connection or a session is turned away. -/
inductive AbuseReject
  | banned
  | tooManyConnections
  | tooManyAddressSessions
  deriving DecidableEq, Repr

/-- What is counted against an address, each kind under its own counter. -/
inductive OffenseKind
  | malformedFrame
  | authFailure
  | invalidShare
  deriving DecidableEq, Repr

/-- Instants count nanoseconds. -/
structure IpAbuseState where
  activeConnections : UInt32 := 0
  malformedFrames : UInt32 := 0
  authFailures : UInt32 := 0
  invalidShares : UInt32 := 0
  bannedUntil : Option Nat := none
  deriving DecidableEq, Repr

namespace IpAbuseState

/-- The ban has not run out. -/
def isBanned (entry : IpAbuseState) (now : Nat) : Bool :=
  entry.bannedUntil.any fun bannedUntil => bannedUntil > now

/-- A ban that has run out is taken off, and the counters start again from zero. -/
def expireBanIfNeeded (entry : IpAbuseState) (now : Nat) : IpAbuseState :=
  if entry.bannedUntil.any fun bannedUntil => bannedUntil ≤ now then
    { entry with malformedFrames := 0, authFailures := 0, invalidShares := 0, bannedUntil := none }
  else entry

def offenses (entry : IpAbuseState) : OffenseKind → UInt32
  | .malformedFrame => entry.malformedFrames
  | .authFailure => entry.authFailures
  | .invalidShare => entry.invalidShares

/-- `+= 1` of the release build. -/
def offend (entry : IpAbuseState) : OffenseKind → IpAbuseState
  | .malformedFrame => { entry with malformedFrames := entry.malformedFrames + 1 }
  | .authFailure => { entry with authFailures := entry.authFailures + 1 }
  | .invalidShare => { entry with invalidShares := entry.invalidShares + 1 }

/-- One of the counters has reached its limit. -/
def shouldBan (config : AbuseConfig) (entry : IpAbuseState) : Bool :=
  entry.malformedFrames ≥ config.malformedFrameLimit ||
    entry.authFailures ≥ config.authFailureLimit ||
    entry.invalidShares ≥ config.invalidShareLimit

end IpAbuseState

/-- The two maps; an address without an entry has the default one. -/
structure AbuseManager where
  state : IpAddr → Option IpAbuseState
  addressSessions : Address → Option UInt32

namespace AbuseManager

def new : AbuseManager := ⟨fun _ => none, fun _ => none⟩

/-- `state.entry(ip).or_default()`. -/
def entry (manager : AbuseManager) (ip : IpAddr) : IpAbuseState := (manager.state ip).getD {}

def put (manager : AbuseManager) (ip : IpAddr) (entry : IpAbuseState) : AbuseManager :=
  { manager with state := Function.update manager.state ip (some entry) }

/-- `sessions.entry(address).or_default()`. -/
def sessions (manager : AbuseManager) (address : Address) : UInt32 :=
  (manager.addressSessions address).getD 0

def putSessions (manager : AbuseManager) (address : Address) (active : Option UInt32) :
    AbuseManager :=
  { manager with addressSessions := Function.update manager.addressSessions address active }

/-- The clock is read twice. -/
def tryOpen (config : AbuseConfig) (manager : AbuseManager) (ip : IpAddr) (now now' : Nat) :
    Except AbuseReject Unit × AbuseManager :=
  let entry := (manager.entry ip).expireBanIfNeeded now
  if entry.isBanned now' then (.error .banned, manager.put ip entry)
  else if entry.activeConnections ≥ config.maxConnectionsPerIp then
    (.error .tooManyConnections, manager.put ip entry)
  else
    (.ok (), manager.put ip { entry with activeConnections := entry.activeConnections + 1 })

/-- A session more for a miner's address, if there is room for it. -/
def tryOpenAddressSession (config : AbuseConfig) (manager : AbuseManager) (address : Address) :
    Except AbuseReject Unit × AbuseManager :=
  let active := manager.sessions address
  if active ≥ config.maxSessionsPerAddress then
    (.error .tooManyAddressSessions, manager.putSessions address (some active))
  else (.ok (), manager.putSessions address (some (active + 1)))

/-- Asking takes a ban off that has run out. -/
def isBanned (manager : AbuseManager) (ip : IpAddr) (now now' : Nat) : Bool × AbuseManager :=
  let entry := (manager.entry ip).expireBanIfNeeded now
  (entry.isBanned now', manager.put ip entry)

/-- `saturating_sub(1)`. -/
def saturatingPred (n : UInt32) : UInt32 := if n = 0 then 0 else n - 1

/-- A connection less. -/
def close (manager : AbuseManager) (ip : IpAddr) : AbuseManager :=
  match manager.state ip with
  | none => manager
  | some entry =>
      manager.put ip { entry with activeConnections := saturatingPred entry.activeConnections }

def closeAddressSession (manager : AbuseManager) (address : Address) : AbuseManager :=
  match manager.addressSessions address with
  | none => manager
  | some active =>
      let active := saturatingPred active
      manager.putSessions address (if active = 0 then none else some active)

def banNanos (config : AbuseConfig) : Nat := config.banSecs.toNat * 10 ^ 9

/-- `Instant + Duration` panics past the clock's last instant; that poisons the lock, and every
later call panics on it. -/
def recordOffense (config : AbuseConfig) (lastInstant : Nat) (manager : AbuseManager) (ip : IpAddr)
    (kind : OffenseKind) (now : Nat) : Option (Bool × AbuseManager) :=
  let entry := ((manager.entry ip).expireBanIfNeeded now).offend kind
  if entry.shouldBan config then
    if now + banNanos config > lastInstant then none
    else some (true, manager.put ip { entry with bannedUntil := some (now + banNanos config) })
  else some (false, manager.put ip entry)

end AbuseManager

/-! ## The world -/

/-- The manager, the permits that are alive and the latest reading of the clock. -/
structure World where
  manager : AbuseManager
  connectionPermits : List IpAddr
  addressSessionPermits : List Address
  clock : Nat

/-- The calls of the manager, with the clock readings each of them makes. -/
inductive Call
  | tryOpen (ip : IpAddr) (now now' : Nat)
  | tryOpenAddressSession (address : Address)
  | isBanned (ip : IpAddr) (now now' : Nat)
  | recordOffense (ip : IpAddr) (kind : OffenseKind) (now : Nat)
  | dropConnectionPermit (ip : IpAddr)
  | dropAddressSessionPermit (address : Address)
  deriving DecidableEq, Repr

section Machine

variable (config : AbuseConfig) (lastInstant : Nat)

/-- One call.  Only a live permit is dropped, and the clock does not run backwards. -/
def World.step (world : World) : Call → Option World
  | .tryOpen ip now now' =>
      if world.clock ≤ now ∧ now ≤ now' then
        let opened := world.manager.tryOpen config ip now now'
        some { world with
          manager := opened.2
          connectionPermits :=
            if opened.1.isOk then ip :: world.connectionPermits else world.connectionPermits
          clock := now' }
      else none
  | .tryOpenAddressSession address =>
      let opened := world.manager.tryOpenAddressSession config address
      some { world with
        manager := opened.2
        addressSessionPermits :=
          if opened.1.isOk then address :: world.addressSessionPermits
          else world.addressSessionPermits }
  | .isBanned ip now now' =>
      if world.clock ≤ now ∧ now ≤ now' then
        some { world with manager := (world.manager.isBanned ip now now').2, clock := now' }
      else none
  | .recordOffense ip kind now =>
      if world.clock ≤ now then
        (world.manager.recordOffense config lastInstant ip kind now).map fun recorded =>
          { world with manager := recorded.2, clock := now }
      else none
  | .dropConnectionPermit ip =>
      if ip ∈ world.connectionPermits then
        some { world with
          manager := world.manager.close ip
          connectionPermits := world.connectionPermits.erase ip }
      else none
  | .dropAddressSessionPermit address =>
      if address ∈ world.addressSessionPermits then
        some { world with
          manager := world.manager.closeAddressSession address
          addressSessionPermits := world.addressSessionPermits.erase address }
      else none

/-- A manager over every sequence of calls. -/
def machine : Machine World Call where
  init world := world = ⟨.new, [], [], 0⟩
  step := World.step config lastInstant

end Machine

/-! ## Entries -/

variable {config : AbuseConfig} {lastInstant : Nat}

namespace IpAbuseState

theorem activeConnections_expire (entry : IpAbuseState) (now : Nat) :
    (entry.expireBanIfNeeded now).activeConnections = entry.activeConnections := by
  unfold expireBanIfNeeded
  split <;> rfl

theorem activeConnections_offend (entry : IpAbuseState) (kind : OffenseKind) :
    (entry.offend kind).activeConnections = entry.activeConnections := by
  cases kind <;> rfl

theorem bannedUntil_offend (entry : IpAbuseState) (kind : OffenseKind) :
    (entry.offend kind).bannedUntil = entry.bannedUntil := by
  cases kind <;> rfl

/-- Only a ban that is over is lifted. -/
theorem expire_cases (entry : IpAbuseState) (now : Nat) :
    entry.expireBanIfNeeded now = entry ∨
      ∃ bannedUntil ≤ now, entry.bannedUntil = some bannedUntil := by
  unfold expireBanIfNeeded
  cases entry.bannedUntil with
  | none => exact .inl rfl
  | some bannedUntil =>
      by_cases ended : bannedUntil ≤ now
      · exact .inr ⟨bannedUntil, ended, rfl⟩
      · exact .inl (if_neg (by simpa using ended))

/-- The address is banned up to an instant that is still to come. -/
theorem isBanned_iff {entry : IpAbuseState} {now : Nat} :
    entry.isBanned now = true ↔ ∃ bannedUntil, entry.bannedUntil = some bannedUntil ∧
      now < bannedUntil := by
  unfold isBanned
  rw [Option.any_eq_true]
  simp only [decide_eq_true_eq, gt_iff_lt]

end IpAbuseState

namespace AbuseManager

@[simp] theorem entry_put (manager : AbuseManager) (ip other : IpAddr) (entry : IpAbuseState) :
    (manager.put ip entry).entry other = if other = ip then entry else manager.entry other := by
  unfold put AbuseManager.entry
  dsimp only
  rw [Function.update_apply]
  split <;> rfl

@[simp] theorem sessions_put (manager : AbuseManager) (ip : IpAddr) (entry : IpAbuseState)
    (address : Address) : (manager.put ip entry).sessions address = manager.sessions address := rfl

@[simp] theorem entry_putSessions (manager : AbuseManager) (address : Address)
    (active : Option UInt32) (ip : IpAddr) :
    (manager.putSessions address active).entry ip = manager.entry ip := rfl

@[simp] theorem sessions_putSessions (manager : AbuseManager) (address other : Address)
    (active : Option UInt32) :
    (manager.putSessions address active).sessions other =
      if other = address then active.getD 0 else manager.sessions other := by
  unfold putSessions sessions
  dsimp only
  rw [Function.update_apply]
  split <;> rfl

@[simp] theorem entry_close (manager : AbuseManager) (ip other : IpAddr) :
    (manager.close ip).entry other =
      if other = ip then
        { manager.entry ip with
          activeConnections := saturatingPred (manager.entry ip).activeConnections }
      else manager.entry other := by
  unfold close
  cases kept : manager.state ip with
  | none =>
      dsimp only
      split
      · rename_i same
        rw [same, AbuseManager.entry, kept]
        rfl
      · rfl
  | some entry =>
      have same : manager.entry ip = entry := by
        rw [AbuseManager.entry, kept]
        rfl
      dsimp only
      rw [entry_put, same]

@[simp] theorem sessions_close (manager : AbuseManager) (ip : IpAddr) (address : Address) :
    (manager.close ip).sessions address = manager.sessions address := by
  unfold close
  split <;> rfl

@[simp] theorem sessions_closeAddressSession (manager : AbuseManager) (address other : Address) :
    (manager.closeAddressSession address).sessions other =
      if other = address then saturatingPred (manager.sessions address)
      else manager.sessions other := by
  unfold closeAddressSession
  cases kept : manager.addressSessions address with
  | none =>
      dsimp only
      split
      · rename_i same
        rw [same, sessions, kept]
        rfl
      · rfl
  | some active =>
      dsimp only
      rw [sessions_putSessions]
      split
      · rw [sessions, kept, Option.getD_some]
        split
        · rename_i zero
          rw [zero]
          rfl
        · rfl
      · rfl

@[simp] theorem entry_closeAddressSession (manager : AbuseManager) (address : Address)
    (ip : IpAddr) : (manager.closeAddressSession address).entry ip = manager.entry ip := by
  unfold closeAddressSession
  split <;> rfl

theorem toNat_saturatingPred (n : UInt32) : (saturatingPred n).toNat = n.toNat - 1 := by
  unfold saturatingPred
  split
  · rename_i zero
    rw [zero]
    rfl
  · rename_i positive
    have one : (1 : UInt32) ≤ n := by
      rw [UInt32.le_iff_toNat_le]
      exact Nat.one_le_iff_ne_zero.2 fun zero => positive (UInt32.toNat_inj.1 zero)
    rw [UInt32.toNat_sub_of_le n 1 one]
    rfl

end AbuseManager

/-! ## What a call does to an entry -/

/-- The entry of an address before and after a call that ends at `clock`. -/
inductive EntryStep (config : AbuseConfig) (ip : IpAddr) (call : Call) (clock : Nat)
    (entry : IpAbuseState) : IpAbuseState → Prop
  | same : EntryStep config ip call clock entry entry
  | expired {now : Nat} (past : now ≤ clock) :
      EntryStep config ip call clock entry (entry.expireBanIfNeeded now)
  | opened {now : Nat} (past : now ≤ clock) :
      EntryStep config ip call clock entry
        { entry.expireBanIfNeeded now with activeConnections := entry.activeConnections + 1 }
  | offended {kind : OffenseKind} (offense : call = .recordOffense ip kind clock) :
      EntryStep config ip call clock entry ((entry.expireBanIfNeeded clock).offend kind)
  | banned {kind : OffenseKind} (offense : call = .recordOffense ip kind clock) :
      EntryStep config ip call clock entry
        { (entry.expireBanIfNeeded clock).offend kind with
          bannedUntil := some (clock + AbuseManager.banNanos config) }
  | closed :
      EntryStep config ip call clock entry
        { entry with activeConnections := AbuseManager.saturatingPred entry.activeConnections }

/-- A connection is opened, for an address that is not banned and below its bound, or refused. -/
theorem tryOpen_cases (config : AbuseConfig) (manager : AbuseManager) (ip : IpAddr) (now now' : Nat) :
    (∃ reject, manager.tryOpen config ip now now' =
      (.error reject, manager.put ip ((manager.entry ip).expireBanIfNeeded now))) ∨
    (((manager.entry ip).expireBanIfNeeded now).isBanned now' = false ∧
      (manager.entry ip).activeConnections < config.maxConnectionsPerIp ∧
      manager.tryOpen config ip now now' =
        (.ok (), manager.put ip { (manager.entry ip).expireBanIfNeeded now with
          activeConnections := (manager.entry ip).activeConnections + 1 })) := by
  unfold AbuseManager.tryOpen
  dsimp only
  split
  · exact .inl ⟨_, rfl⟩
  · rename_i free
    split
    · exact .inl ⟨_, rfl⟩
    · rename_i room
      rw [IpAbuseState.activeConnections_expire] at room ⊢
      exact .inr ⟨by simpa using free, UInt32.not_le.1 room, rfl⟩

theorem recordOffense_cases {manager : AbuseManager} {ip : IpAddr} {kind : OffenseKind} {now : Nat}
    {recorded : Bool × AbuseManager}
    (done : manager.recordOffense config lastInstant ip kind now = some recorded) :
    recorded = (false, manager.put ip (((manager.entry ip).expireBanIfNeeded now).offend kind)) ∨
    recorded = (true, manager.put ip
      { ((manager.entry ip).expireBanIfNeeded now).offend kind with
        bannedUntil := some (now + AbuseManager.banNanos config) }) := by
  unfold AbuseManager.recordOffense at done
  dsimp only at done
  split at done
  · split at done
    · cases done
    · exact .inr (Option.some.inj done).symm
  · exact .inl (Option.some.inj done).symm

theorem step_tryOpen {world world' : World} {ip : IpAddr} {now now' : Nat}
    (stepped : world.step config lastInstant (.tryOpen ip now now') = some world') :
    (world.clock ≤ now ∧ now ≤ now') ∧
    (world' = { world with
        manager := world.manager.put ip ((world.manager.entry ip).expireBanIfNeeded now)
        clock := now' } ∨
      ((world.manager.entry ip).expireBanIfNeeded now).isBanned now' = false ∧
      (world.manager.entry ip).activeConnections < config.maxConnectionsPerIp ∧
      world' = { world with
        manager := world.manager.put ip { (world.manager.entry ip).expireBanIfNeeded now with
          activeConnections := (world.manager.entry ip).activeConnections + 1 }
        connectionPermits := ip :: world.connectionPermits
        clock := now' }) := by
  unfold World.step at stepped
  dsimp only at stepped
  split at stepped
  · rename_i times
    refine ⟨times, ?_⟩
    rcases tryOpen_cases config world.manager ip now now' with
      ⟨reject, refused⟩ | ⟨free, room, granted⟩
    · rw [refused] at stepped
      exact .inl (Option.some.inj stepped).symm
    · rw [granted] at stepped
      exact .inr ⟨free, room, (Option.some.inj stepped).symm⟩
  · cases stepped

theorem step_tryOpenAddressSession {world world' : World} {address : Address}
    (stepped : world.step config lastInstant (.tryOpenAddressSession address) = some world') :
    world' = { world with
      manager := world.manager.putSessions address (some (world.manager.sessions address)) } ∨
    world.manager.sessions address < config.maxSessionsPerAddress ∧
      world' = { world with
        manager := world.manager.putSessions address (some (world.manager.sessions address + 1))
        addressSessionPermits := address :: world.addressSessionPermits } := by
  unfold World.step AbuseManager.tryOpenAddressSession at stepped
  dsimp only at stepped
  by_cases full : world.manager.sessions address ≥ config.maxSessionsPerAddress
  · rw [if_pos full] at stepped
    exact .inl (Option.some.inj stepped).symm
  · rw [if_neg full] at stepped
    exact .inr ⟨UInt32.not_le.1 full, (Option.some.inj stepped).symm⟩

theorem step_clock {world world' : World} {call : Call}
    (stepped : world.step config lastInstant call = some world') : world.clock ≤ world'.clock := by
  cases call with
  | tryOpen ip now now' =>
      obtain ⟨⟨first, second⟩, rfl | ⟨-, -, rfl⟩⟩ := step_tryOpen stepped
      · exact Nat.le_trans first second
      · exact Nat.le_trans first second
  | tryOpenAddressSession address =>
      obtain rfl | ⟨-, rfl⟩ := step_tryOpenAddressSession stepped
      · exact Nat.le_refl _
      · exact Nat.le_refl _
  | isBanned ip now now' =>
      obtain ⟨⟨first, second⟩, same⟩ := Option.ite_none_right_eq_some.1 stepped
      cases same
      exact Nat.le_trans first second
  | recordOffense ip kind now =>
      obtain ⟨first, recorded⟩ := Option.ite_none_right_eq_some.1 stepped
      obtain ⟨_, -, rfl⟩ := Option.map_eq_some_iff.1 recorded
      exact first
  | dropConnectionPermit ip =>
      obtain ⟨-, same⟩ := Option.ite_none_right_eq_some.1 stepped
      cases same
      exact Nat.le_refl _
  | dropAddressSessionPermit address =>
      obtain ⟨-, same⟩ := Option.ite_none_right_eq_some.1 stepped
      cases same
      exact Nat.le_refl _

/-- A step changes the entry of an address in one of the ways of `EntryStep`. -/
theorem step_entry {world world' : World} {call : Call}
    (stepped : world.step config lastInstant call = some world') (ip : IpAddr) :
    EntryStep config ip call world'.clock (world.manager.entry ip) (world'.manager.entry ip) := by
  cases call with
  | tryOpen opened now now' =>
      obtain ⟨⟨-, later⟩, rfl | ⟨-, -, rfl⟩⟩ := step_tryOpen stepped
      · dsimp only
        rw [AbuseManager.entry_put]
        split
        · rename_i here
          rw [here]
          exact .expired later
        · exact .same
      · dsimp only
        rw [AbuseManager.entry_put]
        split
        · rename_i here
          rw [here]
          exact .opened later
        · exact .same
  | tryOpenAddressSession address =>
      obtain rfl | ⟨-, rfl⟩ := step_tryOpenAddressSession stepped
      · exact .same
      · exact .same
  | isBanned asked now now' =>
      obtain ⟨⟨-, later⟩, same⟩ := Option.ite_none_right_eq_some.1 stepped
      cases same
      unfold AbuseManager.isBanned
      dsimp only
      rw [AbuseManager.entry_put]
      split
      · rename_i here
        rw [here]
        exact .expired later
      · exact .same
  | recordOffense offender kind now =>
      obtain ⟨-, recorded⟩ := Option.ite_none_right_eq_some.1 stepped
      obtain ⟨done, ran, rfl⟩ := Option.map_eq_some_iff.1 recorded
      dsimp only
      rcases recordOffense_cases ran with rfl | rfl
      · rw [AbuseManager.entry_put]
        split
        · rename_i here
          rw [here]
          exact .offended rfl
        · exact .same
      · rw [AbuseManager.entry_put]
        split
        · rename_i here
          rw [here]
          exact .banned rfl
        · exact .same
  | dropConnectionPermit dropped =>
      obtain ⟨-, same⟩ := Option.ite_none_right_eq_some.1 stepped
      cases same
      rw [AbuseManager.entry_close]
      split
      · rename_i here
        rw [here]
        exact .closed
      · exact .same
  | dropAddressSessionPermit address =>
      obtain ⟨-, same⟩ := Option.ite_none_right_eq_some.1 stepped
      cases same
      rw [AbuseManager.entry_closeAddressSession]
      exact .same

/-! ## Counts -/

/-- The counts are those of the live permits, and within their bounds. -/
structure Accounted (config : AbuseConfig) (world : World) : Prop where
  connections : ∀ ip, (world.manager.entry ip).activeConnections.toNat =
    world.connectionPermits.count ip
  connectionsBound : ∀ ip, world.connectionPermits.count ip ≤ config.maxConnectionsPerIp.toNat
  sessions : ∀ address, (world.manager.sessions address).toNat =
    world.addressSessionPermits.count address
  sessionsBound : ∀ address,
    world.addressSessionPermits.count address ≤ config.maxSessionsPerAddress.toNat

/-- A count below its bound is raised without a wrap. -/
theorem toNat_raised {n bound : UInt32} (room : n < bound) :
    (n + 1).toNat = n.toNat + 1 ∧ n.toNat + 1 ≤ bound.toNat := by
  have below := UInt32.lt_iff_toNat_lt.1 room
  have typed := bound.toNat_lt
  refine ⟨?_, below⟩
  rw [UInt32.toNat_add]
  exact Nat.mod_eq_of_lt (Nat.lt_of_le_of_lt below typed)

theorem Accounted.tryOpen {world world' : World} {ip : IpAddr} {now now' : Nat}
    (accounted : Accounted config world)
    (stepped : world.step config lastInstant (.tryOpen ip now now') = some world') :
    Accounted config world' := by
  obtain ⟨-, rfl | ⟨-, room, rfl⟩⟩ := step_tryOpen stepped
  · refine ⟨fun other => ?_, accounted.connectionsBound, accounted.sessions,
      accounted.sessionsBound⟩
    dsimp only
    rw [AbuseManager.entry_put]
    split
    · rename_i here
      rw [here, IpAbuseState.activeConnections_expire]
      exact accounted.connections ip
    · exact accounted.connections other
  · obtain ⟨raised, bound⟩ := toNat_raised room
    refine ⟨fun other => ?_, fun other => ?_, accounted.sessions, accounted.sessionsBound⟩
    · dsimp only
      rw [AbuseManager.entry_put, List.count_cons]
      by_cases here : other = ip
      · rw [if_pos here, if_pos (beq_iff_eq.2 here.symm), raised, here, accounted.connections]
      · rw [if_neg here, if_neg (by simpa using Ne.symm here), accounted.connections, Nat.add_zero]
    · dsimp only
      rw [List.count_cons]
      by_cases here : other = ip
      · rw [if_pos (beq_iff_eq.2 here.symm), here, ← accounted.connections]
        exact bound
      · rw [if_neg (by simpa using Ne.symm here), Nat.add_zero]
        exact accounted.connectionsBound other

theorem Accounted.tryOpenAddressSession {world world' : World} {address : Address}
    (accounted : Accounted config world)
    (stepped : world.step config lastInstant (.tryOpenAddressSession address) = some world') :
    Accounted config world' := by
  obtain rfl | ⟨room, rfl⟩ := step_tryOpenAddressSession stepped
  · refine ⟨accounted.connections, accounted.connectionsBound, fun other => ?_,
      accounted.sessionsBound⟩
    dsimp only
    rw [AbuseManager.sessions_putSessions]
    split
    · rename_i here
      rw [here, Option.getD_some]
      exact accounted.sessions address
    · exact accounted.sessions other
  · obtain ⟨raised, bound⟩ := toNat_raised room
    refine ⟨accounted.connections, accounted.connectionsBound, fun other => ?_, fun other => ?_⟩
    · dsimp only
      rw [AbuseManager.sessions_putSessions, List.count_cons]
      by_cases here : other = address
      · rw [if_pos here, if_pos (beq_iff_eq.2 here.symm), Option.getD_some, raised, here,
          accounted.sessions]
      · rw [if_neg here, if_neg (by simpa using Ne.symm here), accounted.sessions, Nat.add_zero]
    · dsimp only
      rw [List.count_cons]
      by_cases here : other = address
      · rw [if_pos (beq_iff_eq.2 here.symm), here, ← accounted.sessions]
        exact bound
      · rw [if_neg (by simpa using Ne.symm here), Nat.add_zero]
        exact accounted.sessionsBound other

/-- A call that leaves the connections, the sessions and the permits as they are. -/
theorem Accounted.of_same {world world' : World} (accounted : Accounted config world)
    (connections : ∀ ip, (world'.manager.entry ip).activeConnections =
      (world.manager.entry ip).activeConnections)
    (sessions : ∀ address, world'.manager.sessions address = world.manager.sessions address)
    (permits : world'.connectionPermits = world.connectionPermits)
    (sessionPermits : world'.addressSessionPermits = world.addressSessionPermits) :
    Accounted config world' where
  connections ip := by rw [connections, permits, accounted.connections]
  connectionsBound ip := by
    rw [permits]
    exact accounted.connectionsBound ip
  sessions address := by rw [sessions, sessionPermits, accounted.sessions]
  sessionsBound address := by
    rw [sessionPermits]
    exact accounted.sessionsBound address

theorem Accounted.drop {world world' : World} {ip : IpAddr} (accounted : Accounted config world)
    (stepped : world.step config lastInstant (.dropConnectionPermit ip) = some world') :
    Accounted config world' := by
  obtain ⟨-, same⟩ := Option.ite_none_right_eq_some.1 stepped
  cases same
  refine ⟨fun other => ?_, fun other => ?_, fun address => ?_, accounted.sessionsBound⟩
  · dsimp only
    rw [AbuseManager.entry_close, List.count_erase]
    by_cases here : other = ip
    · rw [if_pos here, if_pos (beq_iff_eq.2 here.symm), here, AbuseManager.toNat_saturatingPred,
        accounted.connections]
    · rw [if_neg here, if_neg (by simpa using Ne.symm here), Nat.sub_zero, accounted.connections]
  · exact Nat.le_trans (List.erase_sublist.count_le other) (accounted.connectionsBound other)
  · dsimp only
    rw [AbuseManager.sessions_close]
    exact accounted.sessions address

theorem Accounted.dropSession {world world' : World} {address : Address}
    (accounted : Accounted config world)
    (stepped : world.step config lastInstant (.dropAddressSessionPermit address) = some world') :
    Accounted config world' := by
  obtain ⟨-, same⟩ := Option.ite_none_right_eq_some.1 stepped
  cases same
  refine ⟨fun ip => ?_, accounted.connectionsBound, fun other => ?_, fun other => ?_⟩
  · dsimp only
    rw [AbuseManager.entry_closeAddressSession]
    exact accounted.connections ip
  · dsimp only
    rw [AbuseManager.sessions_closeAddressSession, List.count_erase]
    by_cases here : other = address
    · rw [if_pos here, if_pos (beq_iff_eq.2 here.symm), here, AbuseManager.toNat_saturatingPred,
        accounted.sessions]
    · rw [if_neg here, if_neg (by simpa using Ne.symm here), Nat.sub_zero, accounted.sessions]
  · exact Nat.le_trans (List.erase_sublist.count_le other) (accounted.sessionsBound other)

/-- **Every call keeps the accounts.** -/
theorem Accounted.step {world world' : World} {call : Call} (accounted : Accounted config world)
    (stepped : world.step config lastInstant call = some world') : Accounted config world' := by
  cases call with
  | tryOpen ip now now' => exact accounted.tryOpen stepped
  | tryOpenAddressSession address => exact accounted.tryOpenAddressSession stepped
  | isBanned ip now now' =>
      obtain ⟨-, same⟩ := Option.ite_none_right_eq_some.1 stepped
      cases same
      refine accounted.of_same (fun other => ?_) (fun _ => rfl) rfl rfl
      unfold AbuseManager.isBanned
      dsimp only
      rw [AbuseManager.entry_put]
      split
      · rename_i here
        rw [here, IpAbuseState.activeConnections_expire]
      · rfl
  | recordOffense ip kind now =>
      obtain ⟨-, recorded⟩ := Option.ite_none_right_eq_some.1 stepped
      obtain ⟨done, ran, rfl⟩ := Option.map_eq_some_iff.1 recorded
      rcases recordOffense_cases ran with rfl | rfl
      · refine accounted.of_same (fun other => ?_) (fun _ => rfl) rfl rfl
        dsimp only
        rw [AbuseManager.entry_put]
        split
        · rename_i here
          rw [here, IpAbuseState.activeConnections_offend, IpAbuseState.activeConnections_expire]
        · rfl
      · refine accounted.of_same (fun other => ?_) (fun _ => rfl) rfl rfl
        dsimp only
        rw [AbuseManager.entry_put]
        split
        · rename_i here
          dsimp only
          rw [here, IpAbuseState.activeConnections_offend, IpAbuseState.activeConnections_expire]
        · rfl
  | dropConnectionPermit ip => exact accounted.drop stepped
  | dropAddressSessionPermit address => exact accounted.dropSession stepped

/-- Every run keeps the accounts. -/
theorem accounted {world : World} (reached : (machine config lastInstant).Reachable world) :
    Accounted config world := by
  refine reached.invariant ?_ ?_
  · rintro _ rfl
    exact ⟨fun _ => rfl, fun _ => Nat.zero_le _, fun _ => rfl, fun _ => Nat.zero_le _⟩
  · intro world call world' _ accounted _ stepped
    exact accounted.step stepped

/-! ## Bans -/

/-- The ban of `ip` still runs at `time`. -/
def BannedAt (world : World) (ip : IpAddr) (time : Nat) : Prop :=
  ∃ bannedUntil, (world.manager.entry ip).bannedUntil = some bannedUntil ∧ time < bannedUntil

theorem expire_of_banned {entry : IpAbuseState} {now bannedUntil : Nat}
    (banned : entry.bannedUntil = some bannedUntil) (runs : now < bannedUntil) :
    entry.expireBanIfNeeded now = entry := by
  rcases entry.expire_cases now with same | ⟨ended, past, here⟩
  · exact same
  · rw [banned] at here
    cases here
    omega

/-- A ban that is still there was there before. -/
theorem bannedUntil_of_expire {entry : IpAbuseState} {now bannedUntil : Nat}
    (banned : (entry.expireBanIfNeeded now).bannedUntil = some bannedUntil) :
    entry.bannedUntil = some bannedUntil := by
  unfold IpAbuseState.expireBanIfNeeded at banned
  split at banned
  · cases banned
  · exact banned

/-- No ban ends later than one that begins now. -/
def BansBounded (config : AbuseConfig) (world : World) : Prop :=
  ∀ ip bannedUntil, (world.manager.entry ip).bannedUntil = some bannedUntil →
    bannedUntil ≤ world.clock + AbuseManager.banNanos config

theorem EntryStep.bounded {ip : IpAddr} {call : Call} {clock clock' : Nat}
    {entry entry' : IpAbuseState} (stepped : EntryStep config ip call clock' entry entry')
    (later : clock ≤ clock')
    (bounded : ∀ bannedUntil, entry.bannedUntil = some bannedUntil →
      bannedUntil ≤ clock + AbuseManager.banNanos config) (bannedUntil : Nat)
    (banned : entry'.bannedUntil = some bannedUntil) :
    bannedUntil ≤ clock' + AbuseManager.banNanos config := by
  have earlier : ∀ {bannedUntil}, entry.bannedUntil = some bannedUntil →
      bannedUntil ≤ clock' + AbuseManager.banNanos config := by
    intro bannedUntil before
    have bound := bounded bannedUntil before
    omega
  cases stepped with
  | same => exact earlier banned
  | expired _ => exact earlier (bannedUntil_of_expire banned)
  | opened _ => exact earlier (bannedUntil_of_expire banned)
  | offended _ =>
      rw [IpAbuseState.bannedUntil_offend] at banned
      exact earlier (bannedUntil_of_expire banned)
  | banned _ =>
      cases banned
      exact Nat.le_refl _
  | closed => exact earlier banned

/-- No ban goes further than its length past the last reading of the clock. -/
theorem bansBounded {world : World} (reached : (machine config lastInstant).Reachable world) :
    BansBounded config world := by
  refine reached.invariant ?_ ?_
  · rintro _ rfl ip bannedUntil banned
    cases banned
  · intro world call world' _ bounded _ stepped ip
    exact (step_entry stepped ip).bounded (step_clock stepped) (bounded ip)

/-- A ban that still runs is kept, or replaced by one that ends no earlier. -/
theorem EntryStep.kept {ip : IpAddr} {call : Call} {clock bannedUntil : Nat}
    {entry entry' : IpAbuseState} (stepped : EntryStep config ip call clock entry entry')
    (bounded : bannedUntil ≤ clock + AbuseManager.banNanos config) (runs : clock < bannedUntil)
    (banned : entry.bannedUntil = some bannedUntil) :
    ∃ bannedUntil' ≥ bannedUntil, entry'.bannedUntil = some bannedUntil' := by
  cases stepped with
  | same => exact ⟨_, Nat.le_refl _, banned⟩
  | expired past =>
      rw [expire_of_banned banned (Nat.lt_of_le_of_lt past runs)]
      exact ⟨_, Nat.le_refl _, banned⟩
  | opened past =>
      rw [expire_of_banned banned (Nat.lt_of_le_of_lt past runs)]
      exact ⟨_, Nat.le_refl _, banned⟩
  | offended _ =>
      rw [expire_of_banned banned runs, IpAbuseState.bannedUntil_offend]
      exact ⟨_, Nat.le_refl _, banned⟩
  | banned _ => exact ⟨_, bounded, rfl⟩
  | closed => exact ⟨_, Nat.le_refl _, banned⟩

/-- A ban that runs at a time runs at that time in every later state. -/
theorem bannedAt_future {world : World} {ip : IpAddr} {time : Nat}
    (reached : (machine config lastInstant).Reachable world) (banned : BannedAt world ip time)
    {world' : World} (future : ((machine config lastInstant).startingAt world).Reachable world') :
    world'.clock ≤ time → BannedAt world' ip time := by
  induction future with
  | start initial =>
      cases initial
      exact fun _ => banned
  | next before _ stepped ih =>
      intro early
      obtain ⟨bannedUntil, runs, past⟩ := ih (Nat.le_trans (step_clock stepped) early)
      have bounded := bansBounded (reached.trans before) ip bannedUntil runs
      obtain ⟨bannedUntil', extended, runs'⟩ := (step_entry stepped ip).kept
        (Nat.le_trans bounded (Nat.add_le_add_right (step_clock stepped) _))
        (Nat.lt_of_le_of_lt early past) runs
      exact ⟨bannedUntil', runs', Nat.lt_of_lt_of_le past extended⟩

/-- A call that grants a connection to an address found it free of a ban. -/
theorem not_bannedAt_of_granted {world world' : World} {call : Call} {ip : IpAddr}
    (stepped : world.step config lastInstant call = some world')
    (granted : world.connectionPermits.count ip < world'.connectionPermits.count ip) :
    ¬ BannedAt world ip world'.clock ∧ ¬ BannedAt world' ip world'.clock := by
  have unchanged : world'.connectionPermits ≠ world.connectionPermits := by
    intro same
    rw [same] at granted
    omega
  cases call with
  | tryOpen opened now now' =>
      obtain ⟨⟨-, later⟩, rfl | ⟨free, -, rfl⟩⟩ := step_tryOpen stepped
      · exact absurd rfl unchanged
      · dsimp only at granted
        have here : ip = opened := by
          by_contra other
          rw [List.count_cons_of_ne (Ne.symm other)] at granted
          omega
        subst here
        have open_ : ¬ ∃ bannedUntil, ((world.manager.entry ip).expireBanIfNeeded now).bannedUntil =
            some bannedUntil ∧ now' < bannedUntil := by
          rw [← IpAbuseState.isBanned_iff, free]
          exact Bool.false_ne_true
        constructor
        · rintro ⟨bannedUntil, banned, runs⟩
          refine open_ ⟨bannedUntil, ?_, runs⟩
          rw [expire_of_banned banned (Nat.lt_of_le_of_lt later runs)]
          exact banned
        · rintro ⟨bannedUntil, banned, runs⟩
          dsimp only at banned
          rw [AbuseManager.entry_put, if_pos rfl] at banned
          exact open_ ⟨bannedUntil, banned, runs⟩
  | tryOpenAddressSession address =>
      obtain rfl | ⟨-, rfl⟩ := step_tryOpenAddressSession stepped
      · exact absurd rfl unchanged
      · exact absurd rfl unchanged
  | isBanned asked now now' =>
      obtain ⟨-, same⟩ := Option.ite_none_right_eq_some.1 stepped
      cases same
      exact absurd rfl unchanged
  | recordOffense offender kind now =>
      obtain ⟨-, recorded⟩ := Option.ite_none_right_eq_some.1 stepped
      obtain ⟨_, -, rfl⟩ := Option.map_eq_some_iff.1 recorded
      exact absurd rfl unchanged
  | dropConnectionPermit dropped =>
      obtain ⟨-, same⟩ := Option.ite_none_right_eq_some.1 stepped
      cases same
      have fewer := (List.erase_sublist (a := dropped) (l := world.connectionPermits)).count_le ip
      dsimp only at granted
      omega
  | dropAddressSessionPermit address =>
      obtain ⟨-, same⟩ := Option.ite_none_right_eq_some.1 stepped
      cases same
      exact absurd rfl unchanged

/-! ## Offenses -/

/-- A counter returns to zero only where a ban is over. -/
def CountersKept (world world' : World) : Prop :=
  ∀ ip kind, (world.manager.entry ip).offenses kind ≠ 0 →
    (world'.manager.entry ip).offenses kind = 0 →
      ∃ bannedUntil ≤ world'.clock, (world.manager.entry ip).bannedUntil = some bannedUntil

/-- The call counts an offense where the counter is at its end and no ban is over. -/
def Overflows (world : World) (call : Call) : Prop :=
  ∃ ip kind now, call = .recordOffense ip kind now ∧
    (world.manager.entry ip).offenses kind = 4294967295 ∧
    ∀ bannedUntil, (world.manager.entry ip).bannedUntil = some bannedUntil → now < bannedUntil

theorem offenses_offend (entry : IpAbuseState) (kind other : OffenseKind) :
    (entry.offend kind).offenses other =
      if other = kind then entry.offenses other + 1 else entry.offenses other := by
  cases kind <;> cases other <;> rfl

theorem succ_eq_zero_iff {n : UInt32} : n + 1 = 0 ↔ n = 4294967295 := by
  constructor
  · intro wrapped
    have cancelled : n + 1 - 1 = 0 - 1 := by rw [wrapped]
    rwa [UInt32.add_sub_cancel] at cancelled
  · rintro rfl
    rfl

/-- A counter goes back to zero in two ways: with its ban, or past its end. -/
theorem countersKept_iff {world world' : World} {call : Call}
    (stepped : world.step config lastInstant call = some world') :
    CountersKept world world' ↔ ¬ Overflows world call := by
  constructor
  · rintro kept ⟨ip, kind, now, rfl, full, runs⟩
    obtain ⟨-, recorded⟩ := Option.ite_none_right_eq_some.1 stepped
    obtain ⟨done, ran, rfl⟩ := Option.map_eq_some_iff.1 recorded
    have unexpired : (world.manager.entry ip).expireBanIfNeeded now = world.manager.entry ip := by
      rcases (world.manager.entry ip).expire_cases now with same | ⟨ended, past, banned⟩
      · exact same
      · have later := runs ended banned
        omega
    have wrapped : ((world.manager.entry ip).offend kind).offenses kind = 0 := by
      rw [offenses_offend, if_pos rfl, full]
      rfl
    have zero : (done.2.entry ip).offenses kind = 0 := by
      rcases recordOffense_cases ran with rfl | rfl
      · rw [AbuseManager.entry_put, if_pos rfl, unexpired]
        exact wrapped
      · rw [AbuseManager.entry_put, if_pos rfl, unexpired]
        cases kind <;> exact wrapped
    obtain ⟨bannedUntil, past, banned⟩ := kept ip kind (by rw [full]; decide) zero
    exact Nat.lt_irrefl _ (Nat.lt_of_lt_of_le (runs bannedUntil banned) past)
  · intro fits ip kind counted zero
    have offended : ∀ {kind'}, call = .recordOffense ip kind' world'.clock →
        (((world.manager.entry ip).expireBanIfNeeded world'.clock).offend kind').offenses kind = 0 →
          ∃ bannedUntil ≤ world'.clock,
            (world.manager.entry ip).bannedUntil = some bannedUntil := by
      intro kind' offense zero
      rcases (world.manager.entry ip).expire_cases world'.clock with same | ended
      · rw [same, offenses_offend] at zero
        split at zero
        · rename_i here
          subst here
          by_contra unexpired
          refine fits ⟨ip, kind, world'.clock, offense, succ_eq_zero_iff.1 zero, ?_⟩
          intro bannedUntil banned
          by_contra past
          exact unexpired ⟨bannedUntil, Nat.not_lt.1 past, banned⟩
        · exact absurd zero counted
      · exact ended
    have expired : ∀ {now}, now ≤ world'.clock →
        ((world.manager.entry ip).expireBanIfNeeded now).offenses kind = 0 →
          ∃ bannedUntil ≤ world'.clock,
            (world.manager.entry ip).bannedUntil = some bannedUntil := by
      intro now past zero
      rcases (world.manager.entry ip).expire_cases now with same | ⟨ended, before, banned⟩
      · rw [same] at zero
        exact absurd zero counted
      · exact ⟨ended, Nat.le_trans before past, banned⟩
    have change := step_entry stepped ip
    generalize world'.manager.entry ip = entry' at change zero
    cases change with
    | same => exact absurd zero counted
    | expired past => exact expired past zero
    | opened past => exact expired past (by cases kind <;> exact zero)
    | offended offense => exact offended offense zero
    | banned offense => exact offended offense (by cases kind <;> exact zero)
    | closed => exact absurd (by cases kind <;> exact zero) counted

/-! ## Every run -/

/-- What is promised of a state: exact counts that no drop takes below zero, bans that last, and
no connection for who is banned. -/
structure Orderly (config : AbuseConfig) (lastInstant : Nat) (world : World) : Prop where
  accounted : Accounted config world
  connectionHeld : ∀ ip ∈ world.connectionPermits, (world.manager.entry ip).activeConnections ≠ 0
  sessionHeld : ∀ address ∈ world.addressSessionPermits, world.manager.sessions address ≠ 0
  banLasts : ∀ ip time world', BannedAt world ip time →
    ((machine config lastInstant).startingAt world).Reachable world' → world'.clock ≤ time →
      BannedAt world' ip time
  noneBanned : ∀ call world' ip, world.step config lastInstant call = some world' →
    world.connectionPermits.count ip < world'.connectionPermits.count ip →
      ¬ BannedAt world ip world'.clock ∧ ¬ BannedAt world' ip world'.clock

theorem ne_zero_of_count {n : UInt32} {count : Nat} (counted : n.toNat = count)
    (live : 0 < count) : n ≠ 0 := by
  rintro rfl
  rw [← counted] at live
  exact absurd live (by decide)

theorem orderly {world : World} (reached : (machine config lastInstant).Reachable world) :
    Orderly config lastInstant world where
  accounted := accounted reached
  connectionHeld ip live :=
    ne_zero_of_count ((accounted reached).connections ip) (List.count_pos_iff.2 live)
  sessionHeld address live :=
    ne_zero_of_count ((accounted reached).sessions address) (List.count_pos_iff.2 live)
  banLasts _ _ _ banned future early := bannedAt_future reached banned future early
  noneBanned _ _ _ stepped granted := not_bannedAt_of_granted stepped granted

/-- **Abuse accounting.**  Every reachable state is in order, and a call returns a counter to zero
under no expired ban exactly where it counts past the counter's end. -/
theorem abuse_accounting (config : AbuseConfig) (lastInstant : Nat) (world : World)
    (reached : (machine config lastInstant).Reachable world) :
    Orderly config lastInstant world ∧
      ∀ call world', world.step config lastInstant call = some world' →
        (CountersKept world world' ↔ ¬ Overflows world call) :=
  ⟨orderly reached, fun _ _ stepped => countersKept_iff stepped⟩

def defaultConfig : AbuseConfig where
  maxConnectionsPerIp := 32
  maxSessionsPerAddress := 64
  malformedFrameLimit := 8
  authFailureLimit := 5
  invalidShareLimit := 16
  banSecs := 600

def someIp : IpAddr := .v4 0x7f000001

def someMiner : Address := "00112233445566778899aabbccddeeff00112233"

/-- Two connections and a session are open when the fifth authorization fails. -/
def bannedRun : List Call :=
  [.tryOpen someIp 0 0, .tryOpen someIp 1 1, .tryOpenAddressSession someMiner,
    .recordOffense someIp .malformedFrame 2] ++
    List.replicate 5 (.recordOffense someIp .authFailure 3)

/-- Two connections and a session are open when the fifth failed authorization brings the ban. -/
theorem abuse_accounting_banned :
    ∃ world, (machine defaultConfig (2 ^ 63)).Reachable world ∧
      world.connectionPermits = [someIp, someIp] ∧ world.addressSessionPermits = [someMiner] ∧
      world.manager.entry someIp = ⟨2, 1, 5, 0, some 600000000003⟩ ∧
      Orderly defaultConfig (2 ^ 63) world ∧
      ∀ call world', world.step defaultConfig (2 ^ 63) call = some world' →
        (CountersKept world world' ↔ ¬ Overflows world call) := by
  obtain ⟨world, reached, shown⟩ := Machine.exists_of_run (machine defaultConfig (2 ^ 63))
    (s := ⟨.new, [], [], 0⟩) rfl bannedRun
    (fun world => decide (world.connectionPermits = [someIp, someIp] ∧
      world.addressSessionPermits = [someMiner] ∧
      world.manager.entry someIp = ⟨2, 1, 5, 0, some 600000000003⟩))
    (by decide +kernel)
  obtain ⟨connections, sessions, entry⟩ := of_decide_eq_true shown
  have law := abuse_accounting defaultConfig (2 ^ 63) world reached
  exact ⟨world, reached, connections, sessions, entry, law.1, law.2⟩

/-- The clock has not moved, and a ban of the address runs, if there is one. -/
def AtStart (world : World) : Prop :=
  world.clock = 0 ∧
    ∀ bannedUntil, (world.manager.entry someIp).bannedUntil = some bannedUntil → 0 < bannedUntil

theorem AtStart.offend {world : World} (start : AtStart world) : ∃ world',
    world.step defaultConfig (2 ^ 63) (.recordOffense someIp .malformedFrame 0) = some world' ∧
      AtStart world' ∧ (world'.manager.entry someIp).offenses .malformedFrame =
        (world.manager.entry someIp).offenses .malformedFrame + 1 := by
  have unexpired : (world.manager.entry someIp).expireBanIfNeeded 0 =
      world.manager.entry someIp := by
    rcases (world.manager.entry someIp).expire_cases 0 with same | ⟨ended, past, banned⟩
    · exact same
    · exact absurd past (Nat.not_le.2 (start.2 ended banned))
  have nanos : AbuseManager.banNanos defaultConfig = 600000000000 := by decide
  have recorded : ∃ done,
      world.manager.recordOffense defaultConfig (2 ^ 63) someIp .malformedFrame 0 = some done := by
    unfold AbuseManager.recordOffense
    dsimp only
    split
    · rw [if_neg (by rw [nanos]; decide)]
      exact ⟨_, rfl⟩
    · exact ⟨_, rfl⟩
  obtain ⟨done, ran⟩ := recorded
  refine ⟨{ world with manager := done.2, clock := 0 }, ?_, ⟨rfl, ?_⟩, ?_⟩
  · unfold World.step
    dsimp only
    rw [if_pos (Nat.le_of_eq start.1), ran]
    rfl
  · intro bannedUntil banned
    rcases recordOffense_cases ran with rfl | rfl
    · rw [AbuseManager.entry_put, if_pos rfl, unexpired, IpAbuseState.bannedUntil_offend] at banned
      exact start.2 bannedUntil banned
    · rw [AbuseManager.entry_put, if_pos rfl, nanos] at banned
      cases banned
      decide
  · rcases recordOffense_cases ran with rfl | rfl
    · rw [AbuseManager.entry_put, if_pos rfl, unexpired]
      rfl
    · rw [AbuseManager.entry_put, if_pos rfl, unexpired]
      rfl

/-- Malformed frames count up to the end of the counter, all in one instant. -/
theorem offended_reachable : ∀ n < 2 ^ 32, ∃ world,
    (machine defaultConfig (2 ^ 63)).Reachable world ∧ AtStart world ∧
      ((world.manager.entry someIp).offenses .malformedFrame).toNat = n
  | 0, _ => ⟨⟨.new, [], [], 0⟩, .start rfl, ⟨rfl, fun _ banned => by cases banned⟩, rfl⟩
  | n + 1, small => by
      obtain ⟨world, reached, start, counted⟩ := offended_reachable n (Nat.lt_of_succ_lt small)
      obtain ⟨world', stepped, start', raised⟩ := start.offend
      have moved : (machine defaultConfig (2 ^ 63)).step world
          (.recordOffense someIp .malformedFrame 0) = some world' := stepped
      refine ⟨world', reached.next trivial moved, start', ?_⟩
      rw [raised, UInt32.toNat_add, counted]
      exact Nat.mod_eq_of_lt small

/-- After that the next malformed frame returns the counter to zero, with no ban over. -/
theorem counter_wraps_under_ban :
    ¬ ∀ config lastInstant world call world', (machine config lastInstant).Reachable world →
      world.step config lastInstant call = some world' → CountersKept world world' := by
  intro kept
  obtain ⟨world, reached, start, counted⟩ := offended_reachable 4294967295 (by decide)
  obtain ⟨world', stepped, start', raised⟩ := start.offend
  have full : (world.manager.entry someIp).offenses .malformedFrame = 4294967295 :=
    UInt32.toNat_inj.1 counted
  rw [full] at raised
  obtain ⟨bannedUntil, ended, banned⟩ := kept _ _ _ _ _ reached stepped someIp .malformedFrame
    (by rw [full]; decide) raised
  rw [start'.1] at ended
  exact Nat.lt_irrefl _ (Nat.lt_of_lt_of_le (start.2 bannedUntil banned) ended)

end CsdPool.Bridge.Abuse
