/-
# Alerts.Events — the alert table

An alert goes under its fingerprint: raising it again renews its row, and resolving it marks the
row, if it is active.  `active` is what the rest reads of the table, and each write has one equation
for it.  The list of alerts is the active ones, the last seen first, up to a limit.

A fingerprint starts with a word of its kind, or is that word (`KindOf`), and the code writes no
alert under another kind's fingerprint: that is `Filed`.
-/
import CsdPool.Text
import CsdPool.Theory.Table
import Mathlib.Data.List.Sort

namespace CsdPool.Alerts

open Theory (Keyed Table)

set_option autoImplicit false

/-- The kinds of alerts, one for each condition that is checked. -/
inductive AlertKind
  | serviceHealth
  | noAcceptedShares
  | templateAge
  | blockSubmission
  | payoutStuck
  | workerOffline
  | highRejectRate
  | highStaleRate
  deriving DecidableEq, Repr

def AlertKind.asStr : AlertKind → String
  | serviceHealth => "service_health"
  | noAcceptedShares => "no_accepted_shares"
  | templateAge => "template_age"
  | blockSubmission => "block_submission"
  | payoutStuck => "payout_stuck"
  | workerOffline => "worker_offline"
  | highRejectRate => "high_reject_rate"
  | highStaleRate => "high_stale_rate"

/-- The values `alert_events_severity` admits. -/
inductive Severity
  | info
  | warning
  | critical
  deriving DecidableEq, Repr

/-- The values `alert_events_status` admits. -/
inductive AlertStatus
  | active
  | resolved
  deriving DecidableEq, Repr

/-- An alert that was raised, up or resolved, with the time it was last seen. -/
structure AlertEvent where
  fingerprint : String
  severity : Severity
  status : AlertStatus
  kind : AlertKind
  subject : String
  lastSeenAt : Nat
  resolvedAt : Option Nat
  deriving DecidableEq, Repr

instance : Keyed AlertEvent String := ⟨AlertEvent.fingerprint⟩

/-- The rows, in the order of their ids. -/
abbrev AlertTable := Table AlertEvent

/-- What a caller of `upsertAlert` names; the row takes its times from the database. -/
structure AlertDraft where
  fingerprint : String
  severity : Severity
  kind : AlertKind
  subject : String
  deriving DecidableEq, Repr

/-- An alert that is there is seen again, and is active again; any other one is new. -/
def upsertAlert (table : AlertTable) (alert : AlertDraft) (now : Nat) : AlertTable :=
  table.put
    { fingerprint := alert.fingerprint
      severity := alert.severity
      status := .active
      kind := alert.kind
      subject := alert.subject
      lastSeenAt := now
      resolvedAt := none }

/-- An active alert is resolved; the answer tells whether there was one. -/
def resolveAlert (table : AlertTable) (fingerprint : String) (now : Nat) : AlertTable × Bool :=
  table.update fingerprint (fun row => row.status = .active) fun row =>
    { row with
      status := .resolved
      resolvedAt := some (row.resolvedAt.getD now)
      lastSeenAt := now }

/-- `order by last_seen_at desc, id desc`. -/
def listAlerts (table : AlertTable) (status : Option AlertStatus) (limit : Nat) :
    List AlertEvent :=
  ((table.rows.reverse.filter fun row => status.all (row.status = ·)).insertionSort
    fun a b => b.lastSeenAt ≤ a.lastSeenAt).take limit

/-! ## Active fingerprints -/

/-- The fingerprint has an active alert. -/
def Active (table : AlertTable) (fingerprint : String) : Prop :=
  ∃ row, table.find? fingerprint = some row ∧ row.status = .active

instance (table : AlertTable) (fingerprint : String) : Decidable (Active table fingerprint) :=
  decidable_of_iff ((table.find? fingerprint).any (·.status = .active) = true) (by
    simp [Active, Option.any_eq_true])

/-- A raised alert is active, and no other one changes. -/
theorem active_upsertAlert (table : AlertTable) (alert : AlertDraft) (now : Nat)
    (fingerprint : String) :
    Active (upsertAlert table alert now) fingerprint ↔
      fingerprint = alert.fingerprint ∨ Active table fingerprint := by
  unfold Active upsertAlert
  rw [Table.find?_put]
  by_cases same : alert.fingerprint = fingerprint
  · subst same
    simp [Keyed.key]
  · have same : ¬ Keyed.key (⟨alert.fingerprint, alert.severity, .active, alert.kind,
        alert.subject, now, none⟩ : AlertEvent) = fingerprint := same
    rw [if_neg same]
    exact ⟨.inr, fun either => either.resolve_left fun other => same other.symm⟩

/-- A resolved alert is not active, and no other one changes. -/
theorem active_resolveAlert (table : AlertTable) (resolved : String) (now : Nat)
    (fingerprint : String) :
    Active (resolveAlert table resolved now).1 fingerprint ↔
      Active table fingerprint ∧ fingerprint ≠ resolved := by
  unfold Active resolveAlert
  rw [Table.find?_update]
  cases table.find? fingerprint with
  | none => simp
  | some row =>
      by_cases same : fingerprint = resolved
      · by_cases status : row.status = .active <;> simp [same, status]
      · simp [same]

theorem mem_listAlerts_active {table : AlertTable} {limit : Nat} {row : AlertEvent}
    (listed : row ∈ listAlerts table (some .active) limit) :
    row ∈ table.rows ∧ row.status = .active := by
  have member := (List.mem_insertionSort _).1 (List.mem_of_mem_take listed)
  obtain ⟨inRows, status⟩ := List.mem_filter.1 member
  exact ⟨List.mem_reverse.1 inRows, by simpa using status⟩

/-! ## Fingerprints and kinds -/

/-- The text through its first colon. -/
def throughColon : List Char → List Char
  | [] => []
  | c :: rest => if c = ':' then [c] else c :: throughColon rest

/-- What the fingerprints of a kind begin with. -/
def AlertKind.tag : AlertKind → List Char
  | .serviceHealth => "health:".toList
  | .noAcceptedShares => "no_accepted_shares".toList
  | .templateAge => "template_age".toList
  | .blockSubmission => "block_submission:".toList
  | .payoutStuck => "payout_stuck:".toList
  | .workerOffline => "worker_offline:".toList
  | .highRejectRate => "high_reject_rate:".toList
  | .highStaleRate => "high_stale_rate:".toList

theorem AlertKind.tag_injective {kind kind' : AlertKind} (same : kind.tag = kind'.tag) :
    kind = kind' := by
  revert same
  cases kind <;> cases kind' <;> decide

/-- The fingerprint is one of the kind's. -/
def KindOf (fingerprint : String) (kind : AlertKind) : Prop :=
  throughColon fingerprint.toList = kind.tag

instance (fingerprint : String) (kind : AlertKind) : Decidable (KindOf fingerprint kind) :=
  inferInstanceAs (Decidable (_ = _))

/-- A fingerprint belongs to one kind. -/
theorem KindOf.unique {fingerprint : String} {kind kind' : AlertKind}
    (one : KindOf fingerprint kind) (other : KindOf fingerprint kind') : kind = kind' :=
  AlertKind.tag_injective (one.symm.trans other)

/-- What follows a text with a colon is not read. -/
theorem throughColon_append {text : List Char} (closed : ':' ∈ throughColon text)
    (rest : List Char) : throughColon (text ++ rest) = throughColon text := by
  induction text with
  | nil => cases closed
  | cons c text ih =>
      rw [List.cons_append]
      unfold throughColon at closed ⊢
      split at closed
      · rename_i colon
        rw [if_pos colon, if_pos colon]
      · rename_i other
        have closed := (List.mem_cons.1 closed).resolve_left (Ne.symm other)
        rw [if_neg other, if_neg other, ih closed]

/-- A text without a colon is read to its end. -/
theorem throughColon_eq {text : List Char} (plain : ':' ∉ throughColon text) :
    throughColon text = text := by
  induction text with
  | nil => rfl
  | cons c rest ih =>
      unfold throughColon at plain ⊢
      split at plain
      · rename_i colon
        exact absurd (List.mem_singleton.2 colon.symm) plain
      · rename_i other
        rw [if_neg other, ih fun member => plain (List.mem_cons_of_mem _ member)]

/-- Every alert of the table is under a fingerprint of its kind. -/
def Filed (table : AlertTable) : Prop := ∀ row ∈ table.rows, KindOf row.fingerprint row.kind

/-- The fingerprint says of which kind the alert is. -/
def AlertDraft.Filed (alert : AlertDraft) : Prop := KindOf alert.fingerprint alert.kind

theorem Filed.upsertAlert {table : AlertTable} (filed : Filed table) {alert : AlertDraft}
    (own : alert.Filed) (now : Nat) : Filed (upsertAlert table alert now) := by
  intro row member
  rcases Table.mem_put.1 member with rfl | ⟨before, -⟩
  · exact own
  · exact filed row before

theorem Filed.resolveAlert {table : AlertTable} (filed : Filed table) (fingerprint : String)
    (now : Nat) : Filed (resolveAlert table fingerprint now).1 := by
  intro row member
  obtain ⟨before, inRows, rfl⟩ := List.mem_map.1 member
  have own := filed before inRows
  split <;> exact own

end CsdPool.Alerts
