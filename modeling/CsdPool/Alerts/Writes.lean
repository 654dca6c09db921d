/-
# Alerts.Writes — what a run writes, in order

A run touches the alert table by its writes alone: it raises an alert at the time of the write, or
takes one down.  So a log of the fingerprints, each raised or taken down, says what the table shows
after them (`Run.Wrote`), from the table as it was before the run and the clock; no other table in
between is needed.  In particular it says what a sweep lists: the alerts with fewer than a thousand
active ones ahead of them, by when they were last seen and then by their ids (`Wrote.mem_listed`).
-/
import CsdPool.Alerts.Check
import CsdPool.Theory.Board

namespace CsdPool.Alerts

open Theory
open Theory.Board (Sightings Write raise takeDown)

set_option autoImplicit false

/-- When each active alert was last seen. -/
def sightings (table : AlertTable) : Sightings String := fun fingerprint =>
  ((table.find? fingerprint).filter (·.status = .active)).map AlertEvent.lastSeenAt

/-- The fingerprints in the order of their ids. -/
def fingerprints (table : AlertTable) : List String := table.rows.map AlertEvent.fingerprint

/-- After the writes of `log`, the thousand active alerts seen last have the fingerprint's among
them. -/
def InSight (clock : Nat → Nat) (table : AlertTable) (log : List (Write String))
    (fingerprint : String) : Prop :=
  Board.InSight (fingerprints table).idxOf ((sightings table).after clock 0 log) 1000 fingerprint

open Classical in
/-- What a sweep takes down after the writes of `log`: the active alerts of its kinds that it lists
and does not keep. -/
noncomputable def swept (clock : Nat → Nat) (table : AlertTable) (log : List (Write String))
    (kinds : AlertKind → Bool) (kept : List String) : List String :=
  (table.rows.filter fun row => row.status = .active ∧ kinds row.kind = true ∧
    row.fingerprint ∉ kept ∧ InSight clock table log row.fingerprint).map AlertEvent.fingerprint

/-! ## One write -/

variable {table : AlertTable} {fingerprint : String}

theorem sightings_eq_some {time : Nat} :
    sightings table fingerprint = some time ↔ ∃ row ∈ table.rows,
      row.fingerprint = fingerprint ∧ row.status = .active ∧ row.lastSeenAt = time := by
  unfold sightings
  rw [Option.map_eq_some_iff]
  constructor
  · rintro ⟨row, found, rfl⟩
    obtain ⟨found, status⟩ := Option.filter_eq_some_iff.1 found
    exact ⟨row, Table.mem_of_find? found, Table.key_of_find? found, of_decide_eq_true status, rfl⟩
  · rintro ⟨row, member, rfl, status, rfl⟩
    exact ⟨row, Option.filter_eq_some_iff.2 ⟨Table.find?_of_mem member, decide_eq_true status⟩,
      rfl⟩

theorem active_iff_sightings : Active table fingerprint ↔ sightings table fingerprint ≠ none := by
  rw [Option.ne_none_iff_exists']
  constructor
  · rintro ⟨row, found, status⟩
    exact ⟨row.lastSeenAt, sightings_eq_some.2
      ⟨row, Table.mem_of_find? found, Table.key_of_find? found, status, rfl⟩⟩
  · rintro ⟨time, seen⟩
    obtain ⟨row, member, rfl, status, -⟩ := sightings_eq_some.1 seen
    exact ⟨row, Table.find?_of_mem member, status⟩

theorem sightings_upsertAlert (table : AlertTable) (alert : AlertDraft) (now : Nat) :
    sightings (upsertAlert table alert now) =
      Function.update (sightings table) alert.fingerprint (some now) := by
  funext fingerprint
  rw [Function.update_apply, sightings, upsertAlert, Table.find?_put]
  show (Option.filter _ (if alert.fingerprint = fingerprint then _ else _)).map _ = _
  by_cases same : fingerprint = alert.fingerprint
  · rw [if_pos same.symm, if_pos same]
    rfl
  · rw [if_neg (Ne.symm same), if_neg same]
    rfl

theorem sightings_resolveAlert (table : AlertTable) (resolved : String) (now : Nat) :
    sightings (resolveAlert table resolved now).1 =
      Function.update (sightings table) resolved none := by
  funext fingerprint
  rw [Function.update_apply, sightings, resolveAlert, Table.find?_update, sightings]
  cases table.find? fingerprint with
  | none => simp
  | some row =>
      by_cases same : fingerprint = resolved
      · by_cases status : row.status = .active <;> simp [same, status]
      · simp [same]

theorem fingerprints_upsertAlert (table : AlertTable) (alert : AlertDraft) (now : Nat) :
    ∃ new, fingerprints (upsertAlert table alert now) = fingerprints table ++ new := by
  unfold upsertAlert
  cases known : table.find? alert.fingerprint with
  | none =>
      exact ⟨[alert.fingerprint], by
        rw [fingerprints, Table.rows_put_of_fresh known, List.map_append]
        rfl⟩
  | some row =>
      refine ⟨[], (Table.map_key_put_of_mem (Table.mem_of_find? known) ?_).trans
        (List.append_nil _).symm⟩
      exact Table.key_of_find? known

theorem fingerprints_resolveAlert (table : AlertTable) (resolved : String) (now : Nat) :
    fingerprints (resolveAlert table resolved now).1 = fingerprints table := by
  unfold resolveAlert Table.update
  exact Table.map_key_ite table.rows _ _ fun _ _ _ => rfl

/-- With room for every alert that was active or is raised, the active ones are in sight. -/
theorem inSight_of_room {clock : Nat → Nat} {log : List (Write String)}
    (room : (table.rows.filter fun row => row.status = .active).length +
      (log.filter (·.up)).length ≤ 1000) (up : Active table fingerprint) :
    InSight clock table log fingerprint := by
  have member : ∀ {other}, Active table other → other ∈
      (table.rows.filter fun row => row.status = .active).map AlertEvent.fingerprint := by
    rintro other ⟨row, found, status⟩
    have own : row.fingerprint = other := Table.key_of_find? found
    exact List.mem_map.2 ⟨row, List.mem_filter.2
      ⟨Table.mem_of_find? found, decide_eq_true status⟩, own⟩
  have all : ∀ other, (sightings table).after clock 0 log other ≠ none → other ∈
      (table.rows.filter fun row => row.status = .active).map AlertEvent.fingerprint ++
        (log.filter (·.up)).map Write.key := by
    intro other seen
    rcases Board.up_before_or_raised log seen with before | raised
    · exact List.mem_append_left _ (member (active_iff_sightings.2 before))
    · exact List.mem_append_right _ raised
  refine Board.inSight_of_room all ?_ (List.mem_append_left _ (member up))
  rwa [List.length_append, List.length_map, List.length_map]

theorem nodup_swept (table : AlertTable) {clock : Nat → Nat} {log : List (Write String)}
    {kinds : AlertKind → Bool} {kept : List String} :
    (swept clock table log kinds kept).Nodup :=
  table.unique.sublist (List.filter_sublist.map _)

theorem nodup_listed (run : Run) : (run.listed.map AlertEvent.fingerprint).Nodup := by
  have unique : ((run.table.rows.reverse.filter fun row =>
      (some AlertStatus.active).all (row.status = ·)).map AlertEvent.fingerprint).Nodup := by
    refine List.Nodup.sublist (List.filter_sublist.map _) ?_
    rw [List.map_reverse, List.nodup_reverse]
    exact run.table.unique
  exact (((List.perm_insertionSort _ _).map _).nodup_iff.2 unique).sublist
    ((List.take_sublist _ _).map _)

/-! ## The writes of a run -/

/-- The run has made the writes of a log: its table shows what they leave, and the new rows have
the last ids. -/
structure Run.Wrote (clock : Nat → Nat) (table : AlertTable) (log : List (Write String))
    (run : Run) : Prop where
  count : run.writes = log.length
  seen : sightings run.table = (sightings table).after clock 0 log
  rows : ∃ new, fingerprints run.table = fingerprints table ++ new

namespace Run.Wrote

variable {clock : Nat → Nat} {log : List (Write String)} {run : Run}

theorem start (clock : Nat → Nat) (table : AlertTable) : Run.Wrote clock table [] ⟨table, 0⟩ :=
  ⟨rfl, rfl, [], (List.append_nil _).symm⟩

/-- One more write. -/
theorem snoc (wrote : run.Wrote clock table log) {write : Write String} {after : AlertTable}
    (seen : sightings after = Function.update (sightings run.table) write.key
      (if write.up then some (clock run.writes) else none))
    (rows : ∃ new, fingerprints after = fingerprints run.table ++ new) :
    Run.Wrote clock table (log ++ [write]) ⟨after, run.writes + 1⟩ where
  count := by rw [List.length_append, wrote.count]; rfl
  seen := by
    rw [seen, Board.after_append, wrote.seen, wrote.count, Nat.zero_add]
    rfl
  rows := by
    obtain ⟨before, prefix_⟩ := wrote.rows
    obtain ⟨new, rows⟩ := rows
    exact ⟨before ++ new, by rw [rows, prefix_, List.append_assoc]⟩

theorem upsert (wrote : run.Wrote clock table log) (alert : AlertDraft) :
    (run.upsert clock alert).Wrote clock table (log ++ [⟨alert.fingerprint, true⟩]) :=
  wrote.snoc (sightings_upsertAlert _ _ _) (fingerprints_upsertAlert _ _ _)

theorem resolve (wrote : run.Wrote clock table log) (resolved : String) :
    (run.resolve clock resolved).Wrote clock table (log ++ [⟨resolved, false⟩]) :=
  wrote.snoc (sightings_resolveAlert _ _ _)
    ⟨[], (fingerprints_resolveAlert _ _ _).trans (List.append_nil _).symm⟩

theorem raiseAll {alerts : List AlertDraft} :
    ∀ {log : List (Write String)} {run : Run}, run.Wrote clock table log →
      (run.raiseAll clock alerts).Wrote clock table
        (log ++ raise (alerts.map AlertDraft.fingerprint)) := by
  induction alerts with
  | nil =>
      intro log run wrote
      exact (List.append_nil log).symm ▸ wrote
  | cons alert rest ih =>
      intro log run wrote
      have next := ih (wrote.upsert alert)
      rw [List.append_assoc] at next
      exact next

theorem checkHealth {samples : List NodeSampleRecord} :
    ∀ {log : List (Write String)} {run : Run}, run.Wrote clock table log →
      (run.checkHealth clock samples).Wrote clock table
        (log ++ samples.map fun sample => ⟨healthFingerprint sample.nodeName, !sample.ok⟩) := by
  induction samples with
  | nil =>
      intro log run wrote
      exact (List.append_nil log).symm ▸ wrote
  | cons sample rest ih =>
      intro log run wrote
      have first : (if sample.ok then run.resolve clock (healthFingerprint sample.nodeName)
          else run.upsert clock (healthAlert sample)).Wrote clock table
            (log ++ [⟨healthFingerprint sample.nodeName, !sample.ok⟩]) := by
        cases sample.ok with
        | true => exact wrote.resolve _
        | false => exact wrote.upsert (healthAlert sample)
      have next := ih first
      rw [List.append_assoc] at next
      exact next

theorem raiseOrResolve (wrote : run.Wrote clock table log) {alert : Option AlertDraft}
    {own : String} (names : ∀ draft, alert = some draft → draft.fingerprint = own) :
    (run.raiseOrResolve clock alert own).Wrote clock table (log ++ [⟨own, alert.isSome⟩]) := by
  cases alert with
  | none => exact wrote.resolve own
  | some draft =>
      rw [← names draft rfl]
      exact wrote.upsert draft

theorem foldl_resolve (p : AlertEvent → Bool) {alerts : List AlertEvent} :
    ∀ {log : List (Write String)} {run : Run}, run.Wrote clock table log →
      (alerts.foldl (fun run alert =>
        if p alert then run.resolve clock alert.fingerprint else run) run).Wrote clock table
        (log ++ takeDown ((alerts.filter p).map AlertEvent.fingerprint)) := by
  induction alerts with
  | nil =>
      intro log run wrote
      exact (List.append_nil log).symm ▸ wrote
  | cons alert rest ih =>
      intro log run wrote
      rw [List.foldl_cons]
      by_cases hit : p alert = true
      · rw [if_pos hit, List.filter_cons_of_pos hit]
        have next := ih (wrote.resolve alert.fingerprint)
        rw [List.append_assoc] at next
        exact next
      · rw [if_neg hit, List.filter_cons_of_neg hit]
        exact ih wrote

/-- Alerts that are taken down together may be logged in any order. -/
theorem takeDown_perm {keys keys' : List String} (perm : keys.Perm keys')
    (wrote : run.Wrote clock table (log ++ takeDown keys)) :
    run.Wrote clock table (log ++ takeDown keys') where
  count := by
    have length : (takeDown keys).length = (takeDown keys').length := by
      rw [takeDown, takeDown, List.length_map, List.length_map, perm.length_eq]
    rw [wrote.count, List.length_append, List.length_append, length]
  seen := by
    rw [wrote.seen, Board.after_append, Board.after_append, Board.after_takeDown,
      Board.after_takeDown]
    funext key
    simp only [perm.mem_iff]
  rows := wrote.rows

/-- **What a sweep lists**, of the alerts that the table had before the run. -/
theorem mem_listed (wrote : run.Wrote clock table log) (known : fingerprint ∈ fingerprints table)
    (up : Active run.table fingerprint) :
    fingerprint ∈ run.listed.map AlertEvent.fingerprint ↔
      InSight clock table log fingerprint := by
  obtain ⟨new, rows⟩ := wrote.rows
  obtain ⟨row, found, status⟩ := up
  have own : row.fingerprint = fingerprint := Table.key_of_find? found
  let active := run.table.rows.filter fun row => row.status = .active
  have member : row ∈ active :=
    List.mem_filter.2 ⟨Table.mem_of_find? found, decide_eq_true status⟩
  have shown : ∀ k t, sightings run.table k = some t ↔
      ∃ row ∈ active, row.fingerprint = k ∧ row.lastSeenAt = t := by
    intro k t
    rw [sightings_eq_some]
    constructor
    · rintro ⟨row, member, own, status, seen⟩
      exact ⟨row, List.mem_filter.2 ⟨member, decide_eq_true status⟩, own, seen⟩
    · rintro ⟨row, member, own, seen⟩
      obtain ⟨member, status⟩ := List.mem_filter.1 member
      exact ⟨row, member, own, of_decide_eq_true status, seen⟩
  have placed : active.Pairwise fun a b =>
      (fingerprints run.table).idxOf a.fingerprint <
        (fingerprints run.table).idxOf b.fingerprint := by
    refine List.Pairwise.sublist List.filter_sublist ?_
    rw [List.pairwise_iff_getElem]
    intro i j iBound jBound less
    have at_ : ∀ (k : Nat) (bound : k < run.table.rows.length),
        (fingerprints run.table).idxOf (run.table.rows[k]).fingerprint = k := by
      intro k bound
      have unique : (fingerprints run.table).Nodup := run.table.unique
      have bound' : k < (fingerprints run.table).length := by
        rwa [fingerprints, List.length_map]
      have entry : (fingerprints run.table)[k] = (run.table.rows[k]).fingerprint :=
        List.getElem_map ..
      rw [← entry, unique.idxOf_getElem]
    rw [at_ i iBound, at_ j jBound]
    exact less
  have listing : row ∈ List.take 1000 _ ↔ Board.InSight (fingerprints run.table).idxOf
      (sightings run.table) 1000 row.fingerprint := Board.mem_listing_iff shown placed member
  rw [own, rows, Board.inSight_append new known, wrote.seen] at listing
  refine Iff.trans ?_ listing
  unfold Run.listed listAlerts
  rw [List.filter_reverse]
  constructor
  · intro listed
    obtain ⟨other, inList, same⟩ := List.mem_map.1 listed
    have inActive : other ∈ active := by
      have sorted := (List.mem_insertionSort _).1 (List.mem_of_mem_take inList)
      simpa [active] using sorted
    have same : other = row :=
      List.inj_on_of_nodup_map run.table.unique (List.mem_filter.1 inActive).1
        (List.mem_filter.1 member).1 (same.trans own.symm)
    subst same
    simpa [active] using inList
  · intro inList
    refine List.mem_map.2 ⟨row, ?_, own⟩
    simpa [active] using inList

open Classical in
/-- A sweep takes down what it lists of its kinds and does not keep, as the table before the run has
it: `untouched` is what the run did to the others until then. -/
theorem resolveOthers (wrote : run.Wrote clock table log) (filed : Filed table)
    (filed' : Filed run.table) {kinds : AlertKind → Bool} {kept : List AlertDraft}
    (untouched : ∀ {fingerprint kind}, KindOf fingerprint kind → kinds kind = true →
      fingerprint ∉ kept.map AlertDraft.fingerprint →
        (Active run.table fingerprint ↔ Active table fingerprint)) :
    (run.resolveOthers clock kinds kept).Wrote clock table
      (log ++ takeDown (swept clock table log kinds (kept.map AlertDraft.fingerprint))) := by
  refine takeDown_perm ?_ (wrote.foldl_resolve _)
  refine (List.perm_ext_iff_of_nodup ((nodup_listed run).sublist (List.filter_sublist.map _))
    (nodup_swept table)).2 ?_
  intro fingerprint
  constructor
  · intro member
    obtain ⟨alert, inFilter, rfl⟩ := List.mem_map.1 member
    obtain ⟨inList, resolved⟩ := List.mem_filter.1 inFilter
    rw [Bool.and_eq_true, Bool.not_eq_true', List.contains_eq_mem, decide_eq_false_iff_not]
      at resolved
    obtain ⟨inRows, status⟩ := mem_listAlerts_active inList
    have of := filed' alert inRows
    have up : Active run.table alert.fingerprint := ⟨alert, Table.find?_of_mem inRows, status⟩
    obtain ⟨row, known, status⟩ := (untouched of resolved.1 resolved.2).1 up
    have inTable := Table.mem_of_find? known
    have own : row.fingerprint = alert.fingerprint := Table.key_of_find? known
    have kind : row.kind = alert.kind := (own ▸ filed row inTable).unique of
    have listed := (wrote.mem_listed (own ▸ List.mem_map_of_mem inTable) up).1
      (List.mem_map_of_mem inList)
    refine List.mem_map.2 ⟨row, List.mem_filter.2 ⟨inTable, decide_eq_true ?_⟩, own⟩
    rw [own, kind]
    exact ⟨status, resolved.1, resolved.2, listed⟩
  · intro member
    obtain ⟨row, inFilter, rfl⟩ := List.mem_map.1 member
    obtain ⟨inTable, swept⟩ := List.mem_filter.1 inFilter
    obtain ⟨status, kinds_, unkept, inSight⟩ := of_decide_eq_true swept
    have of := filed row inTable
    have up := (untouched of kinds_ unkept).2 ⟨row, Table.find?_of_mem inTable, status⟩
    obtain ⟨alert, inList, own⟩ :=
      List.mem_map.1 ((wrote.mem_listed (List.mem_map_of_mem inTable) up).2 inSight)
    have kind : alert.kind = row.kind :=
      (own ▸ filed' alert (mem_listAlerts_active inList).1).unique of
    refine List.mem_map.2 ⟨alert, List.mem_filter.2 ⟨inList, ?_⟩, own⟩
    rw [Bool.and_eq_true, Bool.not_eq_true', List.contains_eq_mem, decide_eq_false_iff_not,
      kind, own]
    exact ⟨kinds_, unkept⟩

end Run.Wrote

end CsdPool.Alerts
