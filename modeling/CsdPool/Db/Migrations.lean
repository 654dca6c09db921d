/-
# Db.Migrations — programs that bring the schema up at the same time

Every program of the pool runs `run_migrations` when it connects, and a deployment starts many of
them together, of more than one version perhaps.  Each is one transaction behind an advisory
lock: it walks its own list, passes over what `schema_migrations` has, and executes and records
the rest.  A statement may fail and a program may die at any place; the answer to a commit may be
lost.

* `migrations_once`: whatever the order, the schema is what the first migrations of the common
  list make of an empty database, each executed once, and the recorded versions are those; a
  program that got its answer finds all it knows, and no two were answered one migration.
* `migrate_complete`: so `migrate` always reports `complete`.

What a migration's SQL does is a parameter.  A transaction reads what was committed last; behind
the lock nobody else commits.
-/
import CsdPool.Theory.Machine
import CsdPool.Theory.Table
import CsdPool.Theory.Transaction
import Mathlib.Data.List.Sort

namespace CsdPool.Migrations

open Theory (Keyed Table Machine)

set_option autoImplicit false

universe u

structure Migration where
  version : Int
  name : String
  deriving DecidableEq, Repr

/-- `MIGRATIONS`, without their SQL. -/
def allMigrations : List Migration := [
  ⟨1, "init"⟩,
  ⟨2, "control_settings"⟩,
  ⟨3, "alert_events"⟩,
  ⟨4, "share_events"⟩,
  ⟨5, "payout_approval"⟩,
  ⟨6, "payout_audit_events"⟩,
  ⟨7, "payouts_default_paused"⟩,
  ⟨8, "classify_rejected_block_candidates"⟩,
  ⟨9, "stratum_session_observability"⟩,
  ⟨10, "job_heartbeat_observability"⟩,
  ⟨11, "block_candidate_relay_failure"⟩]

def migrationByVersion (version : Int) : Option Migration :=
  allMigrations.find? fun migration => migration.version = version

/-- No version hides another. -/
theorem migrationByVersion_of_mem :
    ∀ migration ∈ allMigrations, migrationByVersion migration.version = some migration := by
  decide

/-- A row of `schema_migrations`. -/
structure MigrationRow where
  version : Int
  name : String
  deriving DecidableEq, Repr

instance instKeyedMigrationRow : Keyed MigrationRow Int := ⟨MigrationRow.version⟩

/-- The database as far as migrations go: what they made, and the table of versions, once it is
there. -/
structure Schema (σ : Type u) where
  content : σ
  recorded : Option (Table MigrationRow)

namespace Schema

variable {σ : Type u}

def versions (schema : Schema σ) : Table MigrationRow := schema.recorded.getD .empty

/-- `create table if not exists`. -/
def createVersions (schema : Schema σ) : Schema σ :=
  { schema with recorded := some schema.versions }

/-- `on conflict do nothing`. -/
def record (schema : Schema σ) (migration : Migration) : Schema σ :=
  { schema with
    recorded := some (schema.versions.insert ⟨migration.version, migration.name⟩).1 }

end Schema

/-! ## Runs -/

inductive MigratePc
  | lock
  | create
  | next (rest : List Migration) (applied : List Int)
  | apply (migration : Migration) (rest : List Migration) (applied : List Int)
  | record (migration : Migration) (rest : List Migration) (applied : List Int)
  deriving DecidableEq, Repr

/-- Past the creation of the table. -/
def MigratePc.walking : MigratePc → Bool
  | lock | create => false
  | _ => true

/-- A call of `run_migrations`, by a program that knows the migrations `known`. -/
structure MigrateRun (σ : Type u) where
  id : Nat
  known : List Migration
  pc : MigratePc
  working : Schema σ

instance instKeyedMigrateRun {σ : Type u} : Keyed (MigrateRun σ) Nat := ⟨MigrateRun.id⟩

/-- An answer: what was known, and the versions that were applied. -/
structure Reply where
  known : List Migration
  applied : List Int
  deriving DecidableEq, Repr

structure MigrateState (σ : Type u) where
  committed : Schema σ
  lock : Option Nat
  runs : Table (MigrateRun σ)
  replies : List Reply

inductive MigrateEvent
  | start (id : Nat) (known : List Migration)
  | run (id : Nat)
  | commitLost (id : Nat)
  | drop (id : Nat)

section Machine

variable {σ ε : Type u} (exec : Migration → σ → Except ε σ)

namespace MigrateState

/-- The transaction is over, and with it its lock. -/
def finish (s : MigrateState σ) (id : Nat) : MigrateState σ :=
  { s with
    runs := s.runs.erase id
    lock := if s.lock = some id then none else s.lock }

def goto (s : MigrateState σ) (run : MigrateRun σ) (pc : MigratePc) : MigrateState σ :=
  { s with runs := s.runs.put { run with pc } }

/-- One statement. -/
def statement (s : MigrateState σ) (run : MigrateRun σ) : Option (MigrateState σ) :=
  match run.pc with
  | .lock =>
      if s.lock = none then
        some ({ s with lock := some run.id }.goto { run with working := s.committed } .create)
      else none
  | .create => some (s.goto { run with working := run.working.createVersions } (.next run.known []))
  | .next [] applied =>
      some { s.finish run.id with
        committed := run.working
        replies := s.replies ++ [⟨run.known, applied⟩] }
  | .next (migration :: rest) applied =>
      if run.working.versions.contains migration.version then some (s.goto run (.next rest applied))
      else some (s.goto run (.apply migration rest applied))
  | .apply migration rest applied =>
      match exec migration run.working.content with
      | .error _ => some (s.finish run.id)
      | .ok content =>
          some (s.goto { run with working := { run.working with content } }
            (.record migration rest applied))
  | .record migration rest applied =>
      some (s.goto { run with working := run.working.record migration }
        (.next rest (applied ++ [migration.version])))

def step (s : MigrateState σ) : MigrateEvent → Option (MigrateState σ)
  | .start id known =>
      if s.runs.contains id then none
      else some { s with runs := s.runs.put ⟨id, known, .lock, s.committed⟩ }
  | .run id => (s.runs.find? id).bind (s.statement exec)
  | .commitLost id =>
      -- the commit took effect, its answer did not come
      match s.runs.find? id with
      | some ⟨id, _, .next [] _, working⟩ => some { s.finish id with committed := working }
      | _ => none
  | .drop id => if s.runs.contains id then some (s.finish id) else none

end MigrateState

/-- Programs at an empty database. -/
def migrateMachine (empty : σ) : Machine (MigrateState σ) MigrateEvent where
  init := (· = ⟨⟨empty, none⟩, none, .empty, []⟩)
  step := MigrateState.step exec

end Machine

/-- `applied_migration_versions`: no table, no answer. -/
def appliedMigrationVersions {σ : Type u} (schema : Schema σ) : Option (List Int) :=
  schema.recorded.map fun versions =>
    (versions.rows.map MigrationRow.version).insertionSort (· ≤ ·)

/-- The answer of `migrate`, less its counts; `database` are the versions read afterwards. -/
structure MigrationRun where
  appliedVersions : List Int
  knownVersions : List Int
  databaseVersions : List Int
  latestKnownVersion : Int
  latestDatabaseVersion : Int
  complete : Bool
  deriving DecidableEq, Repr

/-- `max().unwrap_or_default()`. -/
def latest (versions : List Int) : Int := (versions.max?).getD 0

def migrationRun (reply : Reply) (database : List Int) : MigrationRun :=
  let known := reply.known.map Migration.version
  { appliedVersions := reply.applied
    knownVersions := known
    databaseVersions := database
    latestKnownVersion := latest known
    latestDatabaseVersion := latest database
    complete := known.all database.contains }

/-! ## Walking the list -/

section Walk

variable {σ ε : Type u} {exec : Migration → σ → Except ε σ} {empty : σ} {all : List Migration}

def rowOf (migration : Migration) : MigrationRow := ⟨migration.version, migration.name⟩

/-- The schema after the first `n` migrations. -/
structure After (exec : Migration → σ → Except ε σ) (empty : σ) (all : List Migration) (n : Nat)
    (schema : Schema σ) : Prop where
  rows : schema.versions.rows = (all.take n).map rowOf
  content : (all.take n).foldlM (fun content m => exec m content) empty = .ok schema.content

/-- The versions between two such schemas. -/
def between (all : List Migration) (n m : Nat) : List Int := ((all.take m).drop n).map Migration.version

theorem getElem?_of_drop {known rest : List Migration} {j : Nat} {migration : Migration}
    (prefix_ : known <+: all) (here : known.drop j = migration :: rest) :
    all[j]? = some migration := by
  have inKnown : known[j]? = some migration := by
    have head := congrArg (·[0]?) here
    simpa [List.getElem?_drop] using head
  obtain ⟨more, rfl⟩ := prefix_
  rw [List.getElem?_append_left (List.getElem?_eq_some_iff.1 inKnown).1, inKnown]

theorem drop_succ {known rest : List Migration} {j : Nat} {migration : Migration}
    (here : known.drop j = migration :: rest) :
    j + 1 ≤ known.length ∧ rest = known.drop (j + 1) := by
  have length := congrArg List.length here
  rw [List.length_drop, List.length_cons] at length
  refine ⟨by omega, ?_⟩
  rw [← List.drop_drop, here]
  rfl

theorem take_succ_of {j : Nat} {migration : Migration} (here : all[j]? = some migration) :
    all.take (j + 1) = all.take j ++ [migration] := by
  rw [List.take_add_one, here]
  rfl

theorem between_succ {n j : Nat} {migration : Migration} (here : all[j]? = some migration)
    (le : n ≤ j) : between all n (j + 1) = between all n j ++ [migration.version] := by
  have within := (List.getElem?_eq_some_iff.1 here).1
  unfold between
  rw [take_succ_of here, List.drop_append_of_le_length (by rw [List.length_take]; omega),
    List.map_append]
  rfl

/-- The check of a version is a comparison of places. -/
theorem recorded_iff {n j : Nat} {migration : Migration} {versions : Table MigrationRow}
    (rows : versions.rows = (all.take n).map rowOf)
    (distinct : (all.map Migration.version).Nodup) (here : all[j]? = some migration) :
    versions.contains migration.version = true ↔ j < n := by
  obtain ⟨within, rfl⟩ := List.getElem?_eq_some_iff.1 here
  rw [Table.contains_iff, rows]
  constructor
  · rintro ⟨row, member, same⟩
    obtain ⟨other, inTake, rfl⟩ := List.mem_map.1 member
    obtain ⟨i, below, rfl⟩ := List.mem_take_iff_getElem.1 inTake
    change all[i].version = all[j].version at same
    have left : i < (all.map Migration.version).length := by rw [List.length_map]; omega
    have right : j < (all.map Migration.version).length := by rwa [List.length_map]
    have index : (all.map Migration.version)[i] = (all.map Migration.version)[j] := by
      rw [List.getElem_map, List.getElem_map, same]
    have place := distinct.getElem_inj_iff.1 index
    omega
  · intro before
    refine ⟨rowOf all[j], List.mem_map_of_mem ?_, rfl⟩
    exact List.mem_take_iff_getElem.2 ⟨j, by omega, rfl⟩

theorem After.executed {n : Nat} {migration : Migration} {schema : Schema σ} {content : σ}
    (after : After exec empty all n schema) (here : all[n]? = some migration)
    (ran : exec migration schema.content = .ok content) :
    (all.take (n + 1)).foldlM (fun content m => exec m content) empty = .ok content := by
  rw [take_succ_of here, List.foldlM_append, after.content]
  show (exec migration schema.content >>= fun content => pure content) = _
  rw [ran]
  rfl

/-! ## Over all programs -/

/-- Where a run is when `n` migrations are committed. -/
def RunAt (exec : Migration → σ → Except ε σ) (empty : σ) (all : List Migration) (n : Nat)
    (run : MigrateRun σ) : Prop :=
  match run.pc with
  | .lock => True
  | .create => After exec empty all n run.working
  | .next rest applied => ∃ j, j ≤ run.known.length ∧ rest = run.known.drop j ∧
      After exec empty all (max n j) run.working ∧ applied = between all n (max n j)
  | .apply migration rest applied => ∃ j, run.known.drop j = migration :: rest ∧ n ≤ j ∧
      After exec empty all j run.working ∧ applied = between all n j
  | .record migration rest applied => ∃ j, run.known.drop j = migration :: rest ∧ n ≤ j ∧
      run.working.versions.rows = (all.take j).map rowOf ∧
      (all.take (j + 1)).foldlM (fun content m => exec m content) empty = .ok run.working.content ∧
      applied = between all n j

structure Orderly (exec : Migration → σ → Except ε σ) (empty : σ) (all : List Migration)
    (s : MigrateState σ) (n : Nat) : Prop where
  committed : After exec empty all n s.committed
  within : n ≤ all.length
  known : ∀ run ∈ s.runs.rows, run.known <+: all
  exclusive : ∀ run ∈ s.runs.rows, run.pc ≠ .lock → s.lock = some run.id
  runs : ∀ run ∈ s.runs.rows, RunAt exec empty all n run
  served : ∀ reply ∈ s.replies, reply.known <+: all ∧ reply.known.length ≤ n
  once : (s.replies.flatMap Reply.applied).Sublist ((all.take n).map Migration.version)
  created : ∀ run ∈ s.runs.rows, run.pc.walking = true → run.working.recorded.isSome = true
  answered : s.replies ≠ [] → s.committed.recorded.isSome = true

variable {s s' : MigrateState σ} {e : MigrateEvent} {n : Nat}

/-- A run that ends without a commit. -/
theorem Orderly.finish (orderly : Orderly exec empty all s n) (id : Nat) :
    Orderly exec empty all (s.finish id) n := by
  have before : ∀ run ∈ (s.runs.erase id).rows, run ∈ s.runs.rows ∧ run.id ≠ id := by
    intro run member
    obtain ⟨old, other⟩ := List.mem_filter.1 member
    exact ⟨old, of_decide_eq_true other⟩
  refine ⟨orderly.committed, orderly.within, fun run member => orderly.known run (before run member).1,
    ?_, fun run member => orderly.runs run (before run member).1, orderly.served, orderly.once,
    fun run member => orderly.created run (before run member).1, orderly.answered⟩
  intro run member working
  obtain ⟨old, other⟩ := before run member
  have held := orderly.exclusive run old working
  show (if s.lock = some id then none else s.lock) = _
  rw [if_neg (by rw [held]; simpa using other), held]

/-- The run that holds the lock goes on. -/
theorem Orderly.goto (orderly : Orderly exec empty all s n) {run run' : MigrateRun σ}
    {lock : Option Nat} (member : run ∈ s.runs.rows) (id : run'.id = run.id)
    (known : run'.known = run.known) (holds : lock = some run.id)
    (only : s.lock = none ∨ s.lock = some run.id) (at_ : RunAt exec empty all n run')
    (created : run'.pc.walking = true → run'.working.recorded.isSome = true) :
    Orderly exec empty all { s with lock, runs := s.runs.put run' } n := by
  refine ⟨orderly.committed, orderly.within, ?_, ?_, ?_, orderly.served, orderly.once, ?_,
    orderly.answered⟩
  · have knows : run'.known <+: all := by
      rw [known]
      exact orderly.known run member
    exact Table.forall_put knows orderly.known
  · intro other inRuns working
    rcases Table.mem_put.1 inRuns with rfl | ⟨old, apart⟩
    · rw [holds, id]
    · have held := orderly.exclusive other old working
      rcases only with free | mine
      · rw [free] at held
        cases held
      · rw [mine] at held
        exact absurd (Option.some.inj held).symm fun same => apart (same.trans id.symm)
  · exact Table.forall_put at_ orderly.runs
  · exact Table.forall_put created orderly.created

/-- **A commit**: the others wait for the lock, so they do not notice. -/
theorem Orderly.commit (orderly : Orderly exec empty all s n) {run : MigrateRun σ}
    {applied : List Int} {replies : List Reply} (member : run ∈ s.runs.rows)
    (here : run.pc = .next [] applied)
    (answered : replies = s.replies ∨ replies = s.replies ++ [⟨run.known, applied⟩]) :
    ∃ m, Orderly exec empty all
      { s.finish run.id with committed := run.working, replies } m := by
  have at_ := orderly.runs run member
  unfold RunAt at at_
  rw [here] at at_
  obtain ⟨j, le, rest, after, rfl⟩ := at_
  have knows := orderly.known run member
  have whole : j = run.known.length := by
    have none_ := List.drop_eq_nil_iff.1 rest.symm
    omega
  have holder := orderly.exclusive run member (by rw [here]; simp)
  have finished := orderly.finish run.id
  have there := orderly.created run member (by rw [here]; rfl)
  refine ⟨max n j, after, ?_, finished.known, finished.exclusive, ?_, ?_, ?_, finished.created,
    fun _ => there⟩
  · have length := knows.length_le
    have within := orderly.within
    omega
  · intro other inRuns
    obtain ⟨old, apart⟩ := List.mem_filter.1 inRuns
    have waits : other.pc = .lock := by
      by_contra working
      have held := orderly.exclusive other old working
      rw [holder] at held
      exact absurd (Option.some.inj held).symm (of_decide_eq_true apart)
    unfold RunAt
    rw [waits]
    trivial
  · have old : ∀ reply ∈ s.replies, reply.known <+: all ∧ reply.known.length ≤ max n j := by
      intro reply served
      obtain ⟨knows', le'⟩ := orderly.served reply served
      exact ⟨knows', Nat.le_trans le' (Nat.le_max_left _ _)⟩
    rcases answered with rfl | rfl
    · exact old
    · intro reply served
      rcases List.mem_append.1 served with before | new
      · exact old reply before
      · cases List.mem_singleton.1 new
        exact ⟨knows, whole ▸ Nat.le_max_right _ _⟩
  · have split : (all.take (max n j)).map Migration.version =
        (all.take n).map Migration.version ++ between all n (max n j) := by
      unfold between
      rw [← List.map_append]
      have prefix_ : (all.take (max n j)).take n = all.take n := by
        rw [List.take_take, Nat.min_eq_left (Nat.le_max_left _ _)]
      rw [← prefix_, List.take_append_drop]
    rw [split]
    rcases answered with rfl | rfl
    · exact orderly.once.trans (List.sublist_append_left _ _)
    · show (List.flatMap _ (s.replies ++ [_])).Sublist _
      rw [List.flatMap_append, List.flatMap_singleton]
      exact orderly.once.append (List.Sublist.refl _)

theorem Orderly.statement (orderly : Orderly exec empty all s n)
    (distinct : (all.map Migration.version).Nodup) {run : MigrateRun σ}
    (member : run ∈ s.runs.rows) (ran : s.statement exec run = some s') :
    ∃ m, Orderly exec empty all s' m := by
  have at_ := orderly.runs run member
  have knows := orderly.known run member
  obtain ⟨id, known, pc, working⟩ := run
  have holder := orderly.exclusive _ member
  have there := orderly.created _ member
  unfold MigrateState.statement at ran
  unfold RunAt at at_
  dsimp only at ran at_ holder there
  cases pc with
  | lock =>
      dsimp only at ran
      split at ran
      · rename_i free
        cases ran
        exact ⟨n, orderly.goto member rfl rfl rfl (.inl free) orderly.committed nofun⟩
      · cases ran
  | create =>
      cases ran
      have held := holder (by simp)
      refine ⟨n, orderly.goto member rfl rfl held (.inr held) ?_ fun _ => rfl⟩
      refine ⟨0, Nat.zero_le _, rfl, ?_, by simp [between]⟩
      rw [Nat.max_zero]
      exact ⟨at_.rows, at_.content⟩
  | next rest applied =>
      have held := holder (by simp)
      cases rest with
      | nil =>
          cases ran
          exact orderly.commit member rfl (.inr rfl)
      | cons migration rest =>
          obtain ⟨j, le, here, after, rfl⟩ := at_
          have place := getElem?_of_drop knows here.symm
          obtain ⟨le', rest_⟩ := drop_succ here.symm
          have check := recorded_iff after.rows distinct place
          dsimp only at ran
          split at ran
          · rename_i recorded
            cases ran
            have skip : max n (j + 1) = max n j := by
              have before := check.1 recorded
              omega
            refine ⟨n, orderly.goto member rfl rfl held (.inr held) ⟨j + 1, le', rest_, ?_, ?_⟩
              fun _ => there rfl⟩
            · rw [skip]
              exact after
            · rw [skip]
          · rename_i missing
            cases ran
            have reached : max n j = j := by
              have behind := mt check.2 missing
              omega
            rw [reached] at after
            refine ⟨n, orderly.goto member rfl rfl held (.inr held) ⟨j, here.symm, ?_, after, ?_⟩
              fun _ => there rfl⟩
            · omega
            · rw [reached]
  | apply migration rest applied =>
      have held := holder (by simp)
      obtain ⟨j, here, le, after, rfl⟩ := at_
      dsimp only at ran
      split at ran
      · cases ran
        exact ⟨n, orderly.finish id⟩
      · rename_i content executed
        cases ran
        have place := getElem?_of_drop knows here
        exact ⟨n, orderly.goto member rfl rfl held (.inr held)
          ⟨j, here, le, after.rows, after.executed place executed, rfl⟩ fun _ => there rfl⟩
  | record migration rest applied =>
      have held := holder (by simp)
      obtain ⟨j, here, le, rows, content, rfl⟩ := at_
      cases ran
      have place := getElem?_of_drop knows here
      obtain ⟨le', rest_⟩ := drop_succ here
      have next : max n (j + 1) = j + 1 := by omega
      refine ⟨n, orderly.goto member rfl rfl held (.inr held) ⟨j + 1, le', rest_, ?_, ?_⟩
        fun _ => rfl⟩
      · rw [next]
        refine ⟨?_, content⟩
        have fresh : working.versions.find? migration.version = none := by
          by_contra taken
          have contained : working.versions.contains migration.version = true := by
            rw [Table.contains_eq_isSome]
            exact Option.isSome_iff_ne_none.2 taken
          exact absurd ((recorded_iff rows distinct place).1 contained) (Nat.lt_irrefl j)
        have inserted := (Table.insert_of_fresh (r := rowOf migration) fresh).1
        show (working.versions.insert (rowOf migration)).1.rows = _
        rw [inserted, rows, take_succ_of place, List.map_append]
        rfl
      · rw [next, between_succ place le]

/-- Every program knows a first part of the common list. -/
def KnowsPrefix (all : List Migration) (_ : MigrateState σ) : MigrateEvent → Prop
  | .start _ known => known <+: all
  | _ => True

instance instDecidableKnowsPrefix {σ : Type u} (all : List Migration) :
    ∀ (s : MigrateState σ) (e : MigrateEvent), Decidable (KnowsPrefix all s e)
  | _, .start _ known => inferInstanceAs (Decidable (known <+: all))
  | _, .run _ => .isTrue trivial
  | _, .commitLost _ => .isTrue trivial
  | _, .drop _ => .isTrue trivial

theorem Orderly.step (orderly : Orderly exec empty all s n)
    (distinct : (all.map Migration.version).Nodup) (knows : KnowsPrefix all s e)
    (step : (migrateMachine exec empty).step s e = some s') :
    ∃ m, Orderly exec empty all s' m := by
  change s.step exec e = some s' at step
  cases e with
  | start id known =>
      rw [MigrateState.step] at step
      split at step
      · cases step
      · cases step
        refine ⟨n, orderly.committed, orderly.within, ?_, ?_, ?_, orderly.served, orderly.once, ?_,
          orderly.answered⟩
        · exact Table.forall_put knows orderly.known
        · exact Table.forall_put (fun working => absurd rfl working) orderly.exclusive
        · exact Table.forall_put trivial orderly.runs
        · exact Table.forall_put nofun orderly.created
  | run id =>
      rw [MigrateState.step] at step
      obtain ⟨run, found, ran⟩ := Option.bind_eq_some_iff.1 step
      exact orderly.statement distinct (Table.mem_of_find? found) ran
  | commitLost id =>
      rw [MigrateState.step] at step
      split at step
      · rename_i id' known applied working found
        have same : id' = id := Table.key_of_find? found
        subst same
        cases step
        exact orderly.commit (Table.mem_of_find? found) rfl (.inl rfl)
      · cases step
  | drop id =>
      rw [MigrateState.step] at step
      split at step
      · cases step
        exact ⟨n, orderly.finish id⟩
      · cases step

theorem orderly_known (distinct : (all.map Migration.version).Nodup)
    (reached : (migrateMachine exec empty).Reaches (KnowsPrefix all) s) :
    ∃ n, Orderly exec empty all s n := by
  refine reached.invariant (I := fun s => ∃ n, Orderly exec empty all s n) ?_ ?_
  · rintro _ rfl
    exact ⟨0, ⟨rfl, rfl⟩, Nat.zero_le _, fun run member => (by cases member),
      fun run member => (by cases member), fun run member => (by cases member),
      fun reply member => (by cases member), List.Sublist.refl _,
      fun run member => (by cases member), fun served => absurd rfl served⟩
  · rintro s e s' - ⟨n, orderly⟩ knows step
    exact orderly.step distinct knows step

/-- **Each migration once, in order**: what is committed is the first migrations of the list, made
one after the other of the empty database; no two answers name one of them, and who was
answered finds all it knows. -/
theorem migrations_once (distinct : (all.map Migration.version).Nodup)
    (reached : (migrateMachine exec empty).Reaches (KnowsPrefix all) s) :
    ∃ n, s.committed.versions.rows = (all.take n).map rowOf ∧
      (all.take n).foldlM (fun content m => exec m content) empty = .ok s.committed.content ∧
      (s.replies.flatMap Reply.applied).Sublist ((all.take n).map Migration.version) ∧
      ∀ reply ∈ s.replies, reply.known <+: all.take n := by
  obtain ⟨n, orderly⟩ := orderly_known distinct reached
  refine ⟨n, orderly.committed.rows, orderly.committed.content, orderly.once, ?_⟩
  intro reply served
  obtain ⟨knows, le⟩ := orderly.served reply served
  exact List.prefix_take_iff.2 ⟨knows, le⟩

namespace Sample

/-- Keeps the versions in the order of their execution. -/
def executes (migration : Migration) (executed : List Int) : Except Unit (List Int) :=
  .ok (executed ++ [migration.version])

/-- An older program and a newer one. -/
def together : List MigrateEvent :=
  [.start 0 (allMigrations.take 1), .start 1 (allMigrations.take 2)]

/-- The older program's commit is not heard of; the newer one goes on from it. -/
def overlapping : List MigrateEvent :=
  together ++ List.replicate 5 (.run 0) ++ [.commitLost 0] ++ List.replicate 7 (.run 1)

end Sample

theorem migrations_once_sample :
    ∃ s, (migrateMachine Sample.executes []).Reaches (KnowsPrefix allMigrations) s ∧
      s.replies = [⟨allMigrations.take 2, [2]⟩] ∧
      ∃ n, s.committed.versions.rows = (allMigrations.take n).map rowOf ∧
        (allMigrations.take n).foldlM (fun content m => Sample.executes m content) [] =
          .ok s.committed.content ∧
        (s.replies.flatMap Reply.applied).Sublist ((allMigrations.take n).map Migration.version) ∧
        ∀ reply ∈ s.replies, reply.known <+: allMigrations.take n := by
  obtain ⟨s, reached, shown⟩ := Machine.exists_of_runUnder (migrateMachine Sample.executes [])
    (KnowsPrefix allMigrations) (s := ⟨⟨[], none⟩, none, .empty, []⟩) rfl Sample.overlapping
    (fun s => decide (s.replies = [⟨allMigrations.take 2, [2]⟩])) (by decide +kernel)
  exact ⟨s, reached, of_decide_eq_true shown, migrations_once (by decide) reached⟩

/-- **`migrate` reports `complete`**, whatever other programs do between the migrations and the
reading of the versions. -/
theorem migrate_complete (distinct : (all.map Migration.version).Nodup)
    (reached : (migrateMachine exec empty).Reaches (KnowsPrefix all) s) {reply : Reply}
    (served : reply ∈ s.replies) :
    ∃ database, appliedMigrationVersions s.committed = some database ∧
      (migrationRun reply database).complete = true ∧
      (∀ version ∈ reply.applied, version ∈ database) := by
  obtain ⟨n, orderly⟩ := orderly_known distinct reached
  obtain ⟨versions, there⟩ := Option.isSome_iff_exists.1
    (orderly.answered (List.ne_nil_of_mem served))
  have rows : versions.rows.map MigrationRow.version = (all.take n).map Migration.version := by
    have after := orderly.committed.rows
    rw [Schema.versions, there, Option.getD_some] at after
    rw [after, List.map_map]
    rfl
  have listed : ∀ version, version ∈ (versions.rows.map MigrationRow.version).insertionSort (· ≤ ·) ↔
      version ∈ (all.take n).map Migration.version := by
    intro version
    rw [List.mem_insertionSort, rows]
  refine ⟨_, by rw [appliedMigrationVersions, there]; rfl, ?_, ?_⟩
  · obtain ⟨knows, le⟩ := orderly.served reply served
    have shorter : reply.known <+: all.take n := List.prefix_take_iff.2 ⟨knows, le⟩
    show List.all _ _ = true
    rw [List.all_eq_true]
    intro version known
    rw [List.contains_iff_mem, listed]
    exact (shorter.map _).subset known
  · intro version applied
    rw [listed]
    exact orderly.once.subset (List.mem_flatMap.2 ⟨reply, served, applied⟩)

end Walk

end CsdPool.Migrations
