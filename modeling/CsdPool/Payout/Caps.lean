/-
# Payout.Caps — the caps on a batch and on a day

`create_payouts` tests both caps, the daily one against the total of a statement it ran
earlier.  Every batch keeps the batch cap, a retried one because it has the total of an
earlier batch (`batches_capped`).  The day's total is only as good as the reading: two
overlapping runs both fit into what one of them leaves (`daily_cap_exceeded`), and
`retry_failed_payout` reads no total at all.

The total each run read is kept as a history next to the state.  `InsertFits` asks of an
inserting step that the day has no more than that by then, and of a retry that the day has
room; in such a run both caps hold in every state (`caps_hold`).
-/
import CsdPool.Payout.Invariants

namespace CsdPool.Payout

open Theory (Keyed Table Machine)

set_option autoImplicit false

variable {cfg : Config} {s s' : State} {e : Event} {today : Nat}

/-- What `active_payout_total_today` sums up on a day. -/
def dayTotal (today : Nat) (db : Db) : Nat :=
  ((db.payoutBatches.rows.filter fun row =>
    Db.activeStatuses.contains row.status && decide (today ≤ row.createdAt)).map
      (·.totalBaseUnits)).sum

/-- The total each `create_payouts` run has read. -/
def recordUsage (read : Nat → Nat) (s : State) : Event → Nat → Nat
  | .run pid env =>
      if s.running (.run pid env) = some .createUsage then
        match s.db.activePayoutTotalToday env.currentDate with
        | .ok used => Function.update read pid used
        | .error _ => read
      else read
  | _ => read

/-- The payout workers, with the totals the create runs have read. -/
def cappedMachine (cfg : Config) : Machine (State × (Nat → Nat)) Event :=
  (payoutMachine cfg).recording (fun _ => 0) recordUsage

/-- A batch of the day is inserted on a total that is still true, or has room in it. -/
def insertFits (cfg : Config) (today : Nat) (p : State × (Nat → Nat)) (e : Event) : Bool :=
  match e, p.1.running e with
  | .run pid env, some (.createInsert draft _) =>
      decide (env.now < today) || (decide (dayTotal today p.1.db ≤ p.2 pid) &&
        decide (p.2 pid + draft.totalBaseUnits < 2 ^ 128))
  | .run _ env, some (.retryInsert draft) =>
      decide (env.now < today) ||
        decide (dayTotal today p.1.db + draft.totalBaseUnits ≤ cfg.maxDailyPayoutBaseUnits)
  | _, _ => true

abbrev InsertFits (cfg : Config) (today : Nat) (p : State × (Nat → Nat)) (e : Event) : Prop :=
  insertFits cfg today p e = true

/-! ## What a create run has decided -/

theorem createDecision_within {batchId : String} {used : Nat} {balances : List MinerBalance}
    {draft : PayoutBatchDraft} {status : PayoutStatus}
    (decided : createDecision cfg batchId used balances = some (draft, status)) :
    draft.totalBaseUnits ≤ cfg.maxPayoutBatchBaseUnits ∧
      saturatingAddU128 used draft.totalBaseUnits ≤ cfg.maxDailyPayoutBaseUnits := by
  unfold createDecision at decided
  dsimp only at decided
  split at decided
  · cases decided
  · split at decided
    · cases decided
    · rename_i batchWithin
      split at decided
      · cases decided
      · rename_i dayWithin
        split at decided
        all_goals
          cases decided
          exact ⟨Nat.not_lt.1 batchWithin, Nat.not_lt.1 dayWithin⟩

/-! ## The batch cap -/

/-- Every batch and every draft in hand is within the batch cap. -/
structure BatchesCapped (cfg : Config) (s : State) : Prop where
  rows : ∀ id r, s.db.payoutBatches.find? id = some r →
    r.totalBaseUnits ≤ cfg.maxPayoutBatchBaseUnits
  creates : ∀ pid draft status, s.At pid (.createInsert draft status) →
    draft.totalBaseUnits ≤ cfg.maxPayoutBatchBaseUnits
  retries : ∀ pid draft, s.At pid (.retryInsert draft) →
    draft.totalBaseUnits ≤ cfg.maxPayoutBatchBaseUnits

/-- Only `retry_failed_payout` after its read stands before its insert. -/
theorem read_retryInsert {env : Env} {db : Db} {pc : Pc} {draft : PayoutBatchDraft}
    (next : (pc.read cfg env db).next = some (.retryInsert draft)) :
    ∃ row, db.payoutBatches.find? row.id = some row ∧ draft.totalBaseUnits = row.totalBaseUnits := by
  obtain ⟨worker, -, -⟩ := read_holds next
  cases pc with
  | retryRead batchId newBatchId =>
      rw [Pc.read] at next
      cases found : db.payoutBatchByIdAndStatuses batchId [.failed, .cancelled] with
      | none =>
          rw [found] at next
          cases next
      | some original =>
          rw [found] at next
          cases next
          obtain ⟨row, stored, -, shape⟩ := Db.listed_of_byId found
          have same : row.id = original.batchId := Table.key_of_find? stored
          rw [← same] at stored
          refine ⟨row, stored, ?_⟩
          show original.totalBaseUnits = row.totalBaseUnits
          rw [shape]
          rfl
  | retryInsert _ => cases next
  | markFailed caller _ => cases next
  | unlock caller _ => cases next
  | _ => cases worker

/-- The draft an inserted row is made of. -/
theorem inserted_draft {r : PayoutBatchRow} (inserted : Inserted s e r) :
    ∃ pid env draft, e = .run pid env ∧ r.totalBaseUnits = draft.totalBaseUnits ∧
      r.createdAt = env.now ∧ ((∃ status, s.At pid (.createInsert draft status)) ∨
        s.At pid (.retryInsert draft)) := by
  obtain ⟨⟨pid, env, pc, draft, is, here, writes, shape⟩, -⟩ := inserted
  refine ⟨pid, env, draft, is, by rw [shape], by rw [shape], ?_⟩
  cases pc with
  | createInsert draft' status =>
      simp only [Pc.write, Option.some.injEq, Write.createLocked.injEq] at writes
      obtain ⟨rfl, -⟩ := writes
      exact .inl ⟨status, here⟩
  | retryInsert draft' =>
      simp only [Pc.write, Option.some.injEq, Write.createLocked.injEq] at writes
      obtain ⟨rfl, -⟩ := writes
      exact .inr here
  | _ => cases writes

theorem batches_capped (reached : (payoutMachine cfg).Reachable s) : BatchesCapped cfg s := by
  refine reached.invariant (I := BatchesCapped cfg) ?_ ?_
  · rintro s rfl
    refine ⟨?_, ?_, ?_⟩
    · intro id r found
      cases found
    · intro pid draft status here
      cases here
    · intro pid draft here
      cases here
  · intro s e s' _ capped _ step
    have stepped := step_stepped step
    refine ⟨?_, ?_, ?_⟩
    · intro id r' found
      rcases row_before stepped found with ⟨r, before, change⟩ | inserted
      · rw [change.totalBaseUnits]
        exact capped.rows id r before
      · obtain ⟨pid, env, draft, -, total, -, ⟨status, here⟩ | here⟩ := inserted_draft inserted
        · rw [total]
          exact capped.creates pid draft status here
        · rw [total]
          exact capped.retries pid draft here
    · intro pid draft status there
      rcases at_step stepped there with ⟨before, -⟩ | arrives
      · exact capped.creates pid draft status before
      · obtain ⟨env, pc, -, -, -, next⟩ := arrives_insert arrives rfl
        obtain ⟨used, balances, -, decided⟩ := read_createInsert next
        exact (createDecision_within decided).1
    · intro pid draft there
      rcases at_step stepped there with ⟨before, -⟩ | arrives
      · exact capped.retries pid draft before
      · obtain ⟨env, pc, -, -, -, next⟩ := arrives_insert arrives rfl
        obtain ⟨row, stored, total⟩ := read_retryInsert next
        rw [total]
        exact capped.rows _ row stored

/-! ## The day's total -/

/-- What a row adds to the day's total. -/
def dayWeight (today : Nat) (row : PayoutBatchRow) : Nat :=
  if Db.activeStatuses.contains row.status && decide (today ≤ row.createdAt) then
    row.totalBaseUnits
  else 0

theorem dayTotal_eq (today : Nat) (db : Db) :
    dayTotal today db = (db.payoutBatches.rows.map (dayWeight today)).sum := by
  unfold dayTotal
  induction db.payoutBatches.rows with
  | nil => rfl
  | cons row rows ih =>
      rw [List.map_cons, List.sum_cons, ← ih, List.filter_cons]
      unfold dayWeight
      split
      · rw [List.map_cons, List.sum_cons]
      · exact (Nat.zero_add _).symm

/-- A batch never becomes active again. -/
theorem RowChange.dayWeight_le {r r' : PayoutBatchRow} (change : RowChange s e r r') :
    dayWeight today r' ≤ dayWeight today r := by
  have active : ∀ {status : PayoutStatus} {txid raw : Option String},
      Db.activeStatuses.contains r.status = true →
        dayWeight today { r with status := status, txid := txid, rawTxHash := raw } ≤
          dayWeight today r := by
    intro status txid raw active
    unfold dayWeight
    rw [active]
    dsimp only
    cases decide (today ≤ r.createdAt) <;> cases Db.activeStatuses.contains status <;> simp
  have ended : ∀ {status : PayoutStatus}, Db.activeStatuses.contains status = false →
      dayWeight today { r with status := status } ≤ dayWeight today r := by
    intro status inactive
    unfold dayWeight
    dsimp only
    rw [inactive]
    exact Nat.zero_le _
  cases change with
  | same => exact Nat.le_refl _
  | approved _ source => exact active (by rw [source]; rfl)
  | signed _ _ _ source => exact active (by rw [source]; rfl)
  | submitted _ _ _ source => exact active (by rcases source with h | h <;> rw [h] <;> rfl)
  | confirmed _ _ _ source => exact active (by rcases source with h | h <;> rw [h] <;> rfl)
  | failed _ _ _ _ => exact ended rfl
  | cancelled _ _ _ _ => exact ended rfl

/-- One step inserts one row. -/
theorem Inserted.unique {r r' : PayoutBatchRow} (inserted : Inserted s e r)
    (inserted' : Inserted s e r') : r = r' := by
  obtain ⟨⟨pid, env, pc, draft, is, here, writes, shape⟩, -⟩ := inserted
  obtain ⟨⟨pid', env', pc', draft', is', here', writes', shape'⟩, -⟩ := inserted'
  cases is.symm.trans is'
  cases State.at_unique here here'
  rw [writes] at writes'
  injection writes' with writes'
  injection writes' with draft_eq status_eq
  rw [shape, shape', draft_eq, status_eq]

theorem dayTotal_step (today : Nat) (stepped : Stepped cfg s e s') :
    dayTotal today s'.db ≤ dayTotal today s.db ∨
      ∃ r, Inserted s e r ∧ dayTotal today s'.db ≤ dayTotal today s.db + dayWeight today r := by
  rw [dayTotal_eq, dayTotal_eq]
  have known : ∀ r' ∈ s'.db.payoutBatches.rows,
      (∃ r ∈ s.db.payoutBatches.rows, Keyed.key r = Keyed.key r' ∧
        dayWeight today r' ≤ dayWeight today r) ∨ Inserted s e r' := by
    intro r' member
    rcases row_before stepped (Table.find?_of_mem member) with ⟨r, before, change⟩ | inserted
    · exact .inl ⟨r, Table.mem_of_find? before, change.id.symm, change.dayWeight_le⟩
    · exact .inr inserted
  by_cases inserts : ∃ r ∈ s'.db.payoutBatches.rows, Inserted s e r
  · obtain ⟨new, -, inserted⟩ := inserts
    refine .inr ⟨new, inserted, ?_⟩
    have bound : (s'.db.payoutBatches.rows.map (dayWeight today)).sum ≤
        ((new :: s.db.payoutBatches.rows).map (dayWeight today)).sum := by
      apply Table.sum_map_le_of_keys (dayWeight today) s'.db.payoutBatches.unique
      intro r' member
      rcases known r' member with ⟨r, before, same, le⟩ | inserted'
      · exact ⟨r, List.mem_cons_of_mem _ before, same, le⟩
      · have same := inserted'.unique inserted
        exact ⟨new, List.mem_cons_self, by rw [same], by rw [same]⟩
    rw [List.map_cons, List.sum_cons] at bound
    omega
  · left
    apply Table.sum_map_le_of_keys (dayWeight today) s'.db.payoutBatches.unique
    intro r' member
    rcases known r' member with before | inserted
    · exact before
    · exact absurd ⟨r', member, inserted⟩ inserts

/-! ## The readings -/

theorem recordUsage_ne {read : Nat → Nat} {pid : Nat} (other : ∀ env, e ≠ .run pid env) :
    recordUsage read s e pid = read pid := by
  unfold recordUsage
  cases e with
  | run pid' env =>
      have ne : pid ≠ pid' := by
        rintro rfl
        exact other env rfl
      dsimp only
      split
      · cases s.db.activePayoutTotalToday env.currentDate with
        | ok used => exact Function.update_of_ne ne _ _
        | error _ => rfl
      · rfl
  | _ => rfl

theorem recordUsage_other {read : Nat → Nat} {pid : Nat} {env : Env} {pc : Pc}
    (here : s.At pid pc) (other : pc ≠ .createUsage) :
    recordUsage read s (.run pid env) = read := by
  unfold recordUsage
  dsimp only
  rw [running_of_at here, if_neg (by simpa using other)]

theorem recordUsage_at {read : Nat → Nat} {pid : Nat} {env : Env} {used : Nat}
    (here : s.At pid .createUsage)
    (usage : s.db.activePayoutTotalToday env.currentDate = .ok used) :
    recordUsage read s (.run pid env) pid = used := by
  unfold recordUsage
  dsimp only
  rw [running_of_at here, if_pos rfl, usage]
  exact Function.update_self _ _ _

/-- A create run decides on the total it has read. -/
structure ReadingsKnown (cfg : Config) (p : State × (Nat → Nat)) : Prop where
  selects : ∀ pid used, p.1.At pid (.createSelect used) → p.2 pid = used
  inserts : ∀ pid draft status, p.1.At pid (.createInsert draft status) →
    saturatingAddU128 (p.2 pid) draft.totalBaseUnits ≤ cfg.maxDailyPayoutBaseUnits

/-- A run comes to its selection by reading the day's total. -/
theorem arrives_createSelect {pid used : Nat} (arrives : Arrives cfg s pid e (.createSelect used)) :
    ∃ env, e = .run pid env ∧ s.At pid .createUsage ∧
      s.db.activePayoutTotalToday env.currentDate = .ok used := by
  generalize target : Pc.createSelect used = pc' at arrives
  cases arrives with
  | @spawned entry _ => cases entry <;> cases target
  | @wrote env pc pc' w updated db here writes committed next =>
      subst target
      cases pc with
      | unlock caller _ => cases caller <;> cases next
      | cancelUpdate _ =>
          simp only [Pc.afterWrite] at next
          split at next <;> cases next
      | _ => cases next
  | @read env pc pc' here reads next =>
      subst target
      obtain ⟨worker, -, -⟩ := read_holds next
      cases pc with
      | createBegin =>
          rw [Pc.read] at next
          split at next <;> cases next
      | createUsage =>
          refine ⟨env, rfl, here, ?_⟩
          rw [Pc.read] at next
          cases usage : s.db.activePayoutTotalToday env.currentDate with
          | error err =>
              rw [usage] at next
              cases next
          | ok used' =>
              rw [usage] at next
              cases next
              rfl
      | createSelect used' =>
          rw [Pc.read] at next
          obtain ⟨balances, draft, status, -, impossible⟩ := createSelected_next next
          cases impossible
      | markFailed caller _ => cases next
      | unlock caller _ => cases next
      | createInsert _ _ => cases next
      | _ => cases worker

theorem readings_known {allow : State × (Nat → Nat) → Event → Prop} {p : State × (Nat → Nat)}
    (reached : (cappedMachine cfg).Reaches allow p) : ReadingsKnown cfg p := by
  refine reached.invariant (I := ReadingsKnown cfg) ?_ ?_
  · rintro ⟨s, read⟩ ⟨rfl, -⟩
    refine ⟨?_, ?_⟩
    · intro pid used here
      cases here
    · intro pid draft status here
      cases here
  · intro p e p' _ known _ step
    obtain ⟨moved, recorded⟩ := Machine.recording_step step
    have stepped := step_stepped moved
    refine ⟨?_, ?_⟩
    · intro pid used there
      rw [recorded]
      rcases at_step stepped there with ⟨before, idle⟩ | arrives
      · rw [recordUsage_ne idle]
        exact known.selects pid used before
      · obtain ⟨env, rfl, here, usage⟩ := arrives_createSelect arrives
        exact recordUsage_at here usage
    · intro pid draft status there
      rw [recorded]
      rcases at_step stepped there with ⟨before, idle⟩ | arrives
      · rw [recordUsage_ne idle]
        exact known.inserts pid draft status before
      · obtain ⟨env, pc, rfl, here, -, next⟩ := arrives_insert arrives rfl
        obtain ⟨used, balances, rfl, decided⟩ := read_createInsert next
        rw [recordUsage_other here (by simp), known.selects pid used here]
        exact (createDecision_within decided).2

/-! ## The law -/

theorem dayWeight_inserted (today : Nat) {r : PayoutBatchRow} {env : Env} (created : r.createdAt = env.now) :
    dayWeight today r = 0 ∨ (today ≤ env.now ∧ dayWeight today r = r.totalBaseUnits) := by
  unfold dayWeight
  rw [created]
  by_cases later : today ≤ env.now
  · cases active : Db.activeStatuses.contains r.status
    · exact .inl rfl
    · right
      refine ⟨later, ?_⟩
      rw [decide_eq_true later]
      rfl
  · left
    rw [decide_eq_false later, Bool.and_false]
    rfl

/-- An insert that fits keeps the day within its cap. -/
theorem fitting_insert {p : State × (Nat → Nat)} {r : PayoutBatchRow}
    (known : ReadingsKnown cfg p) (fits : InsertFits cfg today p e) (inserted : Inserted p.1 e r)
    (within : dayTotal today p.1.db ≤ cfg.maxDailyPayoutBaseUnits) :
    dayTotal today p.1.db + dayWeight today r ≤ cfg.maxDailyPayoutBaseUnits := by
  obtain ⟨pid, env, draft, rfl, total, created, standing⟩ := inserted_draft inserted
  rcases dayWeight_inserted today created with nothing | ⟨later, weight⟩
  · omega
  rw [weight, total]
  have notBefore : ¬ env.now < today := Nat.not_lt.2 later
  rcases standing with ⟨status, here⟩ | here
  · have decided := known.inserts pid draft status here
    unfold InsertFits insertFits at fits
    rw [running_of_at here] at fits
    simp only [notBefore, decide_false, Bool.false_or, Bool.and_eq_true, decide_eq_true_eq] at fits
    unfold saturatingAddU128 at decided
    have exact_sum : min (p.2 pid + draft.totalBaseUnits) (2 ^ 128 - 1) =
        p.2 pid + draft.totalBaseUnits := Nat.min_eq_left (Nat.le_sub_one_of_lt fits.2)
    rw [exact_sum] at decided
    have := fits.1
    omega
  · unfold InsertFits insertFits at fits
    rw [running_of_at here] at fits
    simpa [notBefore] using fits

/-- **Payout caps.**  In every run whose inserts fit, every batch keeps the batch cap and the
active batches of the day keep the daily one, in every state. -/
theorem caps_hold (today : Nat) {p : State × (Nat → Nat)}
    (reached : (cappedMachine cfg).Reaches (InsertFits cfg today) p) :
    (∀ id r, p.1.db.payoutBatches.find? id = some r →
      r.totalBaseUnits ≤ cfg.maxPayoutBatchBaseUnits) ∧
      dayTotal today p.1.db ≤ cfg.maxDailyPayoutBaseUnits := by
  refine ⟨(batches_capped reached.forget).rows, ?_⟩
  refine reached.invariant
    (I := fun p => dayTotal today p.1.db ≤ cfg.maxDailyPayoutBaseUnits) ?_ ?_
  · rintro ⟨s, read⟩ ⟨rfl, -⟩
    exact Nat.zero_le _
  · intro p e p' before within fits step
    obtain ⟨moved, -⟩ := Machine.recording_step step
    rcases dayTotal_step today (step_stepped moved) with less | ⟨r, inserted, bound⟩
    · exact Nat.le_trans less within
    · exact Nat.le_trans bound (fitting_insert (readings_known before) fits inserted within)

namespace Sample

/-- A day on which 150 may be paid out. -/
def cappedConfig : Config := { config with maxDailyPayoutBaseUnits := 150 }

/-- Another 100 for the miner. -/
def fundedAgain : List Event :=
  [.appendRewards [⟨some miner, 100, .rewardImmature, "block", "c"⟩,
    ⟨some miner, 100, .rewardMature, "block", "c"⟩]]

/-- One run after the other; the second is refused. -/
def oneByOne : List Event :=
  funded 100 ++ create 0 "p" ++ fundedAgain ++ [.spawn 1 .createPayouts] ++ steps 1 2 ++
    [.run 1 { batchId := "q" }]

/-- Both runs read the day's total before either inserts. -/
def overlapping : List Event :=
  funded 100 ++ [.spawn 0 .createPayouts, .spawn 1 .createPayouts] ++ steps 0 2 ++ steps 1 2 ++
    [.run 0 { batchId := "p" }] ++ steps 0 1 ++ fundedAgain ++
    [.run 1 { batchId := "q" }] ++ steps 1 1

end Sample

/-- One run after the other: the second finds what the first has used, and inserts nothing. -/
theorem caps_hold_one_by_one :
    ∃ p, (cappedMachine Sample.cappedConfig).Reaches (InsertFits Sample.cappedConfig 0) p ∧
      dayTotal 0 p.1.db = 100 ∧ dayTotal 0 p.1.db ≤ 150 := by
  obtain ⟨p, reached, shown⟩ := Machine.exists_of_runUnder (cappedMachine Sample.cappedConfig)
    (InsertFits Sample.cappedConfig 0) (s := (.initial, fun _ => 0)) ⟨rfl, rfl⟩ Sample.oneByOne
    (fun p => decide (dayTotal 0 p.1.db = 100)) (by decide +kernel)
  exact ⟨p, reached, of_decide_eq_true shown, (caps_hold 0 reached).2⟩

/-- Two overlapping runs exceed the day's cap. -/
theorem daily_cap_exceeded :
    ¬ ∀ s, (payoutMachine Sample.cappedConfig).Reachable s →
      dayTotal 0 s.db ≤ Sample.cappedConfig.maxDailyPayoutBaseUnits := by
  intro claimed
  obtain ⟨s, reached, shown⟩ := Machine.exists_of_run (payoutMachine Sample.cappedConfig)
    (s := .initial) rfl Sample.overlapping (fun s => decide (dayTotal 0 s.db = 200))
    (by decide +kernel)
  have within := claimed s reached
  rw [of_decide_eq_true shown] at within
  revert within
  decide

end CsdPool.Payout
