/-
# Payout.InFlight — one wallet transaction in flight

Only `mark_payout_signed` brings a batch into `signed` or `submitted` from outside; it runs
under the advisory lock, after a check that no batch is in either status.  The check and the
update use other connections than the lock, so what counts is that nothing else can bring a
batch in between: while a live run stands past its check, no batch is in flight (`Clear`), and
no second live run stands there (`signing_unique`).

The lock ends with the process, the update it has sent does not.  It may commit when the next
run has passed its own check, and then two batches are signed (`two_in_flight`).  As long as
the updates of dead processes take effect alone (`LateSigningAlone`), there is one
(`one_in_flight`).
-/
import CsdPool.Payout.Invariants

namespace CsdPool.Payout

open Theory (Keyed Table Machine)

set_option autoImplicit false

variable {cfg : Config} {s s' : State} {e : Event}

/-- The wallet may be spending for the batch. -/
def inFlight (status : PayoutStatus) : Prop := status = .signed ∨ status = .submitted

def InFlight (s : State) (id : String) : Prop :=
  ∃ r, s.db.payoutBatches.find? id = some r ∧ inFlight r.status

/-- After the check for a batch in flight and before the update. -/
def Pc.pastCheck : Pc → Bool
  | .signList | .signCall _ | .signMark _ _ _ => true
  | _ => false

theorem inSigning_of_pastCheck {pc : Pc} (past : pc.pastCheck = true) : pc.inSigning = true := by
  cases pc <;> first | rfl | cases past

/-- At most one batch is in status `signed` or `submitted`. -/
def OneInFlight (s : State) : Prop := ∀ id id', InFlight s id → InFlight s id' → id = id'

/-- A `mark_payout_signed` whose process is gone takes effect only while no batch is in flight
and no live run stands between its check and its own update. -/
def LateSigningAlone (s : State) (e : Event) : Prop :=
  ∀ pid env batch txid value, e = .run pid env → s.At pid (.signMark batch txid value) →
    pid ∈ s.severed → s.statusOf batch.batchId = some .created →
      (∀ id, ¬ InFlight s id) ∧
        ∀ pid' pc, s.At pid' pc → pid' ∉ s.severed → pc.pastCheck = false

/-- A live run past its check sees no batch in flight. -/
def Clear (s : State) : Prop :=
  ∀ pid pc, s.At pid pc → pid ∉ s.severed → pc.pastCheck = true → ∀ id, ¬ InFlight s id

/-! ## How a batch comes into flight -/

/-- The step is the update of a signing run, and it takes effect. -/
structure Signs (s : State) (e : Event) (pid : Nat) (id : String) : Prop where
  update : ∃ env batch txid value, e = .run pid env ∧ s.At pid (.signMark batch txid value) ∧
    id = batch.batchId
  created : s.statusOf id = some .created

/-- It was in flight, or this step is the update of a signing run. -/
theorem inFlight_before (reached : (payoutMachine cfg).Reachable s)
    (stepped : Stepped cfg s e s') {id : String} (flies : InFlight s' id) :
    InFlight s id ∨ ∃ pid, Signs s e pid id := by
  obtain ⟨r', found, flies⟩ := flies
  have row_id : r'.id = id := Table.key_of_find? found
  rcases row_before stepped found with ⟨r, before, change⟩ | inserted
  · cases change with
    | same => exact .inl ⟨r', before, flies⟩
    | approved _ _ => rcases flies with wrong | wrong <;> cases wrong
    | @signed pid env batch txid value is here id' source =>
        refine .inr ⟨pid, ⟨env, batch, txid, value, is, here, row_id.symm.trans id'⟩, ?_⟩
        rw [State.statusOf, before, Option.map_some, source]
    | submitted _ _ _ source => exact .inl ⟨r, before, source⟩
    | confirmed _ _ _ _ => rcases flies with wrong | wrong <;> cases wrong
    | failed _ _ _ _ => rcases flies with wrong | wrong <;> cases wrong
    | cancelled _ _ _ _ => rcases flies with wrong | wrong <;> cases wrong
  · have status := inserted.status reached
    rcases status with waiting | created
    · rw [waiting] at flies
      rcases flies with wrong | wrong <;> cases wrong
    · rw [created] at flies
      rcases flies with wrong | wrong <;> cases wrong

/-- Who signs finds nothing in flight, alive or not. -/
theorem Signs.clear {pid : Nat} {id : String} (signs : Signs s e pid id) (clear : Clear s)
    (alone : LateSigningAlone s e) : ∀ id', ¬ InFlight s id' := by
  obtain ⟨⟨env, batch, txid, value, is, here, same⟩, created⟩ := signs
  by_cases gone : pid ∈ s.severed
  · exact (alone pid env batch txid value is here gone (same ▸ created)).1
  · exact clear pid _ here gone rfl

/-- An empty listing of both statuses is the check the source makes. -/
theorem clear_of_listed_nil {db : Db} {id : String} {r : PayoutBatchRow}
    (listed : db.listPayoutBatchesByStatus [.signed, .submitted] 1 = [])
    (found : db.payoutBatches.find? id = some r) : ¬ inFlight r.status := by
  intro flies
  have member : r ∈ db.payoutBatches.rows.filter fun row =>
      [PayoutStatus.signed, PayoutStatus.submitted].contains row.status := by
    apply List.mem_filter.2
    refine ⟨Table.mem_of_find? found, ?_⟩
    rcases flies with status | status <;> rw [status] <;> rfl
  have sorted := (List.mem_insertionSort Db.batchOrder).2 member
  unfold Db.listPayoutBatchesByStatus at listed
  rw [List.map_eq_nil_iff, List.take_eq_nil_iff] at listed
  rcases listed with impossible | empty
  · cases impossible
  · rw [empty] at sorted
    cases sorted

theorem read_pastCheck {env : Env} {db : Db} {pc pc' : Pc}
    (next : (pc.read cfg env db).next = some pc') (past : pc'.pastCheck = true) :
    pc.pastCheck = true ∨ (pc = .signInflight ∧
      db.listPayoutBatchesByStatus [.signed, .submitted] 1 = []) := by
  obtain ⟨worker, -, -⟩ := read_holds next
  have sign : pc.worker = .sign := by
    rw [← worker]
    cases pc' <;> first | rfl | cases past
  cases pc with
  | signBegin =>
      rw [Pc.read] at next
      split at next <;> cases next
      cases past
  | signLock =>
      cases next
      cases past
  | signInflight =>
      rw [Pc.read] at next
      cases listed : db.listPayoutBatchesByStatus [.signed, .submitted] 1 with
      | nil => exact .inr ⟨rfl, rfl⟩
      | cons batch rest =>
          rw [listed] at next
          cases next
          cases past
  | signList => exact .inl rfl
  | signCall _ => exact .inl rfl
  | signMark _ _ _ => exact .inl rfl
  | signCommit => cases next
  | markFailed _ _ => cases next
  | unlock _ _ => cases next
  | _ => cases sign

theorem afterWrite_pastCheck {pc pc' : Pc} {updated : Bool}
    (next : pc.afterWrite updated = some pc') : pc'.pastCheck = false := by
  cases pc with
  | unlock caller _ => cases caller <;> cases next <;> rfl
  | cancelUpdate _ =>
      simp only [Pc.afterWrite] at next
      split at next
      · cases next
        rfl
      · cases next
  | _ => first | (cases next; rfl) | cases next

/-! ## The check stays true -/

/-- Nobody else's update comes between: a live run has not the lock, and a dead one is alone. -/
theorem clear_kept (reached : (payoutMachine cfg).Reachable s) (stepped : Stepped cfg s e s')
    (alone : LateSigningAlone s e) {pid : Nat} {pc : Pc} (here : s.At pid pc)
    (alive : pid ∉ s.severed) (inside : pc.inSigning = true)
    (past : pc.pastCheck = true ∨ ∃ env, e = .run pid env) (clear : ∀ id, ¬ InFlight s id)
    (still : ∀ env batch txid value, e = .run pid env → pc ≠ .signMark batch txid value) :
    ∀ id, ¬ InFlight s' id := by
  intro id flies
  rcases inFlight_before reached stepped flies with before | ⟨pid', signs⟩
  · exact clear id before
  · obtain ⟨⟨env, batch, txid, value, rfl, there, same⟩, created⟩ := signs
    have other : pid ≠ pid' := by
      rintro rfl
      exact still env batch txid value rfl (State.at_unique here there)
    rcases past with past | ⟨env', is⟩
    · by_cases gone : pid' ∈ s.severed
      · have none_ := (alone pid' env batch txid value rfl there gone (same ▸ created)).2
        rw [none_ pid pc here alive] at past
        cases past
      · exact other (signing_unique reached here there inside rfl alive gone)
    · cases is
      exact other rfl

theorem clear_known (reached : (payoutMachine cfg).Reaches LateSigningAlone s) : Clear s := by
  refine reached.invariant (I := Clear) ?_ ?_
  · rintro s rfl pid pc here
    cases here
  · intro s e s' reached clear alone step pid pc' there alive' past
    have stepped := step_stepped step
    have alive : pid ∉ s.severed := fun gone => alive' (severed_kept stepped there gone)
    rcases at_step stepped there with ⟨before, idle⟩ | arrives
    · apply clear_kept reached.reachable stepped alone before alive (inSigning_of_pastCheck past)
        (.inl past) (clear pid pc' before alive past)
      intro env batch txid value is
      exact absurd is (idle env)
    · cases arrives with
      | @spawned entry _ => cases entry <;> cases past
      | wrote _ _ _ next =>
          rw [afterWrite_pastCheck next] at past
          cases past
      | @read env pc _ here reads next =>
          have still : ∀ env' batch txid value, Event.run pid env = .run pid env' →
              pc ≠ .signMark batch txid value := by
            rintro _ batch txid value - rfl
            cases reads
          rcases read_pastCheck next past with earlier | ⟨rfl, listed⟩
          · exact clear_kept reached.reachable stepped alone here alive
              (inSigning_of_pastCheck earlier) (.inl earlier) (clear pid pc here alive earlier) still
          · apply clear_kept reached.reachable stepped alone here alive rfl (.inr ⟨env, rfl⟩) ?_ still
            rintro id ⟨r, found, flies⟩
            exact clear_of_listed_nil listed found flies

/-! ## The law -/

theorem Signs.unique {pid pid' : Nat} {id id' : String} (signs : Signs s e pid id)
    (signs' : Signs s e pid' id') : id = id' := by
  obtain ⟨⟨env, batch, txid, value, is, here, rfl⟩, -⟩ := signs
  obtain ⟨⟨env', batch', txid', value', is', here', rfl⟩, -⟩ := signs'
  cases is.symm.trans is'
  cases State.at_unique here here'
  rfl

/-- **One wallet transaction in flight**, in every state of every run in which the updates of
dead signing processes take effect alone. -/
theorem one_in_flight (cfg : Config) (s : State)
    (reached : (payoutMachine cfg).Reaches LateSigningAlone s) : OneInFlight s := by
  refine reached.invariant (I := OneInFlight) ?_ ?_
  · rintro s rfl id id' ⟨r, found, -⟩
    cases found
  · intro s e s' reached unique alone step id id' flies flies'
    have stepped := step_stepped step
    have clear := clear_known reached
    rcases inFlight_before reached.reachable stepped flies with before | ⟨pid, signs⟩
    · rcases inFlight_before reached.reachable stepped flies' with before' | ⟨pid', signs'⟩
      · exact unique id id' before before'
      · exact absurd before (signs'.clear clear alone id)
    · rcases inFlight_before reached.reachable stepped flies' with before' | ⟨pid', signs'⟩
      · exact absurd before' (signs.clear clear alone id')
      · exact signs.unique signs'

/-! ## Runs -/

/-- A test that the update of a dead process, if this is one, is alone. -/
def lateSigningAlone (s : State) (e : Event) : Bool :=
  match e, s.running e with
  | .run pid _, some (.signMark _ _ _) =>
      decide (pid ∉ s.severed) ||
        ((s.db.payoutBatches.rows.all fun r =>
            decide (r.status ≠ .signed) && decide (r.status ≠ .submitted)) &&
          s.procs.rows.all fun p => decide (p.pid ∈ s.severed) || !p.pc.pastCheck)
  | _, _ => true

theorem LateSigningAlone.of_test (alone : lateSigningAlone s e = true) : LateSigningAlone s e := by
  rintro pid env batch txid value rfl here gone -
  unfold lateSigningAlone at alone
  rw [running_of_at here] at alone
  simp only [gone, not_true_eq_false, decide_false, Bool.false_or, Bool.and_eq_true,
    List.all_eq_true, decide_eq_true_eq, Bool.or_eq_true, Bool.not_eq_true'] at alone
  obtain ⟨noBatch, noRun⟩ := alone
  refine ⟨?_, ?_⟩
  · rintro id ⟨r, found, flies⟩
    obtain ⟨unsigned, unsubmitted⟩ := noBatch r (Table.mem_of_find? found)
    rcases flies with signed | submitted
    · exact unsigned signed
    · exact unsubmitted submitted
  · intro pid' pc there alive
    exact (noRun ⟨pid', pc⟩ (Table.mem_of_find? there)).resolve_left alive

namespace Sample

/-- Two batches wait for the signer; a signing run gets its answer and dies with the update sent,
and the next run takes the lock. -/
def lateSigner : List Event :=
  funded 100 ++ create 1 "p" ++
    [.appendRewards [⟨some miner, 100, .rewardImmature, "block", "c"⟩,
      ⟨some miner, 100, .rewardMature, "block", "c"⟩]] ++
    create 2 "q" ++ [.spawn 3 .signPayouts] ++ steps 3 4 ++ [.run 3 { signer := .ok signed }] ++
    [.sever 3, .spawn 4 .signPayouts] ++ steps 4 2

end Sample

/-- The update of the dead process commits before the next run looks: that run is blocked. -/
theorem one_in_flight_signed :
    ∃ s, OneInFlight s ∧ InFlight s "p" ∧ s.statusOf "q" = some .created := by
  obtain ⟨s, reached, shown⟩ := Machine.exists_of_runUnder (payoutMachine Sample.config)
    (fun s e => lateSigningAlone s e = true) (s := .initial) rfl
    (Sample.lateSigner ++ Sample.steps 3 1 ++ Sample.steps 4 2)
    (fun s => decide (s.statusOf "p" = some .signed) && decide (s.statusOf "q" = some .created))
    (by decide +kernel)
  obtain ⟨signed, created⟩ := Bool.and_eq_true_iff.1 shown
  obtain ⟨r, found, status⟩ := Option.map_eq_some_iff.1 (of_decide_eq_true signed)
  refine ⟨s, one_in_flight _ s (reached.mono fun _ _ => LateSigningAlone.of_test),
    ⟨r, found, .inl status⟩, of_decide_eq_true created⟩

/-- The next run has passed its check when the update of the dead process commits, and signs
another batch. -/
theorem two_in_flight :
    ∃ s, (payoutMachine Sample.config).Reachable s ∧ ¬ OneInFlight s := by
  obtain ⟨s, reached, shown⟩ := Machine.exists_of_run (payoutMachine Sample.config)
    (s := .initial) rfl
    (Sample.lateSigner ++ Sample.steps 4 1 ++ Sample.steps 3 1 ++ Sample.steps 4 1 ++
      [.run 4 { signer := .ok Sample.signed }] ++ Sample.steps 4 2)
    (fun s => decide (s.statusOf "p" = some .signed) && decide (s.statusOf "q" = some .signed))
    (by decide +kernel)
  obtain ⟨signed, signed'⟩ := Bool.and_eq_true_iff.1 shown
  obtain ⟨r, found, status⟩ := Option.map_eq_some_iff.1 (of_decide_eq_true signed)
  obtain ⟨r', found', status'⟩ := Option.map_eq_some_iff.1 (of_decide_eq_true signed')
  refine ⟨s, reached, fun one => ?_⟩
  have same := one "p" "q" ⟨r, found, .inl status⟩ ⟨r', found', .inl status'⟩
  revert same
  decide

end CsdPool.Payout
