/-
# Rewards.Confirmation — the reward a block is confirmed with

Every poll overwrites the stored reward, with zero where the node's answer has
none, and a confirmed block is not polled again.  `reward_kept`: in every run in
which each answer that confirms a block carries a positive reward, a confirmed
block has a positive reward and is settled or selected for settlement.
`reward_lost` is the answer without one.
-/
import CsdPool.Rewards.Invariants

namespace CsdPool.Rewards

open Theory (Keyed Table Machine)

set_option autoImplicit false

variable {s s' : State} {e : Event}

/-- The block's reward can still be settled, is settled, or can still be reported. -/
def RewardSafe (db : Db) (row : BlockRow) : Prop :=
  (0 < row.rewardBaseUnits ∧ (row ∈ db.unsettled ∨ db.hasReward row.hash = true)) ∨
    row ∈ db.pollable

instance (db : Db) (row : BlockRow) : Decidable (RewardSafe db row) :=
  inferInstanceAs (Decidable ((0 < row.rewardBaseUnits ∧
    (row ∈ db.unsettled ∨ db.hasReward row.hash = true)) ∨ row ∈ db.pollable))

/-! ## Rewarded answers -/

/-- If the answer in hand confirms the block, it carries a reward. -/
def confirmsRewarded (env : Env) : Pc → Bool
  | .reconcileNext required (_ :: _) =>
      match env.answer with
      | .ok status =>
          normalizeBlockStatus status.status status.confirmations required ≠ .confirmed ||
            0 < status.rewardBaseUnits.getD 0
      | .error _ => true
  | _ => true

/-- What the outside supplies to an event. -/
def Event.env : Event → Env
  | .run _ env => env
  | _ => {}

def Rewarded (s : State) (e : Event) : Prop := (s.running e).all (confirmsRewarded e.env) = true

instance : ∀ s e, Decidable (Rewarded s e) := fun s e =>
  inferInstanceAs (Decidable ((s.running e).all (confirmsRewarded e.env) = true))

/-- An update in hand does not confirm a block without a reward. -/
def Held.Rewarded : Pc → Prop
  | .reconcileUpdate _ change _ => change.status = .confirmed → 0 < change.rewardBaseUnits
  | _ => True

def UpdatesRewarded (s : State) : Prop := ∀ pid pc, s.At pid pc → Held.Rewarded pc

def BlocksRewarded (s : State) : Prop :=
  ∀ hash row, s.db.blocks.find? hash = some row →
    row.jobId.isSome ∧ (row.status = .confirmed → 0 < row.rewardBaseUnits)

theorem read_rewarded {env : Env} {db : Db} {pc pc' : Pc}
    (rewarded : confirmsRewarded env pc = true) (next : pc.read env db = some pc') :
    Held.Rewarded pc' := by
  cases pc with
  | reconcileNext required queue =>
      cases queue with
      | nil => cases next
      | cons block rest =>
          simp only [Pc.read] at next
          split at next
          · rename_i status answered
            cases next
            intro confirmed
            simp only [confirmsRewarded, answered, Bool.or_eq_true, decide_eq_true_eq] at rewarded
            exact rewarded.resolve_left fun other => other confirmed
          · cases next
  | reconcileList required =>
      simp only [Pc.read] at next
      split at next
      · cases next; trivial
      · cases next
  | settleList feeBps => cases next; trivial
  | settleNext feeBps queue =>
      cases queue with
      | nil => cases next
      | cons block rest =>
          rcases settleDecision_some next with rfl | ⟨shares, settlement, -, -, rfl⟩
          · trivial
          · trivial
  | matureList confirmDepth =>
      simp only [Pc.read] at next
      split at next
      · cases next; trivial
      · cases next
  | reverseList =>
      simp only [Pc.read] at next
      split at next
      · cases next; trivial
      · cases next
  | reconcileUpdate | settleAppend | matureAppend | reverseAppend => cases next

theorem updatesRewarded_step (stepped : Stepped s e s') (rewarded : Rewarded s e)
    (before : UpdatesRewarded s) : UpdatesRewarded s' := by
  intro pid pc' there
  rcases at_step stepped there with stayed | arrives
  · exact before pid pc' stayed
  · cases arrives with
    | spawned entry => cases entry <;> trivial
    | @wrote _ _ pc _ _ here writes next =>
        cases pc with
        | reconcileUpdate | settleAppend => cases next; trivial
        | reconcileList | reconcileNext | settleList | settleNext | matureList | matureAppend
        | reverseList | reverseAppend => cases next
    | read here reads next =>
        rw [Rewarded, State.running_of_at here] at rewarded
        exact read_rewarded rewarded next

theorem blocksRewarded_step (stepped : Stepped s e s') (updates : UpdatesRewarded s)
    (before : BlocksRewarded s) : BlocksRewarded s' := by
  intro hash row' found
  rcases block_before stepped found with
    same | ⟨change, now, row, updating, -, stored, rfl⟩ | ⟨block, now, -, -, -, rfl⟩
  · exact before hash row' same
  · refine ⟨(before hash row stored).1, ?_⟩
    obtain ⟨pid, pc, here, writes⟩ := updating_at updating
    have held := updates pid pc here
    cases pc with
    | reconcileUpdate required change' rest => cases writes; exact held
    | settleAppend | matureAppend | reverseAppend => cases writes
    | reconcileList | reconcileNext | settleList | settleNext | matureList | reverseList =>
        cases writes
  · refine ⟨rfl, fun confirmed => ?_⟩
    -- no candidate starts confirmed
    exfalso
    change block.initialStatus = .confirmed at confirmed
    unfold BlockCandidateRecord.initialStatus at confirmed
    dsimp only at confirmed
    repeat' split at confirmed
    all_goals cases confirmed

theorem blocks_rewarded (reached : rewardMachine.Reaches Rewarded s) :
    UpdatesRewarded s ∧ BlocksRewarded s := by
  refine reached.invariant (I := fun s => UpdatesRewarded s ∧ BlocksRewarded s) ?_ ?_
  · rintro s rfl
    refine ⟨fun pid pc there => ?_, fun hash row found => ?_⟩
    · cases there
    · cases found
  · intro s e s' _ holds rewarded stepped
    have step := step_stepped stepped
    exact ⟨updatesRewarded_step step rewarded holds.1, blocksRewarded_step step holds.1 holds.2⟩

/-- **No reward is lost at confirmation** in runs whose confirming answers carry one. -/
theorem reward_kept (reached : rewardMachine.Reaches Rewarded s) {hash : String} {row : BlockRow}
    (found : s.db.blocks.find? hash = some row) (confirmed : row.status = .confirmed) :
    RewardSafe s.db row := by
  obtain ⟨job, positive⟩ := (blocks_rewarded reached).2 hash row found
  refine .inl ⟨positive confirmed, ?_⟩
  cases settled : s.db.hasReward row.hash with
  | true => exact .inr rfl
  | false =>
      exact .inl (Db.mem_unsettled.2
        ⟨Table.mem_of_find? found, confirmed, positive confirmed, job, settled⟩)

/-- The answer that confirms the block names its reward. -/
theorem reward_kept_reported :
    ∃ s row, rewardMachine.Reaches Rewarded s ∧ s.db.blocks.find? "block" = some row ∧
      row.status = .confirmed ∧ RewardSafe s.db row := by
  obtain ⟨s, reached, shown⟩ := Machine.exists_of_runUnder rewardMachine Rewarded rfl
    (Sample.mined ++ Sample.poll 1 ++ Sample.answer 1 "seen" 3 none ++ Sample.steps 1 1 ++
      Sample.poll 1 ++ Sample.answer 1 "seen" 10 (some 1000))
    (fun s => (s.db.blocks.find? "block").any fun row => row.status = .confirmed)
    (by decide +kernel)
  obtain ⟨row, found, confirmed⟩ := (Option.any_eq_true _ _).1 shown
  rw [decide_eq_true_eq] at confirmed
  exact ⟨s, row, reached, found, confirmed, reward_kept reached found confirmed⟩

/-- The reward was reported while the block was immature; the answer that confirms it
has none, and the block is neither settled, nor selected, nor polled. -/
theorem reward_lost :
    ∃ s row, rewardMachine.Reachable s ∧ s.db.blocks.find? "block" = some row ∧
      row.status = .confirmed ∧ ¬ RewardSafe s.db row := by
  obtain ⟨s, reached, shown⟩ := Machine.exists_of_run rewardMachine rfl
    (Sample.mined ++ Sample.poll 1 ++ Sample.answer 1 "seen" 3 (some 1000) ++ Sample.steps 1 1 ++
      Sample.poll 1 ++ Sample.answer 1 "seen" 10 none)
    (fun s => (s.db.blocks.find? "block").any fun row => row.status = .confirmed &&
      decide (¬ RewardSafe s.db row))
    (by decide +kernel)
  obtain ⟨row, found, holds⟩ := (Option.any_eq_true _ _).1 shown
  simp only [Bool.and_eq_true, decide_eq_true_eq] at holds
  exact ⟨s, row, reached, found, holds.1, holds.2⟩

end CsdPool.Rewards
