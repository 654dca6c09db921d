/-
# Theory.Machine — machines, guarded runs, invariants

A machine is a set of initial states and a partial step function; everything
the environment decides (which process moves, what a peer answers, when a
process dies) is in the event.  `Reaches allow` are the states of the runs whose
every step satisfies `allow` at the state it is taken from, so a theorem about
all runs has `allow = fun _ _ => True` (`Reachable`) and a theorem about the runs
that meet a condition names the condition.

* `Reaches.invariant` is the induction over runs, stated once; `keep` may use
  that the state before the step is itself reached, so invariants stack.
* `startingAt s` is the machine that continues from `s`: its reachable states
  are the futures of `s`.
* `recording` keeps a history next to the state, for a condition or a property that speaks of
  earlier steps; it changes no run (`Reaches.project`, `Reaches.forget`, `Reaches.recorded`).
* `runUnder` computes a run and checks its condition, so concrete runs are
  evaluated (`Reaches.of_runUnder`).
-/
import Mathlib.Logic.Basic

namespace CsdPool.Theory

set_option autoImplicit false

universe u v

structure Machine (σ : Type u) (ε : Type v) where
  init : σ → Prop
  step : σ → ε → Option σ

namespace Machine

variable {σ : Type u} {ε : Type v} (M : Machine σ ε)

/-- The states of the runs all of whose steps are allowed. -/
inductive Reaches (allow : σ → ε → Prop) : σ → Prop
  | start {s : σ} : M.init s → Reaches allow s
  | next {s : σ} {e : ε} {s' : σ} :
      Reaches allow s → allow s e → M.step s e = some s' → Reaches allow s'

abbrev Reachable : σ → Prop := M.Reaches fun _ _ => True

/-- The machine that goes on from `s`. -/
def startingAt (s : σ) : Machine σ ε := ⟨(· = s), M.step⟩

variable {M}

/-- **The invariant rule.** -/
theorem Reaches.invariant {allow : σ → ε → Prop} {I : σ → Prop}
    (start : ∀ s, M.init s → I s)
    (keep : ∀ s e s', M.Reaches allow s → I s → allow s e → M.step s e = some s' → I s')
    {s : σ} (reaches : M.Reaches allow s) : I s := by
  induction reaches with
  | start initial => exact start _ initial
  | next before allowed stepped ih => exact keep _ _ _ before ih allowed stepped

/-- A run that meets a condition meets every weaker one. -/
theorem Reaches.mono {allow allow' : σ → ε → Prop} (weaker : ∀ s e, allow s e → allow' s e)
    {s : σ} (reaches : M.Reaches allow s) : M.Reaches allow' s := by
  induction reaches with
  | start initial => exact .start initial
  | next _ allowed stepped ih => exact .next ih (weaker _ _ allowed) stepped

theorem Reaches.reachable {allow : σ → ε → Prop} {s : σ} (reaches : M.Reaches allow s) :
    M.Reachable s :=
  reaches.mono fun _ _ _ => trivial

theorem Reaches.trans {allow : σ → ε → Prop} {s t : σ} (reaches : M.Reaches allow s)
    (later : (M.startingAt s).Reaches allow t) : M.Reaches allow t := by
  induction later with
  | start initial => cases initial; exact reaches
  | next _ allowed stepped ih => exact .next ih allowed stepped

/-- One step is a future. -/
theorem startingAt_step {s t : σ} {e : ε} (stepped : M.step s e = some t) :
    (M.startingAt s).Reachable t :=
  .next (e := e) (.start rfl) trivial stepped

section History

universe w

variable {η : Type w}

/-- The machine that also keeps a history. -/
def recording (M : Machine σ ε) (start : η) (record : η → σ → ε → η) : Machine (σ × η) ε where
  init p := M.init p.1 ∧ p.2 = start
  step p e := (M.step p.1 e).map fun s => (s, record p.2 p.1 e)

variable {start : η} {record : η → σ → ε → η}

theorem recording_step {p p' : σ × η} {e : ε}
    (stepped : (M.recording start record).step p e = some p') :
    M.step p.1 e = some p'.1 ∧ p'.2 = record p.2 p.1 e := by
  obtain ⟨s, moved, rfl⟩ := Option.map_eq_some_iff.1 stepped
  exact ⟨moved, rfl⟩

/-- A recorded run is a run, under what was asked of its states. -/
theorem Reaches.project {allow : σ → ε → Prop} {p : σ × η}
    (reaches : (M.recording start record).Reaches (fun p e => allow p.1 e) p) :
    M.Reaches allow p.1 := by
  induction reaches with
  | start initial => exact .start initial.1
  | next _ allowed stepped ih => exact .next ih allowed (recording_step stepped).1

theorem Reaches.forget {allow : σ × η → ε → Prop} {p : σ × η}
    (reaches : (M.recording start record).Reaches allow p) : M.Reachable p.1 :=
  Reaches.project (reaches.mono fun _ _ _ => trivial)

/-- Every run can be recorded. -/
theorem Reaches.recorded {s : σ} (reached : M.Reachable s) :
    ∃ h, (M.recording start record).Reachable (s, h) := by
  induction reached with
  | start initial => exact ⟨start, .start ⟨initial, rfl⟩⟩
  | @next s e s' _ _ stepped ih =>
      obtain ⟨h, before⟩ := ih
      refine ⟨record h s e, before.next (e := e) trivial ?_⟩
      show (M.step s e).map _ = _
      rw [stepped]
      rfl

end History

section Run

variable (M) (allow : σ → ε → Prop) [∀ s e, Decidable (allow s e)]

/-- Run a list of events, refusing the first step that is not allowed. -/
def runUnder : σ → List ε → Option σ
  | s, [] => some s
  | s, e :: es =>
      if allow s e then
        match M.step s e with
        | some s' => runUnder s' es
        | none => none
      else none

variable {M allow}

theorem Reaches.of_runUnder {s : σ} (reaches : M.Reaches allow s) {es : List ε} {t : σ}
    (ran : M.runUnder allow s es = some t) : M.Reaches allow t := by
  induction es generalizing s with
  | nil =>
      simp only [runUnder, Option.some.injEq] at ran
      exact ran ▸ reaches
  | cons e es ih =>
      simp only [runUnder] at ran
      split at ran
      · rename_i allowed
        split at ran
        · rename_i s' stepped
          exact ih (.next reaches allowed stepped) ran
        · cases ran
      · cases ran

end Run

/-- Run a list of events. -/
def run (M : Machine σ ε) (s : σ) (es : List ε) : Option σ :=
  M.runUnder (fun _ _ => True) s es

/-- The first step of a run, and the rest. -/
theorem run_cons {M : Machine σ ε} {s t : σ} {e : ε} {es : List ε}
    (ran : M.run s (e :: es) = some t) : ∃ s', M.step s e = some s' ∧ M.run s' es = some t := by
  unfold run runUnder at ran
  rw [if_pos trivial] at ran
  split at ran
  · rename_i s' stepped
    exact ⟨s', stepped, ran⟩
  · cases ran

/-- A computed run that ends in a state with `p` exhibits such a state. -/
theorem exists_of_runUnder (M : Machine σ ε) (allow : σ → ε → Prop)
    [∀ s e, Decidable (allow s e)] {s : σ} (initial : M.init s) (es : List ε) (p : σ → Bool)
    (ran : (M.runUnder allow s es).any p = true) : ∃ t, M.Reaches allow t ∧ p t = true := by
  cases ended : M.runUnder allow s es with
  | none => rw [ended] at ran; cases ran
  | some t =>
      rw [ended] at ran
      exact ⟨t, (Reaches.start initial).of_runUnder ended, ran⟩

theorem exists_of_run (M : Machine σ ε) {s : σ} (initial : M.init s) (es : List ε)
    (p : σ → Bool) (ran : (M.run s es).any p = true) : ∃ t, M.Reachable t ∧ p t = true :=
  exists_of_runUnder M _ initial es p ran

end Machine

end CsdPool.Theory
