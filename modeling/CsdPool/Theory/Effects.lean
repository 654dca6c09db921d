/-
# Theory.Effects — what a program with a state and exceptions ends in

`Ends x s ok error` is the weakest precondition of a program of `EStateM`: run from `s`, it
returns in `ok` or throws in `error`, and the state it throws in is kept.  Every construct has its
rule as an equivalence (`ends_bind` and its like), so the rules run a program symbolically; a
program of its own is used through one statement about it (`Ends.bind`, `Ends.mono`).
-/
import Mathlib.Logic.Basic

namespace CsdPool.Theory

set_option autoImplicit false

universe u

variable {ε σ α β : Type u}

/-- From `s` the program returns in `ok`, or throws in `error`. -/
def Ends (x : EStateM ε σ α) (s : σ) (ok : α → σ → Prop) (error : ε → σ → Prop) : Prop :=
  match x s with
  | .ok a t => ok a t
  | .error e t => error e t

variable {x : EStateM ε σ α} {s t : σ} {ok : α → σ → Prop} {error : ε → σ → Prop}

/-- A run that returns has what the statement promises of a return. -/
theorem Ends.of_ok {a : α} (ends : Ends x s ok error) (ran : x s = .ok a t) : ok a t := by
  unfold Ends at ends
  rwa [ran] at ends

/-- A run that throws has what the statement promises of a throw. -/
theorem Ends.of_error {e : ε} (ends : Ends x s ok error) (ran : x s = .error e t) :
    error e t := by
  unfold Ends at ends
  rwa [ran] at ends

/-- The rule of consequence. -/
theorem Ends.mono {ok' : α → σ → Prop} {error' : ε → σ → Prop} (ends : Ends x s ok error)
    (onOk : ∀ a t, ok a t → ok' a t) (onError : ∀ e t, error e t → error' e t) :
    Ends x s ok' error' := by
  unfold Ends at ends ⊢
  cases ran : x s with
  | ok a t =>
      rw [ran] at ends
      exact onOk a t ends
  | error e t =>
      rw [ran] at ends
      exact onError e t ends

theorem ends_pure (a : α) : Ends (pure a) s ok error ↔ ok a s := Iff.rfl

theorem ends_throw (e : ε) : Ends (throw e : EStateM ε σ α) s ok error ↔ error e s := Iff.rfl

/-- A program is run by its parts: the second begins where the first returns, and what the first
throws is thrown by both. -/
theorem ends_bind {f : α → EStateM ε σ β} {ok : β → σ → Prop} :
    Ends (x >>= f) s ok error ↔ Ends x s (fun a t => Ends (f a) t ok error) error := by
  show Ends (EStateM.bind x f) s ok error ↔ _
  unfold Ends EStateM.bind
  cases x s <;> rfl

theorem ends_get {ok : σ → σ → Prop} : Ends (get : EStateM ε σ σ) s ok error ↔ ok s s := Iff.rfl

theorem ends_modify {f : σ → σ} {ok : PUnit → σ → Prop} :
    Ends (modify f : EStateM ε σ PUnit) s ok error ↔ ok ⟨⟩ (f s) := Iff.rfl

/-- Each branch under its own condition. -/
theorem ends_ite {p : Prop} [Decidable p] {y : EStateM ε σ α} :
    Ends (if p then x else y) s ok error ↔
      (p → Ends x s ok error) ∧ (¬p → Ends y s ok error) := by
  by_cases holds : p <;> simp [holds]

/-- A program goes on from what it is known to end in. -/
theorem Ends.bind {f : α → EStateM ε σ β} {middle : α → σ → Prop} {ok : β → σ → Prop}
    (first : Ends x s middle error) (rest : ∀ a t, middle a t → Ends (f a) t ok error) :
    Ends (x >>= f) s ok error :=
  ends_bind.2 (first.mono rest fun _ _ thrown => thrown)

end CsdPool.Theory
