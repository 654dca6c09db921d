/-
# Theory.Transaction — sequences of fallible steps

A transaction is a fold of fallible steps over a list of statements: the first
error ends it and nothing of it is kept.  A successful one is taken apart by
`bind_ok`, `map_ok` and `foldlM_ok_cons`, an invariant of every step is one of the
whole (`foldlM_invariant`), and steps that cannot fail under an invariant make a
transaction that cannot fail (`foldlM_total`).  Reading a result set is a `mapM`
of a fallible row conversion, element by element (`mapM_ok`).
-/
import Mathlib.Data.List.Forall2
import Mathlib.Logic.Basic

namespace CsdPool.Theory

set_option autoImplicit false

universe u v w

variable {σ : Type u} {ε : Type u} {α : Type v}

/-- Two steps after each other go through if both do. -/
theorem bind_ok {τ : Type u} {x : Except ε σ} {f : σ → Except ε τ} {t : τ} :
    (x >>= f) = .ok t ↔ ∃ s, x = .ok s ∧ f s = .ok t := by
  cases x with
  | error e => simp [bind, Except.bind]
  | ok s => simp [bind, Except.bind]

theorem map_ok {τ : Type u} {x : Except ε σ} {f : σ → τ} {t : τ} :
    x.map f = .ok t ↔ ∃ s, x = .ok s ∧ f s = t := by
  cases x with
  | error e => simp [Except.map]
  | ok s => simp [Except.map]

/-- A transaction goes through statement by statement. -/
theorem foldlM_ok_cons {step : σ → α → Except ε σ} {a : α} {rest : List α} {s t : σ} :
    (a :: rest).foldlM step s = .ok t ↔
      ∃ mid, step s a = .ok mid ∧ rest.foldlM step mid = .ok t := by
  rw [List.foldlM_cons, bind_ok]

theorem foldlM_ok_nil {step : σ → α → Except ε σ} {s t : σ} :
    ([] : List α).foldlM step s = .ok t ↔ s = t := by
  simp [pure, Except.pure]

/-- What every statement keeps, the transaction keeps. -/
theorem foldlM_invariant {step : σ → α → Except ε σ} {I : σ → Prop} {statements : List α}
    (keep : ∀ a ∈ statements, ∀ s t, I s → step s a = .ok t → I t) {s t : σ} (holds : I s)
    (committed : statements.foldlM step s = .ok t) : I t := by
  induction statements generalizing s with
  | nil => exact foldlM_ok_nil.1 committed ▸ holds
  | cons a rest ih =>
      obtain ⟨mid, first, later⟩ := foldlM_ok_cons.1 committed
      exact ih (fun b member => keep b (List.mem_cons_of_mem _ member))
        (keep a (List.mem_cons_self ..) s mid holds first) later

/-- What a statement establishes and the later ones keep, holds at the end. -/
theorem foldlM_establishes {step : σ → α → Except ε σ} {P : α → σ → Prop}
    {statements : List α}
    (keep : ∀ a b s t, P a s → step s b = .ok t → P a t)
    (establish : ∀ a ∈ statements, ∀ s t, step s a = .ok t → P a t)
    {s t : σ} (committed : statements.foldlM step s = .ok t) : ∀ a ∈ statements, P a t := by
  induction statements generalizing s with
  | nil => intro a member; cases member
  | cons b rest ih =>
      obtain ⟨mid, first, later⟩ := foldlM_ok_cons.1 committed
      intro a member
      rcases List.mem_cons.1 member with rfl | inRest
      · exact foldlM_invariant (fun c _ u v => keep a c u v)
          (establish a (List.mem_cons_self ..) s mid first) later
      · exact ih (fun c member => establish c (List.mem_cons_of_mem _ member)) later a inRest

/-- Statements that cannot fail under an invariant make a transaction that commits. -/
theorem foldlM_total {step : σ → α → Except ε σ} {I : σ → Prop} {statements : List α}
    (total : ∀ a ∈ statements, ∀ s, I s → ∃ t, step s a = .ok t ∧ I t) {s : σ} (holds : I s) :
    ∃ t, statements.foldlM step s = .ok t ∧ I t := by
  induction statements generalizing s with
  | nil => exact ⟨s, foldlM_ok_nil.2 rfl, holds⟩
  | cons a rest ih =>
      obtain ⟨mid, first, holdsMid⟩ := total a (List.mem_cons_self ..) s holds
      obtain ⟨t, later, holdsEnd⟩ :=
        ih (fun b member => total b (List.mem_cons_of_mem _ member)) holdsMid
      exact ⟨t, foldlM_ok_cons.2 ⟨mid, first, later⟩, holdsEnd⟩

/-- Rows are converted if each of them is, and in their order. -/
theorem mapM_ok {τ : Type u} {convert : α → Except ε τ} {rows : List α} {results : List τ} :
    rows.mapM convert = .ok results ↔
      List.Forall₂ (fun row result => convert row = .ok result) rows results := by
  induction rows generalizing results with
  | nil => cases results <;> simp [pure, Except.pure]
  | cons row rest ih =>
      rw [List.mapM_cons, bind_ok]
      constructor
      · rintro ⟨result, head, tail⟩
        obtain ⟨others, converted, ended⟩ := bind_ok.1 tail
        cases ended
        exact .cons head (ih.1 converted)
      · intro all
        cases all with
        | cons head tail => exact ⟨_, head, bind_ok.2 ⟨_, ih.2 tail, rfl⟩⟩

/-- Rows that all convert are read. -/
theorem mapM_total {τ : Type u} {convert : α → Except ε τ} {rows : List α}
    (total : ∀ row ∈ rows, ∃ result, convert row = .ok result) :
    ∃ results, rows.mapM convert = .ok results := by
  induction rows with
  | nil => exact ⟨[], mapM_ok.2 .nil⟩
  | cons row rest ih =>
      obtain ⟨result, head⟩ := total row (List.mem_cons_self ..)
      obtain ⟨results, tail⟩ := ih fun other member => total other (List.mem_cons_of_mem _ member)
      exact ⟨result :: results, mapM_ok.2 (.cons head (mapM_ok.1 tail))⟩

theorem mapM_of_forall {τ : Type u} {convert : α → Except ε τ} {f : α → τ} {rows : List α}
    (all : ∀ row ∈ rows, convert row = .ok (f row)) : rows.mapM convert = .ok (rows.map f) :=
  mapM_ok.2 (List.forall₂_map_right_iff.2 (List.forall₂_same.2 all))

/-- Every result is that of some row. -/
theorem mem_mapM {τ : Type u} {convert : α → Except ε τ} {rows : List α} {results : List τ}
    (read : rows.mapM convert = .ok results) {result : τ} (member : result ∈ results) :
    ∃ row ∈ rows, convert row = .ok result := by
  have all := mapM_ok.1 read
  clear read
  induction all with
  | nil => cases member
  | cons head _ ih =>
      rcases List.mem_cons.1 member with rfl | inRest
      · exact ⟨_, List.mem_cons_self .., head⟩
      · obtain ⟨row, inRows, converted⟩ := ih inRest
        exact ⟨row, List.mem_cons_of_mem _ inRows, converted⟩

theorem mapM_mem {τ : Type u} {convert : α → Except ε τ} {rows : List α} {results : List τ}
    (read : rows.mapM convert = .ok results) {row : α} (member : row ∈ rows) :
    ∃ result ∈ results, convert row = .ok result := by
  have all := mapM_ok.1 read
  clear read
  induction all with
  | nil => cases member
  | cons head _ ih =>
      rcases List.mem_cons.1 member with rfl | inRest
      · exact ⟨_, List.mem_cons_self .., head⟩
      · obtain ⟨result, inResults, converted⟩ := ih inRest
        exact ⟨result, List.mem_cons_of_mem _ inResults, converted⟩

end CsdPool.Theory
