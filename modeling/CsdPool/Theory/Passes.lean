/-
# Theory.Passes — a queue worked through in passes

A worker lists the items waiting, oldest first, and takes them in turn.

* `attempts` is one such pass: it stops at the first item that fails.  If an item's
  success does not depend on the state, the items done are the `takeWhile` of it
  (`attempts_done`), so one bad item keeps out everything behind it
  (`mem_takeWhile_iff`); what an item did is still there at the end if the others
  leave it alone (`attempts_effect`).
* `pass` is what a pass over at most `limit` items leaves waiting, when an item is
  done, kept for the next pass, or stops the pass.  Passing again and again ends in
  `residue` (`pass_residue`): behind `limit` kept items, or one that stops, an item
  waits for ever (`cleared_iff`).
-/
import Mathlib.Data.List.Sort
import Mathlib.Logic.Function.Iterate

namespace CsdPool.Theory

set_option autoImplicit false

universe u v w

/-! ## One pass, up to the first failure -/

section Attempts

variable {σ : Type u} {α : Type v} {κ : Type w}

/-- The state a step left behind, failed or not. -/
def landed : Except σ σ → σ
  | .ok s => s
  | .error s => s

/-- The state at the end of the pass, and the items it did. -/
def attempts (step : σ → α → Except σ σ) : σ → List α → σ × List α
  | s, [] => (s, [])
  | s, x :: rest =>
      match step s x with
      | .error t => (t, [])
      | .ok t => ((attempts step t rest).1, x :: (attempts step t rest).2)

variable {step : σ → α → Except σ σ}

theorem attempts_ok {s t : σ} {x : α} (stepped : step s x = .ok t) (rest : List α) :
    attempts step s (x :: rest) = ((attempts step t rest).1, x :: (attempts step t rest).2) := by
  rw [attempts, stepped]

theorem attempts_error {s t : σ} {x : α} (stepped : step s x = .error t) (rest : List α) :
    attempts step s (x :: rest) = (t, []) := by
  rw [attempts, stepped]

theorem attempts_done {ok : α → Bool}
    (decided : ∀ s x, (∃ t, step s x = .ok t) ↔ ok x = true) (s : σ) (xs : List α) :
    (attempts step s xs).2 = xs.takeWhile ok := by
  induction xs generalizing s with
  | nil => rfl
  | cons x rest ih =>
      cases stepped : step s x with
      | ok t =>
          have good : ok x = true := (decided s x).1 ⟨t, stepped⟩
          rw [attempts_ok stepped, List.takeWhile_cons, if_pos good, ih t]
      | error t =>
          have bad : ¬ok x = true := by
            intro good
            obtain ⟨t', contrary⟩ := (decided s x).2 good
            rw [stepped] at contrary
            cases contrary
          rw [attempts_error stepped, List.takeWhile_cons, if_neg bad]

/-- What every item keeps, done or failed, the pass keeps. -/
theorem attempts_invariant {I : σ → Prop} {xs : List α}
    (keep : ∀ x ∈ xs, ∀ s, I s → I (landed (step s x))) {s : σ} (holds : I s) :
    I (attempts step s xs).1 := by
  induction xs generalizing s with
  | nil => exact holds
  | cons x rest ih =>
      have after := keep x (List.mem_cons_self ..) s holds
      cases stepped : step s x with
      | ok t =>
          rw [stepped] at after
          rw [attempts_ok stepped]
          exact ih (fun y member => keep y (List.mem_cons_of_mem _ member)) after
      | error t =>
          rw [stepped] at after
          rw [attempts_error stepped]
          exact after

/-- An item that finds its own state untouched leaves its effect, and no other item
touches either. -/
theorem attempts_effect (Before After : α → σ → Prop) (key : α → κ)
    (turn : ∀ x s t, Before x s → step s x = .ok t → After x t)
    (waits : ∀ x y s, key x ≠ key y → Before x s → Before x (landed (step s y)))
    (stays : ∀ x y s, key x ≠ key y → After x s → After x (landed (step s y)))
    {xs : List α} (distinct : (xs.map key).Nodup) {s : σ} (start : ∀ x ∈ xs, Before x s) :
    ∀ x ∈ (attempts step s xs).2, After x (attempts step s xs).1 := by
  induction xs generalizing s with
  | nil => intro x member; cases member
  | cons x rest ih =>
      rw [List.map_cons, List.nodup_cons] at distinct
      have apart : ∀ y ∈ rest, key y ≠ key x := fun y member same =>
        distinct.1 (same ▸ List.mem_map_of_mem member)
      cases stepped : step s x with
      | error t => rw [attempts_error stepped]; intro y member; cases member
      | ok t =>
          rw [attempts_ok stepped]
          intro y member
          rcases List.mem_cons.1 member with rfl | inRest
          · have now := turn y s t (start y (List.mem_cons_self ..)) stepped
            exact attempts_invariant (I := After y)
              (fun z inRest u holds => stays y z u (apart z inRest).symm holds) now
          · refine ih distinct.2 (fun z member => ?_) y inRest
            have kept := waits z x s (apart z member) (start z (List.mem_cons_of_mem _ member))
            rwa [stepped] at kept

theorem mem_takeWhile_iff {ok : α → Bool} {xs : List α} {x : α} :
    x ∈ xs.takeWhile ok ↔
      ∃ before after, xs = before ++ x :: after ∧ (∀ y ∈ before, ok y = true) ∧ ok x = true := by
  constructor
  · intro member
    obtain ⟨before, between, split⟩ := List.append_of_mem member
    have whole := List.takeWhile_append_dropWhile (p := ok) (l := xs)
    refine ⟨before, between ++ xs.dropWhile ok, ?_, fun y inBefore => ?_, ?_⟩
    · rw [← List.cons_append, ← List.append_assoc, ← split, whole]
    · exact List.all_eq_true.1 List.all_takeWhile y (split ▸ List.mem_append_left _ inBefore)
    · exact List.all_eq_true.1 List.all_takeWhile x member
  · rintro ⟨before, after, rfl, good, here⟩
    rw [List.takeWhile_append_of_pos good, List.takeWhile_cons, if_pos here]
    exact List.mem_append_right _ (List.mem_cons_self ..)

end Attempts

/-! ## Pass after pass -/

/-- What becomes of an item when its turn comes. -/
inductive Fate
  | done
  | kept
  | stops
  deriving DecidableEq, Repr

section Passes

variable {α : Type u} (fate : α → Fate)

/-- What a pass over the first `limit` items leaves waiting. -/
def pass : Nat → List α → List α
  | 0, xs => xs
  | _ + 1, [] => []
  | limit + 1, x :: rest =>
      match fate x with
      | .done => pass limit rest
      | .kept => x :: pass limit rest
      | .stops => x :: rest

/-- What no number of passes will clear. -/
def residue : Nat → List α → List α
  | 0, xs => xs
  | _ + 1, [] => []
  | limit + 1, x :: rest =>
      match fate x with
      | .done => residue (limit + 1) rest
      | .kept => x :: residue limit rest
      | .stops => x :: rest

variable {fate}

@[simp] theorem pass_nil (limit : Nat) : pass fate limit [] = [] := by
  cases limit <;> rfl

@[simp] theorem residue_nil (limit : Nat) : residue fate limit [] = [] := by
  cases limit <;> rfl

theorem pass_sublist (fate : α → Fate) (limit : Nat) (xs : List α) :
    (pass fate limit xs).Sublist xs := by
  induction xs generalizing limit with
  | nil => simp
  | cons x rest ih =>
      cases limit with
      | zero => exact List.Sublist.refl _
      | succ limit =>
          rw [pass]
          cases fate x with
          | done => exact (ih limit).cons x
          | kept => exact (ih limit).cons_cons x
          | stops => exact List.Sublist.refl _

theorem residue_sublist (limit : Nat) (xs : List α) : (residue fate limit xs).Sublist xs := by
  induction xs generalizing limit with
  | nil => simp
  | cons x rest ih =>
      cases limit with
      | zero => exact List.Sublist.refl _
      | succ limit =>
          rw [residue]
          cases fate x with
          | done => exact (ih (limit + 1)).cons x
          | kept => exact (ih limit).cons_cons x
          | stops => exact List.Sublist.refl _

/-- A pass changes nothing about what will be left in the end. -/
theorem residue_pass {limit more : Nat} (le : limit ≤ more) (xs : List α) :
    residue fate more (pass fate limit xs) = residue fate more xs := by
  induction xs generalizing limit more with
  | nil => simp
  | cons x rest ih =>
      cases limit with
      | zero => rfl
      | succ limit =>
          obtain ⟨more, rfl⟩ := Nat.exists_eq_succ_of_ne_zero (by omega : more ≠ 0)
          rw [pass]
          cases here : fate x with
          | done =>
              rw [ih (by omega : limit ≤ more + 1)]
              simp [residue, here]
          | kept => simp [residue, here, ih (by omega : limit ≤ more)]
          | stops => simp

/-- A pass that clears nothing has nothing left to clear. -/
theorem residue_of_fixed {limit : Nat} {xs : List α} (fixed : pass fate limit xs = xs) :
    residue fate limit xs = xs := by
  induction xs generalizing limit with
  | nil => simp
  | cons x rest ih =>
      cases limit with
      | zero => rfl
      | succ limit =>
          rw [pass] at fixed
          rw [residue]
          cases here : fate x with
          | done =>
              rw [here] at fixed
              have shorter := (pass_sublist fate limit rest).length_le
              have longer : (pass fate limit rest).length = (x :: rest).length :=
                congrArg List.length fixed
              rw [List.length_cons] at longer
              omega
          | kept =>
              rw [here] at fixed
              simp only [List.cons.injEq, true_and] at fixed
              simp only [ih fixed]
          | stops => rfl

/-- **Where the passes end.** -/
theorem pass_residue (fate : α → Fate) (limit : Nat) (xs : List α) :
    ∃ n, (pass fate limit)^[n] xs = residue fate limit xs := by
  induction shorter : xs.length using Nat.strong_induction_on generalizing xs with
  | _ length ih =>
      by_cases fixed : pass fate limit xs = xs
      · exact ⟨0, (residue_of_fixed fixed).symm⟩
      · have less : (pass fate limit xs).length < length := by
          rw [← shorter]
          have sublist := pass_sublist fate limit xs
          exact lt_of_le_of_ne sublist.length_le fun same => fixed (sublist.eq_of_length same)
        obtain ⟨n, ends⟩ := ih _ less _ rfl
        exact ⟨n + 1, by rw [Function.iterate_succ_apply, ends, residue_pass (le_refl limit)]⟩

theorem residue_iterate (limit n : Nat) (xs : List α) :
    residue fate limit ((pass fate limit)^[n] xs) = residue fate limit xs := by
  induction n generalizing xs with
  | zero => rfl
  | succ n ih => rw [Function.iterate_succ_apply, ih, residue_pass (le_refl limit)]

/-- Splitting a list at an item that is not its head. -/
theorem exists_split_cons {x y : α} {rest : List α} (different : x ≠ y) (P : List α → Prop) :
    (∃ before after, y :: rest = before ++ x :: after ∧ P before) ↔
      ∃ before after, rest = before ++ x :: after ∧ P (y :: before) := by
  constructor
  · rintro ⟨before, after, split, holds⟩
    cases before with
    | nil => exact absurd (List.cons.inj split).1.symm different
    | cons z before =>
        obtain ⟨rfl, tail⟩ := List.cons.inj split
        exact ⟨before, after, tail, holds⟩
  · rintro ⟨before, after, rfl, holds⟩
    exact ⟨y :: before, after, rfl, holds⟩

/-- The residue is what is behind `limit` kept items or one that stops, and what is kept. -/
theorem not_mem_residue_iff {limit : Nat} {xs : List α} (distinct : xs.Nodup) {x : α}
    (member : x ∈ xs) :
    x ∉ residue fate limit xs ↔ fate x = .done ∧
      ∃ before after, xs = before ++ x :: after ∧ (∀ y ∈ before, fate y ≠ .stops) ∧
        (before.filter fun y => fate y = .kept).length < limit := by
  induction xs generalizing limit with
  | nil => cases member
  | cons y rest ih =>
      rw [List.nodup_cons] at distinct
      cases limit with
      | zero => simp [residue, member]
      | succ limit =>
          rw [residue]
          by_cases same : x = y
          · subst same
            cases here : fate x with
            | done =>
                have gone : x ∉ residue fate (limit + 1) rest := fun inside =>
                  distinct.1 ((residue_sublist (limit + 1) rest).subset inside)
                simp only [gone, not_false_eq_true, true_and, true_iff]
                exact ⟨[], rest, rfl, by simp, by simp⟩
            | kept => simp
            | stops => simp
          · have inRest : x ∈ rest := (List.mem_cons.1 member).resolve_left same
            rw [exists_split_cons same fun before => (∀ z ∈ before, fate z ≠ .stops) ∧
              (before.filter fun z => fate z = .kept).length < limit + 1]
            simp only [List.forall_mem_cons]
            cases here : fate y with
            | done => simp [ih distinct.2 inRest, here]
            | kept => simp [same, ih distinct.2 inRest, here]
            | stops => simp [inRest]

/-- **When an item is cleared**: some pass clears it exactly if it is no residue. -/
theorem cleared_iff {limit : Nat} {xs : List α} {x : α} :
    (∃ n, x ∉ (pass fate limit)^[n] xs) ↔ x ∉ residue fate limit xs := by
  constructor
  · rintro ⟨n, gone⟩ inside
    rw [← residue_iterate limit n] at inside
    exact gone ((residue_sublist limit _).subset inside)
  · intro gone
    obtain ⟨n, ends⟩ := pass_residue fate limit xs
    exact ⟨n, ends ▸ gone⟩

end Passes

/-! ## A sorted listing of fewer rows -/

section Listing

variable {α : Type u} {κ : Type v} {r : α → α → Prop} [DecidableRel r]

/-- A listing of rows with distinct keys lists no key twice. -/
theorem nodup_listing {key : α → κ} {rows : List α} (unique : (rows.map key).Nodup)
    (p : α → Bool) : (((rows.filter p).insertionSort r).map key).Nodup := by
  have chosen : ((rows.filter p).map key).Nodup := unique.sublist (List.filter_sublist.map key)
  exact ((List.perm_insertionSort r _).map key).nodup_iff.2 chosen

theorem orderedInsert_of_forall {a : α} {xs : List α} (least : ∀ b ∈ xs, r a b) :
    xs.orderedInsert r a = a :: xs := by
  cases xs with
  | nil => rfl
  | cons b rest => exact List.orderedInsert_cons_of_le r rest (least b (List.mem_cons_self ..))

variable [IsTrans α r]

theorem filter_orderedInsert (p : α → Bool) (a : α) {xs : List α} (sorted : xs.Pairwise r) :
    (xs.orderedInsert r a).filter p =
      if p a = true then (xs.filter p).orderedInsert r a else xs.filter p := by
  induction xs with
  | nil => cases chosen : p a <;> simp [chosen]
  | cons b rest ih =>
      rw [List.pairwise_cons] at sorted
      by_cases le : r a b
      · rw [List.orderedInsert_cons_of_le r rest le, List.filter_cons]
        split
        · rw [orderedInsert_of_forall]
          intro c member
          rcases List.mem_cons.1 (List.mem_of_mem_filter member) with rfl | inRest
          · exact le
          · exact IsTrans.trans (r := r) a b c le (sorted.1 c inRest)
        · rfl
      · rw [List.orderedInsert_of_not_le r rest le, List.filter_cons, ih sorted.2, List.filter_cons]
        by_cases chosen : p b = true
        · simp only [if_pos chosen]
          split
          · rw [List.orderedInsert_of_not_le r _ le]
          · rfl
        · simp only [if_neg chosen]

/-- Sorting is stable, so leaving rows out before or after it is the same. -/
theorem filter_insertionSort [Std.Total r] (p : α → Bool) (xs : List α) :
    (xs.insertionSort r).filter p = (xs.filter p).insertionSort r := by
  induction xs with
  | nil => rfl
  | cons a rest ih =>
      rw [List.insertionSort_cons, filter_orderedInsert p a (List.pairwise_insertionSort r rest),
        ih, List.filter_cons]
      split <;> rfl

end Listing

end CsdPool.Theory
