/-
# Theory.Precedence — which of two keys came first

`precedes l a b` says that `b` occurs in `l` after the first occurrence of `a`.
On a list that only grows at its end it never changes back, and a longer list
orders two keys anew only if the later one is among the new elements
(`precedes_append`).
-/
import Mathlib.Data.List.Induction
import Mathlib.Data.List.TakeWhile

namespace CsdPool.Theory

set_option autoImplicit false

universe u

variable {κ : Type u} [DecidableEq κ] {l l' : List κ} {a b x : κ}

def precedes (l : List κ) (a b : κ) : Bool := (l.dropWhile fun x => x ≠ a).contains b

theorem dropWhile_isEmpty_iff : (l.dropWhile fun x => x ≠ a).isEmpty = true ↔ a ∉ l := by
  rw [List.isEmpty_iff, List.dropWhile_eq_nil_iff]
  constructor
  · intro all member
    simpa using all a member
  · intro absent x member
    have : x ≠ a := fun same => absent (same ▸ member)
    simpa using this

theorem precedes_mem (before : precedes l a b = true) : a ∈ l ∧ b ∈ l := by
  unfold precedes at before
  rw [List.contains_iff_mem] at before
  refine ⟨?_, (List.dropWhile_sublist _).subset before⟩
  by_contra absent
  rw [List.isEmpty_iff.1 (dropWhile_isEmpty_iff.2 absent)] at before
  cases before

theorem precedes_append (before : precedes (l ++ l') a b = true) :
    precedes l a b = true ∨ (b ∈ l' ∧ a ∈ l ++ l') := by
  have there := (precedes_mem before).1
  unfold precedes at before ⊢
  rw [List.dropWhile_append] at before
  rw [List.contains_iff_mem] at before ⊢
  split at before
  · exact .inr ⟨(List.dropWhile_sublist _).subset before, there⟩
  · rcases List.mem_append.1 before with old | new
    · exact .inl old
    · exact .inr ⟨new, there⟩

theorem precedes_snoc (different : a ≠ b) :
    precedes (l ++ [x]) a b = (precedes l a b || (decide (a ∈ l) && decide (x = b))) := by
  unfold precedes
  rw [List.dropWhile_append]
  by_cases there : a ∈ l
  · have nonempty : ¬ (l.dropWhile fun x => x ≠ a).isEmpty = true :=
      fun empty => dropWhile_isEmpty_iff.1 empty there
    rw [if_neg nonempty, Bool.eq_iff_iff]
    simp only [List.contains_iff_mem, List.mem_append, List.mem_singleton, Bool.or_eq_true,
      Bool.and_eq_true, decide_eq_true_eq, there, true_and, @eq_comm _ b x]
  · have empty := dropWhile_isEmpty_iff.2 there
    rw [if_pos empty, List.isEmpty_iff.1 empty, Bool.eq_iff_iff]
    by_cases same : x = a
    · subst same
      simp [there, different, Ne.symm different]
    · simp [there, same]

/-- Two keys of a list are ordered one way or the other. -/
theorem precedes_total (different : a ≠ b) (first : a ∈ l) (second : b ∈ l) :
    precedes l a b = true ∨ precedes l b a = true := by
  induction l using List.reverseRecOn with
  | nil => cases first
  | append_singleton rest x ih =>
      rw [precedes_snoc different, precedes_snoc different.symm]
      rcases List.mem_append.1 first with inRest | last
      · rcases List.mem_append.1 second with inRest' | last'
        · rcases ih inRest inRest' with before | after
          · simp [before]
          · simp [after]
        · left
          simp [inRest, List.mem_singleton.1 last']
      · have same := List.mem_singleton.1 last
        rcases List.mem_append.1 second with inRest' | last'
        · right
          simp [inRest', same]
        · exact absurd (same.trans (List.mem_singleton.1 last').symm) different

end CsdPool.Theory
