/-
# Theory.Grouping — sums over a list, group by group

A list is summed over the groups of a key.  Every element has one group among distinct keys, so
the sum over the groups is the sum over the list (`sum_by_key`).
-/
import Mathlib.Algebra.BigOperators.Group.List.Basic
import Mathlib.Algebra.GroupWithZero.Nat
import Mathlib.Data.List.Nodup

namespace CsdPool.Theory.Grouping

set_option autoImplicit false

universe u v w

variable {α : Type u} {κ : Type v} {M : Type w} [DecidableEq κ] [AddCommMonoid M]

/-- What one element adds to the sums of all groups. -/
theorem sum_ite_key {keys : List κ} (unique : keys.Nodup) (k : κ) (m : M) :
    (keys.map fun k' => if k = k' then m else 0).sum = if k ∈ keys then m else 0 := by
  split
  · rename_i member
    rw [List.sum_map_eq_nsmul_single k _ fun k' other _ => if_neg (Ne.symm other), if_pos rfl,
      List.count_eq_one_of_mem unique member, one_nsmul]
  · rename_i absent
    apply List.sum_eq_zero
    intro x member
    obtain ⟨k', inKeys, rfl⟩ := List.mem_map.1 member
    apply if_neg
    rintro rfl
    exact absent inKeys

/-- **The sum of a list is the sum of its groups.** -/
theorem sum_by_key {xs : List α} {keys : List κ} (unique : keys.Nodup) (key : α → κ) (f : α → M)
    (covered : ∀ x ∈ xs, key x ∈ keys ∨ f x = 0) :
    (keys.map fun k => ((xs.filter fun x => key x = k).map f).sum).sum = (xs.map f).sum := by
  induction xs with
  | nil => simp
  | cons x rest ih =>
      have each : ∀ k, (((x :: rest).filter fun x => key x = k).map f).sum =
          (if key x = k then f x else 0) + ((rest.filter fun x => key x = k).map f).sum := by
        intro k
        by_cases here : key x = k
        · simp [here]
        · simp [here]
      simp only [each]
      rw [List.sum_map_add, ih fun y member => covered y (List.mem_cons_of_mem _ member),
        sum_ite_key unique, List.map_cons, List.sum_cons]
      congr 1
      rcases covered x (List.mem_cons_self ..) with member | zero
      · exact if_pos member
      · rw [zero, ite_self]

theorem sum_ite_countP {α : Type u} (p : α → Bool) (xs : List α) :
    (xs.map fun x => if p x then 1 else 0).sum = xs.countP p := by
  induction xs with
  | nil => rfl
  | cons x rest ih =>
      rw [List.map_cons, List.sum_cons, ih, List.countP_cons, Nat.add_comm]

/-- What is counted is counted in its group. -/
theorem countP_by_key {xs : List α} {keys : List κ} (unique : keys.Nodup) (key : α → κ)
    (p : α → Bool) (covered : ∀ x ∈ xs, p x = true → key x ∈ keys) :
    (keys.map fun k => (xs.filter fun x => key x = k).countP p).sum = xs.countP p := by
  have counted : ∀ x ∈ xs, key x ∈ keys ∨ (if p x then 1 else 0) = 0 := by
    intro x member
    by_cases yes : p x = true
    · exact .inl (covered x member yes)
    · exact .inr (if_neg yes)
  have grouped := sum_by_key unique key (fun x => if p x then 1 else 0) counted
  simpa only [sum_ite_countP] using grouped

end CsdPool.Theory.Grouping
