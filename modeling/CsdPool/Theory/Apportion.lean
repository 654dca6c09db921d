/-
# Theory.Apportion — floors of proportional shares, the rest to the last

A total is divided over rows that carry weights.  Every row but the last gets
its proportional share rounded down, the last one what is then left.  The two
facts behind every bound are that the floors together never pass the total
(`floors_sum_le`) and that they miss it by less than one unit a row
(`lt_floors_sum`); with them the amounts add up exactly (`apportion_sum`), no
row gets less than its floor, and what the last one gets above its floor is
smaller than the number of rows (`apportion_bounds`).
-/
import Mathlib.Algebra.BigOperators.Group.List.Basic
import Mathlib.Algebra.Order.BigOperators.Group.List
import Mathlib.Tactic.Ring

namespace CsdPool.Theory

set_option autoImplicit false

universe u

/-- The share of one weight, rounded down. -/
def floorShare (total sum weight : Nat) : Nat := total * weight / sum

theorem floorShare_mul_le (total sum weight : Nat) :
    floorShare total sum weight * sum ≤ total * weight :=
  Nat.div_mul_le_self _ _

theorem lt_floorShare_mul {sum : Nat} (positive : 0 < sum) (total weight : Nat) :
    total * weight < (floorShare total sum weight + 1) * sum := by
  have division := Nat.div_add_mod (total * weight) sum
  have remainder := Nat.mod_lt (total * weight) positive
  have expand : (floorShare total sum weight + 1) * sum =
      sum * (total * weight / sum) + sum := by
    show (total * weight / sum + 1) * sum = _
    ring
  omega

section Floors

variable {ρ : Type u} (weight : ρ → Nat)

/-- The floors never pass the total. -/
theorem floors_sum_le (total : Nat) {sum : Nat} (rows : List ρ)
    (covers : (rows.map weight).sum ≤ sum) :
    (rows.map fun row => floorShare total sum (weight row)).sum ≤ total := by
  rcases Nat.eq_zero_or_pos sum with rfl | positive
  · simp [floorShare]
  have scaled : (rows.map fun row => floorShare total sum (weight row)).sum * sum ≤
      total * (rows.map weight).sum := by
    clear covers
    induction rows with
    | nil => simp
    | cons row rest ih =>
        have head := floorShare_mul_le total sum (weight row)
        simp only [List.map_cons, List.sum_cons, Nat.add_mul, Nat.mul_add]
        omega
  have bounded : total * (rows.map weight).sum ≤ total * sum := Nat.mul_le_mul_left _ covers
  exact Nat.le_of_mul_le_mul_right (le_trans scaled bounded) positive

/-- They miss it by less than one unit a row. -/
theorem lt_floors_sum (total : Nat) {sum : Nat} (positive : 0 < sum) (rows : List ρ)
    (exact : (rows.map weight).sum = sum) :
    total < (rows.map fun row => floorShare total sum (weight row)).sum + rows.length := by
  have scaled : ∀ rows : List ρ, rows ≠ [] → total * (rows.map weight).sum <
      ((rows.map fun row => floorShare total sum (weight row)).sum + rows.length) * sum := by
    intro rows nonempty
    induction rows with
    | nil => exact absurd rfl nonempty
    | cons row rest ih =>
        have head := lt_floorShare_mul positive total (weight row)
        by_cases last : rest = []
        · subst last
          simpa using head
        · have tail := ih last
          simp only [List.map_cons, List.sum_cons, List.length_cons, Nat.add_mul, Nat.mul_add]
            at head tail ⊢
          omega
  have nonempty : rows ≠ [] := by
    rintro rfl
    simp at exact
    omega
  have bound := scaled rows nonempty
  rw [exact] at bound
  exact Nat.lt_of_mul_lt_mul_right bound

/-- What is left for the last row, between its floor and one unit a row more. -/
theorem rest_bounds (total : Nat) (init : List ρ) (last : ρ)
    (positive : 0 < ((init ++ [last]).map weight).sum) :
    let share := fun row => floorShare total ((init ++ [last]).map weight).sum (weight row)
    (init.map share).sum + share last ≤ total ∧
      total < (init.map share).sum + share last + (init.length + 1) := by
  have below := floors_sum_le weight total (init ++ [last]) (le_refl _)
  have above := lt_floors_sum weight total positive (init ++ [last]) rfl
  simp only [List.map_append, List.sum_append, List.map_singleton, List.sum_singleton,
    List.length_append, List.length_singleton] at below above ⊢
  omega

end Floors

section Apportion

variable {ρ : Type u} (weight : ρ → Nat)

/-- Every row with its amount. -/
def apportion (total : Nat) (rows : List ρ) : List (ρ × Nat) :=
  let share := fun row => floorShare total (rows.map weight).sum (weight row)
  (rows.dropLast.map fun row => (row, share row)) ++
    rows.getLast?.toList.map fun row => (row, total - (rows.dropLast.map share).sum)

theorem apportion_append (total : Nat) (init : List ρ) (last : ρ) :
    apportion weight total (init ++ [last]) =
      (init.map fun row =>
        (row, floorShare total ((init ++ [last]).map weight).sum (weight row))) ++
      [(last, total - (init.map fun row =>
        floorShare total ((init ++ [last]).map weight).sum (weight row)).sum)] := by
  simp only [apportion, List.dropLast_concat, List.getLast?_concat, Option.toList_some,
    List.map_singleton]

/-- Nobody is left out and nobody comes in twice. -/
@[simp] theorem apportion_rows (total : Nat) (rows : List ρ) :
    (apportion weight total rows).map Prod.fst = rows := by
  rcases rows.eq_nil_or_concat' with rfl | ⟨init, last, rfl⟩
  · rfl
  · simp [apportion_append, Function.comp_def]

/-- The amounts add up to the total. -/
theorem apportion_sum (total : Nat) {rows : List ρ} (nonempty : rows ≠ []) :
    ((apportion weight total rows).map Prod.snd).sum = total := by
  rcases rows.eq_nil_or_concat' with rfl | ⟨init, last, rfl⟩
  · exact absurd rfl nonempty
  · have covers : (init.map weight).sum ≤ ((init ++ [last]).map weight).sum := by simp
    have below := floors_sum_le weight total init covers
    simp only [apportion_append, List.map_append, List.map_map, Function.comp_def,
      List.map_singleton, List.sum_append, List.sum_singleton] at below ⊢
    omega

/-- Only the last row gets anything but its floor. -/
theorem apportion_floor (total : Nat) {init : List ρ} {last : ρ} {row : ρ} {amount : Nat}
    (member : (row, amount) ∈ apportion weight total (init ++ [last])) :
    (row ∈ init ∧
      amount = floorShare total ((init ++ [last]).map weight).sum (weight row)) ∨
    (row = last ∧ amount = total - (init.map fun row =>
      floorShare total ((init ++ [last]).map weight).sum (weight row)).sum) := by
  rw [apportion_append] at member
  rcases List.mem_append.1 member with early | late
  · obtain ⟨x, inInit, same⟩ := List.mem_map.1 early
    cases same
    exact .inl ⟨inInit, rfl⟩
  · cases List.mem_singleton.1 late
    exact .inr ⟨rfl, rfl⟩

/-- Every amount is at least the floor and less than one unit a row above it. -/
theorem apportion_bounds (total : Nat) {rows : List ρ} (positive : 0 < (rows.map weight).sum)
    {row : ρ} {amount : Nat} (member : (row, amount) ∈ apportion weight total rows) :
    floorShare total (rows.map weight).sum (weight row) ≤ amount ∧
      amount < floorShare total (rows.map weight).sum (weight row) + rows.length := by
  rcases rows.eq_nil_or_concat' with rfl | ⟨init, last, rfl⟩
  · simp at positive
  · have rest := rest_bounds weight total init last positive
    dsimp only at rest
    rcases apportion_floor weight total member with ⟨-, rfl⟩ | ⟨rfl, rfl⟩
    · simp
    · simp only [List.length_append, List.length_singleton]
      omega

end Apportion

end CsdPool.Theory
