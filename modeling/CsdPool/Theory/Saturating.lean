/-
# Theory.Saturating — counters that stop at their bound

A saturating counter shows a number up to its bound (`cap`).  Saturating sums of what such
counters show are what the sum would show (`add_cap`), so an equation between true
numbers is also one between the counters, however far they have run.
-/
import Mathlib.Order.Basic

namespace CsdPool.Theory.Saturating

set_option autoImplicit false

variable (bound : Nat)

/-- What the counter shows of a number. -/
def cap (n : Nat) : Nat := min n bound

/-- `saturating_add`. -/
def add (a b : Nat) : Nat := min (a + b) bound

variable {bound}

theorem cap_zero : cap bound 0 = 0 := by simp [cap]

theorem cap_le {m n : Nat} (le : m ≤ n) : cap bound m ≤ cap bound n := by
  simp only [cap]
  omega

theorem add_cap (m n : Nat) : add bound (cap bound m) (cap bound n) = cap bound (m + n) := by
  simp only [add, cap]
  omega

/-- One more. -/
theorem add_one_cap (n : Nat) : add bound (cap bound n) 1 = cap bound (n + 1) := by
  simp only [add, cap]
  omega

/-- A sum with a number that is not a counter. -/
theorem add_cap_left (m n : Nat) : add bound (cap bound m) n = cap bound (m + n) := by
  simp only [add, cap]
  omega

end CsdPool.Theory.Saturating
