/-
# Theory.MerkleBranch — a root over a list of leaves and the branch of its first leaf

A layer is a first node and the nodes after it.  `parents` pairs the nodes of a layer from the
left; a last node without a neighbour is paired with itself.  Climbing from layer to layer ends in
the `root`, and what stands next to the first node of each layer on the way is the `branch`.

The branch of the first leaf does not mention that leaf: it is a function of the leaves after it.
So whoever puts another leaf in the first place folds the same branch and gets the root of the
list with that leaf (`foldl_branch`).
-/
import Mathlib.Data.List.Basic

namespace CsdPool.Theory.Merkle

set_option autoImplicit false

universe u

variable {α : Type u} (node : α → α → α)

/-- The layer above. -/
def parents : List α → List α
  | left :: right :: rest => node left right :: parents rest
  | [last] => [node last last]
  | [] => []

theorem length_parents : ∀ layer : List α, (parents node layer).length = (layer.length + 1) / 2
  | left :: right :: rest => by
      simp only [parents, List.length_cons, length_parents rest]
      omega
  | [last] => by simp [parents]
  | [] => by simp [parents]

theorem length_parents_lt (next : α) (rest : List α) :
    (parents node rest).length < (next :: rest).length := by
  rw [length_parents, List.length_cons]
  omega

/-- The root over a first leaf and the leaves after it. -/
def root (first : α) : List α → α
  | [] => first
  | next :: rest => root (node first next) (parents node rest)
termination_by others => others.length
decreasing_by exact length_parents_lt node next rest

/-- The siblings of the first node, from the leaves up. -/
def branch : List α → List α
  | [] => []
  | next :: rest => next :: branch (parents node rest)
termination_by others => others.length
decreasing_by exact length_parents_lt node next rest

/-- **Folding the branch of the first leaf from any leaf gives the root with that leaf first.** -/
theorem foldl_branch (first : α) (others : List α) :
    (branch node others).foldl node first = root node first others := by
  induction first, others using root.induct node with
  | case1 first => simp only [branch, root, List.foldl_nil]
  | case2 first next rest ih => simp only [branch, root, List.foldl_cons, ih]

section Climbing

/-- Climbing a list of leaves layer by layer, at most `fuel` times. -/
def climb : Nat → List α → List α
  | 0, layer => layer
  | fuel + 1, layer => if 1 < layer.length then climb fuel (parents node layer) else layer

/-- Climbing that notes what stands next to the first node of each layer. -/
def siblings : Nat → List α → List α
  | fuel + 1, first :: next :: rest => next :: siblings fuel (parents node (first :: next :: rest))
  | _, _ => []

variable {node}

/-- A list is climbed to its root in as many steps as it has leaves after the first. -/
theorem climb_eq {fuel : Nat} {first : α} {others : List α} (enough : others.length ≤ fuel) :
    climb node fuel (first :: others) = [root node first others] := by
  induction fuel generalizing first others with
  | zero =>
      cases others with
      | nil => simp only [climb, root]
      | cons next rest => exact absurd enough (by simp)
  | succ fuel ih =>
      cases others with
      | nil => simp [climb, root]
      | cons next rest =>
          have fits : (parents node rest).length ≤ fuel := by
            rw [length_parents]
            rw [List.length_cons] at enough
            omega
          rw [climb, if_pos (by simp), parents, ih fits, root]

theorem siblings_eq {fuel : Nat} {first : α} {others : List α} (enough : others.length ≤ fuel) :
    siblings node fuel (first :: others) = branch node others := by
  induction fuel generalizing first others with
  | zero =>
      cases others with
      | nil => simp only [siblings, branch]
      | cons next rest => exact absurd enough (by simp)
  | succ fuel ih =>
      cases others with
      | nil => simp [siblings, branch]
      | cons next rest =>
          have fits : (parents node rest).length ≤ fuel := by
            rw [length_parents]
            rw [List.length_cons] at enough
            omega
          rw [siblings, parents, ih fits, branch]

end Climbing

end CsdPool.Theory.Merkle
