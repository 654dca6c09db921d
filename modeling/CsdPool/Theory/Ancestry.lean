/-
# Theory.Ancestry — chains of parents in an index with heights

An index knows nodes by key; a node names its parent's key and stands one above it, or names the
root and stands at the bottom.  The `OnChain` keys of a tip are the ones its parents lead through.
No two of them have one height (`onChain_unique`), and of two of them the lower is on the chain of
the higher (`OnChain.to_lower`).  An index that only grows keeps what is on a chain there
(`Grows.onChain`).
-/
import Mathlib.Tactic.Common

namespace CsdPool.Theory.Ancestry

set_option autoImplicit false

universe u v

/-- Nodes under keys, each with the key of its parent and its height. -/
structure Index (κ : Type u) (ν : Type v) where
  lookup : κ → Option ν
  parent : ν → κ
  height : ν → Nat
  root : κ
  root_unknown : lookup root = none
  grounded : ∀ {k v}, lookup k = some v → parent v = root → height v = 0
  linked : ∀ {k v}, lookup k = some v → parent v ≠ root →
    ∃ p, lookup (parent v) = some p ∧ height v = height p + 1

namespace Index

variable {κ : Type u} {ν : Type v} (index : Index κ ν)

/-- The known keys that the parents of a tip lead through, the tip first. -/
inductive OnChain : κ → κ → Prop
  | here {k : κ} {v : ν} (known : index.lookup k = some v) : OnChain k k
  | up {k k' : κ} {v : ν} (known : index.lookup k = some v) (rest : OnChain (index.parent v) k') :
      OnChain k k'

variable {index} {tip k k' : κ} {v v' t : ν}

theorem OnChain.known (chain : index.OnChain tip k) : ∃ v, index.lookup k = some v := by
  induction chain with
  | here known => exact ⟨_, known⟩
  | up _ _ ih => exact ih

theorem OnChain.tip_known (chain : index.OnChain tip k) : ∃ t, index.lookup tip = some t := by
  cases chain with
  | here known => exact ⟨_, known⟩
  | up known _ => exact ⟨_, known⟩

theorem OnChain.trans (chain : index.OnChain tip k) (further : index.OnChain k k') :
    index.OnChain tip k' := by
  induction chain with
  | here _ => exact further
  | up known _ ih => exact .up known (ih further)

/-- The root is not a node, so a chain that goes on has a parent to go to. -/
theorem OnChain.parent_known (known : index.lookup tip = some t)
    (rest : index.OnChain (index.parent t) k) :
    ∃ p, index.lookup (index.parent t) = some p ∧ index.height t = index.height p + 1 := by
  apply index.linked known
  intro bottom
  obtain ⟨p, there⟩ := rest.tip_known
  rw [bottom, index.root_unknown] at there
  cases there

/-- A chain never goes up, and stays level only where it starts. -/
theorem OnChain.height_le (chain : index.OnChain tip k) (top : index.lookup tip = some t)
    (node : index.lookup k = some v) :
    index.height v ≤ index.height t ∧ (index.height v = index.height t → tip = k) := by
  induction chain generalizing t with
  | here known =>
      rw [known] at top node
      cases top
      cases node
      exact ⟨Nat.le_refl _, fun _ => rfl⟩
  | up known rest ih =>
      rw [known] at top
      cases top
      obtain ⟨p, there, above⟩ := rest.parent_known known
      obtain ⟨le, -⟩ := ih there node
      exact ⟨by omega, fun level => by omega⟩

/-- **Of two keys on a chain the lower is on the chain of the higher.** -/
theorem OnChain.to_lower (chain : index.OnChain tip k) (chain' : index.OnChain tip k')
    (node : index.lookup k = some v) (node' : index.lookup k' = some v')
    (lower : index.height v ≤ index.height v') : index.OnChain k' k := by
  induction chain' with
  | here _ => exact chain
  | @up tip k' t known rest ih =>
      cases chain with
      | here _ =>
          rw [known] at node
          cases node
          obtain ⟨p, there, above⟩ := rest.parent_known known
          have le := (rest.height_le there node').1
          omega
      | up known' further =>
          rw [known] at known'
          cases known'
          exact ih further node'

/-- One key at every height, at most. -/
theorem onChain_unique (chain : index.OnChain tip k) (chain' : index.OnChain tip k')
    (node : index.lookup k = some v) (node' : index.lookup k' = some v')
    (level : index.height v = index.height v') : k' = k :=
  ((chain.to_lower chain' node node' (Nat.le_of_eq level)).height_le node' node).2 level

/-! ## Growing -/

/-- Every node that was known is known as it was. -/
structure Grows (old new : Index κ ν) : Prop where
  parent : old.parent = new.parent
  height : old.height = new.height
  keeps : ∀ {k v}, old.lookup k = some v → new.lookup k = some v

variable {old new : Index κ ν}

theorem Grows.onChain (grows : Grows old new) (chain : old.OnChain tip k) :
    new.OnChain tip k := by
  induction chain with
  | here known => exact .here (grows.keeps known)
  | up known _ ih => exact .up (grows.keeps known) (grows.parent ▸ ih)

end Index

end CsdPool.Theory.Ancestry
