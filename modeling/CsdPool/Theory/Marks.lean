/-
# Theory.Marks — marks that are created exclusively

A mark stands under a key and is created by one owner; creating fails where a mark stands.  A
mark is durable once its owner has synced it; what is not durable may be lost when the store
goes down.  `Owns` is what a creation gives, `Kept` what a sync gives: no later operation of
anyone takes a kept mark away, and a key has one owner (`owns_unique`).
-/
import Mathlib.Logic.Function.Basic

namespace CsdPool.Theory

set_option autoImplicit false

universe u

/-- Who created a mark, and whether it has been synced. -/
structure Mark where
  owner : Nat
  durable : Bool
  deriving DecidableEq, Repr

/-- The mark under each key. -/
abbrev Marks (κ : Type u) := κ → Option Mark

namespace Marks

variable {κ : Type u} [DecidableEq κ]

/-- Create where no mark stands. -/
def create (marks : Marks κ) (k : κ) (owner : Nat) : Marks κ :=
  Function.update marks k (some ⟨owner, false⟩)

/-- What stands under the key becomes durable; where nothing stands, nothing does. -/
def sync (marks : Marks κ) (k : κ) : Marks κ :=
  Function.update marks k ((marks k).map fun mark => { mark with durable := true })

/-- The store goes down; of what was not synced, `lost` is gone. -/
def lose (marks : Marks κ) (lost : κ → Bool) : Marks κ :=
  fun k => (marks k).filter fun mark => mark.durable || !lost k

/-- The owner's mark stands, synced or not. -/
def Owns (marks : Marks κ) (k : κ) (owner : Nat) : Prop :=
  ∃ durable, marks k = some ⟨owner, durable⟩

/-- The owner's mark stands and survives when the store goes down. -/
def Kept (marks : Marks κ) (k : κ) (owner : Nat) : Prop := marks k = some ⟨owner, true⟩

variable {marks : Marks κ} {k k' : κ} {owner owner' : Nat}

omit [DecidableEq κ] in
theorem Kept.owns (kept : marks.Kept k owner) : marks.Owns k owner := ⟨true, kept⟩

omit [DecidableEq κ] in
/-- A key has one owner. -/
theorem owns_unique (owns : marks.Owns k owner) (owns' : marks.Owns k owner') :
    owner = owner' := by
  obtain ⟨durable, mark⟩ := owns
  obtain ⟨durable', mark'⟩ := owns'
  rw [mark] at mark'
  cases mark'
  rfl

theorem owns_create (marks : Marks κ) (k : κ) (owner : Nat) : (marks.create k owner).Owns k owner :=
  ⟨false, Function.update_self _ _ _⟩

/-- A creation elsewhere, or one that would have failed here. -/
theorem create_of_some {mark : Mark} (free : marks k' = none) (stands : marks k = some mark) :
    marks.create k' owner k = some mark := by
  have other : k ≠ k' := by
    rintro rfl
    rw [free] at stands
    cases stands
  exact (Function.update_of_ne other _ _).trans stands

/-- A creation takes no mark away, since it goes through only where none stands. -/
theorem Owns.create (owns : marks.Owns k owner) (free : marks k' = none) :
    (marks.create k' owner').Owns k owner := by
  obtain ⟨durable, stands⟩ := owns
  exact ⟨durable, create_of_some free stands⟩

theorem Kept.create (kept : marks.Kept k owner) (free : marks k' = none) :
    (marks.create k' owner').Kept k owner :=
  create_of_some free kept

/-- A sync gives the owner a mark that is kept. -/
theorem kept_sync (owns : marks.Owns k owner) : (marks.sync k).Kept k owner := by
  obtain ⟨durable, stands⟩ := owns
  unfold Kept sync
  rw [Function.update_self, stands]
  rfl

theorem Owns.sync (owns : marks.Owns k owner) : (marks.sync k').Owns k owner := by
  by_cases same : k = k'
  · subst same
    exact (kept_sync owns).owns
  · obtain ⟨durable, stands⟩ := owns
    exact ⟨durable, (Function.update_of_ne same _ _).trans stands⟩

theorem Kept.sync (kept : marks.Kept k owner) : (marks.sync k').Kept k owner := by
  by_cases same : k = k'
  · subst same
    exact kept_sync kept.owns
  · exact (Function.update_of_ne same _ _).trans kept

/-- Whatever stands stays, with its owner and, once durable, durable. -/
structure Grows (marks marks' : Marks κ) : Prop where
  owns : ∀ k owner, marks.Owns k owner → marks'.Owns k owner
  kept : ∀ k owner, marks.Kept k owner → marks'.Kept k owner

omit [DecidableEq κ] in
theorem Grows.refl (marks : Marks κ) : marks.Grows marks := ⟨fun _ _ => id, fun _ _ => id⟩

theorem grows_create (free : marks k' = none) (owner' : Nat) :
    marks.Grows (marks.create k' owner') :=
  ⟨fun _ _ owns => owns.create free, fun _ _ kept => kept.create free⟩

theorem grows_sync (marks : Marks κ) (k' : κ) : marks.Grows (marks.sync k') :=
  ⟨fun _ _ owns => owns.sync, fun _ _ kept => kept.sync⟩

omit [DecidableEq κ] in
theorem Kept.lose (kept : marks.Kept k owner) (lost : κ → Bool) :
    (marks.lose lost).Kept k owner := by
  unfold Kept Marks.lose
  rw [show marks k = some ⟨owner, true⟩ from kept]
  rfl

end Marks

end CsdPool.Theory
