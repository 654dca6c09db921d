/-
# Theory.Watch — a channel that keeps its latest value

One sender, any number of receivers.  The channel holds the last value sent and how many
were sent; a receiver holds the number it has seen.  A receiver learns that something was
sent since (`changed`), never how much: values sent in between are gone.

`Behind` is the side condition every run keeps (a receiver has seen no value that was not
sent yet); under it a send is always noticed (`changed_send`).
-/
import Mathlib.Logic.Basic

namespace CsdPool.Theory

set_option autoImplicit false

universe u

/-- The last value sent, and how many were sent after the first. -/
structure Watch (α : Type u) where
  value : α
  version : Nat

/-- The number of the value a receiver has seen last. -/
structure Receiver where
  seen : Nat
  deriving DecidableEq, Repr

variable {α : Type u}

namespace Watch

def channel (value : α) : Watch α := ⟨value, 0⟩

/-- The value before it is gone, whether it was seen or not. -/
def sendReplace (watch : Watch α) (value : α) : Watch α := ⟨value, watch.version + 1⟩

def subscribe (watch : Watch α) : Receiver := ⟨watch.version⟩

/-- The latest value, and the receiver that has seen it. -/
def borrowAndUpdate (watch : Watch α) : α × Receiver := (watch.value, ⟨watch.version⟩)

end Watch

namespace Receiver

/-- Something was sent since; how many values, the receiver does not learn. -/
def changed (receiver : Receiver) (watch : Watch α) : Bool :=
  decide (receiver.seen ≠ watch.version)

/-- A receiver has seen no value that is yet to come. -/
def Behind (receiver : Receiver) (watch : Watch α) : Prop := receiver.seen ≤ watch.version

theorem behind_subscribe (watch : Watch α) : watch.subscribe.Behind watch :=
  Nat.le_refl _

theorem behind_borrowed (watch : Watch α) : watch.borrowAndUpdate.2.Behind watch :=
  Nat.le_refl _

theorem Behind.send {receiver : Receiver} {watch : Watch α} (behind : receiver.Behind watch)
    (value : α) : receiver.Behind (watch.sendReplace value) :=
  Nat.le_succ_of_le behind

/-- **A send is always noticed.** -/
theorem changed_send {receiver : Receiver} {watch : Watch α} (behind : receiver.Behind watch)
    (value : α) : receiver.changed (watch.sendReplace value) = true := by
  unfold Behind at behind
  apply decide_eq_true
  show receiver.seen ≠ watch.version + 1
  omega

end Receiver

end CsdPool.Theory
