/-
# Theory.Breaker — a circuit breaker and what it was told

A breaker counts the failures in a row with a saturating counter and opens for a while each time
the count stands at its threshold or above.  It forgets everything else it was told, and the
deadline of an opening that is over when somebody asks.  `Shows` says that nothing is lost by it:
at every later time the breaker is open exactly if the history says so (`Tripped`).

A history is newest first.
-/
import CsdPool.Theory.Saturating

namespace CsdPool.Theory

set_option autoImplicit false

/-- What a breaker is told of an attempt. -/
inductive Told
  | success
  | failure
  deriving DecidableEq, Repr

structure Breaker where
  failures : Nat
  openUntil : Option Nat
  deriving DecidableEq, Repr

namespace Breaker

def closed : Breaker := ⟨0, none⟩

def isOpen (b : Breaker) (now : Nat) : Bool := b.openUntil.any fun deadline => decide (now < deadline)

theorem isOpen_iff {b : Breaker} {now : Nat} :
    b.isOpen now = true ↔ ∃ deadline, b.openUntil = some deadline ∧ now < deadline := by
  unfold isOpen
  cases b.openUntil with
  | none => simp
  | some deadline => simp

/-- Somebody asks: an opening that is over is forgotten. -/
def asked (b : Breaker) (now : Nat) : Breaker :=
  if b.isOpen now then b else { b with openUntil := none }

section Rules

variable (bound threshold cooldown : Nat)

def told (b : Breaker) (now : Nat) : Told → Breaker
  | .success => closed
  | .failure =>
      let failures := Saturating.add bound b.failures 1
      { failures := failures
        openUntil := if threshold ≤ failures then some (now + cooldown) else b.openUntil }

/-! ## The history -/

/-- The failures since the last success. -/
def streak : List (Told × Nat) → Nat
  | [] => 0
  | (.success, _) :: _ => 0
  | (.failure, _) :: earlier => streak earlier + 1

/-- The last thing told was a failure, long enough a row stands behind it, and its cooldown is
not over. -/
def Tripped (now : Nat) : List (Told × Nat) → Prop
  | (.failure, at_) :: earlier => threshold ≤ streak earlier + 1 ∧ now < at_ + cooldown
  | _ => False

/-- What is left of the cooldown behind such a failure. -/
def remaining (now : Nat) : List (Told × Nat) → Nat
  | (.failure, at_) :: earlier =>
      if threshold ≤ streak earlier + 1 then at_ + cooldown - now else 0
  | _ => 0

instance (now : Nat) (history : List (Told × Nat)) :
    Decidable (Tripped threshold cooldown now history) :=
  match history with
  | [] => .isFalse id
  | (.success, _) :: _ => .isFalse id
  | (.failure, at_) :: earlier =>
      inferInstanceAs (Decidable (threshold ≤ streak earlier + 1 ∧ now < at_ + cooldown))

/-- What a breaker knows of a history, at `now` and ever after. -/
structure Shows (history : List (Told × Nat)) (now : Nat) (b : Breaker) : Prop where
  failures : b.failures = Saturating.cap bound (streak history)
  isOpen : ∀ later, now ≤ later →
    (b.isOpen later = true ↔ Tripped threshold cooldown later history)

variable {bound threshold cooldown} {history : List (Told × Nat)} {now : Nat} {b : Breaker}

theorem shows_closed (now : Nat) : Shows bound threshold cooldown [] now closed :=
  ⟨Saturating.cap_zero.symm, fun _ _ => ⟨nofun, False.elim⟩⟩

theorem Shows.later (shows_ : Shows bound threshold cooldown history now b) {now' : Nat}
    (le : now ≤ now') : Shows bound threshold cooldown history now' b :=
  ⟨shows_.failures, fun later passed => shows_.isOpen later (Nat.le_trans le passed)⟩

/-- An opening that is over never comes back. -/
theorem Shows.asked (shows_ : Shows bound threshold cooldown history now b) :
    Shows bound threshold cooldown history now (b.asked now) := by
  unfold Breaker.asked
  cases open_ : b.isOpen now with
  | true => exact shows_
  | false =>
      refine ⟨shows_.failures, fun later passed => ?_⟩
      rw [← shows_.isOpen later passed]
      refine ⟨nofun, fun opened => ?_⟩
      -- open later is open now
      obtain ⟨deadline, until_, before⟩ := isOpen_iff.1 opened
      have early : b.isOpen now = true :=
        isOpen_iff.2 ⟨deadline, until_, Nat.lt_of_le_of_lt passed before⟩
      rw [open_] at early
      cases early

/-- **One more thing told.** -/
theorem Shows.told (shows_ : Shows bound threshold cooldown history now b)
    (counts : threshold ≤ bound) (what : Told) :
    Shows bound threshold cooldown ((what, now) :: history) now
      (b.told bound threshold cooldown now what) := by
  cases what with
  | success => exact ⟨Saturating.cap_zero.symm, fun _ _ => ⟨nofun, False.elim⟩⟩
  | failure =>
      have failures : Saturating.add bound b.failures 1 =
          Saturating.cap bound (streak history + 1) := by
        rw [shows_.failures, Saturating.add_one_cap]
      refine ⟨failures, fun later passed => ?_⟩
      show Option.any _ (if threshold ≤ _ then _ else _) = true ↔
        threshold ≤ streak history + 1 ∧ later < now + cooldown
      rw [failures]
      have counted : threshold ≤ Saturating.cap bound (streak history + 1) ↔
          threshold ≤ streak history + 1 := by
        unfold Saturating.cap
        omega
      by_cases enough : threshold ≤ streak history + 1
      · rw [if_pos (counted.2 enough), Option.any_some, decide_eq_true_eq]
        exact ⟨fun early => ⟨enough, early⟩, And.right⟩
      · -- the row was too short before as well, so nothing was open
        rw [if_neg (mt counted.1 enough)]
        refine ⟨fun opened => ?_, fun tripped => absurd tripped.1 enough⟩
        have before := (shows_.isOpen later passed).1 opened
        match history, before with
        | (.failure, _) :: earlier, ⟨long, _⟩ =>
            exact absurd (Nat.le_succ_of_le long) enough

theorem remaining_pos : 0 < remaining threshold cooldown now history ↔
    Tripped threshold cooldown now history := by
  match history with
  | [] => exact ⟨nofun, False.elim⟩
  | (.success, _) :: _ => exact ⟨nofun, False.elim⟩
  | (.failure, at_) :: earlier =>
      show 0 < (if _ then _ else _) ↔ _ ∧ _
      by_cases enough : threshold ≤ streak earlier + 1
      · rw [if_pos enough]
        exact ⟨fun left => ⟨enough, by omega⟩, fun ⟨_, early⟩ => by omega⟩
      · rw [if_neg enough]
        exact ⟨nofun, fun tripped => absurd tripped.1 enough⟩

/-- A deadline that is not over is the one the history gives. -/
theorem Shows.time_left (shows_ : Shows bound threshold cooldown history now b) :
    b.openUntil.elim 0 (· - now) = remaining threshold cooldown now history := by
  by_cases tripped : Tripped threshold cooldown now history
  · obtain ⟨deadline, until_, before⟩ := isOpen_iff.1 ((shows_.isOpen now (Nat.le_refl _)).2 tripped)
    have same : ∀ later, now ≤ later → (later < deadline ↔ Tripped threshold cooldown later history) := by
      intro later passed
      rw [← shows_.isOpen later passed, isOpen_iff, until_]
      simp
    match history, tripped with
    | (.failure, at_) :: earlier, ⟨enough, early⟩ =>
        have last := mt (same (at_ + cooldown) (Nat.le_of_lt early)).1 fun ⟨_, late⟩ =>
          Nat.lt_irrefl _ late
        have first := mt (same deadline (Nat.le_of_lt before)).2 (Nat.lt_irrefl _)
        have reaches : ¬ deadline < at_ + cooldown := fun early' => first ⟨enough, early'⟩
        rw [until_]
        show deadline - now = if _ then _ else _
        rw [if_pos enough]
        omega
  · have none_ : remaining threshold cooldown now history = 0 :=
      Nat.eq_zero_of_not_pos (mt remaining_pos.1 tripped)
    rw [none_]
    cases until_ : b.openUntil with
    | none => rfl
    | some deadline =>
        have late : ¬ now < deadline := fun early =>
          tripped ((shows_.isOpen now (Nat.le_refl _)).1 (isOpen_iff.2 ⟨deadline, until_, early⟩))
        show deadline - now = 0
        omega

/-! ## While it is open -/

variable (cooldown now) in
/-- The breaker closes within a cooldown. -/
def Within (b : Breaker) : Prop :=
  ∀ deadline, b.openUntil = some deadline → deadline ≤ now + cooldown

theorem Within.later (within : Within cooldown now b) {now' : Nat} (le : now ≤ now') :
    Within cooldown now' b :=
  fun deadline held => Nat.le_trans (within deadline held) (Nat.add_le_add_right le _)

theorem Within.asked (within : Within cooldown now b) : Within cooldown now (b.asked now) := by
  unfold Breaker.asked
  split
  · exact within
  · rintro deadline ⟨⟩

theorem Within.told (within : Within cooldown now b) (what : Told) :
    Within cooldown now (b.told bound threshold cooldown now what) := by
  cases what with
  | success => rintro deadline ⟨⟩
  | failure =>
      intro deadline held
      unfold Breaker.told at held
      dsimp only at held
      split at held
      · cases held
        exact Nat.le_refl _
      · exact within deadline held

/-- The breaker is open until `deadline`, if not longer. -/
def OpenTill (deadline : Nat) (b : Breaker) : Prop :=
  ∃ until_, b.openUntil = some until_ ∧ deadline ≤ until_

theorem OpenTill.asked {deadline : Nat} (open_ : OpenTill deadline b) (early : now < deadline) :
    b.isOpen now = true ∧ b.asked now = b := by
  obtain ⟨until_, held, le⟩ := open_
  have opened : b.isOpen now = true := isOpen_iff.2 ⟨until_, held, Nat.lt_of_lt_of_le early le⟩
  exact ⟨opened, if_pos opened⟩

/-- More failures keep it open. -/
theorem OpenTill.failed {deadline : Nat} (open_ : OpenTill deadline b)
    (within : Within cooldown now b) :
    OpenTill deadline (b.told bound threshold cooldown now .failure) := by
  obtain ⟨until_, held, le⟩ := open_
  unfold OpenTill Breaker.told
  dsimp only
  split
  · exact ⟨now + cooldown, rfl, Nat.le_trans le (within until_ held)⟩
  · exact ⟨until_, held, le⟩

end Rules

end Breaker

end CsdPool.Theory
