/-
# Theory.Journal — what a state keeps of the log that made it

A state that is folded over a log is often a few statistics kept side by side.  One of them is
a function of the log on its own: if every entry moves it by what is picked from the entry, it
is the fold of the picked values (`foldl_project`), so a counter is a length.

A window drops, with each new entry, the entries at its front that are too old by then.  It is
always an end of the log (`windowed_suffix`).  If the times do not decrease, it is exactly the
entries that are recent at the time of the last one (`windowed_recent`).
-/
import Mathlib.Data.List.Infix
import Mathlib.Data.List.TakeWhile
import Mathlib.Data.UInt

namespace CsdPool.Theory.Journal

set_option autoImplicit false

universe u v w

section Project

variable {σ : Type u} {ε : Type v} {τ α : Type w} {apply : σ → ε → σ}

/-- **A statistic is the fold of what it takes from the entries.** -/
theorem foldl_project (project : σ → τ) (pick : ε → Option α) (step : τ → α → τ)
    (each : ∀ s e, project (apply s e) = (pick e).elim (project s) (step (project s)))
    (log : List ε) (s : σ) :
    project (log.foldl apply s) = (log.filterMap pick).foldl step (project s) := by
  induction log generalizing s with
  | nil => rfl
  | cons e log ih =>
      rw [List.foldl_cons, ih, each]
      cases picked : pick e with
      | none => simp [picked]
      | some x => simp [picked]

end Project

section Count

variable {σ : Type u} {ε : Type v} {α : Type u}

/-- A counter of 64 bits counts up to its width. -/
theorem foldl_count (xs : List α) (n : UInt64) :
    xs.foldl (fun (n : UInt64) _ => n + 1) n = n + .ofNat xs.length := by
  induction xs generalizing n with
  | nil => simp
  | cons x xs ih =>
      rw [List.foldl_cons, ih, List.length_cons, UInt64.ofNat_add, UInt64.add_assoc,
        UInt64.add_comm 1]
      rfl

theorem foldl_count_zero (xs : List α) :
    xs.foldl (fun (n : UInt64) _ => n + 1) 0 = .ofNat xs.length := by
  rw [foldl_count]
  simp

/-- **A counter is the number of the entries that raise it.** -/
theorem foldl_countP {apply : σ → ε → σ} (project : σ → UInt64) (p : ε → Bool)
    (each : ∀ s e, project (apply s e) = if p e then project s + 1 else project s)
    (log : List ε) {s : σ} (start : project s = 0) :
    project (log.foldl apply s) = .ofNat (log.countP p) := by
  have general : ∀ s, project (log.foldl apply s) = project s + .ofNat (log.countP p) := by
    induction log with
    | nil => simp
    | cons e log ih =>
        intro s
        rw [List.foldl_cons, ih, each, List.countP_cons]
        split
        · rw [UInt64.ofNat_add, UInt64.add_assoc, UInt64.add_comm 1]
          rfl
        · simp
  rw [general, start, UInt64.zero_add]

theorem sum_ofNat (xs : List α) (f : α → Nat) :
    (xs.map fun x => UInt64.ofNat (f x)).sum = .ofNat (xs.map f).sum := by
  induction xs with
  | nil => rfl
  | cons x xs ih => rw [List.map_cons, List.sum_cons, ih, List.map_cons, List.sum_cons,
      UInt64.ofNat_add]

/-- What is overwritten is what was written last. -/
theorem foldl_last {β : Type w} (f : α → β) (xs : List α) (start : β) :
    xs.foldl (fun _ x => f x) start = (xs.getLast?.map f).getD start := by
  induction xs using List.reverseRecOn with
  | nil => rfl
  | append_singleton xs x => simp

end Count

section Window

variable {α : Type u} (horizon : Nat) (time : α → Nat)

/-- The window with a new entry, without what is too old by then. -/
def push (window : List α) (x : α) : List α :=
  (window ++ [x]).dropWhile fun y => decide (horizon < time x - time y)

/-- The entries that are recent at the time of the last. -/
def recent (log : List α) : List α :=
  match log.getLast? with
  | none => []
  | some last => log.filter fun y => decide (time last - time y ≤ horizon)

def windowed (log : List α) : List α := log.foldl (push horizon time) []

theorem windowed_snoc (log : List α) (x : α) :
    windowed horizon time (log ++ [x]) = push horizon time (windowed horizon time log) x := by
  simp [windowed]

theorem recent_snoc (log : List α) (x : α) :
    recent horizon time (log ++ [x]) =
      (log ++ [x]).filter fun y => decide (time x - time y ≤ horizon) := by
  simp [recent]

/-- Whatever the clock does, the window is an end of the log. -/
theorem windowed_suffix (log : List α) : windowed horizon time log <:+ log := by
  induction log using List.reverseRecOn with
  | nil => exact List.suffix_rfl
  | append_singleton log x ih =>
      rw [windowed_snoc]
      apply (List.dropWhile_suffix _).trans
      obtain ⟨before, same⟩ := ih
      exact ⟨before, by rw [← List.append_assoc, same]⟩

/-- Among entries in the order of their times the old ones are in front. -/
theorem dropWhile_old (now : Nat) {xs : List α} (ordered : xs.Pairwise fun a b => time a ≤ time b) :
    (xs.dropWhile fun y => decide (horizon < now - time y)) =
      xs.filter fun y => decide (now - time y ≤ horizon) := by
  induction xs with
  | nil => rfl
  | cons x xs ih =>
      obtain ⟨first, ordered⟩ := List.pairwise_cons.1 ordered
      by_cases old : horizon < now - time x
      · have unkept : ¬ now - time x ≤ horizon := by omega
        simp only [List.dropWhile_cons, List.filter_cons, old, unkept, decide_true, decide_false,
          if_true, Bool.false_eq_true, if_false]
        exact ih ordered
      · simp only [List.dropWhile_cons, old, decide_false, Bool.false_eq_true, if_false]
        symm
        rw [List.filter_eq_self]
        intro y member
        have later : time x ≤ time y := by
          rcases List.mem_cons.1 member with rfl | member
          · exact le_rfl
          · exact first y member
        simp only [decide_eq_true_eq]
        omega

/-- **With a clock that does not go back the window is what is recent.** -/
theorem windowed_recent {log : List α} (ordered : log.Pairwise fun a b => time a ≤ time b) :
    windowed horizon time log = recent horizon time log := by
  induction log using List.reverseRecOn with
  | nil => rfl
  | append_singleton log x ih =>
      obtain ⟨before, -, last⟩ := List.pairwise_append.1 ordered
      have kept : (windowed horizon time log ++ [x]).Sublist (log ++ [x]) :=
        (windowed_suffix horizon time log).sublist.append_right _
      rw [windowed_snoc, recent_snoc, push,
        dropWhile_old horizon time (time x) (ordered.sublist kept), ih before,
        List.filter_append, List.filter_append]
      congr 1
      -- what left the window before is no less old now
      cases ends : log.getLast? with
      | none => simp [recent, List.getLast?_eq_none_iff.1 ends]
      | some previous =>
          have member : previous ∈ log := List.mem_of_getLast? ends
          have later := last previous member x (List.mem_singleton_self x)
          rw [recent, ends, List.filter_filter]
          apply List.filter_congr
          intro y _
          simp only [Bool.and_eq_left_iff_imp, decide_eq_true_eq]
          omega

end Window

end CsdPool.Theory.Journal
