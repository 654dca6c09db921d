/-
# Theory.ParallelSearch — threads that search disjoint ranges until one finds something

Each thread walks its own range and tries one number after the other.  A thread that finds
something swaps the shared stop flag; only the one whose swap finds it unset writes the result.
The others leave when they see the flag, and they may see it late: a load may miss a stop that was
set, but it never shows one that was not.

The result, once all threads are done, does not depend on the schedule in what matters
(`Sound.exhausted`, `Sound.found`): there is one exactly when some range holds a hit, and then it
is a hit.  Every step uses up fuel (`step_fuel`) and a thread that is not done can move
(`exists_step`), so every schedule ends.
-/
import CsdPool.Theory.Machine
import Mathlib.Algebra.GroupWithZero.Nat
import Mathlib.Algebra.Order.BigOperators.Group.List
import Mathlib.Algebra.Order.Group.Nat

namespace CsdPool.Theory.ParallelSearch

set_option autoImplicit false

universe u

variable {ρ : Type u}

/-- Where a thread is. -/
inductive Pc (ρ : Type u)
  /-- At the head of the loop, before the stop flag is read. -/
  | looping
  | trying
  /-- Found something, before the swap of the stop flag. -/
  | claiming (n : Nat) (r : ρ)
  /-- Won the swap, before the result is written. -/
  | writing (n : Nat) (r : ρ)
  | done

/-- A thread's range, and the number it tries next. -/
structure Thread (ρ : Type u) where
  first : Nat
  limit : Nat
  next : Nat
  pc : Pc ρ

/-- A thread starts at the head of its loop with the first number of its range. -/
def Thread.spawn (range : Nat × Nat) : Thread ρ := ⟨range.1, range.2, range.1, .looping⟩

/-- The cells the threads share, the stop flag, the number of attempts and the result, and the
threads. -/
structure State (ρ : Type u) where
  stop : Bool
  attempts : Nat
  result : Option (Nat × ρ)
  threads : List (Thread ρ)

/-- A thread's turn; `sawStop` is what a load of the stop flag shows. -/
structure Turn where
  thread : Nat
  sawStop : Bool

/-- Nothing was tried, and each range has its thread. -/
def start (ranges : List (Nat × Nat)) : State ρ := ⟨false, 0, none, ranges.map Thread.spawn⟩

/-- Replace the thread whose turn it is. -/
def State.put (s : State ρ) (turn : Turn) (t : Thread ρ) : State ρ :=
  { s with threads := s.threads.set turn.thread t }

/-- One turn of one thread. A load of the stop flag may show it unset although it is set, and never
the other way. -/
def step (check : Nat → Option ρ) (s : State ρ) (turn : Turn) : Option (State ρ) :=
  match s.threads[turn.thread]? with
  | none => none
  | some t =>
      match t.pc with
      | .looping =>
          if t.next < t.limit then
            if turn.sawStop then if s.stop then some (s.put turn { t with pc := .done }) else none
            else some (s.put turn { t with pc := .trying })
          else some (s.put turn { t with pc := .done })
      | .trying =>
          let pc := match check t.next with
            | some r => .claiming t.next r
            | none => .looping
          some { s.put turn { t with next := t.next + 1, pc } with attempts := s.attempts + 1 }
      | .claiming n r =>
          if s.stop then some (s.put turn { t with pc := .done })
          else some { s.put turn { t with pc := .writing n r } with stop := true }
      | .writing n r => some { s.put turn { t with pc := .done } with result := some (n, r) }
      | .done => none

/-- The threads in every order of their turns. -/
def search (check : Nat → Option ρ) (ranges : List (Nat × Nat)) : Machine (State ρ) Turn where
  init s := s = start ranges
  step := step check

/-- Every thread was joined. -/
def State.Joined (s : State ρ) : Prop := ∀ t ∈ s.threads, t.pc = .done

/-! ## What a turn does -/

/-- What one turn makes of its thread and of the shared cells. -/
inductive Move (check : Nat → Option ρ) (s : State ρ) (t : Thread ρ) :
    Thread ρ → Bool → Nat → Option (Nat × ρ) → Prop
  | stopped : t.pc = .looping → s.stop = true →
      Move check s t { t with pc := .done } s.stop s.attempts s.result
  | exhausted : t.pc = .looping → t.limit ≤ t.next →
      Move check s t { t with pc := .done } s.stop s.attempts s.result
  | entered : t.pc = .looping → t.next < t.limit →
      Move check s t { t with pc := .trying } s.stop s.attempts s.result
  | missed : t.pc = .trying → check t.next = none →
      Move check s t { t with next := t.next + 1, pc := .looping } s.stop (s.attempts + 1) s.result
  | hit (r : ρ) : t.pc = .trying → check t.next = some r →
      Move check s t { t with next := t.next + 1, pc := .claiming t.next r } s.stop (s.attempts + 1)
        s.result
  | beaten (n : Nat) (r : ρ) : t.pc = .claiming n r → s.stop = true →
      Move check s t { t with pc := .done } s.stop s.attempts s.result
  | won (n : Nat) (r : ρ) : t.pc = .claiming n r → s.stop = false →
      Move check s t { t with pc := .writing n r } true s.attempts s.result
  | wrote (n : Nat) (r : ρ) : t.pc = .writing n r →
      Move check s t { t with pc := .done } s.stop s.attempts (some (n, r))

/-- One thread moves, the others stay. -/
theorem step_cases {check : Nat → Option ρ} {s s' : State ρ} {turn : Turn}
    (stepped : step check s turn = some s') :
    ∃ before t after t', s.threads = before ++ t :: after ∧ s'.threads = before ++ t' :: after ∧
      Move check s t t' s'.stop s'.attempts s'.result := by
  unfold step at stepped
  cases own : s.threads[turn.thread]? with
  | none => rw [own] at stepped; cases stepped
  | some t =>
      have split : ∀ t', ∃ before after, s.threads = before ++ t :: after ∧
          s.threads.set turn.thread t' = before ++ t' :: after := by
        intro t'
        obtain ⟨inside, rfl⟩ := List.getElem?_eq_some_iff.1 own
        obtain ⟨before, after, was, -, set⟩ := List.exists_of_set inside
        exact ⟨before, after, was, set⟩
      rw [own] at stepped
      dsimp only at stepped
      cases at_ : t.pc with
      | looping =>
          rw [at_] at stepped
          dsimp only at stepped
          split at stepped
          next more =>
            split at stepped
            · split at stepped
              · rename_i stop
                cases stepped
                obtain ⟨before, after, was, now⟩ := split { t with pc := .done }
                exact ⟨before, t, after, _, was, now, .stopped at_ stop⟩
              · cases stepped
            · cases stepped
              obtain ⟨before, after, was, now⟩ := split { t with pc := .trying }
              exact ⟨before, t, after, _, was, now, .entered at_ more⟩
          next noMore =>
            cases stepped
            obtain ⟨before, after, was, now⟩ := split { t with pc := .done }
            exact ⟨before, t, after, _, was, now, .exhausted at_ (Nat.le_of_not_lt noMore)⟩
      | trying =>
          rw [at_] at stepped
          cases stepped
          cases tried : check t.next with
          | none =>
              obtain ⟨before, after, was, now⟩ :=
                split { t with next := t.next + 1, pc := .looping }
              exact ⟨before, t, after, _, was, by simpa [tried, State.put] using now,
                .missed at_ tried⟩
          | some r =>
              obtain ⟨before, after, was, now⟩ :=
                split { t with next := t.next + 1, pc := .claiming t.next r }
              exact ⟨before, t, after, _, was, by simpa [tried, State.put] using now,
                .hit r at_ tried⟩
      | claiming n r =>
          rw [at_] at stepped
          dsimp only at stepped
          split at stepped
          next stop =>
            cases stepped
            obtain ⟨before, after, was, now⟩ := split { t with pc := .done }
            exact ⟨before, t, after, _, was, now, .beaten n r at_ stop⟩
          next open_ =>
            cases stepped
            obtain ⟨before, after, was, now⟩ := split { t with pc := .writing n r }
            exact ⟨before, t, after, _, was, now, .won n r at_ (by simpa using open_)⟩
      | writing n r =>
          rw [at_] at stepped
          cases stepped
          obtain ⟨before, after, was, now⟩ := split { t with pc := .done }
          exact ⟨before, t, after, _, was, now, .wrote n r at_⟩
      | done =>
          rw [at_] at stepped
          cases stepped

/-! ## The invariant -/

def Pc.isWriting : Pc ρ → Bool
  | .writing _ _ => true
  | _ => false

/-- How many numbers a thread has tried. -/
def Thread.tried (t : Thread ρ) : Nat := t.next - t.first

/-- What holds of one thread: it tried everything from its first number on, and a hit among it was
claimed. -/
structure Fine (check : Nat → Option ρ) (stop : Bool) (t : Thread ρ) : Prop where
  begun : t.first ≤ t.next
  within : t.next ≤ max t.first t.limit
  trying : t.pc = .trying → t.next < t.limit
  claims : ∀ n r, t.pc = .claiming n r ∨ t.pc = .writing n r →
    check n = some r ∧ t.first ≤ n ∧ n < t.next
  missed : ∀ n, t.first ≤ n → n < t.next → check n ≠ none →
    stop = true ∨ ∃ r, t.pc = .claiming n r
  finished : t.pc = .done → stop = false → t.limit ≤ t.next
  writing : ∀ n r, t.pc = .writing n r → stop = true

section Invariant

variable {check : Nat → Option ρ}

/-- A thread that has tried nothing has missed nothing. -/
theorem fine_spawn (range : Nat × Nat) : Fine check false (Thread.spawn range) where
  begun := Nat.le_refl _
  within := Nat.le_max_left ..
  trying := by rintro ⟨⟩
  claims := by rintro _ _ (⟨⟨⟩⟩ | ⟨⟨⟩⟩)
  missed n atLeast below _ := absurd below (Nat.not_lt.2 atLeast)
  finished := by rintro ⟨⟩
  writing := by rintro _ _ ⟨⟩

/-- The stop flag only ever helps. -/
theorem Fine.stopped {t : Thread ρ} {stop : Bool} (fine : Fine check stop t) : Fine check true t :=
  { fine with
    missed := fun _ _ _ _ => .inl rfl
    finished := by rintro _ ⟨⟩
    writing := fun _ _ _ => rfl }

variable {s : State ρ} {t t' : Thread ρ} {stop : Bool} {attempts : Nat} {result : Option (Nat × ρ)}

/-- No turn changes a thread's range. -/
theorem Move.keeps_range (move : Move check s t t' stop attempts result) :
    t'.first = t.first ∧ t'.limit = t.limit := by
  cases move <;> exact ⟨rfl, rfl⟩

theorem Move.next_le (move : Move check s t t' stop attempts result) : t.next ≤ t'.next := by
  cases move <;> simp

/-- The stop flag is never unset. -/
theorem Move.keeps_stop (move : Move check s t t' stop attempts result) (was : s.stop = true) :
    stop = true := by
  cases move <;> first | exact was | rfl

/-- Leaving the loop, or going to try the next number. -/
theorem Fine.leave {pc : Pc ρ} (fine : Fine check s.stop t) (was : t.pc = .looping)
    (trying : pc = .trying → t.next < t.limit)
    (claims : ∀ n r, ¬(pc = .claiming n r ∨ pc = .writing n r))
    (finished : pc = .done → s.stop = false → t.limit ≤ t.next) :
    Fine check s.stop { t with pc } where
  begun := fine.begun
  within := fine.within
  trying := trying
  claims n r here := absurd here (claims n r)
  missed n atLeast below hit := by
    refine (fine.missed n atLeast below hit).imp_right ?_
    rintro ⟨r, here⟩
    rw [was] at here
    cases here
  finished := finished
  writing n r here := absurd (.inr here) (claims n r)

/-- A turn keeps what is known of its thread. -/
theorem Move.keeps_fine (move : Move check s t t' stop attempts result)
    (fine : Fine check s.stop t) : Fine check stop t' := by
  cases move with
  | stopped here isSet =>
      refine fine.leave here (by rintro ⟨⟩) (by rintro _ _ (⟨⟨⟩⟩ | ⟨⟨⟩⟩)) fun _ unset => ?_
      rw [isSet] at unset
      cases unset
  | exhausted here past =>
      exact fine.leave here (by rintro ⟨⟩) (by rintro _ _ (⟨⟨⟩⟩ | ⟨⟨⟩⟩)) fun _ _ => past
  | entered here more =>
      exact fine.leave here (fun _ => more) (by rintro _ _ (⟨⟨⟩⟩ | ⟨⟨⟩⟩)) (by rintro ⟨⟩)
  | missed here nothing =>
      have inside := fine.trying here
      refine ⟨Nat.le_succ_of_le fine.begun, by simp only; omega, by rintro ⟨⟩,
        by rintro _ _ (⟨⟨⟩⟩ | ⟨⟨⟩⟩), fun n atLeast below hit => ?_, by rintro ⟨⟩, by rintro _ _ ⟨⟩⟩
      rcases Nat.lt_succ_iff_lt_or_eq.1 below with earlier | rfl
      · refine (fine.missed n atLeast earlier hit).imp_right ?_
        rintro ⟨r, claiming⟩
        rw [here] at claiming
        cases claiming
      · exact absurd nothing hit
  | hit r here found =>
      have inside := fine.trying here
      refine ⟨Nat.le_succ_of_le fine.begun, by simp only; omega, by rintro ⟨⟩, ?_,
        fun n atLeast below hit => ?_, by rintro ⟨⟩, by rintro _ _ ⟨⟩⟩
      · rintro n r' (⟨⟨⟩⟩ | ⟨⟨⟩⟩)
        exact ⟨found, fine.begun, Nat.lt_succ_self _⟩
      · rcases Nat.lt_succ_iff_lt_or_eq.1 below with earlier | rfl
        · refine (fine.missed n atLeast earlier hit).imp_right ?_
          rintro ⟨r, claiming⟩
          rw [here] at claiming
          cases claiming
        · exact .inr ⟨r, rfl⟩
  | beaten n r here isSet =>
      rw [isSet]
      exact { fine.stopped with
        trying := by rintro ⟨⟩
        claims := by rintro _ _ (⟨⟨⟩⟩ | ⟨⟨⟩⟩)
        missed := fun _ _ _ _ => .inl rfl
        finished := by rintro _ ⟨⟩
        writing := by rintro _ _ ⟨⟩ }
  | won n r here isUnset =>
      exact { fine.stopped with
        trying := by rintro ⟨⟩
        claims := by
          rintro _ _ (⟨⟨⟩⟩ | ⟨⟨⟩⟩)
          exact fine.claims n r (.inl here)
        missed := fun _ _ _ _ => .inl rfl
        finished := by rintro ⟨⟩
        writing := fun _ _ _ => rfl }
  | wrote n r here =>
      rw [fine.writing n r here]
      exact { fine.stopped with
        trying := by rintro ⟨⟩
        claims := by rintro _ _ (⟨⟨⟩⟩ | ⟨⟨⟩⟩)
        missed := fun _ _ _ _ => .inl rfl
        finished := by rintro _ ⟨⟩
        writing := by rintro _ _ ⟨⟩ }

/-- The winner's write is the only one: it comes after the swap and before the end. -/
def written (result : Option (Nat × ρ)) : Nat := if result.isSome then 1 else 0

/-- How often the stop flag was set: once at most. -/
def swapped (stop : Bool) : Nat := if stop then 1 else 0

/-- The invariant. The threads cover the ranges, the attempts are theirs, and whoever set the stop
flag writes the result or has written it. -/
structure Sound (check : Nat → Option ρ) (ranges : List (Nat × Nat)) (s : State ρ) : Prop where
  fine : ∀ t ∈ s.threads, Fine check s.stop t
  covers : s.threads.map (fun t => (t.first, t.limit)) = ranges
  attempts : s.attempts = (s.threads.map Thread.tried).sum
  writers : s.threads.countP (fun t => t.pc.isWriting) + written s.result = swapped s.stop
  result : ∀ n r, s.result = some (n, r) →
    check n = some r ∧ ∃ t ∈ s.threads, t.first ≤ n ∧ n < t.next

theorem sound_start (ranges : List (Nat × Nat)) : Sound check ranges (start ranges) where
  fine t member := by
    obtain ⟨range, -, rfl⟩ := List.mem_map.1 member
    exact fine_spawn range
  covers := by
    rw [start, List.map_map]
    exact List.map_id ranges
  attempts := by
    rw [start, List.map_map]
    refine (List.sum_eq_zero ?_).symm
    intro n member
    obtain ⟨range, -, rfl⟩ := List.mem_map.1 member
    exact Nat.sub_self _
  writers := by
    rw [start, List.countP_map]
    simp [Function.comp_def, Thread.spawn, Pc.isWriting, written, swapped]
  result := by rintro _ _ ⟨⟩

/-- The cells after a move, with the writers among the moved thread. -/
theorem Move.keeps_writers (move : Move check s t t' stop attempts result)
    (fine : Fine check s.stop t) (others : Nat)
    (writers : others + swapped t.pc.isWriting + written s.result = swapped s.stop) :
    others + swapped t'.pc.isWriting + written result = swapped stop := by
  cases move with
  | stopped here | exhausted here | entered here | missed here | hit _ here | beaten _ _ here =>
      simpa [here, Pc.isWriting, swapped] using writers
  | won n r here unset =>
      simp only [here, Pc.isWriting, swapped, unset] at writers ⊢
      simp at writers ⊢
      omega
  | wrote n r here =>
      rw [fine.writing n r here] at writers ⊢
      simp only [here, Pc.isWriting, swapped, written] at writers ⊢
      simp at writers ⊢
      omega

theorem Move.keeps_attempts (move : Move check s t t' stop attempts result)
    (fine : Fine check s.stop t) : attempts + t.tried = s.attempts + t'.tried := by
  have begun := fine.begun
  cases move <;> simp only [Thread.tried] <;> omega

theorem Move.keeps_result (move : Move check s t t' stop attempts result)
    (fine : Fine check s.stop t) {n : Nat} {r : ρ} (shown : result = some (n, r)) :
    s.result = some (n, r) ∨ check n = some r ∧ t'.first ≤ n ∧ n < t'.next := by
  cases move with
  | wrote n r here =>
      cases shown
      exact .inr (fine.claims n r (.inr here))
  | stopped | exhausted | entered | missed | hit | beaten | won => exact .inl shown

/-- **One turn keeps the invariant.** -/
theorem Sound.step {ranges : List (Nat × Nat)} {s s' : State ρ} {turn : Turn}
    (sound : Sound check ranges s) (stepped : step check s turn = some s') :
    Sound check ranges s' := by
  obtain ⟨before, t, after, t', was, now, move⟩ := step_cases stepped
  have fine : Fine check s.stop t := sound.fine t (was ▸ List.mem_append_right _ List.mem_cons_self)
  refine ⟨?_, ?_, ?_, ?_, ?_⟩
  · intro x member
    have others : x ∈ s.threads → Fine check s'.stop x := by
      intro old
      cases was' : s.stop with
      | true => rw [move.keeps_stop was']; exact (sound.fine x old).stopped
      | false =>
          have unset := sound.fine x old
          rw [was'] at unset
          cases s'.stop with
          | true => exact unset.stopped
          | false => exact unset
    rw [now, List.mem_append, List.mem_cons] at member
    rcases member with member | rfl | member
    · exact others (was ▸ List.mem_append_left _ member)
    · exact move.keeps_fine fine
    · exact others (was ▸ List.mem_append_right _ (List.mem_cons_of_mem _ member))
  · rw [← sound.covers, was, now]
    simp only [List.map_append, List.map_cons, move.keeps_range]
  · have total := sound.attempts
    have moved := move.keeps_attempts fine
    rw [was] at total
    rw [now]
    simp only [List.map_append, List.map_cons, List.sum_append, List.sum_cons] at total ⊢
    omega
  · have total := sound.writers
    rw [was] at total
    rw [now]
    simp only [List.countP_append, List.countP_cons] at total ⊢
    have kept := move.keeps_writers fine (before.countP (fun t => t.pc.isWriting) +
      after.countP fun t => t.pc.isWriting) (by simp only [swapped] at total ⊢; omega)
    simp only [swapped] at kept ⊢
    omega
  · intro n r shown
    have here : t' ∈ s'.threads := now ▸ List.mem_append_right _ List.mem_cons_self
    rcases move.keeps_result fine shown with old | ⟨found, atLeast, below⟩
    · obtain ⟨found, x, member, atLeast, below⟩ := sound.result n r old
      rw [was, List.mem_append, List.mem_cons] at member
      rcases member with member | rfl | member
      · exact ⟨found, x, now ▸ List.mem_append_left _ member, atLeast, below⟩
      · exact ⟨found, t', here, move.keeps_range.1 ▸ atLeast, Nat.lt_of_lt_of_le below move.next_le⟩
      · exact ⟨found, x, now ▸ List.mem_append_right _ (List.mem_cons_of_mem _ member), atLeast,
          below⟩
    · exact ⟨found, t', here, atLeast, below⟩

end Invariant

/-! ## Every schedule ends -/

/-- A measure of the turns a thread has left in its round of the loop. -/
def Pc.fuel : Pc ρ → Nat
  | .looping => 3
  | .trying => 2
  | .claiming _ _ => 2
  | .writing _ _ => 1
  | .done => 0

def Thread.fuel (t : Thread ρ) : Nat := 2 * (t.limit - t.next) + t.pc.fuel

/-- A bound on the turns that are left, over all threads. -/
def State.fuel (s : State ρ) : Nat := (s.threads.map Thread.fuel).sum

/-- Every turn uses some of it. -/
theorem Move.fuel {check : Nat → Option ρ} {s : State ρ} {t t' : Thread ρ} {stop : Bool}
    {attempts : Nat} {result : Option (Nat × ρ)} (move : Move check s t t' stop attempts result)
    (within : t.pc = .trying → t.next < t.limit) : t'.fuel < t.fuel := by
  cases move with
  | stopped here | exhausted here | entered here | beaten _ _ here | won _ _ here | wrote _ _ here =>
      simp [Thread.fuel, here, Pc.fuel]
  | missed here | hit _ here =>
      have inside := within here
      simp only [Thread.fuel, here, Pc.fuel]
      omega

theorem step_fuel {check : Nat → Option ρ} {s s' : State ρ} {turn : Turn}
    {ranges : List (Nat × Nat)} (sound : Sound check ranges s)
    (stepped : step check s turn = some s') : s'.fuel < s.fuel := by
  obtain ⟨before, t, after, t', was, now, move⟩ := step_cases stepped
  have fine : Fine check s.stop t := sound.fine t (was ▸ List.mem_append_right _ List.mem_cons_self)
  have less := move.fuel fine.trying
  rw [State.fuel, State.fuel, was, now]
  simp only [List.map_append, List.map_cons, List.sum_append, List.sum_cons]
  omega

/-- **No schedule goes on for longer than its fuel.** -/
theorem run_length_le {check : Nat → Option ρ} {ranges : List (Nat × Nat)} {turns : List Turn}
    {s s' : State ρ} (sound : Sound check ranges s)
    (ran : (search check ranges).run s turns = some s') : turns.length ≤ s.fuel := by
  induction turns generalizing s with
  | nil => exact Nat.zero_le _
  | cons turn turns ih =>
      simp only [Machine.run, Machine.runUnder, if_true] at ran
      cases stepped : (search check ranges).step s turn with
      | none => rw [stepped] at ran; cases ran
      | some next =>
          rw [stepped] at ran
          have rest := ih (sound.step stepped) ran
          have less := step_fuel sound stepped
          rw [List.length_cons]
          omega

/-- A thread that is not done can move, whatever the others do. -/
theorem exists_step (check : Nat → Option ρ) {s : State ρ} (open_ : ¬s.Joined) :
    ∃ turn s', step check s turn = some s' := by
  simp only [State.Joined, not_forall] at open_
  obtain ⟨t, member, notDone⟩ := open_
  obtain ⟨i, inside, rfl⟩ := List.mem_iff_getElem.1 member
  refine ⟨⟨i, false⟩, ?_⟩
  simp only [step, List.getElem?_eq_getElem inside]
  cases at_ : (s.threads[i]).pc with
  | looping => dsimp only; split <;> exact ⟨_, rfl⟩
  | trying => exact ⟨_, rfl⟩
  | claiming n r => dsimp only; split <;> exact ⟨_, rfl⟩
  | writing n r => exact ⟨_, rfl⟩
  | done => exact absurd at_ notDone

/-! ## The outcome -/

section Outcome

variable {check : Nat → Option ρ} {ranges : List (Nat × Nat)} {s : State ρ}

/-- The invariant holds under every schedule. -/
theorem search_sound (reached : (search check ranges).Reachable s) : Sound check ranges s := by
  refine reached.invariant ?_ ?_
  · rintro _ rfl
    exact sound_start ranges
  · intro _ _ _ _ sound _ stepped
    exact sound.step stepped

/-- Once all threads are done, there is a result exactly when the stop flag is set. -/
theorem Sound.joined_result (sound : Sound check ranges s) (joined : s.Joined) :
    s.result.isSome = s.stop := by
  have none_ : s.threads.countP (fun t => t.pc.isWriting) = 0 := by
    rw [List.countP_eq_zero]
    intro t member
    rw [joined t member]
    simp [Pc.isWriting]
  have writers := sound.writers
  rw [none_] at writers
  cases found : s.result.isSome <;> cases set : s.stop <;>
    simp_all [written, swapped]

/-- **No result means that nothing was there.** -/
theorem Sound.exhausted (sound : Sound check ranges s) (joined : s.Joined)
    (nothing : s.result = none) : ∀ range ∈ ranges, ∀ n, range.1 ≤ n → n < range.2 →
      check n = none := by
  have unset : s.stop = false := by
    rw [← sound.joined_result joined, nothing]
    rfl
  intro range member n atLeast below
  rw [← sound.covers] at member
  obtain ⟨t, inThreads, rfl⟩ := List.mem_map.1 member
  have fine := sound.fine t inThreads
  have all := fine.finished (joined t inThreads) unset
  by_contra hit
  rcases fine.missed n atLeast (Nat.lt_of_lt_of_le below all) hit with set | ⟨r, claiming⟩
  · rw [unset] at set
    cases set
  · rw [joined t inThreads] at claiming
    cases claiming

theorem Sound.attempts_le (sound : Sound check ranges s) :
    s.attempts ≤ (ranges.map fun range => range.2 - range.1).sum := by
  rw [sound.attempts, ← sound.covers, List.map_map]
  apply List.sum_le_sum
  intro t member
  have within := (sound.fine t member).within
  simp only [Thread.tried, Function.comp]
  omega

/-- **A result is a hit in some range**, and it was tried. -/
theorem Sound.found (sound : Sound check ranges s) {n : Nat} {r : ρ}
    (result : s.result = some (n, r)) :
    check n = some r ∧ (∃ range ∈ ranges, range.1 ≤ n ∧ n < range.2) ∧ 0 < s.attempts := by
  obtain ⟨found, t, member, atLeast, below⟩ := sound.result n r result
  have within := (sound.fine t member).within
  refine ⟨found, ⟨(t.first, t.limit), ?_, atLeast, by simp only; omega⟩, ?_⟩
  · rw [← sound.covers]
    exact List.mem_map_of_mem member
  · rw [sound.attempts]
    have tried : 0 < t.tried := Nat.sub_pos_of_lt (Nat.lt_of_le_of_lt atLeast below)
    exact tried.trans_le (List.single_le_sum (fun _ _ => Nat.zero_le _) _ (List.mem_map_of_mem member))

end Outcome

end CsdPool.Theory.ParallelSearch
