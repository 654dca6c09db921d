/-
# Theory.Lines — a stream cut into lines

A line is a list with one separator, at its end.  `split` cuts a stream into its complete
lines and the unterminated rest; `cut` takes the first line only, as a reader does that holds
what it has read of the next one.  `frames` adds the rest as a last line once the stream has
ended.

A reader that hands on lines and keeps the rest agrees with the split of the whole stream,
however the stream is cut into reads: `frames_lines_append` for what was handed on already,
`frames_held` for the line in progress.
-/
import Mathlib.Data.List.Basic

namespace CsdPool.Theory.Lines

set_option autoImplicit false

universe u

variable {α : Type u} [DecidableEq α] (sep : α)

/-- The complete lines, separators included, and the rest. -/
def split : List α → List (List α) × List α
  | [] => ([], [])
  | x :: xs =>
      if x = sep then ([x] :: (split xs).1, (split xs).2)
      else match (split xs).1 with
        | [] => ([], x :: (split xs).2)
        | line :: lines => ((x :: line) :: lines, (split xs).2)

/-- The first line and what follows it. -/
def cut : List α → Option (List α × List α)
  | [] => none
  | x :: xs => if x = sep then some ([x], xs) else (cut xs).map fun found => (x :: found.1, found.2)

/-- The lines of a stream; the rest counts once the stream has ended. -/
def frames (ended : Bool) (xs : List α) : List (List α) :=
  (split sep xs).1 ++ if ended && !(split sep xs).2.isEmpty then [(split sep xs).2] else []

/-- One separator, at the end. -/
def IsLine (line : List α) : Prop := ∃ body, line = body ++ [sep] ∧ sep ∉ body

variable {sep}

theorem split_of_notMem {xs : List α} (unterminated : sep ∉ xs) : split sep xs = ([], xs) := by
  induction xs with
  | nil => rfl
  | cons x xs ih =>
      have other : x ≠ sep := fun same => unterminated (same ▸ List.mem_cons_self)
      have rest := ih fun member => unterminated (List.mem_cons_of_mem _ member)
      unfold split
      rw [if_neg other, rest]

theorem split_line_append {line : List α} (isLine : IsLine sep line) (xs : List α) :
    split sep (line ++ xs) = (line :: (split sep xs).1, (split sep xs).2) := by
  obtain ⟨body, rfl, unterminated⟩ := isLine
  induction body with
  | nil =>
      exact if_pos rfl
  | cons x body ih =>
      have other : x ≠ sep := fun same => unterminated (same ▸ List.mem_cons_self)
      have rest := ih fun member => unterminated (List.mem_cons_of_mem _ member)
      show split sep (x :: (body ++ [sep] ++ xs)) = _
      conv_lhs => unfold split
      rw [if_neg other, rest]
      rfl

theorem cut_some {xs line rest : List α} (found : cut sep xs = some (line, rest)) :
    xs = line ++ rest ∧ IsLine sep line := by
  induction xs generalizing line with
  | nil => cases found
  | cons x xs ih =>
      unfold cut at found
      split at found
      · rename_i same
        cases found
        exact ⟨rfl, [], by rw [same]; rfl, List.not_mem_nil⟩
      · rename_i other
        obtain ⟨⟨line', rest'⟩, later, built⟩ := Option.map_eq_some_iff.1 found
        cases built
        obtain ⟨rfl, body, rfl, unterminated⟩ := ih later
        refine ⟨rfl, x :: body, rfl, ?_⟩
        intro member
        rcases List.mem_cons.1 member with same | member
        · exact other same.symm
        · exact unterminated member

theorem cut_none {xs : List α} (missing : cut sep xs = none) : sep ∉ xs := by
  induction xs with
  | nil => exact List.not_mem_nil
  | cons x xs ih =>
      unfold cut at missing
      split at missing
      · cases missing
      · rename_i other
        intro member
        rcases List.mem_cons.1 member with same | member
        · exact other same.symm
        · exact ih (Option.map_eq_none_iff.1 missing) member

omit [DecidableEq α] in
theorem isLine_append {held line : List α} (unterminated : sep ∉ held) (isLine : IsLine sep line) :
    IsLine sep (held ++ line) := by
  obtain ⟨body, rfl, clear⟩ := isLine
  refine ⟨held ++ body, (List.append_assoc _ _ _).symm, ?_⟩
  intro member
  rcases List.mem_append.1 member with member | member
  · exact unterminated member
  · exact clear member

/-- Lines that were handed on are the first lines of the stream. -/
theorem frames_lines_append {ended : Bool} {lines : List (List α)}
    (areLines : ∀ line ∈ lines, IsLine sep line) (xs : List α) :
    frames sep ended (lines.flatten ++ xs) = lines ++ frames sep ended xs := by
  induction lines with
  | nil => rfl
  | cons line lines ih =>
      have rest := ih fun line member => areLines line (List.mem_cons_of_mem _ member)
      have split_eq := split_line_append (areLines line List.mem_cons_self) (lines.flatten ++ xs)
      unfold frames at rest ⊢
      rw [List.flatten_cons, List.append_assoc, split_eq]
      show line :: (split sep (lines.flatten ++ xs)).1 ++ _ = line :: (lines ++ _)
      rw [List.cons_append, rest]

/-- A line in progress is no line yet. -/
theorem frames_held {xs : List α} (unterminated : sep ∉ xs) : frames sep false xs = [] := by
  unfold frames
  rw [split_of_notMem unterminated]
  rfl

theorem frames_last {xs : List α} (unterminated : sep ∉ xs) (some_read : xs ≠ []) :
    frames sep true xs = [xs] := by
  unfold frames
  rw [split_of_notMem unterminated]
  cases xs with
  | nil => exact absurd rfl some_read
  | cons x xs => rfl

/-- A line, or what is left when the stream has ended, is the next frame. -/
theorem frames_next {ended : Bool} {frame xs : List α} (nonempty : frame ≠ [])
    (read : IsLine sep frame ∨ (ended = true ∧ xs = [] ∧ sep ∉ frame)) :
    frames sep ended (frame ++ xs) = frame :: frames sep ended xs := by
  rcases read with line | ⟨rfl, rfl, clear⟩
  · have next : frames sep ended ([frame].flatten ++ xs) = [frame] ++ frames sep ended xs :=
      frames_lines_append (fun _ member => (List.mem_singleton.1 member) ▸ line) xs
    simpa using next
  · rw [List.append_nil, frames_last clear nonempty]
    rfl

end CsdPool.Theory.Lines
