/-
# Theory.Board — flags that are raised and taken down

A board is the set of the keys whose flag is up.  A round raises the keys it found and takes down,
of the keys it saw, those it did not find.  A board that is to show the keys of `due` shows a key
after the round exactly if the round found it, or it was due already up and unseen, or neither
(`mem_round_iff`).

A board with times knows of each flag that is up when it was last seen (`Sightings`), and is written
one key at a time (`after`).  A listing shows the keys seen last, up to a limit, and of two seen at
once the one that stands later in the table.  So a key is listed if fewer keys than the limit are
ahead of it (`mem_listing_iff`), which is read off the times and the places alone; where the keys
that came after the table was read stand makes no difference (`inSight_append`).
-/
import CsdPool.Theory.Listing
import Mathlib.Data.Set.Card

namespace CsdPool.Theory.Board

set_option autoImplicit false

universe u v

variable {κ : Type u} {found seen board due : Set κ}

def round (found seen board : Set κ) : Set κ :=
  {key | key ∈ found ∨ key ∈ board ∧ key ∉ seen}

/-- What a round that finds only what is due leaves wrong is among the keys it did not find. -/
theorem mem_round_iff {key : κ} (honest : found ⊆ due) :
    (key ∈ round found seen board ↔ key ∈ due) ↔
      (key ∉ found → (key ∈ due ↔ key ∈ board ∧ key ∉ seen)) := by
  by_cases hit : key ∈ found
  · simp [round, hit, honest hit]
  · simp only [round, Set.mem_ofPred_eq, hit, false_or, not_false_eq_true, forall_const]
    exact Iff.comm

/-! ## Boards with times -/

/-- When each flag that is up was last seen. -/
abbrev Sightings (κ : Type u) := κ → Option Nat

/-- The flag of a key is raised, or taken down. -/
structure Write (κ : Type u) where
  key : κ
  up : Bool
  deriving DecidableEq, Repr

def raise (keys : List κ) : List (Write κ) := keys.map (⟨·, true⟩)

def takeDown (keys : List κ) : List (Write κ) := keys.map (⟨·, false⟩)

@[simp] theorem filter_raise (keys : List κ) : (raise keys).filter (·.up) = raise keys := by
  simp [raise]

@[simp] theorem filter_takeDown (keys : List κ) : (takeDown keys).filter (·.up) = [] := by
  simp [takeDown]

@[simp] theorem length_raise (keys : List κ) : (raise keys).length = keys.length :=
  List.length_map _

section Writes

variable [DecidableEq κ]

/-- The board after some writes, the first of them the one numbered `start`; `clock` is the time of
each. -/
def Sightings.after (clock : Nat → Nat) : Sightings κ → Nat → List (Write κ) → Sightings κ
  | sightings, _, [] => sightings
  | sightings, start, write :: rest =>
      Sightings.after clock (Function.update sightings write.key
        (if write.up then some (clock start) else none)) (start + 1) rest

variable {clock : Nat → Nat}

theorem after_append (later earlier : List (Write κ)) :
    ∀ (sightings : Sightings κ) (start : Nat),
      sightings.after clock start (earlier ++ later) =
        (sightings.after clock start earlier).after clock (start + earlier.length) later := by
  induction earlier with
  | nil => intro sightings start; rfl
  | cons write rest ih =>
      intro sightings start
      have numbered : start + (write :: rest).length = start + 1 + rest.length := by
        rw [List.length_cons]
        omega
      rw [numbered, List.cons_append]
      exact ih _ _

/-- Of what is taken down only the keys matter, not the order or the times. -/
theorem after_takeDown (keys : List κ) :
    ∀ (sightings : Sightings κ) (start : Nat),
      sightings.after clock start (takeDown keys) =
        fun key => if key ∈ keys then none else sightings key := by
  induction keys with
  | nil => intro sightings start; simp [takeDown, Sightings.after]
  | cons first rest ih =>
      intro sightings start
      show Sightings.after clock _ (start + 1) (takeDown rest) = _
      rw [ih]
      funext key
      rw [Function.update_apply]
      by_cases same : key = first
      · simp [same]
      · simp [same]

/-- What is up was up before, or is raised. -/
theorem up_before_or_raised (writes : List (Write κ)) {key : κ} :
    ∀ {sightings : Sightings κ} {start : Nat},
      sightings.after clock start writes key ≠ none →
        sightings key ≠ none ∨ key ∈ (writes.filter (·.up)).map Write.key := by
  induction writes with
  | nil => exact fun up => .inl up
  | cons write rest ih =>
      intro sightings start up
      rcases ih up with before | later
      · rw [Function.update_apply] at before
        by_cases same : key = write.key
        · cases raised : write.up with
          | true => exact .inr (by simp [raised, same])
          | false => simp [same, raised] at before
        · rw [if_neg same] at before
          exact .inl before
      · obtain ⟨found, inRest, rfl⟩ := List.mem_map.1 later
        exact .inr (List.mem_map_of_mem
          (((List.sublist_cons_self _ _).filter _).mem inRest))

end Writes

/-! ## Listings -/

variable {sightings : Sightings κ} {place : κ → Nat}

/-- A listing puts `other` before `key`: it was seen later, or at once and it stands later. -/
def Ahead (place : κ → Nat) (sightings : Sightings κ) (key other : κ) : Prop :=
  ∃ time ∈ sightings key, ∃ time' ∈ sightings other,
    time < time' ∨ time = time' ∧ place key < place other

/-- Fewer keys than the limit are ahead. -/
def InSight (place : κ → Nat) (sightings : Sightings κ) (limit : Nat) (key : κ) : Prop :=
  {other | Ahead place sightings key other}.encard < limit

variable {ρ : Type v} {key : ρ → κ} {time : ρ → Nat} {rows : List ρ}

/-- **A listing shows the keys in sight.**  The rows are those whose flag is up, as they stand. -/
theorem mem_listing_iff {limit : Nat}
    (shown : ∀ k t, sightings k = some t ↔ ∃ row ∈ rows, key row = k ∧ time row = t)
    (placed : rows.Pairwise fun a b => place (key a) < place (key b)) {row : ρ}
    (member : row ∈ rows) :
    row ∈ (rows.reverse.insertionSort fun a b => time b ≤ time a).take limit ↔
      InSight place sightings limit (key row) := by
  classical
  let before (a b : ρ) : Prop :=
    time b < time a ∨ time b = time a ∧ place (key b) < place (key a)
  have total : Std.Total fun a b : ρ => time b ≤ time a := ⟨fun a b => le_total _ _⟩
  have trans : IsTrans ρ fun a b => time b ≤ time a := ⟨fun _ _ _ ab bc => bc.trans ab⟩
  have ordered : (rows.reverse.insertionSort fun a b => time b ≤ time a).Pairwise before := by
    have stood : rows.reverse.Pairwise fun a b => place (key b) < place (key a) :=
      List.pairwise_reverse.2 placed
    refine (pairwise_insertionSort_stable stood).imp ?_
    rintro a b ⟨le, stable⟩
    rcases Nat.lt_or_eq_of_le le with less | same
    · exact .inl less
    · exact .inr ⟨same, stable same.ge⟩
  have asymm : ∀ {a b}, before a b → ¬ before b a := by
    intro a b first second
    simp only [before] at first second
    omega
  have distinct : (rows.map key).Nodup :=
    List.pairwise_map.2 (placed.imp fun less same => less.ne (congrArg place same))
  rw [mem_take_iff_ahead asymm ordered, List.mem_insertionSort, List.mem_reverse,
    and_iff_right member, InSight]
  set sorted := rows.reverse.insertionSort fun a b => time b ≤ time a with sorted_eq
  have perm : sorted.Perm rows := (List.perm_insertionSort _ _).trans rows.reverse_perm
  -- The keys ahead are those of the rows ahead, and no key counts twice.
  have keys : {other | Ahead place sightings (key row) other} =
      ((sorted.filter (before · row)).map key).toFinset := by
    ext other
    rw [Finset.mem_coe, List.mem_toFinset, List.mem_map]
    constructor
    · rintro ⟨t, here, t', there, ahead⟩
      obtain ⟨own, inRows, same, rfl⟩ := (shown _ _).1 here
      obtain ⟨found, foundIn, rfl, rfl⟩ := (shown _ _).1 there
      obtain rfl := List.inj_on_of_nodup_map distinct inRows member same
      exact ⟨found, List.mem_filter.2 ⟨perm.mem_iff.2 foundIn, decide_eq_true ahead⟩, rfl⟩
    · rintro ⟨found, inFilter, rfl⟩
      obtain ⟨inSorted, ahead⟩ := List.mem_filter.1 inFilter
      have ahead : before found row := of_decide_eq_true ahead
      exact ⟨time row, (shown _ _).2 ⟨row, member, rfl, rfl⟩, time found,
        (shown _ _).2 ⟨found, perm.mem_iff.1 inSorted, rfl, rfl⟩, ahead⟩
  have single : ((sorted.filter (before · row)).map key).Nodup :=
    ((perm.map key).nodup_iff.2 distinct).sublist (List.filter_sublist.map key)
  rw [keys, Set.encard_coe_eq_coe_finsetCard, List.toFinset_card_of_nodup single,
    List.length_map, Nat.cast_lt]

/-- A key that is up is in sight if no more keys are up than the limit. -/
theorem inSight_of_room {ups : List κ} {limit : Nat} {k : κ}
    (all : ∀ other, sightings other ≠ none → other ∈ ups) (room : ups.length ≤ limit)
    (up : k ∈ ups) : InSight place sightings limit k := by
  classical
  have ahead : {other | Ahead place sightings k other} ⊆ (ups.toFinset.erase k : Finset κ) := by
    rintro other ⟨time, here, time', there, before⟩
    rw [Finset.mem_coe, Finset.mem_erase, List.mem_toFinset]
    refine ⟨?_, all other (Option.ne_none_iff_exists'.2 ⟨time', there⟩)⟩
    rintro rfl
    obtain rfl : time = time' := Option.some.inj (here.symm.trans there)
    omega
  have fewer : (ups.toFinset.erase k).card < limit := by
    have positive := Finset.card_erase_lt_of_mem (List.mem_toFinset.2 up)
    have all_ := ups.toFinset_card_le
    omega
  refine (Set.encard_le_encard ahead).trans_lt ?_
  rw [Set.encard_coe_eq_coe_finsetCard]
  exact_mod_cast fewer

/-- For a key of the table, keys that came later make no difference to the places. -/
theorem inSight_append [DecidableEq κ] {keys : List κ} (new : List κ) {limit : Nat} {k : κ}
    (member : k ∈ keys) :
    InSight (keys ++ new).idxOf sightings limit k ↔ InSight keys.idxOf sightings limit k := by
  have places : ∀ other, (keys ++ new).idxOf k < (keys ++ new).idxOf other ↔
      keys.idxOf k < keys.idxOf other := by
    intro other
    rw [List.idxOf_append_of_mem member]
    by_cases old : other ∈ keys
    · rw [List.idxOf_append_of_mem old]
    · have here := List.idxOf_lt_length_iff.2 member
      rw [List.idxOf_append_of_notMem old, List.idxOf_eq_length_iff.2 old]
      omega
  unfold InSight Ahead
  simp only [places]

end CsdPool.Theory.Board
