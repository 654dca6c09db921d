/-
# Theory.Assignment — one offer each

Requests and offers stand in lists, and a request is content with any offer that carries its
label.  An assignment gives every request an offer of its own.  There is one if and only if the
labels asked for are among the labels offered, each at least as often (`assignable_iff`), so the
order of neither list matters, and an offer taken for one request is missed by no other that
could have had it (`subperm_cons_iff`).

Some offers may carry no label at all; leaving them out changes nothing
(`subperm_filterMap_iff`).
-/
import Mathlib.Data.List.FinRange
import Mathlib.Data.List.Perm.Subperm

namespace CsdPool.Theory

set_option autoImplicit false

universe u v w

variable {α : Type u} {β : Type v} {κ : Type w}

/-- Every request has an offer of its own that is right for it. -/
def Assignable (right : α → β → Prop) (requests : List α) (offers : List β) : Prop :=
  ∃ assignment : Fin requests.length → Fin offers.length, Function.Injective assignment ∧
    ∀ i, right requests[i] offers[assignment i]

variable {requests : List α} {offers : List β}

theorem Assignable.mono {right right' : α → β → Prop}
    (weaker : ∀ a ∈ requests, ∀ b ∈ offers, right a b → right' a b)
    (assignable : Assignable right requests offers) : Assignable right' requests offers := by
  obtain ⟨assignment, injective, each⟩ := assignable
  refine ⟨assignment, injective, ?_⟩
  intro i
  exact weaker _ (List.getElem_mem _) _ (List.getElem_mem _) (each i)

/-- An assignment for requests read off something is one for what they are read off. -/
theorem Assignable.of_map {γ : Type w} {read : γ → α} {sources : List γ} {right : α → β → Prop}
    (assignable : Assignable right (sources.map read) offers) :
    Assignable (fun c b => right (read c) b) sources offers := by
  obtain ⟨assignment, injective, each⟩ := assignable
  refine ⟨fun i => assignment (i.cast (List.length_map _).symm), ?_, ?_⟩
  · intro i j same
    exact Fin.cast_injective _ (injective same)
  · intro i
    have paired := each (i.cast (List.length_map _).symm)
    simpa using paired

theorem subperm_map (f : α → β) {l l' : List α} (among : List.Subperm l l') :
    List.Subperm (l.map f) (l'.map f) := by
  obtain ⟨rearranged, permuted, kept⟩ := among
  exact ⟨rearranged.map f, permuted.map f, kept.map f⟩

/-- **By labels.**  An assignment is a matter of how often each label is asked for and offered. -/
theorem assignable_iff [DecidableEq κ] {asked : α → κ} {label : β → κ} :
    Assignable (fun a b => asked a = label b) requests offers ↔
      List.Subperm (requests.map asked) (offers.map label) := by
  constructor
  · rintro ⟨assignment, injective, each⟩
    have drawn : requests.map asked =
        (((List.finRange requests.length).map assignment).map offers.get).map label := by
      rw [List.map_map, List.map_map]
      apply List.ext_getElem
      · simp
      · intro i _ _
        simpa using each ⟨i, _⟩
    have distinct : ((List.finRange requests.length).map assignment).Nodup :=
      (List.nodup_finRange _).map injective
    have within : List.Subperm ((List.finRange requests.length).map assignment)
        (List.finRange offers.length) :=
      distinct.subperm fun i _ => List.mem_finRange i
    have pool : List.Subperm
        ((((List.finRange requests.length).map assignment).map offers.get).map label)
        (((List.finRange offers.length).map offers.get).map label) :=
      subperm_map _ (subperm_map _ within)
    rwa [← drawn, List.map_get_finRange] at pool
  · intro among
    refine ⟨fun i => (among.idxInj (i.cast (List.length_map _).symm)).cast (List.length_map _),
      ?_, ?_⟩
    · intro i j same
      have same' := among.idxInj_injective (Fin.cast_injective _ same)
      exact Fin.cast_injective _ same'
    · intro i
      have drawn := among.getElem_idxInj_eq_getElem (i := i.cast (List.length_map _).symm)
      rw [List.getElem_map, List.getElem_map] at drawn
      exact drawn.symm

/-- Taking an offer with the right label away settles one request and leaves the others as they
were. -/
theorem subperm_cons_iff {k : κ} {asked offered rest : List κ} (taken : offered.Perm (k :: rest)) :
    List.Subperm (k :: asked) offered ↔ List.Subperm asked rest := by
  rw [taken.subperm_left, List.subperm_cons]

theorem subperm_filterMap_iff {label : β → Option κ} {asked : List κ} :
    List.Subperm asked (offers.filterMap label) ↔
      List.Subperm (asked.map some) (offers.map label) := by
  have labelled : (offers.filterMap label).map some = (offers.map label).filter Option.isSome := by
    induction offers with
    | nil => rfl
    | cons b rest ih =>
        cases here : label b with
        | none => simpa [here] using ih
        | some k => simpa [here] using ih
  rw [← List.map_subperm_map_iff (Option.some_injective κ), labelled]
  constructor
  · intro among
    exact among.trans List.filter_sublist.subperm
  · intro among
    have kept := among.filter Option.isSome
    have all : (asked.map some).filter Option.isSome = asked.map some := by
      rw [List.filter_eq_self]
      intro k member
      obtain ⟨asked, -, rfl⟩ := List.mem_map.1 member
      rfl
    rwa [all] at kept

end CsdPool.Theory
