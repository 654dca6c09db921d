/-
# Theory.Listing — one selection, listed in two orders

Two stores that hold the same rows list them in different orders, and a limit cuts each listing
after its first rows.  A limit that cuts nothing keeps the same rows of both; otherwise it does if
no row that one listing loses stands, in the other, before one that it keeps (`CutAlike`).

* `CutAlike.take_perm`: then what is left of the two listings is the same but for its order.
* `keys_filter_perm`: two tables select the same keys if they agree about each of them.
* `Descending`: by amount, the largest first, and then by name.
* `map_insertionSort_eq`: an order that the rows share with what they show lists the same.
* `pairwise_insertionSort_stable`: rows that may stand either way stand as they stood before.
* `mem_take_iff_ahead`: a limit keeps the rows that have fewer than that ahead of them.
* `map_perm_of_keys`: rows of two kinds with the same keys show the same, where rows with one key
  do.
-/
import Mathlib.Data.List.Perm.Basic
import Mathlib.Data.List.Forall2
import Mathlib.Data.List.Sort
import Mathlib.Data.List.TakeWhile
import Mathlib.Order.Basic
import CsdPool.Theory.Table

namespace CsdPool.Theory

set_option autoImplicit false

universe u v w

variable {α : Type u}

/-- In the order of `ys` nothing that the limit cuts off `xs` stands before what it keeps. -/
def CutAlike (xs ys : List α) (limit : Nat) : Prop :=
  ys.Pairwise fun earlier later => later ∈ xs.take limit → earlier ∈ xs.take limit

instance [DecidableEq α] (xs ys : List α) (limit : Nat) : Decidable (CutAlike xs ys limit) :=
  inferInstanceAs (Decidable (ys.Pairwise _))

/-- What passes a test that never starts passing again stands in front. -/
theorem filter_eq_take {p : α → Bool} {ys : List α}
    (front : ys.Pairwise fun earlier later => p later = true → p earlier = true) :
    ys.filter p = ys.take (ys.filter p).length := by
  induction ys with
  | nil => rfl
  | cons y rest ih =>
      obtain ⟨before, later⟩ := List.pairwise_cons.1 front
      by_cases passes : p y = true
      · rw [List.filter_cons_of_pos passes, List.length_cons, List.take_succ_cons, ← ih later]
      · have none_ : rest.filter p = [] := by
          rw [List.filter_eq_nil_iff]
          exact fun z member hit => passes (before z member hit)
        rw [List.filter_cons_of_neg passes, none_]
        rfl

/-- **The limit keeps the same rows.** -/
theorem CutAlike.take_perm {xs ys : List α} {limit : Nat} (alike : CutAlike xs ys limit)
    (perm : xs.Perm ys) (distinct : xs.Nodup) : (xs.take limit).Perm (ys.take limit) := by
  classical
  have split : (xs.take limit ++ xs.drop limit).Nodup := by rwa [List.take_append_drop]
  have apart := List.nodup_append.1 split
  have kept : xs.filter (· ∈ xs.take limit) = xs.take limit := by
    conv_lhs => rw [← List.take_append_drop limit xs, List.filter_append]
    rw [List.take_append_drop, List.filter_eq_self.2 fun x member => decide_eq_true member,
      List.filter_eq_nil_iff.2, List.append_nil]
    intro x dropped again
    exact apart.2.2 x (of_decide_eq_true again) x dropped rfl
  have front : ys.filter (· ∈ xs.take limit) = ys.take (ys.filter (· ∈ xs.take limit)).length :=
    filter_eq_take (alike.imp fun ordered later =>
      decide_eq_true (ordered (of_decide_eq_true later)))
  have same : (xs.take limit).Perm (ys.filter (· ∈ xs.take limit)) := by
    conv_lhs => rw [← kept]
    exact perm.filter _
  have length : (ys.filter (· ∈ xs.take limit)).length = min limit ys.length := by
    rw [← same.length_eq, List.length_take, perm.length_eq]
  rw [front, length, List.take_eq_take_min.symm] at same
  exact same

/-- Rows of two kinds with the same keys show the same, where rows with one key do. -/
theorem map_perm_of_keys {ρ : Type v} {ρ' : Type v} {β : Type w} {key : ρ → α} {key' : ρ' → α}
    {f : ρ → β} {g : ρ' → β} {xs : List ρ} {ys : List ρ'}
    (keys : (xs.map key).Perm (ys.map key'))
    (same : ∀ x ∈ xs, ∀ y ∈ ys, key x = key' y → f x = g y) : (xs.map f).Perm (ys.map g) := by
  have own : List.Forall₂ (fun k y => k = key' y) (ys.map key') ys :=
    List.forall₂_map_left_iff.2 (List.forall₂_same.2 fun _ _ => rfl)
  obtain ⟨zs, paired, reordered⟩ := List.perm_comp_forall₂ keys own
  have shown : xs.map f = zs.map g := by
    have same' : ∀ x ∈ xs, ∀ z ∈ zs, key x = key' z → f x = g z :=
      fun x inXs z inZs => same x inXs z (reordered.mem_iff.1 inZs)
    rw [List.forall₂_map_left_iff] at paired
    clear keys same own reordered
    induction paired with
    | nil => rfl
    | cons equal _ ih =>
        rw [List.map_cons, List.map_cons,
          same' _ List.mem_cons_self _ List.mem_cons_self equal,
          ih fun x inXs z inZs => same' x (List.mem_cons_of_mem _ inXs) z
            (List.mem_cons_of_mem _ inZs)]
  rw [shown]
  exact reordered.map g

/-- Rows that are ordered as what they show are listed as what they show. -/
theorem map_insertionSort_eq {β : Type v} {r : α → α → Prop} {s : β → β → Prop} [DecidableRel r]
    [DecidableRel s] [Std.Total r] [IsTrans α r] [Std.Total s] [IsTrans β s] {f : α → β}
    {xs : List α} {ys : List β} (perm : (xs.map f).Perm ys)
    (keeps : ∀ a ∈ xs, ∀ b ∈ xs, r a b → s (f a) (f b))
    (antisymm : ∀ a ∈ ys, ∀ b ∈ ys, s a b → s b a → a = b) :
    (xs.insertionSort r).map f = ys.insertionSort s := by
  have sorted : (xs.insertionSort r).Pairwise fun a b => s (f a) (f b) :=
    (List.pairwise_insertionSort r xs).imp_of_mem fun inA inB =>
      keeps _ ((List.mem_insertionSort r).1 inA) _ ((List.mem_insertionSort r).1 inB)
  have same : ((xs.insertionSort r).map f).Perm (ys.insertionSort s) :=
    ((List.perm_insertionSort r xs).map f).trans (perm.trans (List.perm_insertionSort s ys).symm)
  exact List.Perm.eq_of_pairwise
    (fun a b inA inB => antisymm a ((List.mem_insertionSort s).1 (same.mem_iff.1 inA)) b
      ((List.mem_insertionSort s).1 inB))
    (List.pairwise_map.2 sorted) (List.pairwise_insertionSort s ys) same

/-- Rows that may stand either way stand as they stood before. -/
theorem pairwise_insertionSort_stable {r q : α → α → Prop} [DecidableRel r] [Std.Total r]
    [IsTrans α r] {xs : List α} (stood : xs.Pairwise q) :
    (xs.insertionSort r).Pairwise fun a b => r a b ∧ (r b a → q a b) := by
  induction xs with
  | nil => exact List.Pairwise.nil
  | cons x rest ih =>
      obtain ⟨first, later⟩ := List.pairwise_cons.1 stood
      have sorted := List.pairwise_insertionSort r (x :: rest)
      rw [List.insertionSort_cons, List.orderedInsert_eq_take_drop] at sorted ⊢
      obtain ⟨-, behind, across⟩ := List.pairwise_append.1 sorted
      have stable := ih later
      rw [← List.takeWhile_append_dropWhile (p := fun b => ¬ r x b)
        (l := rest.insertionSort r)] at stable
      obtain ⟨front, back, through⟩ := List.pairwise_append.1 stable
      refine List.pairwise_append.2 ⟨front, List.pairwise_cons.2 ⟨?_, back⟩, ?_⟩
      · intro b member
        have inRest := (List.mem_insertionSort r).1 ((List.dropWhile_sublist _).mem member)
        exact ⟨(List.pairwise_cons.1 behind).1 b member, fun _ => first b inRest⟩
      · intro b inFront c member
        rcases List.mem_cons.1 member with rfl | inBack
        · have passed := List.mem_takeWhile_imp inFront
          exact ⟨across b inFront _ List.mem_cons_self, fun back =>
            absurd back (of_decide_eq_true passed)⟩
        · exact through b inFront c inBack

/-- Of rows in an order, a limit keeps those that have fewer rows than that ahead of them. -/
theorem mem_take_iff_ahead {s : α → α → Prop} [DecidableRel s]
    (asymm : ∀ {a b}, s a b → ¬ s b a) {xs : List α} (ordered : xs.Pairwise s) {x : α}
    {limit : Nat} :
    x ∈ xs.take limit ↔ x ∈ xs ∧ (xs.filter (s · x)).length < limit := by
  induction xs generalizing limit with
  | nil => simp
  | cons a rest ih =>
      obtain ⟨first, later⟩ := List.pairwise_cons.1 ordered
      cases limit with
      | zero => simp
      | succ limit =>
          rw [List.take_succ_cons, List.mem_cons, List.mem_cons, ih later]
          by_cases same : x = a
          · subst same
            have none_ : (x :: rest).filter (s · x) = [] := by
              rw [List.filter_eq_nil_iff]
              intro b member hit
              have hit : s b x := of_decide_eq_true hit
              rcases List.mem_cons.1 member with rfl | behind
              · exact asymm hit hit
              · exact asymm (first b behind) hit
            simp [none_]
          · rw [or_iff_right same, or_iff_right same]
            refine and_congr_right fun behind => ?_
            have ahead : (a :: rest).filter (s · x) = a :: rest.filter (s · x) :=
              List.filter_cons_of_pos (decide_eq_true (first x behind))
            rw [ahead, List.length_cons, Nat.succ_lt_succ_iff]

section Descending

variable {ν : Type v} {κ : Type w} [LinearOrder ν] [LinearOrder κ] (amount : α → ν) (name : α → κ)

/-- The largest amount first, and equal amounts by name. -/
def Descending (a b : α) : Prop :=
  amount b < amount a ∨ amount a = amount b ∧ name a ≤ name b

theorem descending_total : Std.Total (Descending amount name) := ⟨fun a b => by
  rcases lt_trichotomy (amount a) (amount b) with less | same | more
  · exact .inr (.inl less)
  · rcases le_total (name a) (name b) with first | second
    · exact .inl (.inr ⟨same, first⟩)
    · exact .inr (.inr ⟨same.symm, second⟩)
  · exact .inl (.inl more)⟩

theorem descending_trans : IsTrans α (Descending amount name) := ⟨fun a b c first second => by
  rcases first with more | ⟨same, before⟩
  · rcases second with more' | ⟨same', -⟩
    · exact .inl (more'.trans more)
    · exact .inl (same' ▸ more)
  · rcases second with more' | ⟨same', before'⟩
    · exact .inl (same ▸ more')
    · exact .inr ⟨same.trans same', before.trans before'⟩⟩

/-- Only rows of one name stand both ways. -/
theorem Descending.name_eq {a b : α} (before : Descending amount name a b)
    (after : Descending amount name b a) : name a = name b := by
  rcases before with more | ⟨same, first⟩
  · rcases after with more' | ⟨same, -⟩
    · exact absurd more more'.asymm
    · exact absurd more (same ▸ lt_irrefl _)
  · rcases after with more' | ⟨-, second⟩
    · exact absurd more' (same ▸ lt_irrefl _)
    · exact le_antisymm first second

end Descending

/-- A second test that keeps out only what counts for nothing. -/
theorem sum_filter_and {xs : List α} {p q : α → Bool} {f : α → Nat}
    (nothing : ∀ x ∈ xs, p x = true → q x = false → f x = 0) :
    ((xs.filter fun x => p x && q x).map f).sum = ((xs.filter p).map f).sum := by
  induction xs with
  | nil => rfl
  | cons x rest ih =>
      have later := ih fun y member => nothing y (List.mem_cons_of_mem _ member)
      have here := nothing x List.mem_cons_self
      cases first : p x with
      | false => simpa [first] using later
      | true =>
          cases second : q x with
          | false => simpa [first, second, here first second] using later
          | true => simpa [first, second] using later

section Tables

variable {ρ : Type u} {ρ' : Type v} {κ : Type w} [Keyed ρ κ] [Keyed ρ' κ] [DecidableEq κ]
  {t : Table ρ} {t' : Table ρ'} {p : ρ → Bool} {q : ρ' → Bool}

theorem mem_keys_filter {k : κ} :
    k ∈ (t.rows.filter p).map Keyed.key ↔ (t.find? k).any p = true := by
  constructor
  · intro member
    obtain ⟨row, selected, rfl⟩ := List.mem_map.1 member
    obtain ⟨inRows, passes⟩ := List.mem_filter.1 selected
    rw [Table.find?_of_mem inRows]
    exact passes
  · intro hit
    obtain ⟨row, found, passes⟩ := (Option.any_eq_true _ _).1 hit
    obtain ⟨inRows, rfl⟩ := Table.find?_eq_some_iff.1 found
    exact List.mem_map_of_mem (List.mem_filter.2 ⟨inRows, passes⟩)

theorem keys_filter_perm (same : ∀ k : κ, (t.find? k).any p = (t'.find? k).any q) :
    ((t.rows.filter p).map (Keyed.key : ρ → κ)).Perm ((t'.rows.filter q).map Keyed.key) := by
  rw [List.perm_ext_iff_of_nodup (t.unique.sublist (List.filter_sublist.map _))
    (t'.unique.sublist (List.filter_sublist.map _))]
  intro k
  rw [mem_keys_filter, mem_keys_filter, same]

end Tables

end CsdPool.Theory
