/-
# Memory.Listings — a listing of a map and of a table

Memory lists a map in the order of its keys.  A limit that keeps the same keys in that order and in
the order of the database keeps rows that show the same (`listing_perm`).
-/
import CsdPool.Memory.Calls

namespace CsdPool

open Theory (Keyed Table CutAlike)

set_option autoImplicit false

section

variable {α ρ β : Type} [Keyed ρ String] {t : Table ρ} {q : ρ → Bool} {keys : List String}

theorem values_perm (t : Table ρ) : (values t).Perm t.rows := List.perm_insertionSort _ _

theorem mem_values {row : ρ} : row ∈ values t ↔ row ∈ t.rows := (values_perm t).mem_iff

/-- The selected keys of a map, in the order of the keys. -/
theorem keys_values_filter (perm : keys.Perm ((t.rows.filter q).map Keyed.key)) :
    ((values t).filter q).map Keyed.key = keys.insertionSort (· ≤ ·) := by
  have sorted : (((values t).filter q).map (Keyed.key : ρ → String)).Pairwise (· ≤ ·) := by
    have all : ((values t).map (Keyed.key : ρ → String)).Pairwise (· ≤ ·) := by
      rw [List.pairwise_map]
      have : Std.Total fun a b : ρ => (Keyed.key a : String) ≤ Keyed.key b :=
        ⟨fun a b => le_total _ _⟩
      have : IsTrans ρ fun a b => (Keyed.key a : String) ≤ Keyed.key b :=
        ⟨fun a b c => le_trans⟩
      exact List.pairwise_insertionSort _ _
    exact all.sublist (List.filter_sublist.map _)
  have same : (((values t).filter q).map (Keyed.key : ρ → String)).Perm
      (keys.insertionSort (· ≤ ·)) := by
    refine List.Perm.trans ?_ (perm.symm.trans (List.perm_insertionSort _ _).symm)
    exact ((values_perm t).filter q).map _
  exact same.eq_of_pairwise' sorted (List.pairwise_insertionSort _ _)

/-- A row looked up in a listing. -/
theorem find?_values_filter (key : String) :
    ((values t).filter q).find? (fun row => decide (Keyed.key row = key)) =
      (t.find? key).filter q := by
  cases found : ((values t).filter q).find? (fun row => decide (Keyed.key row = key)) with
  | some row =>
      have own : Keyed.key row = key := by simpa using List.find?_some found
      obtain ⟨inMap, passes⟩ := List.mem_filter.1 (List.mem_of_find?_eq_some found)
      rw [← own, Table.find?_of_mem (mem_values.1 inMap), Option.filter_some_pos passes]
  | none =>
      cases here : t.find? key with
      | none => rfl
      | some row =>
          obtain ⟨inRows, own⟩ := Table.find?_eq_some_iff.1 here
          symm
          rw [Option.filter_some_neg]
          rw [← Bool.not_eq_true]
          intro passes
          exact List.find?_eq_none.1 found row
            (List.mem_filter.2 ⟨mem_values.2 inRows, passes⟩) (decide_eq_true own)

/-- **The two listings under one limit.** -/
theorem listing_perm {xs : List α} {key : α → String} {f : α → β} {g : ρ → β} {limit : Int}
    (perm : (xs.map key).Perm ((t.rows.filter q).map Keyed.key))
    (alike : KeysCutAlike (xs.map key) limit)
    (same : ∀ x ∈ xs, ∀ row ∈ t.rows, key x = Keyed.key row → f x = g row) :
    ((xs.take limit.toNat).map f).Perm
      ((((values t).filter q).take (limitLen limit)).map g) := by
  have distinct : (xs.map key).Nodup :=
    perm.nodup_iff.2 (t.unique.sublist (List.filter_sublist.map _))
  have cut := CutAlike.take_perm alike (List.perm_insertionSort _ _).symm distinct
  rw [← keys_values_filter perm, ← List.map_take, ← List.map_take] at cut
  refine Theory.map_perm_of_keys cut fun x inXs row inRows => ?_
  refine same x (List.mem_of_mem_take inXs) row ?_
  exact mem_values.1 (List.mem_filter.1 (List.mem_of_mem_take inRows)).1

end

theorem limited_ok {α : Type} {limit : Int} (nonneg : 0 ≤ limit)
    (listing : Nat → Except RepositoryError α) :
    Db.limited limit listing = listing limit.toNat := if_pos nonneg

end CsdPool
