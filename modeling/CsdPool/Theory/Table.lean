/-
# Theory.Table — rows under a unique index

A relational table as the code sees it through one unique index: a list of rows
in insertion order (the `id` column of a serial primary key is the position)
whose keys are pairwise distinct.  The index is a field of the structure, so a
table with two rows under one key cannot be built, and `insert … on conflict do
nothing`, `update … where key = k` and `delete` return tables.

Everything a query or an update can observe by key is `find?`, and each
operation has one equation for it (`find?_insert`, `find?_update`, `find?_put`,
`find?_erase`).  Membership in the row list is the same fact
(`find?_eq_some_iff`), so scans over `rows` and lookups by key agree.
-/
import Mathlib.Algebra.GroupWithZero.Nat
import Mathlib.Data.List.Nodup
import Mathlib.Logic.Basic

namespace CsdPool.Theory

set_option autoImplicit false

universe u v

/-- The columns a unique index reads off a row. -/
class Keyed (ρ : Type u) (κ : outParam (Type v)) where
  key : ρ → κ

open Keyed (key)

/-- Rows in the order of insertion, no two of them under one key. -/
structure Table (ρ : Type u) {κ : Type v} [Keyed ρ κ] where
  rows : List ρ
  unique : (rows.map key).Nodup

namespace Table

variable {ρ : Type u} {κ : Type v} [Keyed ρ κ]

def empty : Table ρ := ⟨[], List.nodup_nil⟩

instance : Inhabited (Table ρ) := ⟨empty⟩

@[simp] theorem rows_empty : (empty : Table ρ).rows = [] := rfl

@[ext] theorem ext {t t' : Table ρ} (same : t.rows = t'.rows) : t = t' := by
  cases t; cases t'; cases same; rfl

variable [DecidableEq κ]

def find? (t : Table ρ) (k : κ) : Option ρ := t.rows.find? fun r => key r = k

/-- Whether there is a row under the key. -/
def contains (t : Table ρ) (k : κ) : Bool := t.rows.any fun r => key r = k

/-- `insert … on conflict do nothing`; the flag is `rows_affected() == 1`. -/
def insert (t : Table ρ) (r : ρ) : Table ρ × Bool :=
  if fresh : key r ∈ t.rows.map key then (t, false)
  else (⟨t.rows ++ [r], by
    rw [List.map_append]
    exact List.nodup_append'.2 ⟨t.unique, List.nodup_singleton _, by
      simpa [List.disjoint_singleton] using fresh⟩⟩, true)

omit [DecidableEq κ] in
/-- Rewriting some rows changes no key, if the rewriting keeps them. -/
theorem map_key_ite (rows : List ρ) (p : ρ → Prop) [DecidablePred p] (f : ρ → ρ)
    (keeps : ∀ r ∈ rows, p r → key (f r) = key r) :
    (rows.map fun r => if p r then f r else r).map key = rows.map key := by
  rw [List.map_map]
  apply List.map_congr_left
  intro r member
  by_cases hit : p r
  · simp [hit, keeps r member hit]
  · simp [hit]

/-- `update … set f where key = k and p`; the flag is `rows_affected() == 1`. -/
def update (t : Table ρ) (k : κ) (p : ρ → Bool) (f : ρ → ρ)
    (keeps : ∀ r, key (f r) = key r := by intro; rfl) : Table ρ × Bool :=
  (⟨t.rows.map fun r => if key r = k ∧ p r then f r else r, by
    rw [map_key_ite t.rows (fun r => key r = k ∧ p r) f fun r _ _ => keeps r]
    exact t.unique⟩,
   t.rows.any fun r => key r = k && p r)

/-- Replace the row under `r`'s key, or add `r`. -/
def put (t : Table ρ) (r : ρ) : Table ρ :=
  if key r ∈ t.rows.map key then
    ⟨t.rows.map fun x => if key x = key r then r else x, by
      rw [map_key_ite t.rows (fun x => key x = key r) (fun _ => r) fun _ _ same => same.symm]
      exact t.unique⟩
  else (t.insert r).1

/-- The row under the key goes, if there is one. -/
def erase (t : Table ρ) (k : κ) : Table ρ :=
  ⟨t.rows.filter fun r => key r ≠ k, t.unique.sublist (List.filter_sublist.map key)⟩

/-! ## Reading by key -/

/-- To find a row under its key is to have it among the rows. -/
theorem find?_eq_some_iff {t : Table ρ} {k : κ} {r : ρ} :
    t.find? k = some r ↔ r ∈ t.rows ∧ key r = k := by
  constructor
  · intro found
    exact ⟨List.mem_of_find?_eq_some found, by simpa using List.find?_some found⟩
  · rintro ⟨member, rfl⟩
    cases found : t.rows.find? fun x => key x = key r with
    | none => simpa using List.find?_eq_none.1 found r member
    | some x =>
        have same : key x = key r := by simpa using List.find?_some found
        have : x = r :=
          List.inj_on_of_nodup_map t.unique (List.mem_of_find?_eq_some found) member same
        rw [find?, found, this]

theorem find?_eq_none_iff {t : Table ρ} {k : κ} :
    t.find? k = none ↔ ∀ r ∈ t.rows, key r ≠ k := by
  simp [find?, List.find?_eq_none]

theorem key_of_find? {t : Table ρ} {k : κ} {r : ρ} (found : t.find? k = some r) : key r = k :=
  (find?_eq_some_iff.1 found).2

theorem mem_of_find? {t : Table ρ} {k : κ} {r : ρ} (found : t.find? k = some r) : r ∈ t.rows :=
  (find?_eq_some_iff.1 found).1

theorem find?_of_mem {t : Table ρ} {r : ρ} (member : r ∈ t.rows) : t.find? (key r) = some r :=
  find?_eq_some_iff.2 ⟨member, rfl⟩

theorem contains_iff {t : Table ρ} {k : κ} : t.contains k = true ↔ ∃ r ∈ t.rows, key r = k := by
  simp [contains]

theorem contains_eq_isSome (t : Table ρ) (k : κ) : t.contains k = (t.find? k).isSome := by
  simp [contains, find?, List.isSome_find?]

@[simp] theorem find?_empty (k : κ) : (empty : Table ρ).find? k = none := rfl

/-! ## Insert -/

theorem mem_map_key_iff {t : Table ρ} {k : κ} : k ∈ t.rows.map key ↔ t.find? k ≠ none := by
  rw [Ne, find?_eq_none_iff]
  simp

/-- Under a taken key nothing goes in. -/
theorem insert_of_taken {t : Table ρ} {r : ρ} (taken : t.find? (key r) ≠ none) :
    t.insert r = (t, false) := by
  rw [insert, dif_pos (mem_map_key_iff.2 taken)]

/-- Under a fresh key the row goes to the end. -/
theorem insert_of_fresh {t : Table ρ} {r : ρ} (fresh : t.find? (key r) = none) :
    (t.insert r).1.rows = t.rows ++ [r] ∧ (t.insert r).2 = true := by
  rw [insert, dif_neg (fun taken => mem_map_key_iff.1 taken fresh)]
  exact ⟨rfl, rfl⟩

/-- One more row in a table: it went in under a fresh key. -/
theorem insert_of_rows {t t' : Table ρ} {r : ρ} (rows : t'.rows = t.rows ++ [r]) :
    t.find? (key r) = none ∧ t' = (t.insert r).1 := by
  have fresh : t.find? (key r) = none := by
    rw [find?_eq_none_iff]
    intro x member same
    have unique := t'.unique
    rw [rows, List.map_append, List.nodup_append] at unique
    exact unique.2.2 (key x) (List.mem_map_of_mem member) (key r) (by simp) same
  exact ⟨fresh, ext (rows.trans (insert_of_fresh fresh).1.symm)⟩

/-- The flag tells that the key was fresh. -/
theorem insert_snd_iff {t : Table ρ} {r : ρ} :
    (t.insert r).2 = true ↔ t.find? (key r) = none := by
  by_cases fresh : t.find? (key r) = none
  · simp [insert_of_fresh fresh, fresh]
  · simp [insert_of_taken fresh, fresh]

/-- After an insert a key has what it had, and the new row if it had nothing. -/
theorem find?_insert (t : Table ρ) (r : ρ) (k : κ) :
    (t.insert r).1.find? k =
      if key r = k ∧ t.find? k = none then some r else t.find? k := by
  by_cases fresh : t.find? (key r) = none
  · unfold find?
    rw [(insert_of_fresh fresh).1, List.find?_append]
    by_cases same : key r = k
    · subst same
      have fresh' : t.rows.find? (fun x => key x = key r) = none := fresh
      simp [fresh']
    · simp [same]
  · rw [insert_of_taken fresh]
    by_cases same : key r = k
    · subst same; simp [fresh]
    · simp [same]

theorem find?_insert_ne {t : Table ρ} {r : ρ} {k : κ} (ne : key r ≠ k) :
    (t.insert r).1.find? k = t.find? k := by
  simp [find?_insert, ne]

theorem find?_insert_of_some {t : Table ρ} {r x : ρ} {k : κ} (found : t.find? k = some x) :
    (t.insert r).1.find? k = some x := by
  simp [find?_insert, found]

/-! ## Update, put, erase -/

theorem find?_map_ite (rows : List ρ) (p : ρ → Prop) [DecidablePred p] (f : ρ → ρ)
    (keeps : ∀ r ∈ rows, p r → key (f r) = key r) (k : κ) :
    (rows.map fun r => if p r then f r else r).find? (fun r => key r = k) =
      (rows.find? fun r => key r = k).map fun r => if p r then f r else r := by
  induction rows with
  | nil => rfl
  | cons r rows ih =>
      have tail := ih fun x member => keeps x (List.mem_cons_of_mem _ member)
      have head : key (if p r then f r else r) = key r := by
        by_cases hit : p r
        · simp [hit, keeps r (List.mem_cons_self ..) hit]
        · simp [hit]
      by_cases same : key r = k
      · simp [head, same]
      · simp [head, same, tail]

theorem find?_update (t : Table ρ) (k : κ) (p : ρ → Bool) (f : ρ → ρ)
    (keeps : ∀ r, key (f r) = key r) (k' : κ) :
    (t.update k p f keeps).1.find? k' =
      (t.find? k').map fun r => if k' = k ∧ p r then f r else r := by
  have step := find?_map_ite t.rows (fun r => key r = k ∧ p r) f (fun r _ _ => keeps r) k'
  unfold find? update
  rw [step]
  cases found : t.rows.find? fun r => key r = k' with
  | none => rfl
  | some r =>
      have same : key r = k' := by simpa using List.find?_some found
      simp [same]

theorem update_snd (t : Table ρ) (k : κ) (p : ρ → Bool) (f : ρ → ρ)
    (keeps : ∀ r, key (f r) = key r) :
    (t.update k p f keeps).2 = (t.find? k).any p := by
  cases found : t.find? k with
  | none =>
      have none_ := find?_eq_none_iff.1 found
      simp only [update, Option.any_none, List.any_eq_false]
      intro r member
      simp [none_ r member]
  | some r =>
      obtain ⟨member, same⟩ := find?_eq_some_iff.1 found
      rw [Bool.eq_iff_iff]
      simp only [update, List.any_eq_true, Option.any_some, Bool.and_eq_true, decide_eq_true_eq]
      constructor
      · rintro ⟨x, inRows, key_, hit⟩
        have : x = r := List.inj_on_of_nodup_map t.unique inRows member (key_.trans same.symm)
        exact this ▸ hit
      · exact fun hit => ⟨r, member, same, hit⟩

/-- An update that hits no row changes nothing. -/
theorem update_of_miss {t : Table ρ} {k : κ} {p : ρ → Bool} {f : ρ → ρ}
    {keeps : ∀ r, key (f r) = key r} (miss : (t.find? k).any p = false) :
    (t.update k p f keeps).1 = t := by
  refine ext ((List.map_congr_left fun r member => if_neg ?_).trans (List.map_id t.rows))
  rintro ⟨rfl, hit⟩
  rw [find?_of_mem member, Option.any_some, hit] at miss
  cases miss

theorem find?_put (t : Table ρ) (r : ρ) (k : κ) :
    (t.put r).find? k = if key r = k then some r else t.find? k := by
  unfold put
  by_cases taken : key r ∈ t.rows.map key
  · rw [if_pos taken]
    have step := find?_map_ite t.rows (fun x => key x = key r) (fun _ => r)
      (fun _ _ same => same.symm) k
    unfold find?
    rw [step]
    have present : t.find? (key r) ≠ none := mem_map_key_iff.1 taken
    by_cases same : key r = k
    · subst same
      cases found : t.rows.find? fun x => key x = key r with
      | none => exact absurd found present
      | some x =>
          have : key x = key r := by simpa using List.find?_some found
          simp [this]
    · rw [if_neg same]
      cases found : t.rows.find? fun x => key x = k with
      | none => rfl
      | some x =>
          have : key x = k := by simpa using List.find?_some found
          simp [this, Ne.symm same]
  · rw [if_neg taken, find?_insert]
    have fresh : t.find? (key r) = none := by
      by_contra present
      exact taken (mem_map_key_iff.2 present)
    by_cases same : key r = k
    · subst same; simp [fresh]
    · simp [same]

theorem mem_put {t : Table ρ} {r x : ρ} :
    x ∈ (t.put r).rows ↔ x = r ∨ (x ∈ t.rows ∧ key x ≠ key r) := by
  have lookup := find?_put t r (key x)
  constructor
  · intro member
    rw [find?_of_mem member] at lookup
    by_cases same : key r = key x
    · rw [if_pos same] at lookup
      exact .inl (Option.some.inj lookup)
    · rw [if_neg same] at lookup
      exact .inr ⟨mem_of_find? lookup.symm, Ne.symm same⟩
  · rintro (rfl | ⟨member, ne⟩)
    · rw [if_pos rfl] at lookup
      exact mem_of_find? lookup
    · rw [if_neg (Ne.symm ne), find?_of_mem member] at lookup
      exact mem_of_find? lookup

/-- What holds of the new row and held of every row holds of every row. -/
theorem forall_put {t : Table ρ} {r : ρ} {p : ρ → Prop} (new : p r) (old : ∀ x ∈ t.rows, p x) :
    ∀ x ∈ (t.put r).rows, p x := by
  intro x member
  rcases mem_put.1 member with rfl | ⟨before, -⟩
  · exact new
  · exact old x before

theorem find?_erase (t : Table ρ) (k k' : κ) :
    (t.erase k).find? k' = if k' = k then none else t.find? k' := by
  by_cases same : k' = k
  · subst same
    rw [if_pos rfl, find?_eq_none_iff]
    intro r member
    simpa using (List.mem_filter.1 member).2
  · rw [if_neg same]
    apply Option.ext
    intro r
    simp only [find?_eq_some_iff, erase, List.mem_filter, decide_eq_true_eq]
    constructor
    · rintro ⟨⟨member, -⟩, key_⟩; exact ⟨member, key_⟩
    · rintro ⟨member, rfl⟩; exact ⟨⟨member, same⟩, rfl⟩

/-- A row put in the place of one under its key leaves the keys as they are. -/
theorem map_key_put_of_mem {t : Table ρ} {r x : ρ} (member : x ∈ t.rows) (same : key x = key r) :
    (t.put r).rows.map key = t.rows.map key := by
  have taken : key r ∈ t.rows.map key := same ▸ List.mem_map_of_mem member
  rw [put, if_pos taken]
  exact map_key_ite t.rows (fun x => key x = key r) (fun _ => r) fun _ _ same => same.symm

theorem rows_put_of_fresh {t : Table ρ} {r : ρ} (fresh : t.find? (key r) = none) :
    (t.put r).rows = t.rows ++ [r] := by
  rw [put, if_neg (fun taken => mem_map_key_iff.1 taken fresh), (insert_of_fresh fresh).1]

/-- Replacing a row leaves it where it is. -/
theorem put_split {t : Table ρ} {r r' : ρ} (found : t.find? (key r') = some r) :
    ∃ before after, t.rows = before ++ r :: after ∧ (t.put r').rows = before ++ r' :: after := by
  obtain ⟨member, same⟩ := find?_eq_some_iff.1 found
  obtain ⟨before, after, rows⟩ := List.append_of_mem member
  have unique := t.unique
  rw [rows, List.map_append, List.map_cons, List.nodup_append', List.nodup_cons,
    List.disjoint_cons_right] at unique
  obtain ⟨-, ⟨notAfter, -⟩, notBefore, -⟩ := unique
  have others : ∀ xs : List ρ, key r ∉ xs.map key →
      (xs.map fun x => if key x = key r' then r' else x) = xs := by
    intro xs absent
    refine (List.map_congr_left fun x inXs => if_neg ?_).trans (List.map_id xs)
    exact fun again => absent ((again.trans same.symm) ▸ List.mem_map_of_mem inXs)
  refine ⟨before, after, rows, ?_⟩
  rw [put, if_pos (mem_map_key_iff.2 (by rw [found]; simp))]
  show t.rows.map (fun x => if key x = key r' then r' else x) = _
  rw [rows, List.map_append, List.map_cons, others _ notBefore, others _ notAfter, if_pos same]

/-- A row put in its own place changes nothing. -/
theorem put_self {t : Table ρ} {r : ρ} (found : t.find? (key r) = some r) : t.put r = t := by
  obtain ⟨before, after, rows, put⟩ := put_split found
  exact ext (put.trans rows.symm)

/-- The row under a key and the others. -/
theorem perm_erase {t : Table ρ} {k : κ} {r : ρ} (found : t.find? k = some r) :
    t.rows.Perm (r :: (t.erase k).rows) := by
  obtain ⟨member, same⟩ := find?_eq_some_iff.1 found
  obtain ⟨before, after, rows⟩ := List.append_of_mem member
  have unique := t.unique
  rw [rows, List.map_append, List.map_cons, List.nodup_append', List.nodup_cons,
    List.disjoint_cons_right] at unique
  obtain ⟨-, ⟨notAfter, -⟩, notBefore, -⟩ := unique
  have others : ∀ xs : List ρ, key r ∉ xs.map key → xs.filter (fun x => key x ≠ k) = xs := by
    intro xs absent
    rw [List.filter_eq_self]
    intro x inXs
    have other : key x ≠ k := fun again => absent ((again.trans same.symm) ▸ List.mem_map_of_mem inXs)
    simpa using other
  show t.rows.Perm (r :: t.rows.filter _)
  rw [rows, List.filter_append, List.filter_cons_of_neg (by simpa using same), others _ notBefore,
    others _ notAfter]
  exact List.perm_middle

/-- A row put in the place of another, and the others. -/
theorem perm_put {t : Table ρ} {r r' : ρ} (found : t.find? (key r') = some r) :
    (t.put r').rows.Perm (r' :: (t.erase (key r')).rows) := by
  obtain ⟨before, after, rows, put⟩ := put_split found
  have erased := perm_erase found
  rw [rows] at erased
  rw [put]
  exact List.perm_middle.trans ((List.perm_middle.symm.trans erased).cons_inv.cons r')

theorem rows_erase_head {t : Table ρ} {r : ρ} {rest : List ρ} (rows : t.rows = r :: rest) :
    (t.erase (key r)).rows = rest := by
  have unique := t.unique
  rw [rows, List.map_cons, List.nodup_cons] at unique
  show t.rows.filter _ = rest
  rw [rows, List.filter_cons_of_neg (by simp), List.filter_eq_self]
  intro x member
  have other : key x ≠ key r := fun same => unique.1 (same ▸ List.mem_map_of_mem member)
  simpa using other

/-- Keep the rows that pass a test. -/
def filter (t : Table ρ) (p : ρ → Bool) : Table ρ :=
  ⟨t.rows.filter p, t.unique.sublist (List.filter_sublist.map key)⟩

omit [DecidableEq κ] in
theorem mem_filter {t : Table ρ} {p : ρ → Bool} {x : ρ} :
    x ∈ (t.filter p).rows ↔ x ∈ t.rows ∧ p x = true :=
  List.mem_filter

theorem find?_filter (t : Table ρ) (p : ρ → Bool) (k : κ) :
    (t.filter p).find? k = (t.find? k).filter p := by
  apply Option.ext
  intro r
  rw [find?_eq_some_iff, mem_filter, Option.filter_eq_some_iff, find?_eq_some_iff]
  tauto

/-- Change every row, and no key. -/
def map (t : Table ρ) (f : ρ → ρ) (keeps : ∀ r, key (f r) = key r := by intro; rfl) : Table ρ :=
  ⟨t.rows.map f, by
    rw [List.map_map, show key ∘ f = (key : ρ → κ) from funext keeps]
    exact t.unique⟩

omit [DecidableEq κ] in
/-- Rows with distinct keys weigh no more than the rows that outweigh them key by key. -/
theorem sum_map_le_of_keys {xs ys : List ρ} (weight : ρ → Nat) (unique : (xs.map key).Nodup)
    (outweighed : ∀ x ∈ xs, ∃ y ∈ ys, key y = key x ∧ weight x ≤ weight y) :
    (xs.map weight).sum ≤ (ys.map weight).sum := by
  induction xs generalizing ys with
  | nil => exact Nat.zero_le _
  | cons x xs ih =>
      obtain ⟨y, member, same, le⟩ := outweighed x List.mem_cons_self
      obtain ⟨before, after, rfl⟩ := List.append_of_mem member
      have distinct := List.nodup_cons.1 unique
      have rest : (xs.map weight).sum ≤ ((before ++ after).map weight).sum := by
        apply ih distinct.2
        intro x' inRest
        obtain ⟨y', member', same', le'⟩ := outweighed x' (List.mem_cons_of_mem _ inRest)
        refine ⟨y', ?_, same', le'⟩
        have other : y' ≠ y := by
          rintro rfl
          exact distinct.1 (same ▸ same' ▸ List.mem_map_of_mem inRest)
        simp only [List.mem_append, List.mem_cons] at member' ⊢
        tauto
      simp only [List.map_append, List.map_cons, List.sum_append, List.sum_cons] at rest ⊢
      omega

/-- A row that drops out of a listing takes its weight with it. -/
theorem sum_filter_drop {t : Table ρ} {r : ρ} (member : r ∈ t.rows) {p q : ρ → Bool}
    (weight : ρ → Nat) (others : ∀ x ∈ t.rows, key x ≠ key r → q x = p x) (was : p r = true)
    (dropped : q r = false) :
    ((t.rows.filter q).map weight).sum + weight r = ((t.rows.filter p).map weight).sum := by
  have split := perm_erase (find?_of_mem member)
  have rest : (t.erase (key r)).rows.filter q = (t.erase (key r)).rows.filter p := by
    apply List.filter_congr
    intro x inRest
    obtain ⟨inRows, other⟩ := List.mem_filter.1 inRest
    exact others x inRows (of_decide_eq_true other)
  rw [((split.filter q).map weight).sum_nat, ((split.filter p).map weight).sum_nat,
    List.filter_cons_of_pos was, List.filter_cons_of_neg (by simp [dropped]), rest,
    List.map_cons, List.sum_cons, Nat.add_comm]

end Table

end CsdPool.Theory
