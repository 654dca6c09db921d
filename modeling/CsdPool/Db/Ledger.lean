/-
# Db.Ledger — `append_ledger_entries` and the balance cache

One call of `append_ledger_entries` is one transaction, a fold of
`appendLedgerEntry`: upsert the miner, insert the entry `on conflict do nothing`,
and only if a row went in, move the amount between the columns of
`balance_cache`.  `lockRecipient` is the loop body of
`create_locked_payout_batch_with_status` as far as it touches the same two
tables; unlike an appended `payout_lock` it refuses to clamp.

What the rest of the development uses of a transaction:

* `appendLedgerEntries_grows`: the old rows stay in place and what was added is
  among the entries; `appendLedgerEntries_present`: every entry's key is present
  afterwards;
* `appendLedgerEntries_total`: it commits when every miner has a legal address.
-/
import CsdPool.Db.Schema
import CsdPool.Theory.Transaction

namespace CsdPool

open Theory (Keyed Table)

set_option autoImplicit false

namespace Balance

/-! ## The arms of the balance match -/

def creditImmature (amount : Int) (b : Balance) : Balance :=
  { b with immatureBaseUnits := b.immatureBaseUnits + amount }

def mature (amount : Int) (b : Balance) : Balance :=
  { b with
    immatureBaseUnits := max (b.immatureBaseUnits - amount) 0
    confirmedBaseUnits := b.confirmedBaseUnits + amount }

def reverseMatured (amount : Int) (b : Balance) : Balance :=
  { b with confirmedBaseUnits := max (b.confirmedBaseUnits - amount) 0 }

def reverseImmature (amount : Int) (b : Balance) : Balance :=
  { b with immatureBaseUnits := max (b.immatureBaseUnits - amount) 0 }

def lock (amount : Int) (b : Balance) : Balance :=
  { b with
    confirmedBaseUnits := max (b.confirmedBaseUnits - amount) 0
    lockedBaseUnits := b.lockedBaseUnits + amount }

def send (amount : Int) (b : Balance) : Balance :=
  { b with
    lockedBaseUnits := max (b.lockedBaseUnits - amount) 0
    paidBaseUnits := b.paidBaseUnits + amount }

def unlock (amount : Int) (b : Balance) : Balance :=
  { b with
    lockedBaseUnits := max (b.lockedBaseUnits - amount) 0
    confirmedBaseUnits := b.confirmedBaseUnits + amount }

end Balance

namespace Books

/-- `insert into balance_cache values (excluded) on conflict(miner_id) do update set …`. -/
def upsertBalance (t : Table BalanceRow) (excluded : BalanceRow) (set : Balance → Balance) :
    Table BalanceRow :=
  let (inserted, fresh) := t.insert excluded
  if fresh then inserted
  else (t.update excluded.miner (fun _ => true) fun r => { r with balance := set r.balance }).1

/-- `insert into balance_cache(miner_id) values ($1) on conflict(miner_id) do nothing`. -/
def ensureBalance (t : Table BalanceRow) (miner : Address) : Table BalanceRow :=
  (t.insert ⟨miner, {}⟩).1

/-- `update balance_cache set … where miner_id = $1 and p`. -/
def updateBalance (t : Table BalanceRow) (miner : Address) (p : Balance → Bool)
    (set : Balance → Balance) : Table BalanceRow × Bool :=
  t.update miner (fun r => p r.balance) fun r => { r with balance := set r.balance }

/-- `select exists (… kind = 'reward_mature' …)` for a reversal's miner and reference. -/
def wasMatured (ledger : Table LedgerEntry) (miner : Address) (refType refId : String) : Bool :=
  ledger.contains ⟨some miner, .rewardMature, refType, refId⟩

/-- The `match (&entry.kind, miner_id)` after an entry went in. -/
def moveBalance (ledger : Table LedgerEntry) (cache : Table BalanceRow) (entry : LedgerEntry) :
    Table BalanceRow :=
  match entry.kind, entry.miner with
  | .rewardImmature, some miner =>
      if entry.amountBaseUnits > 0 then
        upsertBalance cache ⟨miner, { immatureBaseUnits := entry.amountBaseUnits }⟩
          (Balance.creditImmature entry.amountBaseUnits)
      else cache
  | .rewardMature, some miner =>
      if entry.amountBaseUnits > 0 then
        upsertBalance cache ⟨miner, { confirmedBaseUnits := entry.amountBaseUnits }⟩
          (Balance.mature entry.amountBaseUnits)
      else cache
  | .rewardOrphanReversal, some miner =>
      if entry.amountBaseUnits < 0 then
        let amountAbs := negI128 entry.amountBaseUnits
        if wasMatured ledger miner entry.refType entry.refId then
          (updateBalance (ensureBalance cache miner) miner (fun _ => true)
            (Balance.reverseMatured amountAbs)).1
        else
          (updateBalance (ensureBalance cache miner) miner (fun _ => true)
            (Balance.reverseImmature amountAbs)).1
      else cache
  | .payoutLock, some miner =>
      if entry.amountBaseUnits < 0 then
        (updateBalance (ensureBalance cache miner) miner (fun _ => true)
          (Balance.lock (negI128 entry.amountBaseUnits))).1
      else cache
  | .payoutSent, some miner =>
      if entry.amountBaseUnits < 0 then
        (updateBalance cache miner (fun _ => true) (Balance.send (negI128 entry.amountBaseUnits))).1
      else cache
  | .payoutFailedUnlock, some miner =>
      if entry.amountBaseUnits > 0 then
        (updateBalance cache miner (fun _ => true) (Balance.unlock entry.amountBaseUnits)).1
      else cache
  | _, _ => cache

def upsertMiner : Option Address → Except RepositoryError (Option Address)
  | some address => (minerIdInTx address).map some
  | none => .ok none

def appendLedgerEntry (books : Books) (entry : LedgerEntry) : Except RepositoryError Books :=
  match upsertMiner entry.miner with
  | .error e => .error e
  | .ok _ =>
      let (ledgerEntries, inserted) := books.ledgerEntries.insert entry
      if inserted then
        .ok ⟨ledgerEntries, moveBalance ledgerEntries books.balanceCache entry⟩
      else .ok books

/-- The `payout_lock` entry `create_locked_payout_batch_with_status` writes. -/
def lockEntry (batchId : String) (recipient : PayoutRecipient) : LedgerEntry where
  miner := some recipient.miner
  amountBaseUnits := -(recipient.amountBaseUnits : Int)
  kind := .payoutLock
  refType := "payout_batch"
  refId := batchId

/-- The ledger insert and the guarded balance update for one recipient. -/
def lockRecipient (books : Books) (batchId : String) (recipient : PayoutRecipient) :
    Except RepositoryError Books :=
  let ledgerEntries := (books.ledgerEntries.insert (lockEntry batchId recipient)).1
  let (balanceCache, locked) := updateBalance books.balanceCache recipient.miner
    (fun b => decide ((recipient.amountBaseUnits : Int) ≤ b.confirmedBaseUnits))
    (Balance.lock recipient.amountBaseUnits)
  if locked then .ok ⟨ledgerEntries, balanceCache⟩
  else .error (.insufficientPayoutBalance recipient.miner)

def appendLedgerEntries (books : Books) (entries : List LedgerEntry) :
    Except RepositoryError Books :=
  entries.foldlM appendLedgerEntry books

/-- The columns of a miner; a miner without a row has the defaults. -/
def balance (books : Books) (miner : Address) : Balance :=
  ((books.balanceCache.find? miner).map (·.balance)).getD {}

def hasBalanceRow (books : Books) (miner : Address) : Bool :=
  (books.balanceCache.find? miner).isSome

/-! ## One entry -/

/-- A legal miner column: absent, or an address the schema admits. -/
def LegalMiner (entry : LedgerEntry) : Prop :=
  ∀ miner, entry.miner = some miner → matchesLowerHex 40 miner = true

theorem upsertMiner_ok {miner : Option Address} :
    (∃ m, upsertMiner miner = .ok m) ↔ ∀ a, miner = some a → matchesLowerHex 40 a = true := by
  cases miner with
  | none => simp [upsertMiner]
  | some address =>
      by_cases legal : matchesLowerHex 40 address = true
      · simp [upsertMiner, minerIdInTx, legal, Except.map]
      · simp [upsertMiner, minerIdInTx, legal, Except.map]

/-- **The two outcomes of an append.**  A taken key changes nothing; a fresh one
adds the entry and moves the amount. -/
theorem appendLedgerEntry_ok {books books' : Books} {entry : LedgerEntry}
    (appended : books.appendLedgerEntry entry = .ok books') :
    LegalMiner entry ∧
      ((books.ledgerEntries.find? entry.ledgerKey ≠ none ∧ books' = books) ∨
       (books.ledgerEntries.find? entry.ledgerKey = none ∧
        books'.ledgerEntries.rows = books.ledgerEntries.rows ++ [entry] ∧
        books'.balanceCache = moveBalance books'.ledgerEntries books.balanceCache entry)) := by
  unfold appendLedgerEntry at appended
  split at appended
  · cases appended
  · rename_i m upserted
    refine ⟨upsertMiner_ok.1 ⟨m, upserted⟩, ?_⟩
    by_cases fresh : books.ledgerEntries.find? (Keyed.key entry) = none
    · obtain ⟨rows, went⟩ := Table.insert_of_fresh fresh
      simp only [went, if_true, Except.ok.injEq] at appended
      subst appended
      exact .inr ⟨fresh, rows, rfl⟩
    · rw [Table.insert_of_taken fresh] at appended
      simp only [Bool.false_eq_true, if_false, Except.ok.injEq] at appended
      exact .inl ⟨fresh, appended.symm⟩

theorem appendLedgerEntry_total (books : Books) {entry : LedgerEntry}
    (legal : LegalMiner entry) : ∃ books', books.appendLedgerEntry entry = .ok books' := by
  obtain ⟨m, upserted⟩ := upsertMiner_ok.2 legal
  unfold appendLedgerEntry
  rw [upserted]
  dsimp only
  split
  · exact ⟨_, rfl⟩
  · exact ⟨_, rfl⟩

theorem find?_appendLedgerEntry {books books' : Books} {entry : LedgerEntry}
    (appended : books.appendLedgerEntry entry = .ok books') (k : LedgerKey) :
    books'.ledgerEntries.find? k =
      if entry.ledgerKey = k ∧ books.ledgerEntries.find? k = none then some entry
      else books.ledgerEntries.find? k := by
  obtain ⟨-, ⟨taken, rfl⟩ | ⟨fresh, rows, -⟩⟩ := appendLedgerEntry_ok appended
  · by_cases same : entry.ledgerKey = k
    · subst same; simp [taken]
    · simp [same]
  · have : books'.ledgerEntries = (books.ledgerEntries.insert entry).1 :=
      Table.ext (rows.trans (Table.insert_of_fresh fresh).1.symm)
    rw [this, Table.find?_insert]
    rfl

/-- A recipient is locked only out of a confirmed balance that covers him. -/
theorem lockRecipient_ok {books books' : Books} {batchId : String} {recipient : PayoutRecipient}
    (locked : books.lockRecipient batchId recipient = .ok books') :
    books'.ledgerEntries = (books.ledgerEntries.insert (lockEntry batchId recipient)).1 ∧
      books'.balanceCache = (updateBalance books.balanceCache recipient.miner
        (fun b => decide ((recipient.amountBaseUnits : Int) ≤ b.confirmedBaseUnits))
        (Balance.lock recipient.amountBaseUnits)).1 ∧
      ∃ row, books.balanceCache.find? recipient.miner = some row ∧
        (recipient.amountBaseUnits : Int) ≤ row.balance.confirmedBaseUnits := by
  unfold lockRecipient at locked
  dsimp only at locked
  split at locked
  · rename_i hit
    cases locked
    refine ⟨rfl, rfl, ?_⟩
    rw [updateBalance, Table.update_snd] at hit
    cases found : books.balanceCache.find? recipient.miner with
    | none => rw [found] at hit; cases hit
    | some row =>
        rw [found] at hit
        exact ⟨row, rfl, by simpa using hit⟩
  · cases locked

/-! ## A whole transaction -/

/-- Rows are only ever added at the end, and only from the transaction's entries. -/
structure Grows (entries : List LedgerEntry) (books books' : Books) : Prop where
  extends_ : books.ledgerEntries.rows <+: books'.ledgerEntries.rows
  added : ∀ x ∈ books'.ledgerEntries.rows, x ∈ books.ledgerEntries.rows ∨ x ∈ entries

namespace Grows

variable {entries : List LedgerEntry} {books mid books' : Books}

theorem refl (entries : List LedgerEntry) (books : Books) : Grows entries books books :=
  ⟨List.prefix_rfl, fun _ member => .inl member⟩

theorem trans (first : Grows entries books mid) (later : Grows entries mid books') :
    Grows entries books books' := by
  refine ⟨first.extends_.trans later.extends_, fun x member => ?_⟩
  rcases later.added x member with before | new
  · exact first.added x before
  · exact .inr new

theorem mono {entries' : List LedgerEntry} (grows : Grows entries books books')
    (among : ∀ x ∈ entries, x ∈ entries') : Grows entries' books books' :=
  ⟨grows.extends_, fun x member => (grows.added x member).imp_right (among x)⟩

theorem kept (grows : Grows entries books books') :
    ∀ x ∈ books.ledgerEntries.rows, x ∈ books'.ledgerEntries.rows :=
  fun _ member => grows.extends_.subset member

/-- The rows a transaction added: some of its entries, each under a fresh key. -/
theorem rows (grows : Grows entries books books') :
    ∃ added, books'.ledgerEntries.rows = books.ledgerEntries.rows ++ added ∧
      ∀ x ∈ added, x ∈ entries ∧ books.ledgerEntries.find? x.ledgerKey = none := by
  obtain ⟨added, rows⟩ := grows.extends_
  refine ⟨added, rows.symm, fun x member => ?_⟩
  have inNew : x ∈ books'.ledgerEntries.rows := rows ▸ List.mem_append_right _ member
  have fresh : books.ledgerEntries.find? x.ledgerKey = none := by
    rw [Table.find?_eq_none_iff]
    intro y old same
    have unique := books'.ledgerEntries.unique
    rw [← rows, List.map_append, List.nodup_append] at unique
    exact unique.2.2 _ (List.mem_map_of_mem old) _ (List.mem_map_of_mem member) same
  refine ⟨(grows.added x inNew).resolve_left fun old => ?_, fresh⟩
  exact Table.find?_eq_none_iff.1 fresh x old rfl

theorem present (grows : Grows entries books books') {k : LedgerKey}
    (found : books.ledgerEntries.find? k ≠ none) : books'.ledgerEntries.find? k ≠ none := by
  obtain ⟨x, hit⟩ := Option.ne_none_iff_exists'.1 found
  obtain ⟨member, same⟩ := Table.find?_eq_some_iff.1 hit
  exact Option.ne_none_iff_exists'.2
    ⟨x, Table.find?_eq_some_iff.2 ⟨grows.kept x member, same⟩⟩

end Grows

theorem appendLedgerEntry_grows {books books' : Books} {entry : LedgerEntry}
    (appended : books.appendLedgerEntry entry = .ok books') : Grows [entry] books books' := by
  obtain ⟨-, ⟨-, rfl⟩ | ⟨-, rows, -⟩⟩ := appendLedgerEntry_ok appended
  · exact Grows.refl _ _
  · refine ⟨⟨[entry], rows.symm⟩, fun x member => ?_⟩
    rw [rows] at member
    exact List.mem_append.1 member

theorem appendLedgerEntries_grows {books books' : Books} {entries : List LedgerEntry}
    (appended : books.appendLedgerEntries entries = .ok books') : Grows entries books books' := by
  refine Theory.foldlM_invariant (I := Grows entries books) ?_ (Grows.refl _ _) appended
  intro entry inEntries s t sofar step
  exact sofar.trans ((appendLedgerEntry_grows step).mono fun x member =>
    List.mem_singleton.1 member ▸ inEntries)

theorem lockRecipient_grows {books books' : Books} {batchId : String}
    {recipient : PayoutRecipient} (locked : books.lockRecipient batchId recipient = .ok books') :
    Grows [lockEntry batchId recipient] books books' := by
  obtain ⟨ledger, -, -⟩ := lockRecipient_ok locked
  rw [Table.ext_iff] at ledger
  by_cases fresh : books.ledgerEntries.find? (Keyed.key (lockEntry batchId recipient)) = none
  · rw [(Table.insert_of_fresh fresh).1] at ledger
    refine ⟨⟨_, ledger.symm⟩, fun x member => ?_⟩
    rw [ledger] at member
    exact List.mem_append.1 member
  · rw [Table.insert_of_taken fresh] at ledger
    exact ⟨ledger ▸ List.prefix_rfl, fun x member => .inl (ledger ▸ member)⟩

theorem appendLedgerEntry_present {books books' : Books} {entry : LedgerEntry}
    (appended : books.appendLedgerEntry entry = .ok books') :
    books'.ledgerEntries.find? entry.ledgerKey ≠ none := by
  rw [find?_appendLedgerEntry appended]
  by_cases fresh : books.ledgerEntries.find? entry.ledgerKey = none
  · simp [fresh]
  · simp [fresh]

theorem appendLedgerEntries_present {books books' : Books} {entries : List LedgerEntry}
    (appended : books.appendLedgerEntries entries = .ok books') :
    ∀ entry ∈ entries, books'.ledgerEntries.find? entry.ledgerKey ≠ none :=
  Theory.foldlM_establishes
    (P := fun entry (b : Books) => b.ledgerEntries.find? entry.ledgerKey ≠ none)
    (fun _ _ _ _ found step => (appendLedgerEntry_grows step).present found)
    (fun _ _ _ _ step => appendLedgerEntry_present step) appended

/-- Keys that none of the entries carries are untouched. -/
theorem find?_appendLedgerEntries_ne {books books' : Books} {entries : List LedgerEntry}
    (appended : books.appendLedgerEntries entries = .ok books') {k : LedgerKey}
    (other : ∀ entry ∈ entries, entry.ledgerKey ≠ k) :
    books'.ledgerEntries.find? k = books.ledgerEntries.find? k := by
  refine Theory.foldlM_invariant
    (I := fun b : Books => b.ledgerEntries.find? k = books.ledgerEntries.find? k) ?_ rfl appended
  intro entry member s t sofar step
  rw [find?_appendLedgerEntry step, if_neg (fun taken => other entry member taken.1), sofar]

/-- Entries under distinct fresh keys all go in, in their order. -/
theorem appendLedgerEntries_fresh {books books' : Books} {entries : List LedgerEntry}
    (appended : books.appendLedgerEntries entries = .ok books')
    (distinct : (entries.map LedgerEntry.ledgerKey).Nodup)
    (fresh : ∀ entry ∈ entries, books.ledgerEntries.find? entry.ledgerKey = none) :
    books'.ledgerEntries.rows = books.ledgerEntries.rows ++ entries := by
  induction entries generalizing books with
  | nil => simp [Theory.foldlM_ok_nil.1 appended]
  | cons entry rest ih =>
      obtain ⟨mid, first, later⟩ := Theory.foldlM_ok_cons.1 appended
      rw [List.map_cons, List.nodup_cons] at distinct
      have new := fresh entry (List.mem_cons_self ..)
      obtain ⟨-, ⟨taken, -⟩ | ⟨-, rows, -⟩⟩ := appendLedgerEntry_ok first
      · exact absurd new taken
      rw [ih later distinct.2 ?_, rows, List.append_assoc, List.singleton_append]
      intro other member
      rw [find?_appendLedgerEntry first, if_neg, fresh other (List.mem_cons_of_mem _ member)]
      exact fun same => distinct.1 (same.1 ▸ List.mem_map_of_mem member)

/-- Entries under taken keys change nothing. -/
theorem appendLedgerEntries_taken {books books' : Books} {entries : List LedgerEntry}
    (appended : books.appendLedgerEntries entries = .ok books')
    (taken : ∀ entry ∈ entries, books.ledgerEntries.find? entry.ledgerKey ≠ none) :
    books' = books := by
  refine Theory.foldlM_invariant (I := fun b => b = books) ?_ rfl appended
  rintro entry member s t rfl step
  obtain ⟨-, ⟨-, same⟩ | ⟨fresh, -, -⟩⟩ := appendLedgerEntry_ok step
  · exact same
  · exact absurd fresh (taken entry member)

theorem appendLedgerEntries_total (books : Books) {entries : List LedgerEntry}
    (legal : ∀ entry ∈ entries, LegalMiner entry) :
    ∃ books', books.appendLedgerEntries entries = .ok books' := by
  obtain ⟨books', committed, -⟩ := Theory.foldlM_total (I := fun _ : Books => True)
    (fun entry member s _ =>
      let ⟨t, step⟩ := appendLedgerEntry_total s (legal entry member)
      ⟨t, step, trivial⟩)
    (s := books) trivial
  exact ⟨books', committed⟩

end Books

end CsdPool
