/-
# Memory.Balances — the ledger and the balances of both repositories

The confirmed column of a miner moves with his own entries only, in both repositories.  So memory's
rows after a list of entries are a fold over each miner's own ones (`moveBalances_ok`), and a list
in which no miner comes twice may be appended in any order (`moveBalances_perm`): the entries that
close a batch follow the draft's order in memory, and the miners' in the database.

`BooksMirror` is the correspondence: the same entries but for their order, the same confirmed
balance of every miner, and a row in the database behind every row of memory.  Not the other way
round: an immature reward leaves a row of nothing confirmed in the database only.
-/
import CsdPool.Memory.Calls

namespace CsdPool

open Theory (Keyed Table)

set_option autoImplicit false

namespace InMemoryRepository

/-! ## One row -/

def credited (miner : Address) (amount : Nat) : Option MinerBalance → MinerBalance
  | some balance =>
      { balance with confirmedBaseUnits := u128 (balance.confirmedBaseUnits + amount) }
  | none => { miner := miner, address := miner, confirmedBaseUnits := amount }

def debited (amount : Nat) (balance : MinerBalance) : MinerBalance :=
  { balance with confirmedBaseUnits := balance.confirmedBaseUnits - amount }

/-- The row of the entry's miner after it. -/
def movedRow (miner : Address) (row : Option MinerBalance) (entry : LedgerEntry) :
    Option MinerBalance :=
  match entry.kind with
  | .rewardMature | .payoutFailedUnlock =>
      if entry.amountBaseUnits > 0 then some (credited miner entry.amountBaseUnits.toNat row)
      else row
  | .rewardOrphanReversal | .payoutLock =>
      if entry.amountBaseUnits < 0 then row.map (debited (negI128 entry.amountBaseUnits).toNat)
      else row
  | _ => row

theorem find?_credit (balances : Table MinerBalance) (miner : Address) (amount : Nat)
    (other : Address) :
    (credit balances miner amount).find? other =
      if miner = other then some (credited miner amount (balances.find? miner))
      else balances.find? other := by
  unfold credit
  cases found : balances.find? miner with
  | none =>
      rw [Table.find?_put]
      rfl
  | some balance =>
      have own : balance.miner = miner := Table.key_of_find? found
      dsimp only
      rw [Table.find?_put]
      simp only [Keyed.key, own, credited]

theorem find?_debit (balances : Table MinerBalance) (miner : Address) (amount : Nat)
    (other : Address) :
    (debit balances miner amount).find? other =
      if miner = other then (balances.find? miner).map (debited amount)
      else balances.find? other := by
  unfold debit
  cases found : balances.find? miner with
  | none =>
      by_cases same : miner = other
      · rw [if_pos same, ← same]
        exact found
      · rw [if_neg same]
  | some balance =>
      have own : balance.miner = miner := Table.key_of_find? found
      dsimp only
      rw [Table.find?_put]
      simp only [Keyed.key, own, debited, Option.map_some]

/-! ## The moves of a list of entries -/

/-- `-amount` of a debit does not overflow. -/
def Fits (entry : LedgerEntry) : Prop :=
  entry.miner ≠ none → entry.kind = .rewardOrphanReversal ∨ entry.kind = .payoutLock →
    -2 ^ 127 < entry.amountBaseUnits

theorem u128TryFrom_neg {amount : Int} (negative : amount < 0) (fits : -2 ^ 127 < amount) :
    u128TryFrom (negI128 amount) = .ok (negI128 amount).toNat := by
  unfold u128TryFrom negI128
  rw [if_neg (by omega : ¬ amount = -2 ^ 127), if_pos (by omega : 0 ≤ -amount)]

theorem u128TryFrom_pos {amount : Int} (positive : amount > 0) :
    u128TryFrom amount = .ok amount.toNat := if_pos (Int.le_of_lt positive)

theorem moveBalance_ok (balances : Table MinerBalance) {entry : LedgerEntry} (fits : Fits entry) :
    ∃ balances', moveBalance balances entry = .ok balances' ∧ ∀ miner,
      balances'.find? miner = if entry.miner = some miner then
        movedRow miner (balances.find? miner) entry else balances.find? miner := by
  obtain ⟨minerOf, amount, kind, refType, refId⟩ := entry
  cases minerOf with
  | none => cases kind <;> exact ⟨balances, rfl, fun miner => (if_neg (by simp)).symm⟩
  | some own =>
      have fits' : kind = .rewardOrphanReversal ∨ kind = .payoutLock → -2 ^ 127 < amount :=
        fits (by simp)
      have still : ∀ row : Address → Option MinerBalance,
          (∀ miner, row miner = balances.find? miner) → ∀ miner, balances.find? miner =
            if some own = some miner then row miner else balances.find? miner := by
        intro row same miner
        rw [same, ite_self]
      have credits : ∀ miner,
          (credit balances own amount.toNat).find? miner =
            if some own = some miner then some (credited miner amount.toNat (balances.find? miner))
            else balances.find? miner := by
        intro miner
        rw [find?_credit]
        by_cases same : own = miner
        · rw [if_pos same, if_pos (congrArg some same), same]
        · rw [if_neg same, if_neg (by simpa using same)]
      have debits : ∀ miner,
          (debit balances own (negI128 amount).toNat).find? miner =
            if some own = some miner then
              (balances.find? miner).map (debited (negI128 amount).toNat)
            else balances.find? miner := by
        intro miner
        rw [find?_debit]
        by_cases same : own = miner
        · rw [if_pos same, if_pos (congrArg some same), same]
        · rw [if_neg same, if_neg (by simpa using same)]
      cases kind with
      | rewardMature | payoutFailedUnlock =>
          simp only [moveBalance, movedRow]
          by_cases positive : amount > 0
          · simp only [if_pos positive]
            rw [u128TryFrom_pos positive]
            exact ⟨_, rfl, credits⟩
          · simp only [if_neg positive]
            exact ⟨_, rfl, still _ fun _ => rfl⟩
      | rewardOrphanReversal | payoutLock =>
          simp only [moveBalance, movedRow]
          by_cases negative : amount < 0
          · simp only [if_pos negative]
            rw [u128TryFrom_neg negative (fits' (by simp))]
            exact ⟨_, rfl, debits⟩
          · simp only [if_neg negative]
            exact ⟨_, rfl, still _ fun _ => rfl⟩
      | rewardImmature | payoutSent | poolFee | manualAdjustment =>
          exact ⟨_, rfl, still _ fun _ => rfl⟩

/-- The entries of one miner, in their order. -/
def ownEntries (miner : Address) (entries : List LedgerEntry) : List LedgerEntry :=
  entries.filter fun entry => entry.miner = some miner

/-- **The rows after a list of entries.** -/
theorem moveBalances_ok {entries : List LedgerEntry} (fits : ∀ entry ∈ entries, Fits entry) :
    ∀ balances : Table MinerBalance, ∃ balances', moveBalances balances entries =
      (.ok (), balances') ∧ ∀ miner, balances'.find? miner =
        (ownEntries miner entries).foldl (movedRow miner) (balances.find? miner) := by
  induction entries with
  | nil => exact fun balances => ⟨balances, rfl, fun _ => rfl⟩
  | cons entry rest ih =>
      intro balances
      obtain ⟨mid, moved, rows⟩ := moveBalance_ok balances
        (fits entry List.mem_cons_self)
      obtain ⟨balances', later, rows'⟩ :=
        ih (fun other member => fits other (List.mem_cons_of_mem _ member)) mid
      refine ⟨balances', by rw [moveBalances, moved]; exact later, fun miner => ?_⟩
      rw [rows', rows, ownEntries, ownEntries]
      by_cases own : entry.miner = some miner
      · rw [if_pos own, List.filter_cons_of_pos (by simpa using own), List.foldl_cons]
      · rw [if_neg own, List.filter_cons_of_neg (by simpa using own)]

/-- No miner twice, so each has at most one entry of his own. -/
theorem ownEntries_perm {entries entries' : List LedgerEntry} (perm : entries.Perm entries')
    (distinct : (entries.map (·.miner)).Nodup) (miner : Address) :
    ownEntries miner entries = ownEntries miner entries' := by
  have short : (ownEntries miner entries).length ≤ 1 := by
    have once : ((ownEntries miner entries).map (·.miner)).Nodup :=
      distinct.sublist (List.filter_sublist.map _)
    have all : ∀ entry ∈ (ownEntries miner entries).map (·.miner), entry = some miner := by
      intro _ member
      obtain ⟨entry, inOwn, rfl⟩ := List.mem_map.1 member
      simpa using (List.mem_filter.1 inOwn).2
    rw [List.eq_replicate_of_mem all, List.nodup_replicate, List.length_map] at once
    exact once
  have same : (ownEntries miner entries).Perm (ownEntries miner entries') := perm.filter _
  match own : ownEntries miner entries, short with
  | [], _ =>
      rw [own] at same
      exact same.nil_eq
  | [entry], _ =>
      rw [own] at same
      exact (List.singleton_perm.1 same)

theorem moveBalances_perm (balances : Table MinerBalance) {entries entries' : List LedgerEntry}
    (perm : entries.Perm entries') (distinct : (entries.map (·.miner)).Nodup)
    (fits : ∀ entry ∈ entries, Fits entry) :
    ∃ balances' balances'', moveBalances balances entries = (.ok (), balances') ∧
      moveBalances balances entries' = (.ok (), balances'') ∧
      ∀ miner, balances''.find? miner = balances'.find? miner := by
  obtain ⟨balances', moved, rows⟩ := moveBalances_ok fits balances
  obtain ⟨balances'', moved', rows'⟩ :=
    moveBalances_ok (fun entry member => fits entry (perm.mem_iff.2 member)) balances
  exact ⟨balances', balances'', moved, moved', fun miner => by
    rw [rows, rows', ownEntries_perm perm distinct]⟩

end InMemoryRepository

/-! ## Rows of the balance cache are never lost -/

namespace Books

theorem isSome_upsertBalance (cache : Table BalanceRow) (excluded : BalanceRow)
    (set : Balance → Balance) (miner : Address) :
    ((upsertBalance cache excluded set).find? miner).isSome =
      (decide (excluded.miner = miner) || (cache.find? miner).isSome) := by
  unfold upsertBalance
  by_cases fresh : cache.find? (Keyed.key excluded) = none
  · dsimp only
    rw [(Table.insert_of_fresh fresh).2]
    simp only [if_true, Table.find?_insert, Keyed.key]
    by_cases same : excluded.miner = miner
    · have none_ : cache.find? miner = none := same ▸ fresh
      simp [same, none_]
    · simp [same]
  · rw [Table.insert_of_taken fresh]
    simp only [Bool.false_eq_true, if_false, Table.find?_update, Option.isSome_map]
    by_cases same : excluded.miner = miner
    · have some_ : (cache.find? miner).isSome = true := by
        rw [← same]
        exact Option.isSome_iff_ne_none.2 fresh
      simp [some_]
    · simp [same]

theorem isSome_updateBalance (cache : Table BalanceRow) (own : Address) (p : Balance → Bool)
    (set : Balance → Balance) (miner : Address) :
    ((updateBalance cache own p set).1.find? miner).isSome = (cache.find? miner).isSome := by
  rw [updateBalance, Table.find?_update, Option.isSome_map]

theorem isSome_ensureBalance {cache : Table BalanceRow} {miner : Address} (own : Address)
    (present : (cache.find? miner).isSome = true) :
    ((ensureBalance cache own).find? miner).isSome = true := by
  obtain ⟨row, found⟩ := Option.isSome_iff_exists.1 present
  rw [ensureBalance, Table.find?_insert_of_some found]
  rfl

theorem isSome_moveBalance {cache : Table BalanceRow} {miner : Address} (ledger : Table LedgerEntry)
    (entry : LedgerEntry) (present : (cache.find? miner).isSome = true) :
    ((moveBalance ledger cache entry).find? miner).isSome = true := by
  obtain ⟨minerOf, amount, kind, refType, refId⟩ := entry
  cases minerOf with
  | none => cases kind <;> exact present
  | some own =>
      cases kind with
      | rewardImmature | rewardMature =>
          simp only [moveBalance]
          split
          · rw [isSome_upsertBalance, present, Bool.or_true]
          · exact present
      | rewardOrphanReversal =>
          simp only [moveBalance]
          split
          · split
            · rw [isSome_updateBalance]
              exact isSome_ensureBalance own present
            · rw [isSome_updateBalance]
              exact isSome_ensureBalance own present
          · exact present
      | payoutLock =>
          simp only [moveBalance]
          split
          · rw [isSome_updateBalance]
            exact isSome_ensureBalance own present
          · exact present
      | payoutSent | payoutFailedUnlock =>
          simp only [moveBalance]
          split
          · rw [isSome_updateBalance]
            exact present
          · exact present
      | poolFee | manualAdjustment => exact present

/-- A row stays, and a matured reward leaves one. -/
theorem hasBalanceRow_append {books books' : Books} {entry : LedgerEntry} {miner : Address}
    (appended : books.appendLedgerEntry entry = .ok books')
    (fresh : books.ledgerEntries.find? entry.ledgerKey = none)
    (present : books.hasBalanceRow miner = true ∨ entry.kind = .rewardMature ∧
      entry.miner = some miner ∧ entry.amountBaseUnits > 0) :
    books'.hasBalanceRow miner = true := by
  obtain ⟨-, ⟨taken, -⟩ | ⟨-, -, cache⟩⟩ := appendLedgerEntry_ok appended
  · exact absurd fresh taken
  unfold hasBalanceRow at present ⊢
  rw [cache]
  rcases present with row | ⟨kind, own, positive⟩
  · exact isSome_moveBalance _ entry row
  · rw [moveBalance, kind, own]
    simp only [if_pos positive]
    rw [isSome_upsertBalance, decide_eq_true rfl, Bool.true_or]

end Books

/-! ## The correspondence -/

open InMemoryRepository

/-- What a row of memory shows; no row shows nothing. -/
def confirmedIn (row : Option MinerBalance) : Nat := (row.map (·.confirmedBaseUnits)).getD 0

theorem confirmedIn_credited {miner : Address} {amount : Nat} {row : Option MinerBalance}
    (small : confirmedIn row + amount < 2 ^ 128) :
    confirmedIn (some (credited miner amount row)) = confirmedIn row + amount := by
  cases row with
  | none => simp [credited, confirmedIn]
  | some balance => exact u128_of_lt small

theorem confirmedIn_debited (amount : Nat) (row : Option MinerBalance) :
    confirmedIn (row.map (debited amount)) = confirmedIn row - amount := by
  cases row with
  | none => simp [confirmedIn]
  | some balance => rfl

structure BooksMirror (books : Books) (ledger : List LedgerEntry) (balances : Table MinerBalance) :
    Prop where
  entries : ledger.Perm books.ledgerEntries.rows
  inRange : ∀ entry ∈ books.ledgerEntries.rows,
    -2 ^ 127 ≤ entry.amountBaseUnits ∧ entry.amountBaseUnits < 2 ^ 127
  confirmed : ∀ miner,
    (confirmedIn (balances.find? miner) : Int) = (books.balance miner).confirmedBaseUnits
  bounded : ∀ miner, confirmedIn (balances.find? miner) < 2 ^ 128
  listed : ∀ miner balance, balances.find? miner = some balance →
    balance.address = miner ∧ books.hasBalanceRow miner = true

namespace BooksMirror

variable {books books' : Books} {ledger ledger' : List LedgerEntry}
  {balances balances' : Table MinerBalance}

/-- Nothing but the entries and the rows of the miners counts. -/
theorem congr (mirror : BooksMirror books ledger balances) (entries : ledger'.Perm ledger)
    (rows : ∀ miner, balances'.find? miner = balances.find? miner) :
    BooksMirror books ledger' balances' := by
  have same : ∀ miner, confirmedIn (balances'.find? miner) =
      confirmedIn (balances.find? miner) := fun miner => by
    rw [rows]
  refine ⟨entries.trans mirror.entries, mirror.inRange, fun miner => ?_, fun miner => ?_,
    fun miner balance found => mirror.listed miner balance (by rwa [rows] at found)⟩
  · rw [same]
    exact mirror.confirmed miner
  · rw [same]
    exact mirror.bounded miner

end BooksMirror

namespace BooksMirror

variable {books books' : Books} {ledger : List LedgerEntry}
  {balances balances' : Table MinerBalance}
  {entry : LedgerEntry}

/-- The confirmed balance of the entry's miner after it. -/
theorem confirmed_movedRow (mirror : BooksMirror books ledger balances) {miner : Address}
    (own : entry.miner = some miner) (alike : books.MovesAlike entry) :
    (confirmedIn (movedRow miner (balances.find? miner) entry) : Int) =
        (books.moved entry miner).confirmedBaseUnits ∧
      confirmedIn (movedRow miner (balances.find? miner) entry) < 2 ^ 128 := by
  have before := mirror.confirmed miner
  have small := mirror.bounded miner
  obtain ⟨minerOf, amount, kind, refType, refId⟩ := entry
  cases own
  cases kind with
  | rewardMature =>
      simp only [Books.MovesAlike] at alike
      simp only [movedRow, Books.moved, Balance.guarded, Balance.mature]
      by_cases positive : amount > 0
      · have room := alike positive
        rw [if_pos positive, if_pos positive, confirmedIn_credited (by omega)]
        dsimp only
        omega
      · rw [if_neg positive, if_neg positive]
        exact ⟨before, small⟩
  | payoutFailedUnlock =>
      simp only [Books.MovesAlike] at alike
      simp only [movedRow, Books.moved, Balance.guarded, Balance.unlock]
      by_cases positive : amount > 0
      · obtain ⟨present, room⟩ := alike positive
        rw [if_pos positive, if_pos ⟨positive, present⟩, confirmedIn_credited (by omega)]
        dsimp only
        omega
      · rw [if_neg positive, if_neg fun both => positive both.1]
        exact ⟨before, small⟩
  | rewardOrphanReversal =>
      simp only [Books.MovesAlike] at alike
      simp only [movedRow, Books.moved, Balance.guarded, Balance.reverseMatured,
        Balance.reverseImmature]
      by_cases negative : amount < 0
      · obtain ⟨fits, matured⟩ := alike negative
        have abs : negI128 amount = -amount := if_neg (by omega)
        rw [if_pos negative, if_pos negative, confirmedIn_debited, abs]
        rcases matured with matured | nothing
        · rw [matured, if_pos rfl]
          dsimp only
          omega
        · split
          · dsimp only
            omega
          · dsimp only
            omega
      · rw [if_neg negative, if_neg negative]
        exact ⟨before, small⟩
  | payoutLock =>
      simp only [Books.MovesAlike] at alike
      simp only [movedRow, Books.moved, Balance.guarded, Balance.lock]
      by_cases negative : amount < 0
      · have abs : negI128 amount = -amount := if_neg (by have := alike negative; omega)
        rw [if_pos negative, if_pos negative, confirmedIn_debited, abs]
        dsimp only
        omega
      · rw [if_neg negative, if_neg negative]
        exact ⟨before, small⟩
  | rewardImmature =>
      simp only [movedRow, Books.moved, Balance.guarded, Balance.creditImmature]
      split
      · exact ⟨before, small⟩
      · exact ⟨before, small⟩
  | payoutSent =>
      simp only [movedRow, Books.moved, Balance.guarded, Balance.send]
      split
      · exact ⟨before, small⟩
      · exact ⟨before, small⟩
  | poolFee | manualAdjustment => exact ⟨before, small⟩

/-- A row of memory that an entry leaves was there, or the entry credits its miner. -/
theorem listed_movedRow (mirror : BooksMirror books ledger balances) {miner : Address}
    {balance : MinerBalance} (alike : books.MovesAlike entry) (own : entry.miner = some miner)
    (found : movedRow miner (balances.find? miner) entry = some balance) :
    balance.address = miner ∧ (books.hasBalanceRow miner = true ∨ entry.kind = .rewardMature ∧
      entry.miner = some miner ∧ entry.amountBaseUnits > 0) := by
  have creditedAddress : ∀ amount,
      (credited miner amount (balances.find? miner)).address = miner := by
    intro amount
    cases row : balances.find? miner with
    | none => rfl
    | some old => exact (mirror.listed miner old row).1
  obtain ⟨minerOf, amount, kind, refType, refId⟩ := entry
  cases own
  have kept : ∀ balance, balances.find? miner = some balance → balance.address = miner ∧
      (books.hasBalanceRow miner = true ∨ kind = .rewardMature ∧ some miner = some miner ∧
        amount > 0) := fun balance row =>
    ⟨(mirror.listed miner balance row).1, .inl (mirror.listed miner balance row).2⟩
  cases kind with
  | rewardMature =>
      simp only [movedRow] at found
      split at found
      · rename_i positive
        cases found
        exact ⟨creditedAddress _, .inr ⟨rfl, rfl, positive⟩⟩
      · exact kept balance found
  | payoutFailedUnlock =>
      simp only [movedRow] at found
      split at found
      · rename_i positive
        cases found
        exact ⟨creditedAddress _, .inl (alike positive).1⟩
      · exact kept balance found
  | rewardOrphanReversal | payoutLock =>
      simp only [movedRow] at found
      split at found
      · obtain ⟨old, row, rfl⟩ := Option.map_eq_some_iff.1 found
        exact kept old row
      · exact kept balance found
  | rewardImmature | payoutSent | poolFee | manualAdjustment => exact kept balance found

/-- The entry stands in both, and the balances are what its move leaves. -/
theorem entered (mirror : BooksMirror books ledger balances) (alike : books.MovesAlike entry)
    (range : -2 ^ 127 ≤ entry.amountBaseUnits ∧ entry.amountBaseUnits < 2 ^ 127)
    (added : books'.ledgerEntries.rows = books.ledgerEntries.rows ++ [entry])
    (columns : ∀ miner, (books'.balance miner).confirmedBaseUnits =
      if entry.miner = some miner then (books.moved entry miner).confirmedBaseUnits
      else (books.balance miner).confirmedBaseUnits)
    (present : ∀ miner, (books.hasBalanceRow miner = true ∨ entry.kind = .rewardMature ∧
      entry.miner = some miner ∧ entry.amountBaseUnits > 0) → books'.hasBalanceRow miner = true)
    (rows : ∀ miner, balances'.find? miner = if entry.miner = some miner then
      movedRow miner (balances.find? miner) entry else balances.find? miner) :
    BooksMirror books' (ledger ++ [entry]) balances' := by
  refine ⟨?_, ?_, fun miner => ?_, fun miner => ?_, fun miner balance found => ?_⟩
  · rw [added]
    exact mirror.entries.append_right [entry]
  · intro other member
    rw [added] at member
    rcases List.mem_append.1 member with old | new
    · exact mirror.inRange other old
    · rw [List.mem_singleton.1 new]
      exact range
  · rw [rows, columns]
    by_cases own : entry.miner = some miner
    · rw [if_pos own, if_pos own]
      exact (mirror.confirmed_movedRow own alike).1
    · rw [if_neg own, if_neg own]
      exact mirror.confirmed miner
  · rw [rows]
    by_cases own : entry.miner = some miner
    · rw [if_pos own]
      exact (mirror.confirmed_movedRow own alike).2
    · rw [if_neg own]
      exact mirror.bounded miner
  · rw [rows] at found
    by_cases own : entry.miner = some miner
    · rw [if_pos own] at found
      obtain ⟨address, row⟩ := mirror.listed_movedRow alike own found
      exact ⟨address, present miner row⟩
    · rw [if_neg own] at found
      obtain ⟨address, row⟩ := mirror.listed miner balance found
      exact ⟨address, present miner (.inl row)⟩

/-- **One entry.** -/
theorem appendEntry (mirror : BooksMirror books ledger balances) (alike : books.EntryAlike entry)
    (appended : books.appendLedgerEntry entry = .ok books')
    (rows : ∀ miner, balances'.find? miner = if entry.miner = some miner then
      movedRow miner (balances.find? miner) entry else balances.find? miner) :
    BooksMirror books' (ledger ++ [entry]) balances' := by
  obtain ⟨-, fresh, range, moves⟩ := alike
  obtain ⟨-, ⟨taken, -⟩ | ⟨-, added, -⟩⟩ := Books.appendLedgerEntry_ok appended
  · exact absurd fresh taken
  · refine mirror.entered moves range added (fun miner => ?_)
      (fun _ => Books.hasBalanceRow_append appended fresh) rows
    rw [Books.balance_appendLedgerEntry fresh appended, apply_ite Balance.confirmedBaseUnits]

end BooksMirror

namespace BooksMirror

/-- **A balance is set.** -/
theorem setBalance {books : Books} {ledger : List LedgerEntry} {balances : Table MinerBalance}
    {balance : MinerBalance} (mirror : BooksMirror books ledger balances)
    (address : balance.address = balance.miner) (small : balance.confirmedBaseUnits < 2 ^ 128) :
    BooksMirror
      { books with
        balanceCache := Books.upsertBalance books.balanceCache
          ⟨balance.miner, { confirmedBaseUnits := balance.confirmedBaseUnits }⟩
          fun b => { b with confirmedBaseUnits := balance.confirmedBaseUnits } }
      ledger (balances.put balance) := by
  have rows : ∀ miner, (balances.put balance).find? miner =
      if balance.miner = miner then some balance else balances.find? miner :=
    fun miner => Table.find?_put balances balance miner
  have columns := Books.shown_upsertBalance books.balanceCache
    ⟨balance.miner, { confirmedBaseUnits := balance.confirmedBaseUnits }⟩
    (fun b => { b with confirmedBaseUnits := balance.confirmedBaseUnits }) rfl
  have present := Books.isSome_upsertBalance books.balanceCache
    ⟨balance.miner, { confirmedBaseUnits := balance.confirmedBaseUnits }⟩
    (fun b => { b with confirmedBaseUnits := balance.confirmedBaseUnits })
  refine ⟨mirror.entries, mirror.inRange, fun miner => ?_, fun miner => ?_,
    fun miner row found => ?_⟩
  · rw [Books.balance_eq_shown, columns, rows]
    by_cases own : balance.miner = miner
    · rw [if_pos own, if_pos own]
      rfl
    · rw [if_neg own, if_neg own]
      exact mirror.confirmed miner
  · rw [rows]
    by_cases own : balance.miner = miner
    · rw [if_pos own]
      exact small
    · rw [if_neg own]
      exact mirror.bounded miner
  · rw [rows] at found
    by_cases own : balance.miner = miner
    · rw [if_pos own] at found
      cases found
      refine ⟨address.trans own, (present miner).trans ?_⟩
      rw [decide_eq_true own, Bool.true_or]
    · rw [if_neg own] at found
      obtain ⟨named, behind⟩ := mirror.listed miner row found
      refine ⟨named, (present miner).trans ?_⟩
      rw [show (books.balanceCache.find? miner).isSome = true from behind, Bool.or_true]

end BooksMirror

theorem fits_of_alike {books : Books} {entry : LedgerEntry} (alike : books.EntryAlike entry) :
    Fits entry := by
  obtain ⟨-, -, -, moves⟩ := alike
  obtain ⟨minerOf, amount, kind, refType, refId⟩ := entry
  intro someone kinds
  obtain ⟨miner, rfl⟩ := Option.ne_none_iff_exists'.1 someone
  by_cases negative : amount < 0
  · rcases kinds with kind_ | kind_
    · cases kind_
      exact (moves negative).1
    · cases kind_
      exact moves negative
  · dsimp only
    omega

namespace BooksMirror

/-- **A transaction of entries.**  Both repositories take it, and correspond afterwards. -/
theorem append {entries : List LedgerEntry} :
    ∀ {books : Books} {ledger : List LedgerEntry} {balances : Table MinerBalance},
      BooksMirror books ledger balances → books.AppendAlike entries →
      (∀ entry ∈ entries, Fits entry) ∧
      ∃ books' balances', books.appendLedgerEntries entries = .ok books' ∧
        moveBalances balances entries = (.ok (), balances') ∧
        BooksMirror books' (ledger ++ entries) balances' := by
  induction entries with
  | nil =>
      intro books ledger balances mirror _
      refine ⟨fun _ member => absurd member List.not_mem_nil, books, balances, rfl, rfl, ?_⟩
      rwa [List.append_nil]
  | cons entry rest ih =>
      intro books ledger balances mirror alike
      obtain ⟨here, later⟩ := alike
      obtain ⟨mid, appended⟩ := Books.appendLedgerEntry_total books here.1
      obtain ⟨balances₁, moved, rows⟩ := moveBalance_ok balances (fits_of_alike here)
      rw [appended] at later
      obtain ⟨fits, books', balances', all, moves, mirror'⟩ :=
        ih (mirror.appendEntry here appended rows) later
      refine ⟨fun other member => ?_, books', balances',
        Theory.foldlM_ok_cons.2 ⟨mid, appended, all⟩, by rw [moveBalances, moved]; exact moves, ?_⟩
      · rcases List.mem_cons.1 member with rfl | inRest
        · exact fits_of_alike here
        · exact fits other inRest
      · rwa [List.append_assoc, List.singleton_append] at mirror'

/-- **The entries in another order**, where no miner comes twice. -/
theorem reorder {books : Books} {ledger entries entries' : List LedgerEntry}
    {balances balances' : Table MinerBalance} (perm : entries'.Perm entries)
    (distinct : (entries.map (·.miner)).Nodup) (fits : ∀ entry ∈ entries, Fits entry)
    (moved : moveBalances balances entries = (.ok (), balances'))
    (mirror : BooksMirror books (ledger ++ entries) balances') :
    ∃ balances'', moveBalances balances entries' = (.ok (), balances'') ∧
      BooksMirror books (ledger ++ entries') balances'' := by
  obtain ⟨first, second, moved', movedBy, same⟩ :=
    moveBalances_perm balances perm.symm distinct fits
  rw [moved] at moved'
  cases moved'
  exact ⟨second, movedBy, mirror.congr (perm.append_left ledger) same⟩

end BooksMirror

end CsdPool
