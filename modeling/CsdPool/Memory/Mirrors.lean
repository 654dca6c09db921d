/-
# Memory.Mirrors — the correspondence, and the calls on the ledger

`Mirrors` puts the three correspondences together; `Agree` says of one call that both repositories
show the same and correspond afterwards.  Here stand the calls on the ledger and the balances.
-/
import CsdPool.Memory.Balances
import CsdPool.Memory.Batches
import CsdPool.Memory.Blocks

namespace CsdPool

open Theory (Keyed Table)

set_option autoImplicit false

/-- The two repositories hold the same, as far as a call can show it: each map of the one is a
column or a table of the other. -/
structure Mirrors (db : Db) (m : InMemoryRepository) : Prop where
  books : BooksMirror db.books m.ledgerEntries m.balances
  batches : BatchesMirror db.payoutBatches db.payoutRecipients m.payoutBatches m.payoutStatuses
    m.payoutTxids m.payoutRawTxs
  blocks : BlocksMirror db.blocks m.blockCandidates m.blockStatuses m.rewardBlocks
  shares : db.shares.rows = m.shares.map ShareRecord.row
  jobs : m.jobs = db.jobs

/-- The same outcome, and repositories that correspond. -/
def Agree (answer : Outcome × Db) (answer' : Outcome × InMemoryRepository) : Prop :=
  answer.1 = answer'.1 ∧ Mirrors answer.2 answer'.2

/-- Empty repositories correspond. -/
theorem mirrors_new : Mirrors .migrated .new where
  books := {
    entries := .nil
    inRange := fun _ member => absurd member List.not_mem_nil
    confirmed := fun _ => rfl
    bounded := fun _ => Nat.two_pow_pos 128
    listed := fun _ _ found => by cases found }
  batches := {
    drafts := fun _ => rfl
    statuses := fun _ => rfl
    txids := fun _ => rfl
    rawTxs := fun _ => rfl
    owned := fun _ member => absurd member List.not_mem_nil }
  blocks := {
    candidates := fun _ => rfl
    statuses := fun _ => rfl
    sound := fun _ _ found => by cases found
    rewards := fun _ _ found => by cases found }
  shares := rfl
  jobs := rfl

/-! ## The order of a payout list -/

instance : Std.Total Db.payableOrder :=
  Theory.descending_total (fun row : BalanceRow => row.balance.confirmedBaseUnits) BalanceRow.miner

instance : IsTrans BalanceRow Db.payableOrder :=
  Theory.descending_trans (fun row : BalanceRow => row.balance.confirmedBaseUnits) BalanceRow.miner

instance : Std.Total InMemoryRepository.payableOrder :=
  Theory.descending_total MinerBalance.confirmedBaseUnits MinerBalance.miner

instance : IsTrans MinerBalance InMemoryRepository.payableOrder :=
  Theory.descending_trans MinerBalance.confirmedBaseUnits MinerBalance.miner

namespace Mirrors

variable {db : Db} {m : InMemoryRepository} {env : Env}

/-! ## Appending -/

/-- Entries that move both balances alike leave the two alike. -/
theorem append (mirrors : Mirrors db m) {entries : List LedgerEntry}
    (alike : db.books.AppendAlike entries) :
    ∃ db' m', db.appendLedgerEntries entries = .ok db' ∧
      m.appendLedgerEntries entries = (.ok (), m') ∧ Mirrors db' m' := by
  obtain ⟨-, books, balances, appended, moved, mirror⟩ := mirrors.books.append alike
  refine ⟨{ db with books }, { m with balances, ledgerEntries := m.ledgerEntries ++ entries },
    by rw [Db.appendLedgerEntries, appended]; rfl,
    by rw [InMemoryRepository.appendLedgerEntries, moved], { mirrors with books := mirror }⟩

theorem appendLedgerEntries (mirrors : Mirrors db m) {entries : List LedgerEntry}
    (alike : db.books.AppendAlike entries) :
    Agree (db.call env (.appendLedgerEntries entries)) (m.call (.appendLedgerEntries entries)) := by
  obtain ⟨db', m', appended, appended', after⟩ := mirrors.append alike
  simp only [Db.call, InMemoryRepository.call, appended, appended']
  exact ⟨rfl, after⟩

theorem unlockFailedPayout (mirrors : Mirrors db m) {batch : PayoutBatchRecord}
    (alike : db.books.AppendAlike (Db.unlockEntries batch)) :
    Agree (db.call env (.unlockFailedPayout batch)) (m.call (.unlockFailedPayout batch)) := by
  obtain ⟨db', m', appended, appended', after⟩ := mirrors.append alike
  simp only [Db.call, InMemoryRepository.call, Db.unlockFailedPayout,
    InMemoryRepository.unlockFailedPayout, appended, appended']
  exact ⟨rfl, after⟩

theorem markPayoutPaid (mirrors : Mirrors db m) {batch : PayoutBatchRecord}
    (alike : db.books.AppendAlike (Db.paidEntries batch)) :
    Agree (db.call env (.markPayoutPaid batch)) (m.call (.markPayoutPaid batch)) := by
  obtain ⟨db', m', appended, appended', after⟩ := mirrors.append alike
  simp only [Db.call, InMemoryRepository.call, Db.markPayoutPaid,
    InMemoryRepository.markPayoutPaid, appended, appended']
  exact ⟨rfl, after⟩

/-! ## Reading the ledger -/

theorem listLedgerEntries (mirrors : Mirrors db m) :
    Agree (db.call env .listLedgerEntries) (m.call .listLedgerEntries) := by
  have read : db.listLedgerEntries = .ok (db.books.ledgerEntries.rows.map id) := by
    refine Theory.mapM_of_forall fun entry member => ?_
    have range := mirrors.books.inRange entry member
    unfold parseI128
    rw [if_pos range]
    rfl
  refine ⟨?_, mirrors⟩
  simp only [Db.call, InMemoryRepository.call, read, List.map_id]
  exact congrArg Outcome.entries (Multiset.coe_eq_coe.2 mirrors.books.entries.symm)

/-! ## Balances -/

theorem setBalance (mirrors : Mirrors db m) {balance : MinerBalance}
    (legal : matchesLowerHex 40 balance.miner = true) (address : balance.address = balance.miner)
    (small : balance.confirmedBaseUnits < 2 ^ 128) :
    Agree (db.call env (.setBalance balance)) (m.call (.setBalance balance)) := by
  have upserted : minerIdInTx balance.miner = .ok balance.miner := if_pos legal
  simp only [Db.call, InMemoryRepository.call, Db.setBalance, upserted]
  exact ⟨rfl, { mirrors with books := mirrors.books.setBalance address small }⟩

/-- The balance a row shows. -/
def shownBalance (row : BalanceRow) : MinerBalance where
  miner := row.miner
  address := row.miner
  confirmedBaseUnits := row.balance.confirmedBaseUnits.toNat

/-- A row of memory and the row behind it. -/
theorem balance_eq (mirrors : Mirrors db m) {row : BalanceRow} {balance : MinerBalance}
    (inRows : row ∈ db.books.balanceCache.rows) (inMap : balance ∈ m.balances.rows)
    (same : row.miner = balance.miner) :
    (balance.confirmedBaseUnits : Int) = row.balance.confirmedBaseUnits ∧
      shownBalance row = balance := by
  have found : m.balances.find? balance.miner = some balance := Table.find?_of_mem inMap
  have behind : db.books.balanceCache.find? balance.miner = some row :=
    same ▸ Table.find?_of_mem inRows
  have confirmed := mirrors.books.confirmed balance.miner
  rw [found, Books.balance, behind] at confirmed
  have equal : (balance.confirmedBaseUnits : Int) = row.balance.confirmedBaseUnits := confirmed
  refine ⟨equal, ?_⟩
  have address := (mirrors.books.listed _ _ found).1
  unfold shownBalance
  rw [← equal, same, Int.toNat_natCast]
  obtain ⟨miner, address', amount⟩ := balance
  cases address
  rfl

/-- The balances that are shown are numbers that both repositories can hold. -/
theorem confirmed_nonneg (mirrors : Mirrors db m) {row : BalanceRow}
    (inRows : row ∈ db.books.balanceCache.rows) :
    0 ≤ row.balance.confirmedBaseUnits ∧ row.balance.confirmedBaseUnits < 2 ^ 128 := by
  have confirmed := mirrors.books.confirmed row.miner
  have small := mirrors.books.bounded row.miner
  have found : db.books.balanceCache.find? row.miner = some row := Table.find?_of_mem inRows
  rw [Books.balance, found] at confirmed
  have equal : (confirmedIn (m.balances.find? row.miner) : Int) = row.balance.confirmedBaseUnits :=
    confirmed
  omega

/-- Every cached balance can be read. -/
theorem toMinerBalance_eq (mirrors : Mirrors db m) {row : BalanceRow}
    (inRows : row ∈ db.books.balanceCache.rows) :
    Db.toMinerBalance row = .ok (shownBalance row) := by
  unfold Db.toMinerBalance parseU128
  rw [if_pos (mirrors.confirmed_nonneg inRows)]
  rfl

/-- A row that reaches the minimum has one in memory: what is confirmed is confirmed there too, and
for nothing there is a row where there was more. -/
theorem isSome_of_reaches (mirrors : Mirrors db m) {past : Past} (remembers : Remembers past m)
    {minimum : Nat} (alike : minimum = 0 → RowsAlike past db) {row : BalanceRow}
    (inRows : row ∈ db.books.balanceCache.rows)
    (reaches : (minimum : Int) ≤ row.balance.confirmedBaseUnits) :
    (m.balances.find? row.miner).isSome = true := by
  by_cases nothing : row.balance.confirmedBaseUnits = 0
  · rcases alike (by omega) row inRows nothing with set | ⟨entry, member, credits⟩
    · exact remembers.set row.miner set
    · exact remembers.credited entry (mirrors.books.entries.mem_iff.2 member) row.miner credits
  · have confirmed := mirrors.books.confirmed row.miner
    have found : db.books.balanceCache.find? row.miner = some row := Table.find?_of_mem inRows
    rw [Books.balance, found] at confirmed
    rw [Option.isSome_iff_ne_none]
    intro missing
    rw [missing] at confirmed
    exact nothing confirmed.symm

/-- The rows that reach a minimum are the same. -/
theorem balanceRows_perm (mirrors : Mirrors db m) (minimum : Nat)
    (rows : ∀ row ∈ db.books.balanceCache.rows, (minimum : Int) ≤ row.balance.confirmedBaseUnits →
      (m.balances.find? row.miner).isSome = true) :
    ((db.books.balanceCache.rows.filter fun row =>
        decide ((minimum : Int) ≤ row.balance.confirmedBaseUnits)).map shownBalance).Perm
      (m.balances.rows.filter fun balance =>
        decide (minimum ≤ balance.confirmedBaseUnits)) := by
  have keys : ((db.books.balanceCache.rows.filter fun row =>
        decide ((minimum : Int) ≤ row.balance.confirmedBaseUnits)).map Keyed.key).Perm
      ((m.balances.rows.filter fun balance =>
        decide (minimum ≤ balance.confirmedBaseUnits)).map
          (Keyed.key : MinerBalance → Address)) := by
    refine Theory.keys_filter_perm fun miner => ?_
    cases found : m.balances.find? miner with
    | some balance =>
        obtain ⟨row, behind⟩ := Option.isSome_iff_exists.1 (mirrors.books.listed _ _ found).2
        obtain ⟨inMap, ownMap⟩ := Table.find?_eq_some_iff.1 found
        obtain ⟨inRows, ownRows⟩ := Table.find?_eq_some_iff.1 behind
        have equal := (mirrors.balance_eq inRows inMap (ownRows.trans ownMap.symm)).1
        rw [behind, Option.any_some, Option.any_some, decide_eq_decide]
        omega
    | none =>
        cases behind : db.books.balanceCache.find? miner with
        | none => rfl
        | some row =>
            obtain ⟨inRows, own⟩ := Table.find?_eq_some_iff.1 behind
            rw [Option.any_some, Option.any_none, decide_eq_false_iff_not]
            intro reaches
            have own' : row.miner = miner := own
            have listed := rows row inRows reaches
            rw [own', found] at listed
            cases listed
  have shown := Theory.map_perm_of_keys (f := shownBalance) (g := id) keys
    fun row inRows balance inMap same =>
      (mirrors.balance_eq (List.mem_filter.1 inRows).1 (List.mem_filter.1 inMap).1 same).2
  rwa [List.map_id] at shown

theorem listBalances (mirrors : Mirrors db m) {past : Past} (remembers : Remembers past m)
    (alike : RowsAlike past db) :
    Agree (db.call env .listBalances) (m.call .listBalances) := by
  have read : db.listBalances = .ok ((db.books.balanceCache.rows.insertionSort fun a b =>
      a.miner ≤ b.miner).map shownBalance) :=
    Theory.mapM_of_forall fun row member =>
      mirrors.toMinerBalance_eq ((List.mem_insertionSort _).1 member)
  have rows := mirrors.balanceRows_perm 0 fun row =>
    mirrors.isSome_of_reaches remembers fun _ => alike
  rw [List.filter_eq_self.2 fun balance _ => decide_eq_true (Nat.zero_le _),
    List.filter_eq_self.2 fun row inRows => decide_eq_true (by
      rw [Nat.cast_zero]
      exact (mirrors.confirmed_nonneg inRows).1)] at rows
  refine ⟨?_, mirrors⟩
  simp only [Db.call, InMemoryRepository.call, read]
  refine congrArg Outcome.balances (Multiset.coe_eq_coe.2 ?_)
  exact ((List.perm_insertionSort _ _).map _).trans (rows.trans (values_perm _).symm)

/-- Both order by the confirmed balance and the miner, so any limit cuts the same. -/
theorem listPayableBalances (mirrors : Mirrors db m) {past : Past} (remembers : Remembers past m)
    {minimum : Nat} {limit : Int} (nonneg : 0 ≤ limit) (alike : minimum = 0 → RowsAlike past db) :
    Agree (db.call env (.listPayableBalances minimum limit))
      (m.call (.listPayableBalances minimum limit)) := by
  have read : db.listPayableBalances minimum limit.toNat =
      .ok ((((db.books.balanceCache.rows.filter fun row =>
        decide ((minimum : Int) ≤ row.balance.confirmedBaseUnits)).insertionSort
          Db.payableOrder).take limit.toNat).map shownBalance) :=
    Theory.mapM_of_forall fun row member => mirrors.toMinerBalance_eq
      (List.mem_filter.1 ((List.mem_insertionSort _).1 (List.mem_of_mem_take member))).1
  have rows : ((db.books.balanceCache.rows.filter fun row =>
        decide ((minimum : Int) ≤ row.balance.confirmedBaseUnits)).map shownBalance).Perm
      ((values m.balances).filter fun balance => minimum ≤ balance.confirmedBaseUnits) :=
    (mirrors.balanceRows_perm minimum fun row => mirrors.isSome_of_reaches remembers alike).trans
      ((values_perm _).symm.filter _)
  have listed := Theory.map_insertionSort_eq (r := Db.payableOrder)
    (s := InMemoryRepository.payableOrder) rows
    (fun a inA b inB ordered => ?_) (fun a inA b inB before after => ?_)
  · refine ⟨?_, mirrors⟩
    simp only [Db.call, InMemoryRepository.call, limited_ok nonneg, read, List.map_take, listed]
    rfl
  · have nonnegA := (mirrors.confirmed_nonneg (List.mem_filter.1 inA).1).1
    have nonnegB := (mirrors.confirmed_nonneg (List.mem_filter.1 inB).1).1
    rcases ordered with more | ⟨same, before⟩
    · exact .inl ((Int.toNat_lt_toNat (by omega)).2 more)
    · exact .inr ⟨congrArg Int.toNat same, before⟩
  · have miners : a.miner = b.miner :=
      Theory.Descending.name_eq MinerBalance.confirmedBaseUnits MinerBalance.miner before after
    have foundA := Table.find?_of_mem (mem_values.1 (List.mem_filter.1 inA).1)
    have foundB := Table.find?_of_mem (mem_values.1 (List.mem_filter.1 inB).1)
    have keys : (Keyed.key a : Address) = Keyed.key b := miners
    rw [keys, foundB] at foundA
    exact (Option.some.inj foundA).symm

end Mirrors

end CsdPool
