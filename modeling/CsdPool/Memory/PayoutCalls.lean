/-
# Memory.PayoutCalls — the calls on payout batches

A locked batch goes into the database recipient by recipient, and into memory as a draft and a list
of entries; `BooksMirror.lockRecipients` is that loop against that list.  A status change answers
alike from any state but for the txid of a batch that has one.
-/
import CsdPool.Memory.Mirrors

namespace CsdPool

open Theory (Keyed Table)
open InMemoryRepository (movedRow moveBalances Fits)

set_option autoImplicit false

namespace BooksMirror

variable {batchId : String} {state : Books × Table PayoutRecipientRow}
  {recipients : List PayoutRecipient} {recipient : PayoutRecipient}
  {ledger : List LedgerEntry} {balances balances' : Table MinerBalance}

theorem lockEntry_moves (small : recipient.amountBaseUnits < 2 ^ 127) (books : Books)
    (batchId : String) : books.MovesAlike (Books.lockEntry batchId recipient) := by
  intro negative
  simp only [Books.lockEntry] at negative ⊢
  omega

theorem lockEntry_fits (small : recipient.amountBaseUnits < 2 ^ 127) :
    Fits (Books.lockEntry batchId recipient) := by
  intro _ _
  simp only [Books.lockEntry]
  omega

/-- The guarded debit leaves the column that the entry's own move leaves. -/
theorem confirmed_lockedState (payable : Db.Payable batchId state recipient)
    (small : recipient.amountBaseUnits < 2 ^ 127) :
    ((Db.lockedState batchId state recipient).1.balance recipient.miner).confirmedBaseUnits =
      (state.1.moved (Books.lockEntry batchId recipient) recipient.miner).confirmedBaseUnits := by
  obtain ⟨row, found, covers⟩ := payable.covered
  have before : state.1.balance recipient.miner = row.balance := by
    rw [Books.balance, found]
    rfl
  have after : (Db.lockedState batchId state recipient).1.balance recipient.miner =
      row.balance.lock recipient.amountBaseUnits := by
    rw [Books.balance, Db.find?_lockedState_balance, found]
    simp [covers]
  have move : state.1.moved (Books.lockEntry batchId recipient) recipient.miner =
      if -(recipient.amountBaseUnits : Int) < 0 then
        row.balance.lock (negI128 (-(recipient.amountBaseUnits : Int)))
      else row.balance := by
    rw [Books.moved, before]
    rfl
  rw [after, Db.lock_exact covers, move]
  by_cases positive : -(recipient.amountBaseUnits : Int) < 0
  · have abs : negI128 (-(recipient.amountBaseUnits : Int)) = recipient.amountBaseUnits := by
      rw [negI128, if_neg (by omega), Int.neg_neg]
    rw [if_pos positive, abs, Db.lock_exact covers]
  · rw [if_neg positive]
    dsimp only
    omega

/-- **One recipient.** -/
theorem lockRecipient (mirror : BooksMirror state.1 ledger balances)
    (payable : Db.Payable batchId state recipient) (small : recipient.amountBaseUnits < 2 ^ 127)
    (fresh : state.1.ledgerEntries.find? (Books.lockEntry batchId recipient).ledgerKey = none)
    (rows : ∀ miner, balances'.find? miner =
      if (Books.lockEntry batchId recipient).miner = some miner then
        movedRow miner (balances.find? miner) (Books.lockEntry batchId recipient)
      else balances.find? miner) :
    BooksMirror (Db.lockedState batchId state recipient).1
      (ledger ++ [Books.lockEntry batchId recipient]) balances' := by
  have added : (Db.lockedState batchId state recipient).1.ledgerEntries.rows =
      state.1.ledgerEntries.rows ++ [Books.lockEntry batchId recipient] :=
    (Table.insert_of_fresh fresh).1
  have range : -2 ^ 127 ≤ (Books.lockEntry batchId recipient).amountBaseUnits ∧
      (Books.lockEntry batchId recipient).amountBaseUnits < 2 ^ 127 := by
    simp only [Books.lockEntry]
    omega
  refine mirror.entered (lockEntry_moves small state.1 batchId) range added (fun miner => ?_)
    (fun miner row => ?_) rows
  · by_cases own : (Books.lockEntry batchId recipient).miner = some miner
    · rw [if_pos own, ← Option.some.inj own, confirmed_lockedState payable small]
    · have other : miner ≠ recipient.miner := fun same => own (congrArg some same.symm)
      rw [if_neg own, Books.balance, Db.find?_lockedState_balance, Books.balance]
      simp [other]
  · rw [Books.hasBalanceRow, Db.find?_lockedState_balance, Option.isSome_map]
    rcases row with row | ⟨kind, -⟩
    · exact row
    · cases kind

/-- **The recipients of a batch**, one after the other. -/
theorem lockRecipients (state : Books × Table PayoutRecipientRow)
    (mirror : BooksMirror state.1 ledger balances) (distinct : (recipients.map (·.miner)).Nodup)
    (payables : ∀ r ∈ recipients, Db.Payable batchId state r)
    (new : ∀ r ∈ recipients, r.amountBaseUnits < 2 ^ 127 ∧
      state.1.ledgerEntries.find? (Books.lockEntry batchId r).ledgerKey = none) :
    ∃ balances', moveBalances balances (recipients.map (Books.lockEntry batchId)) =
        (.ok (), balances') ∧
      BooksMirror (recipients.foldl (Db.lockedState batchId) state).1
        (ledger ++ recipients.map (Books.lockEntry batchId)) balances' := by
  induction recipients generalizing state ledger balances with
  | nil => exact ⟨balances, rfl, by rwa [List.map_nil, List.append_nil]⟩
  | cons first rest ih =>
      rw [List.map_cons, List.nodup_cons] at distinct
      have others := Db.miner_ne_of_nodup distinct.1
      have payable := payables first List.mem_cons_self
      obtain ⟨small, fresh⟩ := new first List.mem_cons_self
      obtain ⟨mid, moved, rows⟩ :=
        InMemoryRepository.moveBalance_ok balances (lockEntry_fits small)
      obtain ⟨balances', later, mirror'⟩ := @ih _ mid (Db.lockedState batchId state first)
        (mirror.lockRecipient payable small fresh rows) distinct.2
        (fun r member => (Db.payable_lockedState payable).2
          ⟨others r member, payables r (List.mem_cons_of_mem _ member)⟩)
        fun r member => by
          refine ⟨(new r (List.mem_cons_of_mem _ member)).1, ?_⟩
          rw [Db.find?_lockedState_ledger, if_neg]
          · exact (new r (List.mem_cons_of_mem _ member)).2
          · exact fun hit => others r member (Db.lockEntry_key_inj hit.1).symm
      refine ⟨balances', by rw [List.map_cons, moveBalances, moved]; exact later, ?_⟩
      rwa [List.append_assoc, List.singleton_append] at mirror'

end BooksMirror

/-- Entries of different recipients have different miners. -/
theorem entry_miners_nodup {recipients : List PayoutRecipient} {f : PayoutRecipient → LedgerEntry}
    (own : ∀ r, (f r).miner = some r.miner) (distinct : (recipients.map (·.miner)).Nodup) :
    ((recipients.map f).map (·.miner)).Nodup := by
  have named : (recipients.map f).map (·.miner) = (recipients.map (·.miner)).map some := by
    rw [List.map_map, List.map_map]
    exact List.map_congr_left fun r _ => own r
  rw [named]
  exact distinct.map (Option.some_injective _)

/-- The entries of a draft that are the locks of its recipients. -/
theorem lockEntries_perm (draft : PayoutBatchDraft)
    (small : ∀ r ∈ draft.recipients, r.amountBaseUnits < 2 ^ 127)
    (own : draft.lockEntries = [] ∨
      draft.lockEntries.Perm (draft.recipients.map (Books.lockEntry draft.batchId))) :
    (InMemoryRepository.lockEntries draft).Perm
      (draft.recipients.map (Books.lockEntry draft.batchId)) := by
  unfold InMemoryRepository.lockEntries
  split
  · refine .of_eq (List.map_congr_left fun r member => ?_)
    rw [(negI128_asI128_eq_iff (by have := small r member; omega)).2
      (Nat.le_of_lt (small r member))]
    rfl
  · rename_i some_
    rcases own with none_ | perm
    · rw [none_] at some_
      exact absurd rfl some_
    · exact perm

namespace Db

/-- A taken id changes nothing. -/
theorem createLocked_of_taken {db : Db} {draft : PayoutBatchDraft}
    (short : draft.recipients.length < 2 ^ 31)
    (taken : db.payoutBatches.find? draft.batchId ≠ none) (status : PayoutStatus) (now : Nat) :
    db.createLockedPayoutBatchWithStatus draft status now = .ok (false, db) := by
  obtain ⟨n, counted⟩ := i32TryFrom_ok_iff.2 short
  have notIn : (db.payoutBatches.insert (batchRow draft status now)).2 = false := by
    rw [← Bool.not_eq_true, Table.insert_snd_iff]
    exact taken
  have row : ({ id := draft.batchId, status := status, totalBaseUnits := draft.totalBaseUnits
                txid := none, rawTxHash := none, createdAt := now } : PayoutBatchRow) =
      batchRow draft status now := rfl
  unfold createLockedPayoutBatchWithStatus
  rw [counted, row]
  dsimp only
  rw [notIn]
  rfl

/-- One more row than before at most. -/
theorem createLocked_length {db db' : Db} {draft : PayoutBatchDraft} {status : PayoutStatus}
    {now : Nat} {created : Bool}
    (ok : db.createLockedPayoutBatchWithStatus draft status now = .ok (created, db')) :
    db'.payoutBatches.rows.length ≤ db.payoutBatches.rows.length + 1 := by
  rcases createLocked_ok ok with ⟨-, rfl⟩ | ⟨-, fresh, books, recipients, -, rfl⟩
  · omega
  · dsimp only
    rw [(Table.insert_of_fresh fresh).1, List.length_append, List.length_singleton]

theorem byId_of_found {db : Db} {batchId : String} {statuses : List PayoutStatus}
    {row : PayoutBatchRow}
    (found : db.payoutBatches.find? batchId = some row)
    (allowed : statuses.contains row.status = true) :
    db.payoutBatchByIdAndStatuses batchId statuses = some (db.hydratePayoutBatchRecord row) := by
  unfold payoutBatchByIdAndStatuses
  rw [found,
    Option.filter_some_pos (p := fun r : PayoutBatchRow => statuses.contains r.status) allowed,
    Option.map_some]

theorem byId_of_miss {db : Db} {batchId : String} {statuses : List PayoutStatus}
    (miss : ((db.payoutBatches.find? batchId).any fun row => statuses.contains row.status) =
      false) : db.payoutBatchByIdAndStatuses batchId statuses = none := by
  unfold payoutBatchByIdAndStatuses
  cases found : db.payoutBatches.find? batchId with
  | none => rfl
  | some row =>
      rw [found, Option.any_some] at miss
      rw [Option.filter_some_neg (p := fun r : PayoutBatchRow => statuses.contains r.status) miss,
        Option.map_none]

/-- A batch names no miner twice. -/
theorem hydrated_distinct (db : Db) (row : PayoutBatchRow) :
    ((db.hydratePayoutBatchRecord row).recipients.map (·.miner)).Nodup := by
  have rows : ((db.hydratePayoutBatchRecord row).recipients.map (·.miner)).Perm
      ((db.payoutRecipients.rows.filter fun r => r.batchId = row.id).map (·.miner)) := by
    rw [hydratePayoutBatchRecord, List.map_map]
    exact (List.perm_insertionSort _ _).map _
  rw [rows.nodup_iff]
  have keys : ((db.payoutRecipients.rows.filter fun r => r.batchId = row.id).map
      fun r => (r.batchId, r.miner)).Nodup :=
    db.payoutRecipients.unique.sublist (List.filter_sublist.map _)
  have paired : (db.payoutRecipients.rows.filter fun r => r.batchId = row.id).map
      (fun r => (r.batchId, r.miner)) =
        ((db.payoutRecipients.rows.filter fun r => r.batchId = row.id).map (·.miner)).map
          fun miner => (row.id, miner) := by
    rw [List.map_map]
    refine List.map_congr_left fun r member => ?_
    have own : r.batchId = row.id := by simpa using (List.mem_filter.1 member).2
    exact congrArg (·, r.miner) own
  rw [paired] at keys
  exact keys.of_map _

end Db

/-- A test for one status, as a test against a list of one. -/
theorem refused_iff (status : Option PayoutStatus) (allowed : PayoutStatus) :
    status ≠ some allowed ↔ (!status.any [allowed].contains) = true := by
  cases status with
  | none => simp
  | some status => simp

namespace Mirrors

variable {db : Db} {m : InMemoryRepository} {env : Env}

/-! ## New batches -/

/-- A recipient row is a batch's that is there. -/
theorem recipient_free (mirrors : Mirrors db m) {batchId : String}
    (fresh : db.payoutBatches.find? batchId = none) (miner : Address) :
    db.payoutRecipients.find? (batchId, miner) = none := by
  rw [Table.find?_eq_none_iff]
  intro r member own
  have named : r.batchId = batchId := (Prod.mk.inj own).1
  exact mirrors.batches.owned r member (named ▸ fresh)

theorem createPayoutBatch (mirrors : Mirrors db m) {draft : PayoutBatchDraft}
    (alike : db.DryRunAlike draft) :
    Agree (db.call env (.createPayoutBatch draft)) (m.call (.createPayoutBatch draft)) := by
  have contains := mirrors.batches.contains draft.batchId
  have row : ({ id := draft.batchId, status := .dryRunOk, totalBaseUnits := draft.totalBaseUnits
                txid := none, rawTxHash := none, createdAt := env.now } : PayoutBatchRow) =
      Db.batchRow draft .dryRunOk env.now := rfl
  simp only [Db.call, InMemoryRepository.call, Db.createPayoutBatch,
    InMemoryRepository.createPayoutBatch, row]
  by_cases fresh : db.payoutBatches.find? draft.batchId = none
  · obtain taken | ⟨short, distinct, legal⟩ := alike
    · exact absurd fresh taken
    obtain ⟨n, counted⟩ := Db.i32TryFrom_ok_iff.2 short
    obtain ⟨rows, went⟩ := Table.insert_of_fresh (t := db.payoutBatches)
      (r := Db.batchRow draft .dryRunOk env.now) fresh
    obtain ⟨payoutRecipients, folded, added⟩ := Db.insertDryRunRecipients_ok distinct legal
      fun r _ => mirrors.recipient_free fresh r.miner
    rw [fresh] at contains
    rw [counted, contains]
    dsimp only
    rw [if_pos went, folded]
    exact ⟨rfl, { mirrors with
      batches := mirrors.batches.insert fresh rfl rfl rfl rfl (.refl _) added }⟩
  · rw [Option.isSome_iff_ne_none.2 fresh] at contains
    have notIn : (db.payoutBatches.insert (Db.batchRow draft .dryRunOk env.now)).2 = false := by
      rw [← Bool.not_eq_true, Table.insert_snd_iff]
      exact fresh
    rw [contains, notIn]
    cases i32TryFrom draft.recipients.length with
    | error e => exact ⟨rfl, mirrors⟩
    | ok n => exact ⟨rfl, mirrors⟩

/-- **A locked batch.**  Memory's draft may name the recipients in another order. -/
theorem createLocked (mirrors : Mirrors db m) {draft : PayoutBatchDraft}
    (draft' : PayoutBatchDraft) (status : PayoutStatus) (now : Nat) (alike : db.LocksAlike draft)
    (id : draft'.batchId = draft.batchId) (total : draft'.totalBaseUnits = draft.totalBaseUnits)
    (recipients : draft'.recipients.Perm draft.recipients)
    (locks : db.payoutBatches.find? draft.batchId = none →
      (InMemoryRepository.lockEntries draft').Perm
        (draft.recipients.map (Books.lockEntry draft.batchId))) :
    ∃ created db' m', db.createLockedPayoutBatchWithStatus draft status now = .ok (created, db') ∧
      m.createLockedPayoutBatchWithStatus draft' status = (.ok created, m') ∧ Mirrors db' m' := by
  have contains := mirrors.batches.contains draft.batchId
  unfold InMemoryRepository.createLockedPayoutBatchWithStatus
  obtain ⟨short, alike⟩ := alike
  by_cases fresh : db.payoutBatches.find? draft.batchId = none
  · obtain taken | ⟨lockable, new, -⟩ := alike
    · exact absurd fresh taken
    obtain ⟨balances, moved, books⟩ := mirrors.books.lockRecipients
      (db.books, db.payoutRecipients) lockable.2.2.1 lockable.2.2.2 new
    have miners := entry_miners_nodup (f := Books.lockEntry draft.batchId) (fun _ => rfl)
      lockable.2.2.1
    have fits : ∀ entry ∈ draft.recipients.map (Books.lockEntry draft.batchId), Fits entry := by
      intro entry member
      obtain ⟨r, inDraft, rfl⟩ := List.mem_map.1 member
      exact BooksMirror.lockEntry_fits (new r inDraft).1
    obtain ⟨second, movedBy, mirror⟩ := books.reorder (locks fresh) miners fits moved
    have added := Db.insertRecipients_rows
      (Db.insertRecipients_ok_iff.2 ⟨lockable.2.2.1, lockable.2.2.2, rfl⟩)
    refine ⟨true, _, { m with
      payoutStatuses := Function.update m.payoutStatuses draft.batchId (some status)
      payoutBatches := m.payoutBatches.put draft'
      balances := second
      ledgerEntries := m.ledgerEntries ++ InMemoryRepository.lockEntries draft' },
      Db.createLocked_of_lockable lockable status now, ?_, ?_⟩
    · rw [id, contains, fresh, InMemoryRepository.appendLedgerEntries]
      dsimp only
      rw [movedBy]
      rfl
    · exact {
        books := mirror
        batches := mirrors.batches.insert fresh id total rfl rfl recipients added
        blocks := mirrors.blocks
        shares := mirrors.shares
        jobs := mirrors.jobs }
  · rw [Option.isSome_iff_ne_none.2 fresh] at contains
    rw [id, contains, if_pos rfl]
    exact ⟨false, db, m, Db.createLocked_of_taken short fresh status now, rfl, mirrors⟩

theorem createLockedPayoutBatchWithStatus (mirrors : Mirrors db m) {draft : PayoutBatchDraft}
    {status : PayoutStatus} (alike : db.LocksAlike draft) :
    Agree (db.call env (.createLockedPayoutBatchWithStatus draft status))
      (m.call (.createLockedPayoutBatchWithStatus draft status)) := by
  have locks : db.payoutBatches.find? draft.batchId = none →
      (InMemoryRepository.lockEntries draft).Perm
        (draft.recipients.map (Books.lockEntry draft.batchId)) := by
    intro fresh
    obtain taken | ⟨-, new, own⟩ := alike.2
    · exact absurd fresh taken
    · exact lockEntries_perm draft (fun r member => (new r member).1) own
  obtain ⟨created, db', m', went, went', after⟩ :=
    mirrors.createLocked draft status env.now alike rfl rfl (.refl _) locks
  simp only [Db.call, InMemoryRepository.call, went, went']
  exact ⟨rfl, after⟩

/-! ## Listings -/

/-- A row and the draft behind it show the same batch. -/
theorem batch_outcome (mirrors : Mirrors db m) {row : PayoutBatchRow} {draft : PayoutBatchDraft}
    (inRows : row ∈ db.payoutBatches.rows) (inMap : draft ∈ m.payoutBatches.rows)
    (same : row.id = draft.batchId) :
    (db.hydratePayoutBatchRecord row).outcome = (m.payoutBatchRecord draft).outcome := by
  have found : db.payoutBatches.find? row.id = some row := Table.find?_of_mem inRows
  obtain ⟨draft', found', id, total, recipients⟩ := mirrors.batches.draft_of_row found
  have own : m.payoutBatches.find? draft.batchId = some draft := Table.find?_of_mem inMap
  rw [← same, found'] at own
  cases own
  have status := mirrors.batches.statuses row.id
  have txid := mirrors.batches.txids row.id
  have rawTx := mirrors.batches.rawTxs row.id
  rw [found] at status txid rawTx
  unfold PayoutBatchRecord.outcome InMemoryRepository.payoutBatchRecord
  rw [hydrated_recipients, ← recipients, ← same, status, txid, rawTx, total]
  rfl

/-- The rows with a status that counts, and their drafts. -/
theorem batches_perm (mirrors : Mirrors db m) (p : PayoutStatus → Bool) :
    ((db.payoutBatches.rows.filter fun row => p row.status).map
        (Keyed.key : PayoutBatchRow → String)).Perm
      ((m.payoutBatches.rows.filter fun draft => (m.payoutStatuses draft.batchId).any p).map
        Keyed.key) := by
  refine Theory.keys_filter_perm fun id => ?_
  rw [← mirrors.batches.any_status id p]
  cases found : m.payoutBatches.find? id with
  | none =>
      rw [mirrors.batches.statuses, mirrors.batches.find?_none.1 found]
      rfl
  | some draft =>
      have own : draft.batchId = id := Table.key_of_find? found
      rw [Option.any_some, own]

theorem listPayoutBatches (mirrors : Mirrors db m)
    (alike : ∀ draft ∈ m.payoutBatches.rows, draft.lockEntries = []) :
    Agree (db.call env .listPayoutBatches) (m.call .listPayoutBatches) := by
  have keys : (db.payoutBatches.rows.map (Keyed.key : PayoutBatchRow → String)).Perm
      (m.payoutBatches.rows.map Keyed.key) := by
    have all : ((db.payoutBatches.rows.filter fun _ => true).map
        (Keyed.key : PayoutBatchRow → String)).Perm
          ((m.payoutBatches.rows.filter fun _ => true).map Keyed.key) :=
      Theory.keys_filter_perm fun id => by
        rw [Option.any_true, Option.any_true, mirrors.batches.isSome]
    simpa only [List.filter_true] using all
  have sorted : ((db.payoutBatches.rows.insertionSort Db.batchOrder).map
      (Keyed.key : PayoutBatchRow → String)).Perm ((values m.payoutBatches).map Keyed.key) :=
    ((List.perm_insertionSort _ _).map _).trans
      (keys.trans ((values_perm _).symm.map _))
  have shown := Theory.map_perm_of_keys sorted (g := PayoutBatchDraft.outcome)
    (f := fun row => PayoutBatchDraft.outcome
      { batchId := row.id
        recipients := (db.recipientsOf row.id).map fun r => ⟨r.miner, r.address, r.amountBaseUnits⟩
        totalBaseUnits := row.totalBaseUnits
        lockEntries := [] }) fun row inRows draft inMap same => by
    have inTable := (List.mem_insertionSort _).1 inRows
    have outcome := mirrors.batch_outcome inTable (mem_values.1 inMap) same
    have parts := BatchOutcome.mk.inj outcome
    refine (DraftOutcome.mk.injEq ..).mpr ⟨parts.1, parts.2.2.2.2.2, parts.2.2.1, ?_⟩
    rw [alike draft (mem_values.1 inMap)]
  refine ⟨?_, mirrors⟩
  simp only [Db.call, InMemoryRepository.call, Outcome.ofDrafts, Db.listPayoutBatches, List.map_map]
  exact congrArg Outcome.drafts (Multiset.coe_eq_coe.2 shown)

theorem listPayoutBatchesByStatus (mirrors : Mirrors db m) {statuses : List PayoutStatus}
    {limit : Int} (nonneg : 0 ≤ limit)
    (alike : KeysCutAlike (((db.payoutBatches.rows.filter fun row =>
      statuses.contains row.status).insertionSort Db.batchOrder).map (·.id)) limit) :
    Agree (db.call env (.listPayoutBatchesByStatus statuses limit))
      (m.call (.listPayoutBatchesByStatus statuses limit)) := by
  have keys : (((db.payoutBatches.rows.filter fun row =>
        statuses.contains row.status).insertionSort Db.batchOrder).map (·.id)).Perm
      ((m.payoutBatches.rows.filter fun draft =>
        (m.payoutStatuses draft.batchId).any statuses.contains).map Keyed.key) :=
    ((List.perm_insertionSort _ _).map _).trans (mirrors.batches_perm statuses.contains)
  have listed := listing_perm (f := fun row => (db.hydratePayoutBatchRecord row).outcome)
    (g := fun draft => (m.payoutBatchRecord draft).outcome) keys alike
    fun row inRows draft inMap same => mirrors.batch_outcome
      (List.mem_filter.1 ((List.mem_insertionSort _).1 inRows)).1 inMap same
  refine ⟨?_, mirrors⟩
  simp only [Db.call, InMemoryRepository.call, limited_ok nonneg, Outcome.ofResult,
    Outcome.ofBatches, Db.listPayoutBatchesByStatus, InMemoryRepository.listPayoutBatchesByStatus,
    List.map_map, List.map_take]
  rw [List.map_take, List.map_take] at listed
  exact congrArg Outcome.batches (Multiset.coe_eq_coe.2 listed)

theorem activePayoutTotalToday (mirrors : Mirrors db m) (alike : db.TotalAlike env.currentDate) :
    Agree (db.call env .activePayoutTotalToday) (m.call .activePayoutTotalToday) := by
  obtain ⟨older, small⟩ := alike
  have totals := Theory.map_perm_of_keys (f := PayoutBatchRow.totalBaseUnits)
    (g := PayoutBatchDraft.totalBaseUnits) (mirrors.batches_perm Db.activeStatuses.contains)
    fun row inRows draft inMap same => by
      have outcome := mirrors.batch_outcome (List.mem_filter.1 inRows).1
        (List.mem_filter.1 inMap).1 same
      exact congrArg BatchOutcome.totalBaseUnits outcome
  have sorted : (((values m.payoutBatches).filter fun draft =>
        (m.payoutStatuses draft.batchId).any Db.activeStatuses.contains).map
          (·.totalBaseUnits)).Perm
      ((m.payoutBatches.rows.filter fun draft =>
        (m.payoutStatuses draft.batchId).any Db.activeStatuses.contains).map
          (·.totalBaseUnits)) := ((values_perm _).filter _).map _
  have today : ((db.payoutBatches.rows.filter fun row => Db.activeStatuses.contains row.status &&
        decide (env.currentDate ≤ row.createdAt)).map (·.totalBaseUnits)).sum =
      ((db.payoutBatches.rows.filter fun row =>
        Db.activeStatuses.contains row.status).map (·.totalBaseUnits)).sum :=
    Theory.sum_filter_and fun row inRows counts old =>
      older row inRows (List.contains_iff_mem.1 counts) (Nat.not_le.1 (of_decide_eq_false old))
  have shown : m.activePayoutTotalToday = ((db.payoutBatches.rows.filter fun row =>
      Db.activeStatuses.contains row.status).map (·.totalBaseUnits)).sum := by
    rw [← u128_of_lt small, totals.sum_eq, ← sorted.sum_eq]
    rfl
  refine ⟨?_, mirrors⟩
  simp only [Db.call, InMemoryRepository.call, Db.activePayoutTotalToday, shown]
  rw [today, parseU128, if_pos ⟨Int.natCast_nonneg _, Int.ofNat_lt.2 small⟩]
  rfl

/-! ## Status changes -/

/-- **A conditional update**, and the map entries that are written for it. -/
theorem updated (mirrors : Mirrors db m) {batchId : String} {statuses : List PayoutStatus}
    {set : PayoutBatchRow → PayoutBatchRow} {m' : InMemoryRepository}
    (written : ∀ row, db.payoutBatches.find? batchId = some row → row.status ∈ statuses →
      m' = { m with
        payoutStatuses := Function.update m.payoutStatuses batchId (some (set row).status)
        payoutTxids := Function.update m.payoutTxids batchId (set row).txid
        payoutRawTxs := Function.update m.payoutRawTxs batchId (set row).rawTxHash })
    (keeps : ∀ r, (set r).id = r.id := by intro; rfl)
    (total : ∀ row, (set row).totalBaseUnits = row.totalBaseUnits := by intro; rfl) :
    Agree ((db.updatePayoutBatch batchId statuses set keeps).map .flag id)
      ((if !(m.payoutStatuses batchId).any statuses.contains then (false, m)
        else (true, m')).map .flag id) := by
  have changed := Db.updatePayoutBatch_fst db batchId statuses set keeps
  rw [← mirrors.batches.any_status batchId statuses.contains] at changed
  unfold Agree
  cases hit : (m.payoutStatuses batchId).any statuses.contains with
  | false =>
      rw [hit] at changed
      have same : (db.updatePayoutBatch batchId statuses set keeps).2 = db := by
        unfold Db.updatePayoutBatch
        dsimp only
        rw [Table.update_of_miss]
        rw [← hit, mirrors.batches.any_status]
      exact ⟨congrArg Outcome.flag changed, by rw [Prod.map_snd, same]; exact mirrors⟩
  | true =>
      rw [hit] at changed
      refine ⟨congrArg Outcome.flag changed, ?_⟩
      rw [mirrors.batches.any_status] at hit
      obtain ⟨row, found, allowed⟩ := (Option.any_eq_true _ _).1 hit
      obtain rfl := written row found (List.contains_iff_mem.1 allowed)
      exact { mirrors with batches := mirrors.batches.mark keeps found allowed (total row) }

/-- A column that an update leaves is written as it is. -/
theorem update_same (mirrors : Mirrors db m) {batchId : String} {row : PayoutBatchRow}
    (found : db.payoutBatches.find? batchId = some row) (status : PayoutStatus) :
    m.setStatus batchId status = { m with
      payoutStatuses := Function.update m.payoutStatuses batchId (some status)
      payoutTxids := Function.update m.payoutTxids batchId row.txid
      payoutRawTxs := Function.update m.payoutRawTxs batchId row.rawTxHash } := by
  obtain ⟨txids, rawTxs⟩ := mirrors.batches.update_txid found
  rw [txids, rawTxs]
  rfl

theorem markPayoutSigned (mirrors : Mirrors db m) (batchId txid rawTxHash : String) :
    Agree (db.call env (.markPayoutSigned batchId txid rawTxHash))
      (m.call (.markPayoutSigned batchId txid rawTxHash)) := by
  simp only [InMemoryRepository.call, InMemoryRepository.markPayoutSigned, refused_iff]
  refine mirrors.updated fun _ _ _ => ?_
  rfl

theorem markPayoutSubmitted (mirrors : Mirrors db m) {batchId txid : String}
    (alike : db.SubmitsAlike batchId txid) :
    Agree (db.call env (.markPayoutSubmitted batchId txid))
      (m.call (.markPayoutSubmitted batchId txid)) := by
  refine mirrors.updated fun row found status => ?_
  have rawTxs := (mirrors.batches.update_txid found).2
  have kept : some (row.txid.getD txid) = some txid := by
    rcases alike row found status with none_ | same
    · rw [none_, Option.getD_none]
    · rw [same, Option.getD_some]
  dsimp only
  rw [rawTxs, kept]
  rfl

theorem markPayoutConfirmed (mirrors : Mirrors db m) (batchId : String) :
    Agree (db.call env (.markPayoutConfirmed batchId)) (m.call (.markPayoutConfirmed batchId)) :=
  mirrors.updated fun _ found _ => mirrors.update_same found .confirmed

theorem markPayoutFailed (mirrors : Mirrors db m) (batchId : String) :
    Agree (db.call env (.markPayoutFailed batchId)) (m.call (.markPayoutFailed batchId)) :=
  mirrors.updated fun _ found _ => mirrors.update_same found .failed

theorem markPayoutApproved (mirrors : Mirrors db m) (batchId : String) :
    Agree (db.call env (.markPayoutApproved batchId)) (m.call (.markPayoutApproved batchId)) := by
  simp only [InMemoryRepository.call, InMemoryRepository.markPayoutApproved, refused_iff]
  exact mirrors.updated fun _ found _ => mirrors.update_same found .created

/-! ## Retry and cancel -/

/-- The batch that memory looks up in its own listing. -/
theorem listed_byId (mirrors : Mirrors db m) (batchId : String) (statuses : List PayoutStatus)
    {limit : Int} (room : db.payoutBatches.rows.length ≤ limit.toNat) :
    Outcome.ofBatch ((m.listPayoutBatchesByStatus statuses limit).find?
        fun batch => batch.batchId = batchId) =
      Outcome.ofBatch (db.payoutBatchByIdAndStatuses batchId statuses) := by
  have short : ((values m.payoutBatches).filter fun draft =>
      (m.payoutStatuses draft.batchId).any statuses.contains).length ≤ limit.toNat := by
    have listed := (mirrors.batches_perm statuses.contains).length_eq
    rw [List.length_map, List.length_map] at listed
    rw [((values_perm m.payoutBatches).filter _).length_eq, ← listed]
    exact (List.length_filter_le ..).trans room
  unfold InMemoryRepository.listPayoutBatchesByStatus
  rw [limitLen, List.take_of_length_le (by rwa [List.length_map]), List.find?_map]
  have found := find?_values_filter (t := m.payoutBatches)
    (q := fun draft => (m.payoutStatuses draft.batchId).any statuses.contains) batchId
  have same : ((values m.payoutBatches).filter fun draft =>
      (m.payoutStatuses draft.batchId).any statuses.contains).find?
        ((fun batch : PayoutBatchRecord => decide (batch.batchId = batchId)) ∘
          m.payoutBatchRecord) = _ := found
  rw [same]
  have status := mirrors.batches.any_status batchId statuses.contains
  cases here : db.payoutBatches.find? batchId with
  | none =>
      rw [mirrors.batches.find?_none.2 here, Db.byId_of_miss (by rw [here]; rfl)]
      rfl
  | some row =>
      obtain ⟨draft, there, own, -, -⟩ := mirrors.batches.draft_of_row here
      rw [here, Option.any_some] at status
      rw [there]
      cases allowed : statuses.contains row.status with
      | false =>
          rw [Db.byId_of_miss (by rw [here]; exact allowed), Option.filter_some_neg]
          · rfl
          · rw [own, status, allowed]
      | true =>
          rw [Db.byId_of_found here allowed, Option.filter_some_pos]
          · refine congrArg (Outcome.batch ∘ some) (mirrors.batch_outcome ?_ ?_ ?_).symm
            · exact Table.mem_of_find? here
            · exact Table.mem_of_find? there
            · exact (Table.key_of_find? here).trans own.symm
          · rw [own, status, allowed]

/-- The draft behind a row, with the recipients the record has. -/
theorem draft_of_found (mirrors : Mirrors db m) {batchId : String} {row : PayoutBatchRow}
    (found : db.payoutBatches.find? batchId = some row) :
    ∃ draft, m.payoutBatches.find? batchId = some draft ∧ draft.batchId = row.id ∧
      draft.totalBaseUnits = row.totalBaseUnits ∧
      draft.recipients.Perm (db.hydratePayoutBatchRecord row).recipients := by
  have named : row.id = batchId := Table.key_of_find? found
  obtain ⟨draft, there, own, total, recipients⟩ := mirrors.batches.draft_of_row found
  refine ⟨draft, there, own.trans named.symm, total, ?_⟩
  rw [← Multiset.coe_eq_coe, hydrated_recipients, recipients, named]

theorem retryFailedPayout (mirrors : Mirrors db m) {batchId newBatchId : String}
    (room : db.payoutBatches.rows.length < 2 ^ 63 - 1)
    (alike : ∀ original, db.payoutBatchByIdAndStatuses batchId [.failed, .cancelled] =
      some original →
        db.LocksAlike ⟨newBatchId, original.recipients, original.totalBaseUnits, []⟩) :
    Agree (db.call env (.retryFailedPayout batchId newBatchId))
      (m.call (.retryFailedPayout batchId newBatchId)) := by
  have status := mirrors.batches.any_status batchId [PayoutStatus.failed, .cancelled].contains
  simp only [Db.call, InMemoryRepository.call, Db.retryFailedPayout,
    InMemoryRepository.retryFailedPayout]
  cases hit : (m.payoutStatuses batchId).any [PayoutStatus.failed, .cancelled].contains with
  | false =>
      rw [Db.byId_of_miss (by rw [← status, hit])]
      exact ⟨rfl, mirrors⟩
  | true =>
      rw [hit] at status
      obtain ⟨row, found, allowed⟩ := (Option.any_eq_true _ _).1 status.symm
      obtain ⟨draft, there, -, total, perm⟩ := mirrors.draft_of_found found
      have byId := Db.byId_of_found found allowed
      have alike' := alike _ byId
      have locks : db.payoutBatches.find? newBatchId = none →
          (InMemoryRepository.lockEntries
            ⟨newBatchId, draft.recipients, draft.totalBaseUnits, []⟩).Perm
              ((db.hydratePayoutBatchRecord row).recipients.map (Books.lockEntry newBatchId)) := by
        intro fresh
        obtain taken | ⟨-, new, -⟩ := alike'.2
        · exact absurd fresh taken
        · have small : ∀ r ∈ draft.recipients, r.amountBaseUnits < 2 ^ 127 :=
            fun r member => (new r (perm.mem_iff.1 member)).1
          exact (lockEntries_perm ⟨newBatchId, draft.recipients, draft.totalBaseUnits, []⟩ small
            (.inl rfl)).trans (perm.map _)
      obtain ⟨created, db', m', went, went', after⟩ := mirrors.createLocked
        ⟨newBatchId, draft.recipients, draft.totalBaseUnits, []⟩ .created env.now alike' rfl total
        perm locks
      have listed : Outcome.ofBatch ((m'.listPayoutBatchesByStatus [.created] (2 ^ 63 - 1)).find?
            fun batch => batch.batchId = newBatchId) =
          Outcome.ofBatch (db'.payoutBatchByIdAndStatuses newBatchId [.created]) :=
        after.listed_byId newBatchId [.created] (by have := Db.createLocked_length went; omega)
      rw [byId, there]
      dsimp only
      rw [Db.createLockedPayoutBatch, went, InMemoryRepository.createLockedPayoutBatch, went']
      cases created with
      | false => exact ⟨rfl, after⟩
      | true => exact ⟨listed.symm, after⟩

theorem markCancelled (mirrors : Mirrors db m) {batchId : String}
    (hit : (m.payoutStatuses batchId).any Db.cancellable.contains = true) :
    (db.markPayoutCancelled batchId).1 = true ∧
      Mirrors (db.markPayoutCancelled batchId).2 (m.setStatus batchId .cancelled) := by
  have agree : Agree ((db.markPayoutCancelled batchId).map .flag id)
      ((if !(m.payoutStatuses batchId).any Db.cancellable.contains then (false, m)
        else (true, m.setStatus batchId .cancelled)).map .flag id) :=
    mirrors.updated fun _ found _ => mirrors.update_same found .cancelled
  rw [hit] at agree
  exact ⟨Outcome.flag.inj agree.1, agree.2⟩

/-- The database closes a batch in the order of the miners, and memory in the order of the
draft. -/
theorem unlock_perm (mirrors : Mirrors db m) (batch batch' : PayoutBatchRecord)
    (id : batch'.batchId = batch.batchId) (perm : batch'.recipients.Perm batch.recipients)
    (distinct : (batch.recipients.map (·.miner)).Nodup)
    (alike : db.books.AppendAlike (Db.unlockEntries batch)) :
    ∃ count db' m', db.unlockFailedPayout batch = .ok (count, db') ∧
      m.unlockFailedPayout batch' = (.ok count, m') ∧ Mirrors db' m' := by
  obtain ⟨fits, books, balances, appended, moved, mirror⟩ := mirrors.books.append alike
  have entries : (Db.unlockEntries batch').Perm (Db.unlockEntries batch) := by
    unfold Db.unlockEntries
    rw [id]
    exact perm.map _
  obtain ⟨second, movedBy, after⟩ :=
    mirror.reorder entries (entry_miners_nodup (fun _ => rfl) distinct) fits moved
  refine ⟨(Db.unlockEntries batch).length, { db with books }, { m with
    balances := second
    ledgerEntries := m.ledgerEntries ++ Db.unlockEntries batch' }, ?_, ?_,
    { mirrors with books := after }⟩
  · rw [Db.unlockFailedPayout, Db.appendLedgerEntries, appended]
    rfl
  · rw [InMemoryRepository.unlockFailedPayout, InMemoryRepository.appendLedgerEntries, movedBy,
      ← entries.length_eq]

theorem cancelPayout (mirrors : Mirrors db m) {batchId : String}
    (alike : ∀ batch, db.payoutBatchByIdAndStatuses batchId Db.cancellable = some batch →
      db.books.AppendAlike (Db.unlockEntries batch)) :
    Agree (db.call env (.cancelPayout batchId)) (m.call (.cancelPayout batchId)) := by
  have status := mirrors.batches.any_status batchId Db.cancellable.contains
  simp only [Db.call, InMemoryRepository.call, Db.cancelPayout, InMemoryRepository.cancelPayout]
  cases hit : (m.payoutStatuses batchId).any [.needsApproval, .created, .signed].contains with
  | false =>
      rw [Db.byId_of_miss (by rw [← status]; exact hit)]
      exact ⟨rfl, mirrors⟩
  | true =>
      rw [show (m.payoutStatuses batchId).any Db.cancellable.contains = true from hit] at status
      obtain ⟨row, found, allowed⟩ := (Option.any_eq_true _ _).1 status.symm
      obtain ⟨draft, there, own, total, perm⟩ := mirrors.draft_of_found found
      obtain ⟨marked, after⟩ := mirrors.markCancelled hit
      have byId := Db.byId_of_found found allowed
      have shown := mirrors.batch_outcome (Table.mem_of_find? found) (Table.mem_of_find? there)
        own.symm
      obtain ⟨count, db', m', closed, closed', after'⟩ := after.unlock_perm
        (db.hydratePayoutBatchRecord row)
        { (m.setStatus batchId .cancelled).payoutBatchRecord draft with status := .cancelled }
        own perm (Db.hydrated_distinct db row) (alike _ byId)
      have there' : (m.setStatus batchId .cancelled).payoutBatches.find? batchId = some draft :=
        there
      rw [byId, there']
      dsimp only
      rw [marked, if_pos rfl, closed, closed']
      refine ⟨?_, after'⟩
      exact congrArg (fun row : BatchOutcome => Outcome.batch (some { row with
        status := .cancelled })) shown

end Mirrors

end CsdPool
