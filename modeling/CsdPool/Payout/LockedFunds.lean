/-
# Payout.LockedFunds — what a miner has locked belongs to open recipients

A recipient's amount enters `locked_base_units` when his batch is inserted and is meant to leave it
with his closing entry.  `openAmount` adds up a miner's amounts without a closing entry; his locked
column never exceeds it (`locked_backed`), whatever the guards of the balance updates do, as long as
every amount survives `as i128` (`AmountsFit`).  A larger one is closed by an entry of the wrong
sign, and stays in the column.

* `entries_match`: a closing entry is a recipient's, with his amount.
* `backed_closing`, `backed_insert`: what one closing entry and one inserted recipient do to the
  column and to the sum.
-/
import CsdPool.Db.Projection
import CsdPool.Payout.Exclusivity

namespace CsdPool.Payout

open Theory (Keyed Table Machine)

set_option autoImplicit false

variable {cfg : Config} {s s' : State} {e : Event}

/-! ## Open recipients -/

def closingKey (row : PayoutRecipientRow) (kind : LedgerKind) : LedgerKey :=
  ⟨some row.miner, kind, "payout_batch", row.batchId⟩

/-- The ledger has a closing entry for the recipient. -/
def released (books : Books) (row : PayoutRecipientRow) : Bool :=
  books.ledgerEntries.contains (closingKey row .payoutSent) ||
    books.ledgerEntries.contains (closingKey row .payoutFailedUnlock)

/-- A miner's amounts in the rows that count. -/
def amountOf (miner : Address) (counts : PayoutRecipientRow → Bool)
    (recipients : Table PayoutRecipientRow) : Nat :=
  ((recipients.rows.filter fun row => decide (row.miner = miner) && counts row).map
    (·.amountBaseUnits)).sum

/-- What batches without a closing entry for him owe a miner. -/
def openAmount (books : Books) (recipients : Table PayoutRecipientRow) (miner : Address) : Nat :=
  amountOf miner (fun row => !released books row) recipients

/-- A miner has no more locked than open batches owe him. -/
def Backed (books : Books) (recipients : Table PayoutRecipientRow) : Prop :=
  ∀ miner, (books.balance miner).lockedBaseUnits ≤ openAmount books recipients miner

/-- No recipient is inserted with an amount that changes its sign as an `i128`. -/
def AmountsFit (s : State) (e : Event) : Prop :=
  ∀ pid env pc draft status, e = .run pid env → s.At pid pc →
    pc.write = some (.createLocked draft status) →
      ∀ recipient ∈ draft.recipients, recipient.amountBaseUnits < 2 ^ 127

def closes : LedgerKind → Bool
  | .payoutSent | .payoutFailedUnlock => true
  | _ => false

theorem closes_inside {kind : LedgerKind} (closing : closes kind = true) :
    ¬ outsidePayouts kind = true := by
  cases kind with
  | payoutSent => exact Bool.false_ne_true
  | payoutFailedUnlock => exact Bool.false_ne_true
  | _ => cases closing

/-- The amount of a closing entry. -/
def closingAmount (kind : LedgerKind) (amount : Nat) : Int :=
  match kind with
  | .payoutSent => -amount
  | _ => amount

theorem amountOf_congr {miner : Address} {counts counts' : PayoutRecipientRow → Bool}
    {recipients : Table PayoutRecipientRow}
    (same : ∀ row ∈ recipients.rows, row.miner = miner → counts' row = counts row) :
    amountOf miner counts' recipients = amountOf miner counts recipients := by
  unfold amountOf
  congr 2
  apply List.filter_congr
  intro row member
  by_cases own : row.miner = miner
  · rw [same row member own]
  · simp [own]

/-- Fewer rows, smaller amount. -/
theorem amountOf_mono {miner : Address} {counts counts' : PayoutRecipientRow → Bool}
    {recipients : Table PayoutRecipientRow}
    (implies : ∀ row ∈ recipients.rows, counts row = true → counts' row = true) :
    amountOf miner counts recipients ≤ amountOf miner counts' recipients := by
  unfold amountOf
  refine List.Sublist.sum_le_sum (List.Sublist.map _ ?_) fun _ _ => Nat.zero_le _
  have among : (recipients.rows.filter fun row => decide (row.miner = miner) && counts row) =
      (recipients.rows.filter fun row => decide (row.miner = miner) && counts' row).filter
        counts := by
    rw [List.filter_filter]
    apply List.filter_congr
    intro row member
    cases counted : counts row with
    | false => simp
    | true => simp [implies row member counted]
  rw [among]
  exact List.filter_sublist

/-! ## One entry -/

/-- A closing entry takes its amount out of the locked column, down to zero. -/
theorem moved_locked_le {books : Books} {entry : LedgerEntry} {miner : Address} {amount : Nat}
    (fits : amount < 2 ^ 127) (closing : closes entry.kind = true)
    (amounts : entry.amountBaseUnits = closingAmount entry.kind amount) :
    (books.moved entry miner).lockedBaseUnits ≤
      max ((books.balance miner).lockedBaseUnits - amount) 0 := by
  have noRow : books.hasBalanceRow miner = false → books.balance miner = {} :=
    Books.balance_of_absent
  unfold Books.moved
  cases kind : entry.kind with
  | payoutSent =>
      have sent : entry.amountBaseUnits = -amount := by rw [amounts, kind]; rfl
      simp only [Balance.guarded, sent, Balance.send, negI128]
      cases present : books.hasBalanceRow miner with
      | false => simp [noRow present]
      | true =>
          by_cases some : -(amount : Int) < 0
          · rw [if_pos ⟨some, rfl⟩, if_neg (by omega)]
            exact Int.le_of_eq (by rw [Int.neg_neg])
          · rw [if_neg fun hit => some hit.1]
            omega
  | payoutFailedUnlock =>
      have unlocked : entry.amountBaseUnits = amount := by rw [amounts, kind]; rfl
      simp only [Balance.guarded, unlocked, Balance.unlock]
      cases present : books.hasBalanceRow miner with
      | false => simp [noRow present]
      | true =>
          by_cases some : (amount : Int) > 0
          · rw [if_pos ⟨some, rfl⟩]
          · rw [if_neg fun hit => some hit.1]
            omega
  | _ => rw [kind] at closing; cases closing

/-- Entries from outside the payout path do not touch the locked column. -/
theorem moved_locked_outside {books : Books} {entry : LedgerEntry} (miner : Address)
    (outside : outsidePayouts entry.kind = true) :
    (books.moved entry miner).lockedBaseUnits = (books.balance miner).lockedBaseUnits := by
  unfold Books.moved
  cases kind : entry.kind with
  | rewardImmature => simp only [Balance.guarded, Balance.creditImmature]; split <;> rfl
  | rewardMature => simp only [Balance.guarded, Balance.mature]; split <;> rfl
  | rewardOrphanReversal =>
      simp only [Balance.guarded, Balance.reverseMatured, Balance.reverseImmature]
      split
      · split <;> rfl
      · rfl
  | poolFee => rfl
  | manualAdjustment => rfl
  | _ => rw [kind] at outside; cases outside

theorem released_of_kept {books books' : Books} {row : PayoutRecipientRow}
    (kept : ∀ kind, closes kind = true → books'.ledgerEntries.find? (closingKey row kind) =
      books.ledgerEntries.find? (closingKey row kind)) :
    released books' row = released books row := by
  unfold released
  rw [Table.contains_eq_isSome, Table.contains_eq_isSome, Table.contains_eq_isSome,
    Table.contains_eq_isSome, kept _ rfl, kept _ rfl]

/-- Who has a closing entry is released. -/
theorem released_of_found {books : Books} {row : PayoutRecipientRow} {kind : LedgerKind}
    (closing : closes kind = true)
    (found : books.ledgerEntries.find? (closingKey row kind) ≠ none) :
    released books row = true := by
  obtain ⟨x, hit⟩ := Option.ne_none_iff_exists'.1 found
  unfold released
  rw [Table.contains_eq_isSome, Table.contains_eq_isSome]
  cases kind with
  | payoutSent => simp [hit]
  | payoutFailedUnlock => simp [hit]
  | _ => cases closing

theorem backed_outside {books books' : Books} {recipients : Table PayoutRecipientRow}
    {entry : LedgerEntry} (backed : Backed books recipients)
    (outside : outsidePayouts entry.kind = true)
    (appended : books.appendLedgerEntry entry = .ok books') : Backed books' recipients := by
  obtain ⟨-, ⟨-, rfl⟩ | ⟨fresh, -, -⟩⟩ := Books.appendLedgerEntry_ok appended
  · exact backed
  intro miner
  have kept : openAmount books' recipients miner = openAmount books recipients miner := by
    refine amountOf_congr fun row _ _ => ?_
    rw [released_of_kept fun kind closing => ?_]
    rw [Books.find?_appendLedgerEntry appended, if_neg]
    rintro ⟨same, -⟩
    have kinds : entry.kind = kind := congrArg LedgerKey.kind same
    exact closes_inside (kinds ▸ closing) outside
  rw [kept, Books.balance_appendLedgerEntry fresh appended]
  split
  · rw [moved_locked_outside miner outside]
    exact backed miner
  · exact backed miner

/-- **A closing entry takes no less out of the column than out of the sum.** -/
theorem backed_closing {books books' : Books} {recipients : Table PayoutRecipientRow}
    {entry : LedgerEntry} {row : PayoutRecipientRow} (backed : Backed books recipients)
    (member : row ∈ recipients.rows) (fits : row.amountBaseUnits < 2 ^ 127)
    (closing : closes entry.kind = true) (key : entry.ledgerKey = closingKey row entry.kind)
    (amount : entry.amountBaseUnits = closingAmount entry.kind row.amountBaseUnits)
    (appended : books.appendLedgerEntry entry = .ok books') : Backed books' recipients := by
  obtain ⟨-, ⟨-, rfl⟩ | ⟨fresh, -, -⟩⟩ := Books.appendLedgerEntry_ok appended
  · exact backed
  have own : entry.miner = some row.miner := congrArg LedgerKey.miner key
  -- only the recipient's own row changes
  have others : ∀ other ∈ recipients.rows, Keyed.key other ≠ Keyed.key row →
      released books' other = released books other := by
    intro other _ different
    refine released_of_kept fun kind _ => ?_
    rw [Books.find?_appendLedgerEntry appended, if_neg]
    rintro ⟨same, -⟩
    rw [key] at same
    simp only [closingKey, LedgerKey.mk.injEq, Option.some.injEq] at same
    exact different (Prod.ext same.2.2.2.symm same.1.symm)
  intro miner
  rw [Books.balance_appendLedgerEntry fresh appended]
  have before := backed miner
  by_cases mine : row.miner = miner
  · subst mine
    rw [if_pos own]
    have taken : (books.moved entry row.miner).lockedBaseUnits ≤
        max ((books.balance row.miner).lockedBaseUnits - row.amountBaseUnits) 0 :=
      moved_locked_le fits closing amount
    have now : released books' row = true := by
      refine released_of_found closing ?_
      rw [← key]
      exact Books.appendLedgerEntry_present appended
    cases was : released books row with
    | true =>
        have same : openAmount books' recipients row.miner =
            openAmount books recipients row.miner := by
          refine amountOf_congr fun other inRows _ => ?_
          by_cases self : Keyed.key other = Keyed.key row
          · have rows : other = row := by
              have found := Table.find?_of_mem inRows
              rw [self, Table.find?_of_mem member] at found
              exact (Option.some.inj found).symm
            rw [rows, now, was]
          · rw [others other inRows self]
        rw [same]
        omega
    | false =>
        have dropped : openAmount books' recipients row.miner + row.amountBaseUnits =
            openAmount books recipients row.miner := by
          refine Table.sum_filter_drop member _ ?_ ?_ ?_
          · intro other inRows different
            simp only [others other inRows different]
          · simp [was]
          · simp [now]
        omega
  · rw [if_neg (by rw [own]; simpa using mine)]
    have same : openAmount books' recipients miner = openAmount books recipients miner := by
      refine amountOf_congr fun other inRows owner => ?_
      rw [others other inRows]
      intro self
      exact mine ((congrArg Prod.snd self).symm.trans owner)
    rw [same]
    exact before

/-! ## A new batch -/

theorem released_iff {books : Books} {row : PayoutRecipientRow} :
    released books row = true ↔ ∃ x ∈ books.ledgerEntries.rows, closes x.kind = true ∧
      x.ledgerKey = closingKey row x.kind := by
  constructor
  · intro is
    rw [released, Bool.or_eq_true, Table.contains_iff, Table.contains_iff] at is
    rcases is with ⟨x, member, key⟩ | ⟨x, member, key⟩
    · have kind : x.kind = .payoutSent := congrArg LedgerKey.kind key
      exact ⟨x, member, by rw [kind]; rfl, by rw [kind]; exact key⟩
    · have kind : x.kind = .payoutFailedUnlock := congrArg LedgerKey.kind key
      exact ⟨x, member, by rw [kind]; rfl, by rw [kind]; exact key⟩
  · rintro ⟨x, member, closing, key⟩
    refine released_of_found closing ?_
    rw [← key]
    exact Option.ne_none_iff_exists'.2 ⟨x, Table.find?_of_mem member⟩

/-- No closing entry is there for the batch yet. -/
def Unclosed (batchId : String) (books : Books) : Prop :=
  ∀ x ∈ books.ledgerEntries.rows, closes x.kind = true → x.refId ≠ batchId

/-- **A recipient is locked and open at once.** -/
theorem backed_insert {batchId : String} {state state' : Books × Table PayoutRecipientRow}
    {recipient : PayoutRecipient}
    (inserted : Db.insertRecipient batchId state recipient = .ok state')
    (unclosed : Unclosed batchId state.1) (backed : Backed state.1 state.2) :
    Unclosed batchId state'.1 ∧ Backed state'.1 state'.2 := by
  obtain ⟨-, rows, locked⟩ := Db.insertRecipient_ok inserted
  obtain ⟨ledger, cache, row, found, covers⟩ := Books.lockRecipient_ok locked
  have grows := Books.lockRecipient_grows locked
  have stillUnclosed : Unclosed batchId state'.1 := by
    intro x member closing
    rcases grows.added x member with old | lock
    · exact unclosed x old closing
    · cases List.mem_singleton.1 lock
      cases closing
  refine ⟨stillUnclosed, fun miner => ?_⟩
  have kept : ∀ other : PayoutRecipientRow, released state'.1 other = released state.1 other := by
    intro other
    refine released_of_kept fun kind closing => ?_
    rw [ledger, Table.find?_insert_ne]
    intro same
    have kinds : LedgerKind.payoutLock = kind := congrArg LedgerKey.kind same
    rw [← kinds] at closing
    cases closing
  have newOpen : released state'.1 (Db.recipientRow batchId recipient) = false := by
    rw [Bool.eq_false_iff]
    intro is
    obtain ⟨x, member, closing, key⟩ := released_iff.1 is
    exact stillUnclosed x member closing (congrArg LedgerKey.refId key)
  have sum : openAmount state'.1 state'.2 miner = openAmount state.1 state.2 miner +
      if recipient.miner = miner then recipient.amountBaseUnits else 0 := by
    unfold openAmount amountOf
    simp only [kept] at newOpen ⊢
    rw [rows, List.filter_append, List.map_append, List.sum_append]
    congr 1
    by_cases own : recipient.miner = miner
    · rw [List.filter_cons_of_pos (by rw [newOpen]; simp [Db.recipientRow, own]), if_pos own]
      rfl
    · rw [List.filter_cons_of_neg (by simp [Db.recipientRow, own]), if_neg own]
      rfl
  have before := backed miner
  have shown_ : Books.shown state.1.balanceCache recipient.miner = row.balance := by
    rw [Books.shown, found]
    rfl
  rw [sum, Books.balance_eq_shown, cache, Books.shown_updateBalance]
  rw [Books.balance_eq_shown] at before
  by_cases own : recipient.miner = miner
  · subst own
    rw [if_pos ⟨rfl, by rw [found]; rfl, by rw [shown_]; simpa using covers⟩, if_pos rfl]
    simp only [Balance.lock]
    omega
  · rw [if_neg fun hit => own hit.1, if_neg own]
    simpa using before

/-! ## Runs -/

theorem recipients_kept (stepped : Stepped cfg s e s') {row : PayoutRecipientRow}
    (member : row ∈ s.db.payoutRecipients.rows) : row ∈ s'.db.payoutRecipients.rows := by
  rcases recipients_added stepped with same |
    ⟨pid, env, pc, draft, status, books, -, -, -, folded, -⟩
  · rw [same]
    exact member
  · rw [Db.insertRecipients_rows folded]
    exact List.mem_append_left _ member

/-- Amounts in the database survive `as i128`. -/
def AmountsKnown (s : State) : Prop :=
  ∀ row ∈ s.db.payoutRecipients.rows, row.amountBaseUnits < 2 ^ 127

theorem amounts_known (reached : (payoutMachine cfg).Reaches AmountsFit s) : AmountsKnown s := by
  refine reached.invariant (I := AmountsKnown) ?_ ?_
  · rintro s rfl row member
    cases member
  · intro s e s' _ known fit step row member
    rcases recipients_added (step_stepped step) with same |
      ⟨pid, env, pc, draft, status, books, is, here, writes, folded, -⟩
    · exact known row (same ▸ member)
    · rw [Db.insertRecipients_rows folded, List.mem_append] at member
      rcases member with old | new
      · exact known row old
      · obtain ⟨recipient, inDraft, rfl⟩ := List.mem_map.1 new
        exact fit pid env pc draft status is here writes recipient inDraft

/-- The recipients and the amounts of the closing entries a run appends. -/
theorem closing_matches (reached : (payoutMachine cfg).Reachable s) (known : AmountsKnown s)
    {pid : Nat} {pc : Pc} {w : Write} {entries : List LedgerEntry} (here : s.At pid pc)
    (writes : pc.write = some w) (closing : w.closing = some entries) {x : LedgerEntry}
    (member : x ∈ entries) : closes x.kind = true ∧ ∃ row ∈ s.db.payoutRecipients.rows,
      x.ledgerKey = closingKey row x.kind ∧
        x.amountBaseUnits = closingAmount x.kind row.amountBaseUnits := by
  obtain ⟨batch, isBatch, shape⟩ := closing_entries writes closing
  obtain ⟨r, held⟩ := held_known reached pid pc here batch (closesBatch_held isBatch)
  have row : ∀ recipient ∈ batch.recipients, ∃ row ∈ s.db.payoutRecipients.rows,
      row.batchId = batch.batchId ∧ row.miner = recipient.miner ∧
        row.amountBaseUnits = recipient.amountBaseUnits := by
    intro recipient inBatch
    rw [held.recipients] at inBatch
    obtain ⟨row, inRows, rfl⟩ := List.mem_map.1 inBatch
    obtain ⟨stored, same⟩ := Db.mem_recipientsOf.1 inRows
    exact ⟨row, stored, same, rfl, rfl⟩
  rcases shape with ⟨rfl, -⟩ | ⟨rfl, -⟩
  · obtain ⟨recipient, inBatch, rfl⟩ := List.mem_map.1 member
    obtain ⟨row, stored, id, miner, amount⟩ := row recipient inBatch
    refine ⟨rfl, row, stored, ?_, ?_⟩
    · rw [closingKey, id, miner]
      rfl
    · rw [amount]
      exact if_pos (amount ▸ known row stored)
  · obtain ⟨recipient, inBatch, rfl⟩ := List.mem_map.1 member
    obtain ⟨row, stored, id, miner, amount⟩ := row recipient inBatch
    refine ⟨rfl, row, stored, ?_, ?_⟩
    · rw [closingKey, id, miner]
      rfl
    · have fits := amount ▸ known row stored
      rw [amount]
      simp only [closingAmount, asI128, if_pos fits, negI128]
      rw [if_neg (by omega)]

/-- A closing entry is a recipient's, with his amount. -/
def EntriesMatch (s : State) : Prop :=
  ∀ x ∈ s.db.books.ledgerEntries.rows, closes x.kind = true →
    ∃ row ∈ s.db.payoutRecipients.rows, x.ledgerKey = closingKey row x.kind ∧
      x.amountBaseUnits = closingAmount x.kind row.amountBaseUnits

theorem entries_match (reached : (payoutMachine cfg).Reaches AmountsFit s) : EntriesMatch s := by
  refine reached.invariant (I := EntriesMatch) ?_ ?_
  · rintro s rfl x member
    cases member
  · intro s e s' reached known _ step x member closing
    have stepped := step_stepped step
    have earlier : ∃ row ∈ s.db.payoutRecipients.rows, x.ledgerKey = closingKey row x.kind ∧
        x.amountBaseUnits = closingAmount x.kind row.amountBaseUnits := by
      rcases (ledger_step stepped).2 x member with old | entered
      · exact known x old closing
      · cases entered with
        | rewarded outside => exact absurd outside (closes_inside closing)
        | locked lock => rw [lock] at closing; cases closing
        | closed _ here writes closes inEntries =>
            exact (closing_matches reached.reachable (amounts_known reached) here writes closes
              inEntries).2
    obtain ⟨row, stored, shape⟩ := earlier
    exact ⟨row, recipients_kept stepped stored, shape⟩

/-- A batch that is not there has no closing entries. -/
theorem unclosed_of_fresh (reached : (payoutMachine cfg).Reaches AmountsFit s) {batchId : String}
    (fresh : s.db.payoutBatches.find? batchId = none) : Unclosed batchId s.db.books := by
  intro x member closing same
  obtain ⟨row, stored, key, -⟩ := entries_match reached x member closing
  have id : x.refId = row.batchId := congrArg LedgerKey.refId key
  exact recipients_owned reached.reachable row stored (id.symm.trans same ▸ fresh)

/-- The recipients of one batch. -/
theorem backed_inserts {batchId : String} {recipients : List PayoutRecipient}
    {state state' : Books × Table PayoutRecipientRow}
    (inserted : recipients.foldlM (Db.insertRecipient batchId) state = .ok state')
    (unclosed : Unclosed batchId state.1) (backed : Backed state.1 state.2) :
    Backed state'.1 state'.2 := by
  have each : ∀ recipient ∈ recipients, ∀ mid mid' : Books × Table PayoutRecipientRow,
      Unclosed batchId mid.1 ∧ Backed mid.1 mid.2 →
        Db.insertRecipient batchId mid recipient = .ok mid' →
          Unclosed batchId mid'.1 ∧ Backed mid'.1 mid'.2 :=
    fun _ _ _ _ holds one => backed_insert one holds.1 holds.2
  exact (Theory.foldlM_invariant each ⟨unclosed, backed⟩ inserted).2

/-- The entries of one transaction. -/
theorem backed_entries {books books' : Books} {recipients : Table PayoutRecipientRow}
    {entries : List LedgerEntry} (backed : Backed books recipients)
    (each : ∀ entry ∈ entries, ∀ mid mid' : Books, Backed mid recipients →
      mid.appendLedgerEntry entry = .ok mid' → Backed mid' recipients)
    (appended : books.appendLedgerEntries entries = .ok books') : Backed books' recipients :=
  Theory.foldlM_invariant each backed appended

theorem backed_step (reached : (payoutMachine cfg).Reaches AmountsFit s)
    (backed : Backed s.db.books s.db.payoutRecipients) (stepped : Stepped cfg s e s') :
    Backed s'.db.books s'.db.payoutRecipients := by
  cases stepped with
  | @wrote pid env pc w updated db here writes committed =>
      rw [State.resume_db]
      rcases exec_cases committed with ⟨draft, status, rfl, ok⟩ |
        ⟨batchId, statuses, set, keeps, ok⟩ | ⟨entries, books, closes, appended, rfl⟩
      · rcases Db.createLocked_ok ok with ⟨-, rfl⟩ | ⟨-, fresh, books, recipients, folded, rfl⟩
        · exact backed
        · exact backed_inserts folded (unclosed_of_fresh reached fresh) backed
      · cases ok
        exact backed
      · refine backed_entries backed (fun x member mid mid' holds one => ?_) appended
        have known := amounts_known reached
        obtain ⟨closing, row, stored, key, amount⟩ :=
          closing_matches reached.reachable known here writes closes member
        exact backed_closing holds stored (known row stored) closing key amount one
  | rewarded outside appended =>
      exact backed_entries backed
        (fun x member _ _ holds one => backed_outside holds (outside x member) one) appended
  | _ => exact backed

/-- **The locked column is backed** in every run whose amounts fit. -/
theorem locked_backed (reached : (payoutMachine cfg).Reaches AmountsFit s) :
    Backed s.db.books s.db.payoutRecipients := by
  refine reached.invariant (I := fun s => Backed s.db.books s.db.payoutRecipients) ?_ ?_
  · rintro s rfl miner
    exact Int.le_refl 0
  · intro s e s' reached backed _ step
    exact backed_step reached backed (step_stepped step)

end CsdPool.Payout
