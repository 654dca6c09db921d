/-
# Memory.Batches — the payout batches of both repositories

A batch is one row and its recipients in the database, and four map entries in memory.
`BatchesMirror` is the correspondence by id; a status change keeps it (`BatchesMirror.mark`), and so
does a new batch (`BatchesMirror.insert`).
-/
import CsdPool.Memory.Listings

namespace CsdPool

open Theory (Keyed Table)

set_option autoImplicit false

/-- The recipients of a batch, in no order. -/
def recipientsIn (recipients : Table PayoutRecipientRow) (batchId : String) :
    Multiset PayoutRecipient :=
  ((recipients.rows.filter fun r => r.batchId = batchId).map fun r =>
    (⟨r.miner, r.address, r.amountBaseUnits⟩ : PayoutRecipient) : List PayoutRecipient)

theorem hydrated_recipients (db : Db) (row : PayoutBatchRow) :
    ((db.hydratePayoutBatchRecord row).recipients : Multiset PayoutRecipient) =
      recipientsIn db.payoutRecipients row.id :=
  Multiset.coe_eq_coe.2 ((List.perm_insertionSort _ _).map _)

structure BatchesMirror (batches : Table PayoutBatchRow) (recipients : Table PayoutRecipientRow)
    (drafts : Table PayoutBatchDraft) (statuses : String → Option PayoutStatus)
    (txids rawTxs : String → Option String) : Prop where
  drafts : ∀ id, (drafts.find? id).map (fun draft =>
      (draft.totalBaseUnits, (draft.recipients : Multiset PayoutRecipient))) =
    (batches.find? id).map fun row => (row.totalBaseUnits, recipientsIn recipients id)
  statuses : ∀ id, statuses id = (batches.find? id).map (·.status)
  txids : ∀ id, txids id = (batches.find? id).bind (·.txid)
  rawTxs : ∀ id, rawTxs id = (batches.find? id).bind (·.rawTxHash)
  owned : ∀ r ∈ recipients.rows, batches.find? r.batchId ≠ none

namespace BatchesMirror

variable {batches : Table PayoutBatchRow} {recipients recipients' : Table PayoutRecipientRow}
  {drafts : Table PayoutBatchDraft} {statuses : String → Option PayoutStatus}
  {txids rawTxs : String → Option String}

theorem isSome (mirror : BatchesMirror batches recipients drafts statuses txids rawTxs)
    (id : String) : (drafts.find? id).isSome = (batches.find? id).isSome := by
  have same := congrArg Option.isSome (mirror.drafts id)
  simpa only [Option.isSome_map] using same

theorem find?_none (mirror : BatchesMirror batches recipients drafts statuses txids rawTxs)
    {id : String} : drafts.find? id = none ↔ batches.find? id = none := by
  rw [← Option.not_isSome_iff_eq_none, ← Option.not_isSome_iff_eq_none, mirror.isSome]

theorem contains (mirror : BatchesMirror batches recipients drafts statuses txids rawTxs)
    (id : String) : drafts.contains id = (batches.find? id).isSome := by
  rw [Table.contains_eq_isSome, mirror.isSome]

/-- What memory asks of a status, the `where` clause asks of the row. -/
theorem any_status (mirror : BatchesMirror batches recipients drafts statuses txids rawTxs)
    (id : String) (p : PayoutStatus → Bool) :
    (statuses id).any p = (batches.find? id).any fun row => p row.status := by
  rw [mirror.statuses, Option.any_map]

/-- The draft behind a row. -/
theorem draft_of_row (mirror : BatchesMirror batches recipients drafts statuses txids rawTxs)
    {id : String} {row : PayoutBatchRow} (found : batches.find? id = some row) :
    ∃ draft, drafts.find? id = some draft ∧ draft.batchId = id ∧
      draft.totalBaseUnits = row.totalBaseUnits ∧
      (draft.recipients : Multiset PayoutRecipient) = recipientsIn recipients id := by
  have same := mirror.drafts id
  rw [found, Option.map_some] at same
  obtain ⟨draft, here, parts⟩ := Option.map_eq_some_iff.1 same
  exact ⟨draft, here, Table.key_of_find? here, (Prod.mk.inj parts).1, (Prod.mk.inj parts).2⟩

/-- One row is written, and the map entries for it. -/
theorem written {batches' : Table PayoutBatchRow} {drafts' : Table PayoutBatchDraft}
    (mirror : BatchesMirror batches recipients drafts statuses txids rawTxs) (id : String)
    (row : PayoutBatchRow)
    (batch : ∀ other, batches'.find? other = if other = id then some row else batches.find? other)
    (draft : ∀ other, (drafts'.find? other).map (fun draft =>
        (draft.totalBaseUnits, (draft.recipients : Multiset PayoutRecipient))) =
      if other = id then some (row.totalBaseUnits, recipientsIn recipients' id)
      else (batches.find? other).map fun row =>
        (row.totalBaseUnits, recipientsIn recipients' other))
    (owned : ∀ r ∈ recipients'.rows, r ∈ recipients.rows ∨ r.batchId = id) :
    BatchesMirror batches' recipients' drafts' (Function.update statuses id (some row.status))
      (Function.update txids id row.txid) (Function.update rawTxs id row.rawTxHash) := by
  refine ⟨fun other => ?_, fun other => ?_, fun other => ?_, fun other => ?_, fun r member => ?_⟩
  · rw [batch, draft]
    by_cases own : other = id
    · rw [if_pos own, if_pos own, own, Option.map_some]
    · rw [if_neg own, if_neg own]
  · rw [batch, Function.update_apply]
    by_cases own : other = id
    · rw [if_pos own, if_pos own, Option.map_some]
    · rw [if_neg own, if_neg own]
      exact mirror.statuses other
  · rw [batch, Function.update_apply]
    by_cases own : other = id
    · rw [if_pos own, if_pos own, Option.bind_some]
    · rw [if_neg own, if_neg own]
      exact mirror.txids other
  · rw [batch, Function.update_apply]
    by_cases own : other = id
    · rw [if_pos own, if_pos own, Option.bind_some]
    · rw [if_neg own, if_neg own]
      exact mirror.rawTxs other
  · rw [batch]
    split
    · exact Option.some_ne_none _
    · rename_i other
      exact mirror.owned r ((owned r member).resolve_right other)

/-- **A status change.** -/
theorem mark (mirror : BatchesMirror batches recipients drafts statuses txids rawTxs)
    {id : String} {row : PayoutBatchRow} {p : PayoutBatchRow → Bool}
    {set : PayoutBatchRow → PayoutBatchRow} (keeps : ∀ r, (set r).id = r.id)
    (found : batches.find? id = some row) (allowed : p row = true)
    (total : (set row).totalBaseUnits = row.totalBaseUnits) :
    BatchesMirror (batches.update id p set keeps).1 recipients drafts
      (Function.update statuses id (some (set row).status))
      (Function.update txids id (set row).txid)
      (Function.update rawTxs id (set row).rawTxHash) := by
  refine mirror.written id (set row) (fun other => ?_) (fun other => ?_) fun _ => .inl
  · rw [Table.find?_update]
    by_cases own : other = id
    · rw [if_pos own, own, found, Option.map_some, if_pos ⟨rfl, allowed⟩]
    · rw [if_neg own]
      simp only [own, false_and, if_false, Option.map_id']
  · rw [mirror.drafts]
    by_cases own : other = id
    · rw [if_pos own, own, found, Option.map_some, total]
    · rw [if_neg own]

/-- A column that the change leaves is what memory has. -/
theorem update_txid (mirror : BatchesMirror batches recipients drafts statuses txids rawTxs)
    {id : String} {row : PayoutBatchRow} (found : batches.find? id = some row) :
    Function.update txids id row.txid = txids ∧
      Function.update rawTxs id row.rawTxHash = rawTxs := by
  have txid := mirror.txids id
  have rawTx := mirror.rawTxs id
  rw [found, Option.bind_some] at txid rawTx
  rw [← txid, ← rawTx]
  exact ⟨Function.update_eq_self id txids, Function.update_eq_self id rawTxs⟩

/-- **A new batch.** -/
theorem insert (mirror : BatchesMirror batches recipients drafts statuses txids rawTxs)
    {row : PayoutBatchRow} {draft : PayoutBatchDraft} {rows : List PayoutRecipient}
    (fresh : batches.find? row.id = none) (same : draft.batchId = row.id)
    (total : draft.totalBaseUnits = row.totalBaseUnits) (noTxid : row.txid = none)
    (noRawTx : row.rawTxHash = none) (perm : draft.recipients.Perm rows)
    (added : recipients'.rows = recipients.rows ++ rows.map (Db.recipientRow row.id)) :
    BatchesMirror (batches.insert row).1 recipients' (drafts.put draft)
      (Function.update statuses row.id (some row.status)) txids rawTxs := by
  have ownRows : recipientsIn recipients' row.id = rows := by
    unfold recipientsIn
    rw [added, List.filter_append, List.filter_eq_nil_iff.2, List.nil_append, List.filter_map,
      List.filter_eq_self.2, List.map_map]
    · exact congrArg _ (List.map_id rows)
    · exact fun r _ => decide_eq_true rfl
    · intro r member hit
      exact mirror.owned r member (of_decide_eq_true hit ▸ fresh)
  have otherRows : ∀ other, other ≠ row.id →
      recipientsIn recipients' other = recipientsIn recipients other := by
    intro other different
    unfold recipientsIn
    rw [added, List.filter_append, List.filter_map, (List.filter_eq_nil_iff (l := rows)).2,
      List.map_nil, List.append_nil]
    intro r _ hit
    exact different (of_decide_eq_true hit).symm
  have noColumns : Function.update txids row.id row.txid = txids ∧
      Function.update rawTxs row.id row.rawTxHash = rawTxs := by
    have txid := mirror.txids row.id
    have rawTx := mirror.rawTxs row.id
    rw [fresh, Option.bind_none] at txid rawTx
    rw [noTxid.trans txid.symm, noRawTx.trans rawTx.symm]
    exact ⟨Function.update_eq_self _ txids, Function.update_eq_self _ rawTxs⟩
  have batch : ∀ other, (batches.insert row).1.find? other =
      if other = row.id then some row else batches.find? other := by
    intro other
    rw [Table.find?_insert]
    by_cases own : other = row.id
    · rw [if_pos own, own, if_pos ⟨rfl, fresh⟩]
    · rw [if_neg own, if_neg fun hit => own hit.1.symm]
  have shown : ∀ other, ((drafts.put draft).find? other).map (fun draft =>
        (draft.totalBaseUnits, (draft.recipients : Multiset PayoutRecipient))) =
      if other = row.id then some (row.totalBaseUnits, recipientsIn recipients' row.id)
      else (batches.find? other).map fun row =>
        (row.totalBaseUnits, recipientsIn recipients' other) := by
    intro other
    rw [Table.find?_put]
    by_cases own : other = row.id
    · rw [if_pos own, own, ownRows, ← total, ← Multiset.coe_eq_coe.2 perm]
      exact congrArg _ (if_pos same)
    · rw [if_neg own, otherRows other own, ← mirror.drafts]
      exact congrArg _ (if_neg fun hit : draft.batchId = other => own (hit.symm.trans same))
  have went := mirror.written row.id row batch shown fun r member => by
    rw [added] at member
    refine (List.mem_append.1 member).imp_right fun new => ?_
    obtain ⟨recipient, -, rfl⟩ := List.mem_map.1 new
    rfl
  rwa [noColumns.1, noColumns.2] at went

end BatchesMirror

end CsdPool
