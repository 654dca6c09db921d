/-
# Memory.Blocks — the blocks of both repositories

A candidate is one row in the database and up to three map entries in memory, the last of which,
in `reward_blocks`, an update never takes back.  `BlocksMirror` is the correspondence by hash;
recording a candidate and updating a status keep it.
-/
import CsdPool.Memory.Listings
import CsdPool.Memory.Past

namespace CsdPool

open Theory (Keyed Table)

set_option autoImplicit false

/-- The record memory keeps of a row. -/
def blockRecord (row : BlockRow) : BlockRecord where
  hashHex := row.hash
  jobId := row.jobId.getD ""
  status := row.status
  height := row.height.map Int.toNat
  confirmations := row.confirmations
  rewardBaseUnits := row.rewardBaseUnits

theorem toBlockRecord_eq {row : BlockRow}
    (nonneg : ∀ height, row.height = some height → 0 ≤ height) :
    Db.toBlockRecord row = .ok (blockRecord row) := by
  unfold Db.toBlockRecord blockRecord
  dsimp only
  cases height : row.height with
  | none => rfl
  | some h => exact if_pos (nonneg h height)

theorem initialStatus_ne_confirmed (block : BlockCandidateRecord) :
    block.initialStatus ≠ .confirmed := by
  unfold BlockCandidateRecord.initialStatus
  dsimp only
  repeat' split
  all_goals simp

structure BlocksMirror (blocks : Table BlockRow) (candidates : Table BlockCandidateRecord)
    (statuses : Table BlockRecord) (rewardBlocks : Table RewardBlock) : Prop where
  candidates : ∀ hash, (candidates.find? hash).isSome = (blocks.find? hash).isSome
  statuses : ∀ hash, statuses.find? hash = (blocks.find? hash).map blockRecord
  sound : ∀ hash row, blocks.find? hash = some row →
    row.jobId.isSome = true ∧ ∀ height, row.height = some height → 0 ≤ height
  rewards : ∀ hash row, blocks.find? hash = some row → row.status = .confirmed →
    0 < row.rewardBaseUnits → rewardBlocks.find? hash = some (Db.toRewardBlock row)

namespace BlocksMirror

variable {blocks : Table BlockRow} {candidates : Table BlockCandidateRecord}
  {statuses : Table BlockRecord} {rewardBlocks : Table RewardBlock}

/-- One row is written, and the map entries for it. -/
theorem written {blocks' : Table BlockRow} {candidates' : Table BlockCandidateRecord}
    {statuses' : Table BlockRecord} {rewardBlocks' : Table RewardBlock}
    (mirror : BlocksMirror blocks candidates statuses rewardBlocks) (hash : String)
    (row : BlockRow)
    (block : ∀ other, blocks'.find? other =
      if hash = other then some row else blocks.find? other)
    (candidate : ∀ other, (candidates'.find? other).isSome =
      if hash = other then true else (candidates.find? other).isSome)
    (status : ∀ other, statuses'.find? other =
      if hash = other then some (blockRecord row) else statuses.find? other)
    (sound : row.jobId.isSome = true ∧ ∀ height, row.height = some height → 0 ≤ height)
    (kept : ∀ other, hash ≠ other → rewardBlocks'.find? other = rewardBlocks.find? other)
    (rewarded : row.status = .confirmed → 0 < row.rewardBaseUnits →
      rewardBlocks'.find? hash = some (Db.toRewardBlock row)) :
    BlocksMirror blocks' candidates' statuses' rewardBlocks' := by
  refine ⟨fun other => ?_, fun other => ?_, fun other row' found => ?_,
    fun other row' found confirmed reward => ?_⟩
  · rw [block, candidate]
    by_cases own : hash = other
    · rw [if_pos own, if_pos own]
      rfl
    · rw [if_neg own, if_neg own]
      exact mirror.candidates other
  · rw [block, status]
    by_cases own : hash = other
    · rw [if_pos own, if_pos own]
      rfl
    · rw [if_neg own, if_neg own]
      exact mirror.statuses other
  · rw [block] at found
    by_cases own : hash = other
    · rw [if_pos own] at found
      cases found
      exact sound
    · rw [if_neg own] at found
      exact mirror.sound other row' found
  · rw [block] at found
    by_cases own : hash = other
    · rw [if_pos own] at found
      cases found
      exact own ▸ rewarded confirmed reward
    · rw [if_neg own] at found
      rw [kept other own]
      exact mirror.rewards other row' found confirmed reward

/-- **A new candidate.** -/
theorem record (mirror : BlocksMirror blocks candidates statuses rewardBlocks)
    {block : BlockCandidateRecord} (now : Nat) (fresh : blocks.find? block.hashHex = none) :
    BlocksMirror (blocks.insert (Db.candidateRow block now)).1 (candidates.put block)
      (statuses.put
        { hashHex := block.hashHex
          jobId := block.jobId
          status := block.initialStatus
          height := none
          confirmations := 0
          rewardBaseUnits := block.rewardBaseUnits })
      (if block.rewardBaseUnits > 0 then
        rewardBlocks.put
          { hashHex := block.hashHex
            jobId := block.jobId
            rewardBaseUnits := block.rewardBaseUnits }
      else rewardBlocks) := by
  refine mirror.written block.hashHex (Db.candidateRow block now)
    (fun other => ?_) (fun other => ?_) (fun other => Table.find?_put ..)
    ⟨rfl, fun height none_ => by cases none_⟩ (fun other different => ?_)
    (fun confirmed => absurd confirmed (initialStatus_ne_confirmed block))
  · rw [Table.find?_insert]
    by_cases own : block.hashHex = other
    · rw [if_pos own, if_pos ⟨own, own ▸ fresh⟩]
    · rw [if_neg own, if_neg fun hit => own hit.1]
  · rw [Table.find?_put, apply_ite Option.isSome]
    rfl
  · split
    · exact (Table.find?_put ..).trans (if_neg different)
    · rfl

/-- **A status update.** -/
theorem update (mirror : BlocksMirror blocks candidates statuses rewardBlocks)
    {update : BlockStatusUpdate} {row : BlockRow} (now : Nat)
    (found : blocks.find? update.hashHex = some row)
    (small : ∀ height, update.height = some height → height < 2 ^ 63) :
    BlocksMirror (blocks.update update.hashHex (fun _ => true) (Db.setStatus update now)).1
      candidates
      (statuses.put
        { blockRecord row with
          status := update.status
          height := update.height
          confirmations := update.confirmations
          rewardBaseUnits := update.rewardBaseUnits })
      (if update.status = .confirmed ∧ update.rewardBaseUnits > 0 then
        rewardBlocks.put
          { hashHex := update.hashHex
            jobId := (blockRecord row).jobId
            rewardBaseUnits := update.rewardBaseUnits }
      else rewardBlocks) := by
  have named : row.hash = update.hashHex := Table.key_of_find? found
  have wide : ∀ h, update.height = some h → asI64 h = h := fun h here => if_pos (small h here)
  have shown : blockRecord (Db.setStatus update now row) =
      { blockRecord row with
        status := update.status
        height := update.height
        confirmations := update.confirmations
        rewardBaseUnits := update.rewardBaseUnits } := by
    unfold blockRecord Db.setStatus
    cases height : update.height with
    | none => rfl
    | some h =>
        simp only [Option.map_some, wide h height]
        rfl
  refine mirror.written update.hashHex (Db.setStatus update now row) (fun other => ?_)
    (fun other => ?_) (fun other => ?_) ⟨(mirror.sound _ row found).1, fun height written => ?_⟩
    (fun other different => ?_) (fun confirmed rewarded => ?_)
  · refine (Table.find?_update blocks update.hashHex (fun _ => true) (Db.setStatus update now)
      (fun _ => rfl) other).trans ?_
    by_cases own : update.hashHex = other
    · rw [if_pos own, ← own, found, Option.map_some, if_pos ⟨rfl, rfl⟩]
    · rw [if_neg own]
      simp only [Ne.symm own, false_and, if_false, Option.map_id']
  · by_cases own : update.hashHex = other
    · rw [if_pos own, ← own, mirror.candidates, found]
      rfl
    · rw [if_neg own]
  · rw [shown, Table.find?_put]
    exact if_congr (by rw [← named]; rfl) rfl rfl
  · obtain ⟨h, here, rfl⟩ := Option.map_eq_some_iff.1 written
    rw [wide h here]
    exact Int.natCast_nonneg h
  · split
    · exact (Table.find?_put ..).trans (if_neg different)
    · rfl
  · have both : update.status = .confirmed ∧ update.rewardBaseUnits > 0 := ⟨confirmed, rewarded⟩
    rw [if_pos both, Table.find?_put]
    refine (if_pos rfl).trans (congrArg some ?_)
    unfold Db.toRewardBlock Db.setStatus blockRecord
    dsimp only
    rw [named]

/-! ## Listings -/

/-- The polled blocks. -/
theorem polled {db : Db} {m : InMemoryRepository} {limit : Int}
    (mirror : BlocksMirror db.blocks m.blockCandidates m.blockStatuses m.rewardBlocks)
    (nonneg : 0 ≤ limit) (alike : KeysCutAlike (db.pollable.map (·.hash)) limit) :
    Outcome.ofResult .ofBlocks (Db.limited limit db.listBlocksToReconcile) =
      .ofBlocks (m.listBlocksToReconcile limit) := by
  have found : ∀ row ∈ db.pollable, db.blocks.find? row.hash = some row := fun row member =>
    Table.find?_of_mem (Db.mem_pollable.1 member).1
  have read : (db.pollable.take limit.toNat).mapM Db.toBlockRecord =
      .ok ((db.pollable.take limit.toNat).map blockRecord) :=
    Theory.mapM_of_forall fun row member => toBlockRecord_eq
      (mirror.sound row.hash row (found row (List.mem_of_mem_take member))).2
  rw [limited_ok nonneg, Db.listBlocksToReconcile, read]
  have keys : (db.pollable.map (·.hash)).Perm ((m.blockStatuses.rows.filter fun block =>
      InMemoryRepository.polledStatuses.contains block.status).map Keyed.key) := by
    refine ((List.perm_insertionSort _ _).map _).trans ?_
    refine Theory.keys_filter_perm fun hash => ?_
    rw [mirror.statuses, Option.any_map]
    rfl
  have listed := listing_perm (f := blockRecord) (g := id) keys alike
    fun row inRows block inMap same => by
    have here := mirror.statuses row.hash
    rw [found row inRows, Option.map_some] at here
    have there := Table.find?_of_mem inMap
    rw [← same, here] at there
    exact Option.some.inj there
  rw [List.map_id] at listed
  exact congrArg Outcome.blocks (Multiset.coe_eq_coe.2 listed)

/-- The blocks to settle. -/
theorem unsettled {db : Db} {m : InMemoryRepository} {past : Past} {limit : Int}
    (mirror : BlocksMirror db.blocks m.blockCandidates m.blockStatuses m.rewardBlocks)
    (remembers : Remembers past m) (nonneg : 0 ≤ limit) (same : UnsettledAlike past db)
    (alike : KeysCutAlike (db.unsettled.map (·.hash)) limit)
    (ledger : m.ledgerEntries.Perm db.books.ledgerEntries.rows) :
    Outcome.ofResult .ofRewardBlocks
        (Db.limited limit fun n => .ok (db.listConfirmedUnsettledBlocks n)) =
      .ofRewardBlocks (m.listConfirmedUnsettledBlocks limit) := by
  have settled : ∀ hash, m.settled hash = db.hasBlockEntry hash := fun hash => ledger.any_eq
  have block : ∀ row ∈ db.unsettled,
      m.rewardBlocks.find? row.hash = some (Db.toRewardBlock row) := by
    intro row member
    obtain ⟨inRows, status, rewarded, -, -⟩ := Db.mem_unsettled.1 member
    exact mirror.rewards row.hash row (Table.find?_of_mem inRows) status rewarded
  have noReward : ∀ hash, db.hasBlockEntry hash = false → db.hasReward hash = false := by
    intro hash untouched
    rw [Db.hasReward, List.any_eq_false]
    intro entry member hit
    rw [Db.hasBlockEntry, List.any_eq_false] at untouched
    rw [Bool.and_eq_true] at hit
    exact untouched entry member hit.1
  have keys : (db.unsettled.map (·.hash)).Perm ((m.rewardBlocks.rows.filter fun block =>
      !m.settled block.hashHex).map Keyed.key) := by
    rw [List.perm_ext_iff_of_nodup (Db.unsettled_nodup db)
      (m.rewardBlocks.unique.sublist (List.filter_sublist.map _))]
    intro hash
    rw [Theory.mem_keys_filter, List.mem_map]
    constructor
    · rintro ⟨row, member, rfl⟩
      obtain ⟨inRows, status, rewarded, -, open_⟩ := Db.mem_unsettled.1 member
      have found : db.blocks.find? row.hash = some row := Table.find?_of_mem inRows
      have confirmed : db.rewarded row.hash = true := by
        unfold Db.rewarded
        rw [found]
        simp [status, rewarded]
      rw [block row member, Option.any_some, settled]
      -- an entry of the block would be its reward
      cases touched : db.hasBlockEntry row.hash with
      | false => exact congrArg not touched
      | true =>
          rw [(same row.hash).2 confirmed touched] at open_
          cases open_
    · intro hit
      obtain ⟨reward, found, unsettled_⟩ := (Option.any_eq_true _ _).1 hit
      have own : reward.hashHex = hash := Table.key_of_find? found
      have open_ : db.hasBlockEntry hash = false := by
        rw [← settled, ← own]
        exact (Bool.not_eq_true' _).mp unsettled_
      have given := remembers.rewards hash (by rw [found]; rfl)
      obtain ⟨row, here, confirmed⟩ := (Option.any_eq_true _ _).1 ((same hash).1 given open_)
      rw [Bool.and_eq_true, decide_eq_true_eq, decide_eq_true_eq] at confirmed
      have named : row.hash = hash := Table.key_of_find? here
      refine ⟨row, Db.mem_unsettled.2 ⟨Table.mem_of_find? here, confirmed.1, confirmed.2, ?_, ?_⟩,
        named⟩
      · exact (mirror.sound hash row here).1
      · rw [named]
        exact noReward hash open_
  have listed := listing_perm (f := Db.toRewardBlock) (g := id) keys alike
    fun row inRows reward inMap own => by
      have there := Table.find?_of_mem inMap
      rw [← own, block row inRows] at there
      exact Option.some.inj there
  rw [limited_ok nonneg]
  rw [List.map_id] at listed
  exact congrArg Outcome.rewardBlocks (Multiset.coe_eq_coe.2 listed)

end BlocksMirror

end CsdPool
