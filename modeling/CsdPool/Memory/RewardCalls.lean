/-
# Memory.RewardCalls — the calls on jobs, shares, blocks and rewards

The weights of a job are a sum of whole parts in memory and the whole part of a sum of texts in the
database (`sum_asU64`); the entries that await maturing or reversal are selected by two different
readings of which sibling counts (`awaiting_perm`).
-/
import Mathlib.Algebra.Order.Floor.Ring
import Mathlib.Algebra.Order.BigOperators.Group.List
import CsdPool.Memory.Mirrors

namespace CsdPool

open Theory (Keyed Table CutAlike)

set_option autoImplicit false

/-! ## Whole parts -/

/-- Fractions that stay below one together. -/
theorem floor_sum_eq {difficulties : List ℚ} (parts : (difficulties.map Int.fract).sum < 1) :
    ⌊difficulties.sum⌋ = (difficulties.map Int.floor).sum := by
  have split : difficulties.sum =
      (((difficulties.map Int.floor).sum : Int) : ℚ) + (difficulties.map Int.fract).sum := by
    clear parts
    induction difficulties with
    | nil => simp
    | cons d rest ih =>
        simp only [List.map_cons, List.sum_cons, Int.cast_add]
        rw [ih]
        have own := Int.floor_add_fract d
        linarith
  have nonneg : 0 ≤ (difficulties.map Int.fract).sum := by
    refine List.sum_nonneg fun part member => ?_
    obtain ⟨d, -, rfl⟩ := List.mem_map.1 member
    exact Int.fract_nonneg d
  rw [Int.floor_eq_iff, split]
  constructor
  · linarith
  · linarith

theorem sum_floor_toNat {difficulties : List ℚ} (nonneg : ∀ d ∈ difficulties, 0 ≤ d) :
    (((difficulties.map fun d => ⌊d⌋.toNat).sum : Nat) : Int) =
      (difficulties.map Int.floor).sum := by
  induction difficulties with
  | nil => rfl
  | cons d rest ih =>
      rw [List.map_cons, List.map_cons, List.sum_cons, List.sum_cons, Nat.cast_add,
        ih fun other member => nonneg other (List.mem_cons_of_mem _ member),
        Int.toNat_of_nonneg (Int.floor_nonneg.2 (nonneg d List.mem_cons_self))]

/-- What memory adds up is the whole part of the sum. -/
theorem sum_asU64 {difficulties : List ℚ} (nonneg : ∀ d ∈ difficulties, 0 ≤ d)
    (parts : (difficulties.map Int.fract).sum < 1) (small : difficulties.sum < 2 ^ 64) :
    Db.parseIntegerPart difficulties.sum = .ok ((difficulties.map asU64).sum % 2 ^ 64) := by
  have whole := floor_sum_eq parts
  have total : (((difficulties.map fun d => ⌊d⌋.toNat).sum : Nat) : Int) = ⌊difficulties.sum⌋ := by
    rw [whole, sum_floor_toNat nonneg]
  have below : ⌊difficulties.sum⌋ < 2 ^ 64 := by
    rw [Int.floor_lt]
    exact_mod_cast small
  have terms : difficulties.map asU64 = difficulties.map fun d => ⌊d⌋.toNat := by
    refine List.map_congr_left fun d member => min_eq_left ?_
    have one : ⌊d⌋.toNat ≤ (difficulties.map fun d => ⌊d⌋.toNat).sum :=
      List.single_le_sum (fun _ _ => Nat.zero_le _) _ (List.mem_map_of_mem member)
    change ⌊d⌋.toNat ≤ 2 ^ 64 - 1
    omega
  have added : (difficulties.map asU64).sum % 2 ^ 64 = ⌊difficulties.sum⌋.toNat := by
    rw [terms, Nat.mod_eq_of_lt (by omega), ← total, Int.toNat_natCast]
  rw [added]
  exact if_pos ⟨List.sum_nonneg nonneg, below⟩

namespace Mirrors

variable {db : Db} {m : InMemoryRepository} {env : Env}

/-! ## Jobs and shares -/

theorem upsertJob (mirrors : Mirrors db m) {job : JobRecord}
    (admitted : Db.jobAdmitted job = true) :
    Agree (db.call env (.upsertJob job)) (m.call (.upsertJob job)) := by
  have upserted : db.upsertJob job = .ok { db with jobs := db.jobs.put job } := if_pos admitted
  simp only [Db.call, InMemoryRepository.call, upserted]
  exact ⟨rfl, { mirrors with jobs := congrArg (·.put job) mirrors.jobs }⟩

/-- Memory compares the columns of the unique index. -/
theorem share_known (mirrors : Mirrors db m) (share : ShareRecord) :
    (m.shares.any fun existing =>
      existing.jobId == share.jobId && existing.miner == share.miner &&
        existing.workerName == share.workerName &&
        existing.extranonce2Hex == share.extranonce2Hex &&
        existing.ntimeHex == share.ntimeHex && existing.nonceHex == share.nonceHex) =
      (db.shares.find? (Keyed.key share)).isSome := by
  rw [← Table.contains_eq_isSome, Table.contains, mirrors.shares, List.any_map]
  congr 1
  funext existing
  rw [Bool.eq_iff_iff, Function.comp_apply, ShareRecord.key_row]
  simp [Keyed.key, and_assoc]

theorem insertShare (mirrors : Mirrors db m) {share : ShareRecord}
    (alike : db.ShareAlike env.session share) :
    Agree (db.call env (.insertShare share)) (m.call (.insertShare share)) := by
  obtain ⟨legal, admitted, formed, referenced⟩ := alike
  have known := mirrors.share_known share
  have upserted : minerIdInTx share.miner = .ok share.miner := if_pos legal
  simp only [Db.call, InMemoryRepository.call, InMemoryRepository.insertShare, known]
  by_cases fresh : db.shares.find? (Keyed.key share) = none
  · obtain taken | ⟨job, standing⟩ := referenced
    · exact absurd fresh taken
    have inserted : db.insertShareOfSession env.session share =
        .ok (true, { db with shares := (db.shares.insert share.row).1 }) := by
      have own := Db.insertShare_inserted.2 ⟨⟨legal, admitted, fresh, job⟩, rfl⟩
      unfold Db.insertShareOfSession
      split
      · exact absurd (by assumption) formed
      · exact absurd (by assumption) standing
      · exact own
    have rows : (db.shares.insert share.row).1.rows = (m.shares ++ [share]).map ShareRecord.row := by
      rw [(Table.insert_of_fresh (r := share.row) fresh).1, mirrors.shares, List.map_append]
      rfl
    rw [inserted, fresh]
    exact ⟨rfl, { mirrors with shares := rows }⟩
  · have own : db.insertShare share = .ok (false, db) := by
      unfold Db.insertShare
      rw [upserted]
      dsimp only
      rw [if_pos admitted, Table.insert_of_taken (r := share.row) fresh]
      rfl
    have inserted : db.insertShareOfSession env.session share = .ok (false, db) := by
      unfold Db.insertShareOfSession
      split
      · exact absurd (by assumption) formed
      · rw [own]
      · exact own
    rw [inserted, Option.isSome_iff_ne_none.2 fresh]
    exact ⟨rfl, mirrors⟩

/-! ## Blocks -/

theorem recordBlockCandidate (mirrors : Mirrors db m) {block : BlockCandidateRecord}
    (alike : db.CandidateAlike block) :
    Agree (db.call env (.recordBlockCandidate block)) (m.call (.recordBlockCandidate block)) := by
  obtain ⟨legal, referenced⟩ := alike
  have upserted : minerIdInTx block.miner = .ok block.miner := if_pos legal
  have contains : m.blockCandidates.contains block.hashHex =
      (db.blocks.find? block.hashHex).isSome := by
    rw [Table.contains_eq_isSome, mirrors.blocks.candidates]
  simp only [Db.call, InMemoryRepository.call, InMemoryRepository.recordBlockCandidate, contains,
    Db.recordBlockCandidate, upserted]
  by_cases fresh : db.blocks.find? block.hashHex = none
  · obtain taken | job := referenced
    · exact absurd fresh taken
    have inserted : (db.blocks.insert (Db.candidateRow block env.now)).2 = true :=
      Table.insert_snd_iff.2 fresh
    rw [inserted, job, fresh]
    exact ⟨rfl, { mirrors with blocks := mirrors.blocks.record env.now fresh }⟩
  · have taken : db.blocks.find? (Keyed.key (Db.candidateRow block env.now)) ≠ none := fresh
    rw [Table.insert_of_taken taken, Option.isSome_iff_ne_none.2 fresh]
    exact ⟨rfl, mirrors⟩

theorem listBlocksToReconcile (mirrors : Mirrors db m) {limit : Int} (nonneg : 0 ≤ limit)
    (alike : KeysCutAlike (db.pollable.map (·.hash)) limit) :
    Agree (db.call env (.listBlocksToReconcile limit)) (m.call (.listBlocksToReconcile limit)) :=
  ⟨mirrors.blocks.polled nonneg alike, mirrors⟩

theorem updateBlockStatus (mirrors : Mirrors db m) {update : BlockStatusUpdate}
    (alike : db.UpdateAlike update) :
    Agree (db.call env (.updateBlockStatus update)) (m.call (.updateBlockStatus update)) := by
  obtain ⟨confirmations, heights⟩ := alike
  obtain ⟨⟨hit, db'⟩, updated⟩ : ∃ result, db.updateBlockStatus update env.now = .ok result :=
    Db.updateBlockStatus_isOk.2 confirmations
  obtain ⟨flag, rows⟩ := Db.updateBlockStatus_ok updated
  have status := mirrors.blocks.statuses update.hashHex
  simp only [Db.call, InMemoryRepository.call, updated, InMemoryRepository.updateBlockStatus,
    status]
  cases found : db.blocks.find? update.hashHex with
  | none =>
      have still : (db.blocks.update update.hashHex (fun _ => true)
          (Db.setStatus update env.now)).1 = db.blocks :=
        Table.update_of_miss (by rw [found]; rfl)
      rw [found] at flag
      rw [flag, rows, still]
      exact ⟨rfl, mirrors⟩
  | some row =>
      rw [found] at flag
      rw [flag, rows]
      refine ⟨rfl, { mirrors with blocks := mirrors.blocks.update env.now found (heights ?_) }⟩
      rw [found]
      exact Option.some_ne_none row

/-! ## Rewards -/

theorem listConfirmedUnsettledBlocks (mirrors : Mirrors db m) {past : Past}
    (remembers : Remembers past m) {limit : Int} (nonneg : 0 ≤ limit)
    (same : UnsettledAlike past db) (alike : KeysCutAlike (db.unsettled.map (·.hash)) limit) :
    Agree (db.call env (.listConfirmedUnsettledBlocks limit))
      (m.call (.listConfirmedUnsettledBlocks limit)) :=
  ⟨mirrors.blocks.unsettled remembers nonneg same alike mirrors.books.entries, mirrors⟩

/-- What memory adds up for a miner is what the database reads of his texts. -/
theorem weight_eq {shares : List ShareRecord}
    (whole : ∀ share ∈ shares, 0 ≤ share.difficulty ∧
      ⌊share.row.difficulty⌋ = ⌊share.difficulty⌋)
    (parts : (shares.map fun share => Int.fract share.row.difficulty).sum < 1)
    (small : (shares.map fun share => share.row.difficulty).sum < 2 ^ 64) :
    Db.parseIntegerPart (shares.map fun share => share.row.difficulty).sum =
      .ok ((shares.map fun share => asU64 share.difficulty).sum % 2 ^ 64) := by
  have nonneg : ∀ d ∈ shares.map fun share => share.row.difficulty, 0 ≤ d := by
    intro d member
    obtain ⟨share, inside, rfl⟩ := List.mem_map.1 member
    obtain ⟨positive, same⟩ := whole share inside
    have floor : 0 ≤ ⌊share.row.difficulty⌋ := same ▸ Int.floor_nonneg.2 positive
    exact Int.floor_nonneg.1 floor
  have read := sum_asU64 nonneg (by rw [List.map_map]; exact parts) small
  have terms : (shares.map fun share => share.row.difficulty).map asU64 =
      shares.map fun share => asU64 share.difficulty := by
    rw [List.map_map]
    refine List.map_congr_left fun share inside => ?_
    exact congrArg (fun floor : Int => min floor.toNat (2 ^ 64 - 1)) (whole share inside).2
  rw [read, terms]

theorem shareWeightsForJob (mirrors : Mirrors db m) {jobId : String}
    (alike : WeightsAlike m jobId) :
    Agree (db.call env (.shareWeightsForJob jobId)) (m.call (.shareWeightsForJob jobId)) := by
  have read : db.shareWeightsForJob jobId = .ok (m.shareWeightsForJob jobId) := by
    unfold Db.shareWeightsForJob InMemoryRepository.shareWeightsForJob
    have onJob : (db.shares.rows.filter fun share => decide (share.jobId = jobId)) =
        (m.shares.filter fun share => decide (share.jobId = jobId)).map ShareRecord.row := by
      rw [mirrors.shares, List.filter_map]
      rfl
    dsimp only
    rw [onJob, List.map_map]
    refine Theory.mapM_of_forall fun miner _ => ?_
    obtain ⟨whole, parts, small⟩ := alike miner
    have own : (((m.shares.filter fun share => decide (share.jobId = jobId)).map
        ShareRecord.row).filter fun share => decide (share.miner = miner)) =
          (m.shares.filter fun share => share.jobId = jobId ∧ share.miner = miner).map
            ShareRecord.row := by
      rw [List.filter_map, List.filter_filter]
      refine congrArg (List.map ShareRecord.row) (List.filter_congr fun share _ => ?_)
      show (decide (share.miner = miner) && decide (share.jobId = jobId)) = _
      rw [Bool.decide_and, Bool.and_comm]
    have here : ((m.shares.filter fun share => decide (share.jobId = jobId)).filter fun share =>
        decide (share.miner = miner)) =
          m.shares.filter fun share => share.jobId = jobId ∧ share.miner = miner := by
      rw [List.filter_filter]
      refine List.filter_congr fun share _ => ?_
      rw [Bool.decide_and, Bool.and_comm]
    rw [own, here, List.map_map]
    exact congrArg (Except.map fun difficulty => ShareWeight.mk miner difficulty)
      (weight_eq whole parts small)
  refine ⟨?_, mirrors⟩
  simp only [Db.call, InMemoryRepository.call, read]
  rfl

/-! ## Maturing and reversing -/

/-- The database asks for an entry of the kind with the same miner and block, and memory for one
with the same miner and reference. -/
theorem awaits_eq (mirrors : Mirrors db m) {kind : LedgerKind} {p : BlockRow → Bool}
    {q : BlockRecord → Bool} (shown : ∀ row, q (blockRecord row) = p row)
    (siblings : db.SiblingsAlike kind p) {entry : LedgerEntry} (member : entry ∈ m.ledgerEntries) :
    m.awaits kind q entry = db.awaits kind p entry := by
  have ledger := mirrors.books.entries
  have block : (m.blockStatuses.find? entry.refId).any q = (db.blockOf entry).any p := by
    rw [mirrors.blocks.statuses, Option.any_map]
    exact congrArg (fun test => Option.any test (db.blocks.find? entry.refId)) (funext shown)
  have sibling : m.hasSibling kind entry = true ↔
      ∃ other ∈ db.books.ledgerEntries.rows, other.kind = kind ∧ other.miner = entry.miner ∧
        other.refId = entry.refId := by
    simp [InMemoryRepository.hasSibling, ledger.mem_iff, and_assoc]
  unfold InMemoryRepository.awaits Db.awaits
  rw [block, Bool.eq_iff_iff]
  by_cases reward : entry.kind = .rewardImmature ∧ entry.refType = "block" ∧
      (db.blockOf entry).any p = true
  · obtain ⟨owned, blocks⟩ := siblings entry (ledger.mem_iff.1 member) reward.1 reward.2.1 reward.2.2
    have same : db.hasSibling kind entry = true ↔ m.hasSibling kind entry = true := by
      rw [sibling, Db.hasSibling, Table.contains_eq_isSome, Option.isSome_iff_exists]
      constructor
      · rintro ⟨other, found⟩
        obtain ⟨inRows, key⟩ := Table.find?_eq_some_iff.1 found
        obtain ⟨miner, kind_, -, refId⟩ := LedgerKey.mk.inj key
        exact ⟨other, inRows, kind_, miner, refId⟩
      · rintro ⟨other, inRows, rfl, miner, refId⟩
        refine ⟨other, Table.find?_eq_some_iff.2 ⟨inRows, ?_⟩⟩
        have refType := blocks other inRows rfl miner refId
        show LedgerKey.mk _ _ _ _ = LedgerKey.mk _ _ _ _
        rw [miner, refId, refType, reward.2.1]
    obtain ⟨address, miner⟩ := Option.ne_none_iff_exists'.1 owned
    simp [reward, miner, Bool.eq_iff_iff.2 same]
  · simp only [Bool.and_eq_true, decide_eq_true_eq]
    constructor
    · rintro ⟨⟨⟨kind_, refType⟩, hit⟩, -⟩
      exact absurd ⟨kind_, refType, hit⟩ reward
    · rintro ⟨⟨⟨⟨kind_, refType⟩, -⟩, hit⟩, -⟩
      exact absurd ⟨kind_, refType, hit⟩ reward

/-- **The entries that await a sibling**, under one limit. -/
theorem awaiting_perm (mirrors : Mirrors db m) {kind : LedgerKind} {p : BlockRow → Bool}
    {q : BlockRecord → Bool} (shown : ∀ row, q (blockRecord row) = p row)
    (siblings : db.SiblingsAlike kind p) {listed : List LedgerEntry} {limit : Int}
    (selected : listed.Perm (db.books.ledgerEntries.rows.filter (db.awaits kind p)))
    (cut : EntriesCutAlike m listed limit) :
    (listed.take limit.toNat).Perm
      ((m.ledgerEntries.filter (m.awaits kind q)).take (limitLen limit)) := by
  have rows : db.books.ledgerEntries.rows.Nodup := db.books.ledgerEntries.unique.of_map _
  have nodup : listed.Nodup := selected.nodup_iff.2 (rows.filter _)
  have ledger := mirrors.books.entries
  have here : m.ledgerEntries.filter (m.awaits kind q) =
      m.ledgerEntries.filter (· ∈ listed) := by
    refine List.filter_congr fun entry member => ?_
    rw [mirrors.awaits_eq shown siblings member, Bool.eq_iff_iff, decide_eq_true_eq,
      selected.mem_iff, List.mem_filter]
    exact (and_iff_right (ledger.mem_iff.1 member)).symm
  have perm : listed.Perm (m.ledgerEntries.filter (· ∈ listed)) := by
    rw [List.perm_ext_iff_of_nodup nodup ((ledger.nodup_iff.2 rows).filter _)]
    intro entry
    rw [List.mem_filter, decide_eq_true_eq, iff_and_self]
    intro member
    exact ledger.mem_iff.2 (List.mem_filter.1 (selected.mem_iff.1 member)).1
  rw [here]
  exact cut.take_perm perm nodup

theorem listMatureRewardEntries (mirrors : Mirrors db m) {confirmDepth : Nat} {limit : Int}
    (nonneg : 0 ≤ limit) (depth : confirmDepth < 2 ^ 31)
    (siblings : db.SiblingsAlike .rewardMature
      (fun row => row.status = .confirmed && confirmDepth ≤ row.confirmations))
    (cut : EntriesCutAlike m (db.maturing confirmDepth) limit) :
    Agree (db.call env (.listMatureRewardEntries confirmDepth limit))
      (m.call (.listMatureRewardEntries confirmDepth limit)) := by
  have converted : i32TryFrom confirmDepth = .ok confirmDepth := if_pos depth
  have read : ((db.maturing confirmDepth).take limit.toNat).mapM Db.toMature =
      .ok (((db.maturing confirmDepth).take limit.toNat).map fun entry =>
        { entry with kind := .rewardMature }) := by
    refine Theory.mapM_of_forall fun entry member => ?_
    obtain ⟨inRows, awaits⟩ := Db.mem_maturing.1 (List.mem_of_mem_take member)
    have range := mirrors.books.inRange entry inRows
    have refType := (Db.awaits_iff.1 awaits).2.1
    unfold Db.toMature parseI128
    rw [if_pos range, ← refType]
    rfl
  have listed := mirrors.awaiting_perm (q := fun block =>
    block.status = .confirmed && confirmDepth ≤ block.confirmations) (fun _ => rfl) siblings
    (List.perm_insertionSort _ _) cut
  refine ⟨?_, mirrors⟩
  simp only [Db.call, InMemoryRepository.call, limited_ok nonneg, Db.listMatureRewardEntries,
    converted, read]
  exact congrArg Outcome.entries (Multiset.coe_eq_coe.2 (listed.map _))

theorem listOrphanReversalEntries (mirrors : Mirrors db m) {limit : Int} (nonneg : 0 ≤ limit)
    (siblings : db.SiblingsAlike .rewardOrphanReversal (fun row => row.status = .orphaned))
    (cut : EntriesCutAlike m db.reversible limit)
    (positive : ∀ entry ∈ db.reversible.take limit.toNat, 0 ≤ entry.amountBaseUnits) :
    Agree (db.call env (.listOrphanReversalEntries limit))
      (m.call (.listOrphanReversalEntries limit)) := by
  have read : (db.reversible.take limit.toNat).mapM Db.toReversal =
      .ok ((db.reversible.take limit.toNat).map fun entry =>
        { entry with
          amountBaseUnits := negI128 entry.amountBaseUnits
          kind := .rewardOrphanReversal }) := by
    refine Theory.mapM_of_forall fun entry member => ?_
    obtain ⟨inRows, awaits⟩ := Db.mem_reversible.1 (List.mem_of_mem_take member)
    have range := mirrors.books.inRange entry inRows
    have sign := positive entry member
    have refType := (Db.awaits_iff.1 awaits).2.1
    unfold Db.toReversal Db.parseNegated parseI128
    rw [if_pos sign, if_pos (by omega), ← refType, negI128, if_neg (by omega)]
    rfl
  have listed := mirrors.awaiting_perm (q := fun block => block.status = .orphaned)
    (fun _ => rfl) siblings (List.perm_insertionSort _ _) cut
  refine ⟨?_, mirrors⟩
  simp only [Db.call, InMemoryRepository.call, limited_ok nonneg, Db.listOrphanReversalEntries,
    read]
  exact congrArg Outcome.entries (Multiset.coe_eq_coe.2 (listed.map _))

end Mirrors

end CsdPool
