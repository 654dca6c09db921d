/-
# Rewards.Settlement — settling a block once

`settled_once`: in every run whose steps are `Whole`, the reward entries of a
block are exactly those of one allocation of its stored reward, and add up to it.

* An append of a settlement meets a ledger without reward entries for the block,
  or one in which every key it would insert is taken: it goes in whole or not at
  all.
* The reward fits an `i128` and the weights of the job a `u128` together.
* The stored reward of a block that is settled, or that a settle run has in hand,
  is not overwritten by another amount.

The first is not met by overlapping runs that read different share windows
(`settlements_mix`): the ledger's key is per miner, so the second settlement adds
its new miners to the first one's.
-/
import CsdPool.Rewards.Invariants

namespace CsdPool.Rewards

open Theory (Keyed Table Machine)

set_option autoImplicit false

variable {s s' : State} {e : Event}

/-- The `reward_immature` and `pool_fee` entries of a block. -/
def rewardRows (hash : String) (rows : List LedgerEntry) : List LedgerEntry :=
  rows.filter fun entry => entry.refType = "block" && entry.refId = hash &&
    (entry.kind = .rewardImmature || entry.kind = .poolFee)

/-! ## Whole steps -/

/-- The settlement finds all of its keys taken, or none of the block's. -/
def settlesWhole (db : Db) (settlement : SettledRewardBlock) : Bool :=
  !db.hasReward settlement.blockHash ||
    settlement.ledgerEntries.all fun entry => db.books.ledgerEntries.contains entry.ledgerKey

def weightsFit : Except RepositoryError (List ShareWeight) → Bool
  | .ok shares => (shares.map (·.difficulty)).sum < 2 ^ 128
  | .error _ => true

def Pc.whole (db : Db) : Pc → Bool
  | settleNext _ (block :: _) =>
      block.rewardBaseUnits < 2 ^ 127 && weightsFit (db.shareWeightsForJob block.jobId)
  | settleAppend _ settlement _ => settlesWhole db settlement
  | _ => true

/-- A settle run with the block still before it. -/
def Pc.holds (hash : String) : Pc → Bool
  | settleNext _ queue => queue.any fun block => block.hashHex = hash
  | settleAppend _ settlement rest =>
      settlement.blockHash = hash || rest.any fun block => block.hashHex = hash
  | _ => false

def keepsReward (s : State) (change : BlockStatusUpdate) : Bool :=
  (s.db.blocks.find? change.hashHex).all fun row =>
    row.rewardBaseUnits = change.rewardBaseUnits ||
      (!s.db.hasReward change.hashHex && s.procs.rows.all fun proc => !proc.pc.holds change.hashHex)

def Whole (s : State) (e : Event) : Prop :=
  (s.running e).all (fun pc => pc.whole s.db) = true ∧ (s.updating e).all (keepsReward s) = true

instance : ∀ s e, Decidable (Whole s e) := fun s e =>
  inferInstanceAs (Decidable ((s.running e).all (fun pc => pc.whole s.db) = true ∧
    (s.updating e).all (keepsReward s) = true))

theorem whole_at {pid : Nat} {env : Env} {pc : Pc} (whole : Whole s (.run pid env))
    (here : s.At pid pc) : pc.whole s.db = true := by
  have guard := whole.1
  rwa [State.running_of_at here] at guard

/-! ## The blocks a settle run holds -/

def RewardIs (db : Db) (hash : String) (reward : Nat) : Prop :=
  ∃ row, db.blocks.find? hash = some row ∧ row.rewardBaseUnits = reward

/-- One allocation of the reward whose numbers fit. -/
def Exact (reward : Nat) (result : PplnsResult) : Prop :=
  reward < 2 ^ 127 ∧ ∃ feeBps shares, (shares.map ShareWeight.difficulty).sum < 2 ^ 128 ∧
    allocatePplns reward feeBps shares = .ok result

def HeldReward (db : Db) : Pc → Prop
  | .settleNext _ queue => ∀ block ∈ queue, RewardIs db block.hashHex block.rewardBaseUnits
  | .settleAppend _ settlement rest =>
      (settlement.ledgerEntries = rewardLedgerEntries settlement.blockHash settlement.result ∧
        Exact settlement.rewardBaseUnits settlement.result ∧
        RewardIs db settlement.blockHash settlement.rewardBaseUnits) ∧
      ∀ block ∈ rest, RewardIs db block.hashHex block.rewardBaseUnits
  | _ => True

/-- The hashes whose rewards a program counter relies on are those it holds. -/
theorem HeldReward.mono {db db' : Db} {pc : Pc}
    (keeps : ∀ hash reward, pc.holds hash = true → RewardIs db hash reward →
      RewardIs db' hash reward) (held : HeldReward db pc) : HeldReward db' pc := by
  cases pc with
  | settleNext feeBps queue =>
      intro block member
      refine keeps _ _ ?_ (held block member)
      exact List.any_eq_true.2 ⟨block, member, by simp⟩
  | settleAppend feeBps settlement rest =>
      refine ⟨⟨held.1.1, held.1.2.1, keeps _ _ ?_ held.1.2.2⟩, fun block member => ?_⟩
      · simp [Pc.holds]
      · refine keeps _ _ ?_ (held.2 block member)
        simp only [Pc.holds, Bool.or_eq_true, List.any_eq_true]
        exact .inr ⟨block, member, by simp⟩
  | reconcileList | reconcileNext | reconcileUpdate | settleList | matureList | matureAppend
  | reverseList | reverseAppend => trivial

theorem rewardIs_step (stepped : Stepped s e s') (whole : Whole s e) {hash : String} {reward : Nat}
    (before : RewardIs s.db hash reward)
    (relied : s.db.hasReward hash = true ∨ ∃ pid pc, s.At pid pc ∧ pc.holds hash = true) :
    RewardIs s'.db hash reward := by
  obtain ⟨row, found, same⟩ := before
  cases blocks_step stepped with
  | same kept => exact ⟨row, by rw [kept]; exact found, same⟩
  | @updated change now updates rows =>
      refine ⟨_, by rw [rows, found]; rfl, ?_⟩
      split
      · rename_i hit
        subst hit
        have guard := whole.2
        rw [updates] at guard
        simp only [Option.all_some, keepsReward, found, Bool.or_eq_true, decide_eq_true_eq,
          Bool.and_eq_true, Bool.not_eq_true', List.all_eq_true] at guard
        rcases guard with kept | ⟨unsettled, unheld⟩
        · exact kept.symm.trans same
        · exfalso
          rcases relied with settled | ⟨pid, pc, here, holds⟩
          · rw [settled] at unsettled; cases unsettled
          · have free := unheld _ (Table.mem_of_find? here)
            rw [holds] at free; cases free
      · exact same
  | recorded _ rows =>
      exact ⟨row, by rw [rows, found, if_neg (by simp)], same⟩

theorem exact_of_decision {db : Db} {feeBps : Nat} {block : RewardBlock}
    {rest : List RewardBlock} {shares : List ShareWeight} {settlement : SettledRewardBlock}
    (whole : Pc.whole db (.settleNext feeBps (block :: rest)) = true)
    (weights : db.shareWeightsForJob block.jobId = .ok shares)
    (settled : settleRewardBlock block feeBps shares = .ok settlement) :
    settlement.blockHash = block.hashHex ∧ settlement.rewardBaseUnits = block.rewardBaseUnits ∧
      settlement.ledgerEntries = rewardLedgerEntries settlement.blockHash settlement.result ∧
      Exact settlement.rewardBaseUnits settlement.result := by
  obtain ⟨hash, reward, entries, allocated⟩ := settleRewardBlock_ok settled
  simp only [Pc.whole, weights, weightsFit, Bool.and_eq_true, decide_eq_true_eq] at whole
  refine ⟨hash, reward, hash ▸ entries, ?_, feeBps, shares, whole.2, ?_⟩
  · rw [reward]; exact whole.1
  · rw [reward]; exact allocated

theorem read_heldReward {env : Env} {db : Db} {pc pc' : Pc} (whole : pc.whole db = true)
    (held : HeldReward db pc) (next : pc.read env db = some pc') : HeldReward db pc' := by
  cases pc with
  | reconcileList required =>
      simp only [Pc.read] at next
      split at next
      · cases next; trivial
      · cases next
  | reconcileNext required queue =>
      cases queue with
      | nil => cases next
      | cons block rest =>
          simp only [Pc.read] at next
          split at next
          · cases next; trivial
          · cases next
  | settleList feeBps =>
      cases next
      intro block member
      obtain ⟨row, found, -, -, -, rfl⟩ := mem_listUnsettled member
      exact ⟨row, found, rfl⟩
  | settleNext feeBps queue =>
      cases queue with
      | nil => cases next
      | cons block rest =>
          have later : ∀ b ∈ rest, RewardIs db b.hashHex b.rewardBaseUnits :=
            fun b member => held b (List.mem_cons_of_mem _ member)
          rcases settleDecision_some next with rfl | ⟨shares, settlement, weights, settled, rfl⟩
          · exact later
          · obtain ⟨hash, reward, entries, exact_⟩ := exact_of_decision whole weights settled
            refine ⟨⟨entries, exact_, ?_⟩, later⟩
            rw [hash, reward]
            exact held block (List.mem_cons_self ..)
  | matureList confirmDepth =>
      simp only [Pc.read] at next
      split at next
      · cases next; trivial
      · cases next
  | reverseList =>
      simp only [Pc.read] at next
      split at next
      · cases next; trivial
      · cases next
  | reconcileUpdate | settleAppend | matureAppend | reverseAppend => cases next

/-- What a run holds after its write it held before. -/
theorem afterWrite_heldReward {db : Db} {pc pc' : Pc} (held : HeldReward db pc)
    (next : pc.afterWrite = some pc') :
    HeldReward db pc' ∧ ∀ hash, pc'.holds hash = true → pc.holds hash = true := by
  cases pc with
  | reconcileUpdate required change rest => cases next; exact ⟨trivial, fun _ none_ => none_⟩
  | settleAppend feeBps settlement rest =>
      cases next
      refine ⟨held.2, fun hash later => ?_⟩
      simp only [Pc.holds, Bool.or_eq_true] at later ⊢
      exact .inr later
  | reconcileList | reconcileNext | settleList | settleNext | matureList | matureAppend
  | reverseList | reverseAppend => cases next

def HeldRewards (s : State) : Prop := ∀ pid pc, s.At pid pc → HeldReward s.db pc

theorem db_of_read (stepped : Stepped s e s') {pid : Nat} {env : Env} {pc : Pc}
    (event : e = .run pid env) (here : s.At pid pc) (reads : pc.write = none) : s'.db = s.db := by
  subst event
  cases stepped with
  | appended there writes _ | updated there writes _ =>
      rw [State.at_unique there here, reads] at writes
      cases writes
  | failed _ _ | moved _ _ => exact State.resume_db _ _ _

theorem heldRewards_step (stepped : Stepped s e s') (whole : Whole s e) (held : HeldRewards s) :
    HeldRewards s' := by
  intro pid pc' there
  rcases at_step stepped there with stayed | arrives
  · exact (held pid pc' stayed).mono fun hash reward holds before =>
      rewardIs_step stepped whole before (.inr ⟨pid, pc', stayed, holds⟩)
  · cases arrives with
    | spawned entry => cases entry <;> trivial
    | wrote here writes next =>
        obtain ⟨after, relied⟩ := afterWrite_heldReward (held _ _ here) next
        exact after.mono fun hash reward holds before =>
          rewardIs_step stepped whole before (.inr ⟨_, _, here, relied hash holds⟩)
    | read here reads next =>
        rw [db_of_read stepped rfl here reads]
        exact read_heldReward (whole_at whole here) (held _ _ here) next

/-! ## What an append does to the reward entries of a block -/

theorem hasReward_iff {db : Db} {hash : String} :
    db.hasReward hash = true ↔ rewardRows hash db.books.ledgerEntries.rows ≠ [] := by
  rw [Db.hasReward, rewardRows, Ne, List.filter_eq_nil_iff, List.any_eq_true]
  push Not
  rfl

theorem rewardRows_entries (hash blockRef : String) (result : PplnsResult) :
    rewardRows hash (rewardLedgerEntries blockRef result) =
      if blockRef = hash then rewardLedgerEntries blockRef result else [] := by
  unfold rewardRows
  split
  · rename_i same
    subst same
    refine List.filter_eq_self.2 fun entry member => ?_
    obtain ⟨refType, refId, ⟨kind, -⟩ | ⟨kind, -⟩⟩ := rewardEntry_kind member
    · simp [refType, refId, kind]
    · simp [refType, refId, kind]
  · rename_i other
    refine List.filter_eq_nil_iff.2 fun entry member => ?_
    obtain ⟨-, refId, -⟩ := rewardEntry_kind member
    simp [refId, other]

/-- Entries of other kinds leave the reward entries alone. -/
theorem rewardRows_grows {entries : List LedgerEntry} {books books' : Books}
    (grows : Books.Grows entries books books')
    (other : ∀ entry ∈ entries, entry.kind ≠ .rewardImmature ∧ entry.kind ≠ .poolFee)
    (hash : String) :
    rewardRows hash books'.ledgerEntries.rows = rewardRows hash books.ledgerEntries.rows := by
  obtain ⟨added, rows, new⟩ := grows.rows
  unfold rewardRows
  rw [rows, List.filter_append, List.append_right_eq_self]
  refine List.filter_eq_nil_iff.2 fun entry member => ?_
  obtain ⟨notReward, notFee⟩ := other entry (new entry member).1
  simp [notReward, notFee]

theorem rewardKeys_nodup {reward : Nat} {result : PplnsResult} (exact_ : Exact reward result)
    (blockRef : String) :
    ((rewardLedgerEntries blockRef result).map LedgerEntry.ledgerKey).Nodup := by
  obtain ⟨-, feeBps, shares, -, allocated⟩ := exact_
  have miners := rewardLedgerEntries_miners allocated blockRef
  refine List.Nodup.of_map LedgerKey.miner ?_
  rw [List.map_map]
  exact miners

/-- A settlement goes in whole or not at all. -/
theorem settlement_rows {db : Db} {books' : Books} {settlement : SettledRewardBlock}
    (whole : settlesWhole db settlement = true)
    (entries : settlement.ledgerEntries = rewardLedgerEntries settlement.blockHash settlement.result)
    (exact_ : Exact settlement.rewardBaseUnits settlement.result)
    (committed : db.books.appendLedgerEntries settlement.ledgerEntries = .ok books')
    (hash : String) :
    rewardRows hash books'.ledgerEntries.rows = rewardRows hash db.books.ledgerEntries.rows ∨
      (rewardRows hash db.books.ledgerEntries.rows = [] ∧ settlement.blockHash = hash ∧
        rewardRows hash books'.ledgerEntries.rows = rewardLedgerEntries hash settlement.result) := by
  rw [settlesWhole, Bool.or_eq_true, Bool.not_eq_true'] at whole
  rcases whole with unsettled | taken
  · have none_ : rewardRows settlement.blockHash db.books.ledgerEntries.rows = [] := by
      by_contra some_
      rw [hasReward_iff.2 some_] at unsettled
      cases unsettled
    have fresh : ∀ entry ∈ settlement.ledgerEntries,
        db.books.ledgerEntries.find? entry.ledgerKey = none := by
      intro entry member
      rw [entries] at member
      obtain ⟨refType, refId, kind⟩ := rewardEntry_kind member
      rw [Table.find?_eq_none_iff]
      intro row inRows key
      have notReward := List.filter_eq_nil_iff.1 none_ row inRows
      have rowKind : row.kind = entry.kind := congrArg LedgerKey.kind key
      have rowType : row.refType = entry.refType := congrArg LedgerKey.refType key
      have rowId : row.refId = entry.refId := congrArg LedgerKey.refId key
      rcases kind with ⟨kind, -⟩ | ⟨kind, -⟩
      · simp [rowKind, rowType, rowId, refType, refId, kind] at notReward
      · simp [rowKind, rowType, rowId, refType, refId, kind] at notReward
    have rows := Books.appendLedgerEntries_fresh committed
      (entries ▸ rewardKeys_nodup exact_ settlement.blockHash) fresh
    have added := rewardRows_entries hash settlement.blockHash settlement.result
    rw [← entries] at added
    unfold rewardRows at added ⊢
    rw [rows, List.filter_append, added]
    by_cases here : settlement.blockHash = hash
    · subst here
      right
      refine ⟨none_, rfl, ?_⟩
      unfold rewardRows at none_
      rw [none_, if_pos rfl, List.nil_append, entries]
    · left
      rw [if_neg here, List.append_nil]
  · left
    rw [Books.appendLedgerEntries_taken committed]
    intro entry member
    have present := List.all_eq_true.1 taken entry member
    rw [Table.contains_eq_isSome] at present
    exact Option.isSome_iff_ne_none.1 present

/-- The reward entries of a block across a whole step. -/
theorem rewardRows_step (stepped : Stepped s e s') (whole : Whole s e) (held : HeldRewards s)
    (known : HeldKnown s) (hash : String) :
    rewardRows hash s'.db.books.ledgerEntries.rows =
        rewardRows hash s.db.books.ledgerEntries.rows ∨
      ∃ reward result, Exact reward result ∧ RewardIs s.db hash reward ∧
        (∃ pid pc, s.At pid pc ∧ pc.holds hash = true) ∧
        rewardRows hash s'.db.books.ledgerEntries.rows = rewardLedgerEntries hash result := by
  cases stepped with
  | spawned _ | failed _ _ | moved _ _ | crashed _ => exact .inl (by rw [State.resume_db])
  | @appended pid env pc entries books here writes committed =>
      rw [State.resume_db]
      have follows : ∀ kind amount, (∀ entry ∈ entries, Follows s.db kind amount entry) →
          kind ≠ .rewardImmature ∧ kind ≠ .poolFee →
          rewardRows hash books.ledgerEntries.rows =
            rewardRows hash s.db.books.ledgerEntries.rows := by
        intro kind amount all other
        refine rewardRows_grows (Books.appendLedgerEntries_grows committed) ?_ hash
        intro entry member
        rw [(all entry member).shape.1]
        exact other
      cases pc with
      | settleAppend feeBps settlement rest =>
          cases writes
          obtain ⟨⟨sameEntries, exact_, stored⟩, -⟩ := held _ _ here
          rcases settlement_rows (whole_at whole here) sameEntries exact_ committed hash with
            same | ⟨-, rfl, rows⟩
          · exact .inl same
          · exact .inr ⟨_, _, exact_, stored, ⟨pid, _, here, by simp [Pc.holds]⟩, rows⟩
      | matureAppend listed =>
          cases writes
          exact .inl (follows _ _ (known _ _ here) ⟨by simp, by simp⟩)
      | reverseAppend listed =>
          cases writes
          exact .inl (follows _ _ (known _ _ here) ⟨by simp, by simp⟩)
      | reconcileList | reconcileNext | reconcileUpdate | settleList | settleNext | matureList
      | reverseList => cases writes
  | updated _ _ committed =>
      obtain ⟨-, rfl⟩ := Db.updateBlockStatus_ok committed
      exact .inl (by rw [State.resume_db])
  | job committed => exact .inl (by rw [Db.upsertJob_ok committed])
  | share committed => exact .inl (by rw [(Db.insertShare_ok committed).1])
  | candidate committed => exact .inl (by rw [(Db.recordBlockCandidate_ok committed).1])
  | locked committed =>
      rcases Db.createLocked_ok committed with ⟨-, rfl⟩ | ⟨-, -, books, recipients, folded, rfl⟩
      · exact .inl rfl
      · refine .inl (rewardRows_grows (Db.insertRecipients_grows folded) ?_ hash)
        intro entry member
        obtain ⟨recipient, -, rfl⟩ := List.mem_map.1 member
        simp [Books.lockEntry]
  | paid _ committed | unlocked _ committed =>
      refine .inl (rewardRows_grows (Books.appendLedgerEntries_grows committed) ?_ hash)
      intro entry member
      obtain ⟨recipient, -, rfl⟩ := List.mem_map.1 member
      simp

/-! ## Whole runs -/

/-- A block has no reward entries, or those of one exact allocation of its reward. -/
def Once (s : State) : Prop :=
  ∀ hash, rewardRows hash s.db.books.ledgerEntries.rows = [] ∨
    ∃ reward result, RewardIs s.db hash reward ∧ Exact reward result ∧
      rewardRows hash s.db.books.ledgerEntries.rows = rewardLedgerEntries hash result

theorem once_step (stepped : Stepped s e s') (whole : Whole s e) (held : HeldRewards s)
    (known : HeldKnown s) (once : Once s) : Once s' := by
  intro hash
  rcases rewardRows_step stepped whole held known hash with
    same | ⟨reward, result, exact_, stored, holder, rows⟩
  · rw [same]
    rcases once hash with none_ | ⟨reward, result, stored, exact_, rows⟩
    · exact .inl none_
    · by_cases none_ : rewardRows hash s.db.books.ledgerEntries.rows = []
      · exact .inl none_
      · have kept := rewardIs_step stepped whole stored (.inl (hasReward_iff.2 none_))
        exact .inr ⟨reward, result, kept, exact_, rows⟩
  · exact .inr ⟨reward, result, rewardIs_step stepped whole stored (.inr holder), exact_, rows⟩

theorem once (reached : rewardMachine.Reaches Whole s) : HeldRewards s ∧ Once s := by
  refine reached.invariant (I := fun s => HeldRewards s ∧ Once s) ?_ ?_
  · rintro s rfl
    refine ⟨fun pid pc there => ?_, fun hash => .inl rfl⟩
    cases there
  · intro s e s' before holds whole stepped
    have step := step_stepped stepped
    exact ⟨heldRewards_step step whole holds.1,
      once_step step whole holds.1 (held_known before.reachable) holds.2⟩

/-- **Settled exactly and once**, in runs whose steps are whole. -/
theorem settled_once (reached : rewardMachine.Reaches Whole s) {hash : String} {row : BlockRow}
    (found : s.db.blocks.find? hash = some row) :
    rewardRows hash s.db.books.ledgerEntries.rows = [] ∨
      ∃ feeBps shares result, allocatePplns row.rewardBaseUnits feeBps shares = .ok result ∧
        rewardRows hash s.db.books.ledgerEntries.rows = rewardLedgerEntries hash result ∧
        ((rewardRows hash s.db.books.ledgerEntries.rows).map (·.amountBaseUnits)).sum =
          (row.rewardBaseUnits : Int) := by
  rcases (once reached).2 hash with none_ | ⟨reward, result, ⟨row', found', same⟩, exact_, rows⟩
  · exact .inl none_
  · rw [found] at found'
    cases found'
    subst same
    obtain ⟨small, feeBps, shares, fits, allocated⟩ := exact_
    refine .inr ⟨feeBps, shares, result, allocated, rows, ?_⟩
    rw [rows]
    exact rewardLedgerEntries_sum small fits allocated hash

namespace Sample

/-- The block is confirmed with a reward of 1000. -/
def confirmedBlock : List Event := mined ++ poll 1 ++ answer 1 "seen" 10 (some 1000)

/-- A settle run that has read the weights of the block's job. -/
def weigh (pid feeBps : Nat) : List Event := [.spawn pid (.settleRewards feeBps)] ++ steps pid 2

end Sample

/-- Two settle runs weigh the same block: one of them enters its allocation, and the other's meets
keys that are taken. -/
theorem settled_once_twice :
    ∃ s, rewardMachine.Reaches Whole s ∧
      ((rewardRows "block" s.db.books.ledgerEntries.rows).map (·.amountBaseUnits)).sum = 1000 := by
  obtain ⟨s, reached, shown⟩ := Machine.exists_of_runUnder rewardMachine Whole rfl
    (Sample.confirmedBlock ++ Sample.weigh 2 100 ++ Sample.weigh 3 200 ++ Sample.steps 2 1 ++
      Sample.steps 3 1)
    (fun s => (s.db.blocks.find? "block").any fun row => row.rewardBaseUnits = 1000 &&
      s.db.hasReward "block")
    (by decide +kernel)
  obtain ⟨row, found, holds⟩ := (Option.any_eq_true _ _).1 shown
  rw [Bool.and_eq_true, decide_eq_true_eq, hasReward_iff] at holds
  rcases settled_once reached found with none_ | ⟨_, _, _, -, -, sum⟩
  · exact absurd none_ holds.2
  · exact ⟨s, reached, by rw [sum, holds.1]; rfl⟩

/-- A share that arrives between the reads of two settle runs: the entries add up to
more than the reward, so they are not those of any one allocation. -/
theorem settlements_mix :
    ∃ s row, rewardMachine.Reachable s ∧ s.db.blocks.find? "block" = some row ∧
      row.status = .confirmed ∧ row.rewardBaseUnits = 1000 ∧
      ((rewardRows "block" s.db.books.ledgerEntries.rows).map (·.amountBaseUnits)).sum = 1500 := by
  obtain ⟨s, reached, shown⟩ := Machine.exists_of_run rewardMachine rfl
    (Sample.confirmedBlock ++ Sample.weigh 2 0 ++
      [.insertShare (Sample.share Sample.otherMiner "00000002")] ++ Sample.weigh 3 0 ++
      Sample.steps 2 1 ++ Sample.steps 3 1)
    (fun s => (s.db.blocks.find? "block").any fun row => row.status = .confirmed &&
      row.rewardBaseUnits = 1000 &&
      ((rewardRows "block" s.db.books.ledgerEntries.rows).map (·.amountBaseUnits)).sum = 1500)
    (by decide +kernel)
  obtain ⟨row, found, holds⟩ := (Option.any_eq_true _ _).1 shown
  simp only [Bool.and_eq_true, decide_eq_true_eq] at holds
  exact ⟨s, row, reached, found, holds.1.1, holds.1.2, holds.2⟩

end CsdPool.Rewards
