/-
# Payout.TrackedTxid — the id a batch is reconciled by

`mark_payout_signed` stores the signer's id, of which only the shape was checked.  The submit
worker takes the node's id where there is one, but `mark_payout_submitted` keeps a stored id,
so the stored one is the signer's for good (`RowChange.txid_kept`), and `reconcile_payouts`
polls it.

The answers in which a node accepted a transaction and named its id are kept as a history.
When each of them names the id the batch was listed with, the stored id is the node's in every
later state, and so is the id of every batch a reconcile run gives up (`txid_tracked`).
Nothing checks that: `txid_disagrees` unlocks a batch whose transaction is on chain under the
node's id.
-/
import CsdPool.Payout.Invariants

namespace CsdPool.Payout

open Theory (Keyed Table Machine)

set_option autoImplicit false

variable {cfg : Config} {s s' : State} {e : Event}

/-- Equal up to the `0x` prefix and letter case. -/
def sameTxid (a b : String) : Bool :=
  eqIgnoreAsciiCase ((stripPrefix "0x" a).getD a) ((stripPrefix "0x" b).getD b)

/-- A node accepted the batch's transaction and named its id. -/
structure Accepted where
  batchId : String
  txid : String
  deriving DecidableEq, Repr

/-- The answer a submit run is about to read, if the node accepted and named an id. -/
def acceptance (s : State) (e : Event) : Option (PayoutBatchRecord × String) :=
  match e, s.running e with
  | .run _ env, some (.submitWait batch _) =>
      match env.submit with
      | .ok response => (response.txid.filter fun _ => response.ok).map fun txid => (batch, txid)
      | .error _ => none
  | _, _ => none

def recordAccepted (accepted : List Accepted) (s : State) (e : Event) : List Accepted :=
  match acceptance s e with
  | some (batch, txid) => accepted ++ [⟨batch.batchId, txid⟩]
  | none => accepted

/-- The payout workers, with the answers in which a node named the id. -/
def acceptingMachine (cfg : Config) : Machine (State × List Accepted) Event :=
  (payoutMachine cfg).recording [] recordAccepted

/-- The node names the id the batch was listed with, the signer's. -/
def signerAgrees (p : State × List Accepted) (e : Event) : Bool :=
  (acceptance p.1 e).all fun (batch, txid) => batch.txid.any fun signed => sameTxid signed txid

abbrev SignerAgrees (p : State × List Accepted) (e : Event) : Prop := signerAgrees p e = true

/-- Whatever a node accepted is tracked by the id the node named: in the batch's row, and in
the hands of a reconcile run that gives the batch up. -/
structure Tracked (p : State × List Accepted) : Prop where
  stored : ∀ a ∈ p.2, ∃ r txid, p.1.db.payoutBatches.find? a.batchId = some r ∧
    r.txid = some txid ∧ sameTxid txid a.txid = true
  polled : ∀ pid rest batch, p.1.At pid (.markFailed (.reconcile rest) batch) ∨
    p.1.At pid (.unlock (.reconcile rest) batch) → ∀ a ∈ p.2, a.batchId = batch.batchId →
      ∃ txid, batch.txid = some txid ∧ sameTxid txid a.txid = true

/-! ## The stored id -/

theorem ne_created_of_pastSigned {status : PayoutStatus} (past : pastSigned status = true) :
    status ≠ .created := by
  rintro rfl
  cases past

/-- **Once signed, the id stays.** -/
theorem RowChange.txid_kept {r r' : PayoutBatchRow} {txid : String} (change : RowChange s e r r')
    (past : Payout.pastSigned r.status = true) (stored : r.txid = some txid) : r'.txid = some txid := by
  cases change with
  | same => exact stored
  | approved _ _ => exact stored
  | signed _ _ _ source => exact absurd source (ne_created_of_pastSigned past)
  | submitted _ _ _ _ =>
      show some (r.txid.getD _) = some txid
      rw [stored]
      rfl
  | confirmed _ _ _ _ => exact stored
  | failed _ _ _ _ => exact stored
  | cancelled _ _ _ _ => exact stored

/-- A batch that went to the signer and was not given up has an id. -/
def TxidsStored (s : State) : Prop :=
  ∀ id r, s.db.payoutBatches.find? id = some r →
    r.status = .signed ∨ r.status = .submitted ∨ r.status = .confirmed → ∃ txid, r.txid = some txid

theorem txids_stored (reached : (payoutMachine cfg).Reachable s) : TxidsStored s := by
  refine reached.invariant (I := TxidsStored) ?_ ?_
  · rintro s rfl id r found
    cases found
  · intro s e s' before known _ step id r' found
    rcases row_before (step_stepped step) found with ⟨r, old, change⟩ | inserted
    · cases change with
      | same => exact known id _ old
      | approved _ _ => simp
      | signed _ _ _ _ => exact fun _ => ⟨_, rfl⟩
      | submitted _ _ _ _ => exact fun _ => ⟨_, rfl⟩
      | confirmed _ _ _ source =>
          intro _
          apply known id r old
          rcases source with status | status
          · exact .inr (.inl status)
          · exact .inl status
      | failed _ _ _ _ => simp
      | cancelled _ _ _ _ => simp
    · rcases inserted.status before with status | status <;> rw [status] <;> simp

/-- The row of a batch a run holds has the id the run read. -/
def TxidHeld (s : State) (batchId : String) (read : Option String) : Prop :=
  ∃ r txid, s.db.payoutBatches.find? batchId = some r ∧ pastSigned r.status = true ∧
    r.txid = some txid ∧ read = some txid

theorem TxidHeld.step {batchId : String} {read : Option String} (held : TxidHeld s batchId read)
    (stepped : Stepped cfg s e s') : TxidHeld s' batchId read := by
  obtain ⟨r, txid, found, past, stored, same⟩ := held
  obtain ⟨r', found', change⟩ := row_step stepped found
  exact ⟨r', txid, found', (change.pastSigned past).1, change.txid_kept past stored, same⟩

theorem Listed.txidHeld {db : Db} {statuses : List PayoutStatus} {batch : PayoutBatchRecord}
    (listed : Listed db statuses batch) (same : s.db = db) (stored : TxidsStored s)
    (signed : ∀ status ∈ statuses, status = .signed ∨ status = .submitted) :
    TxidHeld s batch.batchId batch.txid := by
  obtain ⟨row, found, status, shape⟩ := listed
  have known : row.status = .signed ∨ row.status = .submitted := signed _ status
  rw [← same] at found
  obtain ⟨txid, has⟩ := stored batch.batchId row found (by tauto)
  refine ⟨row, txid, found, ?_, has, ?_⟩
  · rcases known with status | status <;> rw [status] <;> rfl
  · rw [shape]
    exact has

def TxidsHeld (s : State) : Prop :=
  ∀ pid pc, s.At pid pc → pc.worker = .submit ∨ pc.worker = .reconcile →
    ∀ batch ∈ pc.holds, TxidHeld s batch.batchId batch.txid

theorem txids_held (reached : (payoutMachine cfg).Reachable s) : TxidsHeld s := by
  refine reached.invariant (I := TxidsHeld) ?_ ?_
  · rintro s rfl pid pc here
    cases here
  · intro s e s' before known _ step pid pc' there worker batch holds
    have stepped := step_stepped step
    rcases held_step stepped there holds with ⟨pc, here, same, earlier⟩ | ⟨db, listed⟩
    · rw [← same] at worker
      exact (known pid pc here worker batch earlier).step stepped
    · apply listed.txidHeld db (txids_stored (before.next trivial step))
      intro status member
      rcases worker with submit | reconcile
      · rw [submit] at member
        exact .inl (List.mem_singleton.1 member)
      · rw [reconcile] at member
        exact .inr (List.mem_singleton.1 member)

/-! ## The law -/

theorem acceptance_some {batch : PayoutBatchRecord} {txid : String}
    (accepted : acceptance s e = some (batch, txid)) :
    ∃ pid env rest, e = .run pid env ∧ s.At pid (.submitWait batch rest) := by
  unfold acceptance at accepted
  split at accepted
  · rename_i pid env batch' rest running
    split at accepted
    · obtain ⟨named, -, same⟩ := Option.map_eq_some_iff.1 accepted
      cases same
      refine ⟨pid, env, rest, rfl, ?_⟩
      obtain ⟨proc, found, pc⟩ := Option.map_eq_some_iff.1 running
      have key : proc.pid = pid := Table.key_of_find? found
      cases proc
      cases key
      cases pc
      exact found
    · cases accepted
  · cases accepted

theorem mem_recordAccepted {accepted : List Accepted} {a : Accepted}
    (member : a ∈ recordAccepted accepted s e) :
    a ∈ accepted ∨ ∃ batch, acceptance s e = some (batch, a.txid) ∧ a.batchId = batch.batchId := by
  unfold recordAccepted at member
  cases answer : acceptance s e with
  | none =>
      rw [answer] at member
      exact .inl member
  | some found =>
      obtain ⟨batch, txid⟩ := found
      rw [answer] at member
      rcases List.mem_append.1 member with old | new
      · exact .inl old
      · cases List.mem_singleton.1 new
        exact .inr ⟨batch, rfl, rfl⟩

/-- The id a node named is the one the batch's row has. -/
def AcceptedKnown (p : State × List Accepted) : Prop :=
  ∀ a ∈ p.2, ∃ txid, TxidHeld p.1 a.batchId (some txid) ∧ sameTxid txid a.txid = true

theorem accepted_known {p : State × List Accepted}
    (reached : (acceptingMachine cfg).Reaches SignerAgrees p) : AcceptedKnown p := by
  refine reached.invariant (I := AcceptedKnown) ?_ ?_
  · rintro ⟨s, accepted⟩ ⟨-, rfl⟩ a member
    cases member
  · intro p e p' before known agrees step a member
    obtain ⟨moved, recorded⟩ := Machine.recording_step step
    have stepped := step_stepped moved
    rw [recorded] at member
    rcases mem_recordAccepted member with old | ⟨batch, answer, id⟩
    · obtain ⟨txid, held, same⟩ := known a old
      exact ⟨txid, held.step stepped, same⟩
    · obtain ⟨pid, env, rest, -, here⟩ := acceptance_some answer
      have held := txids_held before.forget pid _ here (.inl rfl) batch List.mem_cons_self
      obtain ⟨r, txid, found, past, stored, read⟩ := held
      unfold SignerAgrees signerAgrees at agrees
      rw [answer] at agrees
      change (batch.txid.any fun signed => sameTxid signed a.txid) = true at agrees
      rw [read] at agrees
      refine ⟨txid, ?_, agrees⟩
      rw [id]
      exact TxidHeld.step ⟨r, txid, found, past, stored, rfl⟩ stepped

/-- **The tracked id is the broadcast transaction's** in every run in which the accepting node
names no other id than the signer. -/
theorem txid_tracked {p : State × List Accepted}
    (reached : (acceptingMachine cfg).Reaches SignerAgrees p) : Tracked p := by
  have known := accepted_known reached
  refine ⟨?_, ?_⟩
  · intro a member
    obtain ⟨txid, ⟨r, txid', found, -, stored, same⟩, agrees⟩ := known a member
    cases same
    exact ⟨r, txid, found, stored, agrees⟩
  · intro pid rest batch there a member same
    obtain ⟨txid, ⟨r, txid', found, -, stored, read⟩, agrees⟩ := known a member
    cases read
    have held : TxidHeld p.1 batch.batchId batch.txid := by
      rcases there with here | here
      · exact txids_held reached.forget pid _ here (.inr rfl) batch List.mem_cons_self
      · exact txids_held reached.forget pid _ here (.inr rfl) batch List.mem_cons_self
    obtain ⟨r', txid', found', -, stored', read'⟩ := held
    rw [← same, found] at found'
    cases found'
    rw [stored] at stored'
    cases stored'
    exact ⟨txid, read', agrees⟩

namespace Sample

def otherTxid : String := "ffeeddccbbaa99887766554433221100ffeeddccbbaa99887766554433221100"

/-- The node accepts the transaction under `id`, and the chain has it. -/
def acceptedAs (id : String) : List Event :=
  submitSend 2 ++ [.nodeAccept ⟨"p", "aa"⟩,
    .run 2 { submit := .ok ⟨true, some id, .null⟩ }] ++ steps 2 2

/-- A reconcile run is told that the stored id failed. -/
def givenUp : List Event :=
  [.spawn 3 .reconcilePayouts, .run 3 {}, .run 3 (answered "failed" 0)] ++ steps 3 2

end Sample

/-- The node spells the signer's id with a prefix and in upper case. -/
theorem txid_tracked_spelled :
    ∃ p, (acceptingMachine Sample.config).Reaches SignerAgrees p ∧ p.2 ≠ [] ∧ Tracked p := by
  obtain ⟨p, reached, shown⟩ := Machine.exists_of_runUnder (acceptingMachine Sample.config)
    SignerAgrees (s := (.initial, [])) ⟨rfl, rfl⟩
    (Sample.funded 100 ++ Sample.create 0 "p" ++ Sample.sign 1 ++
      Sample.acceptedAs ("0x00112233445566778899AABBCCDDEEFF" ++
        "00112233445566778899AABBCCDDEEFF"))
    (fun p => decide (p.2 ≠ [])) (by decide +kernel)
  exact ⟨p, reached, of_decide_eq_true shown, txid_tracked reached⟩

/-- The chain has the batch's transaction and the batch was unlocked. -/
def unlockedOnChain (s : State) : Bool :=
  s.chain.any fun tx => decide ((.reconcile, tx.batchId) ∈ s.unlocks)

/-- The node names another id than the signer; the batch is polled by the signer's, fails, and
is unlocked while its transaction is on chain. -/
theorem txid_disagrees :
    (∃ p, (acceptingMachine Sample.config).Reachable p ∧ unlockedOnChain p.1 = true) ∧
      ¬ ∀ p, (acceptingMachine Sample.config).Reachable p → Tracked p := by
  obtain ⟨p, reached, shown⟩ := Machine.exists_of_run (acceptingMachine Sample.config)
    (s := (.initial, [])) ⟨rfl, rfl⟩
    (Sample.funded 100 ++ Sample.create 0 "p" ++ Sample.sign 1 ++
      Sample.acceptedAs Sample.otherTxid ++ Sample.givenUp)
    (fun p => unlockedOnChain p.1 && (decide (p.2 = [⟨"p", Sample.otherTxid⟩]) &&
      (p.1.db.payoutBatches.find? "p").all fun (r : PayoutBatchRow) =>
        decide (r.txid = some Sample.txid)))
    (by decide +kernel)
  obtain ⟨lost, shown⟩ := Bool.and_eq_true_iff.1 shown
  refine ⟨⟨p, reached, lost⟩, ?_⟩
  intro claimed
  obtain ⟨accepted, row⟩ := Bool.and_eq_true_iff.1 shown
  have stored := (claimed p reached).stored ⟨"p", Sample.otherTxid⟩
  rw [of_decide_eq_true accepted] at stored
  obtain ⟨r, txid, found, has, same⟩ := stored (List.mem_singleton_self _)
  rw [show p.1.db.payoutBatches.find? "p" = some r from found] at row
  have signers : r.txid = some Sample.txid := of_decide_eq_true row
  rw [signers] at has
  cases has
  revert same
  decide

end CsdPool.Payout
