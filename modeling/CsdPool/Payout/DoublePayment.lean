/-
# Payout.DoublePayment — no unlock of what a node accepted

An operator may cancel a `signed` batch, and an uncertain submission leaves the
batch `signed`; so a batch whose transaction the node took can be cancelled and
its amounts come back (`cancel_after_accept`).

`Exposed s id` says that the transaction of `id` is accepted, in flight, or
still in the queue of a live submitting run.  Two things are asked of a run: no
cancel takes effect on a `signed` batch that is exposed, and no
`mark_payout_signed` of a dead process takes effect on a batch that a live
signing run has in hand.  Then a batch with an accepted transaction is never
unlocked by `cancel_payout`, nor by a signing or submitting run; only
`reconcile_payouts` can, and only after the node was asked about the stored id
and said that the transaction failed or was rejected
(`accepted_never_cancelled`).  Batches cancelled out of `needs_approval` or
`created` need no care.
-/
import CsdPool.Payout.Exclusivity
import CsdPool.Payout.TrackedTxid

namespace CsdPool.Payout

open Theory (Keyed Table Machine)

set_option autoImplicit false

variable {cfg : Config} {s s' : State} {e : Event}

/-! ## Transactions that can still reach a node -/

def Caller.queued : Caller → List PayoutBatchRecord
  | .submit rest => rest
  | _ => []

/-- The batches a run has listed for submission and not reached yet. -/
def Pc.queued : Pc → List PayoutBatchRecord
  | .submitNext queue => queue
  | .submitWait _ rest => rest
  | .submitMark _ _ rest => rest
  | .markFailed caller _ => caller.queued
  | .unlock caller _ => caller.queued
  | _ => []

/-- The batch a signing run is about to sign or to fail. -/
def Pc.signing : Pc → Option PayoutBatchRecord
  | .signCall batch => some batch
  | .signMark batch _ _ => some batch
  | .markFailed .sign batch => some batch
  | _ => none

/-- The transaction of the batch is accepted, in flight, or queued for submission. -/
def Exposed (s : State) (batchId : String) : Prop :=
  (∃ tx, (tx ∈ s.inFlight ∨ tx ∈ s.chain) ∧ tx.batchId = batchId) ∨
    ∃ pid pc, s.At pid pc ∧ pid ∉ s.severed ∧ ∃ b ∈ pc.queued, b.batchId = batchId

/-- A cancel that takes effect on a signed batch finds it not exposed. -/
def CancelResolved (s : State) (e : Event) : Prop :=
  ∀ batch, s.running e = some (.cancelUpdate batch) →
    s.statusOf batch.batchId = some .signed → ¬ Exposed s batch.batchId

/-- A `mark_payout_signed` whose process is gone takes effect on no batch that a live signing
run has in hand. -/
def LateSigningResolved (s : State) (e : Event) : Prop :=
  ∀ pid env batch txid value, e = .run pid env → s.At pid (.signMark batch txid value) →
    pid ∈ s.severed → s.statusOf batch.batchId = some .created →
      ∀ pid' pc b, s.At pid' pc → pid' ∉ s.severed → pc.signing = some b →
        b.batchId ≠ batch.batchId

/-- What is asked of a step. -/
structure Resolved (s : State) (e : Event) : Prop where
  cancel : CancelResolved s e
  sign : LateSigningResolved s e

/-- No batch with an accepted transaction is unlocked by a cancel. -/
def NoCancelledPayment (s : State) : Prop :=
  ∀ tx ∈ s.chain, (.cancel, tx.batchId) ∉ s.unlocks

/-! ## What the nodes report -/

/-- An answer of a node that `reconcile_payouts` asked about a batch's transaction. -/
structure Report where
  batchId : String
  txid : String
  status : String
  deriving DecidableEq, Repr

/-- The answer a reconcile run is about to read. -/
def report (s : State) (e : Event) : Option Report :=
  match e, s.running e with
  | .run _ env, some (.reconcileNext (batch :: _)) =>
      match env.status with
      | .ok answer => batch.txid.map fun txid => ⟨batch.batchId, txid, answer.status⟩
      | .error _ => none
  | _, _ => none

/-- The payout workers, with what the nodes have reported. -/
def reportingMachine (cfg : Config) : Machine (State × List Report) Event :=
  (payoutMachine cfg).recording [] fun reports s e => reports ++ (report s e).toList

/-- A node was asked about the id the batch is stored with, and the transaction is lost. -/
def ReportedLost (p : State × List Report) (batchId : String) : Prop :=
  ∃ r ∈ p.2, r.batchId = batchId ∧ (r.status = "failed" ∨ r.status = "rejected") ∧
    ∃ row, p.1.db.payoutBatches.find? batchId = some row ∧ row.txid = some r.txid

/-- Only a reconciling run unlocks a batch with an accepted transaction, and only on a report
that the transaction is lost. -/
structure OnlyReconcileUnlocks (p : State × List Report) : Prop where
  cause : ∀ tx ∈ p.1.chain, ∀ cause, (cause, tx.batchId) ∈ p.1.unlocks →
    cause = .reconcile ∧ ReportedLost p tx.batchId
  entry : ∀ tx ∈ p.1.chain, ∀ x ∈ p.1.db.books.ledgerEntries.rows,
    x.kind = .payoutFailedUnlock → x.refId = tx.batchId → (.reconcile, tx.batchId) ∈ p.1.unlocks

/-! ## Queued batches -/

def Sendable (cfg : Config) (raw : Option String) : Prop :=
  ∃ storedTx, raw = some storedTx ∧ ∀ reason, readStoredTx cfg.serde storedTx ≠ .invalid reason

theorem queued_held {pc : Pc} {b : PayoutBatchRecord} (queued : b ∈ pc.queued) :
    pc.worker = .submit ∧ b ∈ pc.holds := by
  cases pc with
  | submitNext _ => exact ⟨rfl, queued⟩
  | submitWait _ _ => exact ⟨rfl, List.mem_cons_of_mem _ queued⟩
  | submitMark _ _ _ => exact ⟨rfl, List.mem_cons_of_mem _ queued⟩
  | markFailed caller _ =>
      cases caller with
      | submit _ => exact ⟨rfl, List.mem_cons_of_mem _ queued⟩
      | sign => cases queued
      | reconcile _ => cases queued
  | unlock caller _ =>
      cases caller with
      | submit _ => exact ⟨rfl, List.mem_cons_of_mem _ queued⟩
      | sign => cases queued
      | reconcile _ => cases queued
  | _ => cases queued

theorem afterWrite_queued {pc pc' : Pc} {updated : Bool}
    (next : pc.afterWrite updated = some pc') {b : PayoutBatchRecord} (queued : b ∈ pc'.queued) :
    b ∈ pc.queued := by
  cases pc with
  | submitMark _ _ _ => cases next; exact queued
  | markFailed _ _ => cases next; exact queued
  | unlock caller _ => cases caller <;> cases next <;> exact queued
  | cancelUpdate _ =>
      simp only [Pc.afterWrite] at next
      split at next <;> cases next
      cases queued
  | _ => cases next <;> cases queued

/-- What a submitting run does with the head of its queue. -/
theorem submitDecision_cases (cfg : Config) (batch : PayoutBatchRecord)
    (rest : List PayoutBatchRecord) :
    (submitDecision cfg batch rest = .goto (.markFailed (.submit rest) batch) ∧
        ¬ Sendable cfg batch.rawTxHash) ∨
      submitDecision cfg batch rest = .goto (.submitNext rest) ∨
      ∃ storedTx, batch.rawTxHash = some storedTx ∧ Sendable cfg batch.rawTxHash ∧
        submitDecision cfg batch rest =
          .send ⟨batch.batchId, storedTx⟩ (.submitWait batch rest) := by
  unfold submitDecision
  cases raw : batch.rawTxHash with
  | none => exact .inl ⟨rfl, by rintro ⟨storedTx, impossible, -⟩; cases impossible⟩
  | some storedTx =>
      dsimp only
      cases stored : readStoredTx cfg.serde storedTx with
      | nodeTx tx =>
          have sendable : Sendable cfg (some storedTx) :=
            ⟨storedTx, rfl, fun reason => by rw [stored]; simp⟩
          dsimp only
          split
          · exact .inr (.inr ⟨storedTx, rfl, sendable, rfl⟩)
          · exact .inr (.inl rfl)
      | rawTx tx =>
          have sendable : Sendable cfg (some storedTx) :=
            ⟨storedTx, rfl, fun reason => by rw [stored]; simp⟩
          dsimp only
          split
          · exact .inr (.inr ⟨storedTx, rfl, sendable, rfl⟩)
          · exact .inr (.inl rfl)
      | invalid reason =>
          refine .inl ⟨rfl, ?_⟩
          rintro ⟨storedTx', same, valid⟩
          cases same
          exact valid reason stored

/-- The program counters of a submitting run that read. -/
theorem submit_reads {pc : Pc} (worker : pc.worker = .submit) (reads : pc.write = none) :
    pc = .submitBegin ∨ pc = .submitList ∨ (∃ queue, pc = .submitNext queue) ∨
      ∃ batch rest, pc = .submitWait batch rest := by
  cases pc with
  | submitBegin => exact .inl rfl
  | submitList => exact .inr (.inl rfl)
  | submitNext queue => exact .inr (.inr (.inl ⟨queue, rfl⟩))
  | submitWait batch rest => exact .inr (.inr (.inr ⟨batch, rest, rfl⟩))
  | markFailed caller _ => cases reads
  | unlock caller _ => cases reads
  | submitMark _ _ _ => cases reads
  | _ => cases worker

theorem read_queued {env : Env} {db : Db} {pc pc' : Pc} (reads : pc.write = none)
    (next : (pc.read cfg env db).next = some pc') {b : PayoutBatchRecord}
    (queued : b ∈ pc'.queued) : b ∈ pc.queued ∨ Listed db [.signed] b := by
  have worker : pc.worker = .submit := (read_holds next).1.symm.trans (queued_held queued).1
  rcases submit_reads worker reads with rfl | rfl | ⟨queue, rfl⟩ | ⟨batch, rest, rfl⟩
  · rw [Pc.read] at next
    split at next <;> cases next
    cases queued
  · cases next
    exact .inr (Db.listed_of_mem queued)
  · cases queue with
    | nil => cases next
    | cons batch rest =>
        refine .inl (List.mem_cons_of_mem _ ?_)
        rw [Pc.read] at next
        rcases submitDecision_cases cfg batch rest with ⟨decided, -⟩ | decided |
          ⟨storedTx, -, -, decided⟩
        · rw [decided] at next; cases next; exact queued
        · rw [decided] at next; cases next; exact queued
        · rw [decided] at next; cases next; exact queued
  · cases next
    refine .inl ?_
    unfold submitAnswered at queued
    split at queued
    · split at queued
      · exact queued
      · split at queued
        · exact queued
        · exact queued
    · exact queued

theorem queued_step {pid : Nat} {pc' : Pc} {b : PayoutBatchRecord}
    (stepped : Stepped cfg s e s') (there : s'.At pid pc') (queued : b ∈ pc'.queued) :
    (∃ pc, s.At pid pc ∧ b ∈ pc.queued) ∨ (s'.db = s.db ∧ Listed s.db [.signed] b) := by
  rcases at_step stepped there with ⟨before, -⟩ | arrives
  · exact .inl ⟨pc', before, queued⟩
  · cases arrives with
    | @spawned entry _ => cases entry <;> cases queued
    | wrote here _ _ next => exact .inl ⟨_, here, afterWrite_queued next queued⟩
    | read here reads next =>
        rcases read_queued reads next queued with before | listed
        · exact .inl ⟨_, here, before⟩
        · exact .inr ⟨read_db stepped here reads, listed⟩

/-- Only the head of a submission queue is sent, and only if it can be read back. -/
theorem read_send {env : Env} {db : Db} {pc pc' : Pc} {tx : SentTx}
    (sends : pc.read cfg env db = .send tx pc') :
    ∃ batch rest, pc = .submitNext (batch :: rest) ∧ tx.batchId = batch.batchId ∧
      batch.rawTxHash = some tx.storedTx ∧ Sendable cfg batch.rawTxHash := by
  cases pc with
  | submitNext queue =>
      cases queue with
      | nil => cases sends
      | cons batch rest =>
          rw [Pc.read] at sends
          rcases submitDecision_cases cfg batch rest with ⟨decided, -⟩ | decided |
            ⟨storedTx, raw, sendable, decided⟩
          · rw [decided] at sends; cases sends
          · rw [decided] at sends; cases sends
          · rw [decided] at sends
            cases sends
            exact ⟨batch, rest, rfl, rfl, raw, sendable⟩
  | createUsage =>
      rw [Pc.read] at sends
      generalize db.activePayoutTotalToday env.currentDate = usage at sends
      cases usage <;> cases sends
  | createSelect used =>
      rw [Pc.read] at sends
      unfold createSelected at sends
      split at sends
      · cases sends
      · split at sends <;> cases sends
  | createBegin => rw [Pc.read] at sends; split at sends <;> cases sends
  | signBegin => rw [Pc.read] at sends; split at sends <;> cases sends
  | signInflight => rw [Pc.read] at sends; split at sends <;> cases sends
  | signList => rw [Pc.read] at sends; split at sends <;> cases sends
  | submitBegin => rw [Pc.read] at sends; split at sends <;> cases sends
  | cancelRead _ => rw [Pc.read] at sends; split at sends <;> cases sends
  | retryRead _ _ => rw [Pc.read] at sends; split at sends <;> cases sends
  | reconcileNext queue =>
      cases queue with
      | nil => cases sends
      | cons batch rest =>
          rw [Pc.read] at sends
          unfold reconcileDecision at sends
          split at sends
          · cases sends
          · split at sends
            · cases sends
            · split at sends
              · cases sends
              · split at sends <;> cases sends
  | _ => cases sends

/-! ## What is sent, accepted and unlocked in one step -/

theorem pending_step (stepped : Stepped cfg s e s') {tx : SentTx}
    (pending : tx ∈ s'.inFlight ∨ tx ∈ s'.chain) :
    (tx ∈ s.inFlight ∨ tx ∈ s.chain) ∨
      ∃ pid batch rest, s.At pid (.submitNext (batch :: rest)) ∧ tx.batchId = batch.batchId ∧
        batch.rawTxHash = some tx.storedTx ∧ Sendable cfg batch.rawTxHash := by
  cases stepped with
  | wrote _ _ _ =>
      rw [State.resume_inFlight, State.resume_chain] at pending
      exact .inl pending
  | @sent pid env pc pc' new here reads decided =>
      rcases pending with flying | accepted
      · rcases List.mem_append.1 flying with old | new
        · exact .inl (.inl old)
        · rw [List.mem_singleton.1 new]
          obtain ⟨batch, rest, rfl, facts⟩ := read_send decided
          exact .inr ⟨pid, batch, rest, here, facts⟩
      · exact .inl (.inr accepted)
  | accepted flying =>
      rcases pending with still | accepted
      · exact .inl (.inl (List.mem_of_mem_erase still))
      · rcases List.mem_append.1 accepted with old | new
        · exact .inl (.inr old)
        · rw [List.mem_singleton.1 new]
          exact .inl (.inl flying)
  | dropped _ =>
      rcases pending with still | accepted
      · exact .inl (.inl (List.mem_of_mem_erase still))
      · exact .inl (.inr accepted)
  | spawned _ => exact .inl pending
  | failed _ _ _ => exact .inl pending
  | moved _ _ _ => exact .inl pending
  | locked _ _ _ _ => exact .inl pending
  | finished _ _ _ => exact .inl pending
  | crashed _ => exact .inl pending
  | severed _ _ => exact .inl pending
  | approved => exact .inl pending
  | switched => exact .inl pending
  | rewarded _ _ => exact .inl pending

theorem unlocks_step (stepped : Stepped cfg s e s') :
    (∀ u ∈ s.unlocks, u ∈ s'.unlocks) ∧
      ∀ u ∈ s'.unlocks, u ∈ s.unlocks ∨
        ∃ pid env pc, e = .run pid env ∧ s.At pid pc ∧ u ∈ pc.unlocked := by
  have unchanged (same : s'.unlocks = s.unlocks) :
      (∀ u ∈ s.unlocks, u ∈ s'.unlocks) ∧ ∀ u ∈ s'.unlocks, u ∈ s.unlocks ∨
        ∃ pid env pc, e = .run pid env ∧ s.At pid pc ∧ u ∈ pc.unlocked := by
    rw [same]
    exact ⟨fun _ member => member, fun _ member => .inl member⟩
  cases stepped with
  | @wrote pid env pc w updated db here writes committed =>
      rw [State.resume_unlocks]
      refine ⟨fun u member => List.mem_append_left _ member, fun u member => ?_⟩
      rcases List.mem_append.1 member with old | new
      · exact .inl old
      · exact .inr ⟨pid, env, pc, rfl, here, new⟩
  | spawned _ => exact unchanged rfl
  | failed _ _ _ => exact unchanged rfl
  | moved _ _ _ => exact unchanged rfl
  | sent _ _ _ => exact unchanged rfl
  | locked _ _ _ _ => exact unchanged rfl
  | finished _ _ _ => exact unchanged rfl
  | crashed _ => exact unchanged rfl
  | severed _ _ => exact unchanged rfl
  | accepted _ => exact unchanged rfl
  | dropped _ => exact unchanged rfl
  | approved => exact unchanged rfl
  | switched => exact unchanged rfl
  | rewarded _ _ => exact unchanged rfl

/-! ## Sent transactions -/

/-- A sent transaction is the stored one of a batch that has been signed. -/
def SentKnown (cfg : Config) (s : State) : Prop :=
  ∀ tx, tx ∈ s.inFlight ∨ tx ∈ s.chain → ∃ r, s.db.payoutBatches.find? tx.batchId = some r ∧
    pastSigned r.status = true ∧ Sendable cfg r.rawTxHash

theorem sent_known (reached : (payoutMachine cfg).Reachable s) : SentKnown cfg s := by
  refine reached.invariant (I := SentKnown cfg) ?_ ?_
  · rintro s rfl tx (flying | accepted)
    · cases flying
    · cases accepted
  · intro s e s' before known _ step tx pending
    have stepped := step_stepped step
    obtain ⟨r, found, past, sendable⟩ : ∃ r, s.db.payoutBatches.find? tx.batchId = some r ∧
        pastSigned r.status = true ∧ Sendable cfg r.rawTxHash := by
      rcases pending_step stepped pending with old | ⟨pid, batch, rest, here, same, raw, sendable⟩
      · exact known tx old
      · obtain ⟨r, held⟩ := held_known before pid _ here batch (List.mem_cons_self ..)
        obtain ⟨past, raw'⟩ := held.submit rfl
        exact ⟨r, same ▸ held.found, past, raw' ▸ sendable⟩
    obtain ⟨r', found', change⟩ := row_step stepped found
    obtain ⟨past', raw'⟩ := change.pastSigned past
    exact ⟨r', found', past', raw' ▸ sendable⟩

/-! ## Batches of a signing run -/

/-- No transaction is stored and the batch is not signed behind the run's back. -/
structure Unsigned (s : State) (batchId : String) (P : PayoutStatus → Prop) : Prop where
  row : ∃ r, s.db.payoutBatches.find? batchId = some r ∧ r.rawTxHash = none ∧ P r.status

def mayBeSigned (status : PayoutStatus) : Prop :=
  status = .created ∨ status = .failed ∨ status = .cancelled

def givenUp (status : PayoutStatus) : Prop := status = .failed ∨ status = .cancelled

theorem signing_inSigning {pc : Pc} {batch : PayoutBatchRecord}
    (signing : pc.signing = some batch) : pc.inSigning = true := by
  cases pc with
  | signCall _ => rfl
  | signMark _ _ _ => rfl
  | markFailed caller _ => cases caller <;> first | rfl | cases signing
  | _ => cases signing

/-- While one run signs, nobody else changes the transaction of its batch. -/
theorem Unsigned.signing_step {pid : Nat} {pc : Pc} {batch : PayoutBatchRecord}
    (reached : (payoutMachine cfg).Reachable s) (resolved : LateSigningResolved s e)
    (stepped : Stepped cfg s e s') (here : s.At pid pc) (alive : pid ∉ s.severed)
    (notRun : ∀ env, e ≠ .run pid env) (signing : pc.signing = some batch)
    (unsigned : Unsigned s batch.batchId mayBeSigned) : Unsigned s' batch.batchId mayBeSigned := by
  obtain ⟨r, found, raw, status⟩ := unsigned.row
  obtain ⟨r', found', change⟩ := row_step stepped found
  refine ⟨r', found', ?_⟩
  cases change with
  | same => exact ⟨raw, status⟩
  | approved _ source => rcases status with h | h | h <;> rw [source] at h <;> cases h
  | @signed pid' env batch' txid value is there id source =>
      by_cases gone : pid' ∈ s.severed
      · -- the statement of a dead process, on another batch
        have same : r.id = batch.batchId := Table.key_of_find? found
        have created : s.statusOf batch'.batchId = some .created := by
          rw [State.statusOf, ← id, same, found, Option.map_some, source]
        exact absurd (same.symm.trans id)
          (resolved pid' env batch' txid value is there gone created pid pc batch here alive signing)
      · have same := signing_unique reached here there (signing_inSigning signing) rfl alive gone
        subst same
        exact absurd is (notRun _)
  | submitted _ _ _ source =>
      rcases status with h | h | h <;> rw [h] at source <;> rcases source with h | h <;> cases h
  | confirmed _ _ _ source =>
      rcases status with h | h | h <;> rw [h] at source <;> rcases source with h | h <;> cases h
  | failed _ _ _ _ => exact ⟨raw, .inr (.inl rfl)⟩
  | cancelled _ _ _ _ => exact ⟨raw, .inr (.inr rfl)⟩

theorem Unsigned.givenUp_step {batchId : String} (stepped : Stepped cfg s e s')
    (unsigned : Unsigned s batchId givenUp) : Unsigned s' batchId givenUp := by
  obtain ⟨r, found, raw, status⟩ := unsigned.row
  obtain ⟨r', found', change⟩ := row_step stepped found
  have frozen := change.frozen (by rcases status with h | h <;> rw [h] <;> rfl)
  subst frozen
  exact ⟨r', found', raw, status⟩

structure SigningKnown (s : State) : Prop where
  signing : ∀ pid pc batch, s.At pid pc → pid ∉ s.severed → pc.signing = some batch →
    Unsigned s batch.batchId mayBeSigned
  unlocking : ∀ pid batch, s.At pid (.unlock .sign batch) → Unsigned s batch.batchId givenUp

theorem read_signing {env : Env} {db : Db} {pc pc' : Pc} {batch : PayoutBatchRecord}
    (next : (pc.read cfg env db).next = some pc') (signing : pc'.signing = some batch) :
    pc.signing = some batch ∨ Listed db [.created] batch := by
  have held : batch ∈ pc'.holds ∧ pc'.worker = .sign := by
    cases pc' with
    | signCall _ => cases signing; exact ⟨List.mem_cons_self .., rfl⟩
    | signMark _ _ _ => cases signing; exact ⟨List.mem_cons_self .., rfl⟩
    | markFailed caller _ =>
        cases caller with
        | sign => cases signing; exact ⟨List.mem_cons_self .., rfl⟩
        | submit _ => cases signing
        | reconcile _ => cases signing
    | _ => cases signing
  obtain ⟨worker, -, holds⟩ := read_holds next
  rw [held.2] at worker
  rcases holds batch held.1 with before | listed
  · refine .inl ?_
    cases pc with
    | signCall _ => rw [List.mem_singleton.1 before]; rfl
    | signMark _ _ _ => cases next
    | markFailed _ _ => cases next
    | unlock _ _ => cases next
    | _ => cases worker <;> cases before
  · rw [← worker] at listed
    exact .inr listed

theorem signing_known (reached : (payoutMachine cfg).Reaches LateSigningResolved s) :
    SigningKnown s := by
  refine reached.invariant (I := SigningKnown) ?_ ?_
  · rintro s rfl
    exact ⟨fun _ _ _ here => (by cases here), fun _ _ here => (by cases here)⟩
  · intro s e s' reached known resolved step
    have before := reached.reachable
    have stepped := step_stepped step
    refine ⟨?_, ?_⟩
    · intro pid pc' batch there alive' signing
      have alive : pid ∉ s.severed := fun gone => alive' (severed_kept stepped there gone)
      rcases at_step stepped there with ⟨here, notRun⟩ | arrives
      · exact (known.signing pid pc' batch here alive signing).signing_step before resolved stepped
          here alive notRun signing
      · cases arrives with
        | @spawned entry _ => cases entry <;> cases signing
        | @wrote env pc pc' w updated db here _ _ next =>
            cases pc with
            | cancelUpdate _ =>
                simp only [Pc.afterWrite] at next
                split at next <;> cases next
                cases signing
            | unlock caller _ => cases caller <;> cases next <;> cases signing
            | _ => cases next <;> cases signing
        | read here reads next =>
            have same := read_db stepped here reads
            have now : Unsigned s batch.batchId mayBeSigned := by
              rcases read_signing next signing with earlier | listed
              · exact known.signing pid _ batch here alive earlier
              · obtain ⟨row, found, status, -⟩ := listed
                have created := List.mem_singleton.1 status
                exact ⟨row, found, (rows_known before _ row found).unsigned (.inr created),
                  .inl created⟩
            obtain ⟨r, found, rest⟩ := now.row
            exact ⟨r, by rw [same]; exact found, rest⟩
    · intro pid batch there
      rcases at_step stepped there with ⟨here, -⟩ | arrives
      · exact (known.unlocking pid batch here).givenUp_step stepped
      · obtain ⟨⟨env, rfl, alive⟩, closing⟩ := arrives_closing stepped arrives rfl
        cases closing with
        | unlock here =>
            obtain ⟨r, found, raw, status⟩ := (known.signing pid _ batch here alive rfl).row
            obtain ⟨r', found', change⟩ := row_step stepped found
            obtain ⟨r'', found'', given⟩ := failed_stored stepped here found
              (rows_known before _ r found) (by rcases status with h | h | h <;> rw [h] <;> simp)
            rw [found'] at found''
            cases found''
            refine ⟨r', found', ?_, given⟩
            cases change with
            | signed is there _ _ => cases State.at_unique there (by cases is; exact here)
            | _ => exact raw

/-! ## Unlock history -/

/-- What the database says of a batch that a run of the given kind unlocked. -/
structure UnlockKnown (cfg : Config) (s : State) : Prop where
  sign : ∀ id, (.sign, id) ∈ s.unlocks → Unsigned s id givenUp
  submit : ∀ id, (.submit, id) ∈ s.unlocks → ∃ r, s.db.payoutBatches.find? id = some r ∧
    pastSigned r.status = true ∧ ¬ Sendable cfg r.rawTxHash
  cancel : ∀ id, (.cancel, id) ∈ s.unlocks → ∃ r, s.db.payoutBatches.find? id = some r ∧
    r.status = .cancelled
  submitting : ∀ pid rest batch, s.At pid (.markFailed (.submit rest) batch) ∨
    s.At pid (.unlock (.submit rest) batch) → ¬ Sendable cfg batch.rawTxHash
  cancelling : ∀ pid batch, s.At pid (.cancelUnlock batch) →
    ∃ r, s.db.payoutBatches.find? batch.batchId = some r ∧ r.status = .cancelled

theorem read_markFailed {env : Env} {db : Db} {pc : Pc} {rest : List PayoutBatchRecord}
    {batch : PayoutBatchRecord} (reads : pc.write = none)
    (next : (pc.read cfg env db).next = some (.markFailed (.submit rest) batch)) :
    ¬ Sendable cfg batch.rawTxHash := by
  have worker : pc.worker = .submit := (read_holds next).1.symm
  rcases submit_reads worker reads with rfl | rfl | ⟨queue, rfl⟩ | ⟨batch', rest', rfl⟩
  · rw [Pc.read] at next
    split at next <;> cases next
  · cases next
  · cases queue with
    | nil => cases next
    | cons batch' rest' =>
        rw [Pc.read] at next
        rcases submitDecision_cases cfg batch' rest' with ⟨decided, unsendable⟩ | decided |
          ⟨storedTx, -, -, decided⟩
        · rw [decided] at next; cases next; exact unsendable
        · rw [decided] at next; cases next
        · rw [decided] at next; cases next
  · rw [Pc.read] at next
    simp only [Outcome.next, Option.some.injEq] at next
    unfold submitAnswered at next
    split at next
    · split at next
      · cases next
      · split at next <;> cases next
    · cases next

theorem submitting_step (known : UnlockKnown cfg s) (stepped : Stepped cfg s e s') :
    ∀ pid rest batch, s'.At pid (.markFailed (.submit rest) batch) ∨
      s'.At pid (.unlock (.submit rest) batch) → ¬ Sendable cfg batch.rawTxHash := by
  rintro pid rest batch (there | there)
  · rcases at_step stepped there with ⟨here, -⟩ | arrives
    · exact known.submitting pid rest batch (.inl here)
    · generalize target : Pc.markFailed (.submit rest) batch = pc' at arrives
      cases arrives with
      | @spawned entry _ => cases entry <;> cases target
      | @wrote env pc pc' w updated db here _ _ next =>
          subst target
          cases pc with
          | cancelUpdate _ =>
              simp only [Pc.afterWrite] at next
              split at next <;> cases next
          | unlock caller _ => cases caller <;> cases next
          | _ => cases next
      | read here reads next =>
          subst target
          exact read_markFailed reads next
  · rcases at_step stepped there with ⟨here, -⟩ | arrives
    · exact known.submitting pid rest batch (.inr here)
    · obtain ⟨-, closing⟩ := arrives_closing stepped arrives rfl
      cases closing with
      | unlock here => exact known.submitting pid rest batch (.inl here)

theorem cancelling_step (known : UnlockKnown cfg s) (stepped : Stepped cfg s e s') :
    ∀ pid batch, s'.At pid (.cancelUnlock batch) →
      ∃ r, s'.db.payoutBatches.find? batch.batchId = some r ∧ r.status = .cancelled := by
  intro pid batch there
  rcases at_step stepped there with ⟨here, -⟩ | arrives
  · exact ended_kept (P := (· = .cancelled)) (by rintro _ rfl; rfl) stepped
      (known.cancelling pid batch here)
  · obtain ⟨-, closing⟩ := arrives_closing stepped arrives rfl
    cases closing with
    | cancel _ succeeded => exact cancelled_stored succeeded

theorem unlock_known (reached : (payoutMachine cfg).Reaches LateSigningResolved s) :
    UnlockKnown cfg s := by
  refine reached.invariant (I := UnlockKnown cfg) ?_ ?_
  · rintro s rfl
    exact ⟨fun _ member => (by cases member), fun _ member => (by cases member),
      fun _ member => (by cases member),
      fun _ _ _ here => (by rcases here with here | here <;> cases here),
      fun _ _ here => (by cases here)⟩
  · intro s e s' reached known _ step
    have before := reached.reachable
    have stepped := step_stepped step
    refine ⟨?_, ?_, ?_, submitting_step known stepped, cancelling_step known stepped⟩
    · intro id member
      refine Unsigned.givenUp_step stepped ?_
      rcases (unlocks_step stepped).2 _ member with old | ⟨pid, env, pc, -, here, unlocked⟩
      · exact known.sign id old
      · cases pc with
        | unlock caller batch =>
            cases caller <;> cases List.mem_singleton.1 unlocked
            exact (signing_known reached).unlocking pid batch here
        | cancelUnlock batch => cases List.mem_singleton.1 unlocked
        | _ => cases unlocked
    · intro id member
      have earlier : ∃ r, s.db.payoutBatches.find? id = some r ∧ pastSigned r.status = true ∧
          ¬ Sendable cfg r.rawTxHash := by
        rcases (unlocks_step stepped).2 _ member with old | ⟨pid, env, pc, -, here, unlocked⟩
        · exact known.submit id old
        · cases pc with
          | unlock caller batch =>
              cases caller with
              | submit rest =>
                  cases List.mem_singleton.1 unlocked
                  obtain ⟨r, held⟩ := held_known before pid _ here batch (List.mem_cons_self ..)
                  obtain ⟨past, raw⟩ := held.submit rfl
                  exact ⟨r, held.found, past,
                    raw ▸ known.submitting pid rest batch (.inr here)⟩
              | sign => cases List.mem_singleton.1 unlocked
              | reconcile _ => cases List.mem_singleton.1 unlocked
          | cancelUnlock batch => cases List.mem_singleton.1 unlocked
          | _ => cases unlocked
      obtain ⟨r, found, past, unsendable⟩ := earlier
      obtain ⟨r', found', change⟩ := row_step stepped found
      obtain ⟨past', raw'⟩ := change.pastSigned past
      exact ⟨r', found', past', raw' ▸ unsendable⟩
    · intro id member
      refine ended_kept (P := (· = .cancelled)) (by rintro _ rfl; rfl) stepped ?_
      rcases (unlocks_step stepped).2 _ member with old | ⟨pid, env, pc, -, here, unlocked⟩
      · exact known.cancel id old
      · cases pc with
        | unlock caller batch => cases caller <;> cases List.mem_singleton.1 unlocked
        | cancelUnlock batch =>
            cases List.mem_singleton.1 unlocked
            exact known.cancelling pid batch here
        | _ => cases unlocked

/-- Every unlock entry in the ledger is in the history. -/
def EntriesRecorded (s : State) : Prop :=
  ∀ x ∈ s.db.books.ledgerEntries.rows, x.kind = .payoutFailedUnlock →
    ∃ cause, (cause, x.refId) ∈ s.unlocks

theorem entries_recorded (reached : (payoutMachine cfg).Reachable s) : EntriesRecorded s := by
  refine reached.invariant (I := EntriesRecorded) ?_ ?_
  · rintro s rfl x member
    cases member
  · intro s e s' _ known _ step x member kind
    have stepped := step_stepped step
    rcases (ledger_step stepped).2 x member with old | entered
    · obtain ⟨cause, recorded⟩ := known x old kind
      exact ⟨cause, (unlocks_step stepped).1 _ recorded⟩
    · cases entered with
      | rewarded outside => rw [kind] at outside; cases outside
      | locked lock => rw [kind] at lock; cases lock
      | @closed pid env pc w entries is here writes closes inEntries =>
          subst is
          rcases write_step stepped here writes with ⟨updated, db, -, rfl⟩ | ⟨-, rfl⟩
          · rw [State.resume_unlocks]
            cases pc with
            | reconcilePaid _ _ =>
                cases writes
                cases closes
                rw [(mem_paidEntries inEntries).1] at kind
                cases kind
            | unlock caller batch =>
                cases writes
                cases closes
                rw [(mem_unlockEntries inEntries).2]
                exact ⟨caller.cause, List.mem_append_right _ (List.mem_singleton_self _)⟩
            | cancelUnlock batch =>
                cases writes
                cases closes
                rw [(mem_unlockEntries inEntries).2]
                exact ⟨.cancel, List.mem_append_right _ (List.mem_singleton_self _)⟩
            | _ => cases writes <;> cases closes
          · exact known x member kind

/-! ## Cancelled batches -/

/-- An exposure is old, or the batch has just been listed as signed. -/
theorem exposed_step (reached : (payoutMachine cfg).Reachable s) {id : String}
    (stepped : Stepped cfg s e s') (exposed : Exposed s' id) :
    Exposed s id ∨ (s'.db = s.db ∧ s.statusOf id = some .signed) := by
  rcases exposed with ⟨tx, pending, rfl⟩ | ⟨pid, pc', there, alive, b, queued, rfl⟩
  · rcases pending_step stepped pending with old | ⟨pid, batch, rest, here, same, -⟩
    · exact .inl (.inl ⟨tx, old, rfl⟩)
    · exact .inl (.inr ⟨pid, _, here, alive_of_reads reached here rfl, batch,
        List.mem_cons_self .., same.symm⟩)
  · rcases queued_step stepped there queued with ⟨pc, here, before⟩ | ⟨same, listed⟩
    · exact .inl (.inr ⟨pid, pc, here, fun gone => alive (severed_kept stepped there gone),
        b, before, rfl⟩)
    · obtain ⟨row, found, status, -⟩ := listed
      refine .inr ⟨same, ?_⟩
      rw [State.statusOf, found, Option.map_some, List.mem_singleton.1 status]

/-- Only a batch that has been signed is exposed. -/
theorem exposed_signed (reached : (payoutMachine cfg).Reachable s) {id : String}
    (exposed : Exposed s id) : ∃ r, s.db.payoutBatches.find? id = some r ∧
      pastSigned r.status = true := by
  rcases exposed with ⟨tx, pending, rfl⟩ | ⟨pid, pc, here, -, b, queued, rfl⟩
  · obtain ⟨r, found, past, -⟩ := sent_known reached tx pending
    exact ⟨r, found, past⟩
  · obtain ⟨worker, holds⟩ := queued_held queued
    obtain ⟨r, held⟩ := held_known reached pid pc here b holds
    exact ⟨r, held.found, (held.submit worker).1⟩

def CancelledClear (s : State) : Prop :=
  ∀ id r, s.db.payoutBatches.find? id = some r → r.status = .cancelled → ¬ Exposed s id

theorem cancelled_clear (reached : (payoutMachine cfg).Reaches CancelResolved s) :
    CancelledClear s := by
  refine reached.invariant (I := CancelledClear) ?_ ?_
  · rintro s rfl id r found
    cases found
  · intro s e s' before known resolved step id r' found' cancelled exposed
    have stepped := step_stepped step
    rcases exposed_step before.reachable stepped exposed with earlier | ⟨same, signed⟩
    · rcases row_before stepped found' with ⟨r, found, change⟩ | inserted
      · obtain ⟨r₀, found₀, past⟩ := exposed_signed before.reachable earlier
        rw [found] at found₀
        cases found₀
        by_cases was : r.status = .cancelled
        · exact known id r found was earlier
        · cases change with
          | same => exact was cancelled
          | @cancelled pid env batch is here same source =>
              have idEq : r.id = id := Table.key_of_find? found
              subst is
              have status : r.status = .signed := by
                simp only [Db.cancellable, List.mem_cons, List.not_mem_nil, or_false] at source
                rcases source with h | h | h
                · rw [h] at past; cases past
                · rw [h] at past; cases past
                · exact h
              have batchId : batch.batchId = id := same.symm.trans idEq
              refine resolved batch (running_of_at here env) ?_ (batchId ▸ earlier)
              rw [State.statusOf, batchId, found, Option.map_some, status]
          | approved _ _ => cases cancelled
          | signed _ _ _ _ => cases cancelled
          | submitted _ _ _ _ => cases cancelled
          | confirmed _ _ _ _ => cases cancelled
          | failed _ _ _ _ => cases cancelled
      · rcases inserted.status before.reachable with h | h <;> rw [h] at cancelled <;>
          cases cancelled
    · rw [same] at found'
      rw [State.statusOf, found', Option.map_some, cancelled] at signed
      cases signed

/-! ## Reports -/

/-- What a reconcile run gives up, and has given up, was reported lost. -/
structure ReportsKnown (p : State × List Report) : Prop where
  polled : ∀ pid rest batch, p.1.At pid (.markFailed (.reconcile rest) batch) ∨
    p.1.At pid (.unlock (.reconcile rest) batch) → ∀ txid, batch.txid = some txid →
      ∃ r ∈ p.2, r.batchId = batch.batchId ∧ r.txid = txid ∧
        (r.status = "failed" ∨ r.status = "rejected")
  unlocked : ∀ id, (.reconcile, id) ∈ p.1.unlocks → ∃ r ∈ p.2, r.batchId = id ∧
    TxidHeld p.1 id (some r.txid) ∧ (r.status = "failed" ∨ r.status = "rejected")

/-- A reconcile run gives a batch up without an id, or on what it is told. -/
theorem reconcileDecision_failed {answer : Except String TransactionStatusResponse}
    {batch batch' : PayoutBatchRecord} {rest rest' : List PayoutBatchRecord}
    (next : (reconcileDecision answer batch rest).next =
      some (.markFailed (.reconcile rest') batch')) :
    batch' = batch ∧ ∀ txid, batch.txid = some txid → ∃ status, answer = .ok status ∧
      (status.status = "failed" ∨ status.status = "rejected") := by
  unfold reconcileDecision at next
  split at next
  · rename_i none_
    cases next
    refine ⟨rfl, fun txid known => ?_⟩
    rw [none_] at known
    cases known
  · split at next
    · cases next
    · rename_i status
      split at next
      · cases next
      · split at next
        · rename_i lost
          cases next
          exact ⟨rfl, fun _ _ => ⟨status, rfl, lost⟩⟩
        · cases next

/-- A run comes to give a batch up for the node by polling it. -/
theorem arrives_givenUp {pid : Nat} {batch : PayoutBatchRecord} {rest : List PayoutBatchRecord}
    (arrives : Arrives cfg s pid e (.markFailed (.reconcile rest) batch)) {txid : String}
    (known : batch.txid = some txid) :
    ∃ r, report s e = some r ∧ r.batchId = batch.batchId ∧ r.txid = txid ∧
      (r.status = "failed" ∨ r.status = "rejected") := by
  generalize target : Pc.markFailed (.reconcile rest) batch = pc' at arrives
  cases arrives with
  | @spawned entry _ => cases entry <;> cases target
  | @wrote env pc pc' w updated db here _ _ next =>
      subst target
      cases pc with
      | cancelUpdate _ =>
          simp only [Pc.afterWrite] at next
          split at next <;> cases next
      | unlock caller _ => cases caller <;> cases next
      | _ => cases next
  | @read env pc pc' here reads next =>
      subst target
      have worker : pc.worker = .reconcile := (read_holds next).1.symm
      cases pc with
      | reconcileList => cases next
      | reconcileNext queue =>
          cases queue with
          | nil => cases next
          | cons head tail =>
              obtain ⟨rfl, told⟩ := reconcileDecision_failed next
              obtain ⟨status, answer, lost⟩ := told txid known
              refine ⟨⟨batch.batchId, txid, status.status⟩, ?_, rfl, rfl, lost⟩
              unfold report
              rw [running_of_at here]
              dsimp only
              rw [answer, known]
              rfl
      | reconcileConfirm _ _ => cases next
      | reconcilePaid _ _ => cases next
      | markFailed _ _ => cases next
      | unlock _ _ => cases next
      | _ => cases worker

theorem reports_known {allow : State × List Report → Event → Prop} {p : State × List Report}
    (reached : (reportingMachine cfg).Reaches allow p) : ReportsKnown p := by
  refine reached.invariant (I := ReportsKnown) ?_ ?_
  · rintro ⟨s, reports⟩ ⟨rfl, -⟩
    exact ⟨fun _ _ _ here => (by rcases here with here | here <;> cases here),
      fun _ member => (by cases member)⟩
  · intro p e p' before known _ step
    obtain ⟨moved, recorded⟩ := Machine.recording_step step
    have stepped := step_stepped moved
    have grows : ∀ r ∈ p.2, r ∈ p'.2 := fun r old => recorded ▸ List.mem_append_left _ old
    refine ⟨?_, ?_⟩
    · rintro pid rest batch there txid stored
      have earlier : (p.1.At pid (.markFailed (.reconcile rest) batch) ∨
          p.1.At pid (.unlock (.reconcile rest) batch)) ∨
            Arrives cfg p.1 pid e (.markFailed (.reconcile rest) batch) := by
        rcases there with there | there
        · rcases at_step stepped there with ⟨here, -⟩ | arrives
          · exact .inl (.inl here)
          · exact .inr arrives
        · rcases at_step stepped there with ⟨here, -⟩ | arrives
          · exact .inl (.inr here)
          · obtain ⟨-, closing⟩ := arrives_closing stepped arrives rfl
            cases closing with
            | unlock here => exact .inl (.inl here)
      rcases earlier with here | arrives
      · obtain ⟨r, told, facts⟩ := known.polled pid rest batch here txid stored
        exact ⟨r, grows r told, facts⟩
      · obtain ⟨r, told, facts⟩ := arrives_givenUp arrives stored
        refine ⟨r, ?_, facts⟩
        rw [recorded, told]
        exact List.mem_append_right _ (List.mem_singleton_self r)
    · intro id member
      have lost : ∃ r ∈ p'.2, r.batchId = id ∧ TxidHeld p.1 id (some r.txid) ∧
          (r.status = "failed" ∨ r.status = "rejected") := by
        rcases (unlocks_step stepped).2 _ member with old | ⟨pid, env, pc, -, here, unlocked⟩
        · obtain ⟨r, told, facts⟩ := known.unlocked id old
          exact ⟨r, grows r told, facts⟩
        · cases pc with
          | unlock caller batch =>
              cases caller with
              | reconcile rest =>
                  cases List.mem_singleton.1 unlocked
                  have held := txids_held before.forget pid _ here (.inr rfl) batch
                    (List.mem_cons_self ..)
                  obtain ⟨row, txid, found, past, stored, read⟩ := held
                  obtain ⟨r, told, same, asked, status⟩ :=
                    known.polled pid rest batch (.inr here) txid read
                  exact ⟨r, grows r told, same,
                    ⟨row, txid, found, past, stored, congrArg some asked⟩, status⟩
              | sign => cases List.mem_singleton.1 unlocked
              | submit _ => cases List.mem_singleton.1 unlocked
          | cancelUnlock batch => cases List.mem_singleton.1 unlocked
          | _ => cases unlocked
      obtain ⟨r, told, same, held, status⟩ := lost
      exact ⟨r, told, same, held.step stepped, status⟩

/-! ## The law -/

/-- **A batch with an accepted transaction is unlocked by nobody but a reconciling run**, and by
that one only on a report that the transaction is lost, if every cancel that takes effect on a
signed batch finds it not exposed and no signing run loses its batch to the update of a dead
process. -/
theorem accepted_never_cancelled (cfg : Config) (p : State × List Report)
    (reached : (reportingMachine cfg).Reaches (fun p e => Resolved p.1 e) p) :
    OnlyReconcileUnlocks p := by
  have resolved : (payoutMachine cfg).Reaches Resolved p.1 := reached.project
  have known := unlock_known (resolved.mono fun _ _ step => step.sign)
  have clear := cancelled_clear (resolved.mono fun _ _ step => step.cancel)
  have cause : ∀ tx ∈ p.1.chain, ∀ cause, (cause, tx.batchId) ∈ p.1.unlocks →
      cause = .reconcile ∧ ReportedLost p tx.batchId := by
    intro tx accepted cause recorded
    obtain ⟨r, found, past, sendable⟩ := sent_known resolved.reachable tx (.inr accepted)
    cases cause with
    | sign =>
        obtain ⟨r', found', raw, -⟩ := (known.sign _ recorded).row
        rw [found] at found'
        cases found'
        obtain ⟨storedTx, stored, -⟩ := sendable
        rw [raw] at stored
        cases stored
    | submit =>
        obtain ⟨r', found', -, unsendable⟩ := known.submit _ recorded
        rw [found] at found'
        cases found'
        exact absurd sendable unsendable
    | cancel =>
        obtain ⟨r', found', cancelled⟩ := known.cancel _ recorded
        exact absurd (.inl ⟨tx, .inr accepted, rfl⟩) (clear _ r' found' cancelled)
    | reconcile =>
        obtain ⟨told, inReports, same, ⟨row, txid, stored, -, has, asked⟩, status⟩ :=
          (reports_known reached).unlocked _ recorded
        exact ⟨rfl, told, inReports, same, status, row, stored, has.trans asked.symm⟩
  refine ⟨cause, fun tx accepted x member kind same => ?_⟩
  obtain ⟨by_, recorded⟩ := entries_recorded resolved.reachable x member kind
  rw [same] at recorded
  obtain ⟨rfl, -⟩ := cause tx accepted by_ recorded
  exact recorded

/-! ## Runs -/

/-- The step is no cancel of a signed batch, and no process has been severed. -/
def notSignedCancel (s : State) (e : Event) : Bool :=
  s.severed.isEmpty &&
    match s.running e with
    | some (.cancelUpdate batch) => !decide (s.statusOf batch.batchId = some .signed)
    | _ => true

theorem Resolved.of_test (quiet : notSignedCancel s e = true) : Resolved s e := by
  rw [notSignedCancel, Bool.and_eq_true, List.isEmpty_iff] at quiet
  obtain ⟨nobody, quiet⟩ := quiet
  constructor
  · intro batch running signed
    simp [running, signed] at quiet
  · intro pid env batch txid value is here gone
    rw [nobody] at gone
    cases gone

def acceptedAndUnlocked (id : String) (cause : UnlockCause) (s : State) : Bool :=
  s.chain.any (fun tx => tx.batchId == id) && s.unlocks.contains (cause, id)

/-- Cancelled before signing, retried, accepted, and then reported failed by the node. -/
theorem accepted_never_cancelled_failed :
    ∃ p, OnlyReconcileUnlocks p ∧ p.2 = [⟨"q", Sample.txid, "failed"⟩] ∧
      acceptedAndUnlocked "q" .reconcile p.1 = true := by
  obtain ⟨p, reached, shown⟩ := Machine.exists_of_runUnder (reportingMachine Sample.config)
    (fun p e => notSignedCancel p.1 e = true) (s := (.initial, [])) ⟨rfl, rfl⟩
    (Sample.funded 100 ++ Sample.create 0 "p" ++ Sample.cancel 1 "p" ++ Sample.retry 2 "p" "q" ++
      Sample.sign 3 ++ Sample.submitSend 4 ++
      [.nodeAccept ⟨"q", "aa"⟩, .run 4 { submit := .ok ⟨true, some Sample.txid, .null⟩ }] ++
      Sample.steps 4 2 ++
      [.spawn 5 .reconcilePayouts, .run 5 {}, .run 5 (Sample.answered "failed" 0)] ++
      Sample.steps 5 2)
    (fun p => decide (p.2 = [⟨"q", Sample.txid, "failed"⟩]) &&
      acceptedAndUnlocked "q" .reconcile p.1)
    (by decide +kernel)
  obtain ⟨reports, unlocked⟩ := Bool.and_eq_true_iff.1 shown
  exact ⟨p, accepted_never_cancelled _ p (reached.mono fun _ _ => Resolved.of_test),
    of_decide_eq_true reports, unlocked⟩

/-- The node accepts, its response is lost, the operator cancels the batch that is still
`signed`. -/
theorem cancel_after_accept :
    ∃ s, (payoutMachine Sample.config).Reachable s ∧ ¬ NoCancelledPayment s := by
  obtain ⟨s, reached, unlocked⟩ := Machine.exists_of_run (payoutMachine Sample.config)
    (s := .initial) rfl
    (Sample.funded 100 ++ Sample.create 0 "p" ++ Sample.sign 1 ++ Sample.submitSend 2 ++
      [.nodeAccept ⟨"p", "aa"⟩, .run 2 { submit := .error "timeout" }, .run 2 {}] ++
      Sample.cancel 3 "p")
    (acceptedAndUnlocked "p" .cancel) (by decide +kernel)
  refine ⟨s, reached, fun none_ => ?_⟩
  simp only [acceptedAndUnlocked, Bool.and_eq_true, List.any_eq_true, beq_iff_eq,
    List.contains_iff_mem] at unlocked
  obtain ⟨⟨tx, accepted, same⟩, recorded⟩ := unlocked
  exact none_ tx accepted (same ▸ recorded)

end CsdPool.Payout
