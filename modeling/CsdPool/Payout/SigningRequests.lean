/-
# Payout.SigningRequests — the signer takes what the workers ask it to sign

A batch reaches the signer the way it went into the database, and it went in as a selection or as
the copy of an earlier batch.  So in every reachable state a batch has recipients, each of them
with a legal address and at least the minimum, and its total is their sum as a `u128`
(`BatchesSound`); which is what the signer checks of a request.  What is left is the header and a
sum that does not fit (`signer_signs`).

The header is written by `reqwest` and read by `HeaderMap` and `to_str`, so what arrives of a token
is a parameter (`Delivery`).  As they are documented, a visible token arrives as it is and one with
a character outside ASCII never as a text: equal tokens are then refused (`authorized_visible`,
`authorized_hidden`).
-/
import CsdPool.Payout.Caps
import CsdPool.Payout.SignerService
import CsdPool.Theory.Sha256

namespace CsdPool.Payout

open Theory (Keyed Table Machine)

set_option autoImplicit false

/-! ## Batches -/

/-- What the recipients of a batch are like, in a draft or in the database. -/
structure Payees (minimum total : Nat) (amounts : List Nat) : Prop where
  some : amounts ≠ []
  atLeast : ∀ amount ∈ amounts, minimum ≤ amount
  total : total = u128 amounts.sum

theorem Payees.perm {minimum total : Nat} {amounts amounts' : List Nat}
    (payees : Payees minimum total amounts) (perm : amounts.Perm amounts') :
    Payees minimum total amounts' where
  some empty := payees.some (List.perm_nil.1 (empty ▸ perm))
  atLeast amount member := payees.atLeast amount (perm.mem_iff.2 member)
  total := payees.total.trans (congrArg u128 perm.sum_eq)

def draftAmounts (draft : PayoutBatchDraft) : List Nat :=
  draft.recipients.map PayoutRecipient.amountBaseUnits

def rowAmounts (db : Db) (batchId : String) : List Nat :=
  (db.recipientsOf batchId).map PayoutRecipientRow.amountBaseUnits

/-- A selection pays everybody in it the minimum or more. -/
theorem createDecision_payees {cfg : Config} {batchId : String} {used : Nat}
    {balances : List MinerBalance} {draft : PayoutBatchDraft} {status : PayoutStatus}
    (decided : createDecision cfg batchId used balances = some (draft, status)) :
    Payees cfg.minimumPayoutBaseUnits draft.totalBaseUnits (draftAmounts draft) := by
  have shape : draft = payoutBatchDraft batchId
      (selectPayouts balances cfg.minimumPayoutBaseUnits 100) ∧
      (selectPayouts balances cfg.minimumPayoutBaseUnits 100).recipients ≠ [] := by
    unfold createDecision at decided
    dsimp only at decided
    split at decided
    · cases decided
    · rename_i some_
      split at decided
      · cases decided
      · split at decided
        · cases decided
        · split at decided
          all_goals
            cases decided
            exact ⟨rfl, by simpa using some_⟩
  obtain ⟨rfl, some_⟩ := shape
  refine ⟨by simpa [draftAmounts, payoutBatchDraft] using some_, ?_, rfl⟩
  intro amount member
  obtain ⟨recipient, inSelection, rfl⟩ := List.mem_map.1 member
  have eligible := List.mem_of_mem_take inSelection
  rw [List.mem_insertionSort, List.mem_map] at eligible
  obtain ⟨balance, passes, rfl⟩ := eligible
  simpa using (List.mem_filter.1 passes).2

/-! ## Recipients in the database -/

section Database

variable {cfg : Config} {s s' : State} {e : Event}

theorem rowAmounts_perm (db : Db) (batchId : String) :
    (rowAmounts db batchId).Perm ((db.payoutRecipients.rows.filter fun r => r.batchId = batchId).map
      PayoutRecipientRow.amountBaseUnits) :=
  (List.perm_insertionSort ..).map _

/-- The addresses a batch goes in with pass the schema's check. -/
theorem insertRecipients_addresses {batchId : String} {recipients : List PayoutRecipient}
    {state state' : Books × Table PayoutRecipientRow}
    (folded : recipients.foldlM (Db.insertRecipient batchId) state = .ok state') :
    ∀ r ∈ recipients, matchesLowerHex 40 r.address = true := by
  induction recipients generalizing state with
  | nil => rintro _ ⟨⟩
  | cons recipient rest ih =>
      obtain ⟨mid, first, later⟩ := Theory.foldlM_ok_cons.1 folded
      intro r member
      rcases List.mem_cons.1 member with rfl | inRest
      · unfold Db.insertRecipient at first
        split at first
        · cases first
        · dsimp only at first
          split at first
          · rename_i passes
            exact (Bool.and_eq_true_iff.1 passes).2
          · cases first
      · exact ih later r inRest

/-- A new batch has the recipients of its draft. -/
theorem inserted_recipients {r : PayoutBatchRow} (stepped : Stepped cfg s e s')
    (inserted : Inserted s e r) (found : s'.db.payoutBatches.find? r.id = some r) :
    ∃ pid pc draft status, s.At pid pc ∧ pc.write = some (.createLocked draft status) ∧
      r.id = draft.batchId ∧ r.totalBaseUnits = draft.totalBaseUnits ∧
      s'.db.payoutRecipients.rows =
        s.db.payoutRecipients.rows ++ draft.recipients.map (Db.recipientRow draft.batchId) := by
  obtain ⟨⟨pid, env, pc, draft, rfl, here, writes, shape⟩, fresh⟩ := inserted
  have id : r.id = draft.batchId := by rw [shape]
  refine ⟨pid, pc, draft, r.status, here, writes, id, by rw [shape], ?_⟩
  rcases write_step stepped here writes with ⟨updated, db, ok, rfl⟩ | ⟨-, rfl⟩
  · rw [State.resume_db] at found ⊢
    rcases Db.createLocked_ok ok with ⟨-, rfl⟩ | ⟨-, -, books, recipients, folded, rfl⟩
    · rw [fresh] at found
      cases found
    · exact Db.insertRecipients_rows folded
  · rw [show (s.finish pid).db = s.db from rfl, fresh] at found
    cases found

/-- What a listed batch says of its recipients is what the rows say. -/
theorem Listed.recipients {db : Db} {statuses : List PayoutStatus} {batch : PayoutBatchRecord}
    (listed : Listed db statuses batch) :
    ∃ row, db.payoutBatches.find? batch.batchId = some row ∧
      batch.totalBaseUnits = row.totalBaseUnits ∧
      batch.recipients = (db.recipientsOf batch.batchId).map fun r =>
        ⟨r.miner, r.address, r.amountBaseUnits⟩ := by
  obtain ⟨row, found, -, shape⟩ := listed
  refine ⟨row, found, by rw [shape]; rfl, ?_⟩
  rw [shape]
  rfl

/-- `retry_failed_payout` inserts the batch it read, under another id. -/
theorem read_retryInsert_listed {env : Env} {db : Db} {pc : Pc} {draft : PayoutBatchDraft}
    (next : (pc.read cfg env db).next = some (.retryInsert draft)) :
    ∃ original, Listed db [.failed, .cancelled] original ∧
      draft.recipients = original.recipients ∧
      draft.totalBaseUnits = original.totalBaseUnits := by
  obtain ⟨worker, -, -⟩ := read_holds next
  cases pc with
  | retryRead batchId newBatchId =>
      rw [Pc.read] at next
      cases found : db.payoutBatchByIdAndStatuses batchId [.failed, .cancelled] with
      | none =>
          rw [found] at next
          cases next
      | some original =>
          rw [found] at next
          cases next
          exact ⟨original, Db.listed_of_byId found, rfl, rfl⟩
  | retryInsert _ => cases next
  | markFailed caller _ => cases next
  | unlock caller _ => cases next
  | _ => cases worker

/-- What the recipients of a batch record are like, in the hands of a run. -/
structure RecordSound (cfg : Config) (batch : PayoutBatchRecord) : Prop where
  payees : Payees cfg.minimumPayoutBaseUnits batch.totalBaseUnits
    (batch.recipients.map PayoutRecipient.amountBaseUnits)
  legal : ∀ r ∈ batch.recipients, matchesLowerHex 40 r.address = true

/-- Batches and recipients, in the database and in hand. -/
structure BatchesSound (cfg : Config) (s : State) : Prop where
  rows : ∀ id r, s.db.payoutBatches.find? id = some r →
    Payees cfg.minimumPayoutBaseUnits r.totalBaseUnits (rowAmounts s.db id)
  legal : ∀ row ∈ s.db.payoutRecipients.rows, matchesLowerHex 40 row.address = true
  drafts : ∀ pid pc draft status, s.At pid pc → pc.write = some (.createLocked draft status) →
    Payees cfg.minimumPayoutBaseUnits draft.totalBaseUnits (draftAmounts draft)
  held : ∀ pid pc, s.At pid pc → ∀ batch ∈ pc.holds, RecordSound cfg batch

theorem BatchesSound.listed {statuses : List PayoutStatus} {batch : PayoutBatchRecord}
    (sound : BatchesSound cfg s) (listed : Listed s.db statuses batch) :
    RecordSound cfg batch := by
  obtain ⟨row, found, total, recipients⟩ := listed.recipients
  have amounts : batch.recipients.map PayoutRecipient.amountBaseUnits =
      rowAmounts s.db batch.batchId := by
    rw [recipients, List.map_map]
    rfl
  constructor
  · rw [amounts, total]
    exact sound.rows _ row found
  · rw [recipients]
    intro r member
    obtain ⟨inRows, stored, rfl⟩ := List.mem_map.1 member
    exact sound.legal inRows (Db.mem_recipientsOf.1 stored).1

theorem BatchesSound.rows_step (sound : BatchesSound cfg s) (owned : RecipientsOwned s)
    (stepped : Stepped cfg s e s') {id : String} {r' : PayoutBatchRow}
    (found : s'.db.payoutBatches.find? id = some r') :
    Payees cfg.minimumPayoutBaseUnits r'.totalBaseUnits (rowAmounts s'.db id) := by
  rcases row_before stepped found with ⟨r, before, change⟩ | inserted
  · rw [change.totalBaseUnits, rowAmounts, recipients_step stepped before]
    exact sound.rows id r before
  · have same : r'.id = id := Table.key_of_find? found
    subst same
    obtain ⟨pid, pc, draft, status, here, writes, id, total, rows⟩ :=
      inserted_recipients stepped inserted found
    rw [total]
    refine (sound.drafts pid pc draft status here writes).perm ?_
    refine List.Perm.trans ?_ (rowAmounts_perm s'.db r'.id).symm
    -- nobody had the id before, so the rows of the batch are the new ones
    have old : s.db.payoutRecipients.rows.filter (fun r => r.batchId = r'.id) = [] := by
      rw [List.filter_eq_nil_iff]
      intro row member same
      exact owned row member (of_decide_eq_true same ▸ inserted.fresh)
    have new : (draft.recipients.map (Db.recipientRow draft.batchId)).filter
        (fun r => r.batchId = r'.id) = draft.recipients.map (Db.recipientRow draft.batchId) := by
      rw [List.filter_eq_self]
      intro row member
      obtain ⟨recipient, -, rfl⟩ := List.mem_map.1 member
      simp [Db.recipientRow, id]
    rw [rows, List.filter_append, old, new, List.nil_append, List.map_map]
    exact .refl _

theorem BatchesSound.drafts_step (sound : BatchesSound cfg s) (stepped : Stepped cfg s e s')
    {pid : Nat} {pc : Pc} {draft : PayoutBatchDraft} {status : PayoutStatus}
    (there : s'.At pid pc) (writes : pc.write = some (.createLocked draft status)) :
    Payees cfg.minimumPayoutBaseUnits draft.totalBaseUnits (draftAmounts draft) := by
  rcases at_step stepped there with ⟨before, -⟩ | arrives
  · exact sound.drafts pid pc draft status before writes
  · obtain ⟨env, pc', -, -, -, next⟩ := arrives_insert arrives writes
    cases pc with
    | createInsert draft' status' =>
        cases writes
        obtain ⟨used, balances, -, decided⟩ := read_createInsert next
        exact createDecision_payees decided
    | retryInsert draft' =>
        cases writes
        obtain ⟨original, listed, recipients, total⟩ := read_retryInsert_listed next
        rw [total, draftAmounts, recipients]
        exact (sound.listed listed).payees
    | _ => cases writes

theorem BatchesSound.step (sound : BatchesSound cfg s) (owned : RecipientsOwned s)
    (stepped : Stepped cfg s e s') : BatchesSound cfg s' := by
  refine ⟨fun id r' => sound.rows_step owned stepped, ?_, fun pid pc draft status there =>
    sound.drafts_step stepped there, ?_⟩
  · intro row member
    rcases recipients_added stepped with same |
      ⟨pid, env, pc, draft, status, books, -, here, writes, folded, there⟩
    · exact sound.legal row (same ▸ member)
    · rw [Db.insertRecipients_rows folded, List.mem_append] at member
      rcases member with old | new
      · exact sound.legal row old
      · obtain ⟨recipient, inDraft, rfl⟩ := List.mem_map.1 new
        exact insertRecipients_addresses folded recipient inDraft
  · intro pid pc' there batch holds
    rcases held_step stepped there holds with ⟨pc, here, -, before⟩ | ⟨-, listed⟩
    · exact sound.held pid pc here batch before
    · exact sound.listed listed

theorem batches_sound (reached : (payoutMachine cfg).Reachable s) : BatchesSound cfg s := by
  refine reached.invariant (I := BatchesSound cfg) ?_ ?_
  · rintro s rfl
    refine ⟨?_, ?_, ?_, ?_⟩
    · rintro id r ⟨⟩
    · rintro row ⟨⟩
    · rintro pid pc draft status ⟨⟩
    · rintro pid pc ⟨⟩
  · intro s e s' before sound _ step
    exact sound.step (recipients_owned before) (step_stepped step)

/-! ## The exchange with the signer -/

/-- What the signer checks of a request, of a batch in hand. -/
theorem RecordSound.valid {batch : PayoutBatchRecord} (sound : RecordSound cfg batch)
    (positive : 0 < cfg.minimumPayoutBaseUnits) (named : (trim batch.batchId).toList ≠ []) :
    SignerService.validateSignRequest (SignPayoutRequest.ofBatch batch) = .ok () ↔
      (batch.recipients.map PayoutRecipient.amountBaseUnits).sum < 2 ^ 128 := by
  have amounts : (SignPayoutRequest.ofBatch batch).outputs.map SignPayoutOutput.amountBaseUnits =
      batch.recipients.map PayoutRecipient.amountBaseUnits := by
    rw [SignPayoutRequest.ofBatch, List.map_map]
    rfl
  have some_ : (SignPayoutRequest.ofBatch batch).outputs ≠ [] := by
    intro none_
    rw [none_] at amounts
    exact sound.payees.some amounts.symm
  have legal : ∀ output ∈ (SignPayoutRequest.ofBatch batch).outputs,
      SignerService.isAddr20 output.address = true ∧ output.amountBaseUnits ≠ 0 := by
    intro output member
    obtain ⟨recipient, inBatch, rfl⟩ := List.mem_map.1 member
    have address := sound.legal recipient inBatch
    have atLeast := sound.payees.atLeast _ (List.mem_map_of_mem inBatch)
    rw [matchesLowerHex, Bool.and_eq_true_iff, List.all_eq_true] at address
    refine ⟨?_, Nat.ne_of_gt (Nat.lt_of_lt_of_le positive atLeast)⟩
    rw [SignerService.isAddr20, Bool.and_eq_true_iff, List.all_eq_true]
    exact ⟨address.1, fun c inAddress => isAsciiHexdigit_of_lower (address.2 c inAddress)⟩
  have total := sound.payees.total
  rw [SignerService.validateSignRequest_ok, amounts]
  constructor
  · rintro ⟨-, -, -, same, fits⟩
    exact same ▸ fits
  · intro fits
    have same : batch.totalBaseUnits =
        (batch.recipients.map PayoutRecipient.amountBaseUnits).sum :=
      total.trans (Nat.mod_eq_of_lt fits)
    refine ⟨named, some_, legal, same, ?_⟩
    rw [← same] at fits
    exact fits

/-- What arrives of a request: its `authorization` header, as `get` and `to_str` read it, if it is
sent at all. -/
inductive Delivery
  | unsent
  | received (authorization : Option (Option String))

/-- The header of `sign_request`.  `carries` is what `bearer_auth`, the connection and the signer's
`HeaderMap` make of a token. -/
def signRequest (carries : String → Delivery) : Option String → Delivery
  | none => .received none
  | some token => carries token

/-- The request arrives, and with the header that the signer asks for. -/
def Authorized (carries : String → Delivery) (workerToken signerToken : Option String) : Prop :=
  ∃ authorization, signRequest carries workerToken = .received authorization ∧
    ∀ expected, signerToken = some expected →
      authorization = some (some ("Bearer " ++ expected))

/-- The worker hears what the signer answers; of an error, or of a request that was not sent, that
there was one. -/
def Hears (env : Env) (delivery : Delivery)
    (answer : Option (Option String) → Except SignerService.SignerError SignedPayoutResponse) :
    Prop :=
  match delivery with
  | .unsent => ∃ reason, env.signer = .error reason
  | .received authorization =>
      match answer authorization with
      | .ok response => env.signer = .ok response
      | .error _ => ∃ reason, env.signer = .error reason

section Hears

variable {env : Env} {delivery : Delivery}
  {answer : Option (Option String) → Except SignerService.SignerError SignedPayoutResponse}

theorem hears_ok (hears : Hears env delivery answer) {authorization : Option (Option String)}
    {response : SignedPayoutResponse} (arrives : delivery = .received authorization)
    (answered : answer authorization = .ok response) : env.signer = .ok response := by
  subst arrives
  rw [Hears] at hears
  rwa [answered] at hears

theorem hears_error (hears : Hears env delivery answer)
    (refused : ∀ authorization, delivery = .received authorization →
      ∀ response, answer authorization ≠ .ok response) : ∃ reason, env.signer = .error reason := by
  cases delivery with
  | unsent => exact hears
  | received authorization =>
      rw [Hears] at hears
      cases answered : answer authorization with
      | ok response => exact absurd answered (refused authorization rfl response)
      | error error =>
          rw [answered] at hears
          exact hears

end Hears

/-! ## Tokens -/

/-- Visible ASCII, the blank apart. -/
def visible (c : Char) : Bool := decide (0x21 ≤ c.toNat) && decide (c.toNat ≤ 0x7e)

/-- `bearer_auth` writes the token after its scheme, and `to_str` reads visible ASCII only.  Blanks
and control characters are left open. -/
structure BearerAuth (carries : String → Delivery) : Prop where
  shows : ∀ token, token.toList.all visible = true →
    carries token = .received (some (some ("Bearer " ++ token)))
  hides : ∀ token, (token.toList.any fun c => decide (0x7f ≤ c.toNat)) = true →
    carries token = .unsent ∨ carries token = .received (some none)

/-- **A visible token is heard as it is.** -/
theorem authorized_visible {carries : String → Delivery} (documented : BearerAuth carries)
    {token : String} (shown : token.toList.all visible = true) (expected : String) :
    Authorized carries (some token) (some expected) ↔ token = expected := by
  constructor
  · rintro ⟨authorization, arrives, asked⟩
    have read := documented.shows token shown
    rw [signRequest, read] at arrives
    cases arrives
    have same := Option.some.inj (Option.some.inj (asked expected rfl))
    rw [← String.toList_inj, String.toList_append, String.toList_append,
      List.append_cancel_left_eq, String.toList_inj] at same
    exact same
  · rintro rfl
    refine ⟨_, documented.shows token shown, fun expected is => ?_⟩
    cases is
    rfl

/-- **A token with a character outside ASCII is refused**, by a signer that has the same one too. -/
theorem authorized_hidden {carries : String → Delivery} (documented : BearerAuth carries)
    {token : String} (hidden : (token.toList.any fun c => decide (0x7f ≤ c.toNat)) = true)
    (expected : String) : ¬ Authorized carries (some token) (some expected) := by
  rintro ⟨authorization, arrives, asked⟩
  rw [asked expected rfl, signRequest] at arrives
  rcases documented.hides token hidden with unsent | unread
  · rw [unsent] at arrives
    cases arrives
  · rw [unread] at arrives
    cases arrives

/-! ## The answer in the run -/

/-- A run in front of the signer's answer takes it in its next step. -/
theorem signCall_step {pid : Nat} {env : Env} {batch : PayoutBatchRecord}
    (here : s.At pid (.signCall batch)) :
    (payoutMachine cfg).step s (.run pid env) =
      some (s.goto pid (signAnswered cfg.serde env.signer batch)) := by
  show State.step cfg s (.run pid env) = _
  rw [State.step, show s.procs.find? pid = some ⟨pid, .signCall batch⟩ from here]
  rfl

theorem signAnswered_ok {serde : SerdeJson} {response : SignedPayoutResponse}
    {batch : PayoutBatchRecord} {raw : String}
    (accepted : acceptedStorageValue serde response (SignPayoutRequest.ofBatch batch) = .ok raw) :
    signAnswered serde (.ok response) batch = .signMark batch response.txid raw := by
  unfold signAnswered
  dsimp only
  rw [accepted]

/-- **The signer signs what the workers ask for**: a batch of a reachable state fails at the
signer for a header that is not its token's, or for a sum past `u128::MAX`, and for nothing
else; and what it is signed with is read back as it was answered. -/
theorem signer_signs {pid : Nat} {env : Env} {batch : PayoutBatchRecord} {digest : Digest}
    {carries : String → Delivery} {workerToken signerToken : Option String} {canonical : String}
    (reached : (payoutMachine cfg).Reachable s) (here : s.At pid (.signCall batch))
    (positive : 0 < cfg.minimumPayoutBaseUnits) (named : (trim batch.batchId).toList ≠ [])
    (written : cfg.serde.toText
      (SignerService.requestJson (SignPayoutRequest.ofBatch batch)) = .ok canonical)
    (hears : Hears env (signRequest carries workerToken) fun authorization =>
      SignerService.signPayout digest cfg.serde signerToken authorization
        (SignPayoutRequest.ofBatch batch)) :
    let accepted := Authorized carries workerToken signerToken ∧
      (batch.recipients.map PayoutRecipient.amountBaseUnits).sum < 2 ^ 128
    (accepted → ∃ txid raw, (payoutMachine cfg).step s (.run pid env) =
        some (s.goto pid (.signMark batch txid raw)) ∧
          env.signer = .ok ⟨some raw, none, txid⟩ ∧ readStoredTx cfg.serde raw = .rawTx raw) ∧
      (¬ accepted → (payoutMachine cfg).step s (.run pid env) =
        some (s.goto pid (.markFailed .sign batch))) := by
  have sound := (batches_sound reached).held pid _ here batch (List.mem_singleton_self _)
  have answers := fun authorization : Option (Option String) =>
    SignerService.signPayout_ok digest signerToken authorization written
  simp only [SignerService.authorize_iff, sound.valid positive named] at answers
  dsimp only
  rw [signCall_step here]
  constructor
  · rintro ⟨⟨authorization, arrives, asked⟩, fits⟩
    obtain ⟨response, signed⟩ := (answers authorization).2 ⟨asked, fits⟩
    obtain ⟨raw, hex, accepted, stored⟩ :=
      SignerService.mock_accepted (SignPayoutRequest.ofBatch batch) signed
    obtain ⟨-, -, -, noNode, -⟩ := SignerService.signPayout_shape signed
    have heard := hears_ok hears arrives signed
    refine ⟨response.txid, raw, ?_, ?_, stored⟩
    · rw [heard]
      exact congrArg (fun pc => some (s.goto pid pc)) (signAnswered_ok accepted)
    · rw [heard]
      cases response
      cases hex
      cases noNode
      rfl
  · intro refused
    obtain ⟨reason, heard⟩ := hears_error hears fun authorization arrives response signed =>
      have ⟨asked, fits⟩ := (answers authorization).1 ⟨response, signed⟩
      refused ⟨⟨authorization, arrives, asked⟩, fits⟩
    rw [heard]
    rfl

namespace Sample

/-- The text of a request with one output, where nothing in it is escaped. -/
def requestSerde : SerdeJson where
  toText
    | .object [("batch_id", .string id), ("total_base_units", .number (.unsigned total)),
        ("outputs", .array [.object [("address", .string address),
          ("amount_base_units", .number (.unsigned amount))]])] =>
      .ok ("\x7b\"batch_id\":\"" ++ id ++ "\",\"total_base_units\":" ++ toString total ++
        ",\"outputs\":[\x7b\"address\":\"" ++ address ++ "\",\"amount_base_units\":" ++
          toString amount ++ "\x7d]\x7d")
    | _ => .error "not a request with one output"
  fromText _ := .error "not asked for"

def signingConfig : Config := { config with serde := requestSerde }

def createdBatch : PayoutBatchRecord where
  batchId := "p"
  status := .created
  totalBaseUnits := 100
  txid := none
  rawTxHash := none
  recipients := [⟨miner, miner, 100⟩]

/-- A batch of 100, and a run of `sign_payouts` that asks for its signature. -/
def asking : List Event :=
  funded 100 ++ create 0 "p" ++ [.spawn 1 .signPayouts] ++ steps 1 4

/-- A token arrives where `to_str` can read it. -/
def carried (token : String) : Delivery :=
  .received (some (if token.toList.all visible then some ("Bearer " ++ token) else none))

theorem carried_bearerAuth : BearerAuth carried := by
  refine ⟨fun token shown => ?_, fun token hidden => .inr ?_⟩
  · rw [carried, if_pos shown]
  · obtain ⟨c, member, past⟩ := List.any_eq_true.1 hidden
    have unseen : ¬ token.toList.all visible = true := by
      intro shown
      have within := List.all_eq_true.1 shown c member
      simp only [visible, Bool.and_eq_true, decide_eq_true_eq] at within past
      omega
    rw [carried, if_neg unseen]

def heard (answer : Except SignerService.SignerError SignedPayoutResponse) : Env where
  signer := answer.mapError fun _ => ""

theorem hears_heard (authorization : Option (Option String))
    (answer : Option (Option String) → Except SignerService.SignerError SignedPayoutResponse) :
    Hears (heard (answer authorization)) (.received authorization) answer := by
  rw [Hears]
  cases answer authorization with
  | ok response => exact rfl
  | error error => exact ⟨"", rfl⟩

end Sample

/-- Worker and signer share a visible token. -/
theorem signer_signs_sample :
    ∃ s env txid raw, s.At 1 (.signCall Sample.createdBatch) ∧
      (payoutMachine Sample.signingConfig).step s (.run 1 env) =
        some (s.goto 1 (.signMark Sample.createdBatch txid raw)) := by
  obtain ⟨s, reached, shown⟩ := Machine.exists_of_run (payoutMachine Sample.signingConfig)
    (s := .initial) rfl Sample.asking
    (fun s => decide (s.procs.find? 1 = some ⟨1, .signCall Sample.createdBatch⟩))
    (by decide +kernel)
  have found : s.procs.find? 1 = some ⟨1, .signCall Sample.createdBatch⟩ := of_decide_eq_true shown
  have here : s.At 1 (.signCall Sample.createdBatch) := found
  have same : Authorized Sample.carried (some "token") (some "token") :=
    (authorized_visible Sample.carried_bearerAuth (by decide) "token").2 rfl
  have signs := (signer_signs reached here (by decide) (by decide) rfl
    (Sample.hears_heard (some (some "Bearer token")) fun authorization =>
      SignerService.signPayout Theory.Sha256.digest Sample.signingConfig.serde (some "token")
        authorization (SignPayoutRequest.ofBatch Sample.createdBatch))).1 ⟨same, by decide⟩
  obtain ⟨txid, raw, stepped, -, -⟩ := signs
  exact ⟨s, _, txid, raw, here, stepped⟩

end Database

end CsdPool.Payout
