/-
# Payout.SignedOutputs — the signed transaction pays what was asked

`node_tx_outputs_match_request` walks the requested outputs and takes away, for each, the first
transaction output with its address and amount; the removal moves the last output into the gap.
What an output is taken for is one label, address text and amount, so no choice can spoil a later
one: the walk succeeds if and only if the requested outputs have distinct transaction outputs of
their own (`nodeTxOutputsMatchRequest_iff`), in whatever order both lists stand.

The matcher compares addresses of any length; that they are twenty bytes is the check of
`validate_official_node_tx`, and a transaction without a list of outputs matches nothing, not even
the empty request.
-/
import CsdPool.Payout.Signer
import CsdPool.Theory.Assignment

namespace CsdPool.Payout

open Theory (Assignable assignable_iff subperm_cons_iff subperm_filterMap_iff)

set_option autoImplicit false

/-- The bytes of `script_pubkey`, where all of it are bytes. -/
def scriptOf (output : Json) : Option (List UInt8) :=
  ((output.get? "script_pubkey").bind Json.asArray).bind scriptPubkeyBytes

def valueOf (output : Json) : Option Nat := (output.get? "value").bind Json.asU64

/-- The bytes a requested address stands for: hex after any number of `0x`. -/
def addressBytes (address : Address) : Option (List UInt8) :=
  hexDecode (trimStartMatches "0x" address)

/-- The output pays this amount to this address. -/
def Pays (expected : SignPayoutOutput) (output : Json) : Prop :=
  ∃ address, scriptOf output = some address ∧ addressBytes expected.address = some address ∧
    valueOf output = some expected.amountBaseUnits

/-- It does so to an address of twenty bytes. -/
def PaysAddr20 (expected : SignPayoutOutput) (output : Json) : Prop :=
  Pays expected output ∧ ∀ address, scriptOf output = some address → address.length = 20

def outputsOf (nodeTx : Json) : Option (List Json) := (nodeTx.get? "outputs").bind Json.asArray

/-! ## Taking outputs away -/

/-- What an output is taken for. -/
def askedLabel (expected : SignPayoutOutput) : List Char × Nat :=
  ((trimStartMatches "0x" expected.address).toList.map Char.toLower, expected.amountBaseUnits)

def label (actual : String × Nat) : List Char × Nat :=
  (actual.1.toList.map Char.toLower, actual.2)

theorem outputMatches_iff {expected : SignPayoutOutput} {actual : String × Nat} :
    outputMatches expected actual = true ↔ label actual = askedLabel expected := by
  unfold outputMatches eqIgnoreAsciiCase label askedLabel
  rw [Bool.and_eq_true_iff, beq_iff_eq, beq_iff_eq, Prod.mk.injEq]

/-- `swap_remove` keeps the others, in some order. -/
theorem perm_swapRemove {α : Type} {xs : List α} {index : Nat} (inside : index < xs.length) :
    xs.Perm (xs[index] :: swapRemove xs index) := by
  obtain ⟨init, last, rfl⟩ : ∃ init last, xs = init ++ [last] :=
    ⟨_, _, (List.dropLast_append_getLast (List.ne_nil_of_length_pos (by omega))).symm⟩
  unfold swapRemove
  rw [List.getLast?_append, List.getLast?_singleton, Option.some_or]
  dsimp only
  rw [List.dropLast_concat]
  split
  · rename_i final
    have here : index = init.length := by simpa using final
    subst here
    rw [List.getElem_append_right (le_refl _)]
    simp
  · rename_i earlier
    have within : index < init.length := by
      rw [List.length_append, List.length_singleton] at inside earlier
      omega
    rw [List.getElem_append_left within]
    have swapped := List.getD_set_perm_cons init index last
    rw [List.getElem?_eq_getElem within, Option.getD_some] at swapped
    exact (List.perm_append_singleton last init).trans swapped.symm

theorem takeOutputs_iff (requests : List SignPayoutOutput) (available : List (String × Nat)) :
    takeOutputs requests available = true ↔
      List.Subperm (requests.map askedLabel) (available.map label) := by
  induction requests generalizing available with
  | nil => simp [takeOutputs]
  | cons expected rest ih =>
      unfold takeOutputs
      cases found : available.findIdx? (outputMatches expected) with
      | none =>
          have missing : askedLabel expected ∉ available.map label := by
            intro member
            obtain ⟨actual, inside, same⟩ := List.mem_map.1 member
            have unmatched := List.findIdx?_eq_none_iff.1 found actual inside
            rw [outputMatches_iff.2 same] at unmatched
            cases unmatched
          simp only [Bool.false_eq_true, List.map_cons, false_iff]
          intro among
          exact missing (among.subset List.mem_cons_self)
      | some index =>
          obtain ⟨inside, matched, -⟩ := List.findIdx?_eq_some_iff_getElem.1 found
          have taken : (available.map label).Perm
              (askedLabel expected :: (swapRemove available index).map label) := by
            rw [← outputMatches_iff.1 matched, ← List.map_cons]
            exact (perm_swapRemove inside).map label
          rw [List.map_cons, subperm_cons_iff taken]
          exact ih _

/-! ## What an output is taken for is what it pays -/

theorem availableOutput_eq (output : Json) :
    availableOutput output =
      (scriptOf output).bind fun address =>
        (valueOf output).map fun amount => (hexEncode address, amount) := by
  unfold availableOutput scriptOf valueOf
  cases output.get? "script_pubkey" with
  | none => rfl
  | some script =>
      cases here : script.asArray with
      | none => simp [here]
      | some items =>
          cases bytes : scriptPubkeyBytes items with
          | none => simp [here, bytes]
          | some address =>
              cases output.get? "value" with
              | none => simp [here, bytes]
              | some value => cases amount : value.asU64 <;> simp [here, bytes, amount]

/-- Two hex texts that differ in case only, one of them written by `hex::encode`. -/
theorem addressBytes_iff {text : String} {bytes : List UInt8} :
    (hexEncode bytes).toList.map Char.toLower = text.toList.map Char.toLower ↔
      hexDecode text = some bytes := by
  have written : (hexEncode bytes).toList.map Char.toLower = (hexEncode bytes).toList := by
    have lower := toAsciiLowercase_of_lowerHex (matchesLowerHex_hexEncode bytes)
    exact (String.toList_ofList).symm.trans (congrArg String.toList lower)
  constructor
  · intro same
    rw [hexDecode, ← hexDecodeChars_toLower, ← same, hexDecodeChars_toLower]
    exact hexDecode_hexEncode bytes
  · intro decoded
    have lower := toLower_of_hexDecodeChars decoded
    rw [written, lower, hexEncode, String.toList_ofList]

theorem pays_iff {expected : SignPayoutOutput} {output : Json} :
    Pays expected output ↔ (availableOutput output).map label = some (askedLabel expected) := by
  rw [availableOutput_eq]
  unfold Pays addressBytes
  cases scriptOf output with
  | none => simp
  | some address =>
      cases valueOf output with
      | none => simp
      | some amount =>
          simp only [Option.some.injEq, Option.bind_some, Option.map_some, label, askedLabel,
            Prod.mk.injEq, addressBytes_iff]
          constructor
          · rintro ⟨_, rfl, decoded, same⟩
            exact ⟨decoded, same⟩
          · rintro ⟨decoded, same⟩
            exact ⟨address, rfl, decoded, same⟩

/-- **The matcher.**  It finds an assignment if and only if there is one. -/
theorem nodeTxOutputsMatchRequest_iff (nodeTx : Json) (request : SignPayoutRequest) :
    nodeTxOutputsMatchRequest nodeTx request = true ↔
      ∃ outputs, outputsOf nodeTx = some outputs ∧ Assignable Pays request.outputs outputs := by
  have listed : (nodeTx.get? "outputs").bind Json.asArray = outputsOf nodeTx := rfl
  unfold nodeTxOutputsMatchRequest
  rw [listed]
  cases outputsOf nodeTx with
  | none => simp
  | some outputs =>
      have labelled : (outputs.filterMap availableOutput).map label =
          outputs.filterMap fun output => (availableOutput output).map label := by
        rw [List.map_filterMap]
      have paid : Assignable Pays request.outputs outputs ↔
          Assignable (fun expected output =>
            some (askedLabel expected) = (availableOutput output).map label)
              request.outputs outputs := by
        constructor
        · exact Assignable.mono fun _ _ _ _ pays => (pays_iff.1 pays).symm
        · exact Assignable.mono fun _ _ _ _ same => pays_iff.2 same.symm
      dsimp only
      rw [takeOutputs_iff, labelled, subperm_filterMap_iff, List.map_map]
      simp only [Option.some.injEq, exists_eq_left', paid]
      exact assignable_iff.symm

/-! ## Accepted responses -/

theorem scriptPubkeyBytes_length {items : List Json} {bytes : List UInt8}
    (read : scriptPubkeyBytes items = some bytes) : bytes.length = items.length := by
  unfold scriptPubkeyBytes at read
  induction items generalizing bytes with
  | nil =>
      cases read
      rfl
  | cons item rest ih =>
      rw [List.mapM_cons] at read
      obtain ⟨byte, -, read⟩ := Option.bind_eq_some_iff.1 read
      obtain ⟨tail, readTail, last⟩ := Option.bind_eq_some_iff.1 read
      cases last
      rw [List.length_cons, List.length_cons, ih readTail]

theorem validateOutput_script {output : Json} {address : List UInt8}
    (valid : validateOutput output = .ok ()) (script : scriptOf output = some address) :
    address.length = 20 := by
  obtain ⟨items, listed, read⟩ := Option.bind_eq_some_iff.1 script
  unfold validateOutput at valid
  split at valid
  · cases valid
  · rename_i passed
    have bytes : byteArray (output.get? "script_pubkey") 20 = true := by
      simp only [Bool.or_eq_true, not_or, Bool.not_eq_true, Bool.not_eq_false'] at passed
      exact passed.2
    unfold byteArray at bytes
    rw [listed] at bytes
    rw [scriptPubkeyBytes_length read]
    exact beq_iff_eq.1 (Bool.and_eq_true_iff.1 bytes).1

theorem forM_ok {check : Json → Except String Unit} {items : List Json}
    (checked : items.forM check = .ok ()) : ∀ item ∈ items, check item = .ok () := by
  induction items with
  | nil =>
      intro item member
      cases member
  | cons head rest ih =>
      obtain ⟨_, first, others⟩ := Theory.bind_ok.1 checked
      intro item member
      rcases List.mem_cons.1 member with rfl | member
      · exact first
      · exact ih others item member

theorem validateOfficialNodeTx_outputs {nodeTx : Json}
    (valid : validateOfficialNodeTx nodeTx = .ok ()) :
    ∃ outputs, outputsOf nodeTx = some outputs ∧
      ∀ output ∈ outputs, validateOutput output = .ok () := by
  unfold validateOfficialNodeTx at valid
  split at valid
  · dsimp only at valid
    split at valid
    · cases valid
    · split at valid
      · obtain ⟨_, -, valid⟩ := Theory.bind_ok.1 valid
        split at valid
        · rename_i outputs bounded
          obtain ⟨_, checked, -⟩ := Theory.bind_ok.1 valid
          obtain ⟨listed, -⟩ := Option.filter_eq_some_iff.1 bounded
          exact ⟨outputs, listed, forM_ok checked⟩
        · cases valid
      · cases valid
  · cases valid

theorem validateSignedPayoutResponse_nodeTx {response : SignedPayoutResponse}
    {request : SignPayoutRequest} {nodeTx : Json} {validation : SignedPayoutValidation}
    (present : response.nodeTx = some nodeTx)
    (accepted : validateSignedPayoutResponse response request = .ok validation) :
    validateOfficialNodeTx nodeTx = .ok () ∧ nodeTxOutputsMatchRequest nodeTx request = true := by
  unfold validateSignedPayoutResponse at accepted
  rw [present] at accepted
  dsimp only at accepted
  split at accepted
  · cases accepted
  · cases valid : validateOfficialNodeTx nodeTx with
    | error reason =>
        rw [valid] at accepted
        cases accepted
    | ok _ =>
        rw [valid] at accepted
        dsimp only at accepted
        split at accepted
        · cases accepted
        · rename_i matched
          exact ⟨rfl, by simpa using matched⟩

/-- **The signed transaction.**  The matcher succeeds if and only if the transaction lists outputs
and every requested one has an output of its own with its address and amount; and what an accepted
response carries pays every recipient of the batch in full, to twenty bytes. -/
theorem signed_outputs_match :
    (∀ nodeTx request, nodeTxOutputsMatchRequest nodeTx request = true ↔
      ∃ outputs, outputsOf nodeTx = some outputs ∧ Assignable Pays request.outputs outputs) ∧
    ∀ response batch nodeTx validation, response.nodeTx = some nodeTx →
      validateSignedPayoutResponse response (.ofBatch batch) = .ok validation →
        ∃ outputs, outputsOf nodeTx = some outputs ∧
          Assignable (fun recipient output =>
            PaysAddr20 ⟨recipient.address, recipient.amountBaseUnits⟩ output)
              batch.recipients outputs := by
  refine ⟨nodeTxOutputsMatchRequest_iff, ?_⟩
  intro response batch nodeTx validation present accepted
  obtain ⟨valid, matched⟩ := validateSignedPayoutResponse_nodeTx present accepted
  obtain ⟨outputs, listed, checked⟩ := validateOfficialNodeTx_outputs valid
  obtain ⟨outputs', listed', assigned⟩ := (nodeTxOutputsMatchRequest_iff _ _).1 matched
  cases listed.symm.trans listed'
  refine ⟨outputs, listed, Assignable.of_map (assigned.mono ?_)⟩
  intro expected _ output inside pays
  exact ⟨pays, fun address script => validateOutput_script (checked output inside) script⟩

section Sample

def zeros (n : Nat) : Json := .array (.replicate n (.number (.unsigned 0)))

def paidTx : Json := .object [
  ("version", .number (.unsigned 1)),
  ("inputs", .array [.object [
    ("prevout", .object [("txid", zeros 32), ("vout", .number (.unsigned 0))]),
    ("script_sig", zeros 99)]]),
  ("outputs", .array [
    .object [("value", .number (.unsigned 9)), ("script_pubkey", zeros 20)],
    .object [("value", .number (.unsigned 7)), ("script_pubkey", zeros 20)]]),
  ("locktime", .number (.unsigned 0)),
  ("app", .string "None")]

def paidAddress : Address := "0000000000000000000000000000000000000000"

def paidBatch : PayoutBatchRecord where
  batchId := "batch"
  status := .created
  totalBaseUnits := 7
  txid := none
  rawTxHash := none
  recipients := [⟨paidAddress, paidAddress, 7⟩]

def paidResponse : SignedPayoutResponse where
  rawTxHex := none
  nodeTx := some paidTx
  txid := "0000000000000000000000000000000000000000000000000000000000000000"

/-- A transaction with change in front of what was asked. -/
theorem signed_outputs_match_sample :
    ∃ outputs, outputsOf paidTx = some outputs ∧
      Assignable (fun recipient output =>
        PaysAddr20 ⟨recipient.address, recipient.amountBaseUnits⟩ output)
          paidBatch.recipients outputs :=
  signed_outputs_match.2 paidResponse paidBatch paidTx ⟨true, true, true⟩ rfl (by decide +kernel)

end Sample

def shortOutput : Json :=
  .object [("script_pubkey", .array []), ("value", .number (.unsigned 5))]

def shortTx : Json := .object [("outputs", .array [shortOutput])]

/-- By itself the matcher admits an empty script for an empty address, and refuses the empty
request where there is no list of outputs. -/
theorem short_script_matches :
    (outputsOf shortTx = some [shortOutput] ∧
      nodeTxOutputsMatchRequest shortTx ⟨"batch", 5, [⟨"0x", 5⟩]⟩ = true ∧
      ¬ Assignable PaysAddr20 [⟨"0x", 5⟩] [shortOutput]) ∧
    nodeTxOutputsMatchRequest (.object []) ⟨"batch", 0, []⟩ = false ∧
      Assignable PaysAddr20 [] [] := by
  refine ⟨⟨rfl, by decide +kernel, ?_⟩, rfl, ?_⟩
  · rintro ⟨assignment, -, each⟩
    have only : [shortOutput][assignment 0] = shortOutput :=
      List.mem_singleton.1 (List.getElem_mem _)
    have short := (each 0).2
    rw [only] at short
    exact absurd (short [] rfl) (by decide)
  · exact ⟨id, Function.injective_id, fun i => i.elim0⟩

end CsdPool.Payout
