/-
# Payout.Signer — what the payout workers check of a signed transaction

The pure tests around the signer and the node's submit answer:
`validate_signed_payout_response` with its two parts, the value stored in
`payout_batches.raw_tx_hash`, how that value is read back before submission, and
`possible_prior_submit`.
-/
import CsdPool.Node
import CsdPool.Db.Payouts

namespace CsdPool

set_option autoImplicit false

structure SignPayoutOutput where
  address : Address
  amountBaseUnits : Nat
  deriving DecidableEq, Repr

/-- What the signer is asked for: the batch, its total, and an output for each recipient. -/
structure SignPayoutRequest where
  batchId : String
  totalBaseUnits : Nat
  outputs : List SignPayoutOutput
  deriving DecidableEq, Repr

/-- The request is made of the stored recipients, and not of what the balances say now. -/
def SignPayoutRequest.ofBatch (batch : PayoutBatchRecord) : SignPayoutRequest where
  batchId := batch.batchId
  totalBaseUnits := batch.totalBaseUnits
  outputs := batch.recipients.map fun r => ⟨r.address, r.amountBaseUnits⟩

/-- What the signer answers: a transaction as a node has it or as hex, and its id. -/
structure SignedPayoutResponse where
  rawTxHex : Option String
  nodeTx : Option Json
  txid : String

/-- What the validation found out, which is written to the audit log. -/
structure SignedPayoutValidation where
  nodeTxPresent : Bool := false
  nodeTxValid : Bool := false
  nodeTxOutputsMatchRequest : Bool := false
  deriving DecidableEq, Repr

/-! ## The official transaction shape -/

/-- A field of so many numbers, each of which is a byte. -/
def byteArray (value : Option Json) (expectedLen : Nat) : Bool :=
  match value.bind Json.asArray with
  | some items =>
      items.length == expectedLen &&
        items.all fun item => (item.asU64).any fun byte => decide (byte ≤ 255)
  | none => false

/-- A `u32` field: present, unsigned, and at most `u32::MAX`. -/
def isU32 (value : Option Json) : Bool :=
  (value.bind Json.asU64).any fun n => decide (n ≤ 2 ^ 32 - 1)

/-- A list field with 1..512 entries. -/
def boundedArray (value : Option Json) : Option (List Json) :=
  (value.bind Json.asArray).filter fun items => !items.isEmpty && decide (items.length ≤ 512)

/-- An input spends one output, under a script of fixed length. -/
def validateInput (input : Json) : Except String Unit :=
  match input.get? "prevout" with
  | none => .error "node_tx input prevout is required"
  | some prevout =>
      if !byteArray (prevout.get? "txid") 32 || !isU32 (prevout.get? "vout") ||
          !byteArray (input.get? "script_sig") 99 then
        .error "node_tx input must have a 32-byte txid, u32 vout, and 99-byte script_sig"
      else .ok ()

/-- An output has a value above zero and a script of twenty bytes. -/
def validateOutput (output : Json) : Except String Unit :=
  if ((output.get? "value").bind Json.asU64).getD 0 == 0 ||
      !byteArray (output.get? "script_pubkey") 20 then
    .error "node_tx output must have positive u64 value and 20-byte script_pubkey"
  else .ok ()

/-- The shape of a transaction without an application. The checks are made in this order, and the
first that fails gives its text. -/
def validateOfficialNodeTx (nodeTx : Json) : Except String Unit := do
  let some _ := nodeTx.asObject | .error "node_tx must be an object"
  if (nodeTx.get? "version").bind Json.asU64 ≠ some 1 then
    .error "node_tx version must be 1"
  let some inputs := boundedArray (nodeTx.get? "inputs")
    | .error "node_tx inputs must contain 1..512 entries"
  inputs.forM validateInput
  let some outputs := boundedArray (nodeTx.get? "outputs")
    | .error "node_tx outputs must contain 1..512 entries"
  outputs.forM validateOutput
  if !isU32 (nodeTx.get? "locktime") || (nodeTx.get? "app").bind Json.asStr ≠ some "None" then
    .error "node_tx must have u32 locktime and app=None"

/-! ## The outputs -/

/-- `Vec::swap_remove`, without the removed value. -/
def swapRemove {α : Type} (xs : List α) (index : Nat) : List α :=
  match xs.getLast? with
  | none => []
  | some last =>
      if index + 1 = xs.length then xs.dropLast else (xs.dropLast).set index last

/-- The bytes of a script, if all of its numbers are bytes; any length will do. -/
def scriptPubkeyBytes (items : List Json) : Option (List UInt8) :=
  items.mapM fun byte =>
    byte.asU64.bind fun value => if value ≤ 255 then some (UInt8.ofNat value) else none

/-- Address text and value of an output that has both. -/
def availableOutput (output : Json) : Option (String × Nat) := do
  let script ← output.get? "script_pubkey"
  let items ← script.asArray
  let address ← scriptPubkeyBytes items
  let value ← output.get? "value"
  let amount ← value.asU64
  return (hexEncode address, amount)

/-- An output pays what was requested: the same amount, to an address that is the same up to case
and a mark before it. -/
def outputMatches (expected : SignPayoutOutput) (actual : String × Nat) : Bool :=
  eqIgnoreAsciiCase actual.1 (trimStartMatches "0x" expected.address) &&
    actual.2 == expected.amountBaseUnits

/-- `all` over the requested outputs, each taking an available one away. -/
def takeOutputs : List SignPayoutOutput → List (String × Nat) → Bool
  | [], _ => true
  | expected :: rest, available =>
      match available.findIdx? (outputMatches expected) with
      | some index => takeOutputs rest (swapRemove available index)
      | none => false

/-- Every requested output is there, each at a place of its own; what the transaction has beyond
them is not looked at. -/
def nodeTxOutputsMatchRequest (nodeTx : Json) (request : SignPayoutRequest) : Bool :=
  match (nodeTx.get? "outputs").bind Json.asArray with
  | none => false
  | some outputs => takeOutputs request.outputs (outputs.filterMap availableOutput)

/-! ## The response -/

/-- The id must be one in either case. A node's transaction is checked against the request; a
transaction in hex can only be checked for being hex. -/
def validateSignedPayoutResponse (response : SignedPayoutResponse) (request : SignPayoutRequest) :
    Except String SignedPayoutValidation :=
  let txid := (stripPrefix "0x" response.txid).getD response.txid
  if txid.toList.length ≠ 64 || !txid.toList.all isAsciiHexdigit then
    .error "txid must be 64 hex chars"
  else
    match response.nodeTx with
    | some nodeTx =>
        match validateOfficialNodeTx nodeTx with
        | .error reason => .error reason
        | .ok () =>
            if !nodeTxOutputsMatchRequest nodeTx request then
              .error "node_tx outputs do not match payout request"
            else .ok ⟨true, true, true⟩
    | none =>
        let rawTxHex := response.rawTxHex.getD ""
        if rawTxHex.toList.isEmpty then
          .error "signed response must include node_tx or raw_tx_hex"
        else if rawTxHex.toList.length % 2 ≠ 0 || !rawTxHex.toList.all isAsciiHexdigit then
          .error "raw_tx_hex must be even-length hex"
        else .ok {}

/-- What tells a stored node transaction from stored hex. -/
def nodeTxStoragePrefix : String := "csd-node-json-v1:"

/-- What goes into the row, a node's transaction before hex. -/
def signedPayoutStorageValue (serde : SerdeJson) (response : SignedPayoutResponse) :
    Except String String :=
  match response.nodeTx with
  | some nodeTx =>
      match serde.toText nodeTx with
      | .ok json => .ok (nodeTxStoragePrefix ++ json)
      | .error err => .error ("failed to serialize node_tx: " ++ err)
  | none =>
      match response.rawTxHex.filter fun value => !value.toList.isEmpty with
      | some value => .ok value
      | none => .error "signed response has no transaction payload"

/-- The storage value of a response that passes validation. -/
def acceptedStorageValue (serde : SerdeJson) (response : SignedPayoutResponse)
    (request : SignPayoutRequest) : Except String String :=
  match validateSignedPayoutResponse response request with
  | .error reason => .error reason
  | .ok _ => signedPayoutStorageValue serde response

/-! ## Submission -/

/-- What a worker does with a stored transaction before any request is made. -/
inductive StoredTx
  | nodeTx (tx : Json)
  | rawTx (raw : String)
  | invalid (reason : String)

/-- A stored text is read by the mark it begins with. -/
def readStoredTx (serde : SerdeJson) (storedTx : String) : StoredTx :=
  match stripPrefix nodeTxStoragePrefix storedTx with
  | some nodeTxJson =>
      match serde.fromText nodeTxJson with
      | .ok nodeTx => .nodeTx nodeTx
      | .error err => .invalid ("invalid stored node_tx JSON: " ++ err)
  | none => .rawTx storedTx

/-- The node refuses the transaction as one it has already, and names the very id: an earlier
submission had come through. -/
def possiblePriorSubmit (response : SubmitTxResponse) (expectedTxid : Option String) : Bool :=
  match response.txid, expectedTxid with
  | some responseTxid, some expectedTxid =>
      let txidMatches := eqIgnoreAsciiCase
        ((stripPrefix "0x" responseTxid).getD responseTxid)
        ((stripPrefix "0x" expectedTxid).getD expectedTxid)
      let alreadyPresent := ((response.extra.get? "err").bind Json.asStr).any fun error =>
        containsText (toAsciiLowercase error) "already present"
      !response.ok && txidMatches && alreadyPresent
  | _, _ => false

end CsdPool
