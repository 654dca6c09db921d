/-
# Node — JSON values and the node's answers

`serde_json::Value` with the accessors the pool uses, and the response types of
`csd-pool-node`.  An object keeps one value per key (`serde_json::Map`); a
number is an unsigned, a negative, or a floating one, and only the first answers
`as_u64`.  Text encoding and decoding of JSON belong to the library and are the
two functions of `SerdeJson`.
-/
import CsdPool.Text

namespace CsdPool

set_option autoImplicit false

/-- The three kinds of number that `serde_json` keeps apart. -/
inductive JsonNumber
  | unsigned (n : Nat)
  | negative (n : Nat)
  | float (text : String)
  deriving DecidableEq, Repr

inductive Json
  | null
  | bool (b : Bool)
  | number (n : JsonNumber)
  | string (s : String)
  | array (items : List Json)
  | object (fields : List (String × Json))

namespace Json

def asStr : Json → Option String
  | .string s => some s
  | _ => none

def asBool : Json → Option Bool
  | .bool b => some b
  | _ => none

/-- Only a number that was read as unsigned is one; a negative or a fractional one is nothing. -/
def asU64 : Json → Option Nat
  | .number (.unsigned n) => some n
  | _ => none

def asArray : Json → Option (List Json)
  | .array items => some items
  | _ => none

def asObject : Json → Option (List (String × Json))
  | .object fields => some fields
  | _ => none

/-- `value.get(key)`. -/
def get? (key : String) : Json → Option Json
  | .object fields => (fields.find? fun field => field.1 = key).map Prod.snd
  | _ => none

end Json

/-- `serde_json::to_string` and `serde_json::from_str` on values. -/
structure SerdeJson where
  toText : Json → Except String String
  fromText : String → Except String Json

structure SubmitTxResponse where
  ok : Bool
  txid : Option String
  extra : Json

structure TransactionStatusResponse where
  txid : String
  status : String
  confirmations : Nat
  extra : Json

structure BlockStatusResponse where
  hash : String
  status : String
  height : Option Nat
  confirmations : Nat
  rewardBaseUnits : Option Nat
  extra : Json

structure SubmitBlockResponse where
  ok : Bool
  hash : Option String
  extra : Json

end CsdPool
