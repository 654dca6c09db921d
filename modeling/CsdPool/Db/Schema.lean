/-
# Db.Schema — the tables behind the workers, the API and the bridge

The rows of the PostgreSQL schema (`migrations/`), one `Table` for each unique
index the code relies on.  Conventions of the translation:

* a `miner_id` is the miner's address and a `worker_id` the pair of address and
  worker name: `miners` and `workers` are upserts on exactly these columns, so
  their rows carry nothing else that is read here;
* a table's rows stand in insertion order, which is the order of its serial id;
* a `numeric` column is an `Int` or, where it holds an `f64`, a `ℚ`; a `u128`
  bound into a statement is a `Nat`;
* `timestamptz` is a `Nat`; `now()` is an argument.

Every operation on the database is one transaction: it returns the new database,
or an error and then nothing was written.
-/
import Mathlib.Data.Rat.Defs
import CsdPool.Theory.Table
import CsdPool.Accounting
import CsdPool.Text

namespace CsdPool

open Theory (Keyed Table)

set_option autoImplicit false

/-- What a repository call can fail with. -/
inductive RepositoryError
  | lockPoisoned
  | duplicatePayoutBatch (batchId : String)
  | insufficientPayoutBalance (miner : Address)
  | sql
  | json
  | parseInt
  | intConversion
  deriving DecidableEq, Repr

/-! ## Machine integers at the boundary -/

/-- `i32::try_from` on an unsigned value. -/
def i32TryFrom (n : Nat) : Except RepositoryError Nat :=
  if n < 2 ^ 31 then .ok n else .error .intConversion

/-- `n as i64` for a `u64`. -/
def asI64 (n : Nat) : Int := if n < 2 ^ 63 then n else (n : Int) - 2 ^ 64

/-- `text.parse::<u128>()` on the decimal text of an integral numeric. -/
def parseU128 (n : Int) : Except RepositoryError Nat :=
  if 0 ≤ n ∧ n < 2 ^ 128 then .ok n.toNat else .error .parseInt

/-- `text.parse::<i128>()` on the decimal text of an integral numeric. -/
def parseI128 (n : Int) : Except RepositoryError Int :=
  if -2 ^ 127 ≤ n ∧ n < 2 ^ 127 then .ok n else .error .parseInt

/-! ## Ledger and balances -/

/-- `ledger_entries_idempotency_idx`. -/
structure LedgerKey where
  miner : Option Address
  kind : LedgerKind
  refType : String
  refId : String
  deriving DecidableEq, Repr

/-- The columns of the unique index on the ledger. -/
def LedgerEntry.ledgerKey (e : LedgerEntry) : LedgerKey := ⟨e.miner, e.kind, e.refType, e.refId⟩

instance instKeyedLedgerEntry : Keyed LedgerEntry LedgerKey := ⟨LedgerEntry.ledgerKey⟩

/-- The four amount columns of `balance_cache`, with their defaults. -/
structure Balance where
  immatureBaseUnits : Int := 0
  confirmedBaseUnits : Int := 0
  lockedBaseUnits : Int := 0
  paidBaseUnits : Int := 0
  deriving DecidableEq, Repr

structure BalanceRow where
  miner : Address
  balance : Balance
  deriving DecidableEq, Repr

instance instKeyedBalanceRow : Keyed BalanceRow Address := ⟨BalanceRow.miner⟩

/-- What the ledger transactions read and write. -/
structure Books where
  ledgerEntries : Table LedgerEntry
  balanceCache : Table BalanceRow

/-! ## Payouts -/

inductive PayoutStatus
  | needsApproval
  | created
  | dryRunOk
  | signed
  | submitted
  | confirmed
  | failed
  | cancelled
  deriving DecidableEq, Repr

/-- A batch as it is stored; its recipients have a table of their own. -/
structure PayoutBatchRow where
  id : String
  status : PayoutStatus
  totalBaseUnits : Nat
  txid : Option String
  rawTxHash : Option String
  createdAt : Nat
  deriving DecidableEq, Repr

instance instKeyedPayoutBatchRow : Keyed PayoutBatchRow String := ⟨PayoutBatchRow.id⟩

structure PayoutRecipientRow where
  batchId : String
  miner : Address
  address : Address
  amountBaseUnits : Nat
  deriving DecidableEq, Repr

instance instKeyedPayoutRecipientRow : Keyed PayoutRecipientRow (String × Address) :=
  ⟨fun r => (r.batchId, r.miner)⟩

structure PoolSetting where
  name : String
  value : String
  deriving DecidableEq, Repr

instance instKeyedPoolSetting : Keyed PoolSetting String := ⟨PoolSetting.name⟩

/-! ## Mining -/

/-- The row of a job: its notify in texts, and the two targets in bytes. -/
structure JobRecord where
  jobId : String
  prevHashBeHex : String
  versionHex : String
  nbitsHex : String
  ntimeHex : String
  networkTarget : List UInt8
  shareTarget : List UInt8
  coinb1Hex : String
  coinb2Hex : String
  merkleBranchesHex : List String
  cleanJobs : Bool
  jobReason : String
  deriving DecidableEq, Repr

instance instKeyedJobRecord : Keyed JobRecord String := ⟨JobRecord.jobId⟩

structure ShareRecord where
  sessionId : Option String
  miner : Address
  workerName : String
  jobId : String
  difficulty : ℚ
  hash : List UInt8
  extranonce2Hex : String
  ntimeHex : String
  nonceHex : String
  isBlockCandidate : Bool
  deriving DecidableEq

/-- `unique(job_id, worker_id, extranonce2, ntime, nonce)`. -/
structure ShareKey where
  jobId : String
  miner : Address
  workerName : String
  extranonce2Hex : String
  ntimeHex : String
  nonceHex : String
  deriving DecidableEq, Repr

instance instKeyedShareRecord : Keyed ShareRecord ShareKey :=
  ⟨fun s => ⟨s.jobId, s.miner, s.workerName, s.extranonce2Hex, s.ntimeHex, s.nonceHex⟩⟩

/-- The values `blocks_status` admits. -/
inductive BlockStatus
  | submitted
  | submittedSecondary
  | submittedDegraded
  | relayFailed
  | seenOnChain
  | immature
  | confirmed
  | orphaned
  deriving DecidableEq, Repr

/-- The row of a block: where it came from, and how far it has got on the chain. -/
structure BlockRow where
  hash : String
  jobId : Option String
  status : BlockStatus
  height : Option Int
  confirmations : Nat
  rewardBaseUnits : Nat
  submittedAt : Option Nat
  confirmedAt : Option Nat
  orphanedAt : Option Nat
  deriving DecidableEq, Repr

instance instKeyedBlockRow : Keyed BlockRow String := ⟨BlockRow.hash⟩

/-! ## The database -/

/-- The tables that the functions below read and write. -/
structure Db where
  books : Books
  payoutBatches : Table PayoutBatchRow
  payoutRecipients : Table PayoutRecipientRow
  poolSettings : Table PoolSetting
  jobs : Table JobRecord
  shares : Table ShareRecord
  blocks : Table BlockRow

def Books.empty : Books := ⟨.empty, .empty⟩

/-- A database right after its migrations: payouts are paused. -/
def Db.migrated : Db where
  books := .empty
  payoutBatches := .empty
  payoutRecipients := .empty
  poolSettings := (Table.empty.insert ⟨"payouts_enabled", "false"⟩).1
  jobs := .empty
  shares := .empty
  blocks := .empty

/-- The upsert into `miners`: the address must pass `miners_address_addr20`. -/
def minerIdInTx (address : Address) : Except RepositoryError Address :=
  if matchesLowerHex 40 address then .ok address else .error .sql

/-- The row of a miner is there or can be made: its address has the form the column checks. -/
theorem minerIdInTx_ok {address miner : Address} (upserted : minerIdInTx address = .ok miner) :
    miner = address ∧ matchesLowerHex 40 address = true := by
  unfold minerIdInTx at upserted
  split at upserted
  · rename_i legal
    cases upserted
    exact ⟨rfl, legal⟩
  · cases upserted

end CsdPool
