import ShardQuery.Error
import ShardQuery.SortedMap
/-!
Import transactions. Shared transactions are active as soon as they start. An exclusive one is active
only while no other transaction is; until then it is pending, and pending ones are promoted in the
order of their start. While an exclusive transaction is active nothing else can start.

Each operation first drops the transactions whose time is up at the clock reading it is given.
-/

set_option autoImplicit false

namespace ShardQuery

structure Transaction where
  id : TransactionId
  active : Bool
  exclusive : Bool
  -- Milliseconds it may live, zero for no limit.
  timeout : Nat
  -- The clock reading at its start.
  started : Nat
deriving DecidableEq

namespace Transaction

def deadline? (txn : Transaction) : Option Nat :=
  if txn.timeout = 0 then none else some (txn.started + txn.timeout)

def expired (now : Nat) (txn : Transaction) : Bool :=
  match txn.deadline? with
  | some deadline => deadline ≤ now
  | none => false

def pending (txn : Transaction) : Bool := txn.exclusive && !txn.active

def missing (id : TransactionId) : EngineError := .transaction s!"transaction '{id.text}' not found"

def taken (id : TransactionId) : EngineError := .transaction s!"transaction '{id.text}' already exists"

def blockedBy (id : TransactionId) : EngineError :=
  .transaction s!"there is an exclusive transaction '{id.text}', try later"

def lapsed (id : TransactionId) : EngineError :=
  .transaction s!"transaction '{id.text}' expired while pending"

end Transaction

-- The live transactions by their ids. Clients may choose ids, so these say nothing about the order of the
-- starts, which is kept apart.
structure Transactions where
  byId : SortedMap TransactionId Transaction
  order : List TransactionId

namespace Transactions

def empty : Transactions := ⟨.empty, []⟩

def find? (txns : Transactions) (id : TransactionId) : Option Transaction := txns.byId.get? id

def insert (txns : Transactions) (txn : Transaction) : Transactions :=
  ⟨txns.byId.insert txn.id txn, txns.order ++ [txn.id]⟩

def remove (txns : Transactions) (id : TransactionId) : Transactions :=
  ⟨txns.byId.erase id, txns.order.filter (· != id)⟩

def live (txns : Transactions) : List Transaction := txns.order.filterMap txns.find?

def expiredIds (now : Nat) (txns : Transactions) : List TransactionId :=
  (txns.byId.items.filter (·.expired now)).map (·.id)

def reap (now : Nat) (txns : Transactions) : Transactions := (txns.expiredIds now).foldl remove txns

def anyActive (txns : Transactions) : Bool := txns.byId.items.any (·.active)

def exclusiveActive? (txns : Transactions) : Option TransactionId :=
  (txns.byId.items.find? fun txn => txn.exclusive && txn.active).map (·.id)

-- The oldest pending exclusive transaction, once nothing is active.
def promotable? (txns : Transactions) : Option TransactionId :=
  if txns.anyActive then none else (txns.live.find? (·.pending)).map (·.id)

def activate (txns : Transactions) (id : TransactionId) : Transactions :=
  match txns.find? id with
  | some txn => { txns with byId := txns.byId.insert id { txn with active := true } }
  | none => txns

def promote (txns : Transactions) : Transactions :=
  match txns.promotable? with
  | some id => txns.activate id
  | none => txns

def promotes (txns : Transactions) : Bool := txns.promotable?.any txns.byId.contains

-- The start of a transaction, up to the point where its client begins to wait. The clock is read once for the
-- others and once for its own record.
def start (txns : Transactions) (now started : Nat) (id : TransactionId) (timeout : Nat) (exclusive : Bool) :
    Outcome Transaction × Transactions :=
  let txns := txns.reap now
  if txns.byId.contains id then (.error (Transaction.taken id), txns)
  else
    match txns.exclusiveActive? with
    | some other => (.error (Transaction.blockedBy other), txns)
    | none =>
        let txns := (txns.insert ⟨id, !exclusive, exclusive, timeout, started⟩).promote
        match txns.find? id with
        | some txn => (.ok txn, txns)
        | none => (.error (Transaction.missing id), txns)

-- One look of a waiting client: its transaction once that is active, an error once it is gone, and nothing
-- while it is still pending.
def look (txns : Transactions) (now : Nat) (id : TransactionId) :
    Option (Outcome Transaction) × Transactions :=
  let txns := (txns.reap now).promote
  match txns.find? id with
  | some txn => (if txn.active then some (.ok txn) else none, txns)
  | none => (some (.error (Transaction.lapsed id)), txns)

-- Ends a transaction and gives its last record. An unknown one leaves the others as they are.
def finish (txns : Transactions) (now : Nat) (id : TransactionId) : Outcome Transaction × Transactions :=
  let txns := txns.reap now
  match txns.find? id with
  | some txn => (.ok txn, (txns.remove id).promote)
  | none => (.error (Transaction.missing id), txns)

def get (txns : Transactions) (now : Nat) (id : TransactionId) : Outcome Transaction × Transactions :=
  let txns := (txns.reap now).promote
  match txns.find? id with
  | some txn => (.ok txn, txns)
  | none => (.error (Transaction.missing id), txns)

def list (txns : Transactions) (now : Nat) : List Transaction × Transactions :=
  let txns := (txns.reap now).promote
  (txns.live, txns)

end Transactions

end ShardQuery
