import ShardQuery.Transaction.Basic
import ShardQuery.Step
/-!
Transactions together with a clock and the clients that wait for theirs to become active. A waiting
client looks again whenever another one reports a change, and a last time when its patience ends.
-/

set_option autoImplicit false

namespace ShardQuery

structure Waiter where
  client : Nat
  id : TransactionId
  patience : Nat
deriving DecidableEq

structure TransactionDesk where
  txns : Transactions
  clock : Nat
  fresh : UInt64
  client : Nat
  waiting : List Waiter
  -- What clients were told that did not stay for their answer.
  answers : List (Nat × Outcome Transaction)
  -- The last client that left to come back for the answer about a transaction.
  aside : List (TransactionId × Nat)

namespace TransactionDesk

def opening (fresh : UInt64) : TransactionDesk := ⟨.empty, 0, fresh, 0, [], [], []⟩

def lookAgain (desk : TransactionDesk) (waiter : Waiter) : TransactionDesk :=
  let (answer?, txns) := desk.txns.look desk.clock waiter.id
  match answer? with
  | some answer =>
      { desk with
        txns,
        waiting := desk.waiting.filter (· != waiter),
        answers := desk.answers ++ [(waiter.client, answer)] }
  | none => { desk with txns }

def announce (desk : TransactionDesk) : TransactionDesk := desk.waiting.foldl lookAgain desk

-- The end of a client's patience: it looks a last time and takes its transaction as it stands.
def giveUp (desk : TransactionDesk) (waiter : Waiter) : TransactionDesk :=
  let desk := { desk with clock := max desk.clock waiter.patience }
  let changed := (desk.txns.reap desk.clock).promotes
  let desk := desk.lookAgain waiter
  let desk :=
    if desk.waiting.contains waiter then
      let answer := match desk.txns.find? waiter.id with
        | some txn => Except.ok txn
        | none => .error (Transaction.missing waiter.id)
      { desk with
        waiting := desk.waiting.filter (· != waiter),
        answers := desk.answers ++ [(waiter.client, answer)] }
    else desk
  if changed then desk.announce else desk

def nextToGiveUp? (desk : TransactionDesk) : Option Waiter :=
  match desk.waiting with
  | [] => none
  | first :: rest => some (rest.foldl (fun a b => if b.patience < a.patience then b else a) first)

def giveUpWhile (continues : TransactionDesk → Waiter → Bool) : Nat → TransactionDesk → TransactionDesk
  | 0, desk => desk
  | bound + 1, desk =>
      match desk.nextToGiveUp? with
      | none => desk
      | some waiter =>
          if continues desk waiter then giveUpWhile continues bound (desk.giveUp waiter) else desk

def pass (desk : TransactionDesk) (ms : Nat) : TransactionDesk :=
  let target := desk.clock + ms
  let desk := giveUpWhile (fun _ waiter => waiter.patience ≤ target) desk.waiting.length desk
  { desk with clock := max desk.clock target }

def issue (id : Option TransactionId) : Step TransactionDesk TransactionId := do
  match id with
  | some id => return id
  | none =>
      let desk ← MonadState.get
      set { desk with fresh := desk.fresh + 1 }
      return ⟨desk.fresh⟩

-- Starts a transaction. Its client, known by its number from now on, has its answer at once or is left waiting.
def enter (id : TransactionId) (timeout : Nat) (exclusive : Bool) (patience : Nat) :
    Step TransactionDesk Nat := do
  let desk ← MonadState.get
  let (outcome, txns) := desk.txns.start desk.clock desk.clock id timeout exclusive
  let told := { desk with txns, client := desk.client + 1, answers := desk.answers ++ [(desk.client, outcome)] }
  let left :=
    { desk with
      txns
      client := desk.client + 1
      waiting := desk.waiting ++ [⟨desk.client, id, desk.clock + patience⟩] }
  match outcome with
  | .ok txn => set (if txn.active || patience == 0 then told else left)
  | .error _ => set told
  return desk.client

def collect (client : Nat) (id : TransactionId) : Step TransactionDesk Transaction := do
  modify fun desk =>
    giveUpWhile (fun desk _ => desk.waiting.any (·.client == client)) desk.waiting.length desk
  let desk ← MonadState.get
  match desk.answers.find? (·.1 == client) with
  | some (_, answer) =>
      set { desk with answers := desk.answers.eraseP (·.1 == client) }
      Step.ofOutcome answer
  | none => throw (Transaction.missing id)

def start (id : Option TransactionId) (timeout : Nat) (exclusive : Bool) (patience : Nat) :
    Step TransactionDesk Transaction := do
  let id ← issue id
  let client ← enter id timeout exclusive patience
  collect client id

def startAside (id : Option TransactionId) (timeout : Nat) (exclusive : Bool) (patience : Nat) :
    Step TransactionDesk Unit := do
  let id ← issue id
  let client ← enter id timeout exclusive patience
  modify fun desk => { desk with aside := (id, client) :: desk.aside.filter (·.1 != id) }

def join (id : TransactionId) : Step TransactionDesk Transaction := do
  let desk ← MonadState.get
  match desk.aside.lookup id with
  | some client =>
      set { desk with aside := desk.aside.filter (·.1 != id) }
      collect client id
  | none => throw (Transaction.missing id)

def finish (id : TransactionId) : Step TransactionDesk Transaction := do
  let desk ← MonadState.get
  let (outcome, txns) := desk.txns.finish desk.clock id
  let desk := { desk with txns }
  set (if outcome.isOk then desk.announce else desk)
  Step.ofOutcome outcome

-- Clients that wait are told when reading the transactions promoted one.
def settle (changed : Bool) : Step TransactionDesk Unit :=
  if changed then modify announce else pure ()

def get (id : TransactionId) : Step TransactionDesk Transaction := do
  let desk ← MonadState.get
  let (outcome, txns) := desk.txns.get desk.clock id
  set { desk with txns }
  settle (desk.txns.reap desk.clock).promotes
  Step.ofOutcome outcome

def list : Step TransactionDesk (List Transaction) := do
  let desk ← MonadState.get
  let (live, txns) := desk.txns.list desk.clock
  set { desk with txns }
  settle (desk.txns.reap desk.clock).promotes
  return live

end TransactionDesk

end ShardQuery
