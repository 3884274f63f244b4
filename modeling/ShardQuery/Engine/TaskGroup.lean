import ShardQuery.Cancel
import ShardQuery.Engine.MapReduce
/-!
Map tasks that run side by side, one on each node. They share a cancel token, a child of the token of
whoever started them: a task that fails cancels the group and never the caller. Events say who acts
next, so every order of steps is a list of events.
-/

set_option autoImplicit false

namespace ShardQuery

inductive Ending where
  | rows (rows : List Row)
  | failed (e : EngineError)
  -- The task broke off, perhaps with a message.
  | brokeOff (reason : Option String)

inductive MapTask where
  | finish (ending : Ending)
  -- Waits until its context must stop, then ends as given, or with the reason to stop.
  | await (ending : Option Ending)
  -- Cancels the caller, then waits for the reason to stop.
  | cancelCaller

def Ending.response (node : NodeId) : Ending → Response
  | .rows produced => .ok produced
  | .failed e => .error e
  | .brokeOff reason => .error (.nodeFailure node.text (reason.getD "map task panicked"))

structure Member where
  node : NodeId
  task : MapTask
  response? : Option Response

structure TaskGroup where
  members : List Member
  cancellation : Cancellation
  caller : CancelToken
  own : CancelToken
  deadline? : Option Nat
  clock : Nat

namespace TaskGroup

inductive Event where
  | turn (i : Nat)
  | callerCancels
  | timePasses (ms : Nat)

def opening (deadline? : Option Nat) (tasks : List (NodeId × MapTask)) : TaskGroup :=
  let (caller, cancellation) := Cancellation.none.token
  let (own, cancellation) := cancellation.child caller
  ⟨tasks.map fun task => ⟨task.1, task.2, none⟩, cancellation, caller, own, deadline?, 0⟩

def check (group : TaskGroup) (token : CancelToken) : Outcome Unit :=
  if group.cancellation.isCancelled token then .error .cancelled
  else
    match group.deadline? with
    | some deadline => if deadline ≤ group.clock then .error .timeout else .ok ()
    | none => .ok ()

def cancel (group : TaskGroup) (token : CancelToken) : TaskGroup :=
  { group with cancellation := group.cancellation.cancel token }

def replace (group : TaskGroup) (i : Nat) (member : Member) : TaskGroup :=
  { group with members := group.members.set i member }

-- Records a response. One that failed for a reason of its own cancels the group.
def respond (group : TaskGroup) (i : Nat) (member : Member) (response : Response) : TaskGroup :=
  let group := group.replace i { member with response? := some response }
  match response with
  | .error .cancelled => group
  | .error _ => group.cancel group.own
  | .ok _ => group

def turn (group : TaskGroup) (i : Nat) : TaskGroup :=
  match group.members[i]? with
  | some ⟨node, task, none⟩ =>
      match task with
      | .finish ending => group.respond i ⟨node, task, none⟩ (ending.response node)
      | .await ending? =>
          match group.check group.own, ending? with
          | .ok (), _ => group
          | .error _, some ending => group.respond i ⟨node, task, none⟩ (ending.response node)
          | .error reason, none => group.respond i ⟨node, task, none⟩ (.error reason)
      | .cancelCaller => (group.cancel group.caller).replace i ⟨node, .await none, none⟩
  | _ => group

def handle (group : TaskGroup) : Event → TaskGroup
  | .turn i => group.turn i
  | .callerCancels => group.cancel group.caller
  | .timePasses ms => { group with clock := group.clock + ms }

def after (group : TaskGroup) (events : List Event) : TaskGroup := events.foldl handle group

def finished (group : TaskGroup) : Bool := group.members.all (·.response?.isSome)

def outcome (group : TaskGroup) : Response := do
  group.check group.caller
  MapReduce.reduce (group.members.filterMap (·.response?))

def round (group : TaskGroup) : TaskGroup := group.after ((List.range group.members.length).map .turn)

def outlast (group : TaskGroup) : TaskGroup := group.after [.timePasses (group.deadline?.getD 0)]

-- A run in which the members take turns. The first round runs every task that waits for nothing, and the second
-- releases those that wait when a task failed or the caller was cancelled; what still waits then waits for the
-- deadline, and none stands for a wait that does not end.
def run (group : TaskGroup) : Option Response :=
  match group.check group.caller with
  | .error e => some (.error e)
  | .ok () =>
      let played := group.round.round
      let played := if played.finished then played else played.outlast.round
      if played.finished then some played.outcome else none

end TaskGroup

end ShardQuery
