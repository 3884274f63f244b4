import ShardQuery.Row
import ShardQuery.Engine.Context
/-!
Joining the responses of the nodes of a cluster: their rows in node order, or the first error, in node
order, that is not a mere cancellation.
-/

set_option autoImplicit false

namespace ShardQuery

abbrev Response := Outcome (List Row)

namespace MapReduce

-- What the others hear of a task: when it broke off, its node has failed.
def reported (node : ClusterNode) : Response → Response
  | .error (.brokeOff cause) => .error (.nodeFailure node.id.text cause.text)
  | response => response

def firstFailure? (responses : List Response) : Option EngineError :=
  responses.findSome? fun response =>
    match response with
    | .error .cancelled => none
    | .error e => some e
    | .ok _ => none

def rowsOf : Response → List Row
  | .ok rows => rows
  | .error _ => []

def wasCancelled : Response → Bool
  | .error .cancelled => true
  | _ => false

def reduce (responses : List Response) : Response :=
  match firstFailure? responses with
  | some e => .error e
  | none =>
      if responses.any wasCancelled then .error .cancelled else .ok (responses.flatMap rowsOf)

end MapReduce

end ShardQuery
