import ShardQuery.Cluster
import ShardQuery.Error
/-!
The context in which a statement runs.
-/

set_option autoImplicit false

namespace ShardQuery

structure Context where
  -- The database of unqualified table names.
  database : String
  node? : Option ClusterNode
  cluster : List ClusterNode
  deadline? : Option Nat
  cancelled : Bool
  -- Which map task has each next turn, where several run side by side. What they leave is done task by task.
  turns : List Nat

namespace Context

def of (database : String) : Context := ⟨database, none, [], none, false, []⟩

def check (ctx : Context) (clock : Nat) : Outcome Unit :=
  if ctx.cancelled then .error .cancelled
  else
    match ctx.deadline? with
    | some deadline => if deadline ≤ clock then .error .timeout else .ok ()
    | none => .ok ()

-- The context once somebody asked for it to stop.
def stopped (ctx : Context) (stop : Bool) : Context := { ctx with cancelled := ctx.cancelled || stop }

-- The context of a map task: bound to its node, and aware of all nodes of the run.
def onNode (ctx : Context) (cluster : List ClusterNode) (node : ClusterNode) : Context :=
  { ctx with cluster, node? := some node }

end Context

end ShardQuery
