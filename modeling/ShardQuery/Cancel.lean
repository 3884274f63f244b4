/-!
Cancellation tokens. A token is a list of flags, its own one last; a child adds a flag of its own to
those of its parent, so cancelling the parent cancels the child and not the other way round.
-/

set_option autoImplicit false

namespace ShardQuery

structure CancelToken where
  -- The flags that cancel the token, its own one last.
  flags : List Nat
deriving DecidableEq

structure Cancellation where
  issued : Nat
  raised : List Nat
deriving DecidableEq

namespace Cancellation

def none : Cancellation := ⟨0, []⟩

def token (c : Cancellation) : CancelToken × Cancellation :=
  (⟨[c.issued]⟩, { c with issued := c.issued + 1 })

-- A token that is cancelled together with the given one, and on its own.
def child (c : Cancellation) (parent : CancelToken) : CancelToken × Cancellation :=
  (⟨parent.flags ++ [c.issued]⟩, { c with issued := c.issued + 1 })

def cancel (c : Cancellation) (token : CancelToken) : Cancellation :=
  match token.flags.getLast? with
  | some flag => { c with raised := flag :: c.raised }
  | Option.none => c

def isCancelled (c : Cancellation) (token : CancelToken) : Bool := token.flags.any c.raised.contains

end Cancellation

end ShardQuery
