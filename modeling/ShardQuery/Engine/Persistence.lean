import ShardQuery.Engine.Basic
import ShardQuery.Stored.Log
/-!
What outlives a store: its write log.
-/

set_option autoImplicit false

namespace ShardQuery.Engine

open Cbor

def storedLog (engine : Engine) (codec : Codec := .compact) (forms : Forms := .derived) : Bytes :=
  encodeLog engine.store.log codec forms

-- Puts a new store in place of the old one, which stays when the kept log cannot be replayed.
def reopen (engine : Engine) (nodes : UInt32) (kept : Option Bytes) (codec : Codec := .compact)
    (forms : Forms := .derived) : Outcome Engine := do
  let config := engine.config
  let store := Store.make nodes config.replicas config.shardWidth engine.store.desk.fresh
  match kept with
  | some bytes => return { engine with store := ← store.restore bytes codec forms }
  | none => return { engine with store }

end ShardQuery.Engine
