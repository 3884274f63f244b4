import ShardQuery.Access
import ShardQuery.Catalog
import ShardQuery.Config
import ShardQuery.Index.PageStore
import ShardQuery.Store.Import
import ShardQuery.Store.Read
import ShardQuery.Engine.Context
/-!
The engine: everything that statements read and change.
-/

set_option autoImplicit false

namespace ShardQuery

-- A place for the warnings of one operator of a plan, shared by all runs of it.
abbrev Channel := Nat

structure Engine where
  config : Config
  -- The file system under the engine.
  directories : Directories
  catalog : Catalog
  store : Store
  gate : DenyList
  warnings : List (Channel × String)
  channels : Nat

namespace Engine

def make (config : Config) (nodes : UInt32) (directories : Directories := PageStore.usableDirectory) : Engine :=
  ⟨config, directories, .empty, .make nodes config.replicas config.shardWidth 0, .allowAll, [], 0⟩

def clock (engine : Engine) : Nat := engine.store.desk.clock

def warn (engine : Engine) (channel : Channel) (warning : String) : Engine :=
  { engine with warnings := engine.warnings ++ [(channel, warning)] }

def openChannels (engine : Engine) (count : Nat) : List Channel × Engine :=
  ((List.range count).map (engine.channels + ·), { engine with channels := engine.channels + count })

def warningsOn (engine : Engine) (channels : List Channel) : List String :=
  channels.flatMap fun channel => (engine.warnings.filter (·.1 == channel)).map (·.2)

def holdsRows (engine : Engine) (table : TableId) : Bool := !(engine.store.shards table).isEmpty

end Engine

end ShardQuery
