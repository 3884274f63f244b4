import ShardQuery.Error
import ShardQuery.Json
import ShardQuery.Directory
/-!
Engine configuration: its defaults, its limits, and its JSON form.
-/

set_option autoImplicit false

namespace ShardQuery

structure Config where
  pageSize : Nat
  poolPages : Nat
  -- Where spill files go; none for the standard place.
  spillDir : Option String
  spillToDisk : Bool
  shardWidth : UInt64
  -- How long an insert's transaction may live, in milliseconds.
  insertTimeout : Nat
  -- How long an insert waits for its transaction, in milliseconds.
  requestTimeout : Nat
  replicas : Nat
deriving DecidableEq

namespace Config

-- The largest page whose entries a 16-bit counter can count.
def maxPageSize : Nat := 8 + 16 * 65535

def standard : Config := ⟨8192, 128, none, true, 1048576, 60000, 5000, 1⟩

def standardDirectory : String := "/tmp/bitsql"

-- Sets the directory for spill files, under any spelling of the standard one.
def setDirectory (config : Config) (path : String) : Config :=
  { config with spillDir := if Directory.alike path standardDirectory then none else some path }

def validate (config : Config) : Outcome Unit :=
  if config.pageSize < 64 then .error (.validation s!"page_size {config.pageSize} is too small")
  else if maxPageSize < config.pageSize then
    .error (.validation s!"page_size {config.pageSize} is larger than {maxPageSize}")
  else if config.poolPages < 2 then .error (.validation "buffer_pool_pages must be at least 2")
  else if config.shardWidth = 0 ∨ config.replicas = 0 then
    .error (.validation "shard_width and replicas must be positive")
  else .ok ()

theorem validate_page_size (config : Config) (valid : config.validate = .ok ()) :
    64 ≤ config.pageSize ∧ config.pageSize ≤ maxPageSize := by
  unfold validate at valid
  split at valid
  · cases valid
  · split at valid
    · cases valid
    · omega

def settings : List String :=
  ["page_size", "buffer_pool_pages", "spill_dir", "spill_to_disk", "shard_width",
    "insert_txn_timeout_ms", "txn_request_timeout_ms", "replicas"]

def word? : Json → Option Nat
  | .number (some n) => if n < 2 ^ 64 then some n else none
  | _ => none

-- The configuration with one setting changed; none for a value of the wrong kind. Names that are no setting
-- change nothing.
def set? (config : Config) (setting : String) (json : Json) : Option Config :=
  match setting with
  | "page_size" => (word? json).map fun n => { config with pageSize := n }
  | "buffer_pool_pages" => (word? json).map fun n => { config with poolPages := n }
  | "spill_dir" =>
      match json with
      | .string (some path) => some (config.setDirectory path)
      | _ => none
  | "spill_to_disk" =>
      match json with
      | .bool b => some { config with spillToDisk := b }
      | _ => none
  | "shard_width" => (word? json).map fun n => { config with shardWidth := UInt64.ofNat n }
  | "insert_txn_timeout_ms" => (word? json).map fun n => { config with insertTimeout := n }
  | "txn_request_timeout_ms" => (word? json).map fun n => { config with requestTimeout := n }
  | "replicas" => (word? json).map fun n => { config with replicas := n }
  | _ => some config

def setAll? (config : Config) (given : List (String × Json)) : Option Config :=
  given.foldlM (fun config entry => config.set? entry.1 entry.2) config

-- Settings by name, each at most once, or as a list in their order.
def ofJson? : Json → Option Config
  | .object members => do
      let named ← members.mapM fun member => member.1.map fun key => (key, member.2)
      let known := (named.map (·.1)).filter settings.contains
      if known.eraseDups.length = known.length then standard.setAll? named else none
  | .array items => if items.length ≤ settings.length then standard.setAll? (settings.zip items) else none
  | _ => none

def parse (text : String) : Outcome Config :=
  match (Json.parse? text).bind ofJson? with
  | none => .error (.serialization "not a configuration")
  | some config => config.validate.map fun _ => config

def load (contents : Option String) : Outcome Config :=
  match contents with
  | none => .error (.io "no configuration file")
  | some text => parse text

end Config

end ShardQuery
