import ShardQuery.Ids
/-!
What can go wrong, by cause, and the text of each cause.
-/

set_option autoImplicit false

namespace ShardQuery

inductive Access where
  | read
  | write
  | create
  | alter
  | drop
deriving DecidableEq

def Access.text : Access → String
  | .read => "read"
  | .write => "write"
  | .create => "create"
  | .alter => "alter"
  | .drop => "drop"

inductive CatalogError where
  | databaseIdExists (id : DatabaseId)
  | databaseIdMissing (id : DatabaseId)
  | databaseNameExists (name : String)
  | databaseNameMissing (name : String)
  | tableIdExists (id : TableId)
  | tableIdMissing (id : TableId)
  | tableKeyExists (key : String)
  | tableKeyMissing (key : String)
  | tableNameExists (name : String)
  | tableNameMissing (name : String)
  | fieldExists (name : String)
  | fieldMissing (name : String)
deriving DecidableEq

def CatalogError.message : CatalogError → String
  | .databaseIdExists id => s!"database ID '{id.text}' already exists DatabaseIDExists"
  | .databaseIdMissing id => s!"database ID '{id.text}' does not exist DatabaseIDDoesNotExist"
  | .databaseNameExists name => s!"database name '{name}' already exists DatabaseNameExists"
  | .databaseNameMissing name => s!"database name '{name}' does not exist DatabaseNameDoesNotExist"
  | .tableIdExists id => s!"table ID '{id.text}' already exists TableIDExists"
  | .tableIdMissing id => s!"table ID '{id.text}' does not exist TableIDDoesNotExist"
  | .tableKeyExists key => s!"table key '{key}' already exists TableKeyExists"
  | .tableKeyMissing key => s!"table key '{key}' does not exist TableKeyDoesNotExist"
  | .tableNameExists name => s!"table name '{name}' already exists TableNameExists"
  | .tableNameMissing name => s!"table name '{name}' does not exist TableNameDoesNotExist"
  | .fieldExists name => s!"field '{name}' already exists FieldExists"
  | .fieldMissing name => s!"field '{name}' does not exist FieldDoesNotExist"

-- Why a computation breaks off: it came to a step that has no result.
inductive BreakOff where
  | divisionByZero
  | sumTooLarge
  | productTooLarge
  | bufferTooLarge
  | columnTooWide
  | nothingThere
  | noTotalOrder
deriving DecidableEq

def BreakOff.text : BreakOff → String
  | .divisionByZero => "attempt to divide by zero"
  | .sumTooLarge => "attempt to add with overflow"
  | .productTooLarge => "attempt to multiply with overflow"
  | .bufferTooLarge => "capacity overflow"
  | .columnTooWide => "Formatting argument out of range"
  | .nothingThere => "index out of bounds: the len is 0 but the index is 0"
  | .noTotalOrder => "user-provided comparison function does not correctly implement a total order"

inductive EngineError where
  | io (detail : String)
  | catalog (cause : CatalogError)
  | validation (detail : String)
  | unknownColumn (name : String)
  | ambiguousColumn (name : String)
  | typeMismatch (detail : String)
  | internal (detail : String)
  | accessDenied (object : String) (access : Access)
  | execution (detail : String)
  | nodeFailure (node : String) (detail : String)
  | brokeOff (cause : BreakOff)
  | cancelled
  | timeout
  | transaction (detail : String)
  | serialization (detail : String)
deriving DecidableEq

def EngineError.message : EngineError → String
  | .io detail => detail
  | .catalog cause => cause.message
  | .validation detail => s!"Validation Error: {detail}"
  | .unknownColumn name => s!"column '{name}' not found"
  | .ambiguousColumn name => s!"column '{name}' is ambiguous"
  | .typeMismatch detail => s!"type mismatch: {detail}"
  | .internal detail => detail
  | .accessDenied object access => s!"{access.text} access denied on '{object}'"
  | .execution detail => s!"Execution Error: {detail}"
  | .nodeFailure node detail => s!"node '{node}' failed: {detail}"
  | .brokeOff cause => cause.text
  | .cancelled => "execution cancelled"
  | .timeout => "execution timed out"
  | .transaction detail => s!"Transaction Error: {detail}"
  | .serialization detail => s!"Serialization Error: {detail}"

abbrev Outcome (α : Type) := Except EngineError α

def Outcome.breaksOff {α : Type} : Outcome α → Bool
  | .error (.brokeOff _) => true
  | _ => false

end ShardQuery
