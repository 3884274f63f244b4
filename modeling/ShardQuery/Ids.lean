import ShardQuery.Hash.Sip
import ShardQuery.Text.Lower
import ShardQuery.Text.Hex
/-!
Identifiers. Databases and tables are found under a hash of their lowercased name, so two spellings
with one lowercase form name the same object.
-/

set_option autoImplicit false

namespace ShardQuery

abbrev PageId := UInt32
abbrev RecordId := UInt64
abbrev ShardId := UInt64

structure DatabaseId where
  code : UInt64
deriving DecidableEq, Inhabited

structure TableId where
  code : UInt64
deriving DecidableEq, Inhabited

structure NodeId where
  index : UInt32
deriving DecidableEq, Inhabited

structure TransactionId where
  number : UInt64
deriving DecidableEq, Inhabited

-- A text is hashed as its bytes and a closing `0xff`.
def nameBytes (name : String) : Bytes := Text.utf8 (Text.lower name) ++ [0xff]

namespace DatabaseId

def ofName (name : String) : DatabaseId := ⟨Hash.sip13 (nameBytes name)⟩

def text (id : DatabaseId) : String := Text.Hex.ofWord id.code

instance : Ord DatabaseId := ⟨compareOn code⟩
instance : Std.TransOrd DatabaseId := inferInstanceAs (Std.TransCmp (compareOn code))
instance : Std.LawfulEqOrd DatabaseId where
  eq_of_compare {a b} same := by
    cases a
    cases b
    exact congrArg DatabaseId.mk (@Std.LawfulEqCmp.eq_of_compare _ compare _ _ _ same)

end DatabaseId

namespace TableId

def ofName (database : DatabaseId) (name : String) : TableId :=
  ⟨Hash.sip13 (Bytes.word64 database.code ++ nameBytes name)⟩

def text (id : TableId) : String := Text.Hex.ofWord id.code

instance : Ord TableId := ⟨compareOn code⟩
instance : Std.TransOrd TableId := inferInstanceAs (Std.TransCmp (compareOn code))
instance : Std.LawfulEqOrd TableId where
  eq_of_compare {a b} same := by
    cases a
    cases b
    exact congrArg TableId.mk (@Std.LawfulEqCmp.eq_of_compare _ compare _ _ _ same)

end TableId

def NodeId.text (node : NodeId) : String := s!"node{node.index.toNat}"

namespace TransactionId

def text (id : TransactionId) : String := s!"txn{id.number.toNat}"

instance : Ord TransactionId := ⟨compareOn number⟩
instance : Std.TransOrd TransactionId := inferInstanceAs (Std.TransCmp (compareOn number))
instance : Std.LawfulEqOrd TransactionId where
  eq_of_compare {a b} same := by
    cases a
    cases b
    exact congrArg TransactionId.mk (@Std.LawfulEqCmp.eq_of_compare _ compare _ _ _ same)

end TransactionId

end ShardQuery
