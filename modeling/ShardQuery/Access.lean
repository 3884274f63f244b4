import ShardQuery.Error
import ShardQuery.Text.Lower
/-!
The gate in front of objects: a list of denied accesses under lowercased object names.
-/

set_option autoImplicit false

namespace ShardQuery

structure DenyList where
  denied : List (String × Access)

namespace DenyList

def allowAll : DenyList := ⟨[]⟩

def deny (gate : DenyList) (object : String) (access : Access) : DenyList :=
  if gate.denied.contains (Text.lower object, access) then gate
  else ⟨gate.denied ++ [(Text.lower object, access)]⟩

def allow (gate : DenyList) (object : String) (access : Access) : DenyList :=
  ⟨gate.denied.filter (· != (Text.lower object, access))⟩

def check (gate : DenyList) (object : String) (access : Access) : Outcome Unit :=
  if gate.denied.contains (Text.lower object, access) then .error (.accessDenied object access) else .ok ()

end DenyList

end ShardQuery
