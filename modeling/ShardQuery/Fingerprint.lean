import ShardQuery.Hash.Sip
/-!
Fingerprints: 128 bits of hash that stand for a byte string in the index.
-/

set_option autoImplicit false

namespace ShardQuery

structure Fingerprint where
  hi : UInt64
  lo : UInt64
deriving DecidableEq

-- Each half hashes its own seed byte, the length and the bytes.
def Fingerprint.ofBytes (bytes : Bytes) : Fingerprint :=
  let message := Bytes.little 8 bytes.length ++ bytes
  ⟨Hash.sip13 (0 :: message), Hash.sip13 (1 :: message)⟩

end ShardQuery
