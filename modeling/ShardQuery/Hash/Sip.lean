import ShardQuery.Bytes
/-!
SipHash with one compression round, three closing rounds and the zero key.
-/

set_option autoImplicit false

namespace ShardQuery.Hash

structure SipState where
  v0 : UInt64
  v1 : UInt64
  v2 : UInt64
  v3 : UInt64
deriving DecidableEq

def rotate (w : UInt64) (amount : UInt64) : UInt64 := (w <<< amount) ||| (w >>> (64 - amount))

namespace SipState

def initial : SipState := ⟨0x736f6d6570736575, 0x646f72616e646f6d, 0x6c7967656e657261, 0x7465646279746573⟩

def round (s : SipState) : SipState :=
  let v0 := s.v0 + s.v1
  let v1 := rotate s.v1 13 ^^^ v0
  let v0 := rotate v0 32
  let v2 := s.v2 + s.v3
  let v3 := rotate s.v3 16 ^^^ v2
  let v0 := v0 + v3
  let v3 := rotate v3 21 ^^^ v0
  let v2 := v2 + v1
  let v1 := rotate v1 17 ^^^ v2
  let v2 := rotate v2 32
  ⟨v0, v1, v2, v3⟩

def absorb (s : SipState) (word : UInt64) : SipState :=
  let mixed := round { s with v3 := s.v3 ^^^ word }
  { mixed with v0 := mixed.v0 ^^^ word }

def finish (s : SipState) : UInt64 :=
  let closed := round (round (round { s with v2 := s.v2 ^^^ 0xff }))
  closed.v0 ^^^ closed.v1 ^^^ closed.v2 ^^^ closed.v3

end SipState

-- Absorbs the message eight bytes at a time; the last word carries the message length in its top byte.
def absorbFrom (length : Nat) (s : SipState) : Bytes → SipState
  | b0 :: b1 :: b2 :: b3 :: b4 :: b5 :: b6 :: b7 :: rest =>
      absorbFrom length (s.absorb (UInt64.ofNat (Bytes.value [b0, b1, b2, b3, b4, b5, b6, b7]))) rest
  | tail => s.absorb (UInt64.ofNat (Bytes.value tail + 2 ^ 56 * (length % 256)))

def sip13 (message : Bytes) : UInt64 := (absorbFrom message.length .initial message).finish

end ShardQuery.Hash
