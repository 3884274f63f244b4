import ShardQuery.Error
import ShardQuery.Fingerprint
/-!
Bucket pages and their stored form: page number, depth and entry count in eight bytes, sixteen bytes
for each entry, zeros up to the page size.
-/

set_option autoImplicit false

namespace ShardQuery

structure BucketPage where
  id : PageId
  -- How many low bits all entries share.
  depth : UInt16
  entries : List Fingerprint
deriving DecidableEq

namespace BucketPage

def headerSize : Nat := 8
def entrySize : Nat := 16

def capacity (pageSize : Nat) : Nat := min ((pageSize - headerSize) / entrySize) 65535

def encodeEntry (entry : Fingerprint) : Bytes := Bytes.word64 entry.hi ++ Bytes.word64 entry.lo

def body (page : BucketPage) : Bytes :=
  Bytes.word32 page.id ++ Bytes.word16 page.depth ++ Bytes.little 2 page.entries.length ++
    page.entries.flatMap encodeEntry

def image (page : BucketPage) (pageSize : Nat) : Bytes :=
  let bytes := page.body
  (bytes ++ List.replicate (pageSize - bytes.length) 0).take pageSize

-- The image of a page, refused when the entries do not fit. No buffer holds a larger page than `Bytes.largest`.
def encode (page : BucketPage) (pageSize : Nat) : Outcome Bytes :=
  if capacity pageSize < page.entries.length then
    .error (.internal s!"bucket page {page.id.toNat} holds {page.entries.length} entries, capacity is {capacity pageSize}")
  else if Bytes.largest < pageSize then .error (.brokeOff .bufferTooLarge)
  else .ok (page.image pageSize)

def decodeEntries : Nat → Bytes → List Fingerprint
  | 0, _ => []
  | count + 1, bytes =>
      ⟨UInt64.ofNat (Bytes.value (bytes.take 8)), UInt64.ofNat (Bytes.value ((bytes.drop 8).take 8))⟩ ::
        decodeEntries count (bytes.drop entrySize)

def decode (bytes : Bytes) : Outcome BucketPage :=
  let count := Bytes.value ((bytes.drop 6).take 2)
  if bytes.length < headerSize ∨ bytes.length < headerSize + entrySize * count then
    .error (.internal "corrupt bucket page")
  else
    .ok ⟨UInt32.ofNat (Bytes.value (bytes.take 4)), UInt16.ofNat (Bytes.value ((bytes.drop 4).take 2)),
      decodeEntries count (bytes.drop headerSize)⟩

end BucketPage

end ShardQuery
