import Mathlib.Data.Finset.Card
import Mathlib.Data.Finset.Image
import ShardQuery.Index.HashIndex
/-!
How a directory leads to bucket pages. Main statements: a directory that sends slots to the bucket of their low
bits still does so after it is doubled and after a bucket is divided.
-/

set_option autoImplicit false

namespace ShardQuery.HashIndex

theorem low_bits_succ (n bits : Nat) : n % 2 ^ (bits + 1) = n % 2 ^ bits + 2 ^ bits * (n.testBit bits).toNat := by
  rw [Nat.pow_succ, Nat.mod_mul, Nat.testBit_eq_decide_div_mod_eq]
  rcases Nat.mod_two_eq_zero_or_one (n / 2 ^ bits) with bit | bit <;> simp [bit]

theorem low_bits_agree_succ (m n bits : Nat) :
    m % 2 ^ (bits + 1) = n % 2 ^ (bits + 1) ↔ m % 2 ^ bits = n % 2 ^ bits ∧ m.testBit bits = n.testBit bits := by
  have small (k : Nat) : k % 2 ^ bits < 2 ^ bits := Nat.mod_lt _ (Nat.two_pow_pos bits)
  have m' := small m
  have n' := small n
  rw [low_bits_succ, low_bits_succ]
  cases m.testBit bits <;> cases n.testBit bits <;> simp <;> omega

theorem low_bits_coarser {m n fewer bits : Nat} (le : fewer ≤ bits) (agree : m % 2 ^ bits = n % 2 ^ bits) :
    m % 2 ^ fewer = n % 2 ^ fewer := by
  have coarser := congrArg (· % 2 ^ fewer) agree
  simpa only [Nat.mod_mod_of_dvd _ (Nat.pow_dvd_pow 2 le)] using coarser

def pageOf (directory : Array PageId) (slot : Nat) : PageId := directory.getD slot 0

def bucket? (directory : Array PageId) (pages : List BucketPage) (slot : Nat) : Option BucketPage :=
  pages[(pageOf directory slot).toNat]?

def slotOf (depth : Nat) (fp : Fingerprint) : Nat := fp.lo.toNat % 2 ^ depth

theorem slot_of_lt (depth : Nat) (fp : Fingerprint) : slotOf depth fp < 2 ^ depth :=
  Nat.mod_lt _ (Nat.two_pow_pos depth)

structure Layout (directory : Array PageId) (depth : Nat) (pages : List BucketPage) : Prop where
  slots : directory.size = 2 ^ depth
  allocated : ∀ slot < 2 ^ depth, ∃ bucket, bucket? directory pages slot = some bucket
  shallow : ∀ slot < 2 ^ depth, ∀ bucket, bucket? directory pages slot = some bucket → bucket.depth.toNat ≤ depth
  shared : ∀ slot < 2 ^ depth, ∀ bucket, bucket? directory pages slot = some bucket → ∀ other < 2 ^ depth,
    (pageOf directory other = pageOf directory slot ↔
      other % 2 ^ bucket.depth.toNat = slot % 2 ^ bucket.depth.toNat)
  placed : ∀ slot < 2 ^ depth, ∀ bucket, bucket? directory pages slot = some bucket → ∀ fp ∈ bucket.entries,
    fp.lo.toNat % 2 ^ bucket.depth.toNat = slot % 2 ^ bucket.depth.toNat
  used : ∀ page < pages.length, ∃ slot < 2 ^ depth, (pageOf directory slot).toNat = page

theorem layout_pages_le {directory : Array PageId} {depth : Nat} {pages : List BucketPage}
    (layout : Layout directory depth pages) : pages.length ≤ 2 ^ depth := by
  have covered : Finset.range pages.length ⊆
      (Finset.range (2 ^ depth)).image fun slot => (pageOf directory slot).toNat := by
    intro page member
    obtain ⟨slot, bound, same⟩ := layout.used page (Finset.mem_range.mp member)
    exact Finset.mem_image.mpr ⟨slot, Finset.mem_range.mpr bound, same⟩
  calc pages.length = (Finset.range pages.length).card := (Finset.card_range _).symm
    _ ≤ _ := Finset.card_le_card covered
    _ ≤ (Finset.range (2 ^ depth)).card := Finset.card_image_le
    _ = 2 ^ depth := Finset.card_range _

-- An entry stands in the bucket of its own slot and in no other.
theorem layout_entry_home {directory : Array PageId} {depth : Nat} {pages : List BucketPage}
    (layout : Layout directory depth pages) (bucket : BucketPage) (page : Nat) (found : pages[page]? = some bucket)
    (fp : Fingerprint) (member : fp ∈ bucket.entries) : bucket? directory pages (slotOf depth fp) = some bucket := by
  obtain ⟨slot, bound, rfl⟩ := layout.used page (List.getElem?_eq_some_iff.mp found).1
  have depthLe := layout.shallow slot bound bucket found
  have home : pageOf directory (slotOf depth fp) = pageOf directory slot := by
    rw [layout.shared slot bound bucket found (slotOf depth fp) (slot_of_lt depth fp),
      ← layout.placed slot bound bucket found fp member, slotOf]
    exact Nat.mod_mod_of_dvd _ (Nat.pow_dvd_pow 2 depthLe)
  rw [bucket?, home, found]

theorem single_layout (root : PageId) (number : root.toNat = 0) : Layout #[root] 0 [⟨root, 0, []⟩] := by
  have only : bucket? #[root] [⟨root, 0, []⟩] 0 = some ⟨root, 0, []⟩ := by simp [bucket?, pageOf, number]
  have first (slot : Nat) (bound : slot < 2 ^ 0) : slot = 0 := Nat.lt_one_iff.mp bound
  refine ⟨rfl, ?_, ?_, ?_, ?_, ?_⟩
  · intro slot bound
    exact ⟨_, first slot bound ▸ only⟩
  · intro slot bound bucket found
    rw [first slot bound, only] at found
    exact Option.some.inj found ▸ Nat.le_refl 0
  · intro slot bound bucket found other bound'
    rw [first slot bound, first other bound']
    exact ⟨fun _ => rfl, fun _ => rfl⟩
  · intro slot bound bucket found fp member
    rw [first slot bound, only] at found
    rw [← Option.some.inj found] at member
    cases member
  · intro page bound
    exact ⟨0, Nat.one_pos, number.trans (Nat.lt_one_iff.mp bound).symm⟩

theorem page_of_doubled (directory : Array PageId) (depth slot : Nat) (slots : directory.size = 2 ^ depth)
    (bound : slot < 2 ^ (depth + 1)) : pageOf (directory ++ directory) slot = pageOf directory (slot % 2 ^ depth) := by
  have low := Nat.mod_lt slot (Nat.two_pow_pos depth)
  rw [Nat.pow_succ] at bound
  unfold pageOf
  rw [Array.getD_eq_getD_getElem?, Array.getD_eq_getD_getElem?]
  by_cases first : slot < 2 ^ depth
  · rw [Nat.mod_eq_of_lt first, Array.getElem?_append_left (slots ▸ first)]
  · have rest : slot % 2 ^ depth = slot - 2 ^ depth := by
      rw [Nat.mod_eq_sub_mod (by omega), Nat.mod_eq_of_lt (by omega)]
    rw [rest, Array.getElem?_append_right (by omega), slots]

theorem doubled_layout {directory : Array PageId} {depth : Nat} {pages : List BucketPage}
    (layout : Layout directory depth pages) : Layout (directory ++ directory) (depth + 1) pages := by
  have low (slot : Nat) : slot % 2 ^ depth < 2 ^ depth := Nat.mod_lt slot (Nat.two_pow_pos depth)
  have page (slot : Nat) (bound : slot < 2 ^ (depth + 1)) :
      pageOf (directory ++ directory) slot = pageOf directory (slot % 2 ^ depth) :=
    page_of_doubled directory depth slot layout.slots bound
  have same (slot : Nat) (bound : slot < 2 ^ (depth + 1)) :
      bucket? (directory ++ directory) pages slot = bucket? directory pages (slot % 2 ^ depth) := by
    rw [bucket?, page slot bound, bucket?]
  have folded (slot : Nat) (bits : Nat) (le : bits ≤ depth) : slot % 2 ^ depth % 2 ^ bits = slot % 2 ^ bits :=
    Nat.mod_mod_of_dvd slot (Nat.pow_dvd_pow 2 le)
  refine ⟨?_, ?_, ?_, ?_, ?_, ?_⟩
  · rw [Array.size_append, layout.slots, Nat.pow_succ, Nat.mul_two]
  · intro slot bound
    rw [same slot bound]
    exact layout.allocated _ (low slot)
  · intro slot bound bucket found
    exact Nat.le_succ_of_le (layout.shallow _ (low slot) bucket (same slot bound ▸ found))
  · intro slot bound bucket found other bound'
    rw [same slot bound] at found
    have depthLe := layout.shallow _ (low slot) bucket found
    rw [page slot bound, page other bound', layout.shared _ (low slot) bucket found _ (low other),
      folded slot _ depthLe, folded other _ depthLe]
  · intro slot bound bucket found fp member
    rw [same slot bound] at found
    rw [layout.placed _ (low slot) bucket found fp member]
    exact folded slot _ (layout.shallow _ (low slot) bucket found)
  · intro number bound
    obtain ⟨slot, bound, found⟩ := layout.used number bound
    have wide : slot < 2 ^ (depth + 1) := Nat.lt_of_lt_of_le bound (Nat.pow_le_pow_right (by decide) (Nat.le_succ _))
    exact ⟨slot, wide, by rw [page slot wide, Nat.mod_eq_of_lt bound, found]⟩

theorem refilled_bucket (directory : Array PageId) (pages : List BucketPage) (slot other : Nat)
    (filled : BucketPage) (allocated : (pageOf directory slot).toNat < pages.length) :
    bucket? directory (pages.set (pageOf directory slot).toNat filled) other =
      if pageOf directory other = pageOf directory slot then some filled else bucket? directory pages other := by
  rw [bucket?]
  split
  · rename_i same
    rw [same, List.getElem?_set_self allocated]
  · rename_i different
    exact List.getElem?_set_ne fun equal => different (UInt32.toNat_inj.mp equal.symm)

theorem refilled_layout {directory : Array PageId} {depth : Nat} {pages : List BucketPage}
    (layout : Layout directory depth pages) (slot : Nat) (bound : slot < 2 ^ depth) (bucket filled : BucketPage)
    (found : bucket? directory pages slot = some bucket) (sameDepth : filled.depth = bucket.depth)
    (home : ∀ fp ∈ filled.entries, fp.lo.toNat % 2 ^ bucket.depth.toNat = slot % 2 ^ bucket.depth.toNat) :
    Layout directory depth (pages.set (pageOf directory slot).toNat filled) := by
  have allocated := (List.getElem?_eq_some_iff.mp found).1
  have before (other : Nat) (after : BucketPage)
      (found' : bucket? directory (pages.set (pageOf directory slot).toNat filled) other = some after) :
      pageOf directory other = pageOf directory slot ∧ after = filled ∨ bucket? directory pages other = some after := by
    rw [refilled_bucket directory pages slot other filled allocated] at found'
    split at found'
    · exact .inl ⟨‹_›, (Option.some.inj found').symm⟩
    · exact .inr found'
  refine ⟨layout.slots, ?_, ?_, ?_, ?_, ?_⟩
  · intro other bound'
    rw [refilled_bucket directory pages slot other filled allocated]
    split
    · exact ⟨_, rfl⟩
    · exact layout.allocated other bound'
  · intro other bound' after found'
    rcases before other after found' with ⟨_, rfl⟩ | old
    · exact sameDepth ▸ layout.shallow slot bound bucket found
    · exact layout.shallow other bound' after old
  · intro first bound' after found' second bound''
    rcases before first after found' with ⟨together, rfl⟩ | old
    · rw [together, sameDepth, (layout.shared slot bound bucket found first bound').mp together]
      exact layout.shared slot bound bucket found second bound''
    · exact layout.shared first bound' after old second bound''
  · intro other bound' after found' fp member
    rcases before other after found' with ⟨together, rfl⟩ | old
    · rw [sameDepth, (layout.shared slot bound bucket found other bound').mp together]
      exact home fp member
    · exact layout.placed other bound' after old fp member
  · intro page within
    exact layout.used page (List.length_set ▸ within)

section Divided

variable (directory fresh : Array PageId) (depth bit : Nat) (pages : List BucketPage) (old new : PageId)
  (bucket kept moved : BucketPage)

-- What dividing the bucket of page `old` at a bit makes of the directory: slots with the bit go to `new`.
structure Redirects : Prop where
  size : fresh.size = directory.size
  page : ∀ slot < 2 ^ depth, pageOf fresh slot =
    if pageOf directory slot = old ∧ slot.testBit bit = true then new else pageOf directory slot

-- The two halves of a bucket: entries without the bit and entries with it.
structure Halves : Prop where
  keptDepth : kept.depth.toNat = bucket.depth.toNat + 1
  movedDepth : moved.depth.toNat = bucket.depth.toNat + 1
  keptEntries : ∀ fp ∈ kept.entries, fp ∈ bucket.entries ∧ fp.lo.toNat.testBit bucket.depth.toNat = false
  movedEntries : ∀ fp ∈ moved.entries, fp ∈ bucket.entries ∧ fp.lo.toNat.testBit bucket.depth.toNat = true

variable {directory fresh depth bit pages old new}

theorem divided_page (allocated : old.toNat < pages.length) (page : Nat) :
    (pages.set old.toNat kept ++ [moved])[page]? =
      if page = old.toNat then some kept else if page = pages.length then some moved else pages[page]? := by
  split
  · rename_i same
    rw [same, List.getElem?_append_left (by simpa using allocated), List.getElem?_set_self allocated]
  · rename_i different
    split
    · rename_i last
      rw [last, List.getElem?_append_right (by simp)]
      simp
    · rename_i notLast
      by_cases bound : page < pages.length
      · rw [List.getElem?_append_left (by simpa using bound), List.getElem?_set_ne (Ne.symm different)]
      · rw [List.getElem?_eq_none (by simp; omega), List.getElem?_eq_none (by omega)]

theorem divided_bucket (layout : Layout directory depth pages) (redirects : Redirects directory fresh depth bit old new)
    (allocated : old.toNat < pages.length) (number : new.toNat = pages.length) (slot : Nat) (bound : slot < 2 ^ depth) :
    bucket? fresh (pages.set old.toNat kept ++ [moved]) slot =
      if pageOf directory slot = old then some (if slot.testBit bit then moved else kept)
      else bucket? directory pages slot := by
  obtain ⟨before, found⟩ := layout.allocated slot bound
  have within := (List.getElem?_eq_some_iff.mp found).1
  rw [bucket?, redirects.page slot bound, divided_page kept moved allocated]
  by_cases same : pageOf directory slot = old
  · cases high : slot.testBit bit with
    | true => simp [same, number, Nat.ne_of_gt allocated]
    | false => simp [same]
  · have different : (pageOf directory slot).toNat ≠ old.toNat := fun equal => same (UInt32.toNat_inj.mp equal)
    simp [same, different, Nat.ne_of_lt within, bucket?]

variable {bucket kept moved}

theorem half_depth (halves : Halves bucket kept moved) (slot : Nat) :
    (if slot.testBit bucket.depth.toNat = true then moved else kept).depth.toNat = bucket.depth.toNat + 1 := by
  split
  · exact halves.movedDepth
  · exact halves.keptDepth

theorem half_entry (halves : Halves bucket kept moved) (slot : Nat) (fp : Fingerprint)
    (member : fp ∈ (if slot.testBit bucket.depth.toNat = true then moved else kept).entries) :
    fp ∈ bucket.entries ∧ fp.lo.toNat.testBit bucket.depth.toNat = slot.testBit bucket.depth.toNat := by
  split at member
  · rename_i high
    rw [high]
    exact halves.movedEntries fp member
  · rename_i low
    rw [Bool.eq_false_iff.mpr low]
    exact halves.keptEntries fp member

-- A bucket that does not use all bits has slots with either value of its next bit.
theorem slot_with_bit (layout : Layout directory depth pages) (slot : Nat) (bound : slot < 2 ^ depth)
    (found : bucket? directory pages slot = some bucket) (deeper : bucket.depth.toNat < depth) (high : Bool) :
    ∃ other < 2 ^ depth, pageOf directory other = pageOf directory slot ∧ other.testBit bucket.depth.toNat = high := by
  let low := slot % 2 ^ bucket.depth.toNat
  have small : low < 2 ^ bucket.depth.toNat := Nat.mod_lt _ (Nat.two_pow_pos _)
  have wide : 2 ^ bucket.depth.toNat + 2 ^ bucket.depth.toNat ≤ 2 ^ depth := by
    rw [← Nat.two_mul, ← Nat.pow_succ']
    exact Nat.pow_le_pow_right (by decide) deeper
  cases high with
  | false =>
      refine ⟨low, by omega, ?_, Nat.testBit_lt_two_pow small⟩
      exact (layout.shared slot bound bucket found low (by omega)).mpr (Nat.mod_mod _ _)
  | true =>
      refine ⟨2 ^ bucket.depth.toNat + low, by omega, ?_, ?_⟩
      · refine (layout.shared slot bound bucket found _ (by omega)).mpr ?_
        rw [Nat.add_mod_left, Nat.mod_mod]
      · rw [Nat.testBit_two_pow_add_eq, Nat.testBit_lt_two_pow small]
        rfl

theorem divided_layout (layout : Layout directory depth pages) (slot : Nat) (bound : slot < 2 ^ depth)
    (found : bucket? directory pages slot = some bucket) (deeper : bucket.depth.toNat < depth)
    (number : new.toNat = pages.length) (halves : Halves bucket kept moved)
    (redirects : Redirects directory fresh depth bucket.depth.toNat (pageOf directory slot) new) :
    Layout fresh depth (pages.set (pageOf directory slot).toNat kept ++ [moved]) := by
  have allocated : (pageOf directory slot).toNat < pages.length := (List.getElem?_eq_some_iff.mp found).1
  have buckets := divided_bucket kept moved layout redirects allocated number
  have same (other : Nat) (bound' : other < 2 ^ depth) : pageOf directory other = pageOf directory slot ↔
      other % 2 ^ bucket.depth.toNat = slot % 2 ^ bucket.depth.toNat :=
    layout.shared slot bound bucket found other bound'
  have unallocated (other : Nat) (bound' : other < 2 ^ depth) : pageOf directory other ≠ new := by
    obtain ⟨_, found'⟩ := layout.allocated other bound'
    have within := (List.getElem?_eq_some_iff.mp found').1
    intro equal
    rw [equal, number] at within
    exact Nat.lt_irrefl _ within
  refine ⟨redirects.size.trans layout.slots, ?_, ?_, ?_, ?_, ?_⟩
  · intro other bound'
    rw [buckets other bound']
    split
    · exact ⟨_, rfl⟩
    · exact layout.allocated other bound'
  · intro other bound' half found'
    rw [buckets other bound'] at found'
    split at found'
    · rw [← Option.some.inj found', half_depth halves]
      exact deeper
    · exact layout.shallow other bound' half found'
  · intro first bound' half found' second bound''
    have firstNew := unallocated first bound'
    have secondNew := unallocated second bound''
    have slotNew := unallocated slot bound
    rw [buckets first bound'] at found'
    rw [redirects.page first bound', redirects.page second bound'']
    split at found'
    · rename_i divided
      rw [← Option.some.inj found', half_depth halves, low_bits_agree_succ, (same first bound').mp divided, divided,
        ← same second bound'']
      by_cases together : pageOf directory second = pageOf directory slot
      · rw [together]
        cases first.testBit bucket.depth.toNat <;> cases second.testBit bucket.depth.toNat <;>
          simp [slotNew, slotNew.symm]
      · cases first.testBit bucket.depth.toNat <;> simp [together, secondNew]
    · rename_i apart
      rw [← layout.shared first bound' half found' second bound'']
      by_cases divided : pageOf directory second = pageOf directory slot
      · cases second.testBit bucket.depth.toNat <;> simp [divided, apart, Ne.symm apart, firstNew.symm]
      · simp [apart, divided]
  · intro other bound' half found' fp member
    rw [buckets other bound'] at found'
    split at found'
    · rename_i divided
      rw [← Option.some.inj found'] at member ⊢
      obtain ⟨old, bit⟩ := half_entry halves other fp member
      rw [half_depth halves, low_bits_agree_succ, layout.placed slot bound bucket found fp old]
      exact ⟨((same other bound').mp divided).symm, bit⟩
    · exact layout.placed other bound' half found' fp member
  · intro page within
    rw [List.length_append, List.length_set, List.length_singleton] at within
    by_cases last : page = pages.length
    · obtain ⟨other, bound', shared, bit⟩ := slot_with_bit layout slot bound found deeper true
      exact ⟨other, bound', by rw [redirects.page other bound', if_pos ⟨shared, bit⟩, number, last]⟩
    · obtain ⟨other, bound', home⟩ := layout.used page (by omega)
      by_cases divided : pageOf directory other = pageOf directory slot
      · obtain ⟨low, bound', shared, bit⟩ := slot_with_bit layout slot bound found deeper false
        exact ⟨low, bound', by rw [redirects.page low bound', if_neg (by simp [bit]), shared, ← divided, home]⟩
      · exact ⟨other, bound', by rw [redirects.page other bound', if_neg fun both => divided both.1, home]⟩

end Divided

end ShardQuery.HashIndex
