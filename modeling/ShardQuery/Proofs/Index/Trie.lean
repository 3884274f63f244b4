import ShardQuery.Proofs.Index.Layout
/-!
Binary tries on the low bits of fingerprints. Main statements: there is a smallest trie whose leaves take no more
fingerprints than fit in a bucket, each of its leaves is as high as it can be, and a numbering of its leaves uses as
many numbers as it has leaves.
-/

set_option autoImplicit false

namespace ShardQuery.HashIndex

-- The fingerprints that agree with a number on so many low bits.
def near (members : Finset Fingerprint) (depth n : Nat) : Finset Fingerprint :=
  members.filter fun fp => fp.lo.toNat % 2 ^ depth = n % 2 ^ depth

variable {members : Finset Fingerprint} {capacity : Nat}

theorem near_congr {depth m n : Nat} (same : m % 2 ^ depth = n % 2 ^ depth) :
    near members depth m = near members depth n := by
  rw [near, near, same]

theorem near_coarser {fewer depth : Nat} (le : fewer ≤ depth) (n : Nat) : near members depth n ⊆ near members fewer n :=
  fun _ among => Finset.mem_filter.mpr
    ⟨(Finset.mem_filter.mp among).1, low_bits_coarser le (Finset.mem_filter.mp among).2⟩

theorem near_mono {all : Finset Fingerprint} (inside : members ⊆ all) (depth n : Nat) :
    near members depth n ⊆ near all depth n :=
  Finset.filter_subset_filter _ inside

theorem low_bits_branch (n depth low : Nat) (high : Bool) (small : low < 2 ^ depth) :
    n % 2 ^ (depth + 1) = low + 2 ^ depth * high.toNat ↔ n % 2 ^ depth = low ∧ n.testBit depth = high := by
  have below : n % 2 ^ depth < 2 ^ depth := Nat.mod_lt _ (Nat.two_pow_pos depth)
  rw [low_bits_succ]
  cases n.testBit depth <;> cases high <;> simp <;> omega

-- A node takes the numbers that agree with its own on as many low bits as it is deep; the next bit tells the branch.
inductive Trie where
  | leaf
  | node (zero one : Trie)

namespace Trie

-- No leaf below the node takes more fingerprints than the capacity.
def Fits (capacity : Nat) (members : Finset Fingerprint) : Trie → (depth low : Nat) → Prop
  | .leaf, depth, low => (near members depth low).card ≤ capacity
  | .node zero one, depth, low =>
      zero.Fits capacity members (depth + 1) low ∧ one.Fits capacity members (depth + 1) (low + 2 ^ depth)

-- The other trie has every branching of this one.
def Within : Trie → Trie → Prop
  | .leaf, _ => True
  | .node _ _, .leaf => False
  | .node zero one, .node zero' one' => zero.Within zero' ∧ one.Within one'

structure Smallest (capacity : Nat) (members : Finset Fingerprint) (trie : Trie) : Prop where
  fits : trie.Fits capacity members 0 0
  least : ∀ other : Trie, other.Fits capacity members 0 0 → trie.Within other

theorem within_antisymm (first second : Trie) (inside : first.Within second) (outside : second.Within first) :
    first = second := by
  induction first generalizing second with
  | leaf =>
      cases second with
      | leaf => rfl
      | node zero one => exact outside.elim
  | node zero one left right =>
      cases second with
      | leaf => exact inside.elim
      | node zero' one' => rw [left zero' inside.1 outside.1, right one' inside.2 outside.2]

theorem smallest_unique {first second : Trie} (smallest : first.Smallest capacity members)
    (smallest' : second.Smallest capacity members) : first = second :=
  within_antisymm first second (smallest.least second smallest'.fits) (smallest'.least first smallest.fits)

-- How deep the leaf is that takes a number.
def leafDepth : Trie → (depth n : Nat) → Nat
  | .leaf, depth, _ => depth
  | .node zero one, depth, n => if n.testBit depth then one.leafDepth (depth + 1) n else zero.leafDepth (depth + 1) n

def height : Trie → Nat
  | .leaf => 0
  | .node zero one => max zero.height one.height + 1

def leaves : Trie → Nat
  | .leaf => 1
  | .node zero one => zero.leaves + one.leaves

-- The trie that branches where more fingerprints come together than the capacity.
def ofMembers (capacity : Nat) (members : Finset Fingerprint) : (levels depth low : Nat) → Trie
  | 0, _, _ => .leaf
  | levels + 1, depth, low =>
      if (near members depth low).card ≤ capacity then .leaf
      else .node (ofMembers capacity members levels (depth + 1) low)
        (ofMembers capacity members levels (depth + 1) (low + 2 ^ depth))

theorem of_members_fits (levels depth low : Nat)
    (enough : ∀ n, (near members (depth + levels) n).card ≤ capacity) :
    (ofMembers capacity members levels depth low).Fits capacity members depth low := by
  induction levels generalizing depth low with
  | zero => exact enough low
  | succ levels ih =>
      rw [ofMembers]
      split
      · assumption
      · have deeper (n : Nat) : (near members (depth + 1 + levels) n).card ≤ capacity := by
          rw [Nat.add_right_comm]
          exact enough n
        exact ⟨ih (depth + 1) low deeper, ih (depth + 1) (low + 2 ^ depth) deeper⟩

theorem of_members_within (levels depth low : Nat) (other : Trie) (fits : other.Fits capacity members depth low) :
    (ofMembers capacity members levels depth low).Within other := by
  induction levels generalizing depth low other with
  | zero => trivial
  | succ levels ih =>
      rw [ofMembers]
      split
      · trivial
      · rename_i crowded
        cases other with
        | leaf => exact absurd fits crowded
        | node zero one => exact ⟨ih (depth + 1) low zero fits.1, ih (depth + 1) (low + 2 ^ depth) one fits.2⟩

theorem of_members_smallest (levels : Nat) (enough : ∀ n, (near members levels n).card ≤ capacity) :
    (ofMembers capacity members levels 0 0).Smallest capacity members where
  fits := of_members_fits levels 0 0 (by simpa using enough)
  least := of_members_within levels 0 0

-- The leaf of a number is the first node on its way down that is not too crowded.
structure FirstFits (capacity : Nat) (members : Finset Fingerprint) (n depth : Nat) : Prop where
  fits : (near members depth n).card ≤ capacity
  crowded : ∀ higher < depth, capacity < (near members higher n).card

theorem first_fits_unique {n depth other : Nat} (first : FirstFits capacity members n depth)
    (second : FirstFits capacity members n other) : depth = other := by
  rcases Nat.lt_trichotomy depth other with lower | same | higher
  · exact absurd first.fits (Nat.not_le.mpr (second.crowded depth lower))
  · exact same
  · exact absurd second.fits (Nat.not_le.mpr (first.crowded other higher))

theorem leaf_depth_of_members (levels depth low n : Nat) (way : n % 2 ^ depth = low)
    (enough : ∀ n, (near members (depth + levels) n).card ≤ capacity)
    (crowded : ∀ higher < depth, capacity < (near members higher n).card) :
    FirstFits capacity members n ((ofMembers capacity members levels depth low).leafDepth depth n) := by
  induction levels generalizing depth low with
  | zero => exact ⟨enough n, crowded⟩
  | succ levels ih =>
      have here : near members depth low = near members depth n := near_congr (by rw [← way, Nat.mod_mod])
      rw [ofMembers, here]
      split
      · exact ⟨‹_›, crowded⟩
      · rename_i exceeded
        have small : low < 2 ^ depth := way ▸ Nat.mod_lt n (Nat.two_pow_pos depth)
        have deeper (n : Nat) : (near members (depth + 1 + levels) n).card ≤ capacity := by
          rw [Nat.add_right_comm]
          exact enough n
        have crowded' (higher : Nat) (above : higher < depth + 1) : capacity < (near members higher n).card := by
          rcases Nat.lt_succ_iff_lt_or_eq.mp above with before | rfl
          · exact crowded higher before
          · exact Nat.lt_of_not_le exceeded
        rw [leafDepth]
        split
        · rename_i bit
          exact ih (depth + 1) (low + 2 ^ depth) (by simpa using (low_bits_branch n depth low true small).mpr ⟨way, bit⟩)
            deeper crowded'
        · rename_i bit
          exact ih (depth + 1) low
            (by simpa using (low_bits_branch n depth low false small).mpr ⟨way, Bool.eq_false_iff.mpr bit⟩) deeper crowded'

theorem leaf_depth_ge (trie : Trie) (depth n : Nat) : depth ≤ trie.leafDepth depth n := by
  induction trie generalizing depth with
  | leaf => exact Nat.le_refl depth
  | node zero one left right =>
      rw [leafDepth]
      split
      · exact Nat.le_of_succ_le (right (depth + 1))
      · exact Nat.le_of_succ_le (left (depth + 1))

theorem leaf_depth_le (trie : Trie) (depth n : Nat) : trie.leafDepth depth n ≤ depth + trie.height := by
  induction trie generalizing depth with
  | leaf => exact Nat.le_refl depth
  | node zero one left right =>
      have left := left (depth + 1)
      have right := right (depth + 1)
      rw [leafDepth, height]
      split <;> omega

theorem height_reached (trie : Trie) (depth low : Nat) (small : low < 2 ^ depth) :
    ∃ n, n % 2 ^ depth = low ∧ trie.leafDepth depth n = depth + trie.height := by
  induction trie generalizing depth low with
  | leaf => exact ⟨low, Nat.mod_eq_of_lt small, rfl⟩
  | node zero one left right =>
      have wide : low + 2 ^ depth < 2 ^ (depth + 1) := by
        rw [Nat.pow_succ]
        omega
      by_cases higher : zero.height ≤ one.height
      · obtain ⟨n, way, reached⟩ := right (depth + 1) (low + 2 ^ depth) wide
        obtain ⟨way, bit⟩ := (low_bits_branch n depth low true small).mp (by simpa using way)
        exact ⟨n, way, by rw [leafDepth, if_pos bit, reached, height]; omega⟩
      · obtain ⟨n, way, reached⟩ := left (depth + 1) low (by omega)
        obtain ⟨way, bit⟩ := (low_bits_branch n depth low false small).mp (by simpa using way)
        exact ⟨n, way, by rw [leafDepth, if_neg (by simp [bit]), reached, height]; omega⟩

-- The numbers with so many bits that a node takes.
def region (bits depth low : Nat) : Finset Nat := (Finset.range (2 ^ bits)).filter fun n => n % 2 ^ depth = low

theorem region_branches (bits depth low : Nat) (small : low < 2 ^ depth) :
    region bits depth low = region bits (depth + 1) low ∪ region bits (depth + 1) (low + 2 ^ depth) := by
  ext n
  have zero := low_bits_branch n depth low false small
  have one := low_bits_branch n depth low true small
  simp only [Bool.toNat_false, Nat.mul_zero, Nat.add_zero] at zero
  simp only [Bool.toNat_true, Nat.mul_one] at one
  simp only [region, Finset.mem_union, Finset.mem_filter, zero, one]
  cases n.testBit depth <;> simp

-- Where two numbers have one name exactly when one leaf takes both, there are as many names as leaves.
theorem leaves_named {α : Type} [DecidableEq α] (name : Nat → α) (trie : Trie) (bits depth low : Nat)
    (small : low < 2 ^ depth) (enough : depth + trie.height ≤ bits)
    (together : ∀ m ∈ region bits depth low, ∀ n ∈ region bits depth low, name m = name n ↔
      m % 2 ^ trie.leafDepth depth n = n % 2 ^ trie.leafDepth depth n) :
    ((region bits depth low).image name).card = trie.leaves := by
  induction trie generalizing depth low with
  | leaf =>
      have inside : low ∈ region bits depth low := by
        have bound := Nat.pow_le_pow_right Nat.two_pos (Nat.le_of_add_right_le enough)
        exact Finset.mem_filter.mpr ⟨Finset.mem_range.mpr (Nat.lt_of_lt_of_le small bound), Nat.mod_eq_of_lt small⟩
      have way (n : Nat) (member : n ∈ region bits depth low) : n % 2 ^ depth = low := (Finset.mem_filter.mp member).2
      have only : (region bits depth low).image name = {name low} := by
        refine Finset.eq_singleton_iff_unique_mem.mpr ⟨Finset.mem_image_of_mem name inside, ?_⟩
        intro other member
        obtain ⟨n, among, rfl⟩ := Finset.mem_image.mp member
        exact (together n among low inside).mpr ((way n among).trans (way low inside).symm)
      rw [only, Finset.card_singleton, leaves]
  | node zero one left right =>
      have wide : low + 2 ^ depth < 2 ^ (depth + 1) := by
        rw [Nat.pow_succ]
        omega
      rw [height] at enough
      have branch (high : Bool) (n : Nat) (member : n ∈ region bits (depth + 1) (low + 2 ^ depth * high.toNat)) :
          n ∈ region bits depth low ∧ n.testBit depth = high := by
        obtain ⟨bound, way⟩ := Finset.mem_filter.mp member
        obtain ⟨way, bit⟩ := (low_bits_branch n depth low high small).mp way
        exact ⟨Finset.mem_filter.mpr ⟨bound, way⟩, bit⟩
      have zeros (n : Nat) (member : n ∈ region bits (depth + 1) low) := branch false n (by simpa using member)
      have ones (n : Nat) (member : n ∈ region bits (depth + 1) (low + 2 ^ depth)) := branch true n (by simpa using member)
      have apart : Disjoint ((region bits (depth + 1) low).image name)
          ((region bits (depth + 1) (low + 2 ^ depth)).image name) := by
        refine Finset.disjoint_left.mpr fun other first second => ?_
        obtain ⟨m, member, rfl⟩ := Finset.mem_image.mp first
        obtain ⟨n, member', same⟩ := Finset.mem_image.mp second
        obtain ⟨inside, low⟩ := zeros m member
        obtain ⟨inside', high⟩ := ones n member'
        have agree := (together m inside n inside').mp same.symm
        rw [leafDepth, if_pos high] at agree
        have bit := ((low_bits_agree_succ m n depth).mp
          (low_bits_coarser (leaf_depth_ge one (depth + 1) n) agree)).2
        exact absurd (low.symm.trans (bit.trans high)) (by decide)
      rw [region_branches bits depth low small, Finset.image_union, Finset.card_union_of_disjoint apart, leaves]
      congr 1
      · refine left (depth + 1) low (by omega) (by omega) fun m member n member' => ?_
        obtain ⟨inside', bit⟩ := zeros n member'
        rw [together m (zeros m member).1 n inside', leafDepth, if_neg (by simp [bit])]
      · refine right (depth + 1) (low + 2 ^ depth) wide (by omega) fun m member n member' => ?_
        obtain ⟨inside', bit⟩ := ones n member'
        rw [together m (ones m member).1 n inside', leafDepth, if_pos bit]

end Trie

end ShardQuery.HashIndex
