import ShardQuery.Proofs.Store.Placement
/-!
The owners of a shard. Main statement: as long as they can be counted on from the number of the shard, they are distinct
nodes, as many as there are copies, from the primary on; and a store keeps one copy for each replica up to one for each
node, unless the count of replicas runs over 32 bits.
-/

set_option autoImplicit false

namespace ShardQuery.Store

section Made

variable (nodes : UInt32) (replicas : Nat) (width fresh : UInt64)

theorem made_nodes : (make nodes replicas width fresh).nodes.toNat = max nodes.toNat 1 := by
  change (if nodes = 0 then 1 else nodes).toNat = _
  split
  · rename_i none
    rw [none]
    rfl
  · rename_i some
    have positive : nodes.toNat ≠ 0 := fun none => some (UInt32.toNat_inj.mp none)
    omega

-- A count of replicas keeps its low 32 bits, and only then is it held against the nodes.
theorem made_replicas :
    (make nodes replicas width fresh).replicas.toNat = min (max replicas 1 % 2 ^ 32) (max nodes.toNat 1) := by
  have counted := made_nodes nodes replicas width fresh
  have cut : (UInt32.ofNat (max replicas 1)).toNat = max replicas 1 % 2 ^ 32 := UInt32.toNat_ofNat
  rw [← counted, ← cut]
  change (if UInt32.ofNat (max replicas 1) ≤ (make nodes replicas width fresh).nodes then UInt32.ofNat (max replicas 1)
    else (make nodes replicas width fresh).nodes).toNat = _
  split
  · rename_i fewer
    exact (Nat.min_eq_left (UInt32.le_iff_toNat_le.mp fewer)).symm
  · rename_i more
    exact (Nat.min_eq_right (Nat.le_of_lt (UInt32.lt_iff_toNat_lt.mp (UInt32.not_le.mp more)))).symm

end Made

-- The claimed number of copies is kept where the cut takes nothing, or leaves one for each node.
theorem copies_kept_iff (nodes : UInt32) (replicas : Nat) :
    min (max replicas 1 % 2 ^ 32) (max nodes.toNat 1) = min (max replicas 1) (max nodes.toNat 1) ↔
      replicas < 2 ^ 32 ∨ max nodes.toNat 1 ≤ max replicas 1 % 2 ^ 32 := by
  have small := nodes.toNat_lt
  by_cases fits : replicas < 2 ^ 32
  · rw [Nat.mod_eq_of_lt (by omega)]
    exact iff_of_true rfl (.inl fits)
  · rw [Nat.min_eq_right (show max nodes.toNat 1 ≤ max replicas 1 by omega), or_iff_right fits]
    exact ⟨fun all => all ▸ Nat.min_le_left _ _, Nat.min_eq_right⟩

variable {store : Store} {shard : ShardId}

theorem ring_length : (store.ring shard).length = store.replicas.toNat := by
  rw [ring, List.length_map, List.length_range]

theorem ring_first (shaped : store.Shaped) (copied : 0 < store.replicas.toNat) :
    (store.ring shard).head?.map (·.index.toNat) = some (shard.toNat % store.nodes.toNat) := by
  have small : shard.toNat % store.nodes.toNat < UInt32.size :=
    Nat.lt_trans (Nat.mod_lt _ shaped.peopled) store.nodes.toNat_lt
  rw [ring, List.head?_map, List.head?_range, if_neg (Nat.ne_of_gt copied)]
  exact congrArg some (UInt32.toNat_ofNat_of_lt' small)

theorem owners_counted_iff :
    (store.owners shard = .ok (store.ring shard) ↔ shard.toNat + (store.replicas.toNat - 1) < 2 ^ 64) ∧
      (store.owners shard = .error (.brokeOff .sumTooLarge) ↔ 2 ^ 64 ≤ shard.toNat + (store.replicas.toNat - 1)) := by
  rw [owners, ← Nat.not_lt]
  split
  · rename_i counted
    simp only [counted, not_true, reduceCtorEq, iff_self, and_self]
  · rename_i large
    simp only [large, not_false_iff, reduceCtorEq, iff_self, and_self]

theorem owners_from_primary (nodes : UInt32) (replicas : Nat) (width fresh : UInt64) (requests : List StoreRequest) :
    let store := StoreRequest.performAll (make nodes replicas width fresh) requests
    let nodeCount := max nodes.toNat 1
    let copies := min (max replicas 1 % 2 ^ 32) nodeCount
    (copies = min (max replicas 1) nodeCount ↔ replicas < 2 ^ 32 ∨ nodeCount ≤ max replicas 1 % 2 ^ 32) ∧
    (∀ shard,
      (shard.toNat + (copies - 1) < 2 ^ 64 → ∃ owners, store.owners shard = .ok owners ∧ owners.length = copies ∧
        owners.Nodup ∧ (∀ owner ∈ owners, owner.index.toNat < nodeCount) ∧
        (0 < copies → owners.head?.map (·.index.toNat) = some (shard.toNat % nodeCount))) ∧
      (store.owners shard = .error (.brokeOff .sumTooLarge) ↔ 2 ^ 64 ≤ shard.toNat + (copies - 1))) ∧
    (2 ≤ store.width → ∀ id, (shardOf id store.width).toNat + (copies - 1) < 2 ^ 64) := by
  intro store nodeCount copies
  obtain ⟨orderly, shape⟩ := perform_all_orderly (make nodes replicas width fresh) requests
    (make_orderly nodes replicas width fresh)
  have shaped : store.Shaped := orderly.shaped
  have counted : store.nodes.toNat = nodeCount :=
    (congrArg UInt32.toNat shape.nodes).symm.trans (made_nodes nodes replicas width fresh)
  have copied : store.replicas.toNat = copies :=
    (congrArg UInt32.toNat shape.replicas).symm.trans (made_replicas nodes replicas width fresh)
  rw [← counted, ← copied]
  refine ⟨?_, fun shard => ⟨fun counts => ?_, owners_counted_iff.2⟩, fun wide id => shard_counted wide id _⟩
  · rw [counted, copied]
    exact copies_kept_iff nodes replicas
  · exact ⟨store.ring shard, owners_counted_iff.1.mpr counts, ring_length, ring_nodup store shaped shard,
      ring_inside store shaped shard, ring_first shaped⟩

-- The last shard whose second owner can be counted.
theorem last_pair_counted :
    ∃ owners, (StoreRequest.performAll (make 3 2 1 0) []).owners 18446744073709551614 = .ok owners ∧
      owners.length = 2 ∧ owners.Nodup ∧ owners.head?.map (·.index.toNat) = some 2 := by
  obtain ⟨-, owned, -⟩ := owners_from_primary 3 2 1 0 []
  obtain ⟨owners, counted, length, distinct, -, first⟩ := (owned 18446744073709551614).1 (by decide)
  exact ⟨owners, counted, length, distinct, first (by decide)⟩

-- The second owner of the shard of the last record cannot be counted, and a count of 2 ^ 32 replicas is cut to none.
theorem owners_uncounted :
    (¬ ∀ (nodes : UInt32) (replicas : Nat) (width fresh : UInt64) (id : RecordId), ∃ owners,
      (make nodes replicas width fresh).owners (shardOf id width) = .ok owners) ∧
    ¬ ∀ (nodes : UInt32) (replicas : Nat) (width fresh : UInt64) (shard : ShardId) (owners : List NodeId),
      (make nodes replicas width fresh).owners shard = .ok owners →
        owners.length = min (max replicas 1) (max nodes.toNat 1) := by
  constructor
  · intro always
    obtain ⟨owners, counted⟩ := always 2 2 1 0 18446744073709551615
    have broken : (make 2 2 1 0).owners (shardOf 18446744073709551615 1) = .error (.brokeOff .sumTooLarge) := rfl
    rw [broken] at counted
    cases counted
  · intro each
    exact absurd (each 1 4294967296 1 0 0 [] rfl) (by decide)

end ShardQuery.Store
