import ShardQuery.Transaction.Basic
import ShardQuery.Proofs.Repetition
/-!
Live transactions under the steps of many clients. Main statement: in whatever order the steps come and whatever the
clocks say, an active exclusive transaction is the only active one, and the transactions are listed in the order of
their starts.
-/

set_option autoImplicit false

namespace ShardQuery

namespace Transactions

section Lookups

variable (txns : Transactions) (id other : TransactionId)

theorem find_remove : (txns.remove id).find? other = if other = id then none else txns.find? other :=
  SortedMap.get?_erase txns.byId id other

theorem find_insert (txn : Transaction) :
    (txns.insert txn).find? other = if other = txn.id then some txn else txns.find? other :=
  SortedMap.get?_insert txns.byId txn.id other txn

theorem find_activate : (txns.activate id).find? other =
    if other = id then (txns.find? id).map fun txn => { txn with active := true } else txns.find? other := by
  rw [activate]
  cases found : txns.find? id with
  | none =>
      by_cases same : other = id
      · rw [if_pos same, same]
        exact found
      · rw [if_neg same]
  | some txn =>
      change (txns.byId.insert id _).get? other = _
      rw [SortedMap.get?_insert]
      rfl

theorem contains_iff : txns.byId.contains id = true ↔ ∃ txn, txns.find? id = some txn := Option.isSome_iff_exists

theorem listed_active (txn : Transaction) (found : txns.find? id = some txn) (active : txn.active = true) :
    txns.anyActive = true :=
  List.any_eq_true.mpr ⟨txn, (SortedMap.mem_items txns.byId txn).mpr ⟨id, found⟩, active⟩

-- Where nothing was active, the activated transaction is the only one that is.
theorem found_activated (txn : Transaction) (idle : txns.anyActive = false)
    (found : (txns.activate id).find? other = some txn) :
    ∃ old, txns.find? other = some old ∧ old.id = txn.id ∧ (txn.active = true → other = id) ∧
      (txn.active = false → txn = old) := by
  rw [find_activate] at found
  by_cases same : other = id
  · rw [if_pos same, ← same, Option.map_eq_some_iff] at found
    obtain ⟨old, held, rfl⟩ := found
    exact ⟨old, held, rfl, fun _ => same, fun passive => nomatch passive⟩
  · rw [if_neg same] at found
    refine ⟨txn, found, rfl, ?_, fun _ => rfl⟩
    intro active
    rw [listed_active txns other txn found active] at idle
    cases idle

theorem order_activate : (txns.activate id).order = txns.order := by
  rw [activate]
  split
  · rfl
  · rfl

theorem no_exclusive_active (none : txns.exclusiveActive? = none) (txn : Transaction) (found : txns.find? id = some txn)
    (exclusive : txn.exclusive = true) : txn.active = false := by
  rw [exclusiveActive?, Option.map_eq_none_iff, List.find?_eq_none] at none
  have passed := none txn ((SortedMap.mem_items txns.byId txn).mpr ⟨id, found⟩)
  rw [exclusive, Bool.true_and] at passed
  exact Bool.eq_false_iff.mpr passed

end Lookups

-- What the live transactions are at any time, given the ids of all that were ever started, in their order. An id that
-- was started again counts where it was started last.
structure Orderly (txns : Transactions) (entered : List TransactionId) : Prop where
  keyed : ∀ id txn, txns.find? id = some txn → txn.id = id
  entering : ∀ id txn, txns.find? id = some txn → id ∈ entered
  ordered : txns.order = entered.dedup.filter txns.byId.contains
  shared : ∀ id txn, txns.find? id = some txn → txn.exclusive = false → txn.active = true
  alone : ∀ id txn, txns.find? id = some txn → txn.exclusive = true → txn.active = true →
    ∀ other txn', txns.find? other = some txn' → txn'.active = true → other = id

theorem empty_orderly : empty.Orderly [] := by
  refine ⟨?_, ?_, rfl, ?_, ?_⟩
  · intro id txn found
    cases found
  · intro id txn found
    cases found
  · intro id txn found
    cases found
  · intro id txn found
    cases found

section Kept

variable (txns : Transactions) (entered : List TransactionId) (orderly : txns.Orderly entered)

include orderly

theorem remove_orderly (id : TransactionId) : (txns.remove id).Orderly entered := by
  have before (other : TransactionId) (txn : Transaction) (found : (txns.remove id).find? other = some txn) :
      txns.find? other = some txn := by
    rw [find_remove] at found
    split at found
    · cases found
    · exact found
  refine ⟨?_, ?_, ?_, ?_, ?_⟩
  · intro other txn found
    exact orderly.keyed other txn (before other txn found)
  · intro other txn found
    exact orderly.entering other txn (before other txn found)
  · change txns.order.filter _ = _
    rw [orderly.ordered, List.filter_filter]
    apply List.filter_congr
    intro other _
    change _ = ((txns.remove id).find? other).isSome
    rw [find_remove]
    by_cases same : other = id
    · simp [same]
    · simp [same, SortedMap.contains, find?]
  · intro other txn found
    exact orderly.shared other txn (before other txn found)
  · intro other txn found exclusive active third txn' found'
    exact orderly.alone other txn (before other txn found) exclusive active third txn' (before third txn' found')

theorem reap_orderly (now : Nat) : (txns.reap now).Orderly entered := by
  rw [reap]
  induction txns.expiredIds now generalizing txns with
  | nil => exact orderly
  | cons id ids ih => exact ih (txns.remove id) (remove_orderly txns entered orderly id)

theorem activate_orderly (id : TransactionId) (idle : txns.anyActive = false) : (txns.activate id).Orderly entered := by
  refine ⟨?_, ?_, ?_, ?_, ?_⟩
  · intro other txn found
    obtain ⟨old, held, same, -, -⟩ := found_activated txns id other txn idle found
    exact same.symm.trans (orderly.keyed other old held)
  · intro other txn found
    obtain ⟨old, held, -⟩ := found_activated txns id other txn idle found
    exact orderly.entering other old held
  · rw [order_activate, orderly.ordered]
    apply List.filter_congr
    intro other _
    change (txns.find? other).isSome = ((txns.activate id).find? other).isSome
    rw [find_activate]
    split
    · rename_i same
      rw [same, Option.isSome_map]
    · rfl
  · intro other txn found shared
    obtain ⟨old, held, -, -, passive⟩ := found_activated txns id other txn idle found
    cases active : txn.active with
    | true => rfl
    | false =>
        rw [← passive active] at held
        rw [orderly.shared other txn held shared] at active
        cases active
  · intro other txn found _ active third txn' found' active'
    obtain ⟨-, -, -, here, -⟩ := found_activated txns id other txn idle found
    obtain ⟨-, -, -, there, -⟩ := found_activated txns id third txn' idle found'
    exact (there active').trans (here active).symm

theorem promote_orderly : txns.promote.Orderly entered := by
  rw [promote]
  split
  · rename_i id promotable
    rw [promotable?] at promotable
    split at promotable
    · cases promotable
    · rename_i idle
      exact activate_orderly txns entered orderly id (Bool.eq_false_iff.mpr idle)
  · exact orderly

theorem insert_orderly (txn : Transaction) (new : txns.find? txn.id = none) (fresh : txn.active = !txn.exclusive)
    (free : txns.exclusiveActive? = none) : (txns.insert txn).Orderly (entered ++ [txn.id]) := by
  have before (id : TransactionId) (other : Transaction) (found : (txns.insert txn).find? id = some other) :
      (id = txn.id ∧ other = txn) ∨ txns.find? id = some other := by
    rw [find_insert] at found
    split at found
    · rename_i same
      exact .inl ⟨same, (Option.some.inj found).symm⟩
    · exact .inr found
  refine ⟨?_, ?_, ?_, ?_, ?_⟩
  · intro id other found
    rcases before id other found with ⟨rfl, rfl⟩ | held
    · rfl
    · exact orderly.keyed id other held
  · intro id other found
    rw [List.mem_append, List.mem_singleton]
    rcases before id other found with ⟨rfl, -⟩ | held
    · exact .inr rfl
    · exact .inl (orderly.entering id other held)
  · change txns.order ++ [txn.id] = _
    rw [dedup_append_one, List.filter_append, List.filter_filter, orderly.ordered]
    congr 1
    · apply List.filter_congr
      intro id _
      change (txns.find? id).isSome = (((txns.insert txn).find? id).isSome && _)
      rw [find_insert]
      by_cases same : id = txn.id
      · simp [same, new]
      · simp [same]
    · have there : (txns.insert txn).byId.contains txn.id = true :=
        (contains_iff _ _).mpr ⟨txn, (find_insert txns txn.id txn).trans (if_pos rfl)⟩
      rw [List.filter_cons_of_pos there, List.filter_nil]
  · intro id other found shared
    rcases before id other found with ⟨-, rfl⟩ | held
    · rw [fresh, shared]
      rfl
    · exact orderly.shared id other held shared
  · intro id other found exclusive active third txn' found' active'
    rcases before id other found with ⟨-, rfl⟩ | held
    · rw [fresh, exclusive] at active
      cases active
    · rw [no_exclusive_active txns id free other held exclusive] at active
      cases active

end Kept

theorem find_promote_some (txns : Transactions) (id : TransactionId) :
    (txns.promote.find? id).isSome = (txns.find? id).isSome := by
  rw [promote]
  split
  · rw [find_activate]
    split
    · rename_i same
      rw [same, Option.isSome_map]
    · rfl
  · rfl

-- A start is refused and changes nothing but what has expired, or it enters the transaction.
theorem start_cases (txns : Transactions) (now started : Nat) (id : TransactionId) (timeout : Nat) (exclusive : Bool) :
    (∃ e, txns.start now started id timeout exclusive = (.error e, txns.reap now)) ∨
    ((txns.reap now).find? id = none ∧ (txns.reap now).exclusiveActive? = none ∧
      ∃ txn, txns.start now started id timeout exclusive =
        (.ok txn, ((txns.reap now).insert ⟨id, !exclusive, exclusive, timeout, started⟩).promote)) := by
  unfold start
  by_cases held : (txns.reap now).byId.contains id = true
  · exact .inl ⟨_, if_pos held⟩
  · rw [if_neg held]
    have new : (txns.reap now).find? id = none := Option.not_isSome_iff_eq_none.mp held
    cases free : (txns.reap now).exclusiveActive? with
    | some other => exact .inl ⟨_, rfl⟩
    | none =>
        refine .inr ⟨new, rfl, ?_⟩
        have there := find_promote_some ((txns.reap now).insert ⟨id, !exclusive, exclusive, timeout, started⟩) id
        rw [find_insert, if_pos rfl] at there
        obtain ⟨txn, found⟩ := Option.isSome_iff_exists.mp there
        exact ⟨txn, by simp only [found]⟩

end Transactions

-- What one client does while it holds the lock, with the clock as it reads it.
inductive TransactionStep where
  | start (now started : Nat) (id : TransactionId) (timeout : Nat) (exclusive : Bool)
  | look (now : Nat) (id : TransactionId)
  | finish (now : Nat) (id : TransactionId)
  | get (now : Nat) (id : TransactionId)
  | list (now : Nat)

namespace TransactionStep

def perform (txns : Transactions) : TransactionStep → Transactions
  | .start now started id timeout exclusive => (txns.start now started id timeout exclusive).2
  | .look now id => (txns.look now id).2
  | .finish now id => (txns.finish now id).2
  | .get now id => (txns.get now id).2
  | .list now => (txns.list now).2

-- The id of the transaction that the step starts.
def enters (txns : Transactions) : TransactionStep → List TransactionId
  | .start now started id timeout exclusive =>
      if (txns.start now started id timeout exclusive).1.isOk then [id] else []
  | _ => []

end TransactionStep

structure TransactionHistory where
  txns : Transactions
  -- The ids of the transactions that were started, in the order of their starts.
  entered : List TransactionId

namespace TransactionHistory

def opening : TransactionHistory := ⟨.empty, []⟩

def step (history : TransactionHistory) (step : TransactionStep) : TransactionHistory :=
  ⟨step.perform history.txns, history.entered ++ step.enters history.txns⟩

-- The clients' steps in the order in which they get hold of the lock.
def run (steps : List TransactionStep) : TransactionHistory := steps.foldl step opening

theorem step_orderly (history : TransactionHistory) (step : TransactionStep) (orderly : history.txns.Orderly history.entered) :
    (history.step step).txns.Orderly (history.step step).entered := by
  have settled (now : Nat) : (history.txns.reap now).promote.Orderly (history.entered ++ []) := by
    rw [List.append_nil]
    exact Transactions.promote_orderly _ _ (Transactions.reap_orderly _ _ orderly now)
  cases step with
  | start now started id timeout exclusive =>
      have reaped := Transactions.reap_orderly _ _ orderly now
      change (history.txns.start now started id timeout exclusive).2.Orderly
        (history.entered ++ if (history.txns.start now started id timeout exclusive).1.isOk then [id] else [])
      rcases Transactions.start_cases history.txns now started id timeout exclusive with ⟨e, refused⟩ | ⟨new, free, txn, begun⟩
      · rw [refused]
        exact (List.append_nil _).symm ▸ reaped
      · rw [begun]
        exact Transactions.promote_orderly _ _ (Transactions.insert_orderly _ _ reaped _ new rfl free)
  | look now id =>
      change (history.txns.look now id).2.Orderly _
      rw [Transactions.look]
      split
      · exact settled now
      · exact settled now
  | finish now id =>
      have reaped := Transactions.reap_orderly _ _ orderly now
      change (history.txns.finish now id).2.Orderly (history.entered ++ [])
      rw [Transactions.finish, List.append_nil]
      split
      · exact Transactions.promote_orderly _ _ (Transactions.remove_orderly _ _ reaped id)
      · exact reaped
  | get now id =>
      change (history.txns.get now id).2.Orderly _
      rw [Transactions.get]
      split
      · exact settled now
      · exact settled now
  | list now => exact settled now

theorem run_orderly (steps : List TransactionStep) : (run steps).txns.Orderly (run steps).entered := by
  have onward (history : TransactionHistory) (orderly : history.txns.Orderly history.entered) :
      (steps.foldl step history).txns.Orderly (steps.foldl step history).entered := by
    induction steps generalizing history with
    | nil => exact orderly
    | cons step steps ih => exact ih (history.step step) (step_orderly history step orderly)
  exact onward opening Transactions.empty_orderly

theorem exclusive_alone_in_order (steps : List TransactionStep) :
    (∀ txn ∈ (run steps).txns.byId.items, txn.exclusive = true → txn.active = true →
      ∀ other ∈ (run steps).txns.byId.items, other.active = true → other = txn) ∧
    (∀ txn ∈ (run steps).txns.byId.items, txn.exclusive = false → txn.active = true) ∧
    (run steps).txns.order.Perm (run steps).txns.byId.keys ∧ (run steps).txns.order.Nodup ∧
    (run steps).txns.order = (run steps).entered.dedup.filter (run steps).txns.byId.contains := by
  have orderly := run_orderly steps
  have distinct : (run steps).txns.order.Nodup := orderly.ordered ▸ (List.nodup_dedup _).filter _
  refine ⟨?_, ?_, ?_, distinct, orderly.ordered⟩
  · intro txn member exclusive active other member' active'
    obtain ⟨id, found⟩ := (SortedMap.mem_items _ _).mp member
    obtain ⟨id', found'⟩ := (SortedMap.mem_items _ _).mp member'
    have same : id' = id := orderly.alone id txn found exclusive active id' other found' active'
    exact Option.some.inj (found'.symm.trans (same ▸ found))
  · intro txn member shared
    obtain ⟨id, found⟩ := (SortedMap.mem_items _ _).mp member
    exact orderly.shared id txn found shared
  · rw [List.perm_ext_iff_of_nodup distinct (SortedMap.keys_nodup _)]
    intro id
    rw [orderly.ordered, List.mem_filter, List.mem_dedup, ← SortedMap.get?_isSome]
    constructor
    · intro listed
      exact listed.2
    · intro held
      obtain ⟨txn, found⟩ := Option.isSome_iff_exists.mp held
      exact ⟨orderly.entering id txn found, held⟩

end TransactionHistory

end ShardQuery
