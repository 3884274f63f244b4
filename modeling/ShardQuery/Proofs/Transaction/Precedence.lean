import Mathlib.Data.List.Induction
import ShardQuery.Proofs.Transaction.Promotion
/-!
Exclusive transactions in the order of their starts. Main statement: an exclusive transaction becomes active only when
none that was started before it is still waiting, so that those that nobody ends while they wait have their turns in
the order of their starts, whatever their ids.
-/

set_option autoImplicit false

namespace ShardQuery

namespace Transactions

-- The transaction of the n-th start, while it lives. After a later start under its id that id is the other one's.
def entrant? (txns : Transactions) (entered : List TransactionId) (n : Nat) : Option Transaction :=
  match entered.drop n with
  | id :: later => if id ∈ later then none else txns.find? id
  | [] => none

section Entrants

variable {txns : Transactions} {entered : List TransactionId} {n : Nat} {txn : Transaction}

theorem entrant_some : txns.entrant? entered n = some txn ↔
    ∃ id later, entered.drop n = id :: later ∧ id ∉ later ∧ txns.find? id = some txn := by
  rw [entrant?]
  split
  · rename_i id later dropped
    constructor
    · intro found
      split at found
      · cases found
      · rename_i last
        exact ⟨id, later, dropped, last, found⟩
    · rintro ⟨id', later', dropped', last, found⟩
      obtain ⟨rfl, rfl⟩ := List.cons.inj (dropped.symm.trans dropped')
      rw [if_neg last, found]
  · rename_i dropped
    constructor
    · intro found
      cases found
    · rintro ⟨id, later, dropped', -⟩
      rw [dropped] at dropped'
      cases dropped'

-- An id belongs to its last start.
theorem last_start {id : TransactionId} {m : Nat} {later later' : List TransactionId} (here : entered.drop m = id :: later)
    (last : id ∉ later) (there : entered.drop n = id :: later') : n ≤ m := by
  by_contra behind
  have onward : entered.drop n = (entered.drop (m + 1)).drop (n - (m + 1)) := by
    rw [List.drop_drop]
    congr 1
    omega
  have rest : entered.drop (m + 1) = later := by
    rw [← List.drop_drop, here]
    rfl
  rw [rest, there] at onward
  exact last (List.mem_of_mem_drop (onward ▸ List.mem_cons_self))

theorem entrants_apart {id : TransactionId} {m : Nat} {later later' : List TransactionId} (here : entered.drop m = id :: later)
    (last : id ∉ later) (there : entered.drop n = id :: later') (last' : id ∉ later') : m = n :=
  Nat.le_antisymm (last_start there last' here) (last_start here last there)

theorem live_entrants (orderly : txns.Orderly entered) :
    txns.live = (List.range entered.length).filterMap (txns.entrant? entered) := by
  have last (ids : List TransactionId) :
      ids.dedup.filterMap txns.find? = (List.range ids.length).filterMap (txns.entrant? ids) := by
    induction ids with
    | nil => rfl
    | cons id ids ih =>
        have front : txns.entrant? (id :: ids) 0 = if id ∈ ids then none else txns.find? id := rfl
        have behind : txns.entrant? (id :: ids) ∘ Nat.succ = txns.entrant? ids := rfl
        rw [List.length_cons, List.range_succ_eq_map, List.filterMap_cons, List.filterMap_map, front, behind, ← ih]
        by_cases again : id ∈ ids
        · rw [List.dedup_cons_of_mem again, if_pos again]
        · rw [List.dedup_cons_of_notMem again, if_neg again, List.filterMap_cons]
  rw [live, orderly.ordered, List.filterMap_filter, ← last]
  apply List.filterMap_congr
  intro id _
  split
  · rfl
  · rename_i absent
    exact (Option.not_isSome_iff_eq_none.mp absent).symm

theorem remove_entrant {id : TransactionId} (found : (txns.remove id).entrant? entered n = some txn) :
    txns.entrant? entered n = some txn := by
  obtain ⟨other, later, dropped, last, held⟩ := entrant_some.mp found
  rw [find_remove] at held
  split at held
  · cases held
  · exact entrant_some.mpr ⟨other, later, dropped, last, held⟩

theorem reap_entrant {now : Nat} (found : (txns.reap now).entrant? entered n = some txn) :
    txns.entrant? entered n = some txn := by
  rw [reap] at found
  generalize txns.expiredIds now = ids at found
  induction ids generalizing txns with
  | nil => exact found
  | cons id ids ih => exact remove_entrant (ih found)

theorem insert_entrant {new : Transaction}
    (found : (txns.insert new).entrant? (entered ++ [new.id]) n = some txn) :
    txn = new ∨ txns.entrant? entered n = some txn := by
  obtain ⟨id, later, dropped, last, held⟩ := entrant_some.mp found
  rw [find_insert] at held
  by_cases same : id = new.id
  · rw [if_pos same] at held
    exact .inl (Option.some.inj held).symm
  · rw [if_neg same] at held
    refine .inr ?_
    by_cases inside : n < entered.length
    · rw [List.drop_append_of_le_length (Nat.le_of_lt inside), List.drop_eq_getElem_cons inside, List.cons_append] at dropped
      obtain ⟨rfl, rfl⟩ := List.cons.inj dropped
      refine entrant_some.mpr ⟨_, _, List.drop_eq_getElem_cons inside, ?_, held⟩
      exact fun again => last (List.mem_append_left _ again)
    · have outside : entered.length ≤ n := Nat.le_of_not_lt inside
      have suffix : id ∈ (entered ++ [new.id]).drop entered.length :=
        List.drop_subset_drop_left _ outside (dropped ▸ List.mem_cons_self)
      rw [List.drop_left, List.mem_singleton] at suffix
      exact absurd suffix same

theorem entrant_new (new : Transaction) :
    (txns.insert new).entrant? (entered ++ [new.id]) entered.length = some new := by
  refine entrant_some.mpr ⟨new.id, [], List.drop_left, List.not_mem_nil, ?_⟩
  rw [find_insert, if_pos rfl]

theorem promote_entrant_some : (txns.promote.entrant? entered n).isSome = (txns.entrant? entered n).isSome := by
  rw [entrant?, entrant?]
  split
  · split
    · rfl
    · exact find_promote_some txns _
  · rfl

theorem activate_entrant {chosen : TransactionId} (found : (txns.activate chosen).entrant? entered n = some txn) :
    txns.entrant? entered n = some txn ∨ ∃ later, entered.drop n = chosen :: later ∧ chosen ∉ later := by
  obtain ⟨id, later, dropped, last, held⟩ := entrant_some.mp found
  rw [find_activate] at held
  split at held
  · rename_i same
    exact .inr ⟨later, same ▸ dropped, same ▸ last⟩
  · exact .inl (entrant_some.mpr ⟨id, later, dropped, last, held⟩)

-- None that started before the one that can be promoted waits.
theorem promotable_entrant (orderly : txns.Orderly entered) {chosen : TransactionId} (next : txns.promotable? = some chosen)
    {later : List TransactionId} (dropped : entered.drop n = chosen :: later) (last : chosen ∉ later) :
    ∀ earlier < n, ∀ other, txns.entrant? entered earlier = some other → other.pending = false := by
  rw [promotable?] at next
  split at next
  · cases next
  obtain ⟨oldest, first, rfl⟩ := Option.map_eq_some_iff.mp next
  rw [live_entrants orderly, List.find?_filterMap, Option.bind_eq_some_iff] at first
  obtain ⟨k, least, entrant⟩ := first
  obtain ⟨-, -, before⟩ := List.find?_range_eq_some.mp least
  obtain ⟨id, later', dropped', last', held⟩ := entrant_some.mp entrant
  rw [← orderly.keyed id oldest held] at dropped' last'
  obtain rfl : n = k := entrants_apart dropped last dropped' last'
  intro earlier less other there
  have passed := before earlier less
  rw [there] at passed
  exact Bool.eq_false_iff.mpr (by simpa using passed)

-- Promotion makes one transaction active, and those that started before that one do not wait.
theorem promote_entrant (orderly : txns.Orderly entered) (found : txns.promote.entrant? entered n = some txn) :
    txns.entrant? entered n = some txn ∨
      ∀ earlier < n, ∀ other, txns.promote.entrant? entered earlier = some other → other.pending = false := by
  rw [promote] at found ⊢
  cases next : txns.promotable? with
  | none =>
      rw [next] at found
      exact .inl found
  | some chosen =>
      rw [next] at found
      rcases activate_entrant found with before | ⟨later, dropped, last⟩
      · exact .inl before
      · refine .inr fun earlier less other there => ?_
        rcases activate_entrant there with kept | ⟨later', dropped', last'⟩
        · exact promotable_entrant orderly next dropped last earlier less other kept
        · exact absurd (entrants_apart dropped' last' dropped last) (Nat.ne_of_lt less)

end Entrants

end Transactions

namespace TransactionHistory

-- The transaction of the n-th start, while it lives.
def entrant? (history : TransactionHistory) (n : Nat) : Option Transaction := history.txns.entrant? history.entered n

-- Whether the n-th start is of a transaction that lives and still waits, that is active, that is active alone.
def waits (history : TransactionHistory) (n : Nat) : Bool := (history.entrant? n).any (·.pending)

def runs (history : TransactionHistory) (n : Nat) : Bool := (history.entrant? n).any (·.active)

def reigns (history : TransactionHistory) (n : Nat) : Bool :=
  (history.entrant? n).any fun txn => txn.exclusive && txn.active

section Step

variable (history : TransactionHistory) (orderly : history.txns.Orderly history.entered) (step : TransactionStep)

include orderly

-- What a step drops and enters before it promotes, if it promotes. What it enters is active or waits as it is meant to.
theorem step_settles : ∃ settled : Transactions, settled.Orderly (history.step step).entered ∧
    (∀ n txn, settled.entrant? (history.step step).entered n = some txn →
      history.entrant? n = some txn ∨ txn.active = !txn.exclusive) ∧
    ((history.step step).txns = settled ∨ (history.step step).txns = settled.promote) := by
  have reaped (now : Nat) := Transactions.reap_orderly _ _ orderly now
  have settling (now : Nat) (later : TransactionHistory) (entered : later.entered = history.entered ++ [])
      (reached : later.txns = history.txns.reap now ∨ later.txns = (history.txns.reap now).promote) :
      ∃ settled : Transactions, settled.Orderly later.entered ∧
        (∀ n txn, settled.entrant? later.entered n = some txn →
          history.entrant? n = some txn ∨ txn.active = !txn.exclusive) ∧
        (later.txns = settled ∨ later.txns = settled.promote) := by
    rw [entered, List.append_nil]
    exact ⟨_, reaped now, fun n txn found => .inl (Transactions.reap_entrant found), reached⟩
  cases step with
  | start now started id timeout exclusive =>
      rcases Transactions.start_cases history.txns now started id timeout exclusive with ⟨e, refused⟩ | ⟨new, free, txn, begun⟩
      · refine settling now _ ?_ (.inl (congrArg Prod.snd refused))
        rw [step, TransactionStep.enters, refused]
        rfl
      · rw [step, TransactionStep.enters, TransactionStep.perform, begun]
        refine ⟨_, Transactions.insert_orderly _ _ (reaped now) _ new rfl free, ?_, .inr rfl⟩
        intro n other found
        rcases Transactions.insert_entrant found with rfl | held
        · exact .inr rfl
        · exact .inl (Transactions.reap_entrant held)
  | look now id =>
      refine settling now _ rfl (.inr ?_)
      rw [step, TransactionStep.perform, Transactions.look]
      split
      · rfl
      · rfl
  | finish now id =>
      have entered : (history.step (.finish now id)).entered = history.entered := List.append_nil _
      rw [entered, step, TransactionStep.perform, Transactions.finish]
      split
      · refine ⟨_, Transactions.remove_orderly _ _ (reaped now) id, ?_, .inr rfl⟩
        intro n txn found
        exact .inl (Transactions.reap_entrant (Transactions.remove_entrant found))
      · exact ⟨_, reaped now, fun n txn found => .inl (Transactions.reap_entrant found), .inl rfl⟩
  | get now id =>
      refine settling now _ rfl (.inr ?_)
      rw [step, TransactionStep.perform, Transactions.get]
      split
      · rfl
      · rfl
  | list now => exact settling now _ rfl (.inr rfl)

omit orderly in
theorem step_enters : (history.step step).entered = history.entered ∨
    (history.step step).entered.length = history.entered.length + 1 ∧
      ((history.step step).entrant? history.entered.length).isSome = true := by
  cases step with
  | start now started id timeout exclusive =>
      rw [step, TransactionStep.enters, TransactionStep.perform]
      rcases Transactions.start_cases history.txns now started id timeout exclusive with ⟨e, refused⟩ | ⟨-, -, txn, begun⟩
      · rw [refused]
        exact .inl (List.append_nil _)
      · rw [begun]
        refine .inr ⟨List.length_append, Transactions.promote_entrant_some.trans ?_⟩
        exact Option.isSome_of_eq_some (Transactions.entrant_new ⟨id, !exclusive, exclusive, timeout, started⟩)
  | _ => exact .inl (List.append_nil _)

-- An exclusive transaction that becomes active is the oldest of those that wait.
theorem step_reigns (n : Nat) (before : history.reigns n = false) (after : (history.step step).reigns n = true)
    (earlier : Nat) (less : earlier < n) : (history.step step).waits earlier = false := by
  obtain ⟨settled, settles, origin, reached⟩ := step_settles history orderly step
  obtain ⟨txn, found, reigning⟩ := (Option.any_eq_true _ _).mp after
  -- What has settled was active before, or is not exclusive or not active.
  have new : settled.entrant? (history.step step).entered n ≠ some txn := by
    intro held
    rcases origin n txn held with old | fresh
    · rw [(Option.any_eq_false _ _).mp before txn old] at reigning
      cases reigning
    · rw [fresh, Bool.and_not_self] at reigning
      cases reigning
  rw [entrant?] at found
  rcases reached with same | same
  · exact absurd (same ▸ found) new
  · rcases Transactions.promote_entrant settles (same ▸ found) with held | first
    · exact absurd held new
    · refine (Option.any_eq_false _ _).mpr fun other there => first earlier less other ?_
      rw [← same]
      exact there

omit step in
-- A transaction that lives waits or is active, and not two are that are active alone.
theorem live_waits_or_runs (n : Nat) (live : (history.entrant? n).isSome = true) :
    history.waits n = true ∨ history.runs n = true := by
  obtain ⟨txn, found⟩ := Option.isSome_iff_exists.mp live
  rw [waits, runs, found]
  cases active : txn.active with
  | true => exact .inr active
  | false =>
      obtain ⟨id, -, -, -, held⟩ := Transactions.entrant_some.mp found
      refine .inl ?_
      rw [Option.any_some, Transaction.pending, active, Bool.not_false, Bool.and_true]
      by_contra shared
      rw [orderly.shared id txn held (Bool.eq_false_iff.mpr shared)] at active
      cases active

omit step in
theorem reigns_alone (m n : Nat) (reigning : history.reigns n = true) (running : history.runs m = true) : m = n := by
  obtain ⟨txn, found, alone⟩ := (Option.any_eq_true _ _).mp reigning
  obtain ⟨other, found', active⟩ := (Option.any_eq_true _ _).mp running
  rw [Bool.and_eq_true] at alone
  obtain ⟨id, later, dropped, last, held⟩ := Transactions.entrant_some.mp found
  obtain ⟨id', later', dropped', last', held'⟩ := Transactions.entrant_some.mp found'
  obtain rfl := orderly.alone id txn held alone.1 alone.2 id' other held' active
  exact Transactions.entrants_apart dropped' last' dropped last

end Step

-- The transaction of the n-th start neither expires nor is finished while it waits.
def Patient (steps : List TransactionStep) (n : Nat) : Prop :=
  ∀ t < steps.length, (run (steps.take t)).waits n = true → ((run (steps.take (t + 1))).entrant? n).isSome = true

instance (steps : List TransactionStep) (n : Nat) : Decidable (Patient steps n) :=
  inferInstanceAs (Decidable (∀ t < steps.length, _))

theorem run_append (steps : List TransactionStep) (last : TransactionStep) : run (steps ++ [last]) = (run steps).step last :=
  List.foldl_append

theorem patient_before (steps : List TransactionStep) (last : TransactionStep) (n : Nat) (patient : Patient (steps ++ [last]) n) :
    Patient steps n := by
  intro t inside waiting
  have kept := patient t (by simp; omega)
  rw [List.take_append_of_le_length (Nat.le_of_lt inside), List.take_append_of_le_length inside] at kept
  exact kept waiting

theorem patient_last (steps : List TransactionStep) (last : TransactionStep) (n : Nat) (patient : Patient (steps ++ [last]) n)
    (waiting : (run steps).waits n = true) : (((run steps).step last).entrant? n).isSome = true := by
  have kept := patient steps.length (by simp)
  rw [List.take_left, List.take_of_length_le (by simp), run_append] at kept
  exact kept waiting

theorem take_before (steps : List TransactionStep) (last : TransactionStep) (n : Nat)
    (ran : ∃ t ≤ steps.length, (run (steps.take t)).runs n = true) :
    ∃ t < (steps ++ [last]).length, (run ((steps ++ [last]).take t)).runs n = true := by
  obtain ⟨t, inside, running⟩ := ran
  refine ⟨t, by simp; omega, ?_⟩
  rwa [List.take_append_of_le_length inside]

-- A transaction that nobody ends while it waits has had its turn or still waits.
theorem waits_or_ran (steps : List TransactionStep) (n : Nat) (patient : Patient steps n) (started : n < (run steps).entered.length) :
    (run steps).waits n = true ∨ ∃ t ≤ steps.length, (run (steps.take t)).runs n = true := by
  induction steps using List.reverseRecOn with
  | nil => cases started
  | append_singleton steps last ih =>
      have orderly := run_orderly (steps ++ [last])
      have now (live : ((run (steps ++ [last])).entrant? n).isSome = true) :
          (run (steps ++ [last])).waits n = true ∨
            ∃ t ≤ (steps ++ [last]).length, (run ((steps ++ [last]).take t)).runs n = true := by
        refine (live_waits_or_runs _ orderly n live).imp_right fun running => ⟨_, Nat.le_refl _, ?_⟩
        rwa [List.take_of_length_le (Nat.le_refl _)]
      rw [run_append] at started now ⊢
      have before (there : n < (run steps).entered.length) := ih (patient_before steps last n patient) there
      have onward (there : n < (run steps).entered.length) :
          ((run steps).step last).waits n = true ∨
            ∃ t ≤ (steps ++ [last]).length, (run ((steps ++ [last]).take t)).runs n = true := by
        rcases before there with waiting | ran
        · exact now (patient_last steps last n patient waiting)
        · obtain ⟨t, inside, running⟩ := take_before steps last n ran
          exact .inr ⟨t, Nat.le_of_lt inside, running⟩
      rcases step_enters (run steps) last with same | ⟨longer, live⟩
      · exact onward (same ▸ started)
      · by_cases there : n < (run steps).entered.length
        · exact onward there
        · obtain rfl : n = (run steps).entered.length := by omega
          exact now live

theorem reigned_in_order (steps : List TransactionStep) (first second : Nat) (order : first < second)
    (patient : Patient steps first) (reigning : (run steps).reigns second = true) :
    ∃ t < steps.length, (run (steps.take t)).runs first = true := by
  induction steps using List.reverseRecOn with
  | nil =>
      rw [reigns, entrant?, run, List.foldl_nil, opening, Transactions.entrant?, List.drop_nil] at reigning
      cases reigning
  | append_singleton steps last ih =>
      cases before : (run steps).reigns second with
      | true =>
          obtain ⟨t, inside, running⟩ := ih (patient_before steps last first patient) before
          exact take_before steps last first ⟨t, Nat.le_of_lt inside, running⟩
      | false =>
          have orderly := run_orderly (steps ++ [last])
          have started : first < (run (steps ++ [last])).entered.length := by
            obtain ⟨txn, found, -⟩ := (Option.any_eq_true _ _).mp reigning
            obtain ⟨id, later, dropped, -⟩ := Transactions.entrant_some.mp found
            have inside : second < (run (steps ++ [last])).entered.length := by
              by_contra outside
              rw [List.drop_of_length_le (Nat.le_of_not_lt outside)] at dropped
              cases dropped
            exact Nat.lt_trans order inside
          have passed : (run (steps ++ [last])).waits first = false := by
            rw [run_append] at reigning ⊢
            exact step_reigns _ (run_orderly steps) last second before reigning first order
          rcases waits_or_ran _ first patient started with waiting | ⟨t, inside, running⟩
          · rw [passed] at waiting
            cases waiting
          · refine ⟨t, Nat.lt_of_le_of_ne inside ?_, running⟩
            rintro rfl
            rw [List.take_of_length_le (Nat.le_refl _)] at running
            exact absurd (reigns_alone _ orderly first second reigning running) (Nat.ne_of_lt order)

theorem exclusive_in_starting_order (steps : List TransactionStep) :
    (∀ step n, (run steps).reigns n = false → ((run steps).step step).reigns n = true →
      ∀ earlier < n, ((run steps).step step).waits earlier = false) ∧
    ∀ first second, first < second → Patient steps first → (run steps).reigns second = true →
      ∃ t < steps.length, (run (steps.take t)).runs first = true :=
  ⟨fun step n before after earlier less => step_reigns _ (run_orderly steps) step n before after earlier less,
    fun first second order patient reigning => reigned_in_order steps first second order patient reigning⟩

-- Two exclusive transactions wait for a shared one, the one with the greater id first, and have their turns.
def queued : List TransactionStep :=
  [.start 0 0 ⟨1⟩ 0 false, .start 1 1 ⟨9⟩ 0 true, .start 2 2 ⟨4⟩ 0 true, .finish 3 ⟨1⟩, .finish 4 ⟨9⟩]

theorem greater_id_first : Patient queued 1 ∧ (run queued).reigns 2 = true ∧ (run queued).waits 1 = false ∧
    ∃ t < queued.length, (run (queued.take t)).runs 1 = true :=
  ⟨by decide, by decide,
    (exclusive_in_starting_order (queued.take 4)).1 (.finish 4 ⟨9⟩) 2 (by decide) (by decide) 1 (by decide),
    (exclusive_in_starting_order queued).2 1 2 (by decide) (by decide) (by decide)⟩

end TransactionHistory

end ShardQuery
