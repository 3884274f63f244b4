import Mathlib.Data.List.Pairwise
import ShardQuery.Proofs.Outcome
import ShardQuery.Proofs.Store.Replay
/-!
Imports that overlap. Main statements: every copy of a shard ends as a replay of the imports in the order in which it
took them, and a record has all copies as the log has it when the imports that touch the record do not overlap; two
that do can leave the copies apart.
-/

set_option autoImplicit false

namespace ShardQuery

-- Where one step of an import is made: at the copy of a node, under the lock of the node, or in the log.
inductive Place where
  | copy (node : NodeId)
  | log
deriving DecidableEq

def Place.take (place : Place) (store : Store) (entry : LogEntry) : Store :=
  match place with
  | .copy node => store.applyOn node entry.table entry.shard entry.updates
  | .log => store.record entry

-- Which call makes each next step, and where.
abbrev Trace (calls : List LogEntry) := List (Fin calls.length × Place)

namespace Trace

variable {calls : List LogEntry} (trace : Trace calls)

-- The calls in the order in which a place has them.
def order (place : Place) : List (Fin calls.length) := (trace.filter (·.2 == place)).map (·.1)

def taken (place : Place) : List LogEntry := (trace.order place).map calls.get

def steps (call : Fin calls.length) : List Place := (trace.filter (·.1 == call)).map (·.2)

-- The first call returns before the second begins.
def Precedes (first second : Fin calls.length) : Prop := trace.Pairwise fun a b => ¬(a.1 = second ∧ b.1 = first)

-- Of any two of the calls, one returns before the other begins.
def Apart (among : Fin calls.length → Bool) : Prop :=
  ∀ a b, among a = true → among b = true → a ≠ b → trace.Precedes a b ∨ trace.Precedes b a

instance (first second : Fin calls.length) : Decidable (trace.Precedes first second) :=
  inferInstanceAs (Decidable (List.Pairwise _ trace))

instance (among : Fin calls.length → Bool) : Decidable (trace.Apart among) :=
  inferInstanceAs (Decidable (∀ a b, among a = true → among b = true → a ≠ b → trace.Precedes a b ∨ trace.Precedes b a))

-- Whether the call updates the record.
def touches (table : TableId) (shard : ShardId) (id : RecordId) (call : Fin calls.length) : Bool :=
  !((calls.get call).updatesOf table shard id).isEmpty

end Trace

namespace Store

-- What a call asks before its first step.
def admits (store : Store) (entry : LogEntry) : Outcome (List NodeId) := do
  store.checkPlaced entry.shard entry.updates
  store.owners entry.shard

-- The places of a call's steps, one after the other. A call that is refused has none.
def places (store : Store) (entry : LogEntry) : List Place :=
  match store.admits entry with
  | .ok owners => owners.map .copy ++ [.log]
  | .error _ => []

variable {calls : List LogEntry}

-- All calls have returned, each with its steps in order.
def Interleaves (store : Store) (trace : Trace calls) : Prop := ∀ call, trace.steps call = store.places (calls.get call)

instance (store : Store) (trace : Trace calls) : Decidable (store.Interleaves trace) :=
  inferInstanceAs (Decidable (∀ call, trace.steps call = store.places (calls.get call)))

def run (store : Store) (trace : Trace calls) : Store :=
  trace.foldl (fun store turn => turn.2.take store (calls.get turn.1)) store

-- An import makes these steps and no others.
theorem import_places (store : Store) (entry : LogEntry) :
    store.importRows entry.table entry.shard entry.updates true =
      (store.admits entry).map fun _ => (store.places entry).foldl (fun store place => place.take store entry) store := by
  unfold importRows places admits
  cases store.checkPlaced entry.shard entry.updates with
  | error e => rfl
  | ok _ =>
      cases store.owners entry.shard with
      | error e => rfl
      | ok owners =>
          change Except.ok _ =
            Except.ok ((owners.map Place.copy ++ [Place.log]).foldl (fun store place => place.take store entry) store)
          rw [List.foldl_append, List.foldl_map]
          rfl

-- An import that another node forwards makes one of these steps.
theorem forwarded_place (store : Store) (entry : LogEntry) (node : NodeId) :
    store.importForwarded node entry.table entry.shard entry.updates = store.admits entry >>= fun owners =>
      if owners.contains node then .ok ((Place.copy node).take store entry) else .error (notHeld node entry.shard) := by
  unfold importForwarded admits
  cases store.checkPlaced entry.shard entry.updates with
  | error e => rfl
  | ok _ =>
      cases store.owners entry.shard with
      | error e => rfl
      | ok owners => rfl

theorem admits_iff (store : Store) (entry : LogEntry) (owners : List NodeId) :
    store.admits entry = .ok owners ↔ store.Fits entry ∧ owners = store.ring entry.shard := by
  constructor
  · intro admitted
    obtain ⟨_, checked, counted⟩ := ok_of_bind admitted
    have owned := owners_ring store _ owners counted
    rw [Store.owners] at counted
    split at counted
    · rename_i small
      exact ⟨⟨(check_placed_ok store _ _).mp checked, small⟩, owned⟩
    · cases counted
  · rintro ⟨fits, owned⟩
    rw [admits, (check_placed_ok store _ _).mpr fits.placed, owned]
    exact if_pos fits.counted

theorem mem_places (store : Store) (entry : LogEntry) (place : Place) : place ∈ store.places entry ↔
    store.Fits entry ∧ match place with
      | .copy node => node ∈ store.ring entry.shard
      | .log => True := by
  rw [places]
  cases admitted : store.admits entry with
  | error e =>
      refine iff_of_false nofun fun fits => ?_
      rw [(admits_iff store entry _).mpr ⟨fits.1, rfl⟩] at admitted
      cases admitted
  | ok owners =>
      obtain ⟨fits, rfl⟩ := (admits_iff store entry owners).mp admitted
      cases place with
      | copy node => simp [fits]
      | log => simp [fits]

theorem places_nodup (store : Store) (shaped : store.Shaped) (entry : LogEntry) : (store.places entry).Nodup := by
  rw [places]
  cases admitted : store.admits entry with
  | error e => exact List.nodup_nil
  | ok owners =>
      obtain ⟨-, rfl⟩ := (admits_iff store entry owners).mp admitted
      have copies := (ring_nodup store shaped entry.shard).map fun a b (same : Place.copy a = .copy b) => Place.copy.inj same
      exact copies.append (List.nodup_singleton _) (by simp)

end Store

namespace Trace

variable {calls : List LogEntry} (trace : Trace calls)

-- A place has a call as often as the call makes a step there.
theorem count_order (place : Place) (call : Fin calls.length) :
    (trace.order place).count call = (trace.steps call).count place := by
  rw [order, steps, List.count, List.count, List.countP_map, List.countP_map, List.countP_filter, List.countP_filter]
  refine List.countP_congr fun turn _ => ?_
  simp [and_comm]

theorem taken_cons (turn : Fin calls.length × Place) (rest : Trace calls) (place : Place) :
    taken (turn :: rest) place = (if turn.2 = place then [calls.get turn.1] else []) ++ rest.taken place := by
  rw [taken, order, List.filter_cons]
  by_cases here : turn.2 = place
  · rw [if_pos (beq_iff_eq.mpr here), if_pos here]
    rfl
  · rw [if_neg fun same => here (beq_iff_eq.mp same), if_neg here]
    rfl

section Interleaved

variable {store : Store} (shaped : store.Shaped) (whole : store.Interleaves trace) (place : Place)

include shaped whole

theorem order_count (call : Fin calls.length) :
    (trace.order place).count call = if place ∈ store.places (calls.get call) then 1 else 0 := by
  rw [count_order, whole call]
  exact List.Nodup.count (Store.places_nodup store shaped _)

theorem order_nodup : (trace.order place).Nodup := by
  refine List.nodup_iff_count_le_one.mpr fun call => ?_
  rw [order_count trace shaped whole]
  split
  · exact Nat.le_refl 1
  · exact Nat.zero_le 1

theorem mem_order (call : Fin calls.length) : call ∈ trace.order place ↔ place ∈ store.places (calls.get call) := by
  rw [← List.count_pos_iff, order_count trace shaped whole]
  split
  · rename_i among
    exact iff_of_true Nat.zero_lt_one among
  · rename_i missing
    exact iff_of_false (Nat.lt_irrefl 0) missing

-- A place has the calls that make a step there, each once.
theorem taken_perm : (trace.taken place).Perm (calls.filter fun entry => place ∈ store.places entry) := by
  have listed : (trace.order place).Perm ((List.finRange calls.length).filter fun call => place ∈ store.places (calls.get call)) := by
    refine (List.perm_ext_iff_of_nodup (order_nodup trace shaped whole place) ((List.nodup_finRange _).filter _)).mpr ?_
    intro call
    simp [mem_order trace shaped whole]
  have entries := listed.map calls.get
  rw [← Function.comp_def (fun entry => decide (place ∈ store.places entry)) calls.get, ← List.filter_map,
    List.map_get_finRange] at entries
  exact entries

end Interleaved

-- Of two calls of which one precedes the other, no place has the later one first.
theorem precedes_order {first second : Fin calls.length} (precedes : trace.Precedes first second) (place : Place) :
    (trace.order place).Pairwise fun a b => ¬(a = second ∧ b = first) :=
  List.pairwise_map.mpr (precedes.filter _)

-- Two calls with a step at one place cannot each precede the other.
theorem precedes_antisymm {place : Place} {a b : Fin calls.length} (among : a ∈ trace.order place)
    (among' : b ∈ trace.order place) (before : trace.Precedes a b) (after : trace.Precedes b a) : a = b := by
  by_contra different
  have neither := (precedes_order trace before place).and (precedes_order trace after place)
  have symmetric : Std.Symm fun x y : Fin calls.length => ¬(x = b ∧ y = a) ∧ ¬(x = a ∧ y = b) :=
    ⟨fun x y ⟨one, other⟩ => ⟨fun same => other same.symm, fun same => one same.symm⟩⟩
  exact (List.Pairwise.forall neither among among' different).2 ⟨rfl, rfl⟩

section Agreement

variable {among : Fin calls.length → Bool} {store : Store} (shaped : store.Shaped) (whole : store.Interleaves trace)
  (apart : trace.Apart among)

include shaped whole

theorem among_nodup (place : Place) : ((trace.order place).filter among).Nodup :=
  (order_nodup trace shaped whole place).filter _

include apart

theorem among_in_order (place : Place) : ((trace.order place).filter among).Pairwise trace.Precedes := by
  refine List.pairwise_iff_forall_sublist.mpr fun {a b} inside => ?_
  have different : a ≠ b := by simpa using (among_nodup trace shaped whole place).sublist inside
  have listed (call : Fin calls.length) (paired : call ∈ [a, b]) : among call = true :=
    (List.mem_filter.mp (inside.subset paired)).2
  rcases apart a b (listed a (.head _)) (listed b (.tail _ (.head _))) different with first | second
  · exact first
  · have order := (precedes_order trace second place).sublist (inside.trans List.filter_sublist)
    simp at order

-- Places that take the same of the calls take them in one order.
theorem same_order (place other : Place)
    (alike : ∀ call, among call = true →
      (place ∈ store.places (calls.get call) ↔ other ∈ store.places (calls.get call))) :
    (trace.order place).filter among = (trace.order other).filter among := by
  have same : ((trace.order place).filter among).Perm ((trace.order other).filter among) := by
    refine (List.perm_ext_iff_of_nodup (among_nodup trace shaped whole place)
      (among_nodup trace shaped whole other)).mpr fun call => ?_
    rw [List.mem_filter, List.mem_filter, mem_order trace shaped whole, mem_order trace shaped whole]
    exact and_congr_left (alike call)
  refine same.eq_of_pairwise ?_ (among_in_order trace shaped whole apart place)
    (among_in_order trace shaped whole apart other)
  intro a b taken taken' before after
  exact precedes_antisymm trace (List.mem_of_mem_filter taken) (List.mem_of_mem_filter (same.mem_iff.mpr taken'))
    before after

end Agreement

end Trace

theorem updates_for_concat (log later : List LogEntry) (table : TableId) (shard : ShardId) (id : RecordId) :
    updatesFor (log ++ later) table shard id = updatesFor log table shard id ++ updatesFor later table shard id :=
  List.flatMap_append

namespace Store

variable {calls : List LogEntry} (store : Store)

-- What one step makes of a record of a node.
theorem take_record (place : Place) (entry : LogEntry) (node : NodeId) (inside : node.index.toNat < store.partitions.length)
    (table : TableId) (shard : ShardId) (id : RecordId) :
    (place.take store entry).partitions.length = store.partitions.length ∧
      (records ((place.take store entry).partition node) table shard).get? id =
        Records.recordAfter ((records (store.partition node) table shard).get? id)
          (if place = .copy node then entry.updatesOf table shard id else []) := by
  cases place with
  | log => exact ⟨rfl, (Records.record_after_nil _).symm⟩
  | copy other =>
      refine ⟨List.length_modify _ _ _, ?_⟩
      rw [Place.take, partition_apply_on store other node _ _ _ inside]
      by_cases here : node = other
      · rw [if_pos here, if_pos (congrArg Place.copy here.symm), Partition.records_apply, LogEntry.updatesOf]
        by_cases own : table = entry.table ∧ shard = entry.shard
        · rw [if_pos own, if_pos ⟨own.1.symm, own.2.symm⟩, Records.get?_updateAll, own.1, own.2]
        · rw [if_neg own, if_neg fun same => own ⟨same.1.symm, same.2.symm⟩, Records.record_after_nil]
      · rw [if_neg here, if_neg fun same => here (Place.copy.inj same).symm, Records.record_after_nil]

theorem run_record (trace : Trace calls) (node : NodeId) (inside : node.index.toNat < store.partitions.length)
    (table : TableId) (shard : ShardId) (id : RecordId) :
    (records ((store.run trace).partition node) table shard).get? id =
      Records.recordAfter ((records (store.partition node) table shard).get? id)
        (updatesFor (trace.taken (.copy node)) table shard id) := by
  induction trace generalizing store with
  | nil => exact (Records.record_after_nil _).symm
  | cons turn rest ih =>
      obtain ⟨length, held⟩ := take_record store turn.2 (calls.get turn.1) node inside table shard id
      have first : updatesFor (if turn.2 = .copy node then [calls.get turn.1] else []) table shard id =
          if turn.2 = .copy node then (calls.get turn.1).updatesOf table shard id else [] := by
        split
        · exact List.append_nil _
        · rfl
      refine (ih (turn.2.take store (calls.get turn.1)) (length ▸ inside)).trans ?_
      rw [held, Trace.taken_cons, updates_for_concat, first, Records.record_after_append]

theorem run_log (trace : Trace calls) : (store.run trace).log = store.log ++ trace.taken .log := by
  induction trace generalizing store with
  | nil => exact (List.append_nil _).symm
  | cons turn rest ih =>
      obtain ⟨call, place⟩ := turn
      refine (ih (place.take store (calls.get call))).trans ?_
      rw [Trace.taken_cons]
      cases place with
      | copy node => rfl
      | log => exact List.append_assoc store.log [calls.get call] _

-- What a place has of a record comes of the calls that touch the record.
theorem updates_taken (trace : Trace calls) (place : Place) (table : TableId) (shard : ShardId) (id : RecordId) :
    updatesFor (trace.taken place) table shard id =
      ((trace.order place).filter (Trace.touches table shard id)).flatMap fun call =>
        (calls.get call).updatesOf table shard id := by
  rw [updatesFor, Trace.taken, List.flatMap_map]
  induction trace.order place with
  | nil => rfl
  | cons call rest ih =>
      rw [List.flatMap_cons, ih, List.filter_cons]
      split
      · rfl
      · rename_i untouched
        rw [Trace.touches, Bool.not_eq_true', Bool.not_eq_false, List.isEmpty_iff] at untouched
        rw [untouched, List.nil_append]

variable {store} in
theorem apart_updates {trace : Trace calls} (shaped : store.Shaped) (whole : store.Interleaves trace) {table : TableId}
    {shard : ShardId} {id : RecordId} (apart : trace.Apart (Trace.touches table shard id)) {node : NodeId}
    (owner : node ∈ store.ring shard) :
    updatesFor (trace.taken (.copy node)) table shard id = updatesFor (trace.taken .log) table shard id := by
  rw [updates_taken, updates_taken, Trace.same_order trace shaped whole apart (.copy node) .log]
  intro call touched
  have own : (calls.get call).shard = shard := by
    rw [Trace.touches, LogEntry.updatesOf] at touched
    split at touched
    · rename_i here
      exact here.2
    · cases touched
  rw [mem_places, mem_places, own]
  exact and_congr_right fun _ => iff_of_true owner trivial

-- What a replay makes of a record, on every owner.
theorem replay_record {nodes : UInt32} {replicas : Nat} {width fresh : UInt64} {log : List LogEntry}
    (fits : ∀ entry ∈ log, (make nodes replicas width fresh).Fits entry) :
    ∃ copy, (make nodes replicas width fresh).replay log = (.ok (), copy) ∧ copy.log = log ∧ copy.Shaped ∧
      (make nodes replicas width fresh).SameShape copy ∧ ∀ table shard id, ∀ node ∈ copy.ring shard,
        (records (copy.partition node) table shard).get? id = Records.recordAfter none (updatesFor log table shard id) := by
  obtain ⟨copy, replayed, logged, mirrors, shape⟩ := replay_mirrors _ log (make_mirrors nodes replicas width fresh) fits
  refine ⟨copy, replayed, logged, mirrors.shaped, shape, fun table shard id node owner => ?_⟩
  rw [mirrors.holding node (ring_inside copy mirrors.shaped shard node owner), if_pos owner, logged]
  rfl

theorem replayed_fits {nodes : UInt32} {replicas : Nat} {width fresh : UInt64} {earlier : List LogEntry} {opened : Store}
    (replayed : (make nodes replicas width fresh).replay earlier = (.ok (), opened)) :
    ∀ entry ∈ earlier, (make nodes replicas width fresh).Fits entry := by
  obtain ⟨begun, shape⟩ :=
    perform_all_mirrors _ opened [] _ (make_mirrors nodes replicas width fresh) (replay_performs _ opened earlier replayed)
  rw [written_imports, List.nil_append] at begun
  intro entry member
  exact fits_same_shape opened _ entry ⟨shape.nodes.symm, shape.replicas.symm, shape.width.symm⟩
    (begun.fits entry (.inr member))

theorem overlapping_imports_follow_orders (nodes : UInt32) (replicas : Nat) (width fresh later : UInt64)
    (earlier : List LogEntry) (store : Store) (opened : (make nodes replicas width fresh).replay earlier = (.ok (), store))
    (calls : List LogEntry) (trace : Trace calls) (whole : store.Interleaves trace) :
    (store.run trace).log = earlier ++ trace.taken .log ∧
    (∀ place, (trace.taken place).Perm (calls.filter fun entry => place ∈ store.places entry)) ∧
    (∀ node table shard, node ∈ store.ring shard → ∃ copy,
      (make nodes replicas width later).replay (earlier ++ trace.taken (.copy node)) = (.ok (), copy) ∧
      records ((store.run trace).partition node) table shard = records (copy.partition node) table shard) ∧
    ∃ copy, (make nodes replicas width later).replay (store.run trace).log = (.ok (), copy) ∧
      ∀ table shard id, trace.Apart (Trace.touches table shard id) →
        ∀ node ∈ store.ring shard, ∀ other ∈ store.ring shard,
          (records ((store.run trace).partition node) table shard).get? id =
            (records (copy.partition other) table shard).get? id := by
  obtain ⟨same, replayed, logged, shaped, shape, held⟩ := replay_record (replayed_fits opened)
  obtain rfl : store = same := congrArg Prod.snd (opened.symm.trans replayed)
  have log := run_log store trace
  rw [logged] at log
  have final (table : TableId) (shard : ShardId) (id : RecordId) (node : NodeId) (owner : node ∈ store.ring shard) :
      (records ((store.run trace).partition node) table shard).get? id =
        Records.recordAfter none (updatesFor (earlier ++ trace.taken (.copy node)) table shard id) := by
    have inside : node.index.toNat < store.partitions.length :=
      shaped.partitioned ▸ ring_inside store shaped shard node owner
    rw [run_record store trace node inside, held table shard id node owner, updates_for_concat,
      Records.record_after_append]
  have fits (place : Place) : ∀ entry ∈ earlier ++ trace.taken place, (make nodes replicas width later).Fits entry := by
    intro entry member
    rcases List.mem_append.mp member with before | new
    · exact fits_same_shape (make nodes replicas width fresh) _ entry ⟨rfl, rfl, rfl⟩ (replayed_fits opened entry before)
    · have makes := (List.mem_filter.mp ((Trace.taken_perm trace shaped whole place).subset new)).2
      exact fits_same_shape store _ entry ⟨shape.nodes.symm, shape.replicas.symm, shape.width.symm⟩
        ((mem_places store entry place).mp (of_decide_eq_true makes)).1
  -- What is replayed is on the same nodes.
  have rings (copy : Store) (alike : (make nodes replicas width later).SameShape copy) (shard : ShardId) :
      copy.ring shard = store.ring shard :=
    (same_shape_ring _ copy alike shard).symm.trans (same_shape_ring _ store shape shard)
  refine ⟨log, Trace.taken_perm trace shaped whole, fun node table shard owner => ?_, ?_⟩
  · obtain ⟨copy, again, -, -, alike, held'⟩ := replay_record (fits (.copy node))
    refine ⟨copy, again, SortedMap.ext _ _ fun id => ?_⟩
    rw [final table shard id node owner, held' table shard id node (rings copy alike shard ▸ owner)]
  · obtain ⟨copy, again, -, -, alike, held'⟩ := replay_record (fits .log)
    refine ⟨copy, log ▸ again, fun table shard id apart node owner other owner' => ?_⟩
    rw [final table shard id node owner, held' table shard id other (rings copy alike shard ▸ owner'), updates_for_concat,
      updates_for_concat, apart_updates shaped whole apart owner]

-- Two imports into one shard of two copies.
def bothImports (first second : RecordId) : List LogEntry :=
  [⟨⟨9⟩, 0, [⟨first, [], [("f", .int 1)]⟩]⟩, ⟨⟨9⟩, 0, [⟨second, [], [("f", .int 2)]⟩]⟩]

-- The second one is at both copies between the steps of the first.
def overtaking (first second : RecordId) : Trace (bothImports first second) :=
  let one : Fin (bothImports first second).length := ⟨0, Nat.zero_lt_two⟩
  let other : Fin (bothImports first second).length := ⟨1, Nat.one_lt_two⟩
  [(one, .copy ⟨0⟩), (other, .copy ⟨0⟩), (other, .copy ⟨1⟩), (one, .copy ⟨1⟩), (one, .log), (other, .log)]

theorem overtaking_elsewhere_agrees : (make 2 2 1048576 0).replay [] = (.ok (), make 2 2 1048576 0) ∧
    (make 2 2 1048576 0).Interleaves (overtaking 1 2) ∧
    (overtaking 1 2).Apart (Trace.touches ⟨9⟩ 0 1) ∧ (overtaking 1 2).Apart (Trace.touches ⟨9⟩ 0 2) ∧
    ∃ copy, (make 2 2 1048576 0).replay ((make 2 2 1048576 0).run (overtaking 1 2)).log = (.ok (), copy) ∧
      (records (((make 2 2 1048576 0).run (overtaking 1 2)).partition ⟨1⟩) ⟨9⟩ 0).get? 1 =
        (records (copy.partition ⟨0⟩) ⟨9⟩ 0).get? 1 ∧
      (records (((make 2 2 1048576 0).run (overtaking 1 2)).partition ⟨0⟩) ⟨9⟩ 0).get? 2 =
        (records (copy.partition ⟨1⟩) ⟨9⟩ 0).get? 2 := by
  have whole : (make 2 2 1048576 0).Interleaves (overtaking 1 2) := by decide +kernel
  have first : (overtaking 1 2).Apart (Trace.touches ⟨9⟩ 0 1) := by decide +kernel
  have second : (overtaking 1 2).Apart (Trace.touches ⟨9⟩ 0 2) := by decide +kernel
  obtain ⟨-, -, -, copy, replayed, agree⟩ := overlapping_imports_follow_orders 2 2 1048576 0 0 [] _ rfl _ _ whole
  refine ⟨rfl, whole, first, second, copy, replayed, ?_, ?_⟩
  · exact agree ⟨9⟩ 0 1 first ⟨1⟩ (by decide) ⟨0⟩ (by decide)
  · exact agree ⟨9⟩ 0 2 second ⟨0⟩ (by decide) ⟨1⟩ (by decide)

theorem overtaking_parts_copies : (make 2 2 1048576 0).Interleaves (overtaking 1 1) ∧
    ((make 2 2 1048576 0).run (overtaking 1 1)).readShard (some ⟨0⟩) ⟨9⟩ 0 ["_id", "f"] = .ok [⟨[.id 1, .int 2]⟩] ∧
    ((make 2 2 1048576 0).run (overtaking 1 1)).readShard (some ⟨1⟩) ⟨9⟩ 0 ["_id", "f"] = .ok [⟨[.id 1, .int 1]⟩] ∧
    ∃ copy, (make 2 2 1048576 0).replay ((make 2 2 1048576 0).run (overtaking 1 1)).log = (.ok (), copy) ∧
      copy.readShard (some ⟨1⟩) ⟨9⟩ 0 ["_id", "f"] = .ok [⟨[.id 1, .int 2]⟩] :=
  ⟨by decide +kernel, rfl, rfl, _, rfl, rfl⟩

end Store

end ShardQuery
