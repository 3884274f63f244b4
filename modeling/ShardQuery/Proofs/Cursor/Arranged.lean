import Mathlib.Data.List.Sigma
import ShardQuery.Proofs.Cursor.Answers
import ShardQuery.Proofs.Statement.Ordered
/-!
The order of sorted rows. Main statement: where the values of each sort key compare with each other, the sorted rows are
those of the child, come in the order of the keys, and come in the order they had where all their keys are equal.
-/

set_option autoImplicit false

namespace ShardQuery

namespace Value

def asMoment? : Value → Option Int64
  | .timestamp t => some t
  | _ => none

def asString? : Value → Option String
  | .string s => some s
  | _ => none

-- One order of all values, by their content as each kind. It says something only where values compare.
def standing : Value → Value → Ordering :=
  compareLex (compareOn asBool?) (compareLex (compareOn rational?) (compareLex (compareOn asMoment?) (compareOn asString?)))

instance : Std.TransCmp standing :=
  inferInstanceAs (Std.TransCmp (compareLex _ (compareLex _ (compareLex _ _))))

theorem standing_numbers {v w : Value} {n m : Scaled} (known : v.scaled? = some n) (known' : w.scaled? = some m) :
    standing v w = compare v.rational? w.rational? := by
  have others (u : Value) (k : Scaled) (known : u.scaled? = some k) :
      u.asBool? = none ∧ u.asMoment? = none ∧ u.asString? = none := by
    cases u with
    | int | id | decimal => exact ⟨rfl, rfl, rfl⟩
    | null | bool | string | timestamp | idSet | stringSet => cases known
  obtain ⟨noBool, noMoment, noString⟩ := others v n known
  obtain ⟨noBool', noMoment', noString'⟩ := others w m known'
  simp [standing, compareLex, compareOn, noBool, noBool', noMoment, noMoment', noString, noString']

theorem not_null_of_given {v : Value} (given : v.isNull = false) : v ≠ .null := by
  rintro rfl
  cases given

-- What compares with a number is a number.
theorem number_beside {v w : Value} {n : Scaled} {o : Ordering} (known : v.scaled? = some n) (given : w.isNull = false)
    (ordered : v.order? w = some o) : ∃ m, w.scaled? = some m := by
  have compared := (order_number v w n known (not_null_of_given given)).1
  obtain ⟨m, known', -⟩ := Option.bind_eq_some_iff.mp (compared.symm.trans ordered)
  exact ⟨m, known'⟩

theorem standing_of_order {v w : Value} {o : Ordering} (given : v.isNull = false) (given' : w.isNull = false)
    (ordered : v.order? w = some o) : o = standing v w := by
  have number {n : Scaled} (known : v.scaled? = some n) : o = standing v w := by
    obtain ⟨m, known'⟩ := number_beside known given' ordered
    have denoted : v.rational? = some n.rational := congrArg (Option.map _) known
    have denoted' : w.rational? = some m.rational := congrArg (Option.map _) known'
    rw [standing_numbers known known', order_numbers denoted denoted' ordered, denoted, denoted']
    rfl
  cases v with
  | null => cases given
  | int | id | decimal => exact number rfl
  | bool =>
      cases w with
      | bool =>
          cases ordered
          simp [standing, compareLex, compareOn, asBool?, rational?, scaled?, asMoment?, asString?]
          rfl
      | null => cases given'
      | int | id | decimal | string | timestamp | idSet | stringSet => cases ordered
  | string =>
      cases w with
      | string =>
          cases ordered
          simp [standing, compareLex, compareOn, asBool?, rational?, scaled?, asMoment?, asString?]
          rfl
      | null => cases given'
      | bool | int | id | decimal | timestamp | idSet | stringSet => cases ordered
  | timestamp =>
      cases w with
      | timestamp =>
          cases ordered
          simp [standing, compareLex, compareOn, asBool?, rational?, scaled?, asMoment?, asString?]
          rfl
      | null => cases given'
      | bool | int | id | decimal | string | idSet | stringSet => cases ordered
  | idSet | stringSet =>
      cases w with
      | null => cases given'
      | bool | int | id | decimal | string | timestamp | idSet | stringSet => cases ordered

-- A number is at a scale that a column can have.
def Narrow (v : Value) : Prop := ∀ number ∈ v.scaled?, number.scale ≤ DataType.maxScale

-- Null compares with everything, other values with those that they have an order with.
def Comparable (v w : Value) : Prop := v = .null ∨ w = .null ∨ (v.order? w).isSome ∧ v.Narrow ∧ w.Narrow

instance (v : Value) : Decidable v.Narrow := inferInstanceAs (Decidable (∀ number ∈ v.scaled?, _))

instance (v w : Value) : Decidable (v.Comparable w) := inferInstanceAs (Decidable (_ ∨ _))

theorem comparable_symm {v w : Value} (comparable : v.Comparable w) : w.Comparable v := by
  rcases comparable with null | null | ⟨ordered, narrow, narrow'⟩
  · exact .inr (.inl null)
  · exact .inl null
  · exact .inr (.inr ⟨by rwa [order_swapped, Option.isSome_map], narrow', narrow⟩)

end Value

namespace DataType

-- Types of values that compare.
def Together (type type' : DataType) : Prop :=
  type' = type ∨ (type.isNumeric = true ∧ type.scale ≤ maxScale) ∧ type'.isNumeric = true ∧ type'.scale ≤ maxScale

theorem uniform_together {types : List DataType} (together : types.Pairwise Together) : uniform types = true := by
  cases types with
  | nil => rfl
  | cons first rest =>
      have each : ∀ other ∈ rest, first.Together other := (List.pairwise_cons.mp together).1
      by_cases same : ∀ other ∈ rest, other = first
      · simpa [uniform] using .inl same
      · obtain ⟨other, member, different⟩ := by simpa using same
        obtain ⟨numeric, -⟩ := (each other member).resolve_left different
        have all : ∀ type ∈ first :: rest, type.isNumeric = true ∧ type.scale ≤ maxScale := by
          intro type member
          rcases List.mem_cons.mp member with rfl | member
          · exact numeric
          · rcases each type member with rfl | both
            · exact numeric
            · exact both.2
        rw [uniform, Bool.or_eq_true]
        refine .inr (List.all_eq_true.mpr fun type member => ?_)
        simp [comparable, numeric.1, (all type member).1, (all type member).2]

end DataType

namespace Value

theorem numeric_scale {v : Value} {type : DataType} {number : Scaled} (typed : v.dataType? = some type)
    (known : v.scaled? = some number) (narrow : v.Narrow) : type.isNumeric = true ∧ type.scale ≤ DataType.maxScale := by
  constructor
  · cases v with
    | int | id | decimal => cases typed; rfl
    | null | bool | string | timestamp | idSet | stringSet => cases known
  · rw [← scale_of_type typed known]
    exact narrow number known

theorem given_of_typed {v : Value} {type : DataType} (typed : v.dataType? = some type) : v.isNull = false := by
  cases v with
  | null => cases typed
  | bool | int | id | decimal | string | timestamp | idSet | stringSet => rfl

theorem comparable_types {v w : Value} {type type' : DataType} (comparable : v.Comparable w)
    (typed : v.dataType? = some type) (typed' : w.dataType? = some type') : type.Together type' := by
  rcases comparable with rfl | rfl | ⟨ordered, narrow, narrow'⟩
  · cases typed
  · cases typed'
  · obtain ⟨o, ordered⟩ := Option.isSome_iff_exists.mp ordered
    cases v with
    | null => cases typed
    | int | id | decimal =>
        obtain ⟨m, known'⟩ := number_beside rfl (given_of_typed typed') ordered
        exact .inr ⟨numeric_scale typed rfl narrow, numeric_scale typed' known' narrow'⟩
    | bool =>
        cases w with
        | bool => exact .inl (Option.some.inj (typed'.symm.trans typed))
        | null => cases typed'
        | int | id | decimal | string | timestamp | idSet | stringSet => cases ordered
    | string =>
        cases w with
        | string => exact .inl (Option.some.inj (typed'.symm.trans typed))
        | null => cases typed'
        | bool | int | id | decimal | timestamp | idSet | stringSet => cases ordered
    | timestamp =>
        cases w with
        | timestamp => exact .inl (Option.some.inj (typed'.symm.trans typed))
        | null => cases typed'
        | bool | int | id | decimal | string | idSet | stringSet => cases ordered
    | idSet | stringSet =>
        cases w with
        | null => cases typed'
        | bool | int | id | decimal | string | timestamp | idSet | stringSet => cases ordered

end Value

namespace SortKey

theorem uniform_comparable (keys : List SortKey) {listed : List (List Value)}
    (comparable : listed.Pairwise (List.Forall₂ Value.Comparable)) : uniform keys listed = true := by
  refine List.all_eq_true.mpr fun i _ => DataType.uniform_together (comparable.filterMap _ ?_)
  intro as bs each type found type' found'
  obtain ⟨v, held, typed⟩ := Option.bind_eq_some_iff.mp found
  obtain ⟨w, held', typed'⟩ := Option.bind_eq_some_iff.mp found'
  obtain ⟨w', also, compares⟩ := forall₂_at each i v held
  cases held'.symm.trans also
  exact Value.comparable_types compares typed typed'

-- The order that a key puts all values in.
def standing (sortKey : SortKey) : Value → Value → Ordering :=
  compareLex (compareOn fun v => !v.isNull)
    (if sortKey.descending then fun v w => Value.standing w v else Value.standing)

instance (sortKey : SortKey) : Std.TransCmp sortKey.standing := by
  unfold standing
  cases sortKey.descending with
  | true =>
      have : Std.TransCmp fun v w => Value.standing w v := Std.TransCmp.opposite
      exact inferInstanceAs (Std.TransCmp (compareLex _ fun v w => Value.standing w v))
  | false => exact inferInstanceAs (Std.TransCmp (compareLex _ Value.standing))

-- A value stands beside itself, also where it does not compare with itself.
theorem order_standing {v w : Value} (given : v.isNull = false) (given' : w.isNull = false)
    (comparable : v.Comparable w ∨ v = w) : (v.order? w).getD .eq = Value.standing v w := by
  cases ordered : v.order? w with
  | some o => exact Value.standing_of_order given given' ordered
  | none =>
      rcases comparable with (rfl | rfl | ⟨known, -⟩) | rfl
      · cases given
      · cases given'
      · rw [ordered] at known
        cases known
      · exact Std.ReflCmp.compare_self.symm

theorem compare_standing (sortKey : SortKey) {v w : Value} (comparable : v.Comparable w ∨ v = w) :
    sortKey.compareValues v w = sortKey.standing v w := by
  have swapped : Value.standing w v = (Value.standing v w).swap := Std.OrientedCmp.eq_swap
  cases given : v.isNull with
  | true =>
      cases given' : w.isNull with
      | true =>
          obtain rfl := Value.null_of_is_null given
          obtain rfl := Value.null_of_is_null given'
          rw [compareValues]
          exact Std.ReflCmp.compare_self.symm
      | false =>
          simp only [compareValues, standing, compareLex, compareOn, given, given']
          rfl
  | false =>
      cases given' : w.isNull with
      | true =>
          simp only [compareValues, standing, compareLex, compareOn, given, given']
          rfl
      | false =>
          simp only [compareValues, standing, compareLex, compareOn, given, given', order_standing given given' comparable]
          cases sortKey.descending with
          | true => exact swapped.symm
          | false => rfl

def standings : List SortKey → List Value → List Value → Ordering
  | [], _, _ => .eq
  | sortKey :: keys, as, bs =>
      (sortKey.standing (as.headD .null) (bs.headD .null)).then (standings keys as.tail bs.tail)

theorem standings_trans (keys : List SortKey) : Std.TransCmp (standings keys) := by
  induction keys with
  | nil => exact { eq_swap := rfl, isLE_trans := fun _ _ => rfl }
  | cons sortKey keys ih =>
      have := trans_cmp_on sortKey.standing fun values : List Value => values.headD .null
      have := trans_cmp_on (standings keys) List.tail
      exact inferInstanceAs (Std.TransCmp (compareLex
        (fun as bs : List Value => sortKey.standing (as.headD .null) (bs.headD .null))
        fun as bs => standings keys as.tail bs.tail))

theorem compare_standings (keys : List SortKey) {as bs : List Value}
    (comparable : List.Forall₂ (fun v w => v.Comparable w ∨ v = w) as bs) :
    compareAll keys as bs = standings keys as bs := by
  induction keys generalizing as bs with
  | nil => simp [compareAll, standings]
  | cons sortKey keys ih =>
      cases comparable with
      | nil =>
          have := standings_trans (sortKey :: keys)
          exact Std.ReflCmp.compare_self.symm
      | cons first rest => rw [compareAll, standings, compare_standing sortKey first, ih rest]; rfl

-- A value comes before another one: nulls first, and the others in the direction of the key.
inductive Before (sortKey : SortKey) : Value → Value → Prop
  | null {w : Value} (given : w ≠ .null) : Before sortKey .null w
  | ascending {v w : Value} (given : v ≠ .null) (direction : sortKey.descending = false)
      (less : v.order? w = some .lt) : Before sortKey v w
  | descending {v w : Value} (given : w ≠ .null) (direction : sortKey.descending = true)
      (greater : v.order? w = some .gt) : Before sortKey v w

-- The first key that tells the values apart decides.
inductive KeysBefore : List SortKey → List Value → List Value → Prop
  | here {sortKey : SortKey} {keys : List SortKey} {v w : Value} {vs ws : List Value} (before : sortKey.Before v w) :
      KeysBefore (sortKey :: keys) (v :: vs) (w :: ws)
  | behind {sortKey : SortKey} {keys : List SortKey} {v w : Value} {vs ws : List Value} (equal : v.order? w = some .eq)
      (rest : KeysBefore keys vs ws) : KeysBefore (sortKey :: keys) (v :: vs) (w :: ws)

def KeysEqual : List Value → List Value → Prop := List.Forall₂ fun v w => v.order? w = some .eq

theorem compare_values_meaning (sortKey : SortKey) {v w : Value} (comparable : v.Comparable w) :
    (sortKey.compareValues v w = .lt → sortKey.Before v w) ∧
      (sortKey.compareValues v w = .eq → v.order? w = some .eq) := by
  rw [compareValues]
  cases given : v.isNull with
  | true =>
      obtain rfl := Value.null_of_is_null given
      cases given' : w.isNull with
      | true =>
          obtain rfl := Value.null_of_is_null given'
          simp [Value.order?]
      | false => simpa using .null (Value.not_null_of_given given')
  | false =>
      cases given' : w.isNull with
      | true => simp
      | false =>
          have known := comparable.resolve_left (Value.not_null_of_given given) |>.resolve_left (Value.not_null_of_given given') |>.1
          obtain ⟨o, ordered⟩ := Option.isSome_iff_exists.mp known
          simp only [ordered, Option.getD_some]
          cases direction : sortKey.descending with
          | true =>
              constructor
              · intro less
                obtain rfl : o = .gt := by simpa using less
                exact .descending (Value.not_null_of_given given') direction ordered
              · intro equal
                obtain rfl : o = .eq := by simpa using equal
                rfl
          | false =>
              constructor
              · intro less
                obtain rfl : o = .lt := by simpa using less
                exact .ascending (Value.not_null_of_given given) direction ordered
              · intro equal
                obtain rfl : o = .eq := by simpa using equal
                rfl

theorem compare_all_meaning {keys : List SortKey} {as bs : List Value} (sized : as.length = keys.length)
    (comparable : List.Forall₂ Value.Comparable as bs) :
    (compareAll keys as bs = .lt → KeysBefore keys as bs) ∧ (compareAll keys as bs = .eq → KeysEqual as bs) := by
  induction comparable generalizing keys with
  | nil =>
      obtain rfl : keys = [] := List.length_eq_zero_iff.mp sized.symm
      simp [compareAll, KeysEqual]
  | @cons v w vs ws first _ ih =>
      cases keys with
      | nil => cases sized
      | cons sortKey keys =>
          obtain ⟨before, equal⟩ := compare_values_meaning sortKey first
          obtain ⟨before', equal'⟩ := ih (Nat.succ.inj sized)
          rw [compareAll]
          constructor
          · intro less
            rcases Ordering.then_eq_lt.mp less with less | ⟨same, less⟩
            · exact .here (before less)
            · exact .behind (equal same) (before' less)
          · intro same
            obtain ⟨same, rest⟩ := Ordering.then_eq_eq.mp same
            exact .cons (equal same) (equal' rest)

-- Downwards the null still comes first, and equal numbers of two types are equal keys.
example : compareAll [⟨.column 0, true⟩] [.null] [.int 2] = .lt ∧
    compareAll [⟨.column 0, true⟩] [.int 2] [.decimal 15 1] = .lt ∧
    compareAll [⟨.column 0, true⟩] [.int 2] [.decimal 200 2] = .eq := by decide

-- A row with its keys, and the position it had.
abbrev Placed := (List Value × Row) × Nat

-- Rows come in the order of their keys, and those with equal keys in the order they had.
def InPlace (keys : List SortKey) (a b : Placed) : Prop :=
  KeysBefore keys a.1.1 b.1.1 ∨ KeysEqual a.1.1 b.1.1 ∧ a.2 < b.2

-- Keys that compare, or that are the same.
def Beside (a b : List Value × Row) : Prop := List.Forall₂ (fun v w => v.Comparable w ∨ v = w) a.1 b.1

instance : Std.Symm Beside where
  symm _ _ each := each.flip.imp fun _ _ either => either.imp Value.comparable_symm Eq.symm

def noLater (keys : List SortKey) (a b : List Value × Row) : Bool := (standings keys a.1 b.1).isLE

theorem no_later_trans (keys : List SortKey) (a b c : List Value × Row) (first : noLater keys a b = true)
    (second : noLater keys b c = true) : noLater keys a c = true :=
  (standings_trans keys).isLE_trans first second

theorem no_later_total (keys : List SortKey) (a b : List Value × Row) : (noLater keys a b || noLater keys b a) = true := by
  have swapped : standings keys b.1 a.1 = (standings keys a.1 b.1).swap := (standings_trans keys).eq_swap
  simp only [noLater, swapped]
  cases standings keys a.1 b.1 <;> rfl

-- The test that rows are sorted by agrees on them with a linear one.
theorem sorts_by_standings (keys : List SortKey) {keyed : List (List Value × Row)}
    (comparable : keyed.Pairwise fun a b => List.Forall₂ Value.Comparable a.1 b.1) :
    (keyed.mergeSort fun a b => compareAll keys a.1 b.1 != .gt) = keyed.mergeSort (noLater keys) := by
  have self : ∀ a ∈ keyed, Beside a a := fun a _ => List.forall₂_same.mpr fun v _ => .inr rfl
  have all := List.Pairwise.forall_of_forall self (comparable.imp fun each => each.imp fun _ _ => .inl)
  have agrees : ∀ a ∈ keyed, ∀ b ∈ keyed, (compareAll keys a.1 b.1 != .gt) = noLater keys a b := by
    intro a member b member'
    rw [compare_standings keys (all member member'), noLater]
    cases standings keys a.1 b.1 <;> rfl
  simpa using List.map_mergeSort (f := id) (s := noLater keys) agrees

theorem in_place_of_standings {keys : List SortKey} {a b : Placed}
    (sized : a.1.1.length = keys.length) (comparable : List.Forall₂ Value.Comparable a.1.1 b.1.1) (apart : a.2 ≠ b.2)
    (sorted : List.zipIdxLE (noLater keys) a b = true) :
    InPlace keys a b := by
  obtain ⟨before, equal⟩ := compare_all_meaning sized comparable
  rw [compare_standings keys (comparable.imp fun _ _ => .inl)] at before equal
  have swapped : standings keys b.1.1 a.1.1 = (standings keys a.1.1 b.1.1).swap := (standings_trans keys).eq_swap
  rw [List.zipIdxLE, noLater, noLater, swapped] at sorted
  cases order : standings keys a.1.1 b.1.1 with
  | lt => exact .inl (before order)
  | eq =>
      rw [order] at sorted
      exact .inr ⟨equal order, Nat.lt_of_le_of_ne (by simpa using sorted) apart⟩
  | gt =>
      rw [order] at sorted
      cases sorted

theorem arrange_in_place (keys : List SortKey) (keyed : List (List Value × Row))
    (sized : ∀ entry ∈ keyed, entry.1.length = keys.length)
    (comparable : keyed.Pairwise fun a b => List.Forall₂ Value.Comparable a.1 b.1) :
    ∃ placed : List Placed, placed.Perm keyed.zipIdx ∧ arrange keys keyed = some (placed.map (·.1)) ∧
      placed.Pairwise (InPlace keys) := by
  have perm := List.mergeSort_perm keyed.zipIdx (List.zipIdxLE (noLater keys))
  refine ⟨keyed.zipIdx.mergeSort (List.zipIdxLE (noLater keys)), perm, ?_, ?_⟩
  · rw [arrange, if_pos (uniform_comparable keys (List.pairwise_map.mpr comparable)), sorts_by_standings keys comparable,
      List.mergeSort_zipIdx]
  · have compares : keyed.zipIdx.Pairwise fun a b => List.Forall₂ Value.Comparable a.1.1 b.1.1 := by
      rw [← List.zipIdx_map_fst 0 keyed, List.pairwise_map] at comparable
      exact comparable
    have apart : keyed.zipIdx.Pairwise fun a b => a.2 ≠ b.2 := List.pairwise_map.mp (List.nodup_zipIdx_map_snd keyed)
    have compares' := (perm.pairwise_iff fun each => each.flip.imp fun _ _ => Value.comparable_symm).mpr compares
    have apart' := (perm.pairwise_iff Ne.symm).mpr apart
    have sorted := List.pairwise_mergeSort (List.zipIdxLE_trans (no_later_trans keys))
      (List.zipIdxLE_total (no_later_total keys)) keyed.zipIdx
    refine ((compares'.and apart').and sorted).imp_of_mem fun {a b} member _ all => ?_
    have here := sized _ (List.fst_mem_of_mem_zipIdx (perm.mem_iff.mp member))
    exact in_place_of_standings here all.1.1 all.1.2 all.2

theorem keyed_rows {keys : List SortKey} {seed : Option Row} {rows : List Row} {keyed : List (List Value × Row)}
    (evaluated : rows.mapM (SortKey.keyed keys seed) = .ok keyed) :
    (∀ entry ∈ keyed, entry.1.length = keys.length) ∧ keyed.map (·.2) = rows := by
  have each : List.Forall₂ (fun row entry => entry.1.length = keys.length ∧ entry.2 = row) rows keyed := by
    refine (map_m_ok_iff.mp evaluated).imp fun row entry done => ?_
    obtain ⟨values, valued, done⟩ := ok_of_bind done
    cases done
    exact ⟨(map_m_ok_iff.mp valued).length_eq.symm, rfl⟩
  constructor
  · intro entry member
    obtain ⟨_, -, sized, -⟩ := forall₂_origin each entry member
    exact sized
  · rw [← List.forall₂_eq_eq_eq, List.forall₂_map_left_iff]
    exact each.flip.imp fun _ _ both => both.2

end SortKey

namespace Source

variable {σ τ : Type}

-- What is gathered is handed out row by row.
theorem drain_stock (start : Context → Engine → Outcome τ) (gather : Context → τ → Engine → Gathering τ) (close : τ → τ)
    (spillFiles : τ → Nat) (ctx : Context) (t : τ) (rows : List Row) (engine : Engine) :
    (gathered start gather close spillFiles).drain ctx (t, some rows) engine = ⟨.ok rows, (close t, some []), engine⟩ := by
  induction rows with
  | nil => rw [drain_eq]; rfl
  | cons row rows ih =>
      have pulled : (gathered start gather close spillFiles).pull ctx (t, some (row :: rows)) engine =
          ⟨.row row, (t, some rows), engine⟩ := rfl
      rw [drain_row pulled, ih]
      rfl

theorem drain_gathered {start : Context → Engine → Outcome τ} {gather : Context → τ → Engine → Gathering τ}
    {close : τ → τ} {spillFiles : τ → Nat} {ctx : Context} {t left : τ} {rows : List Row} {engine later : Engine}
    (gathers : gather ctx t engine = (.ok rows, left, later)) :
    (gathered start gather close spillFiles).drain ctx (t, none) engine = ⟨.ok rows, (close left, some []), later⟩ := by
  rw [← drain_stock start gather close spillFiles ctx left rows later]
  refine drain_congr ?_
  simp only [gathered, gathers]

theorem sorted_drains_in_order (child : Source σ) (keys : List SortKey) (seed : Option Row) (ctx : Context)
    (engine later : Engine) (s : σ) (rows : List Row) (keyed : List (List Value × Row))
    (started : child.start ctx engine = .ok s) (drained : (child.drain ctx s later).rows = .ok rows)
    (live : ctx.check (child.drain ctx s later).engine.clock = .ok ())
    (evaluated : rows.mapM (SortKey.keyed keys seed) = .ok keyed)
    (comparable : keyed.Pairwise fun a b => List.Forall₂ Value.Comparable a.1 b.1) :
    (sorted child keys seed).start ctx engine = .ok (s, none) ∧
      ∃ placed : List SortKey.Placed, placed.Perm keyed.zipIdx ∧ placed.Pairwise (SortKey.InPlace keys) ∧
        (placed.map (·.1.2)).Perm rows ∧
        ((sorted child keys seed).drain ctx (s, none) later).rows = .ok (placed.map (·.1.2)) ∧
        ((sorted child keys seed).drain ctx (s, none) later).engine = (child.drain ctx s later).engine := by
  obtain ⟨sized, own⟩ := SortKey.keyed_rows evaluated
  obtain ⟨placed, perm, arranged, inPlace⟩ := SortKey.arrange_in_place keys keyed sized comparable
  have sorts : SortKey.sort keys keyed = .ok (placed.map (·.1.2)) := by
    simp only [SortKey.sort, arranged, List.map_map, Function.comp_def]
  have gathers : ((child.drain ctx s later).rows >>= fun rows => rows.mapM (SortKey.keyed keys seed) >>= fun keyed =>
      ctx.check (child.drain ctx s later).engine.clock >>= fun _ => SortKey.sort keys keyed) = .ok (placed.map (·.1.2)) :=
    bind_of_ok drained (bind_of_ok evaluated (bind_of_ok live sorts))
  have handed : (sorted child keys seed).drain ctx (s, none) later =
      ⟨.ok (placed.map (·.1.2)), _, (child.drain ctx s later).engine⟩ := drain_gathered (Prod.ext gathers rfl)
  refine ⟨?_, placed, perm, inPlace, ?_, by rw [handed], by rw [handed]⟩
  · change (child.start ctx engine).map (·, none) = _
    rw [started]
    rfl
  · rw [← own]
    simpa [List.zipIdx_map_fst, Function.comp_def] using (perm.map Prod.fst).map Prod.snd

-- Numbers of two types, and a null, from the highest down.
def scoredRows : List Row :=
  [⟨[.int 2, .string "x"]⟩, ⟨[.null, .string "n"]⟩, ⟨[.decimal 15 1, .string "y"]⟩, ⟨[.decimal 200 2, .string "a"]⟩]

def scoreKeys : List SortKey := [⟨.column 0, true⟩]

def scoredEntries : List (List Value × Row) := List.zip [[.int 2], [.null], [.decimal 15 1], [.decimal 200 2]] scoredRows

theorem scored_rows_in_order :
    let engine := Engine.make .standard 1
    let child := listing fun _ _ => .ok scoredRows
    let drained := child.drain (.of "main") ((), none) engine
    child.start (.of "main") engine = .ok ((), none) ∧ drained.rows = .ok scoredRows ∧
      (Context.of "main").check drained.engine.clock = .ok () ∧
      scoredRows.mapM (SortKey.keyed scoreKeys none) = .ok scoredEntries ∧
      (scoredEntries.Pairwise fun a b => List.Forall₂ Value.Comparable a.1 b.1) ∧
      ∃ placed : List SortKey.Placed, placed.Perm scoredEntries.zipIdx ∧ placed.Pairwise (SortKey.InPlace scoreKeys) ∧
        ((sorted child scoreKeys none).drain (.of "main") (((), none), none) engine).rows = .ok (placed.map (·.1.2)) := by
  intro engine child drained
  have live : (Context.of "main").check engine.clock = .ok () := rfl
  have answers : child.Answers (.of "main") engine scoredRows := listing_answers _ live fun _ _ => rfl
  obtain ⟨s, started, yields⟩ := answers engine (Engine.alike_refl engine)
  cases started
  obtain ⟨t, later, same, kept⟩ := drain_yields yields (Engine.alike_refl engine)
  have handed : drained.rows = .ok scoredRows := congrArg Drained.rows same
  have live' : (Context.of "main").check drained.engine.clock = .ok () := rfl
  have evaluated : scoredRows.mapM (SortKey.keyed scoreKeys none) = .ok scoredEntries := rfl
  have comparable : scoredEntries.Pairwise fun a b => List.Forall₂ Value.Comparable a.1 b.1 := by decide
  obtain ⟨-, placed, perm, inPlace, -, sorts, -⟩ := sorted_drains_in_order child scoreKeys none (.of "main") engine engine
    ((), none) scoredRows scoredEntries rfl handed live' evaluated comparable
  exact ⟨rfl, handed, live', evaluated, comparable, placed, perm, inPlace, sorts⟩

end Source

end ShardQuery
