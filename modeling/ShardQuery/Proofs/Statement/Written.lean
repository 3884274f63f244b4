import ShardQuery.Proofs.Engine.Apart
import ShardQuery.Proofs.Statement.Inserted
import ShardQuery.Proofs.Store.Updated
/-!
The rows that an insertion writes. Main statements: they are evaluated exactly if every value of every row can be, and
the update of a row makes of its record what the row says, where the columns have keys of their own.
-/

set_option autoImplicit false

namespace ShardQuery

-- A row with its values evaluated, of which one is the record id.
structure WrittenRow where
  id : RecordId
  values : List (String × Value)

namespace Fields

-- What a row leaves of the fields of its record: values are set, nulls removed, and the others kept.
def write (fields : Fields) (values : List (String × Value)) : Fields := values.foldl set fields

theorem set_own {item : String × Value} (fields : Fields) (own : Text.same item.1 idColumn = true) :
    fields.set item = fields := if_pos own

theorem set_other {item : String × Value} (fields : Fields) (field : Text.same item.1 idColumn = false) :
    fields.set item =
      fun key => if key = Text.lower item.1 then (if item.2.isNull then none else some item.2) else fields key :=
  if_neg (Bool.eq_false_iff.mp field)

theorem set_comm (fields : Fields) (a b : String × Value) (apart : Text.lower a.1 ≠ Text.lower b.1) :
    (fields.set a).set b = (fields.set b).set a := by
  cases own : Text.same a.1 idColumn with
  | true => rw [set_own _ own, set_own _ own]
  | false =>
      cases own' : Text.same b.1 idColumn with
      | true => rw [set_own _ own', set_own _ own']
      | false =>
          rw [set_other _ own', set_other _ own, set_other _ own, set_other _ own']
          funext key
          dsimp only
          by_cases here : key = Text.lower b.1
          · have other : key ≠ Text.lower a.1 := fun there => apart (there.symm.trans here)
            rw [if_pos here, if_neg other, if_pos here]
          · rw [if_neg here, if_neg here]

theorem write_comm (fields : Fields) (values : List (String × Value)) (item : String × Value)
    (apart : ∀ other ∈ values, Text.lower other.1 ≠ Text.lower item.1) :
    (fields.set item).write values = (fields.write values).set item := by
  induction values generalizing fields with
  | nil => rfl
  | cons other values ih =>
      obtain ⟨first, rest⟩ := List.forall_mem_cons.mp apart
      change ((fields.set item).set other).write values = ((fields.set other).write values).set item
      rw [set_comm fields item other (Ne.symm first), ih _ rest]

-- A name that is cleared last might as well be set to null.
theorem clear_append (fields : Fields) {item : String × Value} (names : List String)
    (field : Text.same item.1 idColumn = false) (none : item.2.isNull = true) :
    fields.clear (names ++ [item.1]) = (fields.clear names).set item := by
  rw [set_other _ field, if_pos none]
  funext key
  rw [clear, clear, List.map_append, List.map_singleton]
  by_cases here : key = Text.lower item.1
  · rw [if_pos here, if_pos (here ▸ List.mem_append_right _ List.mem_cons_self)]
  · rw [if_neg here]
    simp [here]

end Fields

namespace ShardContent

def write (content : ShardContent) (row : WrittenRow) : ShardContent :=
  content.put row.id (some (((content row.id).getD .blank).write row.values))

end ShardContent

-- An update that makes of its record what a row says.
structure RowUpdate.Carries (change : RowUpdate) (row : WrittenRow) : Prop where
  id : change.id = row.id
  stays : change.removesRecord = false
  values : ∀ fields : Fields, (fields.clear change.clear).write change.set = fields.write row.values

theorem ShardContent.taken_carried {change : RowUpdate} {row : WrittenRow} (carries : change.Carries row)
    (content : ShardContent) : content.taken change = content.write row := by
  have kept : change.purges = false := by rw [RowUpdate.purges, carries.stays, Bool.false_and]
  rw [taken, misses, kept, Bool.false_and, if_neg Bool.false_ne_true, meant, RowUpdate.meant, kept,
    if_neg Bool.false_ne_true, carries.stays, if_neg Bool.false_ne_true, carries.id, write]
  exact congrArg (content.put row.id ∘ some) (carries.values _)

namespace ShardContent

theorem take_all_carried {changes : List RowUpdate} {rows : List WrittenRow}
    (carry : List.Forall₂ RowUpdate.Carries changes rows) (content : ShardContent) :
    changes.foldl taken content = rows.foldl write content := by
  induction carry generalizing content with
  | nil => rfl
  | cons first _ ih => rw [List.foldl_cons, List.foldl_cons, taken_carried first, ih]

-- What is written to a record goes by what there was of it and by the rows with its id.
theorem write_all_own (rows : List WrittenRow) (content : ShardContent) (id : RecordId) :
    rows.foldl write content id =
      (rows.filter (·.id == id)).foldl (fun fields row => some ((fields.getD .blank).write row.values)) (content id) := by
  induction rows generalizing content with
  | nil => rfl
  | cons row rows ih =>
      rw [List.foldl_cons, ih, write, put]
      by_cases own : row.id = id
      · rw [if_pos own.symm, List.filter_cons_of_pos (by simp [own]), List.foldl_cons, own]
      · rw [if_neg (Ne.symm own), List.filter_cons_of_neg (by simp [own])]

theorem write_all_alike {rows rows' : List WrittenRow} {content content' : ShardContent} {id : RecordId}
    (same : content id = content' id) (own : rows.filter (·.id == id) = rows'.filter (·.id == id)) :
    rows.foldl write content id = rows'.foldl write content' id := by
  rw [write_all_own, write_all_own, same, own]

end ShardContent

theorem RowUpdate.carry_filter {changes : List RowUpdate} {rows : List WrittenRow}
    (carry : List.Forall₂ Carries changes rows) (keep : RecordId → Bool) :
    List.Forall₂ Carries (changes.filter (keep ·.id)) (rows.filter (keep ·.id)) := by
  induction carry with
  | nil => exact .nil
  | @cons change row changes rows first _ ih =>
      rw [List.filter_cons, List.filter_cons, first.id]
      split
      · exact .cons first ih
      · exact ih

-- An error that is told, and no step without a result.
def EngineError.Told (e : EngineError) : Prop := ∀ cause, e ≠ .brokeOff cause

theorem Value.coerce_told (v : Value) (target : DataType) :
    Comes (fun _ => True) EngineError.Told (v.coerce target) := by
  rw [coerce]
  split
  · trivial
  · intro cause broke
    cases broke

namespace PlanExpr

-- An expression on a row has a value, or tells what is wrong with it.
abbrev Evaluates (x : Outcome Value) : Prop := Comes (fun _ => True) EngineError.Told x

theorem truth_told (v : Value) : Comes (fun _ => True) EngineError.Told (truth v) := by
  cases v with
  | null | bool => trivial
  | _ => exact fun _ => nofun

theorem arithmetic_told (op : BinaryOp) (left right : Value) : Evaluates (arithmetic op left right) := by
  rw [arithmetic]
  split
  · dsimp only
    split
    · trivial
    · exact fun _ => nofun
  · exact fun _ => nofun

theorem apply_told (op : BinaryOp) (left right : Value) : Evaluates (apply op left right) := by
  rw [apply]
  split
  · trivial
  · split
    · rw [compare]
      split
      · trivial
      · exact fun _ => nofun
    · exact arithmetic_told op left right

theorem eval_told (row : Row) (outer : Option Row) (e : PlanExpr) : Evaluates (eval row outer e) := by
  induction e with
  | column i =>
      rw [eval, columnOf]
      split
      · trivial
      · exact fun _ => nofun
  | outer i =>
      rw [eval, outerOf]
      split
      · trivial
      · exact fun _ => nofun
  | literal v => trivial
  | not e ih =>
      refine comes_bind ih fun v _ _ => ?_
      cases v with
      | null | bool => trivial
      | _ => exact fun _ => nofun
  | isNull e negated ih => exact comes_map ih fun _ _ _ => trivial
  | binary left op right first second =>
      refine comes_bind first fun l _ _ => ?_
      split
      · refine comes_bind (truth_told l) fun a _ _ => ?_
        split
        · trivial
        · exact comes_bind second fun r _ _ => comes_map (truth_told r) fun _ _ _ => trivial
      · exact comes_bind second fun r _ _ => apply_told op l r

end PlanExpr

namespace InsertPlan

-- An insertion as it is compiled: every row has a value for every column, one of them is the record id, and no two
-- columns have one key.
structure Regular (insertion : InsertPlan) : Prop where
  apart : insertion.columns.Pairwise fun a b => Text.lower a ≠ Text.lower b
  identified : ∃ column ∈ insertion.columns, Text.same column idColumn = true
  typed : insertion.types.length = insertion.columns.length
  filled : ∀ row ∈ insertion.rows, row.length = insertion.columns.length

abbrev Given := PlanExpr × String × DataType

-- A cell is evaluated to a value of its column.
def Gives (cell : Given) (item : String × Value) : Prop :=
  item.1 = cell.2.1 ∧ ∃ v, cell.1.eval .empty none = .ok v ∧ v.coerce cell.2.2 = .ok item.2

-- A row is evaluated, each value as one of its column's type, and its record id is one.
structure Reads (insertion : InsertPlan) (row : List PlanExpr) (written : WrittenRow) : Prop where
  values : List.Forall₂ Gives (row.zip (insertion.columns.zip insertion.types)) written.values
  id : ∃ item ∈ written.values, Text.same item.1 idColumn = true ∧ item.2.asId? = some written.id

def setItem (update : RowUpdate) (item : String × Value) : Outcome RowUpdate :=
  setCell (Text.same item.1 idColumn) item.1 item.2 update

inductive SetsItem (before : RowUpdate) (item : String × Value) : RowUpdate → Prop
  | id (own : Text.same item.1 idColumn = true) (id : RecordId) (known : item.2.asId? = some id) :
      SetsItem before item { before with id }
  | clear (field : Text.same item.1 idColumn = false) (none : item.2.isNull = true) :
      SetsItem before item { before with clear := before.clear ++ [item.1] }
  | set (field : Text.same item.1 idColumn = false) (some : item.2.isNull = false) :
      SetsItem before item { before with set := before.set ++ [item] }

theorem set_item_cases {before after : RowUpdate} {item : String × Value} (done : setItem before item = .ok after) :
    SetsItem before item after := by
  rw [setItem, setCell] at done
  split at done
  · rename_i own
    split at done
    · rename_i id known
      cases done
      exact .id own id known
    · cases done
  · rename_i field
    split at done
    · rename_i none
      cases done
      exact .clear (Bool.eq_false_iff.mpr field) none
    · rename_i some
      cases done
      exact .set (Bool.eq_false_iff.mpr field) (Bool.eq_false_iff.mpr some)

section Items

variable {values : List (String × Value)} {before after : RowUpdate}

-- The columns are set and cleared in any order, as long as they have keys of their own.
theorem items_written (apart : values.Pairwise fun a b => Text.lower a.1 ≠ Text.lower b.1)
    (others : ∀ item ∈ before.set, ∀ later ∈ values, Text.lower item.1 ≠ Text.lower later.1)
    (done : values.foldlM setItem before = .ok after) (fields : Fields) :
    (fields.clear after.clear).write after.set = ((fields.clear before.clear).write before.set).write values := by
  induction values generalizing before with
  | nil =>
      cases done
      rfl
  | cons item values ih =>
      rw [List.foldlM_cons] at done
      obtain ⟨next, first, done⟩ := ok_of_bind done
      obtain ⟨different, apart⟩ := List.pairwise_cons.mp apart
      have later (other : String × Value) (member : other ∈ before.set) (last : String × Value)
          (among : last ∈ values) := others other member last (List.mem_cons_of_mem _ among)
      change _ = ((Fields.write _ _).set item).write values
      cases set_item_cases first with
      | id own id known =>
          refine (ih apart ?_ done).trans ?_
          · exact later
          · rw [Fields.set_own _ own]
      | clear field none =>
          refine (ih apart ?_ done).trans ?_
          · exact later
          · dsimp only
            rw [Fields.clear_append _ _ field none,
              Fields.write_comm _ _ item fun other member => others other member item List.mem_cons_self]
      | set field some =>
          refine (ih apart ?_ done).trans ?_
          · intro other member last among
            rcases List.mem_append.mp member with old | new
            · exact later other old last among
            · rw [List.mem_singleton.mp new]
              exact different last among
          · congr 1
            exact List.foldl_append

-- Nothing is cleared that is the record id.
theorem items_stay (done : values.foldlM setItem before = .ok after) :
    after.removesRecord = before.removesRecord := by
  induction values generalizing before with
  | nil =>
      cases done
      rfl
  | cons item values ih =>
      rw [List.foldlM_cons] at done
      obtain ⟨next, first, done⟩ := ok_of_bind done
      rw [ih done]
      cases set_item_cases first with
      | id | set => rfl
      | clear field none =>
          rw [RowUpdate.removesRecord, List.any_append, List.any_cons, field, List.any_nil, Bool.or_false,
            Bool.or_false, RowUpdate.removesRecord]

-- The record id is that of the one item that gives it.
theorem items_known (done : values.foldlM setItem before = .ok after) :
    (∃ item ∈ values, Text.same item.1 idColumn = true ∧ item.2.asId? = some after.id) ∨
    (∀ item ∈ values, Text.same item.1 idColumn = false) ∧ after.id = before.id := by
  induction values generalizing before with
  | nil =>
      cases done
      exact .inr ⟨nofun, rfl⟩
  | cons item values ih =>
      rw [List.foldlM_cons] at done
      obtain ⟨next, first, done⟩ := ok_of_bind done
      rcases ih done with ⟨other, among, own, known⟩ | ⟨fields, same⟩
      · exact .inl ⟨other, List.mem_cons_of_mem _ among, own, known⟩
      · cases set_item_cases first with
        | id own id known => exact .inl ⟨item, List.mem_cons_self, own, known.trans (congrArg some same.symm)⟩
        | clear field none => exact .inr ⟨List.forall_mem_cons.mpr ⟨field, fields⟩, same⟩
        | set field some => exact .inr ⟨List.forall_mem_cons.mpr ⟨field, fields⟩, same⟩

theorem items_taken (ids : ∀ item ∈ values, Text.same item.1 idColumn = true → item.2.asId?.isSome = true)
    (before : RowUpdate) : ∃ after, values.foldlM setItem before = .ok after := by
  induction values generalizing before with
  | nil => exact ⟨before, rfl⟩
  | cons item values ih =>
      obtain ⟨own, ids⟩ := List.forall_mem_cons.mp ids
      have first : ∃ next, setItem before item = .ok next := by
        rw [setItem, setCell]
        split
        · rename_i same
          obtain ⟨id, known⟩ := Option.isSome_iff_exists.mp (own same)
          exact ⟨_, by rw [known]⟩
        · split
          · exact ⟨_, rfl⟩
          · exact ⟨_, rfl⟩
      obtain ⟨next, first⟩ := first
      obtain ⟨after, done⟩ := ih ids next
      exact ⟨after, by rw [List.foldlM_cons]; exact bind_of_ok first done⟩

end Items

section Cells

variable {idAt : Nat}

-- Cells that are evaluated do what their values do, where the place of the record id is that of its column.
theorem cells_as_items {cells : List Given} {values : List (String × Value)} (gives : List.Forall₂ Gives cells values)
    (start : Nat) (placed : ∀ i cell, cells[i]? = some cell → (start + i == idAt) = Text.same cell.2.1 idColumn)
    (before : RowUpdate) : (cells.zipIdx start).foldlM (addCell idAt) before = values.foldlM setItem before := by
  induction gives generalizing start before with
  | nil => rfl
  | @cons cell item cells values first _ ih =>
      obtain ⟨named, v, evaluated, coerced⟩ := first
      have here : (start == idAt) = Text.same cell.2.1 idColumn := placed 0 cell rfl
      have same : addCell idAt before (cell, start) = setItem before item := by
        rw [addCell, evaluated]
        change (v.coerce cell.2.2 >>= fun v => setCell (start == idAt) cell.2.1 v before) = _
        rw [coerced, here, setItem, named]
        rfl
      rw [List.zipIdx_cons, List.foldlM_cons, List.foldlM_cons, same]
      refine congrArg (setItem before item >>= ·) (funext fun next => ih (start + 1) (fun i cell held => ?_) next)
      rw [Nat.add_right_comm, Nat.add_assoc]
      exact placed (i + 1) cell held

theorem cells_evaluated (cells : List Given) (start : Nat) (before after : RowUpdate)
    (done : (cells.zipIdx start).foldlM (addCell idAt) before = .ok after) :
    ∃ values, List.Forall₂ Gives cells values := by
  induction cells generalizing start before with
  | nil => exact ⟨[], .nil⟩
  | cons cell cells ih =>
      rw [List.zipIdx_cons, List.foldlM_cons] at done
      obtain ⟨next, first, done⟩ := ok_of_bind done
      obtain ⟨v, evaluated, first⟩ := ok_of_bind first
      obtain ⟨converted, coerced, -⟩ := ok_of_bind first
      obtain ⟨values, gives⟩ := ih (start + 1) next done
      exact ⟨(cell.2.1, converted) :: values, .cons ⟨rfl, v, evaluated, coerced⟩ gives⟩

theorem cells_named {cells : List Given} {values : List (String × Value)} (gives : List.Forall₂ Gives cells values) :
    values.map (·.1) = cells.map (·.2.1) := by
  induction gives with
  | nil => rfl
  | cons first _ ih => rw [List.map_cons, List.map_cons, ih, first.1]

end Cells

theorem cell_told (idAt : Nat) (update : RowUpdate) (cell : Cell) :
    Comes (fun _ => True) EngineError.Told (addCell idAt update cell) := by
  refine comes_bind (PlanExpr.eval_told .empty none cell.1.1) fun v _ _ => ?_
  refine comes_bind (Value.coerce_told v cell.1.2.2) fun converted _ _ => ?_
  rw [setCell]
  split
  · split
    · trivial
    · intro cause broke
      cases broke
  · split
    · trivial
    · trivial

section Rows

variable {insertion : InsertPlan} (regular : insertion.Regular)

include regular

theorem id_placed : ∃ idAt, insertion.idPosition = .ok idAt ∧ idAt < insertion.columns.length ∧
    ∀ i column, insertion.columns[i]? = some column → (i == idAt) = Text.same column idColumn := by
  obtain ⟨key, among, own⟩ := regular.identified
  cases found : insertion.columns.findIdx? (Text.same · idColumn) with
  | none =>
      rw [List.findIdx?_eq_none_iff] at found
      rw [found key among] at own
      cases own
  | some idAt =>
      obtain ⟨inside, isId, -⟩ := List.findIdx?_eq_some_iff_getElem.mp found
      refine ⟨idAt, by rw [idPosition, found], inside, fun i column held => ?_⟩
      obtain ⟨inside', rfl⟩ := List.getElem?_eq_some_iff.mp held
      rw [Bool.eq_iff_iff, beq_iff_eq]
      constructor
      · rintro rfl
        exact isId
      · intro same
        by_contra elsewhere
        have alike := Text.lower_of_same _ _ (Text.same_trans _ _ _ same (Text.same_symm _ _ isId))
        have apart := List.pairwise_iff_getElem.mp regular.apart
        rcases Nat.lt_or_gt_of_ne elsewhere with before | after
        · exact apart i idAt inside' inside before alike
        · exact apart idAt i inside inside' after alike.symm

omit regular in
-- What a row comes to, given that its cells are evaluated.
theorem row_as_items {idAt : Nat}
    (placed : ∀ i column, insertion.columns[i]? = some column → (i == idAt) = Text.same column idColumn)
    {row : List PlanExpr} {values : List (String × Value)}
    (gives : List.Forall₂ Gives (row.zip (insertion.columns.zip insertion.types)) values) :
    insertion.updateOf idAt row = values.foldlM setItem ⟨0, [], []⟩ := by
  refine cells_as_items gives 0 (fun i cell held => ?_) _
  rw [List.getElem?_zip_eq_some, List.getElem?_zip_eq_some] at held
  rw [Nat.zero_add]
  exact placed i cell.2.1 held.2.1

theorem values_apart {row : List PlanExpr} {values : List (String × Value)} (among : row ∈ insertion.rows)
    (gives : List.Forall₂ Gives (row.zip (insertion.columns.zip insertion.types)) values) :
    values.map (·.1) = insertion.columns ∧ values.Pairwise fun a b => Text.lower a.1 ≠ Text.lower b.1 := by
  have wide : (insertion.columns.zip insertion.types).length = insertion.columns.length := by
    rw [List.length_zip, regular.typed, Nat.min_self]
  have named : values.map (·.1) = insertion.columns := calc
    values.map (·.1) = (row.zip (insertion.columns.zip insertion.types)).map (·.2.1) := cells_named gives
    _ = ((row.zip (insertion.columns.zip insertion.types)).map Prod.snd).map Prod.fst := List.map_map.symm
    _ = insertion.columns := by
      rw [List.map_snd_zip (Nat.le_of_eq (wide.trans (regular.filled row among).symm)),
        List.map_fst_zip (Nat.le_of_eq regular.typed.symm)]
  refine ⟨named, ?_⟩
  have apart := regular.apart
  rw [← named, List.pairwise_map] at apart
  exact apart

-- A row that is evaluated is read, and its update carries what was read.
theorem row_reads {idAt : Nat}
    (placed : ∀ i column, insertion.columns[i]? = some column → (i == idAt) = Text.same column idColumn)
    {row : List PlanExpr} (among : row ∈ insertion.rows) {change : RowUpdate}
    (done : insertion.updateOf idAt row = .ok change) : ∃ written, insertion.Reads row written := by
  obtain ⟨values, gives⟩ := cells_evaluated _ 0 _ change done
  rw [row_as_items placed gives] at done
  obtain ⟨key, column, own⟩ := regular.identified
  rw [← (values_apart regular among gives).1, List.mem_map] at column
  obtain ⟨item, given, rfl⟩ := column
  rcases items_known done with known | ⟨fields, -⟩
  · exact ⟨⟨change.id, values⟩, gives, known⟩
  · rw [fields item given] at own
    cases own

theorem row_carries {idAt : Nat}
    (placed : ∀ i column, insertion.columns[i]? = some column → (i == idAt) = Text.same column idColumn)
    {row : List PlanExpr} (among : row ∈ insertion.rows) {written : WrittenRow} (reads : insertion.Reads row written) :
    ∃ change, insertion.updateOf idAt row = .ok change ∧ change.Carries written := by
  obtain ⟨-, apart⟩ := values_apart regular among reads.values
  obtain ⟨item, given, own, known⟩ := reads.id
  have only (other : String × Value) (member : other ∈ written.values) (own' : Text.same other.1 idColumn = true) :
      other = item := by
    by_contra different
    have symmetric : Std.Symm fun a b : String × Value => Text.lower a.1 ≠ Text.lower b.1 := ⟨fun _ _ => Ne.symm⟩
    exact List.Pairwise.forall apart member given different
      (Text.lower_of_same _ _ (Text.same_trans _ _ _ own' (Text.same_symm _ _ own)))
  have ids (other : String × Value) (member : other ∈ written.values) (own' : Text.same other.1 idColumn = true) :
      other.2.asId?.isSome = true := by
    rw [only other member own', known]
    rfl
  obtain ⟨change, done⟩ := items_taken ids ⟨0, [], []⟩
  refine ⟨change, (row_as_items placed reads.values).trans done, ?_, items_stay done, fun fields => ?_⟩
  · rcases items_known done with ⟨other, member, own', known'⟩ | ⟨fields, -⟩
    · rw [only other member own', known] at known'
      exact (Option.some.inj known').symm
    · rw [fields item given] at own
      cases own
  · have none : fields.clear [] = fields := funext fun key => if_neg List.not_mem_nil
    refine (items_written apart (fun _ given => absurd given List.not_mem_nil) done fields).trans ?_
    rw [none]
    rfl

-- The updates are evaluated exactly if all rows are read, and each carries its own.
theorem updates_read {width : UInt64} {changes : List RowUpdate} (made : insertion.updates width = .ok changes) :
    ∃ rows, List.Forall₂ insertion.Reads insertion.rows rows := by
  obtain ⟨idAt, found, -, placed⟩ := id_placed regular
  obtain ⟨idAt', found', made⟩ := ok_of_bind made
  obtain rfl := Except.ok.inj (found.symm.trans found')
  refine forall₂_total fun row among => ?_
  obtain ⟨change, made⟩ := map_m_ok_total.mp ⟨changes, made⟩ row among
  obtain ⟨_, updated, -⟩ := ok_of_bind made
  exact row_reads regular placed among updated

theorem updates_carry {width : UInt64} (covers : width ≠ 0) {rows : List WrittenRow}
    (reads : List.Forall₂ insertion.Reads insertion.rows rows) :
    ∃ changes, insertion.updates width = .ok changes ∧ List.Forall₂ RowUpdate.Carries changes rows := by
  obtain ⟨idAt, found, -, placed⟩ := id_placed regular
  obtain ⟨evaluate, whole, evaluates⟩ : ∃ evaluate : List PlanExpr → Outcome RowUpdate,
      insertion.updates width = insertion.rows.mapM evaluate ∧
        ∀ row change, insertion.updateOf idAt row = .ok change → evaluate row = .ok change := by
    refine ⟨_, by rw [updates, found]; rfl, fun row change updated => bind_of_ok updated ?_⟩
    rw [locate, if_neg covers]
    rfl
  have each : List.Forall₂ (fun row written => Comes (·.Carries written) (fun _ => False) (evaluate row))
      insertion.rows rows := by
    refine (forall₂_imp_of_mem reads.flip fun written row among reads => ?_).flip
    obtain ⟨change, updated, carries⟩ := row_carries regular placed among reads
    exact comes_of_ok (evaluates row change updated) carries
  have made := comes_map_m each
  rw [whole]
  cases done : insertion.rows.mapM evaluate with
  | error e =>
      rw [done] at made
      exact made.elim
  | ok changes =>
      rw [done] at made
      exact ⟨changes, rfl, made.flip⟩

-- Rows that are not read are refused for a reason.
theorem updates_told {width : UInt64} (covers : width ≠ 0) :
    Comes (fun _ => True) EngineError.Told (insertion.updates width) := by
  obtain ⟨idAt, found, -⟩ := id_placed regular
  have row (cells : List PlanExpr) : Comes (fun _ => True) EngineError.Told (insertion.updateOf idAt cells) :=
    comes_fold_m (fun update _ cell _ => cell_told idAt update cell) trivial
  rw [updates, found]
  refine comes_map_m_each fun cells _ => ?_
  refine comes_bind (row cells) fun change _ _ => ?_
  rw [locate, if_neg covers]
  trivial

end Rows

end InsertPlan

-- An insertion is compiled to one whose columns have keys of their own, if those of the table have.
theorem Statement.compiled_regular {scope : Scope} {gate : DenyList} {name : String} {columns : List String}
    {rows : List (List Expr)} {table : Table} {insertion : InsertPlan} (found : scope.table name = .ok table)
    (apart : table.Apart) (compiled : (insert name columns rows).compile scope gate = .ok (.insert insertion)) :
    insertion.Regular := by
  cases compiles_to scope gate _ _ compiled with
  | reading _ _ asks _ => cases asks
  | insert _ _ _ analyzed table' filled targets types bound found' targeted checked analysis again typed binds =>
      obtain rfl := Except.ok.inj (found.symm.trans found')
      refine ⟨List.pairwise_map.mpr (Insertion.targets_apart apart targeted), ?_, ?_, fun row among => ?_⟩
      · rw [Insertion.checkTargets] at checked
        split at checked
        · cases checked
        · rename_i identified
          rw [Bool.not_eq_true, List.all_eq_false] at identified
          obtain ⟨field, among, named⟩ := identified
          have key : field.name = idColumn := by simpa using named
          exact ⟨field.name, List.mem_map_of_mem among, key ▸ Text.same_refl idColumn⟩
      · exact (map_m_ok_iff.mp typed).length_eq.symm
      · obtain ⟨given, listed, bind⟩ := map_m_ok_origin binds row among
        obtain ⟨entry, -, analyzes⟩ := map_m_ok_origin analysis given listed
        rw [Insertion.analyzeRow] at analyzes
        split at analyzes
        · rename_i filled
          have same := (map_m_ok_iff.mp analyzes).length_eq
          have bound := (map_m_ok_iff.mp bind).length_eq
          rw [List.length_zip, filled, Nat.min_self] at same
          rw [List.length_map, ← bound, same]
        · cases analyzes

end ShardQuery
