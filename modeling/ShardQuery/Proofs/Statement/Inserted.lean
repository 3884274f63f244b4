import ShardQuery.Engine.Mutation
import ShardQuery.Proofs.Statement.Compiled
import ShardQuery.Proofs.Store.Records
import ShardQuery.Proofs.Value.Converted
/-!
What an insertion writes. Main statements: its table takes every value that it sets, a column is left out of an update
only where its cell is null, and what is no column of the insertion stays as it is.
-/

set_option autoImplicit false

namespace ShardQuery

namespace Value

theorem coerce_typed (v converted : Value) (target : DataType) (done : v.coerce target = .ok converted) :
    (v = .null ∧ converted = .null) ∨ (v ≠ .null ∧ converted.dataType? = some target) := by
  rw [coerce] at done
  split at done
  · rename_i value found
    exact convert_typed v converted target (Except.ok.inj done ▸ found)
  · cases done

end Value

-- What a table takes as a value to set: it is not for the record id, and a field of its name is of its type.
def Table.Takes (table : Table) (item : String × Value) : Prop :=
  Text.same item.1 idColumn = false ∧ ∃ field ∈ table.fields, Text.same field.name item.1 = true ∧
    item.2.dataType? = some field.type

namespace InsertPlan

-- A cell with its column, the column's type, and its place in the row.
abbrev Cell := (PlanExpr × String × DataType) × Nat

def addCell (idAt : Nat) (update : RowUpdate) (cell : Cell) : Outcome RowUpdate := do
  let v ← (← cell.1.1.eval .empty none).coerce cell.1.2.2
  setCell (cell.2 == idAt) cell.1.2.1 v update

def cellsOf (insertion : InsertPlan) (row : List PlanExpr) : List Cell :=
  (row.zip (insertion.columns.zip insertion.types)).zipIdx

-- A cell gives the record id, or it is null and clears its column, or it sets its column.
theorem add_cell_cases (idAt : Nat) (before after : RowUpdate) (cell : Cell)
    (added : addCell idAt before cell = .ok after) :
    ∃ v, cell.1.1.eval .empty none = .ok v ∧
      ((cell.2 = idAt ∧ after.set = before.set) ∨ (cell.2 ≠ idAt ∧ v = .null ∧ after.set = before.set) ∨
        (cell.2 ≠ idAt ∧ v ≠ .null ∧ ∃ converted, converted.dataType? = some cell.1.2.2 ∧
          after.set = before.set ++ [(cell.1.2.1, converted)])) := by
  obtain ⟨v, evaluated, added⟩ := ok_of_bind added
  obtain ⟨converted, coerced, added⟩ := ok_of_bind added
  refine ⟨v, evaluated, ?_⟩
  by_cases here : cell.2 = idAt
  · rw [setCell, if_pos (beq_iff_eq.mpr here)] at added
    split at added
    · exact .inl ⟨here, Except.ok.inj added ▸ rfl⟩
    · cases added
  · rw [setCell, if_neg fun same => here (beq_iff_eq.mp same)] at added
    rcases Value.coerce_typed v converted cell.1.2.2 coerced with ⟨rfl, rfl⟩ | ⟨given, typed⟩
    · exact .inr (.inl ⟨here, rfl, Except.ok.inj added ▸ rfl⟩)
    · rw [if_neg (Bool.eq_false_iff.mp (Value.not_null_of_type typed))] at added
      exact .inr (.inr ⟨here, given, converted, typed, Except.ok.inj added ▸ rfl⟩)

structure Describes (cells : List Cell) (idAt : Nat) (before after : RowUpdate) : Prop where
  typed : ∀ item ∈ after.set, item ∈ before.set ∨
    ∃ cell ∈ cells, cell.2 ≠ idAt ∧ cell.1.2.1 = item.1 ∧ item.2.dataType? = some cell.1.2.2
  kept : ∀ item ∈ before.set, item ∈ after.set
  given : ∀ cell ∈ cells, cell.2 ≠ idAt → cell.1.1.eval .empty none ≠ .ok .null →
    ∃ v, (cell.1.2.1, v) ∈ after.set

theorem cells_describe (cells : List Cell) (idAt : Nat) (before after : RowUpdate)
    (added : cells.foldlM (addCell idAt) before = .ok after) : Describes cells idAt before after := by
  induction cells generalizing before with
  | nil =>
      cases added
      exact ⟨fun item member => .inl member, fun item member => member, nofun⟩
  | cons cell cells ih =>
      rw [List.foldlM_cons] at added
      obtain ⟨next, first, added⟩ := ok_of_bind added
      have rest := ih next added
      obtain ⟨v, evaluated, ends⟩ := add_cell_cases idAt before next cell first
      have among (item : String × Value) (member : item ∈ next.set) : item ∈ before.set ∨
          (cell.2 ≠ idAt ∧ cell.1.2.1 = item.1 ∧ item.2.dataType? = some cell.1.2.2) := by
        rcases ends with ⟨-, same⟩ | ⟨-, -, same⟩ | ⟨here, -, converted, typed, same⟩
        · exact .inl (same ▸ member)
        · exact .inl (same ▸ member)
        · rw [same, List.mem_append, List.mem_singleton] at member
          rcases member with old | rfl
          · exact .inl old
          · exact .inr ⟨here, rfl, typed⟩
      have grows (item : String × Value) (member : item ∈ before.set) : item ∈ next.set := by
        rcases ends with ⟨-, same⟩ | ⟨-, -, same⟩ | ⟨-, -, converted, -, same⟩
        · exact same ▸ member
        · exact same ▸ member
        · exact same ▸ List.mem_append_left _ member
      refine ⟨?_, fun item member => rest.kept item (grows item member), ?_⟩
      · intro item member
        rcases rest.typed item member with early | ⟨later, inside, described⟩
        · rcases among item early with old | new
          · exact .inl old
          · exact .inr ⟨cell, List.mem_cons_self, new⟩
        · exact .inr ⟨later, List.mem_cons_of_mem _ inside, described⟩
      · intro other member elsewhere present
        rcases List.mem_cons.mp member with rfl | later
        · rcases ends with ⟨here, -⟩ | ⟨-, null, -⟩ | ⟨-, -, converted, -, same⟩
          · exact absurd here elsewhere
          · exact absurd (null ▸ evaluated) present
          · refine ⟨converted, rest.kept _ ?_⟩
            rw [same, List.mem_append, List.mem_singleton]
            exact .inr rfl
        · exact rest.given other later elsewhere present

-- Each update comes from a row.
theorem updates_evaluated (insertion : InsertPlan) (width : UInt64) (all : List RowUpdate)
    (made : insertion.updates width = .ok all) :
    ∃ idAt, insertion.columns.findIdx? (Text.same · idColumn) = some idAt ∧ ∀ change ∈ all, ∃ row ∈ insertion.rows,
      (insertion.cellsOf row).foldlM (addCell idAt) ⟨0, [], []⟩ = .ok change := by
  obtain ⟨idAt, found, made⟩ := ok_of_bind made
  refine ⟨idAt, ?_, ?_⟩
  · rw [idPosition] at found
    split at found
    · rename_i held
      rw [held, Except.ok.inj found]
    · cases found
  · intro change member
    obtain ⟨row, among, evaluated⟩ := map_m_ok_origin made change member
    obtain ⟨update, updated, evaluated⟩ := ok_of_bind evaluated
    obtain ⟨_, -, evaluated⟩ := ok_of_bind evaluated
    cases evaluated
    exact ⟨row, among, updated⟩

theorem updates_from_rows (insertion : InsertPlan) (width : UInt64) (all : List RowUpdate)
    (made : insertion.updates width = .ok all) :
    ∃ idAt, insertion.columns.findIdx? (Text.same · idColumn) = some idAt ∧
      ∀ change ∈ all, ∃ row ∈ insertion.rows, Describes (insertion.cellsOf row) idAt ⟨0, [], []⟩ change := by
  obtain ⟨idAt, found, origins⟩ := updates_evaluated insertion width all made
  refine ⟨idAt, found, fun change member => ?_⟩
  obtain ⟨row, among, updated⟩ := origins change member
  exact ⟨row, among, cells_describe _ idAt _ _ updated⟩

-- The record id is given in one place only.
theorem id_only_there (insertion : InsertPlan) (table : Table) (fills : insertion.Fills table) (idAt i : Nat)
    (found : insertion.columns.findIdx? (Text.same · idColumn) = some idAt) (column : String)
    (held : insertion.columns[i]? = some column) (elsewhere : i ≠ idAt) : Text.same column idColumn = false := by
  obtain ⟨inside, isId, -⟩ := List.findIdx?_eq_some_iff_getElem.mp found
  obtain ⟨inside', rfl⟩ := List.getElem?_eq_some_iff.mp held
  have distinct := List.pairwise_iff_getElem.mp fills.distinct
  refine Bool.eq_false_iff.mpr fun isId' => ?_
  rcases Nat.lt_or_gt_of_ne elsewhere with before | after
  · have apart := distinct i idAt inside' inside before
    rw [Text.same_trans _ _ _ isId' (Text.same_symm _ _ isId)] at apart
    cases apart
  · have apart := distinct idAt i inside inside' after
    rw [Text.same_trans _ _ _ isId (Text.same_symm _ _ isId')] at apart
    cases apart

theorem mem_cells (insertion : InsertPlan) (row : List PlanExpr) (cell : Cell) :
    cell ∈ insertion.cellsOf row ↔ row[cell.2]? = some cell.1.1 ∧ insertion.columns[cell.2]? = some cell.1.2.1 ∧
      insertion.types[cell.2]? = some cell.1.2.2 := by
  rw [cellsOf, List.mem_zipIdx_iff_getElem?, List.getElem?_zip_eq_some, List.getElem?_zip_eq_some]

theorem updates_taken (insertion : InsertPlan) (table : Table) (fills : insertion.Fills table) (width : UInt64)
    (all : List RowUpdate) (made : insertion.updates width = .ok all) (change : RowUpdate) (member : change ∈ all)
    (item : String × Value) (set : item ∈ change.set) : table.Takes item := by
  obtain ⟨idAt, found, origins⟩ := updates_from_rows insertion width all made
  obtain ⟨row, among, described⟩ := origins change member
  rcases described.typed item set with old | ⟨cell, inside, elsewhere, named, typed⟩
  · cases old
  · obtain ⟨-, column, type⟩ := (mem_cells insertion row cell).mp inside
    rw [named] at column
    refine ⟨id_only_there insertion table fills idAt cell.2 found item.1 column elsewhere, ?_⟩
    obtain ⟨kind, listed, field, held, called, rfl⟩ := forall₂_at fills.columns cell.2 item.1 column
    exact ⟨field, held, called, typed.trans (type.symm.trans listed)⟩

-- What is cleared is a column of a cell that does not give the record id.
theorem cells_clear (cells : List Cell) (idAt : Nat) (before after : RowUpdate)
    (added : cells.foldlM (addCell idAt) before = .ok after) (name : String) (cleared : name ∈ after.clear) :
    name ∈ before.clear ∨ ∃ cell ∈ cells, cell.2 ≠ idAt ∧ cell.1.2.1 = name := by
  induction cells generalizing before with
  | nil =>
      cases added
      exact .inl cleared
  | cons cell cells ih =>
      rw [List.foldlM_cons] at added
      obtain ⟨next, first, added⟩ := ok_of_bind added
      rcases ih next added with early | ⟨later, inside, described⟩
      · obtain ⟨v, -, first⟩ := ok_of_bind first
        obtain ⟨converted, -, first⟩ := ok_of_bind first
        rw [setCell] at first
        split at first
        · split at first
          · cases first
            exact .inl early
          · cases first
        · rename_i elsewhere
          split at first
          · cases first
            rcases List.mem_append.mp early with old | new
            · exact .inl old
            · exact .inr ⟨cell, List.mem_cons_self, fun here => elsewhere (beq_iff_eq.mpr here),
                (List.mem_singleton.mp new).symm⟩
          · cases first
            exact .inl early
      · exact .inr ⟨later, List.mem_cons_of_mem _ inside, described⟩

-- An insertion leaves the fields that are stored under the key of none of its columns.
theorem updates_spare (insertion : InsertPlan) (table : Table) (fills : insertion.Fills table) (width : UInt64)
    (all : List RowUpdate) (made : insertion.updates width = .ok all) (change : RowUpdate) (member : change ∈ all)
    (key : String) (others : ∀ column ∈ insertion.columns, Text.lower column ≠ key) : change.Spares key := by
  obtain ⟨idAt, found, origins⟩ := updates_evaluated insertion width all made
  obtain ⟨row, -, updated⟩ := origins change member
  have cleared (name : String) (inside : name ∈ change.clear) :
      Text.same name idColumn = false ∧ name ∈ insertion.columns := by
    rcases cells_clear _ idAt _ _ updated name inside with old | ⟨cell, among, elsewhere, rfl⟩
    · cases old
    · obtain ⟨-, column, -⟩ := (mem_cells insertion row cell).mp among
      exact ⟨id_only_there insertion table fills idAt cell.2 found _ column elsewhere, List.mem_of_getElem? column⟩
  refine ⟨?_, fun name inside => others name (cleared name inside).2, fun item inside => ?_⟩
  · rw [RowUpdate.removesRecord, List.any_eq_false]
    exact fun name inside => Bool.eq_false_iff.mp (cleared name inside).1
  · rcases (cells_describe _ idAt _ _ updated).typed item inside with old | ⟨cell, among, -, named, -⟩
    · cases old
    · obtain ⟨-, column, -⟩ := (mem_cells insertion row cell).mp among
      exact others item.1 (named ▸ List.mem_of_getElem? column)

-- Whether no row leaves a column null that cannot be.
def Completes (insertion : InsertPlan) (table : Table) : Prop :=
  ∀ field ∈ table.fields, field.nullable = false → field.name ≠ idColumn → ∀ row ∈ insertion.rows,
    ∃ (i : Nat) (cell : PlanExpr), row[i]? = some cell ∧ insertion.columns[i]? = some field.name ∧
      cell.eval .empty none ≠ .ok .null

theorem updates_given (insertion : InsertPlan) (table : Table) (wellformed : table.Wellformed)
    (fills : insertion.Fills table) (completes : insertion.Completes table) (width : UInt64)
    (all : List RowUpdate) (made : insertion.updates width = .ok all) (change : RowUpdate) (member : change ∈ all)
    (field : Field) (among : field ∈ table.fields) (needed : field.nullable = false) (named : field.name ≠ idColumn) :
    ∃ v, (field.name, v) ∈ change.set := by
  obtain ⟨idAt, found, origins⟩ := updates_from_rows insertion width all made
  obtain ⟨row, inside, described⟩ := origins change member
  obtain ⟨i, cell, held, column, present⟩ := completes field among needed named row inside
  obtain ⟨within, same⟩ := List.getElem?_eq_some_iff.mp column
  have within' : i < insertion.types.length := fills.columns.length_eq ▸ within
  have elsewhere : i ≠ idAt := by
    rintro rfl
    obtain ⟨_, isId, -⟩ := List.findIdx?_eq_some_iff_getElem.mp found
    obtain ⟨key, rest, fields, called, -⟩ := wellformed.headed
    rw [same, ← called] at isId
    refine named ?_
    rw [Table.same_field wellformed field key among (fields ▸ List.mem_cons_self) isId, called]
  exact described.given ((cell, field.name, insertion.types[i]), i)
    ((mem_cells insertion row _).mpr ⟨held, column, List.getElem?_eq_getElem within'⟩) elsewhere present

end InsertPlan

end ShardQuery
