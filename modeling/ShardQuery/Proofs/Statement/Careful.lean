import ShardQuery.Proofs.Statement.Inserted
/-!
Statements that can leave no column null that is declared not to be. Main statement: the plan of a careful statement
gives every such column a value, or drops no value of another one.
-/

set_option autoImplicit false

namespace ShardQuery

-- A literal is checked against its column. Another expression is only known to be no null when it is evaluated.
def Expr.Filling (e : Expr) : Prop :=
  (∃ v, e = .literal v) ∨ ∀ bound, e.bind .empty = .ok bound → bound.eval .empty none ≠ .ok .null

namespace Statement

-- What the analysis leaves open. An insertion looks its table up again, under the name of the table that it found.
def Careful (scope : Scope) : Statement → Prop
  | .insert name columns rows => ∀ table, scope.table name = .ok table → scope.table table.name = .ok table ∧
      ∀ targets, Insertion.targets table columns = .ok targets → ∀ row ∈ rows, ∀ cell ∈ row.zip targets,
        cell.2.nullable = false → cell.2.name ≠ idColumn → cell.1.Filling
  | .alterTable name (.dropColumn column) => ∀ table, scope.table name = .ok table → ∀ field ∈ table.fields,
      field.nullable = false → Text.lower field.name = Text.lower column → Text.same field.name column = true
  | _ => True

end Statement

-- Whether a plan leaves no column null that cannot be.
def Plan.KeepsFilled (catalog : Catalog) : Plan → Prop
  | .insert insertion => ∀ table, catalog.tables.get? insertion.table = some table → insertion.Completes table
  | .alterTable database name (.dropColumn column) => ∀ table, catalog.tableNamed database name = .ok table →
      ∀ field ∈ table.fields, field.nullable = false → Text.lower field.name = Text.lower column →
        Text.same field.name column = true
  | _ => True

namespace Insertion

theorem targets_among (table : Table) (columns : List String) (targets : List Field)
    (found : Insertion.targets table columns = .ok targets) : ∀ field ∈ targets, field ∈ table.fields := by
  rw [Insertion.targets] at found
  split at found
  · cases found
    exact fun _ member => member
  · intro field among
    obtain ⟨_, -, held⟩ := targets_from_found table columns [] targets found field among
    exact (Table.field_named held).1

-- Every field that cannot be null is a target.
theorem checked_target (table : Table) (targets : List Field) (checked : checkTargets table targets = .ok ())
    (field : Field) (among : field ∈ table.fields) (needed : field.nullable = false) :
    ∃ target ∈ targets, target.name = field.name := by
  rw [checkTargets] at checked
  split at checked
  · cases checked
  · split at checked
    · cases checked
    · rename_i none
      simpa [needed] using List.find?_eq_none.mp none field among

-- What is left of a value for a column that cannot be null: a literal that is not null, or the expression itself.
theorem analyzed_value (e analyzed : Expr) (field : Field) (needed : field.nullable = false)
    (done : analyzeValue e field = .ok analyzed) :
    (∃ v type, analyzed = .literal v ∧ v.dataType? = some type) ∨ analyzed = e ∧ ∀ v, e ≠ .literal v := by
  obtain ⟨coerced, first, done⟩ := ok_of_bind done
  obtain ⟨type?, typed, done⟩ := ok_of_bind done
  have kept (type : DataType) (known : type? = some type) : analyzed = coerced := by
    subst known
    dsimp only at done
    split at done
    · exact (Except.ok.inj done).symm
    · cases done
  split at first
  · rename_i v
    obtain ⟨converted, -, rfl⟩ := ok_of_map first
    cases Except.ok.inj typed
    cases known : converted.dataType? with
    | some type => exact .inl ⟨converted, type, kept type known, known⟩
    | none =>
        rw [known] at done
        simp [needed] at done
  · rename_i other
    cases first
    refine .inr ⟨?_, other⟩
    cases type? with
    | some type => exact kept type rfl
    | none =>
        cases e with
        | literal v => exact absurd rfl (other v)
        | column | binary | not | isNull => exact (Except.ok.inj done).symm

-- A value for a column that cannot be null is not null, when it is bound and evaluated.
theorem filling_value (e analyzed : Expr) (field : Field) (bound : PlanExpr) (needed : field.nullable = false)
    (filling : e.Filling) (done : analyzeValue e field = .ok analyzed) (binds : analyzed.bind .empty = .ok bound) :
    bound.eval .empty none ≠ .ok .null := by
  rcases analyzed_value e analyzed field needed done with ⟨v, type, rfl, typed⟩ | ⟨rfl, other⟩
  · cases binds
    intro evaluated
    cases Except.ok.inj evaluated
    cases typed
  · rcases filling with ⟨v, literal⟩ | filling
    · exact absurd literal (other v)
    · exact filling bound binds

theorem careful_completes (table : Table) (wellformed : table.Wellformed) (columns : List String)
    (rows analyzed : List (List Expr)) (targets : List Field) (bound : List (List PlanExpr)) (types : List DataType)
    (targeted : Insertion.targets table columns = .ok targets) (checked : checkTargets table targets = .ok ())
    (analysis : rows.zipIdx.mapM (fun entry => analyzeRow targets entry.1 entry.2) = .ok analyzed)
    (binds : analyzed.mapM (fun row => row.mapM (Expr.bind .empty)) = .ok bound)
    (filling : ∀ row ∈ rows, ∀ cell ∈ row.zip targets, cell.2.nullable = false → cell.2.name ≠ idColumn →
      cell.1.Filling) :
    InsertPlan.Completes ⟨table.id, table.name, targets.map (·.name), types, bound⟩ table := by
  intro field among needed named row member
  obtain ⟨target, aimed, called⟩ := checked_target table targets checked field among needed
  obtain rfl : target = field := by
    refine Table.same_field wellformed target field (targets_among table columns targets targeted target aimed) among ?_
    rw [called]
    exact Text.same_refl field.name
  obtain ⟨i, held⟩ := List.mem_iff_getElem?.mp aimed
  obtain ⟨middle, inside, bindsRow⟩ := map_m_ok_origin binds row member
  obtain ⟨⟨source, number⟩, listed, analyzes⟩ := map_m_ok_origin analysis middle inside
  have source_among : source ∈ rows := by
    rw [List.mem_zipIdx_iff_getElem?] at listed
    exact List.mem_of_getElem? listed
  rw [analyzeRow] at analyzes
  split at analyzes
  · rename_i length
    have within : i < source.length := length ▸ (List.getElem?_eq_some_iff.mp held).1
    have paired : (source.zip targets)[i]? = some (source[i], target) :=
      List.getElem?_zip_eq_some.mpr ⟨List.getElem?_eq_getElem within, held⟩
    obtain ⟨e, kept, done⟩ := forall₂_at (map_m_ok_iff.mp analyzes) i _ paired
    obtain ⟨cell, listed, bindsCell⟩ := forall₂_at (map_m_ok_iff.mp bindsRow) i e kept
    refine ⟨i, cell, listed, by rw [List.getElem?_map, held]; rfl, ?_⟩
    exact filling_value source[i] e target cell needed
      (filling source source_among _ (List.mem_of_getElem? paired) needed named) done bindsCell
  · cases analyzes

end Insertion

theorem Statement.careful_keeps (scope : Scope) (statement : Statement) (plan : Plan) (filed : scope.catalog.Filed)
    (careful : statement.Careful scope) (compiled : statement.CompilesTo scope plan) :
    plan.KeepsFilled scope.catalog := by
  cases compiled with
  | reading _ _ _ reads =>
      cases plan with
      | insert | alterTable => cases reads
      | _ => trivial
  | createDatabase | dropDatabase | alterDatabase | dropTable | createTable => trivial
  | alterTable name change =>
      cases change with
      | addColumn column => trivial
      | dropColumn column =>
          intro table found
          refine careful table ?_
          rw [Scope.table, found]
          rfl
  | insert name columns rows analyzed table filled targets types bound found targeted checked analysis again typed binds =>
      obtain ⟨known, filling⟩ := careful table found
      obtain rfl : table = filled := Except.ok.inj (known.symm.trans again)
      obtain ⟨id, stored⟩ := Scope.table_found found
      intro other held
      change scope.catalog.tables.get? table.id = some other at held
      rw [filed.tables id table stored, stored] at held
      cases held
      exact Insertion.careful_completes table (filed.wellformed id table stored) columns rows analyzed targets bound types
        targeted checked analysis binds (filling targets targeted)

end ShardQuery
