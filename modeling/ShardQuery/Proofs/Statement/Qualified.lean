import ShardQuery.Proofs.Statement.Inserted
import ShardQuery.Proofs.Statement.Typed
import ShardQuery.Proofs.Text.Case
import ShardQuery.Proofs.Value.Converted
/-!
Names made unambiguous, literals converted, and columns by position. Main statements: an expression keeps its value when
it is qualified, and can be bound then; a bound expression evaluates to what it means.
-/

set_option autoImplicit false

namespace ShardQuery

namespace Schema

variable {schema : Schema}

theorem mem_candidates (qualifier : Option String) (name : String) (i : Nat) :
    i ∈ schema.candidates qualifier name ↔
      ∃ column, schema.get? i = some column ∧ matched qualifier name column = true := by
  rw [candidates, List.mem_map]
  constructor
  · rintro ⟨⟨column, j⟩, member, rfl⟩
    obtain ⟨listed, meant⟩ := List.mem_filter.mp member
    exact ⟨column, List.mem_zipIdx_iff_getElem?.mp listed, meant⟩
  · rintro ⟨column, held, meant⟩
    exact ⟨(column, i), List.mem_filter.mpr ⟨List.mem_zipIdx_iff_getElem?.mpr held, meant⟩, rfl⟩

theorem candidates_nodup (schema : Schema) (qualifier : Option String) (name : String) : (schema.candidates qualifier name).Nodup := by
  have positions : (schema.columns.zipIdx.map (·.2)).Nodup := by
    rw [List.zipIdx_map_snd]
    exact List.nodup_range'
  exact positions.sublist (List.filter_sublist.map _)

-- A reference is resolved to the one column that it can mean.
theorem resolve_iff (qualifier : Option String) (name : String) (i : Nat) :
    schema.resolve qualifier name = .ok i ↔
      (∃ column, schema.get? i = some column ∧ matched qualifier name column = true) ∧
        ∀ j column, schema.get? j = some column → matched qualifier name column = true → j = i := by
  have single : schema.resolve qualifier name = .ok i ↔ schema.candidates qualifier name = [i] := by
    rw [resolve]
    cases found : schema.candidates qualifier name with
    | nil => exact ⟨nofun, nofun⟩
    | cons first rest =>
        cases rest with
        | nil => exact ⟨fun done => congrArg ([·]) (Except.ok.inj done), fun same => congrArg Except.ok (List.cons.inj same).1⟩
        | cons second rest => exact ⟨nofun, nofun⟩
  rw [single]
  constructor
  · intro found
    refine ⟨(mem_candidates qualifier name i).mp (found ▸ List.mem_singleton_self i), fun j column held meant => ?_⟩
    have member := (mem_candidates qualifier name j).mpr ⟨column, held, meant⟩
    rw [found] at member
    exact List.mem_singleton.mp member
  · rintro ⟨there, only⟩
    have member := (mem_candidates qualifier name i).mpr there
    have all (j : Nat) (among : j ∈ schema.candidates qualifier name) : j = i := by
      obtain ⟨column, held, meant⟩ := (mem_candidates qualifier name j).mp among
      exact only j column held meant
    have nodup := candidates_nodup schema qualifier name
    cases found : schema.candidates qualifier name with
    | nil =>
        rw [found] at member
        cases member
    | cons first rest =>
        rw [found] at all nodup
        cases rest with
        | nil => rw [all first List.mem_cons_self]
        | cons second rest =>
            have same := (all first List.mem_cons_self).trans (all second (List.mem_cons_of_mem _ List.mem_cons_self)).symm
            exact absurd (same ▸ List.mem_cons_self) (List.nodup_cons.mp nodup).1

theorem matched_itself (column : Column) : matched column.relation column.name column = true := by
  rw [matched.eq_def, Text.same_refl, Bool.true_and]
  cases column.relation with
  | none => rfl
  | some relation => exact Text.same_refl relation

theorem matched_through {qualifier : Option String} {name : String} {found column : Column}
    (meant : matched qualifier name found = true) (alike : matched found.relation found.name column = true) :
    matched qualifier name column = true := by
  rw [matched.eq_def, Bool.and_eq_true] at meant alike ⊢
  refine ⟨Text.same_trans _ _ _ alike.1 meant.1, ?_⟩
  cases qualifier with
  | none => rfl
  | some q =>
      cases own : found.relation with
      | none =>
          rw [own] at meant
          cases meant.2
      | some relation =>
          rw [own] at meant alike
          cases other : column.relation with
          | none =>
              rw [other] at alike
              cases alike.2
          | some another =>
              rw [other] at alike
              exact Text.same_trans _ _ _ alike.2 meant.2

-- The full name of the column that a reference means is resolved to the same column.
theorem resolve_qualified {qualifier : Option String} {name : String} {i : Nat} {found : Column}
    (resolved : schema.resolve qualifier name = .ok i) (held : schema.get? i = some found) :
    schema.resolve found.relation found.name = .ok i := by
  obtain ⟨⟨column, held', meant⟩, only⟩ := (resolve_iff qualifier name i).mp resolved
  rw [held] at held'
  cases held'
  refine (resolve_iff _ _ i).mpr ⟨⟨found, held, matched_itself found⟩, fun j column held' alike => ?_⟩
  exact only j column held' (matched_through meant alike)

end Schema

namespace Expr

variable {schema : Schema} {row : Row}

-- A bound expression evaluates to what it means, beside any outer row.
theorem bind_value {outer : Option Row} (e : Expr) (bound : PlanExpr) (done : e.bind schema = .ok bound) :
    bound.eval row outer = e.valueIn schema row := by
  induction e generalizing bound with
  | column table name =>
      obtain ⟨i, resolved, done⟩ := ok_of_bind done
      cases done
      rw [valueIn, resolved]
      rfl
  | literal v =>
      cases done
      rfl
  | not e ih =>
      obtain ⟨inner, first, done⟩ := ok_of_bind done
      cases done
      rw [PlanExpr.eval, valueIn, ih inner first]
  | isNull e negated ih =>
      obtain ⟨inner, first, done⟩ := ok_of_bind done
      cases done
      rw [PlanExpr.eval, valueIn, ih inner first]
  | binary left op right ih ih' =>
      obtain ⟨l, first, done⟩ := ok_of_bind done
      obtain ⟨r, second, done⟩ := ok_of_bind done
      cases done
      rw [PlanExpr.eval, valueIn, ih l first, ih' r second]

theorem adopt_cases (target : Option DataType) (e : Expr) :
    adopt target e = e ∨ ∃ v type converted, e = .literal v ∧ target = some type ∧
      v.convert? type = some converted ∧ adopt target e = .literal converted := by
  cases e with
  | literal v =>
      cases found : target.bind v.convert? with
      | none => exact .inl (by rw [adopt, found])
      | some converted =>
          obtain ⟨type, rfl, done⟩ := Option.bind_eq_some_iff.mp found
          exact .inr ⟨v, type, converted, rfl, rfl, done, by rw [adopt, found]⟩
  | column | binary | not | isNull => exact .inl rfl

-- How the operands of a comparison come out of their qualification.
theorem qualify_binary {left right qualified : Expr} {op : BinaryOp}
    (done : (binary left op right).qualify schema = .ok qualified) :
    ∃ l r, left.qualify schema = .ok l ∧ right.qualify schema = .ok r ∧
      (op.isComparison = false ∧ qualified = .binary l op r ∨
        op.isComparison = true ∧ ∃ type type', l.type schema = .ok type ∧ (adopt type r).type schema = .ok type' ∧
          qualified = .binary (adopt type' l) op (adopt type r)) := by
  obtain ⟨l, first, done⟩ := ok_of_bind done
  obtain ⟨r, second, done⟩ := ok_of_bind done
  refine ⟨l, r, first, second, ?_⟩
  split at done
  · rename_i compares
    obtain ⟨type, typed, done⟩ := ok_of_bind done
    obtain ⟨type', typed', done⟩ := ok_of_bind done
    exact .inr ⟨compares, type, type', typed, typed', (Except.ok.inj done).symm⟩
  · rename_i computes
    exact .inl ⟨Bool.eq_false_iff.mpr computes, (Except.ok.inj done).symm⟩

theorem adopt_binds (target : Option DataType) {e : Expr} {bound : PlanExpr} (done : e.bind schema = .ok bound) :
    ∃ bound, (adopt target e).bind schema = .ok bound := by
  rcases adopt_cases target e with same | ⟨v, type, converted, rfl, -, -, literal⟩
  · exact ⟨bound, same.symm ▸ done⟩
  · exact ⟨.literal converted, literal.symm ▸ rfl⟩

theorem qualify_binds (e qualified : Expr) (done : e.qualify schema = .ok qualified) :
    ∃ bound, qualified.bind schema = .ok bound := by
  induction e generalizing qualified with
  | column table name =>
      obtain ⟨i, resolved, done⟩ := ok_of_bind done
      split at done
      · rename_i found held
        cases done
        refine ⟨.column i, ?_⟩
        rw [ofColumn, bind, Schema.resolve_qualified resolved held]
        rfl
      · cases done
  | literal v =>
      cases done
      exact ⟨.literal v, rfl⟩
  | not e ih =>
      obtain ⟨inner, first, done⟩ := ok_of_bind done
      obtain ⟨bound, binds⟩ := ih inner first
      cases done
      exact ⟨.not bound, by rw [bind, binds]; rfl⟩
  | isNull e negated ih =>
      obtain ⟨inner, first, done⟩ := ok_of_bind done
      obtain ⟨bound, binds⟩ := ih inner first
      cases done
      exact ⟨.isNull bound negated, by rw [bind, binds]; rfl⟩
  | binary left op right ih ih' =>
      have both (l r : Expr) (a b : PlanExpr) (first : l.bind schema = .ok a) (second : r.bind schema = .ok b) :
          (binary l op r).bind schema = .ok (.binary a op b) := by
        rw [bind, first, second]
        rfl
      obtain ⟨l, r, first, second, cases'⟩ := qualify_binary done
      obtain ⟨a, bindsLeft⟩ := ih l first
      obtain ⟨b, bindsRight⟩ := ih' r second
      rcases cases' with ⟨-, rfl⟩ | ⟨-, type, type', -, -, rfl⟩
      · exact ⟨_, both l r a b bindsLeft bindsRight⟩
      · obtain ⟨a, bindsLeft⟩ := adopt_binds type' bindsLeft
        obtain ⟨b, bindsRight⟩ := adopt_binds type bindsRight
        exact ⟨_, both _ _ a b bindsLeft bindsRight⟩

theorem convert_null {v converted : Value} {type : DataType} (done : v.convert? type = some converted) :
    converted.isNull = v.isNull := by
  rcases Value.convert_typed v converted type done with ⟨rfl, rfl⟩ | ⟨given, typed⟩
  · rfl
  · rw [Value.not_null_of_type typed]
    cases v with
    | null => exact absurd rfl given
    | bool | int | id | decimal | string | timestamp | idSet | stringSet => rfl

theorem compare_keeps {op : BinaryOp} {a b c d result : Value}
    (keeps : ∀ o, a.order? b = some o → c.order? d = some o) (done : PlanExpr.compare op a b = .ok result) :
    PlanExpr.compare op c d = .ok result := by
  rw [PlanExpr.compare] at done ⊢
  split at done
  · rename_i o ordered
    rw [keeps o ordered]
    exact done
  · cases done

-- A comparison, once an operand is converted to the type of the other.
theorem apply_converted {op : BinaryOp} {x v converted result : Value} {type : DataType}
    (compares : op.isComparison = true) (typed : x.Of (some type)) (done : v.convert? type = some converted) :
    (PlanExpr.apply op x v = .ok result → PlanExpr.apply op x converted = .ok result) ∧
      (PlanExpr.apply op v x = .ok result → PlanExpr.apply op converted x = .ok result) := by
  simp only [PlanExpr.apply, compares, if_true, convert_null done]
  rcases typed with rfl | typed
  · simp [Value.isNull]
  · have same := Value.convert_compares x v converted type typed done
    rw [Bool.or_comm v.isNull]
    split
    · exact ⟨id, id⟩
    · exact ⟨compare_keeps same.left, compare_keeps same.right⟩

theorem adopt_value (target : Option DataType) {e : Expr} {v : Value} (evaluated : e.valueIn schema row = .ok v) :
    ∃ w, (adopt target e).valueIn schema row = .ok w ∧
      (w = v ∨ ∃ type, target = some type ∧ v.convert? type = some w) := by
  rcases adopt_cases target e with same | ⟨_, type, converted, rfl, known, done, literal⟩
  · exact ⟨v, same.symm ▸ evaluated, .inl rfl⟩
  · cases evaluated
    exact ⟨converted, literal.symm ▸ rfl, .inr ⟨type, known, done⟩⟩

-- A comparison keeps its value when one operand adopts the type of the other.
theorem apply_adopted {op : BinaryOp} {x v w result : Value} {target : Option DataType} (compares : op.isComparison = true)
    (typed : x.Of target) (adopted : w = v ∨ ∃ type, target = some type ∧ v.convert? type = some w) :
    (PlanExpr.apply op x v = .ok result → PlanExpr.apply op x w = .ok result) ∧
      (PlanExpr.apply op v x = .ok result → PlanExpr.apply op w x = .ok result) := by
  rcases adopted with rfl | ⟨type, rfl, done⟩
  · exact ⟨id, id⟩
  · exact apply_converted compares typed done

theorem not_logical {op : BinaryOp} (compares : op.isComparison = true) : op.isLogical = false := by
  cases op with
  | eq | notEq | lt | ltEq | gt | gtEq => rfl
  | and | or | plus | minus | multiply => cases compares

-- On rows that fit, a qualified expression has the value of the one that was written.
theorem qualify_value (fits : row.Fits schema) (e qualified : Expr) (done : e.qualify schema = .ok qualified) (v : Value)
    (evaluated : e.valueIn schema row = .ok v) : qualified.valueIn schema row = .ok v := by
  induction e generalizing qualified v with
  | column table name =>
      obtain ⟨i, resolved, done⟩ := ok_of_bind done
      rw [valueIn, resolved] at evaluated
      split at done
      · rename_i found held
        cases done
        rw [ofColumn, valueIn, Schema.resolve_qualified resolved held]
        exact evaluated
      · cases done
  | literal w =>
      cases done
      exact evaluated
  | not e ih =>
      obtain ⟨inner, first, done⟩ := ok_of_bind done
      obtain ⟨w, before, evaluated⟩ := ok_of_bind evaluated
      cases done
      rw [valueIn, ih inner first w before]
      exact evaluated
  | isNull e negated ih =>
      obtain ⟨inner, first, done⟩ := ok_of_bind done
      obtain ⟨w, before, evaluated⟩ := ok_of_map evaluated
      cases done
      rw [valueIn, ih inner first w before, ← evaluated]
      rfl
  | binary left op right ih ih' =>
      obtain ⟨l, r, first, second, made⟩ := qualify_binary done
      have operands := binary_value_iff.mp evaluated
      rcases made with ⟨-, rfl⟩ | ⟨compares, type, type', typed, typed', rfl⟩
      · refine binary_value_iff.mpr ?_
        cases operands with
        | decided a logical known decides => exact .decided a logical (ih l first a known) decides
        | connected a b p q logical known truth open' known' truth' =>
            exact .connected a b p q logical (ih l first a known) truth open' (ih' r second b known') truth'
        | applied a b _ plain known known' applied => exact .applied a b v plain (ih l first a known) (ih' r second b known') applied
      · have plain := not_logical compares
        cases operands with
        | decided a logical | connected a b p q logical =>
            rw [plain] at logical
            cases logical
        | applied a b _ _ known known' applied =>
            have left := ih l first a known
            have right := ih' r second b known'
            -- The right operand adopts the type of the left one before the left one adopts that of the right.
            obtain ⟨b', right', adopted⟩ := adopt_value type right
            obtain ⟨a', left', adopted'⟩ := adopt_value type' left
            have applied := (apply_adopted compares (type_sound fits l type a typed left) adopted).1 applied
            have applied := (apply_adopted compares (type_sound fits _ type' b' typed' right') adopted').2 applied
            exact binary_value_iff.mpr (.applied a' b' v plain left' right' applied)

end Expr

end ShardQuery
