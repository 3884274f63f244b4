import ShardQuery.Proofs.Cursor.Streams
import ShardQuery.Proofs.Outcome
/-!
Streams and the outcomes that they tell. Main statements: what each operator makes of a stream tells what it makes of
the rows, and of a failure.
-/

set_option autoImplicit false

namespace ShardQuery.Stream

-- The stream is of the rows that the outcome has, and fails where it has none.
def Tells (stream : Stream) : Outcome (List Row) → Prop
  | .ok rows => stream = ⟨rows, []⟩
  | .error _ => stream.errors ≠ []

-- Nothing comes before a failure.
def Abrupt (stream : Stream) : Prop := stream.errors ≠ [] → stream.rows = []

variable {stream : Stream} {outcome : Outcome (List Row)}

theorem tells_agree {other : Outcome (List Row)} (tells : stream.Tells outcome) (same : Agree Eq outcome other) :
    stream.Tells other := by
  cases outcome with
  | ok rows =>
      obtain ⟨_, rfl, rfl⟩ := agree_ok same rfl
      exact tells
  | error e =>
      cases other with
      | ok rows => cases same
      | error e' => exact tells

theorem of_outcome_tells (outcome : Outcome (List Row)) : (ofOutcome outcome).Tells outcome := by
  cases outcome with
  | ok rows => rfl
  | error e => exact List.cons_ne_nil e []

theorem keep_whole {test : Row → Outcome Bool} {keep : Row → Bool} (rows : List Row) (errors : List EngineError)
    (judged : ∀ row ∈ rows, test row = .ok (keep row)) :
    (⟨rows, errors⟩ : Stream).keep test = ⟨rows.filter keep, errors⟩ := by
  induction rows with
  | nil => rfl
  | cons row rows ih =>
      obtain ⟨first, others⟩ := List.forall_mem_cons.mp judged
      have rest := ih others
      rw [Stream.keep] at rest ⊢
      rw [List.foldr_cons, rest, first]
      cases kept : keep row with
      | true =>
          rw [List.filter_cons_of_pos kept]
          rfl
      | false => rw [List.filter_cons_of_neg (Bool.eq_false_iff.mp kept)]

theorem keep_failed {test : Row → Outcome Bool} {row : Row} {e : EngineError} (rows : List Row) (errors : List EngineError)
    (among : row ∈ rows) (failed : test row = .error e) : ((⟨rows, errors⟩ : Stream).keep test).errors ≠ [] := by
  induction rows with
  | nil => cases among
  | cons first rows ih =>
      rw [Stream.keep, List.foldr_cons]
      cases judged : test first with
      | error e' => exact List.cons_ne_nil e' []
      | ok kept =>
          have later : row ∈ rows := by
            rcases List.mem_cons.mp among with rfl | later
            · rw [judged] at failed
              cases failed
            · exact later
          cases kept with
          | true => exact ih later
          | false => exact ih later

theorem keep_errors (test : Row → Outcome Bool) (rows : List Row) (errors : List EngineError) (failing : errors ≠ []) :
    ((⟨rows, errors⟩ : Stream).keep test).errors ≠ [] := by
  induction rows with
  | nil => exact failing
  | cons row rows ih =>
      rw [Stream.keep, List.foldr_cons]
      split
      · exact ih
      · exact ih
      · exact List.cons_ne_nil _ []

theorem keep_tells (test : Row → Outcome Bool) (tells : stream.Tells outcome) :
    (stream.keep test).Tells (outcome >>= fun rows => rows.filterM test) := by
  cases outcome with
  | error e => exact keep_errors test stream.rows stream.errors tells
  | ok rows =>
      obtain rfl : stream = ⟨rows, []⟩ := tells
      change Tells _ (rows.filterM test)
      cases filtered : rows.filterM test with
      | ok kept =>
          obtain ⟨keep, judged, rfl⟩ := filter_m_ok filtered
          exact keep_whole rows [] judged
      | error e =>
          obtain ⟨row, among, e', failed⟩ := filter_m_failed filtered
          exact keep_failed rows [] among failed

theorem through_gives (image : Row → Outcome Row) (rows : List Row) (errors : List EngineError) :
    (∃ images, rows.mapM image = .ok images ∧ (⟨rows, errors⟩ : Stream).through image = ⟨images, errors⟩) ∨
      (∃ e, rows.mapM image = .error e) ∧ ((⟨rows, errors⟩ : Stream).through image).errors ≠ [] := by
  induction rows with
  | nil => exact .inl ⟨[], rfl, rfl⟩
  | cons row rows ih =>
      rw [List.mapM_cons, Stream.through, List.foldr_cons]
      rw [Stream.through] at ih
      cases image row with
      | error e => exact .inr ⟨⟨e, rfl⟩, List.cons_ne_nil e []⟩
      | ok own =>
          rcases ih with ⟨images, others, whole⟩ | ⟨⟨e, others⟩, failing⟩
          · rw [others]
            exact .inl ⟨own :: images, rfl, congrArg (Stream.cons own) whole⟩
          · rw [others]
            exact .inr ⟨⟨e, rfl⟩, failing⟩

theorem through_tells (image : Row → Outcome Row) (tells : stream.Tells outcome) :
    (stream.through image).Tells (outcome >>= fun rows => rows.mapM image) := by
  cases outcome with
  | ok rows =>
      obtain rfl : stream = ⟨rows, []⟩ := tells
      change Tells _ (rows.mapM image)
      rcases through_gives image rows [] with ⟨images, made, whole⟩ | ⟨⟨e, made⟩, failing⟩
      · rw [made]
        exact whole
      · rw [made]
        exact failing
  | error e =>
      change (stream.through image).errors ≠ []
      rcases through_gives image stream.rows stream.errors with ⟨images, -, whole⟩ | ⟨-, failing⟩
      · rw [whole]
        exact tells
      · exact failing

theorem distinct_tells (tells : stream.Tells outcome) : stream.distinct.Tells (outcome.map Row.firstOccurrences) := by
  cases outcome with
  | ok rows =>
      obtain rfl : stream = ⟨rows, []⟩ := tells
      rfl
  | error e => exact tells

theorem arranged_tells (arrange : List Row → Outcome (List Row)) (tells : stream.Tells outcome) :
    (stream.arranged arrange).Tells (outcome >>= arrange) := by
  cases outcome with
  | ok rows =>
      obtain rfl : stream = ⟨rows, []⟩ := tells
      rw [Stream.arranged, if_pos rfl]
      exact of_outcome_tells (arrange rows)
  | error e =>
      rw [Stream.arranged, if_neg (show stream.errors ≠ [] from tells)]
      exact tells

theorem from_tells (node : ClusterNode) (tells : stream.Tells outcome) : (stream.from node).Tells outcome := by
  cases outcome with
  | ok rows =>
      obtain rfl : stream = ⟨rows, []⟩ := tells
      rfl
  | error e => exact fun none => tells (List.map_eq_nil_iff.mp none)

theorem together_tells {α : Type} {parts : List Stream} {as : List α} {f : α → Outcome (List Row)}
    (tells : List.Forall₂ (fun part a => part.Tells (f a)) parts as) :
    (together parts).Tells ((as.mapM f).map List.flatten) := by
  cases done : as.mapM f with
  | ok outcomes =>
      have whole : parts = outcomes.map fun rows => ⟨rows, []⟩ := by
        rw [← List.forall₂_eq_eq_eq, List.forall₂_map_right_iff]
        refine forall₂_join tells.flip (map_m_ok_iff.mp done) fun a part _ rows _ own made => ?_
        rw [made] at own
        exact own
      have none : (outcomes.map fun rows => (⟨rows, []⟩ : Stream)).flatMap errors = [] := by
        rw [List.flatMap_map, List.flatMap_eq_nil_iff]
        exact fun _ _ => rfl
      change together parts = _
      rw [whole, together, if_pos none, List.flatMap_map]
      exact congrArg (Stream.mk · []) List.flatMap_id
  | error e =>
      obtain ⟨a, among, e', failed⟩ := map_m_failed done
      obtain ⟨part, own, told⟩ := forall₂_origin tells a among
      rw [failed] at told
      have failing : parts.flatMap errors ≠ [] := fun none => told (List.flatMap_eq_nil_iff.mp none part own)
      change (together parts).errors ≠ []
      rw [together, if_neg failing]
      exact failing

theorem within_tells (skip count : Nat) (abrupt : stream.Abrupt) (tells : stream.Tells outcome) :
    (stream.within skip count).Tells
      (if count = 0 then .ok [] else outcome.map fun rows => (rows.drop skip).take count) := by
  by_cases none : count = 0
  · subst none
    rw [if_pos rfl, within, if_pos (.inl rfl), List.take_zero]
    rfl
  · rw [if_neg none]
    cases outcome with
    | ok rows =>
        obtain rfl : stream = ⟨rows, []⟩ := tells
        rw [within, ite_self]
        rfl
    | error e =>
        have failing : stream.errors ≠ [] := tells
        have early : ¬(count = 0 ∨ skip + count ≤ stream.rows.length) := by
          rw [abrupt failing, List.length_nil]
          omega
        change (stream.within skip count).errors ≠ []
        rw [within, if_neg early]
        exact failing

theorem distinct_abrupt (abrupt : stream.Abrupt) : stream.distinct.Abrupt := by
  intro failing
  rw [Stream.distinct, abrupt failing]
  rfl

theorem arranged_abrupt (arrange : List Row → Outcome (List Row)) (stream : Stream) :
    (stream.arranged arrange).Abrupt := by
  rw [Stream.arranged]
  split
  · cases arrange stream.rows with
    | ok rows => exact fun failing => absurd rfl failing
    | error e => exact fun _ => rfl
  · exact fun _ => rfl

theorem together_abrupt (parts : List Stream) : (together parts).Abrupt := by
  rw [together]
  split
  · exact fun failing => absurd rfl failing
  · exact fun _ => rfl

-- At most one row, and none before a failure.
def Single (stream : Stream) : Prop := stream.Abrupt ∧ stream.rows.length ≤ 1

theorem keep_single (test : Row → Outcome Bool) (single : stream.Single) : (stream.keep test).Single := by
  obtain ⟨rows, errors⟩ := stream
  obtain ⟨abrupt, few⟩ := single
  match rows, few with
  | [], _ => exact ⟨fun _ => rfl, Nat.zero_le 1⟩
  | [row], _ =>
      have none : errors = [] := by
        by_contra failing
        cases abrupt failing
      subst none
      rw [Stream.keep, List.foldr_cons]
      split
      · exact ⟨fun failing => absurd rfl failing, Nat.le_refl 1⟩
      · exact ⟨fun failing => absurd rfl failing, Nat.zero_le 1⟩
      · exact ⟨fun _ => rfl, Nat.zero_le 1⟩

theorem through_single (image : Row → Outcome Row) (single : stream.Single) : (stream.through image).Single := by
  obtain ⟨rows, errors⟩ := stream
  obtain ⟨abrupt, few⟩ := single
  match rows, few with
  | [], _ => exact ⟨fun _ => rfl, Nat.zero_le 1⟩
  | [row], _ =>
      have none : errors = [] := by
        by_contra failing
        cases abrupt failing
      subst none
      rw [Stream.through, List.foldr_cons]
      split
      · exact ⟨fun failing => absurd rfl failing, Nat.le_refl 1⟩
      · exact ⟨fun _ => rfl, Nat.zero_le 1⟩

end ShardQuery.Stream
