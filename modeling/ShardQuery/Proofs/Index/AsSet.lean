import ShardQuery.Proofs.Index.Insertion
import ShardQuery.Proofs.Outcome
/-!
An index as a set. Main statement: over a medium that reads back what was written, an index answers every run of
calls as the set of the fingerprints it has taken in.
-/

set_option autoImplicit false

namespace ShardQuery.HashIndex

open PageMedium

variable {σ : Type} [PageMedium σ]

inductive IndexCall where
  | insert (fp : Fingerprint)
  | contains (fp : Fingerprint)
  | clear
deriving DecidableEq

-- An index in use, with the fingerprints whose insertion gave `ok true` since it was made or cleared.
structure Watched (σ : Type) where
  index : HashIndex σ
  taken : List Fingerprint

def Watched.call (watched : Watched σ) : IndexCall → Watched σ
  | .insert fp =>
      match (insert fp).perform watched.index with
      | (.ok true, later) => ⟨later, watched.taken ++ [fp]⟩
      | (_, later) => ⟨later, watched.taken⟩
  | .contains fp => ⟨((contains fp).perform watched.index).2, watched.taken⟩
  | .clear =>
      match clear.perform watched.index with
      | (.ok _, later) => ⟨later, []⟩
      | (.error _, later) => ⟨later, watched.taken⟩

def Watched.run (index : HashIndex σ) (calls : List IndexCall) : Watched σ := calls.foldl call ⟨index, []⟩

-- No answer of the index depends on anything but the members.
structure AnswersAsSet (index : HashIndex σ) (members : List Fingerprint) : Prop where
  distinct : members.Nodup
  counted : index.size = members.length
  contains : ∀ fp, ((contains fp).perform index).1 = .ok (decide (fp ∈ members))
  held : ∀ fp, ((insert fp).perform index).1 = .ok false ↔ fp ∈ members
  joined : ∀ fp, ((insert fp).perform index).1 = .ok true → fp ∉ members ∧
    ((HashIndex.contains fp).perform ((insert fp).perform index).2).1 = .ok true
  refused : ∀ fp e, ((insert fp).perform index).1 = .error e → e = tooDeep ∧ fp ∉ members ∧
    index.bucketCapacity ≤ (neighbours members fp).length ∧
    ∀ other, ((HashIndex.contains other).perform ((insert fp).perform index).2).1 = .ok (decide (other ∈ members))
  clears : (clear.perform index).1 = .ok ()

theorem holds_answers_as_set {index : HashIndex σ} {pages : List BucketPage} {contents : Contents}
    {members : List Fingerprint} (holds : Holds index pages contents members) : AnswersAsSet index members := by
  have asked (index : HashIndex σ) (pages : List BucketPage) (contents : Contents) (members : List Fingerprint)
      (holds : Holds index pages contents members) (fp : Fingerprint) :
      ((contains fp).perform index).1 = .ok (decide (fp ∈ members)) := by
    obtain ⟨later, known, answer, -⟩ := contains_holds holds fp
    rw [answer]
  refine ⟨holds.distinct, holds.counted, asked index pages contents members holds, ?_, ?_, ?_, ?_⟩
  · intro fp
    obtain ⟨outcome, later, fresh, known, after, ended, -, -, ends⟩ := insert_ends holds fp
    rw [ended]
    cases ends with
    | held member => exact ⟨fun _ => member, fun _ => rfl⟩
    | joined new => exact ⟨nofun, fun member => absurd member new⟩
    | refused new crowded => exact ⟨nofun, fun member => absurd member new⟩
  · intro fp inserted
    obtain ⟨outcome, later, fresh, known, after, ended, holds', -, ends⟩ := insert_ends holds fp
    rw [ended] at inserted ⊢
    cases ends with
    | held member => cases inserted
    | joined new => exact ⟨new, (asked later fresh known _ holds' fp).trans (by simp)⟩
    | refused new crowded => cases inserted
  · intro fp e failed
    obtain ⟨outcome, later, fresh, known, after, ended, holds', -, ends⟩ := insert_ends holds fp
    rw [ended] at failed ⊢
    cases ends with
    | held member => cases failed
    | joined new => cases failed
    | refused new crowded =>
        exact ⟨(Except.error.inj failed).symm, new, crowded, asked later fresh known members holds'⟩
  · obtain ⟨later, fresh, known, cleared, -⟩ := clear_holds holds
    rw [cleared]

theorem call_holds (watched : Watched σ) (pages : List BucketPage) (contents : Contents)
    (holds : Holds watched.index pages contents watched.taken) (call : IndexCall) :
    ∃ fresh known, Holds (watched.call call).index fresh known (watched.call call).taken ∧
      watched.index.pool.Follows (watched.call call).index.pool := by
  cases call with
  | insert fp =>
      obtain ⟨outcome, later, fresh, known, after, ended, holds', grows, ends⟩ := insert_ends holds fp
      refine ⟨fresh, known, ?_⟩
      rw [Watched.call, ended]
      cases ends with
      | held member => exact ⟨holds', grows.toFollows⟩
      | joined new => exact ⟨holds', grows.toFollows⟩
      | refused new crowded => exact ⟨holds', grows.toFollows⟩
  | contains fp =>
      obtain ⟨later, known, answer, holds', grows⟩ := contains_holds holds fp
      refine ⟨pages, known, ?_⟩
      rw [Watched.call, answer]
      exact ⟨holds', grows.toFollows⟩
  | clear =>
      obtain ⟨later, fresh, known, cleared, holds', follows⟩ := clear_holds holds
      refine ⟨fresh, known, ?_⟩
      rw [Watched.call, cleared]
      exact ⟨holds', follows⟩

theorem run_holds (calls : List IndexCall) (watched : Watched σ) (pages : List BucketPage) (contents : Contents)
    (holds : Holds watched.index pages contents watched.taken) :
    ∃ fresh known, Holds (calls.foldl Watched.call watched).index fresh known (calls.foldl Watched.call watched).taken ∧
      watched.index.pool.Follows (calls.foldl Watched.call watched).index.pool := by
  induction calls generalizing watched pages contents with
  | nil => exact ⟨pages, contents, holds, BufferPool.follows_refl _⟩
  | cons call calls ih =>
      obtain ⟨fresh, known, holds', first⟩ := call_holds watched pages contents holds call
      obtain ⟨fresh, known, holds', rest⟩ := ih (watched.call call) fresh known holds'
      exact ⟨fresh, known, holds', BufferPool.follows_trans first rest⟩

theorem index_answers_as_set (store : σ) (poolPages pageSize : Nat) (large : 24 ≤ pageSize)
    (small : pageSize ≤ Config.maxPageSize) (faithful : ReadsBack pageSize store noContents) :
    ∃ index, make store poolPages pageSize = .ok index ∧
      ∀ calls, AnswersAsSet (Watched.run index calls).index (Watched.run index calls).taken := by
  obtain ⟨index, pages, contents, made, holds, -⟩ := make_holds store poolPages pageSize large small faithful
  refine ⟨index, made, ?_⟩
  intro calls
  obtain ⟨fresh, known, holds', -⟩ := run_holds calls ⟨index, []⟩ pages contents holds
  exact holds_answers_as_set holds'

def threeInserted : List IndexCall := [.insert ⟨7, 0⟩, .insert ⟨7, 1⟩, .insert ⟨7, 0⟩, .insert ⟨7, 2⟩]

-- One entry to a bucket and two pages in memory: the second and the third fingerprint split a bucket, and then one of
-- the three pages has to leave memory. After the clear only what is inserted again is a member.
theorem smallest_index_answers_as_set :
    ∃ index, make PageStore.inMemory 2 24 = .ok index ∧
      (∀ calls, AnswersAsSet (Watched.run index calls).index (Watched.run index calls).taken) ∧
      (Watched.run index threeInserted).taken = [⟨7, 0⟩, ⟨7, 1⟩, ⟨7, 2⟩] ∧
      (Watched.run index threeInserted).index.pageCount = 3 ∧
      (Watched.run index threeInserted).index.hasSpilled = true ∧
      (Watched.run index (threeInserted ++ [.clear, .insert ⟨7, 1⟩])).taken = [⟨7, 1⟩] := by
  obtain ⟨index, made, answers⟩ :=
    index_answers_as_set PageStore.inMemory 2 24 (by decide) (by decide) (PageStore.in_memory_reads_back 24)
  have told := test_of_ok made (fun index => decide (
    (Watched.run index threeInserted).taken = [⟨7, 0⟩, ⟨7, 1⟩, ⟨7, 2⟩] ∧
    (Watched.run index threeInserted).index.pageCount = 3 ∧ (Watched.run index threeInserted).index.hasSpilled = true ∧
    (Watched.run index (threeInserted ++ [.clear, .insert ⟨7, 1⟩])).taken = [⟨7, 1⟩])) (by decide +kernel)
  exact ⟨index, made, answers, of_decide_eq_true told⟩

end ShardQuery.HashIndex
