import ShardQuery.Proofs.Index.AsSet
/-!
How long an insertion takes and when it fails. Main statement: over a medium that reads back what was written, the loop
of an insertion ends after at most 25 rounds, it fails exactly when the fingerprint is new and a whole bucket of members
shares its 24 low bits, and a failure leaves a set of the same members.
-/

set_option autoImplicit false

namespace ShardQuery.HashIndex

open PageMedium

variable {σ : Type} [PageMedium σ]
variable {index : HashIndex σ} {pages : List BucketPage} {contents : Contents} {members : List Fingerprint}

theorem made_sized {store : σ} {poolPages pageSize : Nat} (made : make store poolPages pageSize = .ok index) :
    24 ≤ pageSize ∧ pageSize ≤ Config.maxPageSize := by
  unfold make at made
  split at made
  · cases made
  · split at made
    · cases made
    · rename_i small holding
      refine ⟨?_, Nat.le_of_not_lt small⟩
      unfold BucketPage.capacity BucketPage.headerSize BucketPage.entrySize at holding
      omega

theorem made_holds {store : σ} {poolPages pageSize : Nat} (faithful : ReadsBack pageSize store noContents)
    (made : make store poolPages pageSize = .ok index) :
    ∃ pages contents, Holds index pages contents [] ∧ index.pool.pageSize = pageSize := by
  obtain ⟨large, small⟩ := made_sized made
  obtain ⟨same, pages, contents, made', holds, sized, -⟩ := make_holds store poolPages pageSize large small faithful
  obtain rfl : same = index := Except.ok.inj (made'.symm.trans made)
  exact ⟨pages, contents, holds, sized⟩

theorem used_holds {store : σ} {poolPages pageSize : Nat} (faithful : ReadsBack pageSize store noContents)
    (made : make store poolPages pageSize = .ok index) (calls : List IndexCall) :
    ∃ pages contents, Holds (Watched.run index calls).index pages contents (Watched.run index calls).taken ∧
      (Watched.run index calls).index.pool.pageSize = pageSize ∧
      (Watched.run index calls).index.bucketCapacity = index.bucketCapacity := by
  obtain ⟨pages, contents, begun, sized⟩ := made_holds faithful made
  obtain ⟨fresh, known, holds, follows⟩ := run_holds calls ⟨index, []⟩ pages contents begun
  exact ⟨fresh, known, holds, follows.pageSize.trans sized, holds_capacity begun holds follows⟩

-- Fingerprints that share as many low bits as a directory can use are in one bucket.
theorem neighbours_le_bucket (holds : Holds index pages contents members) (fp : Fingerprint) (bucket : BucketPage)
    (home : home? index pages fp = some bucket) : (neighbours members fp).length ≤ bucket.entries.length := by
  have inside : neighbours members fp ⊆ bucket.entries := by
    intro other near
    obtain ⟨member, agree⟩ := List.mem_filter.mp near
    have low (n : Nat) : n % 2 ^ maxDepth.toNat % 2 ^ index.depth.toNat = n % 2 ^ index.depth.toNat :=
      Nat.mod_mod_of_dvd n (Nat.pow_dvd_pow 2 holds.shallow)
    have same : slotOf index.depth.toNat other = slotOf index.depth.toNat fp := by
      rw [slotOf, slotOf, ← low, beq_iff_eq.mp agree, low]
    have home' : home? index pages other = some bucket := by rw [home?, same]; exact home
    exact (member_iff_home holds other bucket home').mp member
  exact ((holds.distinct.filter _).subperm inside).length_le

theorem joined_uncrowded {fp : Fingerprint} (holds : Holds index pages contents (members ++ [fp])) :
    (neighbours members fp).length < index.bucketCapacity := by
  obtain ⟨bucket, home⟩ := home_exists holds fp
  obtain ⟨distinct, -, apart⟩ := List.nodup_append.mp holds.distinct
  have new : fp ∉ members := fun member => apart fp member fp (List.mem_singleton_self fp) rfl
  have fits := holds.pool.fitting bucket (List.mem_of_getElem? home)
  rw [← holds.capacity] at fits
  calc (neighbours members fp).length
      < (neighbours (members ++ [fp]) fp).length :=
        neighbours_lt _ fp (List.mem_append_right _ (List.mem_singleton_self fp)) distinct
          (List.subset_append_left _ _) new
    _ ≤ bucket.entries.length := neighbours_le_bucket holds fp bucket home
    _ ≤ index.bucketCapacity := fits

theorem insertion_bounded {store : σ} {poolPages pageSize : Nat} (faithful : ReadsBack pageSize store noContents)
    (made : make store poolPages pageSize = .ok index) (calls : List IndexCall) (fp : Fingerprint) :
    let used := Watched.run index calls
    let ended := (insert fp).perform used.index
    AnswersAsSet used.index used.taken ∧
    (∃ rounds ≤ 25, Loops fp used.index rounds ended.1 ended.2 ∧
      ∀ bound, rounds ≤ bound → (insertWithin bound fp).perform used.index = ended) ∧
    ((∃ e, ended.1 = .error e) ↔
      fp ∉ used.taken ∧ index.bucketCapacity ≤ (neighbours used.taken fp).length) ∧
    ∀ e, ended.1 = .error e → ended.2.size = used.index.size ∧
      (∀ other, ((contains other).perform ended.2).1 = ((contains other).perform used.index).1) ∧
      ∀ more : List IndexCall, let later := more.foldl Watched.call ⟨ended.2, used.taken⟩
        AnswersAsSet later.index later.taken := by
  intro used ended
  obtain ⟨pages, contents, holds, -, capacity⟩ := used_holds faithful made calls
  obtain ⟨rounds, outcome, later, fresh, known, after, loops, few, holds', grows, ends⟩ :=
    loops_end maxDepth.toNat holds fp (Nat.le_add_right _ _)
  have inserted : ended = (outcome, later) := perform_loops loops (Nat.le_succ_of_le few)
  have answers := holds_answers_as_set holds
  rw [inserted]
  refine ⟨answers, ⟨rounds, few, loops, fun bound => perform_loops loops⟩, ?_, ?_⟩
  · rw [← capacity]
    cases ends with
    | held member => exact ⟨nofun, fun refused => absurd member refused.1⟩
    | joined new =>
        have uncrowded := holds_capacity holds holds' grows.toFollows ▸ joined_uncrowded holds'
        exact ⟨nofun, fun refused => absurd refused.2 (Nat.not_le.mpr uncrowded)⟩
    | refused new crowded => exact ⟨fun _ => ⟨new, crowded⟩, fun _ => ⟨tooDeep, rfl⟩⟩
  · intro e failed
    cases ends with
    | held member => cases failed
    | joined new => cases failed
    | refused new crowded =>
        refine ⟨holds'.counted.trans holds.counted.symm, fun other => ?_, fun more => ?_⟩
        · rw [answers.contains other, (holds_answers_as_set holds').contains other]
        · obtain ⟨pages, contents, reached, -⟩ := run_holds more ⟨later, used.taken⟩ fresh known holds'
          exact holds_answers_as_set reached

-- One entry to a bucket: after 24 splits the two fingerprints are still in one bucket.
theorem twin_refused :
    ∃ index, make PageStore.inMemory 2 24 = .ok index ∧
      let used := Watched.run index [.insert ⟨0, 1⟩]
      let ended := (insert ⟨1, 1⟩).perform used.index
      used.taken = [⟨0, 1⟩] ∧ (∃ e, ended.1 = .error e) ∧ ended.2.size = 1 ∧
      ((contains ⟨0, 1⟩).perform ended.2).1 = .ok true ∧ ((contains ⟨1, 1⟩).perform ended.2).1 = .ok false := by
  refine ⟨_, rfl, ?_⟩
  obtain ⟨answers, -, fails, failed⟩ :=
    insertion_bounded (PageStore.in_memory_reads_back 24) (show make PageStore.inMemory 2 24 = .ok _ from rfl)
      [.insert ⟨0, 1⟩] ⟨1, 1⟩
  obtain ⟨e, refused⟩ := fails.mpr ⟨by decide, by decide⟩
  obtain ⟨size, members, -⟩ := failed e refused
  refine ⟨rfl, ⟨e, refused⟩, size.trans rfl, ?_, ?_⟩
  · rw [members, answers.contains]
    rfl
  · rw [members, answers.contains]
    rfl

end ShardQuery.HashIndex
