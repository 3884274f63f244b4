import ShardQuery.Proofs.Index.Medium
/-!
Media whose reads and writes may fail. Main statement: a page store, whatever state it is in, gives a page as it was
last written or not at all.
-/

set_option autoImplicit false

namespace ShardQuery.PageMedium

variable {σ : Type} [PageMedium σ]

def Contents.forget (contents : Contents) (id : PageId) : Contents :=
  fun other => if other = id then none else contents other

-- What a use teaches of the pages. A write that fails may leave anything of its page.
def Use.learn (store : σ) (contents : Contents) : Use → Contents
  | .read id =>
      match ((PageMedium.read id).perform store).1 with
      | .ok bytes => contents.put id bytes
      | .error _ => contents
  | .write id bytes =>
      match ((PageMedium.write id bytes).perform store).1 with
      | .ok _ => contents.put id bytes
      | .error _ => contents.forget id

def Use.onBoth (known : σ × Contents) (use : Use) : σ × Contents := (use.on known.1, use.learn known.1 known.2)

-- However the medium is used with pages of one size, a page that it reads is the page it last read or took.
def Honest (pageSize : Nat) (store : σ) (contents : Contents) : Prop :=
  ∀ uses : List Use, (∀ use ∈ uses, use.fits pageSize) → ∀ id bytes read,
    (uses.foldl Use.onBoth (store, contents)).2 id = some bytes →
    ((PageMedium.read id).perform (uses.foldl Use.onBoth (store, contents)).1).1 = .ok read → read = bytes

theorem honest_after {pageSize : Nat} {store : σ} {contents : Contents} (honest : Honest pageSize store contents)
    (use : Use) (fits : use.fits pageSize) : Honest pageSize (use.on store) (use.learn store contents) := by
  intro uses rest
  exact honest (use :: uses) fun other member => (List.mem_cons.mp member).elim (fun same => same ▸ fits) (rest other)

theorem honest_read {pageSize : Nat} {store : σ} {contents : Contents} {id : PageId} {bytes read : Bytes}
    (honest : Honest pageSize store contents) (known : contents id = some bytes)
    (done : ((PageMedium.read id).perform store).1 = .ok read) : read = bytes :=
  honest [] (by simp) id bytes read known done

theorem honest_accepted {pageSize : Nat} {store : σ} {contents : Contents} {id : PageId} {bytes : Bytes}
    (honest : Honest pageSize store contents) (sized : bytes.length = pageSize)
    (accepted : ((PageMedium.write id bytes).perform store).1 = .ok ()) :
    Honest pageSize ((Use.write id bytes).on store) (contents.put id bytes) := by
  simpa only [Use.learn, accepted] using honest_after honest (.write id bytes) sized

theorem honest_refused {pageSize : Nat} {store : σ} {contents : Contents} {id : PageId} {bytes : Bytes} {e : EngineError}
    (honest : Honest pageSize store contents) (sized : bytes.length = pageSize)
    (refused : ((PageMedium.write id bytes).perform store).1 = .error e) :
    Honest pageSize ((Use.write id bytes).on store) (contents.forget id) := by
  simpa only [Use.learn, refused] using honest_after honest (.write id bytes) sized

theorem honest_unread {pageSize : Nat} {store : σ} {contents : Contents} {id : PageId} {e : EngineError}
    (honest : Honest pageSize store contents) (failed : ((PageMedium.read id).perform store).1 = .error e) :
    Honest pageSize ((Use.read id).on store) contents := by
  simpa only [Use.learn, failed] using honest_after honest (.read id) trivial

theorem honest_reread {pageSize : Nat} {store : σ} {contents : Contents} {id : PageId} {bytes : Bytes}
    (honest : Honest pageSize store contents) (done : ((PageMedium.read id).perform store).1 = .ok bytes) :
    Honest pageSize ((Use.read id).on store) (contents.put id bytes) := by
  simpa only [Use.learn, done] using honest_after honest (.read id) trivial

theorem honest_of_relation (pageSize : Nat) (Holds : σ → Contents → Prop)
    (kept : ∀ store contents (use : Use), Holds store contents → use.fits pageSize →
      Holds (use.on store) (use.learn store contents))
    (gives : ∀ store contents id bytes read, Holds store contents → contents id = some bytes →
      ((PageMedium.read id).perform store).1 = .ok read → read = bytes)
    (store : σ) (contents : Contents) (holds : Holds store contents) : Honest pageSize store contents := by
  intro uses fits
  have after : Holds (uses.foldl Use.onBoth (store, contents)).1 (uses.foldl Use.onBoth (store, contents)).2 := by
    induction uses generalizing store contents with
    | nil => exact holds
    | cons use uses ih =>
        exact ih _ _ (kept store contents use holds (fits use List.mem_cons_self))
          fun other member => fits other (List.mem_cons_of_mem _ member)
  exact fun id bytes read => gives _ _ id bytes read after

end ShardQuery.PageMedium

namespace ShardQuery.PageStore

open PageMedium

-- What a read of the page gives if it succeeds.
def shown (store : PageStore) (id : PageId) : Bytes :=
  match store with
  | .memory pages _ _ => (pages.get? id).getD []
  | .file _ pageSize contents => (contents.bind (·.pages.get? id)).getD (List.replicate pageSize 0)

theorem spill_page_shown (spill : SpillFile) (pageSize : Nat) (id : PageId) (bytes : Bytes)
    (done : spill.page pageSize id = .ok bytes) :
    bytes = (spill.pages.get? id).getD (List.replicate pageSize 0) := by
  simp only [SpillFile.page, bind, Except.bind, pure, Except.pure, throw, throwThe, MonadExceptOf.throw] at done
  repeat' split at done
  all_goals first | exact (Except.ok.inj done).symm | cases done

theorem read_shown (store : PageStore) (id : PageId) (bytes : Bytes)
    (done : ((PageMedium.read id).perform store).1 = .ok bytes) : bytes = store.shown id := by
  cases store with
  | memory pages reads writes =>
      rw [read_memory] at done
      rw [shown]
      cases held : pages.get? id with
      | none =>
          rw [held] at done
          cases done
      | some stored =>
          rw [held] at done
          exact (Except.ok.inj done).symm
  | file usable pageSize contents =>
      cases contents with
      | none => cases done
      | some spill => exact spill_page_shown spill pageSize id bytes done

theorem read_shows (store : PageStore) (id other : PageId) : ((Use.read id).on store).shown other = store.shown other := by
  cases store with
  | memory pages reads writes => rw [Use.on, read_memory]; rfl
  | file usable pageSize contents => cases contents <;> rfl

-- A write that is refused leaves the pages as they are.
theorem write_file_ends (usable : Bool) (pageSize : Nat) (contents : Option SpillFile) (id : PageId) (bytes : Bytes) :
    (∃ e opened, (PageMedium.write id bytes).perform (PageStore.file usable pageSize contents) =
        (.error e, .file usable pageSize opened) ∧
        (opened = contents ∨ ∃ spill, opened = some spill ∧ spill.pages = (contents.getD .empty).pages)) ∨
    (PageMedium.write id bytes).perform (PageStore.file usable pageSize contents) =
      (.ok (), .file usable pageSize (some { contents.getD .empty with
        pages := (contents.getD .empty).pages.insert id bytes, writes := (contents.getD .empty).writes + 1 })) := by
  change (∃ e opened, (PageStore.write id bytes).perform _ = _ ∧ _) ∨ (PageStore.write id bytes).perform _ = _
  rw [PageStore.write, Step.perform_bind_ok (Step.perform_get _)]
  dsimp only
  split
  · exact .inl ⟨_, _, rfl, .inl rfl⟩
  · rw [Step.perform_bind_ok (Step.perform_set _ _)]
    split
    · exact .inl ⟨_, _, rfl, .inr ⟨_, rfl, rfl⟩⟩
    · rw [Step.perform_bind_ok (Step.perform_set _ _)]
      cases sought : (contents.getD .empty).seek pageSize id with
      | error e => exact .inl ⟨e, _, rfl, .inr ⟨_, rfl, rfl⟩⟩
      | ok place =>
          have unchanged : ((contents.getD .empty).held || Outcome.breaksOff (Except.ok place : Outcome Nat)) =
              (contents.getD .empty).held := Bool.or_false _
          rw [unchanged]
          exact .inr rfl

-- A write shows in the page it is about, if it succeeds, and in no other.
theorem write_shows (store : PageStore) (id other : PageId) (bytes : Bytes) :
    ((Use.write id bytes).on store).shown other =
      if other = id ∧ ((PageMedium.write id bytes).perform store).1.isOk = true then bytes else store.shown other := by
  cases store with
  | memory pages reads writes =>
      rw [Use.on, write_memory, shown, SortedMap.get?_insert]
      by_cases same : other = id
      · simp [same, Except.isOk, Except.toBool]
      · simp [same, shown]
  | file usable pageSize contents =>
      have opened : (contents.getD .empty).pages.get? other = contents.bind (·.pages.get? other) := by
        cases contents with
        | none => exact SortedMap.get?_empty other
        | some spill => rfl
      rcases write_file_ends usable pageSize contents id bytes with ⟨e, file, failed, same | ⟨spill, same, kept⟩⟩ | done
      · rw [Use.on, failed, same, if_neg fun both => absurd both.2 Bool.false_ne_true]
      · rw [Use.on, failed, same, if_neg fun both => absurd both.2 Bool.false_ne_true, shown, Option.bind_some, kept,
          opened, shown]
      · rw [Use.on, done, shown, Option.bind_some, SortedMap.get?_insert]
        by_cases same : other = id
        · rw [if_pos same, if_pos ⟨same, rfl⟩, Option.getD_some]
        · rw [if_neg same, if_neg fun both => same both.1, opened, shown]

theorem every_store_honest (pageSize : Nat) (store : PageStore) : Honest pageSize store noContents := by
  apply honest_of_relation pageSize fun store contents => ∀ id bytes, contents id = some bytes → bytes = store.shown id
  · intro store contents use known fits other bytes learnt
    cases use with
    | read id =>
        rw [read_shows]
        cases done : ((PageMedium.read id).perform store).1 with
        | error e =>
            simp only [Use.learn, done] at learnt
            exact known other bytes learnt
        | ok found =>
            simp only [Use.learn, done, Contents.put] at learnt
            split at learnt
            · rename_i same
              rw [same, ← read_shown store id found done, Option.some.inj learnt]
            · exact known other bytes learnt
    | write id written =>
        rw [write_shows]
        cases done : ((PageMedium.write id written).perform store).1 with
        | error e =>
            simp only [Use.learn, done, Contents.forget] at learnt
            split at learnt
            · cases learnt
            · rw [if_neg fun both => absurd both.2 Bool.false_ne_true, known other bytes learnt]
        | ok _ =>
            simp only [Use.learn, done, Contents.put] at learnt
            split at learnt
            · rename_i same
              rw [if_pos ⟨same, rfl⟩, Option.some.inj learnt]
            · rename_i different
              rw [if_neg fun both => different both.1, known other bytes learnt]
  · intro store contents id bytes read known held done
    rw [read_shown store id read done, known id bytes held]
  · intro id bytes unknown
    cases unknown

end ShardQuery.PageStore
