import ShardQuery.Proofs.Index.Room
/-!
What goes between a buffer pool and its medium. Main statements: counters of a medium count the uses that it has
served, and the counters of the page stores are such.
-/

set_option autoImplicit false

namespace ShardQuery.PageMedium

variable {σ : Type} [PageMedium σ]

def Use.isRead : Use → Bool
  | .read _ => true
  | .write _ _ => false

def Use.Done (store : σ) : Use → Prop
  | .read id => ∃ bytes, ((PageMedium.read id).perform store).1 = .ok bytes
  | .write id bytes => ((PageMedium.write id bytes).perform store).1 = .ok ()

-- Uses of a medium that all succeed.
inductive Served : σ → List Use → σ → Prop
  | none (store : σ) : Served store [] store
  | next {store later : σ} {use : Use} {uses : List Use} (done : use.Done store)
      (rest : Served (use.on store) uses later) : Served store (use :: uses) later

theorem served_append {first second third : σ} {uses more : List Use} (served : Served first uses second)
    (served' : Served second more third) : Served first (uses ++ more) third := by
  induction served with
  | none => exact served'
  | next done _ ih => exact .next done (ih served')

-- Counters of the reads and the writes that succeed.
structure Counts (reads writes : σ → Nat) : Prop where
  read : ∀ (store : σ) (id : PageId), Use.Done store (.read id) →
    reads ((Use.read id).on store) = reads store + 1 ∧ writes ((Use.read id).on store) = writes store
  write : ∀ (store : σ) (id : PageId) (bytes : Bytes), Use.Done store (.write id bytes) →
    reads ((Use.write id bytes).on store) = reads store ∧ writes ((Use.write id bytes).on store) = writes store + 1

theorem counted_served {reads writes : σ → Nat} (counts : Counts reads writes) {before later : σ} {uses : List Use}
    (served : Served before uses later) :
    reads later = reads before + uses.countP Use.isRead ∧ writes later = writes before + uses.countP (!·.isRead) := by
  induction served with
  | none => exact ⟨rfl, rfl⟩
  | @next store later use uses done _ ih =>
      rw [ih.1, ih.2]
      cases use with
      | read id =>
          obtain ⟨read, written⟩ := counts.read store id done
          rw [read, written, List.countP_cons_of_pos rfl, List.countP_cons_of_neg (by simp [Use.isRead])]
          omega
      | write id bytes =>
          obtain ⟨read, written⟩ := counts.write store id bytes done
          rw [read, written, List.countP_cons_of_neg (by simp [Use.isRead]), List.countP_cons_of_pos rfl]
          omega

end ShardQuery.PageMedium

namespace ShardQuery.PageStore

open PageMedium

theorem read_write_counts : Counts readCount writeCount where
  read := by
    intro store id done
    cases store with
    | memory pages reads writes =>
        rw [Use.on, read_memory]
        exact ⟨rfl, rfl⟩
    | file usable pageSize contents =>
        cases contents with
        | none =>
            obtain ⟨bytes, done⟩ := done
            rw [read_no_file] at done
            cases done
        | some spill => exact ⟨rfl, rfl⟩
  write := by
    intro store id bytes done
    cases store with
    | memory pages reads writes => exact ⟨rfl, rfl⟩
    | file usable pageSize contents =>
        rcases write_file_ends usable pageSize contents id bytes with ⟨e, opened, failed, -⟩ | written
        · rw [Use.Done, failed] at done
          cases done
        · rw [Use.on, written]
          cases contents <;> exact ⟨rfl, rfl⟩

end ShardQuery.PageStore

namespace ShardQuery.BufferPool

open PageMedium

variable {σ : Type} [PageMedium σ]

-- What a pool asks of its medium, all of which succeeds, and what it counts of that.
structure Traffic (before after : BufferPool σ) (uses : List Use) : Prop where
  served : Served before.store uses after.store
  misses : after.stats.misses = before.stats.misses + uses.countP Use.isRead
  writeBacks : after.stats.writeBacks = before.stats.writeBacks + uses.countP (!·.isRead)

theorem no_traffic (pool : BufferPool σ) : Traffic pool pool [] := ⟨.none _, rfl, rfl⟩

theorem traffic_append {first second third : BufferPool σ} {uses more : List Use} (traffic : Traffic first second uses)
    (traffic' : Traffic second third more) : Traffic first third (uses ++ more) where
  served := served_append traffic.served traffic'.served
  misses := by rw [traffic'.misses, traffic.misses, List.countP_append, Nat.add_assoc]
  writeBacks := by rw [traffic'.writeBacks, traffic.writeBacks, List.countP_append, Nat.add_assoc]

end ShardQuery.BufferPool
