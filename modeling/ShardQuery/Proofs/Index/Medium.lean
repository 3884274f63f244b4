import ShardQuery.Index.PageStore
/-!
Media that read back what was written to them. Main statements: such a medium stays one when it is used, and
the page stores are such media as long as their files can be made.
-/

set_option autoImplicit false

namespace ShardQuery.PageMedium

variable {σ : Type} [PageMedium σ]

abbrev Contents := PageId → Option Bytes

def noContents : Contents := fun _ => none

def Contents.put (contents : Contents) (id : PageId) (bytes : Bytes) : Contents :=
  fun other => if other = id then some bytes else contents other

inductive Use where
  | read (id : PageId)
  | write (id : PageId) (bytes : Bytes)

namespace Use

def fits (pageSize : Nat) : Use → Prop
  | .read _ => True
  | .write _ bytes => bytes.length = pageSize

def on (store : σ) : Use → σ
  | .read id => ((PageMedium.read id).perform store).2
  | .write id bytes => ((PageMedium.write id bytes).perform store).2

def note (contents : Contents) : Use → Contents
  | .read _ => contents
  | .write id bytes => contents.put id bytes

end Use

-- However the medium is used with pages of one size, it takes every page of that size and reads each page as it
-- was last written.
structure ReadsBack (pageSize : Nat) (store : σ) (contents : Contents) : Prop where
  accepts : ∀ uses : List Use, (∀ use ∈ uses, use.fits pageSize) → ∀ id bytes, bytes.length = pageSize →
    ((PageMedium.write id bytes).perform (uses.foldl Use.on store)).1 = .ok ()
  gives : ∀ uses : List Use, (∀ use ∈ uses, use.fits pageSize) → ∀ id bytes,
    uses.foldl Use.note contents id = some bytes →
    ((PageMedium.read id).perform (uses.foldl Use.on store)).1 = .ok bytes

theorem reads_back_after (pageSize : Nat) (store : σ) (contents : Contents) (use : Use)
    (faithful : ReadsBack pageSize store contents) (fits : use.fits pageSize) :
    ReadsBack pageSize (use.on store) (use.note contents) := by
  have all (uses : List Use) (rest : ∀ use ∈ uses, use.fits pageSize) : ∀ other ∈ use :: uses, other.fits pageSize :=
    fun other member => (List.mem_cons.mp member).elim (fun same => same ▸ fits) (rest other)
  exact ⟨fun uses rest => faithful.accepts (use :: uses) (all uses rest),
    fun uses rest => faithful.gives (use :: uses) (all uses rest)⟩

theorem read_known (pageSize : Nat) (store : σ) (contents : Contents) (id : PageId) (bytes : Bytes)
    (faithful : ReadsBack pageSize store contents) (known : contents id = some bytes) :
    ∃ later, (PageMedium.read id).perform store = (.ok bytes, later) ∧ ReadsBack pageSize later contents :=
  ⟨((PageMedium.read id).perform store).2, Prod.ext (faithful.gives [] (by simp) id bytes known) rfl,
    reads_back_after pageSize store contents (.read id) faithful trivial⟩

theorem write_page (pageSize : Nat) (store : σ) (contents : Contents) (id : PageId) (bytes : Bytes)
    (faithful : ReadsBack pageSize store contents) (sized : bytes.length = pageSize) :
    ∃ later, (PageMedium.write id bytes).perform store = (.ok (), later) ∧
      ReadsBack pageSize later (contents.put id bytes) :=
  ⟨((PageMedium.write id bytes).perform store).2, Prod.ext (faithful.accepts [] (by simp) id bytes sized) rfl,
    reads_back_after pageSize store contents (.write id bytes) faithful sized⟩

-- A medium reads back what is written when some relation to the known contents is kept by every use.
theorem reads_back_of_relation (pageSize : Nat) (Holds : σ → Contents → Prop)
    (kept : ∀ store contents (use : Use), Holds store contents → use.fits pageSize →
      Holds (use.on store) (use.note contents))
    (accepts : ∀ store contents id bytes, Holds store contents → bytes.length = pageSize →
      ((PageMedium.write id bytes).perform store).1 = .ok ())
    (gives : ∀ store contents id bytes, Holds store contents → contents id = some bytes →
      ((PageMedium.read id).perform store).1 = .ok bytes)
    (store : σ) (contents : Contents) (holds : Holds store contents) : ReadsBack pageSize store contents := by
  have after (uses : List Use) (fits : ∀ use ∈ uses, use.fits pageSize) :
      Holds (uses.foldl Use.on store) (uses.foldl Use.note contents) := by
    induction uses generalizing store contents with
    | nil => exact holds
    | cons use uses ih =>
        exact ih _ _ (kept store contents use holds (fits use List.mem_cons_self))
          fun other member => fits other (List.mem_cons_of_mem _ member)
  exact ⟨fun uses fits id bytes => accepts _ _ id bytes (after uses fits),
    fun uses fits id bytes => gives _ _ id bytes (after uses fits)⟩

end ShardQuery.PageMedium

namespace ShardQuery.PageStore

open PageMedium

def OnMemory (store : PageStore) (contents : Contents) : Prop :=
  ∃ pages reads writes, store = .memory pages reads writes ∧
    ∀ id bytes, contents id = some bytes → pages.get? id = some bytes

theorem read_memory (pages : SortedMap PageId Bytes) (reads writes : Nat) (id : PageId) :
    (PageMedium.read id).perform (PageStore.memory pages reads writes) =
      ((pages.get? id).elim (.error (neverWritten id)) .ok, .memory pages (reads + 1) writes) := by
  change (PageStore.read id).perform _ = _
  simp only [PageStore.read, Step.perform_bind, Step.perform_get, Step.perform_set]
  cases pages.get? id <;> rfl

theorem write_memory (pages : SortedMap PageId Bytes) (reads writes : Nat) (id : PageId) (bytes : Bytes) :
    (PageMedium.write id bytes).perform (PageStore.memory pages reads writes) =
      (.ok (), .memory (pages.insert id bytes) reads (writes + 1)) := rfl

theorem memory_reads_back (pageSize : Nat) (store : PageStore) (contents : Contents)
    (holds : OnMemory store contents) : ReadsBack pageSize store contents := by
  apply reads_back_of_relation pageSize OnMemory _ _ _ store contents holds
  · rintro _ contents use ⟨pages, reads, writes, rfl, known⟩ _
    cases use with
    | read id => exact ⟨pages, reads + 1, writes, by rw [Use.on, read_memory], known⟩
    | write id bytes =>
        refine ⟨pages.insert id bytes, reads, writes + 1, by rw [Use.on, write_memory], ?_⟩
        intro other found written
        rw [SortedMap.get?_insert]
        by_cases same : other = id
        · simpa [Use.note, Contents.put, same] using written
        · rw [if_neg same]
          exact known other found (by simpa [Use.note, Contents.put, same] using written)
  · rintro _ contents id bytes ⟨pages, reads, writes, rfl, -⟩ _
    rw [write_memory]
  · rintro _ contents id bytes ⟨pages, reads, writes, rfl, known⟩ written
    rw [read_memory, known id bytes written]
    rfl

theorem in_memory_reads_back (pageSize : Nat) : ReadsBack pageSize inMemory noContents :=
  memory_reads_back pageSize inMemory noContents ⟨.empty, 0, 0, rfl, by simp [noContents]⟩

def OnFile (pageSize : Nat) (store : PageStore) (contents : Contents) : Prop :=
  ∃ spill?, store = .file true pageSize spill? ∧ (∀ spill, spill? = some spill → spill.held = false) ∧
    ∀ id bytes, contents id = some bytes → ∃ spill, spill? = some spill ∧ spill.pages.get? id = some bytes

-- The page ends within the largest file.
def Holdable (pageSize : Nat) (id : PageId) : Prop := (id.toNat + 1) * pageSize ≤ Bytes.largest

theorem small_page_holdable (pageSize : Nat) (id : PageId) (small : pageSize ≤ Config.maxPageSize) :
    Holdable pageSize id := by
  have bound : (id.toNat + 1) * pageSize ≤ 2 ^ 32 * Config.maxPageSize := Nat.mul_le_mul id.toNat_lt small
  exact Nat.le_trans bound (by decide)

theorem small_page_storable (pageSize : Nat) (small : pageSize ≤ Config.maxPageSize) : pageSize ≤ Bytes.largest :=
  Nat.le_trans small (by decide)

theorem holdable_page_ends (pageSize : Nat) (id : PageId) (holdable : Holdable pageSize id) :
    id.toNat * pageSize + pageSize ≤ Bytes.largest := by
  rwa [Holdable, Nat.succ_mul] at holdable

theorem seek_free (spill : SpillFile) (pageSize : Nat) (id : PageId) (holdable : Holdable pageSize id)
    (free : spill.held = false) : spill.seek pageSize id = .ok (id.toNat * pageSize) := by
  have ends := holdable_page_ends pageSize id holdable
  have largest : Bytes.largest = 2 ^ 63 - 1 := rfl
  rw [SpillFile.seek, free, if_neg Bool.false_ne_true, SpillFile.placeOf, if_neg (by omega), if_neg (by omega)]

theorem spill_page_free (spill : SpillFile) (pageSize : Nat) (id : PageId) (holdable : Holdable pageSize id)
    (free : spill.held = false) :
    spill.page pageSize id =
      if spill.reaches pageSize id then .ok ((spill.pages.get? id).getD (List.replicate pageSize 0))
      else .error (.io "the spill file ends before the page") := by
  have ends := holdable_page_ends pageSize id holdable
  have bounded : ¬ Bytes.largest < pageSize := by omega
  simp only [SpillFile.page, seek_free spill pageSize id holdable free, if_neg bounded]
  rfl

theorem spill_reaches (spill : SpillFile) (pageSize : Nat) (id : PageId) (bytes : Bytes)
    (held : spill.pages.get? id = some bytes) : spill.reaches pageSize id = true := by
  rw [SpillFile.reaches, Bool.or_eq_true]
  refine .inr (List.any_eq_true.mpr ⟨id, List.mem_map.mpr ⟨(id, bytes), ?_, rfl⟩, ?_⟩)
  · exact (SortedMap.get?_eq_some _ _ _).mp held
  · exact decide_eq_true (UInt32.le_refl id)

theorem read_file (usable : Bool) (pageSize : Nat) (spill : SpillFile) (id : PageId) :
    (PageMedium.read id).perform (PageStore.file usable pageSize (some spill)) =
      (spill.page pageSize id, .file usable pageSize (some { spill with
        reads := spill.reads + 1, held := spill.held || (spill.page pageSize id).breaksOff })) := rfl

theorem read_no_file (usable : Bool) (pageSize : Nat) (id : PageId) :
    (PageMedium.read id).perform (PageStore.file usable pageSize none) =
      (.error (neverWritten id), .file usable pageSize none) := rfl

theorem write_file (pageSize : Nat) (spill? : Option SpillFile) (id : PageId) (bytes : Bytes)
    (sized : bytes.length = pageSize) (holdable : Holdable pageSize id)
    (free : ∀ spill, spill? = some spill → spill.held = false) :
    (PageMedium.write id bytes).perform (PageStore.file true pageSize spill?) =
      (.ok (), .file true pageSize (some { spill?.getD .empty with
        pages := (spill?.getD .empty).pages.insert id bytes, writes := (spill?.getD .empty).writes + 1 })) := by
  have unheld : (spill?.getD .empty).held = false := by
    cases spill? with
    | none => rfl
    | some spill => exact free spill rfl
  change (PageStore.write id bytes).perform _ = _
  rw [PageStore.write, Step.perform_bind_ok (Step.perform_get _)]
  simp [Step.perform_bind, sized, seek_free _ pageSize id holdable unheld, unheld, Outcome.breaksOff, Except.isOk,
    Except.toBool, Except.map]

theorem file_reads_back (pageSize : Nat) (store : PageStore) (contents : Contents)
    (small : pageSize ≤ Config.maxPageSize) (holds : OnFile pageSize store contents) :
    ReadsBack pageSize store contents := by
  apply reads_back_of_relation pageSize (OnFile pageSize) _ _ _ store contents holds
  · rintro _ contents use ⟨spill?, rfl, free, known⟩ fits
    cases use with
    | read id =>
        cases spill? with
        | none => exact ⟨none, by rw [Use.on, read_no_file], free, known⟩
        | some spill =>
            refine ⟨_, by rw [Use.on, read_file], ?_, ?_⟩
            · rintro _ ⟨⟩
              rw [spill_page_free spill pageSize id (small_page_holdable pageSize id small) (free spill rfl), free spill rfl]
              split <;> rfl
            · intro other bytes written
              obtain ⟨_, ⟨⟩, found⟩ := known other bytes written
              exact ⟨_, rfl, found⟩
    | write id bytes =>
        refine ⟨_, by rw [Use.on, write_file pageSize spill? id bytes fits (small_page_holdable pageSize id small) free], ?_, ?_⟩
        · rintro _ ⟨⟩
          cases spill? with
          | none => rfl
          | some spill => exact free spill rfl
        · intro other found written
          refine ⟨_, rfl, ?_⟩
          change ((spill?.getD .empty).pages.insert id bytes).get? other = some found
          rw [SortedMap.get?_insert]
          by_cases same : other = id
          · simpa [Use.note, Contents.put, same] using written
          · rw [if_neg same]
            obtain ⟨spill, rfl, held⟩ := known other found (by simpa [Use.note, Contents.put, same] using written)
            exact held
  · rintro _ contents id bytes ⟨spill?, rfl, free, -⟩ sized
    rw [write_file pageSize spill? id bytes sized (small_page_holdable pageSize id small) free]
  · rintro _ contents id bytes ⟨spill?, rfl, free, known⟩ written
    obtain ⟨spill, rfl, held⟩ := known id bytes written
    rw [read_file, spill_page_free spill pageSize id (small_page_holdable pageSize id small) (free spill rfl),
      if_pos (spill_reaches spill pageSize id bytes held), held]
    rfl

theorem in_directory_reads_back (pageSize : Nat) (small : pageSize ≤ Config.maxPageSize) :
    ReadsBack pageSize (inDirectory true pageSize) noContents :=
  file_reads_back pageSize _ noContents small ⟨none, rfl, by simp, by simp [noContents]⟩

theorem of_config_reads_back (config : Config) (directories : Directories) (small : config.pageSize ≤ Config.maxPageSize)
    (usable : config.spillToDisk = true → directories config.spillDir = true) :
    ReadsBack config.pageSize (ofConfig config directories) noContents := by
  unfold ofConfig
  split
  · rename_i toDisk
    rw [usable toDisk]
    exact in_directory_reads_back config.pageSize small
  · exact in_memory_reads_back config.pageSize

end ShardQuery.PageStore
