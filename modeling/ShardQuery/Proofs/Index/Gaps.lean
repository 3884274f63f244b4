import ShardQuery.Proofs.Index.Medium
/-!
Pages that were never written. Main statement: a spill file gives back each page as it was last written, as a map in
memory does, except that a page below another written one is never missed and reads as zeros; so the two answer alike
exactly where no such page is read.
-/

set_option autoImplicit false

namespace ShardQuery.PageMedium

variable {σ : Type} [PageMedium σ]

namespace Use

def page : Use → PageId
  | .read id | .write id _ => id

-- The bytes that a read gives. A write that is taken gives none.
def answer (store : σ) : Use → Outcome Bytes
  | .read id => ((PageMedium.read id).perform store).1
  | .write id bytes => ((PageMedium.write id bytes).perform store).1.map fun _ => []

end Use

def answers (store : σ) : List Use → List (Outcome Bytes)
  | [] => []
  | use :: uses => use.answer store :: answers (use.on store) uses

-- The pages as a list of uses leaves them.
def written (uses : List Use) : Contents := uses.foldl Use.note noContents

-- A page that was never written, while one behind it was. Pages without bytes all lie at one place.
def Gap (pageSize : Nat) (contents : Contents) (id : PageId) : Prop :=
  contents id = none ∧ ∃ other, contents other ≠ none ∧ (pageSize = 0 ∨ id ≤ other)

-- No use reads a gap between the pages as the uses before it have left them.
def GapsUnread (pageSize : Nat) : Contents → List Use → Prop
  | _, [] => True
  | contents, use :: uses =>
      (∀ id, use = .read id → ¬Gap pageSize contents id) ∧ GapsUnread pageSize (use.note contents) uses

end ShardQuery.PageMedium

namespace ShardQuery.PageStore

open PageMedium

variable {pageSize : Nat} {contents : Contents} {store : PageStore}

-- A map in memory that has the pages as they were written, and no other ones.
def KeptInMemory (store : PageStore) (contents : Contents) : Prop :=
  ∃ pages reads writes, store = .memory pages reads writes ∧ ∀ id, pages.get? id = contents id

theorem memory_use (use : Use) (kept : KeptInMemory store contents) :
    KeptInMemory (use.on store) (use.note contents) := by
  obtain ⟨pages, reads, writes, rfl, same⟩ := kept
  cases use with
  | read id => exact ⟨pages, reads + 1, writes, by rw [Use.on, read_memory], same⟩
  | write id bytes =>
      refine ⟨pages.insert id bytes, reads, writes + 1, by rw [Use.on, write_memory], fun other => ?_⟩
      by_cases own : other = id
      · simp [SortedMap.get?_insert, Use.note, Contents.put, own]
      · simp [SortedMap.get?_insert, Use.note, Contents.put, own, same]

theorem memory_reads (id : PageId) (kept : KeptInMemory store contents) :
    (Use.read id).answer store = (contents id).elim (.error (neverWritten id)) .ok := by
  obtain ⟨pages, reads, writes, rfl, same⟩ := kept
  rw [Use.answer, read_memory, same]

theorem memory_takes (id : PageId) (bytes : Bytes) (kept : KeptInMemory store contents) :
    (Use.write id bytes).answer store = .ok [] := by
  obtain ⟨pages, reads, writes, rfl, -⟩ := kept
  rw [Use.answer, write_memory]
  rfl

-- A file in which just the written pages have bytes of their own. It is made by the first write.
inductive KeptInFile (pageSize : Nat) : PageStore → Contents → Prop
  | unmade : KeptInFile pageSize (.file true pageSize none) noContents
  | made {spill : SpillFile} {contents : Contents} (free : spill.held = false)
      (same : ∀ id, spill.pages.get? id = contents id) (filled : ∃ id, contents id ≠ none) :
      KeptInFile pageSize (.file true pageSize (some spill)) contents

theorem put_same {pages : SortedMap PageId Bytes} (same : ∀ id, pages.get? id = contents id) (id : PageId) (bytes : Bytes)
    (other : PageId) : (pages.insert id bytes).get? other = contents.put id bytes other := by
  by_cases own : other = id
  · simp [SortedMap.get?_insert, Contents.put, own]
  · simp [SortedMap.get?_insert, Contents.put, own, same]

theorem file_use (use : Use) (fits : use.fits pageSize) (holdable : Holdable pageSize use.page)
    (kept : KeptInFile pageSize store contents) : KeptInFile pageSize (use.on store) (use.note contents) := by
  cases use with
  | read id =>
      cases kept with
      | unmade => exact .unmade
      | @made spill _ free same filled =>
          rw [Use.on, read_file]
          refine .made ?_ same filled
          rw [spill_page_free spill pageSize id holdable free, free]
          split <;> rfl
  | write id bytes =>
      have filled : ∃ other, contents.put id bytes other ≠ none := ⟨id, by simp [Contents.put]⟩
      cases kept with
      | unmade =>
          rw [Use.on, write_file pageSize none id bytes fits holdable (by simp)]
          exact .made rfl (put_same SortedMap.get?_empty id bytes) filled
      | @made spill _ free same _ =>
          rw [Use.on, write_file pageSize (some spill) id bytes fits holdable (by simpa using free)]
          exact .made free (put_same same id bytes) filled

theorem file_takes (id : PageId) (bytes : Bytes) (sized : bytes.length = pageSize) (holdable : Holdable pageSize id)
    (kept : KeptInFile pageSize store contents) : (Use.write id bytes).answer store = .ok [] := by
  cases kept with
  | unmade => rw [Use.answer, write_file pageSize none id bytes sized holdable (by simp), Except.map]
  | @made spill _ free =>
      rw [Use.answer, write_file pageSize (some spill) id bytes sized holdable (by simpa using free), Except.map]

theorem reaches_iff (spill : SpillFile) (pageSize : Nat) (id : PageId) :
    spill.reaches pageSize id = true ↔ pageSize = 0 ∨ ∃ other, spill.pages.get? other ≠ none ∧ id ≤ other := by
  simp only [SpillFile.reaches, Bool.or_eq_true, beq_iff_eq, List.any_eq_true, decide_eq_true_eq, ne_eq,
    ← Option.isSome_iff_ne_none, SortedMap.get?_isSome]

theorem file_reads_written (id : PageId) (bytes : Bytes) (holdable : Holdable pageSize id)
    (kept : KeptInFile pageSize store contents) (known : contents id = some bytes) :
    (Use.read id).answer store = .ok bytes := by
  cases kept with
  | unmade => cases known
  | @made spill _ free same =>
      have held : spill.pages.get? id = some bytes := (same id).trans known
      rw [Use.answer, read_file, spill_page_free spill pageSize id holdable free,
        if_pos (spill_reaches spill pageSize id bytes held), held, Option.getD_some]

-- A page that was never written reads as zeros where the file goes on behind it, and else cannot be read.
theorem file_reads_unwritten (id : PageId) (holdable : Holdable pageSize id) (kept : KeptInFile pageSize store contents)
    (unknown : contents id = none) :
    (Gap pageSize contents id → (Use.read id).answer store = .ok (List.replicate pageSize 0)) ∧
    (¬Gap pageSize contents id → ∃ e, (Use.read id).answer store = .error e) := by
  cases kept with
  | unmade =>
      refine ⟨fun gap => ?_, fun _ => ⟨neverWritten id, by rw [Use.answer, read_no_file]⟩⟩
      obtain ⟨-, other, filled, -⟩ := gap
      exact absurd rfl filled
  | @made spill _ free same filled =>
      have reaches : spill.reaches pageSize id = true ↔ Gap pageSize contents id := by
        simp only [reaches_iff, same, Gap, unknown, true_and]
        constructor
        · rintro (none | ⟨other, there, behind⟩)
          · obtain ⟨other, there⟩ := filled
            exact ⟨other, there, .inl none⟩
          · exact ⟨other, there, .inr behind⟩
        · rintro ⟨other, there, none | behind⟩
          · exact .inl none
          · exact .inr ⟨other, there, behind⟩
      rw [Use.answer, read_file, spill_page_free spill pageSize id holdable free]
      constructor
      · intro gap
        rw [if_pos (reaches.mpr gap), (same id).trans unknown, Option.getD_none]
      · intro noGap
        exact ⟨_, if_neg fun reached => noGap (reaches.mp reached)⟩

-- Both stores answer alike until a gap is read.
theorem answers_alike_iff (uses : List Use) {file memory : PageStore} (fits : ∀ use ∈ uses, use.fits pageSize)
    (holdable : ∀ use ∈ uses, Holdable pageSize use.page) (inFile : KeptInFile pageSize file contents)
    (inMemory : KeptInMemory memory contents) :
    (answers file uses).map Except.toOption = (answers memory uses).map Except.toOption ↔
      GapsUnread pageSize contents uses := by
  induction uses generalizing file memory contents with
  | nil => simp [answers, GapsUnread]
  | cons use uses ih =>
      obtain ⟨fits, others⟩ := List.forall_mem_cons.mp fits
      obtain ⟨holdable, others'⟩ := List.forall_mem_cons.mp holdable
      have rest := ih others others' (file_use use fits holdable inFile) (memory_use use inMemory)
      have first : (use.answer file).toOption = (use.answer memory).toOption ↔
          ∀ id, use = .read id → ¬Gap pageSize contents id := by
        cases use with
        | write id bytes => simp [file_takes id bytes fits holdable inFile, memory_takes id bytes inMemory]
        | read id =>
            rw [memory_reads id inMemory]
            cases known : contents id with
            | some bytes =>
                simp [file_reads_written id bytes holdable inFile known, Gap, known]
            | none =>
                obtain ⟨zeros, missed⟩ := file_reads_unwritten id holdable inFile known
                by_cases gap : Gap pageSize contents id
                · simp [zeros gap, gap, Except.toOption]
                · obtain ⟨e, missed⟩ := missed gap
                  simp [missed, gap, Except.toOption]
      rw [answers, answers, List.map_cons, List.map_cons, List.cons.injEq, GapsUnread, first, rest]

theorem uses_kept (uses : List Use) {file memory : PageStore} (fits : ∀ use ∈ uses, use.fits pageSize)
    (holdable : ∀ use ∈ uses, Holdable pageSize use.page) (inFile : KeptInFile pageSize file contents)
    (inMemory : KeptInMemory memory contents) :
    KeptInFile pageSize (uses.foldl Use.on file) (uses.foldl Use.note contents) ∧
      KeptInMemory (uses.foldl Use.on memory) (uses.foldl Use.note contents) := by
  induction uses generalizing file memory contents with
  | nil => exact ⟨inFile, inMemory⟩
  | cons use uses ih =>
      obtain ⟨fits, others⟩ := List.forall_mem_cons.mp fits
      obtain ⟨holdable, others'⟩ := List.forall_mem_cons.mp holdable
      exact ih others others' (file_use use fits holdable inFile) (memory_use use inMemory)

theorem file_answers_as_memory (pageSize : Nat) (uses : List Use) (fits : ∀ use ∈ uses, use.fits pageSize)
    (holdable : ∀ use ∈ uses, Holdable pageSize use.page) :
    let file := uses.foldl Use.on (inDirectory true pageSize)
    let memory := uses.foldl Use.on inMemory
    (∀ id bytes, Holdable pageSize id → bytes.length = pageSize →
      (Use.write id bytes).answer file = .ok [] ∧ (Use.write id bytes).answer memory = .ok []) ∧
    (∀ id bytes, Holdable pageSize id → written uses id = some bytes →
      (Use.read id).answer file = .ok bytes ∧ (Use.read id).answer memory = .ok bytes) ∧
    (∀ id, Holdable pageSize id → written uses id = none →
      (Gap pageSize (written uses) id → (Use.read id).answer file = .ok (List.replicate pageSize 0)) ∧
      (¬Gap pageSize (written uses) id → ∃ e, (Use.read id).answer file = .error e) ∧
      ∃ e, (Use.read id).answer memory = .error e) ∧
    ((answers (inDirectory true pageSize) uses).map Except.toOption = (answers inMemory uses).map Except.toOption ↔
      GapsUnread pageSize noContents uses) := by
  intro file memory
  have fresh : KeptInFile pageSize (inDirectory true pageSize) noContents := .unmade
  have empty : KeptInMemory inMemory noContents := ⟨.empty, 0, 0, rfl, SortedMap.get?_empty⟩
  obtain ⟨inFile, kept⟩ := uses_kept uses fits holdable fresh empty
  refine ⟨?_, ?_, ?_, answers_alike_iff uses fits holdable fresh empty⟩
  · intro id bytes holdable sized
    exact ⟨file_takes id bytes sized holdable inFile, memory_takes id bytes kept⟩
  · intro id bytes holdable known
    have found := memory_reads id kept
    rw [show uses.foldl Use.note noContents id = some bytes from known] at found
    exact ⟨file_reads_written id bytes holdable inFile known, found⟩
  · intro id holdable unknown
    obtain ⟨zeros, missed⟩ := file_reads_unwritten id holdable inFile unknown
    have absent := memory_reads id kept
    rw [show uses.foldl Use.note noContents id = none from unknown] at absent
    exact ⟨zeros, missed, _, absent⟩

-- Pages written out of order and over again, and read below and behind them.
def scattered : List Use := [.read 0, .write 2 [1, 2], .write 0 [3, 4], .read 2, .write 2 [5, 6], .read 2, .read 0, .read 7]

theorem scattered_pages_alike : (∀ use ∈ scattered, use.fits 2) ∧ (∀ use ∈ scattered, Holdable 2 use.page) ∧
    (answers inMemory scattered).map Except.toOption =
      [none, some [], some [], some [1, 2], some [], some [5, 6], some [3, 4], none] ∧
    (answers (inDirectory true 2) scattered).map Except.toOption = (answers inMemory scattered).map Except.toOption ∧
    (Use.read 1).answer (scattered.foldl Use.on (inDirectory true 2)) = .ok [0, 0] := by
  have fits : ∀ use ∈ scattered, use.fits 2 := by simp [scattered, Use.fits]
  have holdable : ∀ use ∈ scattered, Holdable 2 use.page := by simp [scattered, Holdable, Use.page, Bytes.largest]
  obtain ⟨-, -, unwritten, alike⟩ := file_answers_as_memory 2 scattered fits holdable
  have gap : Gap 2 (written scattered) 1 := ⟨rfl, 2, by simp [written, scattered, Use.note, Contents.put], .inr (by decide)⟩
  have unread : GapsUnread 2 noContents scattered := by
    simp [scattered, GapsUnread, Gap, Use.note, Contents.put, noContents]
    intro other there
    by_cases two : other = 2
    · simp [two]
    · by_cases zero : other = 0
      · simp [zero]
      · simp [two, zero] at there
  exact ⟨fits, holdable, by decide +kernel, alike.mpr unread, (unwritten 1 (by simp [Holdable, Bytes.largest]) rfl).1 gap⟩

-- A page that was never written is read without an error.
theorem gap_read_as_zeros :
    (∀ use ∈ [Use.write 2 [1, 2, 3, 4], .read 1], use.fits 4 ∧ Holdable 4 use.page) ∧
    answers (inDirectory true 4) [.write 2 [1, 2, 3, 4], .read 1] = [.ok [], .ok [0, 0, 0, 0]] ∧
    answers inMemory [.write 2 [1, 2, 3, 4], .read 1] = [.ok [], .error (neverWritten 1)] := by
  have fits : ∀ use ∈ [Use.write 2 [1, 2, 3, 4], .read 1], use.fits 4 ∧ Holdable 4 use.page := by
    simp [Use.fits, Use.page, Holdable, Bytes.largest]
  exact ⟨fits, rfl, rfl⟩

end ShardQuery.PageStore
