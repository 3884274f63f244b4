import Mathlib.Data.List.Dedup
import ShardQuery.Cursor.Gather
import ShardQuery.Cursor.Pipeline
import ShardQuery.Proofs.Cursor.Drain
import ShardQuery.Proofs.Index.Insertion
import ShardQuery.Proofs.Outcome
import ShardQuery.Proofs.Value.FirstOccurrences
/-!
Removal of duplicates. Main statement: whatever its memory, it hands out the first occurrences of the rows of its
child, and it reports at most once that it spilled.
-/

set_option autoImplicit false

namespace ShardQuery

-- Where an engine spills to disk, files can be made.
def Engine.CanSpill (engine : Engine) : Prop :=
  engine.config.spillToDisk = true → engine.directories engine.config.spillDir = true

instance (engine : Engine) : Decidable engine.CanSpill :=
  inferInstanceAs (Decidable (engine.config.spillToDisk = true → engine.directories engine.config.spillDir = true))

theorem Engine.can_spill_of_memory {engine : Engine} (spares : engine.config.spillToDisk = false) : engine.CanSpill := by
  intro spills
  rw [spares] at spills
  cases spills

theorem Engine.warnings_on_warn (engine : Engine) (channel : Channel) (text : String) :
    (engine.warn channel text).warningsOn [channel] = engine.warningsOn [channel] ++ [text] := by
  simp [Engine.warn, Engine.warningsOn]

namespace Source

open HashIndex

variable {σ : Type} {child : Source σ} {ctx : Context} {channel : Channel} {s t : σ} {engine later : Engine}

-- Rows, then the end or an error, that a source hands out whatever is reported on the channel in the meantime. The
-- source itself reports nothing there.
inductive Supplies (child : Source σ) (ctx : Context) (channel : Channel) :
    σ → Engine → List Row → Option EngineError → Prop
  | done {s t : σ} {engine later : Engine} (pulled : child.pull ctx s engine = ⟨.done, t, later⟩)
      (quiet : later.warningsOn [channel] = engine.warningsOn [channel]) : Supplies child ctx channel s engine [] none
  | failed {s t : σ} {engine later : Engine} {e : EngineError}
      (pulled : child.pull ctx s engine = ⟨.failed e, t, later⟩)
      (quiet : later.warningsOn [channel] = engine.warningsOn [channel]) :
      Supplies child ctx channel s engine [] (some e)
  | row {s t : σ} {engine later : Engine} {row : Row} {rows : List Row} {ending : Option EngineError}
      (pulled : child.pull ctx s engine = ⟨.row row, t, later⟩)
      (quiet : later.warningsOn [channel] = engine.warningsOn [channel])
      (unheard : Supplies child ctx channel t later rows ending)
      (warned : ∀ text, Supplies child ctx channel t (later.warn channel text) rows ending) :
      Supplies child ctx channel s engine (row :: rows) ending

theorem stock_supplies (listed : Context → Engine → Outcome (List Row)) (ctx : Context) (channel : Channel)
    (rows : List Row) (engine : Engine) (live : ctx.check engine.clock = .ok ()) :
    Supplies (listing listed) ctx channel ((), some rows) engine rows none := by
  have pulled (rows : List Row) (engine : Engine) (live : ctx.check engine.clock = .ok ()) :
      (listing listed).pull ctx ((), some rows) engine =
        ⟨(Stock.take rows).1, ((), some (Stock.take rows).2), engine⟩ := by
    simp only [listing, checked, live]
    rfl
  induction rows generalizing engine with
  | nil => exact .done (pulled [] engine live) rfl
  | cons row rows ih => exact .row (pulled (row :: rows) engine live) rfl (ih engine live) fun _ => ih _ live

-- A listing supplies the rows that it asked for at the first pull.
theorem listing_supplies (listed : Context → Engine → Outcome (List Row)) (ctx : Context) (channel : Channel)
    (rows : List Row) (engine : Engine) (live : ctx.check engine.clock = .ok ()) (asked : listed ctx engine = .ok rows) :
    Supplies (listing listed) ctx channel ((), none) engine rows none := by
  have pulled : (listing listed).pull ctx ((), none) engine =
      ⟨(Stock.take rows).1, ((), some (Stock.take rows).2), engine⟩ := by
    simp only [listing, checked, live, gathered, asked]
  cases rows with
  | nil => exact .done pulled rfl
  | cons row rows =>
      exact .row pulled rfl (stock_supplies listed ctx channel rows engine live)
        fun _ => stock_supplies listed ctx channel rows _ live

def spillWarning (count : Nat) : String := s!"distinct spilled to disk after {count} distinct rows"

theorem judge_new {row : Row} {seen : Sightings} {fresh : Bool} {index : HashIndex PageStore}
    (inserted : (HashIndex.insert row.fingerprint).perform seen.index = (.ok fresh, index)) :
    judgeNew channel row seen engine =
      if seen.reported = false ∧ index.hasSpilled = true then
        ⟨.ok fresh, ⟨index, true⟩, engine.warn channel (spillWarning index.size)⟩
      else ⟨.ok fresh, ⟨index, seen.reported⟩, engine⟩ := by
  rw [Row.fingerprint] at inserted
  rw [judgeNew, inserted]
  by_cases report : seen.reported = false ∧ index.hasSpilled = true
  · have now : (!seen.reported && index.hasSpilled) = true := by simp [report.1, report.2]
    rw [if_pos report]
    show (if _ then _ else _) = _
    rw [if_pos now]
    rfl
  · have never : ¬(!seen.reported && index.hasSpilled) = true := by simpa using report
    rw [if_neg report]
    show (if _ then _ else _) = _
    rw [if_neg never]

theorem distinct_row {row : Row} {seen learned : Sightings} {fresh : Bool} {after : Engine}
    (pulled : child.pull ctx s engine = ⟨.row row, t, later⟩)
    (judged : judgeNew channel row seen later = ⟨.ok fresh, learned, after⟩) :
    let rest := (distinct child channel).drain ctx (t, some learned) after
    (distinct child channel).drain ctx (s, some seen) engine =
      if fresh then { rest with rows := rest.rows.map (row :: ·) } else rest := by
  cases fresh with
  | true =>
      apply drain_row
      simp only [distinct, seek_taken pulled judged]
  | false =>
      apply drain_congr
      simp only [distinct, seek_passed pulled judged]

theorem distinct_done {seen : Sightings} (pulled : child.pull ctx s engine = ⟨.done, t, later⟩) :
    (distinct child channel).drain ctx (s, some seen) engine = ⟨.ok [], (child.close t, none), later⟩ := by
  refine drain_done (t := (t, none)) ?_
  simp only [distinct, seek_done pulled]

theorem distinct_failed {seen : Sightings} {e : EngineError} (pulled : child.pull ctx s engine = ⟨.failed e, t, later⟩) :
    (distinct child channel).drain ctx (s, some seen) engine = ⟨.error e, (child.close t, none), later⟩ := by
  refine drain_failed (t := (t, none)) ?_
  simp only [distinct, seek_failed pulled]

-- What judging a row adds to the rest of a drain.
theorem judged_rows {τ : Type} (row : Row) (rows : List Row) (members : List Fingerprint) (ending : Option EngineError)
    (rest : Drained τ)
    (followed : rest.rows = ending.elim (.ok (Row.firstBy Row.fingerprint
      (if row.fingerprint ∈ members then members else members ++ [row.fingerprint]) rows)) .error) :
    (if decide (row.fingerprint ∉ members) = true then { rest with rows := rest.rows.map (row :: ·) } else rest).rows =
      ending.elim (.ok (Row.firstBy Row.fingerprint members (row :: rows))) .error := by
  by_cases held : row.fingerprint ∈ members
  · rw [if_pos held] at followed
    rw [if_neg (by simp [held]), followed, Row.firstBy, if_pos held]
  · rw [if_neg held] at followed
    rw [if_pos (by simp [held]), followed, Row.firstBy, if_neg held]
    cases ending <;> rfl

theorem judged_engine {τ : Type} (fresh : Bool) (row : Row) (rest : Drained τ) :
    (if fresh = true then { rest with rows := rest.rows.map (row :: ·) } else rest).engine = rest.engine := by
  cases fresh <;> rfl

-- The index holds the fingerprints of the rows judged so far, and it has been reported as spilled when it has.
theorem supplies_distinct {rows : List Row} {ending : Option EngineError}
    (supplies : Supplies child ctx channel s engine rows ending) (all : List Fingerprint) (seen : Sightings)
    (pages : List BucketPage) (contents : PageMedium.Contents) (members : List Fingerprint)
    (holds : Holds seen.index pages contents members) (reported : seen.reported = seen.index.hasSpilled)
    (among : ∀ row ∈ rows, row.fingerprint ∈ all) (inside : members ⊆ all)
    (room : ∀ fp ∈ all, (neighbours all fp).length ≤ seen.index.bucketCapacity) :
    ∃ count,
      ((distinct child channel).drain ctx (s, some seen) engine).rows =
        ending.elim (.ok (Row.firstBy Row.fingerprint members rows)) .error ∧
      ((distinct child channel).drain ctx (s, some seen) engine).engine.warningsOn [channel] =
        engine.warningsOn [channel] ++
          if seen.index.hasSpilled = false ∧ (insertAll seen.index (rows.map Row.fingerprint)).hasSpilled = true
          then [spillWarning count] else [] := by
  induction supplies generalizing seen pages contents members with
  | done pulled quiet =>
      refine ⟨0, ?_, ?_⟩
      · rw [distinct_done pulled]
        rfl
      · rw [distinct_done pulled, quiet]
        cases unspilled : seen.index.hasSpilled <;> simp [insertAll, unspilled]
  | failed pulled quiet =>
      refine ⟨0, ?_, ?_⟩
      · rw [distinct_failed pulled]
        rfl
      · rw [distinct_failed pulled, quiet]
        cases unspilled : seen.index.hasSpilled <;> simp [insertAll, unspilled]
  | @row s t engine later row rows ending pulled quiet unheard warned ih ihWarned =>
      have known := among row List.mem_cons_self
      have amongRest (other : Row) (member : other ∈ rows) := among other (List.mem_cons_of_mem _ member)
      obtain ⟨index, fresh, learned, inserted, holds', grows⟩ :=
        insert_uncrowded holds all row.fingerprint known inside (room _ known)
      have inside' : (if row.fingerprint ∈ members then members else members ++ [row.fingerprint]) ⊆ all := by
        split
        · exact inside
        · exact List.append_subset.mpr ⟨inside, List.cons_subset.mpr ⟨known, List.nil_subset _⟩⟩
      have capacity : index.bucketCapacity = seen.index.bucketCapacity := by
        rw [holds'.capacity, holds.capacity, grows.pageSize]
      rw [← capacity] at room
      have judged : judgeNew channel row seen later = _ := judge_new inserted
      rw [List.map_cons, insert_all_cons inserted]
      by_cases report : seen.reported = false ∧ index.hasSpilled = true
      · rw [if_pos report] at judged
        obtain ⟨count, followed, heard⟩ := ihWarned (spillWarning index.size) ⟨index, true⟩ fresh learned _ holds'
          report.2.symm amongRest inside' room
        have spilled := stays_spilled holds' report.2 (rows.map Row.fingerprint)
        have whole := distinct_row pulled judged
        refine ⟨index.size, ?_, ?_⟩
        · rw [whole]
          exact judged_rows row rows members ending _ followed
        · rw [whole, judged_engine, heard, Engine.warnings_on_warn, quiet, if_neg (by simp [report.2]),
            if_pos ⟨reported.symm.trans report.1, spilled⟩, List.append_nil]
      · rw [if_neg report] at judged
        have still : seen.reported = index.hasSpilled := by
          cases before : seen.reported with
          | false => cases after : index.hasSpilled with
            | false => rfl
            | true => exact absurd ⟨before, after⟩ report
          | true =>
              rw [reported, hasSpilled, decide_eq_true_iff] at before
              exact (decide_eq_true (Nat.lt_of_lt_of_le before grows.evictions)).symm
        obtain ⟨count, followed, heard⟩ := ih ⟨index, seen.reported⟩ fresh learned _ holds' still amongRest inside' room
        have whole := distinct_row pulled judged
        refine ⟨count, ?_, ?_⟩
        · rw [whole]
          exact judged_rows row rows members ending _ followed
        · rw [whole, judged_engine, heard, quiet, ← still, reported]

theorem of_config_holds (config : Config) (directories : Directories) (valid : config.validate = .ok ())
    (usable : config.spillToDisk = true → directories config.spillDir = true) :
    ∃ index pages contents, HashIndex.ofConfig config directories = .ok index ∧ Holds index pages contents [] ∧
      index.bucketCapacity = BucketPage.capacity config.pageSize ∧ index.pool.Whole := by
  obtain ⟨large, small⟩ := config.validate_page_size valid
  obtain ⟨index, pages, contents, made, holds, sized, whole⟩ := make_holds (PageStore.ofConfig config directories)
    config.poolPages config.pageSize (by omega) small (PageStore.of_config_reads_back config directories small usable)
  exact ⟨index, pages, contents, made, holds, sized ▸ holds.capacity, whole⟩

-- Whatever their lengths are, rows with the same canonical bytes are taken for one another.
theorem distinct_drains_first_by (child : Source σ) (ctx : Context) (channel : Channel)
    (engine later : Engine) (s : σ) (rows : List Row) (ending : Option EngineError)
    (valid : engine.config.validate = .ok ()) (usable : engine.CanSpill)
    (started : child.start ctx engine = .ok s) (supplies : Supplies child ctx channel s later rows ending)
    (injective : ∀ a ∈ rows, ∀ b ∈ rows, a.fingerprint = b.fingerprint → a.canonical = b.canonical)
    (room : ∀ row ∈ rows, (neighbours (rows.map Row.fingerprint).dedup row.fingerprint).length ≤
      BucketPage.capacity engine.config.pageSize) :
    ∃ index drained, HashIndex.ofConfig engine.config engine.directories = .ok index ∧
      (distinct child channel).start ctx engine = .ok (s, some ⟨index, false⟩) ∧
      (distinct child channel).drain ctx (s, some ⟨index, false⟩) later = drained ∧
      drained.rows = ending.elim (.ok (Row.firstBy Row.canonical [] rows)) .error ∧
      (Evicts index (rows.map Row.fingerprint) →
        ∃ count, drained.engine.warningsOn [channel] = later.warningsOn [channel] ++ [spillWarning count]) ∧
      (¬Evicts index (rows.map Row.fingerprint) →
        drained.engine.warningsOn [channel] = later.warningsOn [channel]) := by
  obtain ⟨index, pages, contents, made, holds, capacity, whole⟩ :=
    of_config_holds engine.config engine.directories valid usable
  have among (row : Row) (member : row ∈ rows) : row.fingerprint ∈ (rows.map Row.fingerprint).dedup :=
    List.mem_dedup.mpr (List.mem_map_of_mem member)
  have roomy (fp : Fingerprint) (member : fp ∈ (rows.map Row.fingerprint).dedup) :
      (neighbours (rows.map Row.fingerprint).dedup fp).length ≤ index.bucketCapacity := by
    obtain ⟨row, listed, rfl⟩ := List.mem_map.mp (List.mem_dedup.mp member)
    rw [capacity]
    exact room row listed
  have unspilled := whole_unspilled whole
  obtain ⟨count, handed, heard⟩ := supplies_distinct supplies _ ⟨index, false⟩ pages contents [] holds unspilled.symm
    among (List.nil_subset _) roomy
  rw [Row.first_by_fingerprint rows injective] at handed
  have evicts := spilled_iff_evicts (rows.map Row.fingerprint) holds whole
  refine ⟨index, _, made, ?_, rfl, handed, ?_, ?_⟩
  · simp only [distinct, started, made]
    rfl
  · intro evicting
    exact ⟨count, by rw [heard, if_pos ⟨unspilled, evicts.mpr evicting⟩]⟩
  · intro resting
    rw [heard, if_neg fun both => resting (evicts.mp both.2), List.append_nil]

-- Canonical bytes tell rows apart as `==` does as long as no length overflows the four bytes that hold it.
theorem distinct_drains_first_occurrences (child : Source σ) (ctx : Context) (channel : Channel)
    (engine later : Engine) (s : σ) (rows : List Row) (ending : Option EngineError)
    (valid : engine.config.validate = .ok ()) (usable : engine.CanSpill)
    (started : child.start ctx engine = .ok s) (supplies : Supplies child ctx channel s later rows ending)
    (measured : ∀ row ∈ rows, row.Measured)
    (injective : ∀ a ∈ rows, ∀ b ∈ rows, a.fingerprint = b.fingerprint → a.canonical = b.canonical)
    (room : ∀ row ∈ rows, (neighbours (rows.map Row.fingerprint).dedup row.fingerprint).length ≤
      BucketPage.capacity engine.config.pageSize) :
    ∃ index drained, HashIndex.ofConfig engine.config engine.directories = .ok index ∧
      (distinct child channel).start ctx engine = .ok (s, some ⟨index, false⟩) ∧
      (distinct child channel).drain ctx (s, some ⟨index, false⟩) later = drained ∧
      drained.rows = ending.elim (.ok (Row.firstOccurrences rows)) .error ∧
      (Evicts index (rows.map Row.fingerprint) →
        ∃ count, drained.engine.warningsOn [channel] = later.warningsOn [channel] ++ [spillWarning count]) ∧
      (¬Evicts index (rows.map Row.fingerprint) →
        drained.engine.warningsOn [channel] = later.warningsOn [channel]) := by
  rw [← Row.first_by_canonical rows measured]
  exact distinct_drains_first_by child ctx channel engine later s rows ending valid usable started supplies injective
    room

def smallMemory : Config := { Config.standard with pageSize := 64, poolPages := 2, spillToDisk := false }

-- Three rows fill a bucket of the small memory, and two buckets fill it.
def repeatedRows : List Row :=
  [⟨[.int 1]⟩, ⟨[.decimal 150 2]⟩, ⟨[.int 1]⟩, ⟨[.decimal 15 1]⟩, ⟨[.int 2]⟩, ⟨[.int 3]⟩, ⟨[.int 4]⟩, ⟨[.int 2]⟩,
    ⟨[.int 5]⟩, ⟨[.int 1]⟩, ⟨[.int 6]⟩, ⟨[.int 7]⟩]

theorem repeated_rows_evict (index : HashIndex PageStore) (made : HashIndex.ofConfig smallMemory = .ok index) :
    Evicts index (repeatedRows.map Row.fingerprint) := by
  obtain ⟨other, pages, contents, made', holds, -, whole⟩ :=
    of_config_holds smallMemory PageStore.usableDirectory (by decide) nofun
  obtain rfl : other = index := Except.ok.inj (made'.symm.trans made)
  exact (spilled_iff_evicts _ holds whole).mp (test_of_ok made (fun index => (insertAll index _).hasSpilled)
    (by decide +kernel))

theorem repeated_rows_distinct :
    let engine := Engine.make smallMemory 1
    let source := distinct (listing fun _ _ => .ok repeatedRows) 0
    ∃ s, source.start (.of "main") engine = .ok s ∧
      (source.drain (.of "main") s engine).rows = .ok (Row.firstOccurrences repeatedRows) ∧
      ∃ count, (source.drain (.of "main") s engine).engine.warningsOn [0] = [spillWarning count] := by
  obtain ⟨index, drained, made, started, rfl, rows, warned, -⟩ :=
    distinct_drains_first_occurrences (listing fun _ _ => .ok repeatedRows) (.of "main") 0 (Engine.make smallMemory 1)
      (Engine.make smallMemory 1) ((), none) repeatedRows none (by decide) nofun rfl
      (listing_supplies _ _ _ repeatedRows _ rfl rfl) (by decide) (by decide +kernel) (by decide +kernel)
  exact ⟨_, started, rows, warned (repeated_rows_evict index made)⟩

-- Without the bound on lengths the second row is lost: both begin with a string that is counted as an empty one.
theorem overlong_rows_merged :
    let filler := String.ofList (List.replicate (2 ^ 32 - 5) 'a')
    let rows := [Row.overlong filler, Row.overlongSwapped filler]
    let engine := Engine.make smallMemory 1
    let source := distinct (listing fun _ _ => .ok rows) 0
    engine.config.validate = .ok () ∧ engine.CanSpill ∧
      Supplies (listing fun _ _ => .ok rows) (.of "main") 0 ((), none) engine rows none ∧
      (∀ a ∈ rows, ∀ b ∈ rows, a.fingerprint = b.fingerprint → a.canonical = b.canonical) ∧
      (∀ row ∈ rows, (neighbours (rows.map Row.fingerprint).dedup row.fingerprint).length ≤
        BucketPage.capacity engine.config.pageSize) ∧
      Row.firstOccurrences rows = rows ∧
      ∃ s, source.start (.of "main") engine = .ok s ∧
        (source.drain (.of "main") s engine).rows = .ok [Row.overlong filler] := by
  intro filler rows engine source
  have full : (Text.utf8 filler).length + 5 = 2 ^ 32 := Row.filler_full _ (by decide)
  clear_value filler
  have same := Row.overlong_canonical full
  have print : (Row.overlongSwapped filler).fingerprint = (Row.overlong filler).fingerprint := by
    rw [Row.fingerprint, ← same, Row.fingerprint]
  have supplies : Supplies (listing fun _ _ => .ok rows) (.of "main") 0 ((), none) engine rows none :=
    listing_supplies _ _ _ rows _ rfl rfl
  have injective : ∀ a ∈ rows, ∀ b ∈ rows, a.fingerprint = b.fingerprint → a.canonical = b.canonical := by
    simp [rows, same]
  have room : ∀ row ∈ rows, (neighbours (rows.map Row.fingerprint).dedup row.fingerprint).length ≤
      BucketPage.capacity engine.config.pageSize := by
    intro row _
    have one : (rows.map Row.fingerprint).dedup = [(Row.overlong filler).fingerprint] := by simp [rows, print]
    rw [one]
    exact Nat.le_trans (List.length_filter_le _ _) (show 1 ≤ BucketPage.capacity 64 by decide)
  have usable : engine.CanSpill := Engine.can_spill_of_memory rfl
  obtain ⟨index, drained, made, started, rfl, handed, -⟩ :=
    distinct_drains_first_by (listing fun _ _ => .ok rows) (.of "main") 0 engine engine ((), none) rows none (by decide)
      usable rfl supplies injective room
  refine ⟨by decide, usable, supplies, injective, room, Row.overlong_first_occurrences full, _, started, ?_⟩
  rw [handed]
  simp [rows, Row.firstBy, same]

end Source

end ShardQuery
