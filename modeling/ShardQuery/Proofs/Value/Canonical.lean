import ShardQuery.Row
import ShardQuery.Proofs.Repetition
/-!
Canonical bytes say where they end. Main statement: rows whose lengths fit their counters have the same canonical
bytes exactly when they are equal.
-/

set_option autoImplicit false

namespace ShardQuery

theorem little_append_inj (width m n : Nat) (x y : Bytes) (small : m < 256 ^ width) (small' : n < 256 ^ width)
    (same : Bytes.little width m ++ x = Bytes.little width n ++ y) : m = n ∧ x = y := by
  obtain ⟨counters, rests⟩ := List.append_inj same (by simp)
  refine ⟨?_, rests⟩
  have values := congrArg Bytes.value counters
  rwa [Bytes.value_little, Bytes.value_little, Nat.mod_eq_of_lt small, Nat.mod_eq_of_lt small'] at values

-- What is written for one thing is never the beginning of what is written for another, and the rest is known.
def Delimited {α : Type} (write : α → Bytes) (allowed : α → Prop) : Prop :=
  ∀ a b x y, allowed a → allowed b → write a ++ x = write b ++ y → write a = write b ∧ x = y

section Delimited

variable {α : Type} {write : α → Bytes} {allowed : α → Prop}

theorem fixed_width_delimited (width : Nat) (fixed : ∀ a, (write a).length = width) : Delimited write allowed := by
  intro a b x y _ _ same
  exact List.append_inj same (by rw [fixed, fixed])

theorem sequence_delimited (delimited : Delimited write allowed) (as bs : List α) (x y : Bytes)
    (counts : as.length = bs.length) (allowedAs : ∀ a ∈ as, allowed a) (allowedBs : ∀ b ∈ bs, allowed b)
    (same : as.flatMap write ++ x = bs.flatMap write ++ y) : as.map write = bs.map write ∧ x = y := by
  induction as generalizing bs with
  | nil =>
      cases bs with
      | nil => exact ⟨rfl, same⟩
      | cons b bs => cases counts
  | cons a as ih =>
      cases bs with
      | nil => cases counts
      | cons b bs =>
          rw [List.flatMap_cons, List.flatMap_cons, List.append_assoc, List.append_assoc] at same
          obtain ⟨first, others⟩ := delimited a b _ _ (allowedAs a List.mem_cons_self) (allowedBs b List.mem_cons_self) same
          obtain ⟨rest, ends⟩ := ih bs (Nat.succ.inj counts) (fun c among => allowedAs c (List.mem_cons_of_mem _ among))
            (fun c among => allowedBs c (List.mem_cons_of_mem _ among)) others
          exact ⟨by rw [List.map_cons, List.map_cons, first, rest], ends⟩

theorem counted_sequence_delimited (delimited : Delimited write allowed) (as bs : List α) (x y : Bytes)
    (shortAs : as.length < 2 ^ 32) (shortBs : bs.length < 2 ^ 32) (allowedAs : ∀ a ∈ as, allowed a)
    (allowedBs : ∀ b ∈ bs, allowed b)
    (same : Bytes.little 4 as.length ++ as.flatMap write ++ x = Bytes.little 4 bs.length ++ bs.flatMap write ++ y) :
    as.length = bs.length ∧ as.map write = bs.map write ∧ x = y := by
  rw [List.append_assoc, List.append_assoc] at same
  obtain ⟨counts, rests⟩ := little_append_inj 4 _ _ _ _ shortAs shortBs same
  exact ⟨counts, sequence_delimited delimited as bs x y counts allowedAs allowedBs rests⟩

end Delimited

namespace Value

theorem id_members_length_le (members : List UInt64) : (idMembers members).length ≤ members.length :=
  Nat.le_trans (erase_reps_sublist _).length_le (Nat.le_of_eq (List.length_mergeSort _))

theorem string_members_length_le (members : List String) : (stringMembers members).length ≤ members.length :=
  Nat.le_trans (erase_reps_sublist _).length_le (Nat.le_of_eq (List.length_mergeSort _))

theorem mem_of_string_members (members : List String) (s : String) (member : s ∈ stringMembers members) :
    s ∈ members :=
  List.mem_mergeSort.mp ((erase_reps_sublist _).subset member)

def ShortString (s : String) : Prop := (Text.utf8 s).length < 2 ^ 32

-- Every length in the value fits the four bytes that count it.
def Measured : Value → Prop
  | .string s => ShortString s
  | .idSet members => members.length < 2 ^ 32
  | .stringSet members => members.length < 2 ^ 32 ∧ ∀ s ∈ members, ShortString s
  | _ => True

instance (s : String) : Decidable (ShortString s) := inferInstanceAs (Decidable ((Text.utf8 s).length < 2 ^ 32))

instance (v : Value) : Decidable v.Measured :=
  match v with
  | .string s => inferInstanceAs (Decidable (ShortString s))
  | .idSet members => inferInstanceAs (Decidable (members.length < 2 ^ 32))
  | .stringSet members => inferInstanceAs (Decidable (members.length < 2 ^ 32 ∧ ∀ s ∈ members, ShortString s))
  | .null | .bool _ | .int _ | .id _ | .decimal .. | .timestamp _ => .isTrue trivial

theorem string_bytes_delimited : Delimited stringBytes ShortString := by
  intro s t x y short short' same
  unfold stringBytes at same ⊢
  rw [List.append_assoc, List.append_assoc] at same
  obtain ⟨counts, rests⟩ := little_append_inj 4 _ _ _ _ short short' same
  obtain ⟨texts, ends⟩ := List.append_inj rests counts
  exact ⟨by rw [texts], ends⟩

theorem flat_map_of_map {α : Type} (write : α → Bytes) (as bs : List α) (same : as.map write = bs.map write) :
    as.flatMap write = bs.flatMap write := by
  rw [List.flatMap_def, List.flatMap_def, same]

-- The first byte tells the kind of a value, so only values of one kind are left to be compared.
theorem canonical_delimited : Delimited canonical Measured := by
  intro v w x y measured measured' same
  have heads : v.canonical.head? = w.canonical.head? := by
    have first := congrArg List.head? same
    cases v <;> cases w <;> exact first
  cases v <;> cases w <;> try cases heads
  case null.null => exact ⟨rfl, (List.cons.inj same).2⟩
  case bool.bool a b => exact List.append_inj same rfl
  case int.int m n => exact List.append_inj same (by simp [canonical, Bytes.signed64, Bytes.word64])
  case id.id m n => exact List.append_inj same (by simp [canonical, Bytes.word64])
  case decimal.decimal => exact List.append_inj same (by simp [canonical, Bytes.signed64, Bytes.word64])
  case timestamp.timestamp => exact List.append_inj same (by simp [canonical, Bytes.signed64, Bytes.word64])
  case string.string s t =>
      obtain ⟨texts, ends⟩ := string_bytes_delimited s t x y measured measured' (List.cons.inj same).2
      exact ⟨congrArg (List.cons 5) texts, ends⟩
  case idSet.idSet ms ns =>
      have fixed : Delimited Bytes.word64 fun _ => True := fixed_width_delimited 8 fun a => Bytes.little_length 8 _
      obtain ⟨counts, words, ends⟩ := counted_sequence_delimited fixed (idMembers ms) (idMembers ns) x y
        (Nat.lt_of_le_of_lt (id_members_length_le ms) measured) (Nat.lt_of_le_of_lt (id_members_length_le ns) measured')
        (by simp) (by simp) (List.cons.inj same).2
      exact ⟨by simp only [canonical, counts, flat_map_of_map _ _ _ words], ends⟩
  case stringSet.stringSet ms ns =>
      obtain ⟨counts, texts, ends⟩ := counted_sequence_delimited string_bytes_delimited (stringMembers ms)
        (stringMembers ns) x y (Nat.lt_of_le_of_lt (string_members_length_le ms) measured.1)
        (Nat.lt_of_le_of_lt (string_members_length_le ns) measured'.1)
        (fun s member => measured.2 s (mem_of_string_members ms s member))
        (fun s member => measured'.2 s (mem_of_string_members ns s member)) (List.cons.inj same).2
      exact ⟨by simp only [canonical, counts, flat_map_of_map _ _ _ texts], ends⟩

end Value

namespace Row

def Measured (row : Row) : Prop := row.values.length < 2 ^ 32 ∧ ∀ v ∈ row.values, v.Measured

instance (row : Row) : Decidable row.Measured :=
  inferInstanceAs (Decidable (row.values.length < 2 ^ 32 ∧ ∀ v ∈ row.values, v.Measured))

theorem beq_iff_map_canonical (a b : Row) :
    (a == b) = true ↔ a.values.map Value.canonical = b.values.map Value.canonical := by
  obtain ⟨as⟩ := a
  obtain ⟨bs⟩ := b
  change (as == bs) = true ↔ as.map Value.canonical = bs.map Value.canonical
  induction as generalizing bs with
  | nil => cases bs <;> simp
  | cons v as ih =>
      cases bs with
      | nil => simp
      | cons w bs =>
          rw [List.cons_beq_cons, Bool.and_eq_true, Value.beq_iff, ih bs, List.map_cons, List.map_cons, List.cons.injEq]

theorem canonical_of_beq (a b : Row) (equal : (a == b) = true) : a.canonical = b.canonical := by
  have values := (beq_iff_map_canonical a b).mp equal
  have counts : a.values.length = b.values.length := by simpa using congrArg List.length values
  rw [canonical, canonical, counts, Value.flat_map_of_map _ _ _ values]

theorem canonical_eq_iff (a b : Row) (measured : a.Measured) (measured' : b.Measured) :
    a.canonical = b.canonical ↔ (a == b) = true := by
  refine ⟨fun same => ?_, canonical_of_beq a b⟩
  rw [beq_iff_map_canonical]
  have padded : a.canonical ++ [] = b.canonical ++ [] := congrArg (· ++ []) same
  exact (counted_sequence_delimited Value.canonical_delimited a.values b.values [] [] measured.1 measured'.1 measured.2
    measured'.2 padded).2.1

-- A string of 2 ^ 32 bytes is counted as an empty one, and what it begins with reads as the empty string after it.
def overlong (filler : String) : Row := ⟨[.string ("\x05\x00\x00\x00\x00" ++ filler), .string ""]⟩

def overlongSwapped (filler : String) : Row := ⟨[.string "", .string (filler ++ "\x05\x00\x00\x00\x00")]⟩

theorem utf8_append (a b : String) : Text.utf8 (a ++ b) = Text.utf8 a ++ Text.utf8 b := by simp [Text.utf8]

theorem filler_full (n : Nat) (full : n + 5 = 2 ^ 32) :
    (Text.utf8 (.ofList (List.replicate n 'a'))).length + 5 = 2 ^ 32 := by
  have repeated : Text.utf8 (.ofList (List.replicate n 'a')) = List.replicate n 97 := by
    clear full
    induction n with
    | zero => rfl
    | succ n ih =>
        rw [List.replicate_succ, String.ofList_cons, utf8_append, ih, List.replicate_succ]
        rfl
  rw [repeated, List.length_replicate, full]

section Overlong

variable {filler : String} (full : (Text.utf8 filler).length + 5 = 2 ^ 32)
include full

theorem string_bytes_overlong :
    Value.stringBytes ("\x05\x00\x00\x00\x00" ++ filler) = [0, 0, 0, 0] ++ ([5, 0, 0, 0, 0] ++ Text.utf8 filler) ∧
      Value.stringBytes (filler ++ "\x05\x00\x00\x00\x00") = [0, 0, 0, 0] ++ (Text.utf8 filler ++ [5, 0, 0, 0, 0]) := by
  have mark : Text.utf8 "\x05\x00\x00\x00\x00" = [5, 0, 0, 0, 0] := rfl
  have empty : Bytes.little 4 (2 ^ 32) = [0, 0, 0, 0] := rfl
  have counted : ([5, 0, 0, 0, 0] ++ Text.utf8 filler).length = 2 ^ 32 := by
    rw [List.length_append, Nat.add_comm]
    exact full
  have counted' : (Text.utf8 filler ++ [5, 0, 0, 0, 0]).length = 2 ^ 32 := by
    rw [List.length_append]
    exact full
  rw [Value.stringBytes, Value.stringBytes, utf8_append, utf8_append, mark, counted, counted', empty]
  exact ⟨rfl, rfl⟩

theorem overlong_canonical : (overlong filler).canonical = (overlongSwapped filler).canonical := by
  obtain ⟨first, second⟩ := string_bytes_overlong full
  have empty : Value.stringBytes "" = [0, 0, 0, 0] := rfl
  simp [overlong, overlongSwapped, canonical, Value.canonical, first, second, empty]

theorem overlong_first_occurrences :
    firstOccurrences [overlong filler, overlongSwapped filler] = [overlong filler, overlongSwapped filler] := by
  have apart : (overlong filler == overlongSwapped filler) = false := by
    rw [Bool.eq_false_iff, Ne, beq_iff_map_canonical]
    intro same
    have heads : Value.stringBytes _ = Value.stringBytes "" := (List.cons.inj (List.cons.inj same).1).2
    rw [(string_bytes_overlong full).1] at heads
    cases heads
  simp [firstOccurrences, apart]

end Overlong

end Row

end ShardQuery
