import ShardQuery.Proofs.Index.PageImage
/-!
Which byte strings are the stored form of a bucket page. Main statement: a page is stored exactly if its entries fit and
a buffer holds it, and a byte string that is read as a page is the stored form of that page but for the bytes behind the
last entry.
-/

set_option autoImplicit false

namespace ShardQuery.BucketPage

-- The number of entries by the header.
def storedCount (bytes : Bytes) : Nat := Bytes.value ((bytes.drop 6).take 2)

theorem taken_value_lt (width : Nat) (bytes : Bytes) : Bytes.value (bytes.take width) < 256 ^ width :=
  Nat.lt_of_lt_of_le (Bytes.value_lt _) (Nat.pow_le_pow_right (by decide) (List.length_take_le _ _))

-- The bytes that a number was read from are its bytes again.
theorem little_taken (width : Nat) (bytes : Bytes) (long : width ≤ bytes.length) :
    Bytes.little width (Bytes.value (bytes.take width)) = bytes.take width := by
  have again := Bytes.little_value (bytes.take width)
  rwa [List.length_take, Nat.min_eq_left long] at again

theorem word16_taken (bytes : Bytes) (long : 2 ≤ bytes.length) :
    Bytes.word16 (UInt16.ofNat (Bytes.value (bytes.take 2))) = bytes.take 2 := by
  rw [Bytes.word16, UInt16.toNat_ofNat_of_lt' (taken_value_lt 2 bytes), little_taken 2 bytes long]

theorem word32_taken (bytes : Bytes) (long : 4 ≤ bytes.length) :
    Bytes.word32 (UInt32.ofNat (Bytes.value (bytes.take 4))) = bytes.take 4 := by
  rw [Bytes.word32, UInt32.toNat_ofNat_of_lt' (taken_value_lt 4 bytes), little_taken 4 bytes long]

theorem word64_taken (bytes : Bytes) (long : 8 ≤ bytes.length) :
    Bytes.word64 (UInt64.ofNat (Bytes.value (bytes.take 8))) = bytes.take 8 := by
  rw [Bytes.word64, UInt64.toNat_ofNat_of_lt' (taken_value_lt 8 bytes), little_taken 8 bytes long]

theorem decode_entries_length (count : Nat) (bytes : Bytes) : (decodeEntries count bytes).length = count := by
  induction count generalizing bytes with
  | zero => rfl
  | succ count ih => rw [decodeEntries, List.length_cons, ih]

theorem decoded_entries_encoded (count : Nat) (bytes : Bytes) (long : entrySize * count ≤ bytes.length) :
    (decodeEntries count bytes).flatMap encodeEntry = bytes.take (entrySize * count) := by
  induction count generalizing bytes with
  | zero => rfl
  | succ count ih =>
      rw [Nat.mul_succ, entrySize] at long
      have first : encodeEntry ⟨UInt64.ofNat (Bytes.value (bytes.take 8)),
          UInt64.ofNat (Bytes.value ((bytes.drop 8).take 8))⟩ = bytes.take entrySize := by
        rw [encodeEntry, word64_taken bytes (by omega), word64_taken (bytes.drop 8) (by rw [List.length_drop]; omega)]
        exact List.take_add.symm
      have rest := ih (bytes.drop entrySize) (by rw [List.length_drop, entrySize]; omega)
      rw [decodeEntries, List.flatMap_cons, first, rest, ← List.take_add, Nat.mul_succ, Nat.add_comm]

theorem decode_fitting (bytes : Bytes) (headed : headerSize ≤ bytes.length)
    (long : headerSize + entrySize * storedCount bytes ≤ bytes.length) :
    decode bytes = .ok ⟨UInt32.ofNat (Bytes.value (bytes.take 4)), UInt16.ofNat (Bytes.value ((bytes.drop 4).take 2)),
      decodeEntries (storedCount bytes) (bytes.drop headerSize)⟩ := by
  refine if_neg (not_or.mpr ⟨Nat.not_lt.mpr headed, ?_⟩)
  exact Nat.not_lt.mpr long

theorem decode_ok_iff (bytes : Bytes) :
    (∃ page, decode bytes = .ok page) ↔
      headerSize ≤ bytes.length ∧ headerSize + entrySize * storedCount bytes ≤ bytes.length := by
  constructor
  · rintro ⟨page, decoded⟩
    rw [decode] at decoded
    split at decoded
    · cases decoded
    · rename_i long
      rw [not_or, Nat.not_lt, Nat.not_lt] at long
      exact long
  · rintro ⟨headed, long⟩
    exact ⟨_, decode_fitting bytes headed long⟩

section Decoded

variable {bytes : Bytes} {page : BucketPage}

theorem decoded_count (decoded : decode bytes = .ok page) : page.entries.length = storedCount bytes := by
  obtain ⟨headed, long⟩ := (decode_ok_iff bytes).mp ⟨page, decoded⟩
  rw [decode_fitting bytes headed long] at decoded
  rw [← Except.ok.inj decoded]
  exact decode_entries_length _ _

-- The page number, the depth, the count and the entries follow each other in the bytes.
theorem decoded_body (decoded : decode bytes = .ok page) : page.body = bytes.take page.body.length := by
  obtain ⟨headed, long⟩ := (decode_ok_iff bytes).mp ⟨page, decoded⟩
  have count := decoded_count decoded
  rw [body_length, count]
  rw [decode_fitting bytes headed long] at decoded
  obtain rfl := (Except.ok.inj decoded).symm
  unfold headerSize at headed long
  have id := word32_taken bytes (by omega)
  have depth := word16_taken (bytes.drop 4) (by rw [List.length_drop]; omega)
  have counted : Bytes.little 2 (storedCount bytes) = (bytes.drop 6).take 2 :=
    little_taken 2 (bytes.drop 6) (by rw [List.length_drop]; omega)
  have entries := decoded_entries_encoded (storedCount bytes) (bytes.drop headerSize)
    (by rw [List.length_drop, headerSize]; omega)
  have header : bytes.take 4 ++ (bytes.drop 4).take 2 ++ (bytes.drop 6).take 2 = bytes.take headerSize := by
    rw [← List.take_add, ← List.take_add]
    rfl
  rw [body, id, depth, count, counted, entries, header, ← List.take_add]

theorem decoded_fits (decoded : decode bytes = .ok page) : page.entries.length ≤ capacity bytes.length := by
  obtain ⟨headed, long⟩ := (decode_ok_iff bytes).mp ⟨page, decoded⟩
  have small : storedCount bytes < 256 ^ 2 := taken_value_lt 2 (bytes.drop 6)
  rw [decoded_count decoded]
  unfold capacity headerSize entrySize at *
  omega

theorem decoded_image (decoded : decode bytes = .ok page) :
    page.image bytes.length =
      bytes.take page.body.length ++ List.replicate (bytes.length - page.body.length) 0 := by
  have headed := ((decode_ok_iff bytes).mp ⟨page, decoded⟩).1
  rw [image_padded page bytes.length headed (decoded_fits decoded), ← decoded_body decoded]

end Decoded

theorem encode_refused_iff (page : BucketPage) (pageSize : Nat) :
    (∃ e, page.encode pageSize = .error e) ↔
      capacity pageSize < page.entries.length ∨ Bytes.largest < pageSize := by
  constructor
  · rintro ⟨e, refused⟩
    unfold encode at refused
    split at refused
    · exact .inl ‹_›
    · split at refused
      · exact .inr ‹_›
      · cases refused
  · intro unfit
    unfold encode
    split
    · exact ⟨_, rfl⟩
    · rw [if_pos (unfit.resolve_left ‹_›)]
      exact ⟨_, rfl⟩

theorem stored_pages_exact :
    (∀ (page : BucketPage) (pageSize : Nat), headerSize ≤ pageSize →
      ((∃ e, page.encode pageSize = .error e) ↔
        capacity pageSize < page.entries.length ∨ Bytes.largest < pageSize) ∧
      ∀ bytes, page.encode pageSize = .ok bytes → bytes.length = pageSize ∧ decode bytes = .ok page) ∧
    ∀ bytes : Bytes, bytes.length ≤ Bytes.largest →
      ((∃ page, decode bytes = .ok page) ↔
        headerSize ≤ bytes.length ∧ headerSize + entrySize * storedCount bytes ≤ bytes.length) ∧
      ∀ page, decode bytes = .ok page → page.entries.length = storedCount bytes ∧
        page.encode bytes.length = .ok (bytes.take (headerSize + entrySize * page.entries.length) ++
          List.replicate (bytes.length - (headerSize + entrySize * page.entries.length)) 0) := by
  refine ⟨fun page pageSize headed => ⟨encode_refused_iff page pageSize, fun bytes encoded => ?_⟩,
    fun bytes held => ⟨decode_ok_iff bytes, fun page decoded => ⟨decoded_count decoded, ?_⟩⟩⟩
  · obtain ⟨rfl, fits⟩ := encode_ok encoded
    exact ⟨image_length page pageSize, decode_image page pageSize headed fits⟩
  · rw [encode_fitting page bytes.length held (decoded_fits decoded), decoded_image decoded, body_length]

-- Three bytes behind the only entry, which are no part of the page.
theorem trailing_bytes_cleared :
    let page : BucketPage := ⟨7, 2, [⟨5, 9⟩]⟩
    decode (page.body ++ [1, 2, 3]) = .ok page ∧ page.encode 27 = .ok (page.body ++ [0, 0, 0]) ∧
      ∃ e, page.encode 23 = .error e := by
  intro page
  have decoded : decode (page.body ++ [1, 2, 3]) = .ok page := decode_body page [1, 2, 3] (by decide)
  obtain ⟨stored, read⟩ := stored_pages_exact
  obtain ⟨-, again⟩ := read (page.body ++ [1, 2, 3]) (by decide)
  exact ⟨decoded, (again page decoded).2, (stored page 23 (by decide)).1.mpr (.inl (by decide))⟩

-- A page without entries fits, but no buffer holds half of the machine's addresses.
theorem largest_page_not_stored :
    ¬ ∀ (page : BucketPage) (pageSize : Nat), headerSize ≤ pageSize →
      ((∃ e, page.encode pageSize = .error e) ↔ capacity pageSize < page.entries.length) := by
  intro exactly
  have refused := (encode_refused_iff ⟨0, 0, []⟩ (2 ^ 63)).mpr (.inr (by decide))
  exact absurd ((exactly ⟨0, 0, []⟩ (2 ^ 63) (by decide)).mp refused) (Nat.not_lt_zero _)

end ShardQuery.BucketPage
