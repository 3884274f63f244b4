import ShardQuery.Index.Page
/-!
The stored form of a bucket page. Main statement: a page whose entries fit is read back from its image.
-/

set_option autoImplicit false

namespace ShardQuery.BucketPage

@[simp] theorem encode_entry_length (entry : Fingerprint) : (encodeEntry entry).length = entrySize := by
  simp [encodeEntry, Bytes.word64, entrySize]

theorem encode_entries_length (entries : List Fingerprint) :
    (entries.flatMap encodeEntry).length = entrySize * entries.length := by
  induction entries with
  | nil => rfl
  | cons entry rest ih =>
      rw [List.flatMap_cons, List.length_append, encode_entry_length, ih, List.length_cons, Nat.mul_succ, Nat.add_comm]

theorem body_length (page : BucketPage) : page.body.length = headerSize + entrySize * page.entries.length := by
  have header : (Bytes.word32 page.id ++ Bytes.word16 page.depth ++ Bytes.little 2 page.entries.length).length =
      headerSize := by simp [Bytes.word32, Bytes.word16, headerSize]
  rw [body, List.length_append, header, encode_entries_length]

theorem body_fits (page : BucketPage) (pageSize : Nat) (headed : headerSize ≤ pageSize)
    (fits : page.entries.length ≤ capacity pageSize) : page.body.length ≤ pageSize := by
  rw [body_length]
  unfold capacity headerSize entrySize at *
  omega

theorem image_padded (page : BucketPage) (pageSize : Nat) (headed : headerSize ≤ pageSize)
    (fits : page.entries.length ≤ capacity pageSize) :
    page.image pageSize = page.body ++ List.replicate (pageSize - page.body.length) 0 := by
  have bound := body_fits page pageSize headed fits
  rw [image, List.take_of_length_le]
  simp only [List.length_append, List.length_replicate]
  omega

theorem image_length (page : BucketPage) (pageSize : Nat) : (page.image pageSize).length = pageSize := by
  simp only [image, List.length_take, List.length_append, List.length_replicate]
  omega

theorem value_little_take (width n : Nat) (rest : Bytes) (small : n < 256 ^ width) :
    Bytes.value ((Bytes.little width n ++ rest).take width) = n := by
  rw [List.take_left' (Bytes.little_length width n), Bytes.value_little, Nat.mod_eq_of_lt small]

theorem decode_entries_encoded (entries : List Fingerprint) (rest : Bytes) :
    decodeEntries entries.length (entries.flatMap encodeEntry ++ rest) = entries := by
  induction entries with
  | nil => rfl
  | cons entry entries ih =>
      have split : (entry :: entries).flatMap encodeEntry ++ rest =
          Bytes.word64 entry.hi ++ (Bytes.word64 entry.lo ++ (entries.flatMap encodeEntry ++ rest)) := by
        simp [encodeEntry]
      have hi : Bytes.value ((Bytes.word64 entry.hi ++ (Bytes.word64 entry.lo ++
          (entries.flatMap encodeEntry ++ rest))).take 8) = entry.hi.toNat :=
        value_little_take 8 _ _ entry.hi.toNat_lt
      have lo : Bytes.value ((Bytes.word64 entry.lo ++ (entries.flatMap encodeEntry ++ rest)).take 8) =
          entry.lo.toNat := value_little_take 8 _ _ entry.lo.toNat_lt
      have skipHi : (Bytes.word64 entry.hi ++ (Bytes.word64 entry.lo ++
          (entries.flatMap encodeEntry ++ rest))).drop 8 =
          Bytes.word64 entry.lo ++ (entries.flatMap encodeEntry ++ rest) :=
        List.drop_left' (Bytes.little_length 8 _)
      have skipBoth : (Bytes.word64 entry.hi ++ (Bytes.word64 entry.lo ++
          (entries.flatMap encodeEntry ++ rest))).drop entrySize = entries.flatMap encodeEntry ++ rest := by
        rw [← List.append_assoc]
        exact List.drop_left' (encode_entry_length entry)
      rw [List.length_cons, decodeEntries, split, hi, skipHi, lo, skipBoth, ih, UInt64.ofNat_toNat,
        UInt64.ofNat_toNat]

theorem decode_body (page : BucketPage) (rest : Bytes) (countable : page.entries.length < 65536) :
    decode (page.body ++ rest) = .ok page := by
  let entries := page.entries.flatMap encodeEntry ++ rest
  let count := Bytes.little 2 page.entries.length
  have split : page.body ++ rest = Bytes.word32 page.id ++ (Bytes.word16 page.depth ++ (count ++ entries)) := by
    simp [body, entries, count]
  have id : Bytes.value ((page.body ++ rest).take 4) = page.id.toNat := by
    rw [split]
    exact value_little_take 4 _ _ page.id.toNat_lt
  have skipId : (page.body ++ rest).drop 4 = Bytes.word16 page.depth ++ (count ++ entries) := by
    rw [split]
    exact List.drop_left' (Bytes.little_length 4 _)
  have depth : Bytes.value (((page.body ++ rest).drop 4).take 2) = page.depth.toNat := by
    rw [skipId]
    exact value_little_take 2 _ _ page.depth.toNat_lt
  have skipDepth : (page.body ++ rest).drop 6 = count ++ entries := by
    rw [← List.drop_drop (i := 2) (j := 4), skipId]
    exact List.drop_left' (Bytes.little_length 2 _)
  have number : Bytes.value (((page.body ++ rest).drop 6).take 2) = page.entries.length := by
    rw [skipDepth]
    exact value_little_take 2 _ _ countable
  have skipHeader : (page.body ++ rest).drop headerSize = entries := by
    rw [show headerSize = 6 + 2 from rfl, ← List.drop_drop, skipDepth]
    exact List.drop_left' (Bytes.little_length 2 _)
  have long : headerSize + entrySize * page.entries.length ≤ (page.body ++ rest).length := by
    rw [List.length_append, body_length]
    exact Nat.le_add_right _ _
  have header : headerSize ≤ (page.body ++ rest).length := Nat.le_trans (Nat.le_add_right _ _) long
  rw [decode, number, if_neg (by omega), id, depth, skipHeader, decode_entries_encoded, UInt32.ofNat_toNat,
    UInt16.ofNat_toNat]

theorem decode_image (page : BucketPage) (pageSize : Nat) (headed : headerSize ≤ pageSize)
    (fits : page.entries.length ≤ capacity pageSize) : decode (page.image pageSize) = .ok page := by
  have countable : page.entries.length < 65536 :=
    Nat.lt_succ_of_le (Nat.le_trans fits (Nat.min_le_right _ _))
  rw [image_padded page pageSize headed fits, decode_body page _ countable]

theorem encode_fitting (page : BucketPage) (pageSize : Nat) (storable : pageSize ≤ Bytes.largest)
    (fits : page.entries.length ≤ capacity pageSize) : page.encode pageSize = .ok (page.image pageSize) := by
  rw [encode, if_neg (Nat.not_lt.mpr fits), if_neg (Nat.not_lt.mpr storable)]

theorem encode_ok {page : BucketPage} {pageSize : Nat} {bytes : Bytes} (encoded : page.encode pageSize = .ok bytes) :
    bytes = page.image pageSize ∧ page.entries.length ≤ capacity pageSize := by
  unfold encode at encoded
  split at encoded
  · cases encoded
  · rename_i fits
    split at encoded
    · cases encoded
    · exact ⟨(Except.ok.inj encoded).symm, Nat.le_of_not_lt fits⟩

theorem encoded_length {page : BucketPage} {pageSize : Nat} {bytes : Bytes}
    (encoded : page.encode pageSize = .ok bytes) : bytes.length = pageSize := by
  rw [(encode_ok encoded).1, image_length]

-- No page but the encoded one is decoded. An image without room for a header is not decoded at all.
theorem decode_encoded {page found : BucketPage} {pageSize : Nat} {bytes : Bytes}
    (encoded : page.encode pageSize = .ok bytes) (decoded : decode bytes = .ok found) : found = page := by
  obtain ⟨rfl, fits⟩ := encode_ok encoded
  by_cases headed : headerSize ≤ pageSize
  · rw [decode_image page pageSize headed fits] at decoded
    exact (Except.ok.inj decoded).symm
  · have short : (page.image pageSize).length < headerSize := by
      rw [image_length]
      exact Nat.lt_of_not_le headed
    rw [decode, if_pos (.inl short)] at decoded
    cases decoded

end ShardQuery.BucketPage
