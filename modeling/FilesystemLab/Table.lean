import FilesystemLab.Region

/-!
# Tables of records

`src/inode_table.rs` and `src/directory_table.rs` store a list of
self-delimiting records behind one checksummed header.  The two modules differ
in their magic, their record codec, the key that must be unique and a few words
of their messages; `TableFormat` has these as fields, and the functions of the
two modules are the functions below at two formats.

A format is `Lawful` when its record codec reads back what it writes, up to a
normal form of the record, and accepts nothing that it would not write.
`decodeImage_of_encode` and `encodeImage_of_decode` lift this to whole tables.
-/

namespace FilesystemLab

open Bytes

def TABLE_VERSION : Nat := 1

/-- What the two table modules do not share. -/
structure TableFormat (ρ κ : Type) where
  magic : List UInt8
  /-- The word for the table in messages. -/
  noun : String
  torn : String
  duplicate : String
  /-- The key that no two records share. -/
  key : ρ → κ
  encode : ρ → Result (List UInt8)
  decode : List UInt8 → Result ρ

namespace TableFormat

variable {ρ κ : Type} [DecidableEq κ] (F : TableFormat ρ κ)

/-! ## Encoding and decoding -/

/-- The loop of `encode_image`: the payload of a list of records. -/
def encodeRecords (seen : List κ) : List ρ → Result (List UInt8)
  | [] => pure []
  | r :: rs => do
    rejectIf (F.key r ∈ seen) (invalidInput F.duplicate)
    let record ← F.encode r
    let payload ← encodeRecords (F.key r :: seen) rs
    pure (record ++ payload)

/-- `encode_image`. -/
def encodeImage (blocks : Nat) (rs : List ρ) : Result (List UInt8) := do
  let payload ← F.encodeRecords [] rs
  let capacity ← regionLen blocks (F.noun ++ " table byte size overflow")
  let used ← okOr (checkedAdd 32 payload.length)
    (invalidInput (F.noun ++ " image size overflow"))
  rejectIf (used > capacity)
    (invalidInput (F.noun ++ " table image exceeds reserved region"))
  rejectIf (rs.length ≥ 2 ^ 32)
    (invalidInput ("too many " ++ F.noun ++ " records"))
  pure (sealed (regionFront F.magic TABLE_VERSION payload.length rs.length)
    payload ++ zeros (capacity - used))

/-- The loop of `decode_image` over the payload from the current offset.  The
offset is at most the length of the image, so advancing it by a 32-bit record
length does not overflow. -/
def decodeRecords (seen : List κ) (remaining : List UInt8) :
    Result (List ρ) :=
  if remaining = [] then pure []
  else do
    rejectIf (remaining.length < 40) ⟨.unexpectedEof, F.torn⟩
    if _ : readLe remaining 8 4 < 40 then
      .error (invalidData (F.noun ++ " record length is smaller than header"))
    else if _ : readLe remaining 8 4 > remaining.length then
      .error ⟨.unexpectedEof, F.torn⟩
    else
      let r ← F.decode (remaining.take (readLe remaining 8 4))
      rejectIf (F.key r ∈ seen) (invalidData F.duplicate)
      let rs ← decodeRecords (F.key r :: seen)
        (remaining.drop (readLe remaining 8 4))
      pure (r :: rs)
termination_by remaining.length
decreasing_by
  rw [List.length_drop]
  omega

/-- `decode_image`. -/
def decodeImage (image : List UInt8) : Result (List ρ) := do
  rejectIf (image.length < 32)
    (invalidData (F.noun ++ " table region is shorter than header"))
  rejectIf (slice image 0 8 ≠ F.magic)
    (invalidData ("invalid " ++ F.noun ++ " table magic"))
  rejectIf (readLe image 8 4 ≠ TABLE_VERSION)
    (invalidData ("unsupported " ++ F.noun ++ " table version"))
  rejectIf (readLe image 12 4 ≠ 0)
    (invalidData (F.noun ++ " table flags are non-zero"))
  let payloadLen := readLe image 16 8
  let recordCount := readLe image 24 4
  let used ← okOr (checkedAdd 32 payloadLen)
    (invalidData (F.noun ++ " table used length overflow"))
  rejectIf (used > image.length)
    (invalidData (F.noun ++ " table payload exceeds reserved region"))
  rejectIf (allZero (image.drop used) = false)
    (invalidData (F.noun ++ " table trailing padding is non-zero"))
  rejectIf ((crc32 (zeroFill (image.take used) 28 32)).toNat ≠
      readLe image 28 4)
    (invalidData (F.noun ++ " table checksum mismatch"))
  let rs ← F.decodeRecords [] (slice image 32 used)
  rejectIf (rs.length ≠ recordCount)
    (invalidData (F.noun ++ " table record count mismatch"))
  pure rs

/-! ## Loading and storing -/

/-- `validate_geometry`. -/
def validateGeometry {σ : Type} [BlockDevice σ] (device : σ) (sb : Superblock)
    (start blocks : Nat) : Result Unit := do
  rejectIf (blockCount device ≠ sb.totalBlocks) (invalidInput
    (F.noun ++ " table device geometry does not match superblock"))
  rejectIf (blocks = 0 ∨ start + blocks > sb.totalBlocks)
    (invalidInput ("invalid " ++ F.noun ++ " table reservation"))

/-- `load_inode_table` and `load_directory_table`. -/
def load {σ : Type} [BlockDevice σ] (device : σ) (sb : Superblock)
    (start blocks : Nat) : Result (List ρ) := do
  F.validateGeometry device sb start blocks
  let image ← readRegion device start blocks
    (F.noun ++ " table byte size overflow")
  F.decodeImage image

/-- `store_inode_table` and `store_directory_table`. -/
def store {σ : Type} [BlockDevice σ] (sb : Superblock) (start blocks : Nat)
    (rs : List ρ) : DevM σ Unit := do
  Effect.query (F.validateGeometry · sb start blocks)
  let image ← F.encodeImage blocks rs
  writeRegion start blocks (F.noun ++ " table byte size overflow")
    (F.noun ++ " table image has invalid region length") image
  flush

/-- A loaded table depends on its region only. -/
theorem load_congr {σ τ : Type} [BlockDevice σ] [BlockDevice τ] {device : σ}
    {other : τ} {sb : Superblock} {start blocks : Nat}
    (hcount : blockCount device = blockCount other)
    (hread : ∀ b, start ≤ b → b < start + blocks →
      readBlock device b = readBlock other b) :
    F.load device sb start blocks = F.load other sb start blocks := by
  unfold load validateGeometry
  rw [hcount, readRegion_congr hread]

/-! ## Lawful formats -/

/-- The record codec of a format reads back what it writes, up to the normal
form of a record, and accepts only what it writes. -/
structure Lawful (normal : ρ → ρ) : Prop where
  length_magic : F.magic.length = 8
  key_normal : ∀ r, F.key (normal r) = F.key r
  length_encode : ∀ {r bytes}, F.encode r = .ok bytes →
    40 ≤ bytes.length ∧ readLe bytes 8 4 = bytes.length
  decode_encode : ∀ {r bytes}, F.encode r = .ok bytes →
    F.decode bytes = .ok (normal r)
  encode_decode : ∀ {r bytes}, F.decode bytes = .ok r →
    F.encode r = .ok bytes ∧ normal r = r

variable {F} {normal : ρ → ρ}

/-- The records of an encoded payload. -/
theorem decodeRecords_of_encode (law : F.Lawful normal) {seen : List κ}
    {rs : List ρ} {payload : List UInt8}
    (h : F.encodeRecords seen rs = .ok payload) :
    F.decodeRecords seen payload = .ok (rs.map normal) := by
  induction rs generalizing seen payload with
  | nil =>
    simp only [encodeRecords, Except.pure_eq_ok, Except.ok.injEq] at h
    subst h
    unfold decodeRecords
    simp
  | cons r rs ih =>
    simp only [encodeRecords, Except.bind_eq_ok, rejectIf_eq_ok,
      Except.pure_eq_ok, Except.ok.injEq] at h
    obtain ⟨_, hseen, record, hrecord, rest, hrest, rfl⟩ := h
    obtain ⟨hlen, htotal⟩ := law.length_encode hrecord
    have htake : (record ++ rest).take record.length = record := by simp
    have hdrop : (record ++ rest).drop record.length = rest := by simp
    have hread : readLe (record ++ rest) 8 4 = record.length := by
      rw [← htotal]
      unfold readLe
      rw [slice_append_left (by omega)]
    have hne : record ++ rest ≠ [] := by
      intro hnil
      have := congrArg List.length hnil
      simp only [List.length_append, List.length_nil] at this
      omega
    have hshort : ¬ (record ++ rest).length < 40 := by
      rw [List.length_append]
      omega
    have hlong : ¬ record.length > (record ++ rest).length := by
      rw [List.length_append]
      omega
    unfold decodeRecords
    simp only [hne, hread, rejectIf_of_not hshort, htake, hdrop,
      law.decode_encode hrecord, law.key_normal, rejectIf_of_not hseen,
      ih hrest, if_false, Except.ok_bind]
    rw [dif_neg (by omega), dif_neg hlong]
    rfl

/-- A payload that is accepted is the payload of its records. -/
theorem encodeRecords_of_decode (law : F.Lawful normal) {seen : List κ}
    {rs : List ρ} {payload : List UInt8}
    (h : F.decodeRecords seen payload = .ok rs) :
    F.encodeRecords seen rs = .ok payload ∧ rs.map normal = rs := by
  induction hn : payload.length using Nat.strong_induction_on generalizing
    seen rs payload with
  | _ n ih =>
    unfold decodeRecords at h
    split at h
    · rename_i hnil
      simp only [Except.pure_eq_ok, Except.ok.injEq] at h
      subst h hnil
      exact ⟨rfl, rfl⟩
    · simp only [Except.bind_eq_ok, rejectIf_eq_ok] at h
      obtain ⟨_, _, h⟩ := h
      split at h
      · simp at h
      · split at h
        · simp at h
        · rename_i hshort hlong
          simp only [Except.bind_eq_ok, rejectIf_eq_ok, Except.pure_eq_ok,
            Except.ok.injEq] at h
          obtain ⟨r, hr, _, hseen, rest, hrest, rfl⟩ := h
          obtain ⟨hencode, hnormal⟩ := law.encode_decode hr
          obtain ⟨hpayload, hnormals⟩ := ih _
            (by rw [List.length_drop]; omega) hrest rfl
          refine ⟨?_, by rw [List.map_cons, hnormal, hnormals]⟩
          simp only [encodeRecords, rejectIf_of_not hseen, Except.ok_bind,
            hencode, hpayload, Except.pure_eq_ok, List.take_append_drop]

/-- The keys of a table that can be stored are distinct. -/
theorem nodup_of_encodeRecords {seen : List κ} {rs : List ρ}
    {payload : List UInt8} (h : F.encodeRecords seen rs = .ok payload) :
    (rs.map F.key).Nodup ∧ ∀ r ∈ rs, F.key r ∉ seen := by
  induction rs generalizing seen payload with
  | nil => simp
  | cons r rs ih =>
    simp only [encodeRecords, Except.bind_eq_ok, rejectIf_eq_ok] at h
    obtain ⟨_, hseen, _, _, _, hrest, _⟩ := h
    obtain ⟨hnodup, hnotMem⟩ := ih hrest
    constructor
    · rw [List.map_cons, List.nodup_cons]
      refine ⟨?_, hnodup⟩
      intro hmem
      obtain ⟨r', hr', hkey⟩ := List.mem_map.mp hmem
      exact hnotMem r' hr' (by rw [hkey]; exact List.mem_cons_self)
    · intro r' hr'
      rcases List.mem_cons.mp hr' with rfl | hr'
      · exact hseen
      · intro hmem
        exact hnotMem r' hr' (List.mem_cons_of_mem _ hmem)

/-- The records of a stored table can be encoded. -/
theorem encode_of_encodeRecords {seen : List κ} {rs : List ρ}
    {payload : List UInt8} (h : F.encodeRecords seen rs = .ok payload) :
    ∀ r ∈ rs, ∃ bytes, F.encode r = .ok bytes := by
  induction rs generalizing seen payload with
  | nil => simp
  | cons r rs ih =>
    simp only [encodeRecords, Except.bind_eq_ok, Except.pure_eq_ok] at h
    obtain ⟨_, _, record, hrecord, rest, hrest, _⟩ := h
    rw [List.forall_mem_cons]
    exact ⟨⟨record, hrecord⟩, ih hrest⟩

/-- The length of a payload of records of known lengths. -/
theorem length_encodeRecords {size : ρ → Nat} {seen : List κ} {rs : List ρ}
    {payload : List UInt8}
    (hsize : ∀ r bytes, F.encode r = .ok bytes → bytes.length = size r)
    (h : F.encodeRecords seen rs = .ok payload) :
    payload.length = (rs.map size).sum := by
  induction rs generalizing seen payload with
  | nil =>
    cases h
    rfl
  | cons r rs ih =>
    simp only [encodeRecords, Except.bind_eq_ok, Except.pure_eq_ok,
      Except.ok.injEq] at h
    obtain ⟨_, _, record, hrecord, rest, hrest, rfl⟩ := h
    rw [List.length_append, hsize r record hrecord, ih hrest, List.map_cons,
      List.sum_cons]

/-! ## Whole images -/

/-- The checks of `encode_image`, and the image it gives. -/
theorem encodeImage_eq_ok {blocks : Nat} {rs : List ρ} {image : List UInt8} :
    F.encodeImage blocks rs = .ok image ↔
      ∃ payload, F.encodeRecords [] rs = .ok payload ∧
        blocks * BLOCK_SIZE < U64_LIMIT ∧
        32 + payload.length ≤ blocks * BLOCK_SIZE ∧ rs.length < 2 ^ 32 ∧
        sealed (regionFront F.magic TABLE_VERSION payload.length rs.length)
          payload ++ zeros (blocks * BLOCK_SIZE - (32 + payload.length)) =
            image := by
  simp only [encodeImage, Except.bind_eq_ok, regionLen_eq_ok, okOr_eq_ok,
    checkedAdd_eq_some, rejectIf_eq_ok, Except.pure_eq_ok, Except.ok.injEq,
    not_lt, ge_iff_le, not_le, gt_iff_lt]
  constructor
  · intro hfacts
    rcases hfacts with ⟨payload, hpayload, _, ⟨hlt, rfl⟩, _, ⟨_, rfl⟩, _, hfit,
      _, hcount, himage⟩
    exact ⟨payload, hpayload, hlt, hfit, hcount, himage⟩
  · intro hfacts
    rcases hfacts with ⟨payload, hpayload, hlt, hfit, hcount, himage⟩
    exact ⟨payload, hpayload, _, ⟨hlt, rfl⟩, _, ⟨by omega, rfl⟩, (), hfit, (),
      hcount, himage⟩

/-- Records with distinct keys have a payload, whose length is bounded by that
of its records. -/
theorem exists_encodeRecords {size : ρ → Nat} {rs : List ρ} {seen : List κ}
    (hencode : ∀ r ∈ rs,
      ∃ bytes, F.encode r = .ok bytes ∧ bytes.length ≤ size r)
    (hnodup : (rs.map F.key).Nodup) (hseen : ∀ r ∈ rs, F.key r ∉ seen) :
    ∃ payload, F.encodeRecords seen rs = .ok payload ∧
      payload.length ≤ (rs.map size).sum := by
  induction rs generalizing seen with
  | nil => exact ⟨[], rfl, by simp⟩
  | cons r rs ih =>
    rw [List.map_cons, List.nodup_cons] at hnodup
    obtain ⟨bytes, hbytes, hlen⟩ := hencode r List.mem_cons_self
    obtain ⟨payload, hpayload, hpayloadLen⟩ := @ih (F.key r :: seen)
      (fun q hq => hencode q (List.mem_cons_of_mem _ hq)) hnodup.2 (by
        intro q hq hmem
        rcases List.mem_cons.mp hmem with heq | hmem
        · exact hnodup.1 (heq ▸ List.mem_map_of_mem hq)
        · exact hseen q (List.mem_cons_of_mem _ hq) hmem)
    refine ⟨bytes ++ payload, ?_, ?_⟩
    · rw [encodeRecords, rejectIf_of_not (hseen r List.mem_cons_self),
        Except.ok_bind, hbytes, Except.ok_bind, hpayload]
      rfl
    · rw [List.length_append, List.map_cons, List.sum_cons]
      omega

/-- A table that is small enough for its region has an image. -/
theorem exists_encodeImage {size : ρ → Nat} {blocks : Nat} {rs : List ρ}
    (hencode : ∀ r ∈ rs,
      ∃ bytes, F.encode r = .ok bytes ∧ bytes.length ≤ size r)
    (hnodup : (rs.map F.key).Nodup)
    (hfit : 32 + (rs.map size).sum ≤ blocks * BLOCK_SIZE)
    (hlt : blocks * BLOCK_SIZE < U64_LIMIT) (hcount : rs.length < 2 ^ 32) :
    ∃ image, F.encodeImage blocks rs = .ok image := by
  obtain ⟨payload, hpayload, hlen⟩ :=
    exists_encodeRecords hencode hnodup fun _ _ => List.not_mem_nil
  exact ⟨_, encodeImage_eq_ok.mpr
    ⟨payload, hpayload, hlt, by omega, hcount, rfl⟩⟩

theorem length_encodeImage (law : F.Lawful normal) {blocks : Nat}
    {rs : List ρ} {image : List UInt8}
    (h : F.encodeImage blocks rs = .ok image) :
    image.length = blocks * BLOCK_SIZE := by
  obtain ⟨payload, _, _, hfit, _, rfl⟩ := encodeImage_eq_ok.mp h
  rw [List.length_append, length_sealed, length_regionFront law.length_magic,
    length_zeros]
  omega

/-- A stored table is loaded as the normal forms of its records. -/
theorem decodeImage_of_encode (law : F.Lawful normal) {blocks : Nat}
    {rs : List ρ} {image : List UInt8}
    (h : F.encodeImage blocks rs = .ok image) :
    F.decodeImage image = .ok (rs.map normal) := by
  have hlength := length_encodeImage law h
  obtain ⟨payload, hpayload, hlt, hfit, hcount, himage⟩ :=
    encodeImage_eq_ok.mp h
  have hfront : (regionFront F.magic TABLE_VERSION payload.length
      rs.length).length = 28 := length_regionFront law.length_magic _ _ _
  have hrecords := decodeRecords_of_encode law hpayload
  obtain ⟨hmagic, hversion, hflags, hlen, hrecordCount, _⟩ :=
    regionHeader_reads F.magic TABLE_VERSION payload.length rs.length
      (crc32 (regionFront F.magic TABLE_VERSION payload.length rs.length
        ++ zeros 4 ++ payload)).toNat law.length_magic (by decide) (by omega)
      hcount (toNat_crc32_lt _)
      (payload ++ zeros (blocks * BLOCK_SIZE - (32 + payload.length)))
  have himage' : image = regionHeader F.magic TABLE_VERSION payload.length
      rs.length (crc32 (regionFront F.magic TABLE_VERSION payload.length
        rs.length ++ zeros 4 ++ payload)).toNat ++ (payload ++
      zeros (blocks * BLOCK_SIZE - (32 + payload.length))) := by
    rw [← himage, ← List.append_assoc]
    rfl
  simp only [← himage'] at hmagic hversion hflags hlen hrecordCount
  have htake : image.take (32 + payload.length) =
      sealed (regionFront F.magic TABLE_VERSION payload.length rs.length)
        payload := by
    rw [← himage]
    exact List.take_left' (by rw [length_sealed, hfront])
  have hcrc : (crc32 (zeroFill (image.take (32 + payload.length)) 28 32)).toNat =
      readLe image 28 4 := by
    rw [htake, ← readLe_sealed hfront, ← htake]
    unfold readLe
    rw [slice_take (by omega)]
  have hslice : slice image 32 (32 + payload.length) = payload := by
    unfold slice
    rw [htake, drop_sealed (by rw [hfront])]
  have hdrop : image.drop (32 + payload.length) =
      zeros (blocks * BLOCK_SIZE - (32 + payload.length)) := by
    rw [← himage]
    exact List.drop_left' (by rw [length_sealed, hfront])
  have hadd : checkedAdd 32 payload.length = some (32 + payload.length) := by
    rw [checkedAdd_eq_some]
    omega
  have h32 : ¬ image.length < 32 := by omega
  have hend : ¬ image.length < 32 + payload.length := by omega
  simp [decodeImage, h32, hmagic, hversion, hflags, hlen, hrecordCount, hadd,
    hend, hdrop, hcrc, hslice, hrecords]

/-- An image of the right length that is accepted is the image of its
records. -/
theorem encodeImage_of_decode (law : F.Lawful normal) {blocks : Nat}
    {rs : List ρ} {image : List UInt8} (hlt : blocks * BLOCK_SIZE < U64_LIMIT)
    (hlength : image.length = blocks * BLOCK_SIZE)
    (h : F.decodeImage image = .ok rs) :
    F.encodeImage blocks rs = .ok image ∧ rs.map normal = rs := by
  simp only [decodeImage, Except.bind_eq_ok, rejectIf_eq_ok, okOr_eq_ok,
    checkedAdd_eq_some, Except.pure_eq_ok, Except.ok.injEq, not_lt, not_ne_iff,
    gt_iff_lt, Bool.not_eq_false] at h
  obtain ⟨_, h32, _, hmagic, _, hversion, _, hflags, _, ⟨_, rfl⟩, _, hend, _,
    hpadding, _, hcrc, records, hrecords, _, hcount, rfl⟩ := h
  obtain ⟨hpayload, hnormal⟩ := encodeRecords_of_decode law hrecords
  refine ⟨?_, hnormal⟩
  have hpayloadLen : (slice image 32 (32 + readLe image 16 8)).length =
      readLe image 16 8 := by
    rw [length_slice_of_le hend]
    omega
  have hheader := take_eq_regionHeader h32 hmagic hversion hflags
  have hfront : image.take 28 = regionFront F.magic TABLE_VERSION
      (readLe image 16 8) (readLe image 24 4) := by
    have htake := congrArg (List.take 28) hheader
    rw [List.take_take, Nat.min_eq_left (by omega)] at htake
    rw [htake]
    exact List.take_left' (length_regionFront law.length_magic _ _ _)
  have hsealed : image.take (32 + readLe image 16 8) = sealed
      (regionFront F.magic TABLE_VERSION (readLe image 16 8)
        (readLe image 24 4)) (slice image 32 (32 + readLe image 16 8)) := by
    have hseal := eq_sealed (image.take (32 + readLe image 16 8)) 28
      (by rw [List.length_take]; omega) (by
        rw [hcrc]
        unfold readLe
        rw [slice_take (by omega)])
    rw [List.take_take, Nat.min_eq_left (by omega), hfront] at hseal
    exact hseal
  have hrest := eq_zeros_of_allZero hpadding
  rw [List.length_drop, hlength] at hrest
  rw [encodeImage_eq_ok]
  refine ⟨_, hpayload, hlt, by rw [hpayloadLen]; omega, ?_, ?_⟩
  · have hlt4 := readLe_lt image 24 4 (by omega)
    rw [hcount]
    omega
  · rw [hpayloadLen, hcount, ← hsealed, ← hrest, List.take_append_drop]

/-- The keys of an image that is accepted are distinct. -/
theorem nodup_of_decode (law : F.Lawful normal) {rs : List ρ}
    {image : List UInt8} (h : F.decodeImage image = .ok rs) :
    (rs.map F.key).Nodup := by
  simp only [decodeImage, Except.bind_eq_ok, rejectIf_eq_ok, Except.pure_eq_ok,
    Except.ok.injEq] at h
  obtain ⟨_, _, _, _, _, _, _, _, _, _, _, _, _, _, _, _, records, hrecords, _,
    _, rfl⟩ := h
  exact (nodup_of_encodeRecords (encodeRecords_of_decode law hrecords).1).1

/-- The keys of a table that is loaded are distinct, on any device. -/
theorem nodup_of_load (law : F.Lawful normal) {σ : Type} [BlockDevice σ]
    {device : σ} {sb : Superblock} {start blocks : Nat} {rs : List ρ}
    (h : F.load device sb start blocks = .ok rs) : (rs.map F.key).Nodup := by
  simp only [load, Except.bind_eq_ok] at h
  obtain ⟨_, _, image, _, hdecode⟩ := h
  exact nodup_of_decode law hdecode

end TableFormat

end FilesystemLab
