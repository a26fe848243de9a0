import FilesystemLab.DirectoryTable

/-!
# Symbolic-link payloads

The payload codec of `src/symlink.rs`: the target of a symbolic link in the
blocks of its inode, as a one-block `SYM1` image or a `SYM2` image of up to
eight blocks.  `decodeTarget_of_encode` says that a target that is stored is
read back, `encodeTargetBlocks_of_decode` that nothing else is accepted, and
`symlinkPayload_canonical` sums up both for the inodes of a device.
-/

namespace FilesystemLab

open Bytes

/-- The bytes of `b"SYM1"`. -/
def SYMLINK_V1_MAGIC : List UInt8 := [0x53, 0x59, 0x4d, 0x31]

/-- The bytes of `b"SYM2"`. -/
def SYMLINK_V2_MAGIC : List UInt8 := [0x53, 0x59, 0x4d, 0x32]

def SYMLINK_V1_VERSION : Nat := 1

def SYMLINK_V2_VERSION : Nat := 1

/-- The longest target of a `SYM1` image. -/
def SYMLINK_V1_MAX_TARGET_LEN : Nat := BLOCK_SIZE - 12

def MAX_SYMLINK_TARGET_BLOCKS : Nat := 8

/-- The longest target of a `SYM2` image. -/
def MAX_SYMLINK_TARGET_LEN : Nat := MAX_SYMLINK_TARGET_BLOCKS * BLOCK_SIZE - 16

@[simp] theorem length_SYMLINK_V1_MAGIC : SYMLINK_V1_MAGIC.length = 4 := by
  simp [SYMLINK_V1_MAGIC]

@[simp] theorem length_SYMLINK_V2_MAGIC : SYMLINK_V2_MAGIC.length = 4 := by
  simp [SYMLINK_V2_MAGIC]

/-! ## Encoding -/

/-- The header of a `SYM1` image in front of its checksum. -/
def v1Front (target : List UInt8) : List UInt8 :=
  SYMLINK_V1_MAGIC ++ leBytes 2 SYMLINK_V1_VERSION ++ leBytes 2 target.length

/-- The bytes of a `SYM1` image. -/
def v1Image (target : List UInt8) : List UInt8 :=
  sealed (v1Front target) (target ++ zeros (BLOCK_SIZE - (12 + target.length)))

/-- `encode_v1_target`. -/
def encodeV1Target (target : List UInt8) : Result Block := do
  rejectIf (target.length ≥ 2 ^ 16)
    (invalidInput "symlink target length exceeds codec limit")
  pure (Block.ofBytes (v1Image target))

/-- The header of a `SYM2` image. -/
def v2Header (target : List UInt8) : List UInt8 :=
  SYMLINK_V2_MAGIC ++ leBytes 2 SYMLINK_V2_VERSION ++ leBytes 2 0 ++
    leBytes 4 target.length ++ leBytes 4 (crc32 target).toNat

/-- The bytes of a `SYM2` image in `blockCount` blocks. -/
def v2Image (target : List UInt8) (blockCount : Nat) : List UInt8 :=
  v2Header target ++ target ++
    zeros (blockCount * BLOCK_SIZE - (16 + target.length))

/-- `encode_target_blocks`. -/
def encodeTargetBlocks (target : String) : Result (List Block) := do
  let bytes := nameBytes target
  rejectIf (bytes = []) (invalidInput "symlink target must not be empty")
  if bytes.length ≤ SYMLINK_V1_MAX_TARGET_LEN then
    let image ← encodeV1Target bytes
    pure [image]
  else
    rejectIf (bytes.length > MAX_SYMLINK_TARGET_LEN)
      (invalidInput "symlink target exceeds bounded multi-block limit")
    rejectIf (bytes.length ≥ 2 ^ 32)
      (invalidInput "symlink target length exceeds codec limit")
    let encodedLen ← okOr (checkedAdd 16 bytes.length)
      (invalidInput "symlink target encoded length overflow")
    let blockCount := (encodedLen + BLOCK_SIZE - 1) / BLOCK_SIZE
    rejectIf (blockCount > MAX_SYMLINK_TARGET_BLOCKS)
      (invalidInput "symlink target exceeds bounded multi-block limit")
    pure ((List.range blockCount).map
      (Block.ofImage (v2Image bytes blockCount)))

/-! ## Decoding -/

/-- `decode_utf8`. -/
def decodeUtf8 (target : List UInt8) : Result String :=
  okOr (nameOfBytes target) (invalidData "symlink target is not valid UTF-8")

/-- `decode_v1_target`. -/
def decodeV1Target (image : Block) : Result String := do
  rejectIf (slice image.bytes 0 4 ≠ SYMLINK_V1_MAGIC)
    (invalidData "invalid symlink payload magic")
  rejectIf (readLe image.bytes 4 2 ≠ SYMLINK_V1_VERSION)
    (invalidData "unsupported symlink payload version")
  let len := readLe image.bytes 6 2
  rejectIf (len = 0 ∨ len > SYMLINK_V1_MAX_TARGET_LEN)
    (invalidData "invalid symlink target length")
  rejectIf (readLe image.bytes 8 4 ≠
      (crc32 (zeroFill image.bytes 8 12)).toNat)
    (invalidData "symlink target checksum mismatch")
  rejectIf (allZero (image.bytes.drop (12 + len)) = false)
    (invalidData "symlink target block has non-zero trailing bytes")
  decodeUtf8 (slice image.bytes 12 (12 + len))

/-- `decode_v2_target`. -/
def decodeV2Target (first : Block) (images : List Block) : Result String := do
  rejectIf (readLe first.bytes 4 2 ≠ SYMLINK_V2_VERSION)
    (invalidData "unsupported multi-block symlink payload version")
  rejectIf (allZero (slice first.bytes 6 8) = false)
    (invalidData "multi-block symlink reserved bytes are non-zero")
  let len := readLe first.bytes 8 4
  rejectIf (len ≤ SYMLINK_V1_MAX_TARGET_LEN ∨ len > MAX_SYMLINK_TARGET_LEN)
    (invalidData "invalid multi-block symlink target length")
  let encodedLen ← okOr (checkedAdd 16 len)
    (invalidData "multi-block symlink encoded length overflow")
  rejectIf ((encodedLen + BLOCK_SIZE - 1) / BLOCK_SIZE ≠ images.length)
    (invalidData "multi-block symlink block count does not match target length")
  let bytes := images.flatMap Block.bytes
  rejectIf (allZero (bytes.drop encodedLen) = false)
    (invalidData "multi-block symlink has non-zero trailing bytes")
  let target := slice bytes 16 encodedLen
  rejectIf (readLe first.bytes 12 4 ≠ (crc32 target).toNat)
    (invalidData "multi-block symlink target checksum mismatch")
  decodeUtf8 target

/-- The part of `read_symlink_inode` behind the reads.  It is not reached
without an image. -/
def decodeTarget : List Block → Result String
  | [] => .error (invalidData "symbolic link must reference at least one block")
  | first :: rest =>
    if slice first.bytes 0 4 = SYMLINK_V1_MAGIC then do
      rejectIf ((first :: rest).length ≠ 1)
        (invalidData "SYM1 symbolic link must reference exactly one block")
      decodeV1Target first
    else if slice first.bytes 0 4 = SYMLINK_V2_MAGIC then
      decodeV2Target first (first :: rest)
    else
      .error (invalidData "invalid symlink payload magic")

/-- The loop of `read_symlink_inode` over the blocks of an inode. -/
def readBlocks {σ : Type} [BlockDevice σ] (device : σ) :
    List UInt64 → Result (List Block)
  | [] => pure []
  | block :: blocks => do
    let image ← readBlock device block.toNat
    let images ← readBlocks device blocks
    pure (image :: images)

/-- `read_symlink_inode`. -/
def readSymlinkInode {σ : Type} [BlockDevice σ] (device : σ)
    (inode : PersistedInode) : Result String := do
  rejectIf (inode.blocks = [])
    (invalidData "symbolic link must reference at least one block")
  rejectIf (inode.blocks.length > MAX_SYMLINK_TARGET_BLOCKS)
    (invalidData "symbolic link exceeds bounded block limit")
  let images ← readBlocks device inode.blocks
  decodeTarget images

/-- `validate_symlink_inode`. -/
def validateSymlinkInode {σ : Type} [BlockDevice σ] (device : σ)
    (inode : PersistedInode) : Result Unit :=
  if inode.kind ≠ .symlink then pure ()
  else (readSymlinkInode device inode).map fun _ => ()

theorem readBlocks_congr {σ τ : Type} [BlockDevice σ] [BlockDevice τ]
    {device : σ} {other : τ} {blocks : List UInt64}
    (h : ∀ b ∈ blocks, readBlock device b.toNat = readBlock other b.toNat) :
    readBlocks device blocks = readBlocks other blocks := by
  induction blocks with
  | nil => rfl
  | cons b bs ih =>
    rw [readBlocks, readBlocks, h b List.mem_cons_self,
      ih fun c hc => h c (List.mem_cons_of_mem _ hc)]

/-- The payload check depends on the blocks of the inode only. -/
theorem validateSymlinkInode_congr {σ τ : Type} [BlockDevice σ]
    [BlockDevice τ] {device : σ} {other : τ} {inode : PersistedInode}
    (h : ∀ b ∈ inode.blocks,
      readBlock device b.toNat = readBlock other b.toNat) :
    validateSymlinkInode device inode = validateSymlinkInode other inode := by
  unfold validateSymlinkInode readSymlinkInode
  rw [readBlocks_congr h]

/-! ## The round trip -/

theorem decodeUtf8_nameBytes (target : String) :
    decodeUtf8 (nameBytes target) = .ok target := by
  unfold decodeUtf8
  rw [nameOfBytes_nameBytes, okOr_some]

/-- A `SYM1` image is read back. -/
theorem decodeTarget_v1 {target : String} (hne : nameBytes target ≠ [])
    (hlen : (nameBytes target).length ≤ SYMLINK_V1_MAX_TARGET_LEN) :
    decodeTarget [Block.ofBytes (v1Image (nameBytes target))] =
      .ok target := by
  have hutf8 := decodeUtf8_nameBytes target
  generalize nameBytes target = bytes at *
  have hb := blockSize_eq
  have hpos := List.length_pos_of_ne_nil hne
  have hlen' : bytes.length ≤ 4084 := by
    simpa [SYMLINK_V1_MAX_TARGET_LEN, hb] using hlen
  have hfront : (v1Front bytes).length = 8 := by simp [v1Front]
  have hlength : (v1Image bytes).length = BLOCK_SIZE := by
    unfold v1Image
    rw [length_sealed, hfront, List.length_append, length_zeros]
    omega
  have hblock : (Block.ofBytes (v1Image bytes)).bytes = v1Image bytes :=
    Block.bytes_ofBytes hlength
  have hmagic : slice (v1Image bytes) 0 4 = SYMLINK_V1_MAGIC := by
    unfold v1Image
    rw [slice_sealed_front (by omega)]
    simp [v1Front]
  have hversion : readLe (v1Image bytes) 4 2 = SYMLINK_V1_VERSION := by
    have h2 : ofLeBytes (leBytes 2 SYMLINK_V1_VERSION) = SYMLINK_V1_VERSION :=
      ofLeBytes_leBytes 2 _ (by decide)
    unfold readLe v1Image
    rw [slice_sealed_front (by omega)]
    simp [v1Front, h2]
  have hcount : readLe (v1Image bytes) 6 2 = bytes.length := by
    have h2 : ofLeBytes (leBytes 2 bytes.length) = bytes.length :=
      ofLeBytes_leBytes 2 _ (by omega)
    unfold readLe v1Image
    rw [slice_sealed_front (by omega)]
    simp [v1Front, h2]
  have hcrc : readLe (v1Image bytes) 8 4 =
      (crc32 (zeroFill (v1Image bytes) 8 12)).toNat := readLe_sealed hfront
  have hrest : (v1Image bytes).drop 12 =
      bytes ++ zeros (BLOCK_SIZE - (12 + bytes.length)) :=
    drop_sealed (by rw [hfront])
  have htarget : slice (v1Image bytes) 12 (12 + bytes.length) = bytes := by
    unfold slice
    rw [List.drop_take, hrest]
    exact List.take_left' (by omega)
  have htail : (v1Image bytes).drop (12 + bytes.length) =
      zeros (BLOCK_SIZE - (12 + bytes.length)) := by
    rw [← List.drop_drop, hrest]
    exact List.drop_left' rfl
  have hzero : ¬ (bytes.length = 0 ∨
      bytes.length > SYMLINK_V1_MAX_TARGET_LEN) := by omega
  unfold decodeTarget decodeV1Target
  simp only [hblock, hmagic, hversion, hcount, hcrc, htail, htarget, hutf8,
    rejectIf_of_not hzero, allZero_zeros]
  simp

theorem length_v2Header (bytes : List UInt8) : (v2Header bytes).length = 16 := by
  simp [v2Header]

/-- The fields of the header of a `SYM2` image. -/
theorem v2Header_fields {bytes : List UInt8} (hlen : bytes.length < 2 ^ 32) :
    slice (v2Header bytes) 0 4 = SYMLINK_V2_MAGIC ∧
      ofLeBytes (slice (v2Header bytes) 4 6) = SYMLINK_V2_VERSION ∧
      slice (v2Header bytes) 6 8 = zeros 2 ∧
      ofLeBytes (slice (v2Header bytes) 8 12) = bytes.length ∧
      ofLeBytes (slice (v2Header bytes) 12 16) = (crc32 bytes).toNat := by
  have hversion : ofLeBytes (leBytes 2 SYMLINK_V2_VERSION) = SYMLINK_V2_VERSION :=
    ofLeBytes_leBytes 2 _ (by decide)
  have hcount : ofLeBytes (leBytes 4 bytes.length) = bytes.length :=
    ofLeBytes_leBytes 4 _ (by omega)
  have hcrc : ofLeBytes (leBytes 4 (crc32 bytes).toNat) = (crc32 bytes).toNat :=
    ofLeBytes_leBytes 4 _ (toNat_crc32_lt bytes)
  refine ⟨by simp [v2Header], by simp [v2Header, hversion], ?_,
    by simp [v2Header, hcount], by simp [v2Header, hcrc]⟩
  simp [v2Header]
  decide

theorem length_v2Image {bytes : List UInt8} {blockCount : Nat}
    (hfit : 16 + bytes.length ≤ blockCount * BLOCK_SIZE) :
    (v2Image bytes blockCount).length = blockCount * BLOCK_SIZE := by
  unfold v2Image
  simp only [List.length_append, length_v2Header, length_zeros]
  omega

/-- The blocks of an image, joined. -/
theorem flatMap_ofImage {image : List UInt8} {n : Nat}
    (hlen : image.length = n * BLOCK_SIZE) :
    ((List.range n).map (Block.ofImage image)).flatMap Block.bytes = image := by
  rw [List.flatMap_map]
  have hpieces : (List.range n).flatMap (fun i => (Block.ofImage image i).bytes) =
      (List.range n).flatMap (chunk BLOCK_SIZE image) := by
    refine List.flatMap_congr fun i hi => ?_
    exact Block.bytes_ofImage hlen (List.mem_range.mp hi)
  rw [hpieces, flatMap_chunk hlen]

/-- The first block of a `SYM2` image begins with the header. -/
theorem slice_ofImage_v2Image {bytes : List UInt8} {n : Nat}
    (hfit : 16 + bytes.length ≤ (n + 1) * BLOCK_SIZE) (i : Nat) {j : Nat}
    (hj : j ≤ 16) :
    slice (Block.ofImage (v2Image bytes (n + 1)) 0).bytes i j =
      slice (v2Header bytes) i j := by
  have hb := blockSize_eq
  have hheader := length_v2Header bytes
  rw [Block.bytes_ofImage (length_v2Image hfit) (by omega), chunk, Nat.zero_mul,
    List.drop_zero, slice_take (by omega), v2Image, List.append_assoc,
    slice_append_left (by omega)]

/-- A `SYM2` image is read back. -/
theorem decodeTarget_v2 {target : String} {blockCount : Nat}
    (hlo : SYMLINK_V1_MAX_TARGET_LEN < (nameBytes target).length)
    (hhi : (nameBytes target).length ≤ MAX_SYMLINK_TARGET_LEN)
    (hcount : (16 + (nameBytes target).length + BLOCK_SIZE - 1) / BLOCK_SIZE =
      blockCount) :
    decodeTarget ((List.range blockCount).map
      (Block.ofImage (v2Image (nameBytes target) blockCount))) =
      .ok target := by
  have hutf8 := decodeUtf8_nameBytes target
  generalize nameBytes target = bytes at *
  have hb := blockSize_eq
  have hlo' : 4084 < bytes.length := by
    simpa [SYMLINK_V1_MAX_TARGET_LEN, hb] using hlo
  have hhi' : bytes.length ≤ 32752 := by
    simpa [MAX_SYMLINK_TARGET_LEN, MAX_SYMLINK_TARGET_BLOCKS, hb] using hhi
  rw [hb] at hcount
  have hfit : 16 + bytes.length ≤ blockCount * BLOCK_SIZE := by
    rw [hb]
    omega
  obtain ⟨n, rfl⟩ : ∃ n, blockCount = n + 1 :=
    ⟨blockCount - 1, by omega⟩
  have hheader := length_v2Header bytes
  have hjoin := flatMap_ofImage (length_v2Image hfit)
  -- the header lies in the first block
  have hread : ∀ i j, j ≤ 16 →
      slice (Block.ofImage (v2Image bytes (n + 1)) 0).bytes i j =
        slice (v2Header bytes) i j :=
    fun i _ hj => slice_ofImage_v2Image hfit i hj
  obtain ⟨hmagic, hversion, hreserved, hlen, hcrc⟩ :=
    @v2Header_fields bytes (by omega)
  have htarget : slice (v2Image bytes (n + 1)) 16 (16 + bytes.length) =
      bytes := by
    unfold v2Image
    rw [slice_append_left (by simp [hheader]),
      slice_append_right (by omega), hheader]
    simp
  have htail : (v2Image bytes (n + 1)).drop (16 + bytes.length) =
      zeros ((n + 1) * BLOCK_SIZE - (16 + bytes.length)) :=
    List.drop_left' (by simp [hheader])
  have hne : SYMLINK_V2_MAGIC ≠ SYMLINK_V1_MAGIC := by decide
  have hbounds : ¬ (bytes.length ≤ SYMLINK_V1_MAX_TARGET_LEN ∨
      bytes.length > MAX_SYMLINK_TARGET_LEN) := by omega
  have hadd : checkedAdd 16 bytes.length = some (16 + bytes.length) := by
    rw [checkedAdd_eq_some]
    exact ⟨by simp only [U64_LIMIT]; omega, rfl⟩
  have hblocks : ((List.range (n + 1)).map
      (Block.ofImage (v2Image bytes (n + 1)))).length = n + 1 := by
    simp
  have hcountOk : ¬ (16 + bytes.length + BLOCK_SIZE - 1) / BLOCK_SIZE ≠
      n + 1 := by
    rw [hb]
    omega
  have hcons : (List.range (n + 1)).map
      (Block.ofImage (v2Image bytes (n + 1))) =
        Block.ofImage (v2Image bytes (n + 1)) 0 ::
          (List.range n).map fun i =>
            Block.ofImage (v2Image bytes (n + 1)) (i + 1) := by
    rw [List.range_succ_eq_map, List.map_cons, List.map_map]
    rfl
  rw [hcons] at hjoin hblocks ⊢
  unfold decodeTarget decodeV2Target
  simp only [readLe, hread _ _ (Nat.le_refl 16), hread _ 4 (by omega),
    hread _ 6 (by omega), hread _ 8 (by omega), hread _ 12 (by omega), hmagic,
    hversion, hreserved, hlen, hcrc, hne, if_false, if_true, hjoin, hblocks,
    rejectIf_of_not hbounds, hadd, okOr_some, Except.ok_bind,
    rejectIf_of_not hcountOk, htail, htarget, hutf8, allZero_zeros,
    Nat.reduceAdd]
  simp

/-- A target that is stored is read back, from one to eight blocks. -/
theorem decodeTarget_of_encode {target : String} {images : List Block}
    (h : encodeTargetBlocks target = .ok images) :
    decodeTarget images = .ok target ∧ images ≠ [] ∧
      images.length ≤ MAX_SYMLINK_TARGET_BLOCKS := by
  simp only [encodeTargetBlocks, Except.bind_eq_ok, rejectIf_eq_ok] at h
  obtain ⟨_, hne, h⟩ := h
  split at h
  · rename_i hlen
    simp only [encodeV1Target, Except.bind_eq_ok, rejectIf_eq_ok,
      Except.pure_eq_ok, Except.ok.injEq] at h
    obtain ⟨_, ⟨_, _, rfl⟩, rfl⟩ := h
    exact ⟨decodeTarget_v1 hne hlen, by simp,
      by simp [MAX_SYMLINK_TARGET_BLOCKS]⟩
  · rename_i hlen
    simp only [Except.bind_eq_ok, rejectIf_eq_ok, okOr_eq_ok,
      checkedAdd_eq_some, Except.pure_eq_ok, Except.ok.injEq] at h
    obtain ⟨_, hmax, _, _, _, ⟨_, rfl⟩, _, hcount, rfl⟩ := h
    have hpos : 0 < (16 + (nameBytes target).length + BLOCK_SIZE - 1) /
        BLOCK_SIZE := by
      have hb := blockSize_eq
      rw [hb]
      omega
    refine ⟨decodeTarget_v2 (by omega) (by omega) rfl, ?_, ?_⟩
    · intro hnil
      have := congrArg List.length hnil
      simp only [List.length_map, List.length_range, List.length_nil] at this
      omega
    · rw [List.length_map, List.length_range]
      omega

/-! ## What the decoder accepts -/

theorem decodeUtf8_eq_ok {bytes : List UInt8} {target : String} :
    decodeUtf8 bytes = .ok target ↔ nameBytes target = bytes := by
  unfold decodeUtf8
  rw [okOr_eq_ok]
  constructor
  · exact nameBytes_of_nameOfBytes
  · intro heq
    subst heq
    exact nameOfBytes_nameBytes target

/-- A one-block image that is accepted is the `SYM1` image of its target. -/
theorem v1Image_of_decode {image : Block} {target : String}
    (h : decodeV1Target image = .ok target) :
    nameBytes target ≠ [] ∧
      (nameBytes target).length ≤ SYMLINK_V1_MAX_TARGET_LEN ∧
      image = Block.ofBytes (v1Image (nameBytes target)) := by
  simp only [decodeV1Target, Except.bind_eq_ok, rejectIf_eq_ok, not_ne_iff,
    not_or, not_lt, gt_iff_lt, Bool.not_eq_false, decodeUtf8_eq_ok] at h
  obtain ⟨_, hmagic, _, hversion, _, ⟨hzero, hmax⟩, _, hcrc, _, hpadding,
    htarget⟩ := h
  have hb := blockSize_eq
  have hbytes := image.length_eq
  have hmax' : readLe image.bytes 6 2 ≤ 4084 := by
    simpa [SYMLINK_V1_MAX_TARGET_LEN, hb] using hmax
  have hlen : (nameBytes target).length = readLe image.bytes 6 2 := by
    rw [htarget, length_slice_of_le (by omega)]
    omega
  have hfront : image.bytes.take 8 = v1Front (nameBytes target) := by
    unfold v1Front
    rw [hlen, ← hmagic, ← hversion,
      ← slice_eq_leBytes image.bytes 4 2 (by omega),
      ← slice_eq_leBytes image.bytes 6 2 (by omega)]
    simp only [slice_append_slice, Nat.zero_le, Nat.reduceLeDiff,
      Nat.reduceAdd]
    rfl
  have hrest : image.bytes.drop 12 = nameBytes target ++
      zeros (BLOCK_SIZE - (12 + (nameBytes target).length)) := by
    have hzeros := eq_zeros_of_allZero hpadding
    rw [List.length_drop, hbytes, ← hlen] at hzeros
    have hcut := List.take_append_drop (nameBytes target).length
      (image.bytes.drop 12)
    rw [List.drop_drop, hzeros] at hcut
    rw [← hcut, hlen]
    congr 1
    rw [htarget]
    unfold slice
    rw [List.drop_take, Nat.add_sub_cancel_left]
  have hseal := eq_sealed image.bytes 8 (by omega) hcrc
  rw [hfront, hrest] at hseal
  refine ⟨?_, by rw [hlen]; exact hmax, ?_⟩
  · intro hnil
    rw [hnil] at hlen
    exact hzero hlen.symm
  · apply Block.ext
    rw [hseal]
    refine (Block.bytes_ofBytes ?_).symm
    rw [← hseal]
    exact hbytes

/-- Blocks that are accepted as a `SYM2` image are that of their target. -/
theorem v2Image_of_decode {first : Block} {rest : List Block} {target : String}
    (hmagic : slice first.bytes 0 4 = SYMLINK_V2_MAGIC)
    (h : decodeV2Target first (first :: rest) = .ok target) :
    SYMLINK_V1_MAX_TARGET_LEN < (nameBytes target).length ∧
      (nameBytes target).length ≤ MAX_SYMLINK_TARGET_LEN ∧
      (16 + (nameBytes target).length + BLOCK_SIZE - 1) / BLOCK_SIZE =
        (first :: rest).length ∧
      (first :: rest).flatMap Block.bytes =
        v2Image (nameBytes target) (first :: rest).length := by
  simp only [decodeV2Target, Except.bind_eq_ok, rejectIf_eq_ok, not_ne_iff,
    not_or, not_le, not_lt, gt_iff_lt, Bool.not_eq_false, okOr_eq_ok,
    checkedAdd_eq_some, decodeUtf8_eq_ok] at h
  obtain ⟨_, hversion, _, hreserved, _, ⟨hlo, hhi⟩, _, ⟨_, rfl⟩, _, hcount, _,
    hpadding, _, hcrc, htarget⟩ := h
  have hb := blockSize_eq
  have hfirst := first.length_eq
  have hbytes : ((first :: rest).flatMap Block.bytes).length =
      (first :: rest).length * BLOCK_SIZE :=
    length_flatMap_pieces Block.length_eq _
  have hfit : 16 + readLe first.bytes 8 4 ≤
      (first :: rest).length * BLOCK_SIZE := by
    rw [← hcount, hb]
    omega
  have hlen : (nameBytes target).length = readLe first.bytes 8 4 := by
    rw [htarget, length_slice_of_le (by omega)]
    omega
  -- the header lies in the first block
  have htake : ((first :: rest).flatMap Block.bytes).take 16 =
      first.bytes.take 16 := by
    rw [List.flatMap_cons, List.take_append_of_le_length (by omega)]
  have hheader : first.bytes.take 16 = v2Header (nameBytes target) := by
    have hzeros : leBytes 2 0 = slice first.bytes 6 8 := by
      rw [eq_zeros_of_allZero hreserved, length_slice_of_le (by omega)]
      rfl
    unfold v2Header
    rw [htarget, ← hcrc, ← htarget, hlen, hzeros, ← hmagic, ← hversion,
      ← slice_eq_leBytes first.bytes 4 2 (by omega),
      ← slice_eq_leBytes first.bytes 8 4 (by omega),
      ← slice_eq_leBytes first.bytes 12 4 (by omega)]
    simp only [slice_append_slice, Nat.zero_le, Nat.reduceLeDiff,
      Nat.reduceAdd]
    rfl
  refine ⟨by omega, by omega, by rw [hlen]; exact hcount, ?_⟩
  have hzeros := eq_zeros_of_allZero hpadding
  rw [List.length_drop, hbytes] at hzeros
  have hcut := eq_append_slice_append
    ((first :: rest).flatMap Block.bytes)
    (Nat.le_add_right 16 (readLe first.bytes 8 4))
  rw [htake, hheader, ← htarget, hzeros, ← hlen] at hcut
  exact hcut

/-- Blocks that are accepted are what the encoder gives for their target. -/
theorem encodeTargetBlocks_of_decode {images : List Block} {target : String}
    (h : decodeTarget images = .ok target) :
    encodeTargetBlocks target = .ok images := by
  have hb := blockSize_eq
  cases images with
  | nil => cases h
  | cons first rest =>
    simp only [decodeTarget] at h
    split at h
    · -- one block
      simp only [Except.bind_eq_ok, rejectIf_eq_ok, not_ne_iff] at h
      obtain ⟨_, hone, h⟩ := h
      obtain ⟨hne, hlen, himage⟩ := v1Image_of_decode h
      have hrest : rest = [] := by
        rw [List.length_cons] at hone
        exact List.length_eq_zero_iff.mp (by omega)
      have hshort : ¬ (nameBytes target).length ≥ 2 ^ 16 := by
        have hmax : SYMLINK_V1_MAX_TARGET_LEN = 4084 := rfl
        omega
      unfold encodeTargetBlocks encodeV1Target
      dsimp only
      rw [rejectIf_of_not hne, Except.ok_bind, if_pos hlen,
        rejectIf_of_not hshort, Except.ok_bind, hrest, himage]
      rfl
    · split at h
      · -- several blocks
        rename_i hmagic
        obtain ⟨hlo, hhi, hcount, hbytes⟩ := v2Image_of_decode hmagic h
        have hmin : SYMLINK_V1_MAX_TARGET_LEN = 4084 := rfl
        have hmax : MAX_SYMLINK_TARGET_LEN = 32752 := rfl
        have hne : nameBytes target ≠ [] := by
          intro hnil
          rw [hnil, List.length_nil] at hlo
          omega
        have hadd : checkedAdd 16 (nameBytes target).length =
            some (16 + (nameBytes target).length) := by
          rw [checkedAdd_eq_some]
          exact ⟨by simp only [U64_LIMIT]; omega, rfl⟩
        have hblocks : (16 + (nameBytes target).length + BLOCK_SIZE - 1) /
            BLOCK_SIZE ≤ MAX_SYMLINK_TARGET_BLOCKS := by
          rw [hb]
          show _ ≤ 8
          omega
        unfold encodeTargetBlocks
        dsimp only
        rw [rejectIf_of_not hne, Except.ok_bind, if_neg (by omega),
          rejectIf_of_not (by omega), Except.ok_bind,
          rejectIf_of_not (by omega), Except.ok_bind, hadd, okOr_some,
          Except.ok_bind, rejectIf_of_not (by omega), Except.ok_bind, hcount,
          ← hbytes, map_ofImage_flatMap]
        rfl
      · cases h

/-- The lengths that can be stored: `SYM1` ends where `SYM2` begins. -/
theorem exists_encodeTargetBlocks {target : String} :
    (∃ images, encodeTargetBlocks target = .ok images) ↔
      target ≠ "" ∧ (nameBytes target).length ≤ MAX_SYMLINK_TARGET_LEN := by
  have hb := blockSize_eq
  have hmin : SYMLINK_V1_MAX_TARGET_LEN = 4084 := rfl
  have hmax : MAX_SYMLINK_TARGET_LEN = 32752 := rfl
  have hcount : MAX_SYMLINK_TARGET_BLOCKS = 8 := rfl
  rw [ne_eq, ← nameBytes_eq_nil]
  constructor
  · intro hfacts
    rcases hfacts with ⟨images, h⟩
    simp only [encodeTargetBlocks, Except.bind_eq_ok, rejectIf_eq_ok] at h
    obtain ⟨_, hne, h⟩ := h
    refine ⟨hne, ?_⟩
    split at h
    · omega
    · simp only [Except.bind_eq_ok, rejectIf_eq_ok] at h
      obtain ⟨_, hle, _⟩ := h
      omega
  · intro hfacts
    rcases hfacts with ⟨hne, hle⟩
    unfold encodeTargetBlocks encodeV1Target
    dsimp only
    rw [rejectIf_of_not hne, Except.ok_bind]
    by_cases hshort : (nameBytes target).length ≤ SYMLINK_V1_MAX_TARGET_LEN
    · rw [if_pos hshort, rejectIf_of_not (by omega), Except.ok_bind]
      exact ⟨_, rfl⟩
    · have hadd : checkedAdd 16 (nameBytes target).length =
          some (16 + (nameBytes target).length) := by
        rw [checkedAdd_eq_some]
        exact ⟨by simp only [U64_LIMIT]; omega, rfl⟩
      rw [if_neg hshort, rejectIf_of_not (by omega), Except.ok_bind,
        rejectIf_of_not (by omega), Except.ok_bind, hadd, okOr_some,
        Except.ok_bind, rejectIf_of_not (by rw [hb]; omega), Except.ok_bind]
      exact ⟨_, rfl⟩

theorem length_readBlocks {σ : Type} [BlockDevice σ] {device : σ}
    {blocks : List UInt64} {images : List Block}
    (h : readBlocks device blocks = .ok images) :
    images.length = blocks.length := by
  induction blocks generalizing images with
  | nil =>
    cases h
    rfl
  | cons block blocks ih =>
    simp only [readBlocks, Except.bind_eq_ok, Except.pure_eq_ok,
      Except.ok.injEq] at h
    obtain ⟨_, _, rest, hrest, rfl⟩ := h
    rw [List.length_cons, List.length_cons, ih hrest]

/-- A symbolic link is read as a target exactly if its blocks hold what the
encoder gives for that target. -/
theorem readSymlinkInode_eq_ok {σ : Type} [BlockDevice σ] {device : σ}
    {inode : PersistedInode} {target : String} :
    readSymlinkInode device inode = .ok target ↔
      ∃ images, readBlocks device inode.blocks = .ok images ∧
        encodeTargetBlocks target = .ok images := by
  constructor
  · intro h
    simp only [readSymlinkInode, Except.bind_eq_ok] at h
    obtain ⟨_, _, _, _, images, hread, hdecode⟩ := h
    exact ⟨images, hread, encodeTargetBlocks_of_decode hdecode⟩
  · intro hfacts
    rcases hfacts with ⟨images, hread, hencode⟩
    obtain ⟨hdecode, hne, hmax⟩ := decodeTarget_of_encode hencode
    have hlen := length_readBlocks hread
    have hpos := List.length_pos_of_ne_nil hne
    have hblocks : inode.blocks ≠ [] := by
      intro hnil
      rw [hnil, List.length_nil] at hlen
      omega
    rw [readSymlinkInode, rejectIf_of_not hblocks, Except.ok_bind,
      rejectIf_of_not (by omega), Except.ok_bind, hread, Except.ok_bind,
      hdecode]

/-- The payload formats are canonical: which targets can be stored, that they
are read back, and that nothing else is read as them. -/
theorem symlinkPayload_canonical (target : String) :
    ((∃ e, encodeTargetBlocks target = .error e) ↔
      target = "" ∨ MAX_SYMLINK_TARGET_LEN < (nameBytes target).length) ∧
    (∀ images, encodeTargetBlocks target = .ok images →
      1 ≤ images.length ∧ images.length ≤ MAX_SYMLINK_TARGET_BLOCKS ∧
      ∀ {σ : Type} [BlockDevice σ] (device : σ) (inode : PersistedInode),
        readBlocks device inode.blocks = .ok images →
          readSymlinkInode device inode = .ok target) ∧
    ∀ {σ : Type} [BlockDevice σ] (device : σ) (inode : PersistedInode),
      readSymlinkInode device inode = .ok target →
        ∃ images, readBlocks device inode.blocks = .ok images ∧
          encodeTargetBlocks target = .ok images := by
  refine ⟨?_, ?_, ?_⟩
  · have hok := @exists_encodeTargetBlocks target
    cases hencode : encodeTargetBlocks target with
    | error e =>
      have hnot : ¬ (target ≠ "" ∧
          (nameBytes target).length ≤ MAX_SYMLINK_TARGET_LEN) := by
        intro hlen
        obtain ⟨images, himages⟩ := hok.mpr hlen
        rw [hencode] at himages
        cases himages
      have hbad : target = "" ∨
          MAX_SYMLINK_TARGET_LEN < (nameBytes target).length := by
        by_cases hempty : target = ""
        · exact .inl hempty
        · exact .inr (not_le.mp fun hle => hnot ⟨hempty, hle⟩)
      exact iff_of_true ⟨e, rfl⟩ hbad
    | ok images =>
      obtain ⟨hne, hle⟩ := hok.mp ⟨images, hencode⟩
      apply iff_of_false
      · intro hfacts
        rcases hfacts with ⟨e, he⟩
        cases he
      · intro hcases
        rcases hcases with hempty | hlong
        · exact hne hempty
        · omega
  · intro images hencode
    obtain ⟨_, hne, hmax⟩ := decodeTarget_of_encode hencode
    refine ⟨List.length_pos_of_ne_nil hne, hmax, ?_⟩
    intro σ _ device inode hread
    exact readSymlinkInode_eq_ok.mpr ⟨images, hread, hencode⟩
  · intro σ _ device inode
    exact readSymlinkInode_eq_ok.mp

end FilesystemLab
