import FilesystemLab.Allocation
import FilesystemLab.Lib.Bitmap
import FilesystemLab.Region

/-!
# The allocation image

`src/allocation_disk.rs`: the allocator as a checksummed bitmap in the
allocation region.  Only data blocks have bits; the metadata prefix is implied
by the superblock.

`loadAllocator_of_image` and `allocationImage_of_load` are the two directions of
the format: a stored allocator is loaded back, and an image that loads is the
image of the allocator it loads as.
-/

namespace FilesystemLab

open Bytes

/-- The bytes of `b"FSLALOC\0"`. -/
def ALLOCATION_IMAGE_MAGIC : List UInt8 :=
  [0x46, 0x53, 0x4c, 0x41, 0x4c, 0x4f, 0x43, 0x00]

def ALLOCATION_IMAGE_VERSION : Nat := 1

@[simp] theorem length_ALLOCATION_IMAGE_MAGIC :
    ALLOCATION_IMAGE_MAGIC.length = 8 := by
  simp [ALLOCATION_IMAGE_MAGIC]

def ALLOCATION_OVERFLOW : String := "allocation region byte size overflow"

/-- `map_err(invalid_data)` on an allocator error. -/
def liftAllocation {α : Type} (x : Except AllocationError α) : Result α :=
  x.mapError fun e => invalidData e.message

@[simp] theorem liftAllocation_eq_ok {α : Type} {x : Except AllocationError α}
    {a : α} : liftAllocation x = .ok a ↔ x = .ok a := by
  cases x <;> simp [liftAllocation, Except.mapError]

/-! ## Encoding and decoding -/

/-- `bit_is_set`. -/
def bitIsSet (bitmap : List UInt8) (block : Nat) : Result Bool := do
  let byte ← okOr bitmap[block / 8]? (invalidData "bitmap index out of range")
  pure (testBit byte (block % 8))

/-- One of the two loops of `validate_bitmap_bits`. -/
def requireClear (bitmap : List UInt8) (message : String) :
    List Nat → Result Unit
  | [] => pure ()
  | block :: blocks => do
    let set ← bitIsSet bitmap block
    rejectIf (set = true) (invalidData message)
    requireClear bitmap message blocks

/-- `validate_bitmap_bits`. -/
def validateBitmapBits (bitmap : List UInt8) (sb : Superblock) :
    Result Unit := do
  requireClear bitmap "allocation bitmap marks reserved metadata as data-owned"
    (List.range sb.reservedBlocks)
  let bitCapacity ← okOr (checkedMul bitmap.length 8)
    (invalidData "bitmap bit count overflow")
  requireClear bitmap "allocation bitmap has non-zero trailing bits"
    (List.range' sb.totalBlocks (bitCapacity - sb.totalBlocks))

/-- The header of an allocation image. -/
def allocationHeader (bitmap : List UInt8) : List UInt8 :=
  regionHeader ALLOCATION_IMAGE_MAGIC ALLOCATION_IMAGE_VERSION bitmap.length
    (crc32 bitmap).toNat 0

@[simp] theorem length_allocationHeader (bitmap : List UInt8) :
    (allocationHeader bitmap).length = 32 :=
  length_regionHeader (by simp) _ _ _ _

/-- `encode_image`. -/
def encodeAllocation (sb : Superblock) (bitmap : List UInt8) :
    Result (List UInt8) := do
  let expected ← allocationBitmapBytes sb.totalBlocks
  rejectIf (bitmap.length ≠ expected) (invalidInput
    "allocation bitmap length does not match filesystem geometry")
  validateBitmapBits bitmap sb
  let len ← regionLen sb.allocationBlocks ALLOCATION_OVERFLOW
  let payloadEnd ← okOr (checkedAdd 32 bitmap.length)
    (invalidInput "allocation image length overflow")
  rejectIf (payloadEnd > len)
    (invalidInput "allocation image does not fit reserved region")
  pure (allocationHeader bitmap ++ bitmap ++ zeros (len - payloadEnd))

/-- `decode_image`: the bitmap of an allocation image. -/
def decodeAllocation (image : List UInt8) (sb : Superblock) :
    Result (List UInt8) := do
  let len ← regionLen sb.allocationBlocks ALLOCATION_OVERFLOW
  rejectIf (image.length ≠ len ∨ image.length < 32)
    (invalidData "allocation image has invalid region length")
  rejectIf (slice image 0 8 ≠ ALLOCATION_IMAGE_MAGIC)
    (invalidData "invalid allocation image magic")
  rejectIf (readLe image 8 4 ≠ ALLOCATION_IMAGE_VERSION)
    (invalidData "unsupported allocation image version")
  rejectIf (readLe image 12 4 ≠ 0 ∨ readLe image 28 4 ≠ 0)
    (invalidData "allocation image reserved fields are non-zero")
  let encodedBytes := readLe image 16 8
  let expectedBytes ← allocationBitmapBytes sb.totalBlocks
  rejectIf (encodedBytes ≠ expectedBytes) (invalidData
    "allocation bitmap length does not match filesystem geometry")
  let payloadEnd ← okOr (checkedAdd 32 encodedBytes)
    (invalidData "allocation image length overflow")
  rejectIf (payloadEnd > image.length)
    (invalidData "allocation bitmap exceeds reserved region")
  let bitmap := slice image 32 payloadEnd
  rejectIf (readLe image 24 4 ≠ (crc32 bitmap).toNat)
    (invalidData "allocation bitmap checksum mismatch")
  rejectIf (allZero (image.drop payloadEnd) = false)
    (invalidData "allocation image padding is non-zero")
  validateBitmapBits bitmap sb
  pure bitmap

/-! ## Loading and storing -/

/-- The first loop of `load_allocator`: `allocator.allocate()` for every data
block. -/
def allocateAll (a : BlockAllocator) : Nat →
    Except AllocationError BlockAllocator
  | 0 => pure a
  | n + 1 => do
    let next ← a.allocate
    allocateAll next.2 n

/-- The second loop of `load_allocator`: free the blocks whose bit is clear. -/
def freeClear (bitmap : List UInt8) (a : BlockAllocator) :
    List Nat → Result BlockAllocator
  | [] => pure a
  | block :: blocks => do
    let set ← bitIsSet bitmap block
    if set then freeClear bitmap a blocks
    else do
      let a ← liftAllocation (a.free block)
      freeClear bitmap a blocks

/-- `validate_device_geometry`. -/
def validateDeviceGeometry {σ : Type} [BlockDevice σ] (device : σ)
    (sb : Superblock) : Result Unit :=
  rejectIf (blockCount device ≠ sb.totalBlocks) (invalidInput
    "allocation metadata device geometry does not match superblock")

/-- The allocator of a bitmap, as `load_allocator` rebuilds it. -/
def allocatorOfBitmap (sb : Superblock) (bitmap : List UInt8) :
    Result BlockAllocator := do
  let fresh ← liftAllocation
    (BlockAllocator.new sb.totalBlocks sb.reservedBlocks)
  let full ← liftAllocation
    (allocateAll fresh (sb.totalBlocks - sb.reservedBlocks))
  let allocator ← freeClear bitmap full
    (List.range' sb.reservedBlocks (sb.totalBlocks - sb.reservedBlocks))
  allocator.validate.mapError fun e => invalidData e.message
  pure allocator

/-- `load_allocator`. -/
def loadAllocator {σ : Type} [BlockDevice σ] (device : σ) (sb : Superblock) :
    Result BlockAllocator := do
  validateDeviceGeometry device sb
  let image ← readRegion device sb.allocationStart sb.allocationBlocks
    ALLOCATION_OVERFLOW
  let bitmap ← decodeAllocation image sb
  allocatorOfBitmap sb bitmap

/-- The loop of `store_allocator` over the data blocks: the owned ones. -/
def ownedBlocks (a : BlockAllocator) : List Nat → Result (List Nat)
  | [] => pure []
  | block :: blocks => do
    let owned ← (a.isOwned block).mapError fun e => invalidInput e.message
    let rest ← ownedBlocks a blocks
    pure (if owned then block :: rest else rest)

/-- The image that `store_allocator` writes. -/
def allocationImage (sb : Superblock) (a : BlockAllocator) :
    Result (List UInt8) := do
  rejectIf (a.totalBlocks ≠ sb.totalBlocks ∨
      a.reservedBlocks ≠ sb.reservedBlocks)
    (invalidInput "allocator geometry does not match superblock")
  a.validate.mapError fun e => invalidInput e.message
  let bytes ← allocationBitmapBytes sb.totalBlocks
  let owned ← ownedBlocks a
    (List.range' sb.reservedBlocks (sb.totalBlocks - sb.reservedBlocks))
  encodeAllocation sb (setBits (zeros bytes) owned)

/-- `store_allocator`. -/
def storeAllocator {σ : Type} [BlockDevice σ] (sb : Superblock)
    (a : BlockAllocator) : DevM σ Unit := do
  Effect.query (validateDeviceGeometry · sb)
  let image ← allocationImage sb a
  writeRegion sb.allocationStart sb.allocationBlocks ALLOCATION_OVERFLOW
    "allocation image has invalid region length" image
  flush

/-! ## The geometry of the image -/

/-- The bitmap and its header fit the allocation region. -/
theorem allocation_fits (sb : Superblock) :
    allocationBitmapBytes sb.totalBlocks = .ok ((sb.totalBlocks + 7) / 8) ∧
      sb.allocationBlocks * BLOCK_SIZE < U64_LIMIT ∧
      32 + (sb.totalBlocks + 7) / 8 ≤ sb.allocationBlocks * BLOCK_SIZE := by
  have hb := blockSize_eq
  have h := sb.allocationBlocks_eq
  simp only [requiredAllocationBlocks, Except.bind_eq_ok, okOr_eq_ok,
    checkedAdd_eq_some, ALLOCATION_IMAGE_HEADER_LEN,
    Option.map_eq_some_iff] at h
  obtain ⟨bytes, hbytes, image, ⟨_, rfl⟩, rounded, ⟨hlt, rfl⟩, hblocks⟩ := h
  have hbytes' : bytes = (sb.totalBlocks + 7) / 8 := by
    simp only [allocationBitmapBytes, okOr_eq_ok, Option.map_eq_some_iff,
      checkedAdd_eq_some] at hbytes
    obtain ⟨_, ⟨_, rfl⟩, rfl⟩ := hbytes
    rfl
  subst hbytes'
  rw [hb] at hlt hblocks ⊢
  refine ⟨hbytes, ?_, ?_⟩
  · omega
  · omega

theorem bitIsSet_eq {bitmap : List UInt8} {block : Nat}
    (h : block / 8 < bitmap.length) :
    bitIsSet bitmap block = .ok (bitAt bitmap block) := by
  unfold bitIsSet bitAt
  rw [List.getElem?_eq_getElem h]
  rfl

theorem requireClear_eq_ok {bitmap : List UInt8} {message : String}
    {blocks : List Nat} (hlen : ∀ b ∈ blocks, b / 8 < bitmap.length) {u : Unit} :
    requireClear bitmap message blocks = .ok u ↔
      ∀ b ∈ blocks, bitAt bitmap b = false := by
  induction blocks with
  | nil => simp [requireClear]
  | cons b bs ih =>
    have hb := hlen b List.mem_cons_self
    have hbs : ∀ c ∈ bs, c / 8 < bitmap.length :=
      fun c hc => hlen c (List.mem_cons_of_mem _ hc)
    simp only [requireClear, bitIsSet_eq hb, Except.ok_bind,
      Except.bind_eq_ok, rejectIf_eq_ok, ih hbs, List.forall_mem_cons,
      Bool.not_eq_true]
    constructor
    · intro hfacts
      rcases hfacts with ⟨_, h1, h2⟩
      exact ⟨h1, h2⟩
    · intro hfacts
      rcases hfacts with ⟨h1, h2⟩
      exact ⟨(), h1, h2⟩

/-- A bitmap of the right length passes `validate_bitmap_bits` exactly if only
data blocks have bits. -/
theorem validateBitmapBits_eq_ok {bitmap : List UInt8} {sb : Superblock}
    (hlen : bitmap.length = (sb.totalBlocks + 7) / 8) {u : Unit} :
    validateBitmapBits bitmap sb = .ok u ↔
      ∀ n, n < 8 * bitmap.length → n < sb.reservedBlocks ∨ sb.totalBlocks ≤ n →
        bitAt bitmap n = false := by
  have hmul : checkedMul bitmap.length 8 = some (bitmap.length * 8) := by
    have hlt := sb.totalBlocks_lt
    rw [checkedMul_eq_some]
    omega
  have hreserved : sb.reservedBlocks ≤ sb.totalBlocks := sb.metadataEnd_le
  have hfront : ∀ b ∈ List.range sb.reservedBlocks, b / 8 < bitmap.length := by
    intro b hb
    have := List.mem_range.mp hb
    omega
  have htail : ∀ b ∈ List.range' sb.totalBlocks
      (bitmap.length * 8 - sb.totalBlocks), b / 8 < bitmap.length := by
    intro b hb
    have := List.mem_range'_1.mp hb
    omega
  unfold validateBitmapBits
  rw [hmul, okOr_some]
  simp only [Except.bind_eq_ok, Except.ok_bind, requireClear_eq_ok hfront,
    requireClear_eq_ok htail, List.mem_range, List.mem_range'_1]
  constructor
  · rintro ⟨_, h1, h2⟩ n hn hout
    rcases hout with h | h
    · exact h1 n h
    · exact h2 n (by omega)
  · intro h
    refine ⟨(), ?_, ?_⟩
    · intro b hb
      exact h b (by omega) (.inl hb)
    · intro b hb
      exact h b (by omega) (.inr (by omega))

/-! ## The two directions of the image -/

/-- The checks of `encode_image`, and the image it gives. -/
theorem encodeAllocation_eq_ok {sb : Superblock} {bitmap image : List UInt8} :
    encodeAllocation sb bitmap = .ok image ↔
      bitmap.length = (sb.totalBlocks + 7) / 8 ∧
        validateBitmapBits bitmap sb = .ok () ∧
        allocationHeader bitmap ++ bitmap ++
          zeros (sb.allocationBlocks * BLOCK_SIZE - (32 + bitmap.length)) =
            image := by
  obtain ⟨hbytes, hregion, hfits⟩ := allocation_fits sb
  simp only [encodeAllocation, hbytes, Except.ok_bind, Except.bind_eq_ok,
    rejectIf_eq_ok, regionLen_eq_ok, okOr_eq_ok, checkedAdd_eq_some,
    Except.pure_eq_ok, Except.ok.injEq]
  constructor
  · intro hfacts
    rcases hfacts with ⟨_, hlen, _, hvalid, len, ⟨_, rfl⟩, payloadEnd, ⟨_,
      rfl⟩, _, _, h⟩
    exact ⟨not_ne_iff.mp hlen, hvalid, h⟩
  · intro hfacts
    rcases hfacts with ⟨hlen, hvalid, h⟩
    refine ⟨(), not_ne_iff.mpr hlen, (), hvalid, _, ⟨hregion, rfl⟩, _,
      ⟨?_, rfl⟩, (), ?_, h⟩
    · omega
    · omega

/-- A stored bitmap is decoded as itself. -/
theorem decodeAllocation_of_encode {sb : Superblock}
    {bitmap image : List UInt8} (h : encodeAllocation sb bitmap = .ok image) :
    decodeAllocation image sb = .ok bitmap := by
  obtain ⟨hbytes, hregion, hfits⟩ := allocation_fits sb
  obtain ⟨hlen, hvalid, himage⟩ := encodeAllocation_eq_ok.mp h
  have hlt : bitmap.length < U64_LIMIT := by omega
  obtain ⟨hmagic, hversion, hflags, hlength, hcrc, hzero⟩ :=
    regionHeader_reads ALLOCATION_IMAGE_MAGIC ALLOCATION_IMAGE_VERSION
      bitmap.length (crc32 bitmap).toNat 0 length_ALLOCATION_IMAGE_MAGIC
      (by decide) hlt (toNat_crc32_lt bitmap) (by decide)
      (bitmap ++ zeros (sb.allocationBlocks * BLOCK_SIZE - (32 + bitmap.length)))
  have himage' : image = regionHeader ALLOCATION_IMAGE_MAGIC
      ALLOCATION_IMAGE_VERSION bitmap.length (crc32 bitmap).toNat 0 ++ (bitmap ++
      zeros (sb.allocationBlocks * BLOCK_SIZE - (32 + bitmap.length))) := by
    rw [← himage, List.append_assoc]
    rfl
  simp only [← himage'] at hmagic hversion hflags hlength hcrc hzero
  have hsize : image.length = sb.allocationBlocks * BLOCK_SIZE := by
    rw [← himage]
    simp only [List.length_append, length_allocationHeader, length_zeros]
    omega
  have hregionLen : regionLen sb.allocationBlocks ALLOCATION_OVERFLOW =
      .ok image.length := by
    rw [hsize, regionLen_eq_ok]
    exact ⟨hregion, rfl⟩
  have hadd : checkedAdd 32 bitmap.length = some (32 + bitmap.length) := by
    rw [checkedAdd_eq_some]
    omega
  have hslice : slice image 32 (32 + bitmap.length) = bitmap := by
    rw [← himage, slice_append_left (by simp), slice_append_right (by simp)]
    simp
  have hrest : image.drop (32 + bitmap.length) =
      zeros (sb.allocationBlocks * BLOCK_SIZE - (32 + bitmap.length)) := by
    rw [← himage]
    exact List.drop_left' (by simp)
  have h32 : ¬ image.length < 32 := by omega
  have hend : ¬ image.length < 32 + bitmap.length := by omega
  simp [decodeAllocation, hregionLen, hmagic, hversion, hflags, hzero, hlength,
    hbytes, ← hlen, hadd, hslice, hcrc, hrest, hvalid, h32, hend]

/-- An image that is accepted is the image of its bitmap. -/
theorem encodeAllocation_of_decode {sb : Superblock}
    {bitmap image : List UInt8} (h : decodeAllocation image sb = .ok bitmap) :
    encodeAllocation sb bitmap = .ok image := by
  obtain ⟨hbytes, hregion, hfits⟩ := allocation_fits sb
  simp only [decodeAllocation, Except.bind_eq_ok, rejectIf_eq_ok,
    regionLen_eq_ok, hbytes, Except.ok_bind, okOr_eq_ok, checkedAdd_eq_some,
    Except.pure_eq_ok, Except.ok.injEq, not_or, not_ne_iff, not_lt,
    Bool.not_eq_false] at h
  obtain ⟨len, ⟨_, rfl⟩, _, ⟨hsize, h32⟩, _, hmagic, _, hversion, _,
    ⟨hflags, hzero⟩, _, hlength, payloadEnd, ⟨_, rfl⟩, _, hend, _, hcrc, _,
    hpadding, _, hvalid, hbitmap⟩ := h
  rw [hlength] at hend hbitmap hcrc hpadding hvalid
  rw [hbitmap] at hcrc hvalid
  have hlen : bitmap.length = (sb.totalBlocks + 7) / 8 := by
    rw [← hbitmap, length_slice_of_le hend]
    omega
  have hheader := take_eq_regionHeader h32 hmagic hversion hflags
  rw [hlength, hcrc, hzero, ← hlen] at hheader
  have hrest := eq_zeros_of_allZero hpadding
  rw [List.length_drop, hsize, ← hlen] at hrest
  rw [encodeAllocation_eq_ok]
  refine ⟨hlen, hvalid, ?_⟩
  rw [← hlen] at hbitmap
  have hcut := eq_append_slice_append image
    (Nat.le_add_right 32 bitmap.length)
  rw [hbitmap, hheader, hrest] at hcut
  exact hcut.symm

/-! ## The allocator of a bitmap -/

/-- The first loop of `load_allocator` takes every data block. -/
theorem allocateAll_eq_ok {a : BlockAllocator} {n : Nat}
    (h : a.reservedBlocks + a.allocatedBlocks + n = a.totalBlocks) :
    ∃ full, allocateAll a n = .ok full ∧ full.totalBlocks = a.totalBlocks ∧
      full.reservedBlocks = a.reservedBlocks ∧
      full.reservedBlocks + full.allocatedBlocks = full.totalBlocks := by
  induction n generalizing a with
  | zero => exact ⟨a, rfl, rfl, rfl, by omega⟩
  | succ n ih =>
    obtain ⟨first, a', hstep, htotal, hreserved, hcount⟩ :=
      BlockAllocator.allocate_of_free (a := a) (by omega)
    obtain ⟨full, hfull, htotal', hreserved', hcount'⟩ :=
      ih (a := a') (by omega)
    refine ⟨full, ?_, by omega, by omega, hcount'⟩
    rw [allocateAll, hstep]
    exact hfull

/-- The second loop of `load_allocator` leaves the flags of the bitmap. -/
theorem freeClear_eq_ok (bitmap : List UInt8) (a : BlockAllocator)
    (blocks : List Nat) (hnodup : blocks.Nodup)
    (hset : ∀ b ∈ blocks, a.flag b = true)
    (hlen : ∀ b ∈ blocks, b / 8 < bitmap.length) :
    ∃ a', freeClear bitmap a blocks = .ok a' ∧
      a'.totalBlocks = a.totalBlocks ∧ a'.reservedBlocks = a.reservedBlocks ∧
      ∀ b, a'.flag b = if b ∈ blocks then bitAt bitmap b else a.flag b := by
  induction blocks generalizing a with
  | nil => exact ⟨a, rfl, rfl, rfl, fun b => by simp⟩
  | cons c cs ih =>
    have hc := hset c List.mem_cons_self
    have hcs : ∀ b ∈ cs, a.flag b = true :=
      fun b hb => hset b (List.mem_cons_of_mem _ hb)
    have hlens : ∀ b ∈ cs, b / 8 < bitmap.length :=
      fun b hb => hlen b (List.mem_cons_of_mem _ hb)
    have hnotMem : c ∉ cs := (List.nodup_cons.mp hnodup).1
    have hnodups := (List.nodup_cons.mp hnodup).2
    unfold freeClear
    rw [bitIsSet_eq (hlen c List.mem_cons_self), Except.ok_bind]
    cases hbit : bitAt bitmap c with
    | true =>
      obtain ⟨a', hrun, htotal, hreserved, hflag⟩ := ih a hnodups hcs hlens
      refine ⟨a', hrun, htotal, hreserved, ?_⟩
      intro b
      rw [hflag b]
      by_cases hb : b = c
      · subst hb
        simp [hnotMem, hc, hbit]
      · simp [hb]
    | false =>
      obtain ⟨freed, hfreed⟩ := BlockAllocator.free_of_flag hc
      obtain ⟨htotal, hreserved, _, hflags⟩ := BlockAllocator.free_eq_ok hfreed
      have hset' : ∀ b ∈ cs, freed.flag b = true := by
        intro b hb
        have hne : b ≠ c := fun h => hnotMem (h ▸ hb)
        rw [hflags b, hcs b hb]
        simp [hne]
      obtain ⟨a', hrun, htotal', hreserved', hflag⟩ := ih freed hnodups hset' hlens
      refine ⟨a', ?_, by omega, by omega, ?_⟩
      · simp only [liftAllocation, hfreed, Except.mapError, Except.ok_bind]
        exact hrun
      · intro b
        rw [hflag b, hflags b]
        by_cases hb : b = c
        · subst hb
          simp [hnotMem, hbit]
        · simp [hb]

/-- A bitmap of the right length is loaded as the allocator with its bits. -/
theorem allocatorOfBitmap_eq_ok {sb : Superblock} {bitmap : List UInt8}
    (hlen : bitmap.length = (sb.totalBlocks + 7) / 8) :
    ∃ a, allocatorOfBitmap sb bitmap = .ok a ∧
      a.totalBlocks = sb.totalBlocks ∧ a.reservedBlocks = sb.reservedBlocks ∧
      ∀ b, sb.reservedBlocks ≤ b → b < sb.totalBlocks →
        a.flag b = bitAt bitmap b := by
  have hle : sb.reservedBlocks ≤ sb.totalBlocks := sb.metadataEnd_le
  have hlt := sb.totalBlocks_lt
  obtain ⟨fresh, hfresh, htotal, hreserved, hflags⟩ :=
    BlockAllocator.new_eq_ok hle
  have hcount : fresh.allocatedBlocks = 0 := by
    rw [fresh.count_eq, hflags, List.drop_replicate, List.count_replicate]
    rfl
  obtain ⟨full, hfull, htotal', hreserved', hfullCount⟩ :=
    allocateAll_eq_ok (a := fresh) (n := sb.totalBlocks - sb.reservedBlocks)
      (by omega)
  obtain ⟨a, hrun, htotal'', hreserved'', hflag⟩ :=
    freeClear_eq_ok bitmap full (List.range' sb.reservedBlocks
        (sb.totalBlocks - sb.reservedBlocks))
      List.nodup_range'
      (fun b hb => by
        have := List.mem_range'_1.mp hb
        exact BlockAllocator.flag_of_full hfullCount (by omega) (by omega))
      (fun b hb => by
        have := List.mem_range'_1.mp hb
        omega)
  have hvalidate := BlockAllocator.validate_eq_ok (a := a) (by omega)
  refine ⟨a, ?_, by omega, by omega, ?_⟩
  · simp [allocatorOfBitmap, liftAllocation, hfresh, hfull, hrun, hvalidate,
      Except.mapError]
  · intro b h1 h2
    rw [hflag b, if_pos (List.mem_range'_1.mpr (by omega))]

/-- The owned data blocks are those with a flag. -/
theorem ownedBlocks_eq_ok {a : BlockAllocator} {blocks : List Nat}
    (h : ∀ b ∈ blocks, a.reservedBlocks ≤ b ∧ b < a.totalBlocks) :
    ownedBlocks a blocks = .ok (blocks.filter a.flag) := by
  induction blocks with
  | nil => rfl
  | cons b bs ih =>
    have hb := h b List.mem_cons_self
    have hbs := ih fun c hc => h c (List.mem_cons_of_mem _ hc)
    simp only [ownedBlocks, BlockAllocator.isOwned_of_data hb.1 hb.2,
      Except.mapError, Except.ok_bind, hbs, List.filter_cons]
    rfl

/-- The bitmap of an allocator. -/
def bitmapOf (sb : Superblock) (a : BlockAllocator) : List UInt8 :=
  setBits (zeros ((sb.totalBlocks + 7) / 8)) ((List.range' sb.reservedBlocks
    (sb.totalBlocks - sb.reservedBlocks)).filter a.flag)

@[simp] theorem length_bitmapOf (sb : Superblock) (a : BlockAllocator) :
    (bitmapOf sb a).length = (sb.totalBlocks + 7) / 8 := by
  simp [bitmapOf]

theorem bitAt_bitmapOf (sb : Superblock) (a : BlockAllocator) (n : Nat) :
    bitAt (bitmapOf sb a) n =
      (decide (sb.reservedBlocks ≤ n ∧ n < sb.totalBlocks) && a.flag n) := by
  unfold bitmapOf
  rw [bitAt_setBits, bitAt_zeros]
  · by_cases hn : sb.reservedBlocks ≤ n ∧ n < sb.totalBlocks
    · have hmem : n ∈ List.range' sb.reservedBlocks
          (sb.totalBlocks - sb.reservedBlocks) :=
        List.mem_range'_1.mpr (by omega)
      simp [hn, List.mem_filter, hmem]
    · have hmem : n ∉ List.range' sb.reservedBlocks
          (sb.totalBlocks - sb.reservedBlocks) := by
        intro h
        have := List.mem_range'_1.mp h
        omega
      simp [hn, List.mem_filter, hmem]
  · intro b hb
    have := List.mem_range'_1.mp (List.mem_of_mem_filter hb)
    rw [length_zeros]
    omega

/-- What `store_allocator` writes: the encoded bitmap of an allocator of the
right geometry. -/
theorem allocationImage_eq_ok {sb : Superblock} {a : BlockAllocator}
    {image : List UInt8} :
    allocationImage sb a = .ok image ↔
      a.totalBlocks = sb.totalBlocks ∧ a.reservedBlocks = sb.reservedBlocks ∧
        encodeAllocation sb (bitmapOf sb a) = .ok image := by
  obtain ⟨hbytes, _, _⟩ := allocation_fits sb
  have hlt := sb.totalBlocks_lt
  have hcore : a.totalBlocks = sb.totalBlocks →
      a.reservedBlocks = sb.reservedBlocks →
      ownedBlocks a (List.range' sb.reservedBlocks
        (sb.totalBlocks - sb.reservedBlocks)) =
        .ok ((List.range' sb.reservedBlocks
          (sb.totalBlocks - sb.reservedBlocks)).filter a.flag) := by
    intro h1 h2
    apply ownedBlocks_eq_ok
    intro b hb
    have := List.mem_range'_1.mp hb
    omega
  simp only [allocationImage, Except.bind_eq_ok, rejectIf_eq_ok, not_or,
    not_ne_iff, hbytes, Except.ok_bind]
  constructor
  · intro hfacts
    rcases hfacts with ⟨_, ⟨h1, h2⟩, _, _, owned, howned, h⟩
    rw [hcore h1 h2, Except.ok.injEq] at howned
    subst howned
    exact ⟨h1, h2, h⟩
  · intro hfacts
    rcases hfacts with ⟨h1, h2, h⟩
    refine ⟨(), ⟨h1, h2⟩, (), ?_, _, hcore h1 h2, h⟩
    rw [BlockAllocator.validate_eq_ok (by omega)]
    rfl

/-- Every allocator of the right geometry can be stored. -/
theorem exists_allocationImage {sb : Superblock} {a : BlockAllocator}
    (htotal : a.totalBlocks = sb.totalBlocks)
    (hreserved : a.reservedBlocks = sb.reservedBlocks) :
    ∃ image, allocationImage sb a = .ok image := by
  refine ⟨_, allocationImage_eq_ok.mpr ⟨htotal, hreserved,
    encodeAllocation_eq_ok.mpr ⟨length_bitmapOf sb a, ?_, rfl⟩⟩⟩
  rw [validateBitmapBits_eq_ok (length_bitmapOf sb a)]
  intro n _ hout
  rw [bitAt_bitmapOf]
  simp only [Bool.and_eq_false_iff, decide_eq_false_iff_not]
  left
  omega

/-- An image is what `store_allocator` writes for an allocator exactly if
`load_allocator` reads it as that allocator. -/
theorem allocationImage_iff_load {sb : Superblock} {a : BlockAllocator}
    {image : List UInt8} :
    allocationImage sb a = .ok image ↔
      (decodeAllocation image sb >>= allocatorOfBitmap sb) = .ok a := by
  rw [allocationImage_eq_ok, Except.bind_eq_ok]
  constructor
  · intro hfacts
    rcases hfacts with ⟨h1, h2, h⟩
    refine ⟨_, decodeAllocation_of_encode h, ?_⟩
    obtain ⟨a', hload, htotal, hreserved, hflag⟩ :=
      allocatorOfBitmap_eq_ok (length_bitmapOf sb a)
    rw [hload, Except.ok.injEq]
    apply BlockAllocator.ext_flag (by omega) (by omega)
    intro b hb1 hb2
    rw [hflag b (by omega) (by omega), bitAt_bitmapOf]
    simp only [Bool.and_eq_right_iff_imp, decide_eq_true_eq]
    intro _
    omega
  · intro hfacts
    rcases hfacts with ⟨bitmap, hdecode, hload⟩
    have hencode := encodeAllocation_of_decode hdecode
    obtain ⟨hlen, hvalid, _⟩ := encodeAllocation_eq_ok.mp hencode
    rw [validateBitmapBits_eq_ok hlen] at hvalid
    obtain ⟨a', hload', htotal, hreserved, hflag⟩ :=
      allocatorOfBitmap_eq_ok hlen
    rw [hload, Except.ok.injEq] at hload'
    subst hload'
    refine ⟨htotal, hreserved, ?_⟩
    have hsame : bitmapOf sb a = bitmap := by
      apply eq_of_bitAt (by rw [length_bitmapOf, hlen])
      intro n hn
      rw [bitAt_bitmapOf]
      by_cases hdata : sb.reservedBlocks ≤ n ∧ n < sb.totalBlocks
      · rw [hflag n hdata.1 hdata.2]
        simp [hdata]
      · rw [length_bitmapOf, ← hlen] at hn
        rw [hvalid n hn (by omega)]
        simp [hdata]
    rw [hsame]
    exact hencode

/-- A loaded allocator has the geometry of the superblock. -/
theorem geometry_of_loadAllocator {σ : Type} [BlockDevice σ] {device : σ}
    {sb : Superblock} {a : BlockAllocator}
    (h : loadAllocator device sb = .ok a) :
    a.totalBlocks = sb.totalBlocks ∧ a.reservedBlocks = sb.reservedBlocks := by
  simp only [loadAllocator, Except.bind_eq_ok] at h
  obtain ⟨_, _, image, _, bitmap, hbitmap, ha⟩ := h
  have himage := allocationImage_iff_load.mpr
    (Except.bind_eq_ok.mpr ⟨bitmap, hbitmap, ha⟩)
  obtain ⟨htotal, hreserved, _⟩ := allocationImage_eq_ok.mp himage
  exact ⟨htotal, hreserved⟩

/-- The allocator depends on the allocation region only. -/
theorem loadAllocator_congr {σ τ : Type} [BlockDevice σ] [BlockDevice τ]
    {device : σ} {other : τ} {sb : Superblock}
    (hcount : blockCount device = blockCount other)
    (hread : ∀ b, sb.allocationRange b →
      readBlock device b = readBlock other b) :
    loadAllocator device sb = loadAllocator other sb := by
  unfold loadAllocator validateDeviceGeometry
  rw [hcount, readRegion_congr fun b h1 h2 => hread b ⟨h1, h2⟩]

end FilesystemLab
