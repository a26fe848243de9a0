import FilesystemLab.Block

/-!
# The superblock

`src/format.rs`: the geometry of the filesystem and its block-zero image.

The fields of the Rust `Superblock` are public, but no code of the crate builds
one except `with_all_metadata_blocks` and `decode`, and both establish the same
geometry.  The structure here carries that geometry, so a superblock with
overlapping reservations cannot be built and no later proof asks for it.
-/

namespace FilesystemLab

open Bytes

def SUPERBLOCK_BLOCK : Nat := 0

/-- The bytes of `b"FSLABFS\0"`. -/
def SUPERBLOCK_MAGIC : List UInt8 :=
  [0x46, 0x53, 0x4c, 0x41, 0x42, 0x46, 0x53, 0x00]

def FORMAT_VERSION : Nat := 6

def FORMAT_BLOCK_SIZE : Nat := 4096

def ALLOCATION_IMAGE_HEADER_LEN : Nat := 32

/-- The bytes needed for one allocation bit per block. -/
def allocationBitmapBytes (totalBlocks : Nat) : Result Nat :=
  okOr ((checkedAdd totalBlocks 7).map (· / 8))
    (invalidInput "allocation bitmap size overflow")

/-- The blocks that the allocation image needs. -/
def requiredAllocationBlocks (totalBlocks : Nat) : Result Nat := do
  let bytes ← allocationBitmapBytes totalBlocks
  let imageBytes ← okOr (checkedAdd ALLOCATION_IMAGE_HEADER_LEN bytes)
    (invalidInput "allocation image size overflow")
  okOr ((checkedAdd imageBytes (BLOCK_SIZE - 1)).map (· / BLOCK_SIZE))
    (invalidInput "allocation image size overflow")

/-- The geometry that both constructors of a superblock establish: one
contiguous metadata prefix in the order superblock, journal, allocation image,
inode table, directory table. -/
structure Superblock where
  totalBlocks : Nat
  journalStart : Nat
  journalBlocks : Nat
  allocationStart : Nat
  allocationBlocks : Nat
  inodeStart : Nat
  inodeBlocks : Nat
  directoryStart : Nat
  directoryBlocks : Nat
  journalStart_eq : journalStart = SUPERBLOCK_BLOCK + 1
  journalBlocks_ne : journalBlocks ≠ 0
  allocationStart_eq : allocationStart = journalStart + journalBlocks
  allocationBlocks_eq :
    requiredAllocationBlocks totalBlocks = .ok allocationBlocks
  inodeStart_eq : inodeStart = allocationStart + allocationBlocks
  inodeBlocks_ne : inodeBlocks ≠ 0
  directoryStart_eq : directoryStart = inodeStart + inodeBlocks
  directoryBlocks_ne : directoryBlocks ≠ 0
  metadataEnd_le : directoryStart + directoryBlocks ≤ totalBlocks
  deriving DecidableEq

namespace Superblock

/-- The geometry with regions of these sizes, one behind the other. -/
def ofSizes (totalBlocks journalBlocks allocationBlocks inodeBlocks
    directoryBlocks : Nat)
    (h : requiredAllocationBlocks totalBlocks = .ok allocationBlocks ∧
      journalBlocks ≠ 0 ∧ inodeBlocks ≠ 0 ∧ directoryBlocks ≠ 0 ∧
      SUPERBLOCK_BLOCK + 1 + journalBlocks + allocationBlocks + inodeBlocks +
        directoryBlocks ≤ totalBlocks) : Superblock where
  totalBlocks
  journalStart := SUPERBLOCK_BLOCK + 1
  journalBlocks
  allocationStart := SUPERBLOCK_BLOCK + 1 + journalBlocks
  allocationBlocks
  inodeStart := SUPERBLOCK_BLOCK + 1 + journalBlocks + allocationBlocks
  inodeBlocks
  directoryStart :=
    SUPERBLOCK_BLOCK + 1 + journalBlocks + allocationBlocks + inodeBlocks
  directoryBlocks
  journalStart_eq := rfl
  journalBlocks_ne := h.2.1
  allocationStart_eq := rfl
  allocationBlocks_eq := h.1
  inodeStart_eq := rfl
  inodeBlocks_ne := h.2.2.1
  directoryStart_eq := rfl
  directoryBlocks_ne := h.2.2.2.1
  metadataEnd_le := h.2.2.2.2

/-- `Superblock::with_all_metadata_blocks`. -/
def withAllMetadataBlocks (totalBlocks journalBlocks inodeBlocks
    directoryBlocks : Nat) : Result Superblock :=
  if hj : journalBlocks = 0 then
    .error (invalidInput "filesystem journal must reserve at least one block")
  else if hi : inodeBlocks = 0 then
    .error
      (invalidInput "filesystem inode table must reserve at least one block")
  else if hd : directoryBlocks = 0 then
    .error
      (invalidInput "filesystem directory table must reserve at least one block")
  else
    let journalStart := SUPERBLOCK_BLOCK + 1
    match checkedAdd journalStart journalBlocks with
    | none => .error (invalidInput "journal block range overflow")
    | some _ =>
      match ha : requiredAllocationBlocks totalBlocks with
      | .error e => .error e
      | .ok allocationBlocks =>
        let allocationStart := journalStart + journalBlocks
        match checkedAdd allocationStart allocationBlocks with
        | none =>
          .error (invalidInput "allocation metadata block range overflow")
        | some _ =>
          let inodeStart := allocationStart + allocationBlocks
          match checkedAdd inodeStart inodeBlocks with
          | none => .error (invalidInput "inode table block range overflow")
          | some _ =>
            let directoryStart := inodeStart + inodeBlocks
            match checkedAdd directoryStart directoryBlocks with
            | none =>
              .error (invalidInput "directory table block range overflow")
            | some _ =>
              if he : directoryStart + directoryBlocks > totalBlocks then
                .error (invalidInput
                  "filesystem device is too small for durable metadata reservations")
              else
                .ok {
                  totalBlocks, journalStart, journalBlocks, allocationStart,
                  allocationBlocks, inodeStart, inodeBlocks, directoryStart,
                  directoryBlocks
                  journalStart_eq := rfl
                  journalBlocks_ne := hj
                  allocationStart_eq := rfl
                  allocationBlocks_eq := ha
                  inodeStart_eq := rfl
                  inodeBlocks_ne := hi
                  directoryStart_eq := rfl
                  directoryBlocks_ne := hd
                  metadataEnd_le := Nat.le_of_not_lt he }

/-- `Superblock::reserved_blocks`: the first data block. -/
def reservedBlocks (sb : Superblock) : Nat :=
  sb.directoryStart + sb.directoryBlocks

/-- `journal_range().contains(block)`. -/
def journalRange (sb : Superblock) (block : Nat) : Prop :=
  sb.journalStart ≤ block ∧ block < sb.journalStart + sb.journalBlocks

/-- `allocation_range().contains(block)`. -/
def allocationRange (sb : Superblock) (block : Nat) : Prop :=
  sb.allocationStart ≤ block ∧ block < sb.allocationStart + sb.allocationBlocks

/-- `inode_range().contains(block)`. -/
def inodeRange (sb : Superblock) (block : Nat) : Prop :=
  sb.inodeStart ≤ block ∧ block < sb.inodeStart + sb.inodeBlocks

/-- `directory_range().contains(block)`. -/
def directoryRange (sb : Superblock) (block : Nat) : Prop :=
  sb.directoryStart ≤ block ∧ block < sb.directoryStart + sb.directoryBlocks

instance (sb : Superblock) (block : Nat) : Decidable (sb.journalRange block) :=
  inferInstanceAs (Decidable (_ ∧ _))

instance (sb : Superblock) (block : Nat) :
    Decidable (sb.allocationRange block) :=
  inferInstanceAs (Decidable (_ ∧ _))

instance (sb : Superblock) (block : Nat) : Decidable (sb.inodeRange block) :=
  inferInstanceAs (Decidable (_ ∧ _))

instance (sb : Superblock) (block : Nat) :
    Decidable (sb.directoryRange block) :=
  inferInstanceAs (Decidable (_ ∧ _))

/-- `Superblock::encode`, before the zero padding to a whole block. -/
def header (sb : Superblock) : List UInt8 :=
  SUPERBLOCK_MAGIC ++ leBytes 4 FORMAT_VERSION ++ leBytes 4 FORMAT_BLOCK_SIZE ++
    leBytes 8 sb.totalBlocks ++ leBytes 8 sb.journalStart ++
    leBytes 8 sb.journalBlocks ++ leBytes 8 sb.allocationStart ++
    leBytes 8 sb.allocationBlocks ++ leBytes 8 sb.inodeStart ++
    leBytes 8 sb.inodeBlocks ++ leBytes 8 sb.directoryStart ++
    leBytes 8 sb.directoryBlocks

/-- `Superblock::encode`. -/
def encode (sb : Superblock) : Block := Block.ofBytes sb.header

/-- `Superblock::decode`. -/
def decode (block : Block) : Result Superblock := do
  let bytes := block.bytes
  rejectIf (slice bytes 0 8 ≠ SUPERBLOCK_MAGIC)
    (invalidData "invalid superblock magic")
  let version := readLe bytes 8 4
  rejectIf (version ≠ FORMAT_VERSION)
    (invalidData s!"unsupported filesystem format version {version}")
  let blockSize := readLe bytes 12 4
  rejectIf (blockSize ≠ FORMAT_BLOCK_SIZE ∨ blockSize ≠ BLOCK_SIZE)
    (invalidData "unsupported logical block size")
  let totalBlocks := readLe bytes 16 8
  let journalStart := readLe bytes 24 8
  let journalBlocks := readLe bytes 32 8
  let allocationStart := readLe bytes 40 8
  let allocationBlocks := readLe bytes 48 8
  let inodeStart := readLe bytes 56 8
  let inodeBlocks := readLe bytes 64 8
  let directoryStart := readLe bytes 72 8
  let directoryBlocks := readLe bytes 80 8
  if hjournal : journalStart ≠ SUPERBLOCK_BLOCK + 1 ∨ journalBlocks = 0 then
    .error (invalidData "invalid journal reservation")
  else if hinode : inodeBlocks = 0 then
    .error (invalidData "invalid inode table reservation")
  else if hdirectory : directoryBlocks = 0 then
    .error (invalidData "invalid directory table reservation")
  else do
    let _ ← okOr (checkedAdd journalStart journalBlocks)
      (invalidData "journal block range overflow")
    if hallocation : allocationStart ≠ journalStart + journalBlocks then
      .error
        (invalidData "allocation metadata does not immediately follow journal")
    else
      match hrequired : requiredAllocationBlocks totalBlocks with
      | .error e => .error (invalidData e.message)
      | .ok expected =>
        if hblocks : allocationBlocks ≠ expected then
          .error
            (invalidData "allocation metadata reservation has invalid length")
        else do
          let _ ← okOr (checkedAdd allocationStart allocationBlocks)
            (invalidData "allocation metadata block range overflow")
          if hstart : inodeStart ≠ allocationStart + allocationBlocks then
            .error (invalidData
              "inode table does not immediately follow allocation metadata")
          else do
            let _ ← okOr (checkedAdd inodeStart inodeBlocks)
              (invalidData "inode table block range overflow")
            if hdstart : directoryStart ≠ inodeStart + inodeBlocks then
              .error (invalidData
                "directory table does not immediately follow inode table")
            else do
              let _ ← okOr (checkedAdd directoryStart directoryBlocks)
                (invalidData "directory table block range overflow")
              if hend : directoryStart + directoryBlocks > totalBlocks then
                .error (invalidData
                  "durable metadata reservation exceeds filesystem size")
              else do
                rejectIf (allZero (bytes.drop 88) = false)
                  (invalidData "superblock reserved bytes are non-zero")
                pure {
                  totalBlocks, journalStart, journalBlocks, allocationStart,
                  allocationBlocks, inodeStart, inodeBlocks, directoryStart,
                  directoryBlocks
                  journalStart_eq := by
                    simpa using (not_or.mp hjournal).1
                  journalBlocks_ne := (not_or.mp hjournal).2
                  allocationStart_eq := by simpa using hallocation
                  allocationBlocks_eq := by
                    rw [hrequired, Except.ok.injEq]
                    exact (not_ne_iff.mp hblocks).symm
                  inodeStart_eq := by simpa using hstart
                  inodeBlocks_ne := hinode
                  directoryStart_eq := by simpa using hdstart
                  directoryBlocks_ne := hdirectory
                  metadataEnd_le := Nat.le_of_not_lt hend }

/-! ## The geometry as linear facts -/

theorem totalBlocks_lt (sb : Superblock) : sb.totalBlocks + 7 < U64_LIMIT := by
  have h := sb.allocationBlocks_eq
  simp only [requiredAllocationBlocks, allocationBitmapBytes,
    Except.bind_eq_ok, okOr_eq_ok, Option.map_eq_some_iff,
    checkedAdd_eq_some] at h
  obtain ⟨_, ⟨_, ⟨hlt, _⟩, _⟩, _⟩ := h
  exact hlt

/-- The order of the reservations, for `omega`. -/
theorem layout (sb : Superblock) :
    sb.journalStart = 1 ∧ 0 < sb.journalBlocks ∧
      sb.allocationStart = 1 + sb.journalBlocks ∧
      sb.inodeStart = sb.allocationStart + sb.allocationBlocks ∧
      sb.directoryStart = sb.inodeStart + sb.inodeBlocks ∧
      sb.reservedBlocks = sb.directoryStart + sb.directoryBlocks ∧
      0 < sb.inodeBlocks ∧ 0 < sb.directoryBlocks ∧
      sb.reservedBlocks ≤ sb.totalBlocks ∧ sb.totalBlocks < U64_LIMIT := by
  have h1 := sb.journalStart_eq
  have h2 := sb.journalBlocks_ne
  have h3 := sb.allocationStart_eq
  have h4 := sb.inodeStart_eq
  have h5 := sb.directoryStart_eq
  have h6 := sb.inodeBlocks_ne
  have h7 := sb.directoryBlocks_ne
  have h8 := sb.metadataEnd_le
  have h9 := sb.totalBlocks_lt
  simp only [SUPERBLOCK_BLOCK] at h1
  have h10 : sb.reservedBlocks = sb.directoryStart + sb.directoryBlocks := rfl
  omega

@[simp] theorem length_header (sb : Superblock) : sb.header.length = 88 := by
  simp [header, SUPERBLOCK_MAGIC]

/-- The fields of an encoded superblock, as the decoder reads them. -/
theorem encode_reads (sb : Superblock) :
    let bytes := sb.encode.bytes
    slice bytes 0 8 = SUPERBLOCK_MAGIC ∧ readLe bytes 8 4 = FORMAT_VERSION ∧
      readLe bytes 12 4 = FORMAT_BLOCK_SIZE ∧
      readLe bytes 16 8 = sb.totalBlocks ∧ readLe bytes 24 8 = sb.journalStart ∧
      readLe bytes 32 8 = sb.journalBlocks ∧
      readLe bytes 40 8 = sb.allocationStart ∧
      readLe bytes 48 8 = sb.allocationBlocks ∧
      readLe bytes 56 8 = sb.inodeStart ∧ readLe bytes 64 8 = sb.inodeBlocks ∧
      readLe bytes 72 8 = sb.directoryStart ∧
      readLe bytes 80 8 = sb.directoryBlocks ∧
      allZero (bytes.drop 88) = true := by
  have hb := blockSize_eq
  have hbytes : sb.encode.bytes = sb.header ++ zeros (BLOCK_SIZE - 88) := by
    unfold encode
    rw [Block.bytes_ofBytes_of_le (by rw [length_header]; omega), length_header]
  have hlayout := sb.layout
  have hmagic : SUPERBLOCK_MAGIC.length = 8 := by simp [SUPERBLOCK_MAGIC]
  have h4 : ofLeBytes (leBytes 4 FORMAT_VERSION) = FORMAT_VERSION :=
    ofLeBytes_leBytes 4 _ (by decide)
  have h4b : ofLeBytes (leBytes 4 FORMAT_BLOCK_SIZE) = FORMAT_BLOCK_SIZE :=
    ofLeBytes_leBytes 4 _ (by decide)
  have h8 : ∀ n, n < U64_LIMIT → ofLeBytes (leBytes 8 n) = n := by
    intro n hn
    apply ofLeBytes_leBytes
    simp only [U64_LIMIT] at hn
    omega
  refine ⟨?_, ?_, ?_, ?_, ?_, ?_, ?_, ?_, ?_, ?_, ?_, ?_, ?_⟩
  · rw [hbytes]
    simp [header, hmagic]
  · simp [hbytes, readLe, header, hmagic, h4]
  · simp [hbytes, readLe, header, hmagic, h4b]
  · simp [hbytes, readLe, header, hmagic, h8 sb.totalBlocks (by omega)]
  · simp [hbytes, readLe, header, hmagic, h8 sb.journalStart (by omega)]
  · simp [hbytes, readLe, header, hmagic, h8 sb.journalBlocks (by omega)]
  · simp [hbytes, readLe, header, hmagic, h8 sb.allocationStart (by omega)]
  · simp [hbytes, readLe, header, hmagic, h8 sb.allocationBlocks (by omega)]
  · simp [hbytes, readLe, header, hmagic, h8 sb.inodeStart (by omega)]
  · simp [hbytes, readLe, header, hmagic, h8 sb.inodeBlocks (by omega)]
  · simp [hbytes, readLe, header, hmagic, h8 sb.directoryStart (by omega)]
  · simp [hbytes, readLe, header, hmagic, h8 sb.directoryBlocks (by omega)]
  · rw [hbytes, List.drop_left' (length_header sb), allZero_zeros]

/-- An encoded superblock is decoded as itself. -/
theorem decode_encode (sb : Superblock) : decode sb.encode = .ok sb := by
  obtain ⟨h1, h2, h3, h4, h5, h6, h7, h8, h9, h10, h11, h12, h13⟩ :=
    encode_reads sb
  have hb : FORMAT_BLOCK_SIZE = BLOCK_SIZE := rfl
  have hlayout := sb.layout
  have hadd : ∀ a b, a + b < U64_LIMIT → checkedAdd a b = some (a + b) := by
    intro a b h
    rw [checkedAdd_eq_some]
    exact ⟨h, rfl⟩
  have ha1 := hadd sb.journalStart sb.journalBlocks (by omega)
  have ha2 := hadd sb.allocationStart sb.allocationBlocks (by omega)
  have ha3 := hadd sb.inodeStart sb.inodeBlocks (by omega)
  have ha4 := hadd sb.directoryStart sb.directoryBlocks (by omega)
  have hend : ¬ sb.directoryStart + sb.directoryBlocks > sb.totalBlocks := by
    have := sb.metadataEnd_le
    omega
  simp only [decode, h1, h2, h3, h4, h5, h6, h7, h8, h9, h10, h11, h12, h13, hb]
  rw [dif_neg (by rw [sb.journalStart_eq]; simp [sb.journalBlocks_ne]),
    dif_neg sb.inodeBlocks_ne, dif_neg sb.directoryBlocks_ne, ha1,
    rejectIf_of_not (by simp), rejectIf_of_not (by simp),
    rejectIf_of_not (by simp)]
  simp only [Except.ok_bind, okOr_some]
  rw [dif_neg (not_ne_iff.mpr sb.allocationStart_eq)]
  split
  · rename_i e he
    rw [h4, sb.allocationBlocks_eq] at he
    cases he
  · rename_i expected hexpected
    rw [h4, sb.allocationBlocks_eq, Except.ok.injEq] at hexpected
    rw [dif_neg (not_ne_iff.mpr hexpected), ha2,
      dif_neg (not_ne_iff.mpr sb.inodeStart_eq), ha3,
      dif_neg (not_ne_iff.mpr sb.directoryStart_eq), ha4, dif_neg hend]
    rfl

/-- A block that a journal record may target: the allocation, inode and
directory regions, and the data area. -/
def homeTarget (sb : Superblock) (block : Nat) : Prop :=
  sb.allocationRange block ∨ sb.inodeRange block ∨ sb.directoryRange block ∨
    sb.reservedBlocks ≤ block ∧ block < sb.totalBlocks

instance (sb : Superblock) (block : Nat) : Decidable (sb.homeTarget block) :=
  inferInstanceAs (Decidable (_ ∨ _ ∨ _ ∨ _ ∧ _))

/-- The targets are exactly the blocks behind the journal. -/
theorem homeTarget_iff (sb : Superblock) (block : Nat) :
    sb.homeTarget block ↔
      sb.journalStart + sb.journalBlocks ≤ block ∧ block < sb.totalBlocks := by
  have h := sb.layout
  unfold homeTarget allocationRange inodeRange directoryRange
  omega

/-- A target is not in the journal. -/
theorem not_journalRange_of_homeTarget {sb : Superblock} {block : Nat}
    (h : sb.homeTarget block) : ¬ sb.journalRange block := by
  rw [homeTarget_iff] at h
  unfold journalRange
  omega

end Superblock

/-- `read_superblock`. -/
def readSuperblock {σ : Type} [BlockDevice σ] (device : σ) :
    Result Superblock := do
  let block ← readBlock device SUPERBLOCK_BLOCK
  let sb ← Superblock.decode block
  rejectIf (sb.totalBlocks ≠ blockCount device)
    (invalidData "superblock block count does not match device")
  pure sb

theorem readSuperblock_size {σ : Type} [BlockDevice σ] {device : σ}
    {sb : Superblock} (h : readSuperblock device = .ok sb) :
    sb.totalBlocks = blockCount device := by
  simp only [readSuperblock, Except.bind_eq_ok, rejectIf_eq_ok,
    Except.pure_eq_ok, Except.ok.injEq] at h
  obtain ⟨_, _, sb', _, _, hcount, rfl⟩ := h
  exact not_ne_iff.mp hcount

/-- The superblock depends on block zero only. -/
theorem readSuperblock_congr {σ τ : Type} [BlockDevice σ] [BlockDevice τ]
    {device : σ} {other : τ} (hcount : blockCount device = blockCount other)
    (hread : readBlock device SUPERBLOCK_BLOCK =
      readBlock other SUPERBLOCK_BLOCK) :
    readSuperblock device = readSuperblock other := by
  rw [readSuperblock, readSuperblock, hcount, hread]

/-- The geometry of the concrete instances: sixteen blocks, of which three are
journal and one each allocation image, inode table and directory table. -/
def sampleSuperblock : Superblock :=
  .ofSizes 16 3 1 1 1 ⟨rfl, by decide⟩

end FilesystemLab
