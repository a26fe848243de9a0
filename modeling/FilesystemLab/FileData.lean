import FilesystemLab.PathLookup

/-!
# The data of regular files

The part of `inode_codec.rs` that changes the blocks of an inode, the reads of
`file_data.rs` and `file_range_read.rs`, and `path_file_read.rs`.

A regular file is a list of blocks of which all bytes before the persisted end
are its contents, `fileBytes`.  `FileEnd` says where the end may lie, and
`readFileRange_iff` that a read is a slice of the contents.
-/

namespace FilesystemLab

open Bytes

/-! ## Replacing blocks of an inode -/

namespace PersistedInode

/-- The end of an inode with new blocks, which leaves as many bytes of the last
block unused as before. -/
def replacedByteLen (kind : InodeKind) (candidate : List UInt64)
    (tailSlack : Nat) : Result Nat :=
  if kind = .file then
    if candidate = [] then pure 0
    else do
      let capacity ← liftMessage invalidInput (blockCapacity candidate)
      okOr (checkedSub capacity tailSlack)
        (invalidInput "inode block mutation cannot preserve EOF tail offset")
  else pure 0

/-- `PersistedInode::replace_block_range`: the displaced blocks and the inode
with the new ones. -/
def replaceBlockRange (inode : PersistedInode) (start stop : Nat)
    (replacements : List UInt64) : Result (List UInt64 × PersistedInode) := do
  rejectIf (start > stop ∨ stop > inode.blocks.length) (invalidInput
    "inode block mutation range is outside the current mapping")
  let currentByteLen ← inode.canonicalByteLen
  let currentCapacity ← liftMessage invalidInput (blockCapacity inode.blocks)
  let tailSlack ← okOr (checkedSub currentCapacity currentByteLen.toNat)
    (invalidInput "inode EOF exceeds capacity")
  let candidate :=
    inode.blocks.take start ++ replacements ++ inode.blocks.drop stop
  let byteLen ← replacedByteLen inode.kind candidate tailSlack
  let _ ← liftMessage invalidInput (validateInodeFields inode.id inode.kind
    candidate (UInt64.ofNat byteLen) false)
  pure ((inode.blocks.drop start).take (stop - start),
    { inode with blocks := candidate, byteLen := UInt64.ofNat byteLen })

/-- The bytes of the last block behind the end. -/
def tailSlack (inode : PersistedInode) : Nat :=
  inode.blocks.length * BLOCK_SIZE - inode.byteLen.toNat

variable {inode inode' : PersistedInode} {start stop : Nat}
  {replacements displaced : List UInt64}

/-- **What `replace_block_range` does to a regular file**: the blocks of the
range are replaced, and the end stays as far from the end of the last block. -/
theorem replaceBlockRange_eq_ok (hkind : inode.kind = .file)
    (hvalid : validateInodeFields inode.id inode.kind inode.blocks inode.byteLen
      true = .ok inode.byteLen)
    (h : inode.replaceBlockRange start stop replacements =
      .ok (displaced, inode')) :
    start ≤ stop ∧ stop ≤ inode.blocks.length ∧
      displaced = (inode.blocks.drop start).take (stop - start) ∧
      inode'.id = inode.id ∧ inode'.kind = .file ∧
      inode'.blocks =
        inode.blocks.take start ++ replacements ++ inode.blocks.drop stop ∧
      inode'.byteLen.toNat = (if inode'.blocks = [] then 0 else
        inode'.blocks.length * BLOCK_SIZE - inode.tailSlack) ∧
      validateInodeFields inode'.id inode'.kind inode'.blocks inode'.byteLen
        false = .ok inode'.byteLen := by
  simp only [replaceBlockRange, canonicalByteLen, hvalid, Except.bind_eq_ok,
    rejectIf_eq_ok, liftMessage_eq_ok, Except.ok.injEq, blockCapacity,
    okOr_eq_ok, checkedMul_eq_some, checkedSub_eq_some, Except.pure_eq_ok,
    Prod.mk.injEq] at h
  obtain ⟨_, hrange, _, rfl, _, ⟨_, rfl⟩, _, ⟨_, rfl⟩, byteLen, hbyteLen, n,
    hfields, rfl, rfl⟩ := h
  have hn := validateInodeFields_exact hfields
  subst hn
  refine ⟨by omega, by omega, rfl, rfl, hkind, rfl, ?_, hfields⟩
  show (UInt64.ofNat byteLen).toNat = if _ = [] then 0 else _
  simp only [replacedByteLen, if_pos hkind] at hbyteLen
  split at hbyteLen
  · rename_i hnil
    rw [if_pos hnil]
    cases hbyteLen
    rfl
  · rename_i hcons
    simp only [blockCapacity, Except.bind_eq_ok, liftMessage_eq_ok, okOr_eq_ok,
      checkedMul_eq_some, checkedSub_eq_some] at hbyteLen
    obtain ⟨_, ⟨hlt, rfl⟩, _, rfl⟩ := hbyteLen
    rw [if_neg hcons]
    exact UInt64.toNat_ofNat_of_lt' (show _ < U64_LIMIT by omega)

end PersistedInode

/-- The end of a regular file of a disk at rest. -/
theorem AtRest.validate {d : Disk} {sb : Superblock} {a : BlockAllocator}
    {inodes : List PersistedInode} {entries : List PersistedDirectoryEntry}
    (h : AtRest d sb a inodes entries) {inode : PersistedInode}
    (hmem : inode ∈ inodes) :
    validateInodeFields inode.id inode.kind inode.blocks inode.byteLen true =
      .ok inode.byteLen := by
  obtain ⟨_, himage⟩ := h.inodeImage
  obtain ⟨_, hpayload, _⟩ := TableFormat.encodeImage_eq_ok.mp himage
  obtain ⟨_, hbytes⟩ :=
    TableFormat.encode_of_encodeRecords hpayload inode hmem
  obtain ⟨_, hlen, _⟩ := encodeInode_eq_ok.mp hbytes
  exact PersistedInode.validate_of_canonical hlen (h.canonical_of_mem hmem)

/-! ## Reads -/

section Device

variable {σ : Type} [BlockDevice σ]

/-- `resolve_owned_file_block`. -/
def resolveOwnedFileBlock (device : σ) (sb : Superblock) (id : UInt64)
    (index : Nat) : Result UInt64 := do
  let inodes ← loadInodeTable device sb
  let inode ← okOr (findInode inodes id)
    (invalidInput "file-data target inode is missing")
  rejectIf (inode.kind ≠ .file)
    (invalidInput "file-data target must be a regular file")
  let block ← okOr inode.blocks[index]?
    (invalidInput "file-data logical block index is out of range")
  let allocator ← loadAllocator device sb
  let owned ← liftAllocation (allocator.isOwned block.toNat)
  rejectIf (owned = false)
    (invalidData "file-data inode references an unowned block")
  pure block

/-- `read_file_block`. -/
def readFileBlock (device : σ) (sb : Superblock) (id : UInt64) (index : Nat) :
    Result Block := do
  let block ← resolveOwnedFileBlock device sb id index
  readBlock device block.toNat

/-- The loop of `read_file_range` over `count` more blocks, from the relative
index `relative` on, with `remaining` bytes to read. -/
def readRangeBlocks (device : σ) (sb : Superblock) (id : UInt64)
    (firstBlock startOffset : Nat) :
    (count relative remaining : Nat) → Result (List UInt8)
  | 0, _, _ => pure []
  | count + 1, relative, remaining => do
    let index ← okOr (checkedAdd firstBlock relative)
      (invalidInput "file-data logical index overflow")
    let image ← readFileBlock device sb id index
    let first := if relative = 0 then startOffset else 0
    let taken := min (BLOCK_SIZE - first) remaining
    let rest ← readRangeBlocks device sb id firstBlock startOffset count
      (relative + 1) (remaining - taken)
    pure ((image.bytes.drop first).take taken ++ rest)

/-- `read_file_range`. -/
def readFileRange (device : σ) (sb : Superblock) (id : UInt64)
    (firstBlock startOffset len : Nat) : Result (List UInt8) := do
  rejectIf (len = 0 ∨ startOffset ≥ BLOCK_SIZE) (invalidInput
    "file-data read range must be non-empty and start within a block")
  let absoluteStart ← okOr ((checkedMul firstBlock BLOCK_SIZE).bind
      (checkedAdd · startOffset))
    (invalidInput "file-data absolute byte offset overflow")
  let absoluteEnd ← okOr (checkedAdd absoluteStart len)
    (invalidInput "file-data read range length overflow")
  let inodes ← loadInodeTable device sb
  let inode ← okOr (findInode inodes id)
    (invalidInput "file-data target inode is missing")
  rejectIf (inode.kind ≠ .file)
    (invalidInput "file-data target must be a regular file")
  rejectIf (absoluteEnd > inode.byteLen.toNat)
    (invalidInput "file-data read range extends beyond EOF")
  let lastByte ← okOr (checkedAdd startOffset len)
    (invalidInput "file-data read range length overflow")
  readRangeBlocks device sb id firstBlock startOffset
    ((lastByte + BLOCK_SIZE - 1) / BLOCK_SIZE) 0 len

/-- The regular file that the path functions select. -/
def requireFile (inodes : List PersistedInode) (id : UInt64) :
    Result PersistedInode := do
  let inode ← okOr (findInode inodes id)
    (invalidData "resolved inode is missing")
  rejectIf (inode.kind ≠ .file)
    (invalidInput "resolved pathname is not a regular file")
  pure inode

theorem of_requireFile {inodes : List PersistedInode} {id : UInt64}
    {inode : PersistedInode} (h : requireFile inodes id = .ok inode) :
    inode ∈ inodes ∧ inode.kind = .file ∧ inode.id = id := by
  rw [requireFile, Except.bind_eq_ok] at h
  obtain ⟨found, hfind, h⟩ := h
  rw [Except.bind_eq_ok] at h
  obtain ⟨_, hkind, h⟩ := h
  obtain rfl : found = inode := Except.ok.inj h
  rw [rejectIf_eq_ok, not_ne_iff] at hkind
  obtain ⟨hmem, hid⟩ := findInode_eq_some (okOr_eq_ok.mp hfind)
  exact ⟨hmem, hkind, hid⟩

/-- `read_file_blocks_at_path`. -/
def readFileBlocksAtPath (sb : Superblock) (path : String) :
    DevM σ (List UInt8) := do
  let _ ← recoverJournalAndCheckpointChecked sb
  let id ← Effect.query (resolvePathFollowingSymlinks · sb path)
  let inodes ← Effect.query (loadInodeTable · sb)
  let inode ← requireFile inodes id
  if inode.byteLen = 0 then pure []
  else Effect.query (readFileRange · sb id 0 0 inode.byteLen.toNat)

end Device

/-! ## Contents -/

/-- The images of the blocks of a file. -/
def fileImages (d : Disk) (inode : PersistedInode) : List Block :=
  inode.blocks.map fun block => d.blocks block.toNat

/-- The contents of a regular file: its bytes before the persisted end. -/
def fileBytes (d : Disk) (inode : PersistedInode) : List UInt8 :=
  ((fileImages d inode).flatMap Block.bytes).take inode.byteLen.toNat

theorem length_fileImages (d : Disk) (inode : PersistedInode) :
    (fileImages d inode).length = inode.blocks.length := by
  rw [fileImages, List.length_map]

/-- The images of the blocks, one after the other. -/
theorem length_flatMap_bytes (images : List Block) :
    (images.flatMap Block.bytes).length = images.length * BLOCK_SIZE :=
  length_flatMap_pieces Block.length_eq images

theorem length_fileBytes {inode : PersistedInode} (d : Disk)
    (h : inode.FileEnd) :
    (fileBytes d inode).length = inode.byteLen.toNat := by
  have hle := h.le_capacity
  rw [fileBytes, List.length_take, length_flatMap_bytes, length_fileImages]
  omega

/-- The loop reads the bytes from its position on. -/
theorem readRangeBlocks_eq {σ : Type} [BlockDevice σ] {device : σ}
    {sb : Superblock} {id : UInt64} {images : List Block}
    {firstBlock startOffset : Nat}
    (hread : ∀ index image, images[index]? = some image →
      readFileBlock device sb id index = .ok image)
    (hlimit : images.length ≤ U64_LIMIT) (hoffset : startOffset < BLOCK_SIZE)
    {count relative remaining first : Nat}
    (hfirst : first = if relative = 0 then startOffset else 0)
    (hle : first + remaining ≤ count * BLOCK_SIZE)
    (hlt : count * BLOCK_SIZE < first + remaining + BLOCK_SIZE)
    (hend : (firstBlock + relative) * BLOCK_SIZE + (first + remaining) ≤
      images.length * BLOCK_SIZE) :
    readRangeBlocks device sb id firstBlock startOffset count relative
        remaining =
      .ok ((((images.drop (firstBlock + relative)).flatMap Block.bytes).drop
        first).take remaining) := by
  induction count generalizing relative remaining first with
  | zero =>
    have hzero : remaining = 0 := by omega
    rw [hzero, List.take_zero]
    rfl
  | succ count ih =>
    have hfirstlt : first < BLOCK_SIZE := by
      rw [hfirst]
      split <;> omega
    rw [Nat.succ_mul] at hle hlt
    -- the block at the position exists
    have hindex : firstBlock + relative < images.length := by
      apply Nat.lt_of_mul_lt_mul_right (a := BLOCK_SIZE)
      omega
    have hnext : (firstBlock + (relative + 1)) * BLOCK_SIZE ≤
        images.length * BLOCK_SIZE := Nat.mul_le_mul_right BLOCK_SIZE hindex
    have hstep : (firstBlock + (relative + 1)) * BLOCK_SIZE =
        (firstBlock + relative) * BLOCK_SIZE + BLOCK_SIZE := by
      rw [← Nat.add_assoc, Nat.succ_mul]
    obtain ⟨image, himage⟩ : ∃ image, images[firstBlock + relative]? =
        some image := ⟨_, List.getElem?_eq_getElem hindex⟩
    have hadd : checkedAdd firstBlock relative = some (firstBlock + relative) :=
      checkedAdd_eq_some.mpr ⟨by omega, rfl⟩
    have hdrop : images.drop (firstBlock + relative) =
        image :: images.drop (firstBlock + (relative + 1)) := by
      rw [List.drop_eq_getElem_cons hindex]
      rw [List.getElem?_eq_getElem hindex, Option.some.injEq] at himage
      rw [himage, Nat.add_assoc]
    have hleft : remaining - min (BLOCK_SIZE - first) remaining =
        remaining - (BLOCK_SIZE - first) := by omega
    have hrest := @ih (relative + 1) (remaining - (BLOCK_SIZE - first)) 0
      (by simp) (by omega) (by omega) (by omega)
    have hlen : (image.bytes.drop first).length = BLOCK_SIZE - first := by
      rw [List.length_drop, image.length_eq]
    have htaken : (image.bytes.drop first).take
        (min (BLOCK_SIZE - first) remaining) =
          (image.bytes.drop first).take remaining := by
      rw [← hlen, List.take_eq_take_iff]
      omega
    rw [readRangeBlocks, hadd, okOr_some, Except.ok_bind, hread _ _ himage,
      Except.ok_bind, ← hfirst]
    dsimp only
    rw [hleft, hrest, htaken, hdrop, List.flatMap_cons,
      List.drop_append_of_le_length (by rw [image.length_eq]; omega),
      List.take_append, hlen, List.drop_zero]
    rfl

section Mounted

variable {d : Disk} {sb : Superblock} {a : BlockAllocator}
  {inodes : List PersistedInode} {entries : List PersistedDirectoryEntry}
  {inode : PersistedInode}

/-- A block of a file of a mounted disk is read as it is. -/
theorem Mounted.readFileBlock (h : Mounted d sb a inodes entries)
    (hmem : inode ∈ inodes) (hkind : inode.kind = .file) {index : Nat}
    {image : Block} (himage : (fileImages d inode)[index]? = some image) :
    FilesystemLab.readFileBlock d sb inode.id index = .ok image := by
  rw [fileImages, List.getElem?_map, Option.map_eq_some_iff] at himage
  obtain ⟨block, hblock, rfl⟩ := himage
  have hset := h.owned.data inode hmem block (List.mem_of_getElem? hblock)
  have hrange := BlockAllocator.range_of_flag hset
  have howned := BlockAllocator.isOwned_of_data hrange.1 hrange.2
  have hsize := h.size
  have htotal := h.geometry.1
  rw [FilesystemLab.readFileBlock, resolveOwnedFileBlock, h.inodeTable,
    Except.ok_bind, findInode_of_mem h.nodup_ids hmem, okOr_some,
    Except.ok_bind, rejectIf_of_not (not_ne_iff.mpr hkind), Except.ok_bind,
    hblock, okOr_some, Except.ok_bind, h.allocator, Except.ok_bind,
    liftAllocation_eq_ok.mpr howned, Except.ok_bind,
    rejectIf_of_not (by rw [hset]; decide), Except.ok_bind,
    Except.pure_eq_ok, Except.ok_bind]
  exact Disk.readBlock_of_lt (by omega)

/-- The end of a regular file of a mounted disk. -/
theorem AtRest.fileEnd (h : AtRest d sb a inodes entries)
    (hmem : inode ∈ inodes) (hkind : inode.kind = .file) :
    inode.FileEnd ∧ inode.blocks.length * BLOCK_SIZE < U64_LIMIT :=
  PersistedInode.fileEnd_of_validate hkind (h.validate hmem)

/-- **A range read is a slice of the contents**, and it succeeds exactly for a
range that is not empty, starts in its first block and ends before the end of
the file. -/
theorem Mounted.readFileRange_iff (h : Mounted d sb a inodes entries)
    (hmem : inode ∈ inodes) (hkind : inode.kind = .file)
    {firstBlock startOffset len : Nat} {bytes : List UInt8} :
    readFileRange d sb inode.id firstBlock startOffset len = .ok bytes ↔
      len ≠ 0 ∧ startOffset < BLOCK_SIZE ∧
      firstBlock * BLOCK_SIZE + startOffset + len ≤ inode.byteLen.toNat ∧
      bytes = ((fileBytes d inode).drop
        (firstBlock * BLOCK_SIZE + startOffset)).take len := by
  obtain ⟨hend, hcapacity⟩ := h.fileEnd hmem hkind
  have hle := hend.le_capacity
  have hsize := blockSize_pos
  -- the loop on a range inside the file
  have hloop : len ≠ 0 → startOffset < BLOCK_SIZE →
      firstBlock * BLOCK_SIZE + startOffset + len ≤ inode.byteLen.toNat →
      readRangeBlocks d sb inode.id firstBlock startOffset
          ((startOffset + len + BLOCK_SIZE - 1) / BLOCK_SIZE) 0 len =
        .ok (((fileBytes d inode).drop
          (firstBlock * BLOCK_SIZE + startOffset)).take len) := by
    intro hlen hoffset hinside
    have hmod := Nat.div_add_mod (startOffset + len + BLOCK_SIZE - 1) BLOCK_SIZE
    have hmodlt := Nat.mod_lt (startOffset + len + BLOCK_SIZE - 1) hsize
    rw [Nat.mul_comm] at hmod
    rw [readRangeBlocks_eq (fun _ _ => h.readFileBlock hmem hkind)
      (by rw [length_fileImages, blockSize_eq] at *; omega) hoffset rfl
      (by rw [if_pos rfl]; omega) (by rw [if_pos rfl]; omega)
      (by rw [if_pos rfl, length_fileImages, Nat.add_zero]; omega),
      if_pos rfl, Nat.add_zero, ← drop_flatMap_pieces Block.length_eq,
      List.drop_drop, fileBytes, List.drop_take, List.take_take,
      Nat.min_eq_left (by omega)]
  have hfind := findInode_of_mem h.nodup_ids hmem
  simp only [readFileRange, h.inodeTable, Except.bind_eq_ok, rejectIf_eq_ok,
    okOr_eq_ok, Except.ok.injEq, Option.bind_eq_some_iff, checkedMul_eq_some,
    checkedAdd_eq_some, not_ne_iff]
  constructor
  · intro hfacts
    rcases hfacts with ⟨_, hrange, _, ⟨_, ⟨_, rfl⟩, _, rfl⟩, _, ⟨_, rfl⟩, _,
      rfl, other, hother, _, _, _, hinside, _, ⟨_, rfl⟩, hread⟩
    rw [hfind, Option.some.injEq] at hother
    subst hother
    rw [hloop (by omega) (by omega) (by omega), Except.ok.injEq] at hread
    exact ⟨by omega, by omega, by omega, hread.symm⟩
  · intro hfacts
    rcases hfacts with ⟨hlen, hoffset, hinside, rfl⟩
    have hlimit := inode.byteLen.toNat_lt
    have hword : U64_LIMIT = 2 ^ 64 := rfl
    exact ⟨(), by omega, _, ⟨_, ⟨by omega, rfl⟩, by omega, rfl⟩, _,
      ⟨by omega, rfl⟩, _, rfl, inode, hfind, (), hkind, (), by omega, _,
      ⟨by omega, rfl⟩, hloop hlen hoffset hinside⟩

/-- **A whole file is read as its contents.** -/
theorem Mounted.readFileBlocksAtPath (h : Mounted d sb a inodes entries)
    (hmem : inode ∈ inodes) (hkind : inode.kind = .file) {path : String}
    (hpath : resolvePathFollowingSymlinks d sb path = .ok inode.id) :
    FilesystemLab.readFileBlocksAtPath sb path d =
      (.ok (fileBytes d inode), d) := by
  have hrequire : requireFile inodes inode.id = .ok inode := by
    rw [requireFile, findInode_of_mem h.nodup_ids hmem, okOr_some,
      Except.ok_bind, rejectIf_of_not (not_ne_iff.mpr hkind)]
    rfl
  have hlen := length_fileBytes d (h.fileEnd hmem hkind).1
  rw [FilesystemLab.readFileBlocksAtPath, Effect.bind_of_ok h.recoverChecked,
    resolve_bind hpath, h.inodes_bind, Effect.lift_bind_of_ok hrequire]
  by_cases hzero : inode.byteLen = 0
  · rw [if_pos hzero]
    have hnil : fileBytes d inode = [] := by
      rw [← List.length_eq_zero_iff, hlen, hzero]
      rfl
    rw [hnil]
    rfl
  · rw [if_neg hzero]
    have hne : inode.byteLen.toNat ≠ 0 := by
      intro heq
      exact hzero (UInt64.toNat_inj.mp heq)
    have hread : readFileRange d sb inode.id 0 0 inode.byteLen.toNat =
        .ok (fileBytes d inode) := by
      rw [h.readFileRange_iff hmem hkind]
      refine ⟨hne, blockSize_pos, by omega, ?_⟩
      rw [Nat.zero_mul, List.drop_zero, List.take_of_length_le (by omega)]
    show (readFileRange d sb inode.id 0 0 _, d) = _
    rw [hread]

end Mounted

/-! ## A sample with two files -/

/-- The allocator of the sample geometry with two owned blocks. -/
def filesAllocator : BlockAllocator :=
  .ofFlags 10
    (List.replicate 10 false ++ true :: true :: List.replicate 4 false)
    (by decide)

/-- A file of one block, and a file that ends in its only block. -/
def filesInodes : List PersistedInode :=
  [⟨1, .directory, [], 0⟩, ⟨2, .file, [10], 4096⟩, ⟨3, .file, [11], 10⟩]

def filesEntries : List PersistedDirectoryEntry := [⟨1, 2, "s"⟩, ⟨1, 3, "t"⟩]

/-- The sample disk with these files; `data` is what the data blocks hold. -/
def filesDisk (data : Nat → Block) : Disk :=
  formatted treeSuperblock filesAllocator filesInodes filesEntries data

/-- The allocator belongs to inodes with these two blocks. -/
theorem owned_filesAllocator {inodes : List PersistedInode}
    (hblocks : inodes.flatMap PersistedInode.blocks = [10, 11]) :
    Owned treeSuperblock filesAllocator inodes := by
  have hmem : ∀ block : UInt64, (∃ inode ∈ inodes, block ∈ inode.blocks) ↔
      block = 10 ∨ block = 11 := by
    intro block
    rw [← List.mem_flatMap, hblocks, List.mem_pair]
  refine ⟨?_, by rw [hblocks]; decide, ?_⟩
  · intro inode hinode block hblock
    cases (hmem block).mp ⟨inode, hinode, hblock⟩ with
    | inl h => rw [h]; rfl
    | inr h => rw [h]; rfl
  · intro block hset
    have hrange := BlockAllocator.range_of_flag hset
    have hflags : ∀ b < 16, filesAllocator.flag b = (b == 10 || b == 11) := by
      decide
    rw [hflags block hrange.2, Bool.or_eq_true, beq_iff_eq, beq_iff_eq] at hset
    cases hset with
    | inl hblock =>
      obtain ⟨inode, hinode, howned⟩ := (hmem 10).mpr (.inl rfl)
      exact ⟨inode, hinode, 10, howned, hblock.symm⟩
    | inr hblock =>
      obtain ⟨inode, hinode, howned⟩ := (hmem 11).mpr (.inr rfl)
      exact ⟨inode, hinode, 11, howned, hblock.symm⟩

theorem mounted_filesDisk (data : Nat → Block) :
    Mounted (filesDisk data) treeSuperblock filesAllocator filesInodes
      filesEntries := by
  obtain ⟨inodeImage, hinodeImage⟩ :
      ∃ image, inodeFormat.encodeImage 1 filesInodes = .ok image :=
    exists_inodeImage (by decide) (by decide) (by decide) (by decide)
      (by decide)
  obtain ⟨directoryImage, hdirectoryImage⟩ :
      ∃ image, directoryFormat.encodeImage 1 filesEntries = .ok image :=
    exists_directoryImage (by decide) (by decide) (by decide) (by decide)
      (by decide)
  refine ⟨atRest_formatted data rfl rfl hinodeImage (by decide)
    hdirectoryImage, owned_filesAllocator rfl, ?_, ?_⟩
  · rw [filesInodes, List.forall_mem_cons, List.forall_mem_cons,
      List.forall_mem_singleton]
    exact ⟨rfl, rfl, rfl⟩
  · exact namespace_of_targeted (by decide) (by decide) (by decide)
      (acyclic_of_lt (by decide)) (by decide)

/-- A name of a file in the root directory. -/
theorem AtRest.resolve_rootName {d : Disk} {sb : Superblock} {a : BlockAllocator}
    {inodes : List PersistedInode} {entries : List PersistedDirectoryEntry}
    (h : AtRest d sb a inodes entries) {name path : String}
    {entry : PersistedDirectoryEntry} {root inode : PersistedInode}
    (hparse : parseComponents path = .ok [name])
    (hstart : startsWithSlash path = true) (hend : endsWithSlash path = false)
    (hdot : name ≠ "." ∧ name ≠ "..")
    (hroot : requireInode inodes 1 = .ok root) (hdir : root.kind = .directory)
    (hentry : lookupEntry entries 1 name = some entry)
    (hinode : requireInode inodes entry.target = .ok inode)
    (hkind : inode.kind = .file) (hid : requireInode inodes inode.id =
      .ok inode) :
    resolvePathFollowingSymlinks d sb path = .ok inode.id := by
  rw [resolvePathFollowingSymlinks, resolvePath, rejectIf_of_not (by simp [hstart]),
    Except.ok_bind, h.inodeTable, Except.ok_bind, h.directoryTable,
    Except.ok_bind, hparse, Except.ok_bind, if_neg (by simp),
    resolveComponents_entry hroot hdir hdot.1 hdot.2 hentry hinode
      (by rw [hkind]; decide)]
  apply resolveComponents_end hid
  intro hslash
  rw [hend, Bool.and_false] at hslash
  cases hslash

end FilesystemLab
