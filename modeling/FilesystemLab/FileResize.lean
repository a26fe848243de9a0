import FilesystemLab.CloneReplace

/-!
# Resizing a file to a number of bytes

`truncate_file_to_bytes_journaled` of `truncate_tx.rs`,
`grow_file_to_bytes_journaled` of `file_append_batch.rs`, and the path function
of `path_grow.rs` over both, with the metadata lookup of `path_metadata.rs`.

Both resizes clear the last block that they keep behind the end that survives,
give up or append whole blocks, and set the end.  `Resized` is what they leave:
the blocks of the file hold the contents up to the smaller of both ends, and
zeros from there on.  The main result is `resizeFileAtPathToBytes_exact`.
-/

namespace FilesystemLab

open Bytes WriteLog

/-! ## The operations -/

/-- `PersistedInode::set_file_byte_len`. -/
def PersistedInode.setFileByteLen (inode : PersistedInode) (byteLen : UInt64) :
    Result PersistedInode := do
  rejectIf (inode.kind ≠ .file)
    (invalidInput "only regular files have byte EOF")
  let _ ← liftMessage invalidInput (validateInodeFields inode.id inode.kind
    inode.blocks byteLen false)
  pure { inode with byteLen }

/-- `image[start..stop].fill(0)`. -/
def Block.zeroFill (image : Block) (start stop : Nat) : Block :=
  Block.ofBytes (Bytes.zeroFill image.bytes start stop)

/-- `byte_len_to_block_count`. -/
def byteLenToBlockCount (byteLen : Nat) : Nat :=
  (byteLen + BLOCK_SIZE - 1) / BLOCK_SIZE

/-- `canonical_byte_len` with the error of a corrupt inode. -/
def currentByteLen (inode : PersistedInode) : Result UInt64 :=
  inode.canonicalByteLen.mapErr fun error => invalidData error.message

section Device

variable {σ : Type} [BlockDevice σ]

/-- What `prepare_partial_tail_zero` and `prepare_existing_tail_zero` do with
the last of the blocks that stay: it is cleared from `tail` on, and written if
that changes it. -/
def prepareTailZero (device : σ) (label : String) (a : BlockAllocator)
    (blocks : List UInt64) (tail : Nat) : Result (List (UInt64 × Block)) :=
  match blocks.getLast? with
  | none => pure []
  | some block =>
    if tail = 0 then pure []
    else do
      let owned ← liftAllocation (a.isOwned block.toNat)
      rejectIf (owned = false)
        (invalidData (label ++ " final block is not allocator-owned"))
      let original ← readBlock device block.toNat
      let image := original.zeroFill tail BLOCK_SIZE
      pure (if image ≠ original then [(block, image)] else [])

/-- `prepare_partial_tail_zero`. -/
def preparePartialTailZero (device : σ) (a : BlockAllocator)
    (inode : PersistedInode) (targetBlocks targetBytes : Nat) :
    Result (List (UInt64 × Block)) :=
  prepareTailZero device "byte-truncate" a (inode.blocks.take targetBlocks)
    (targetBytes % BLOCK_SIZE)

/-- `prepare_existing_tail_zero`. -/
def prepareExistingTailZero (device : σ) (a : BlockAllocator)
    (inode : PersistedInode) (currentBytes : Nat) :
    Result (List (UInt64 × Block)) :=
  prepareTailZero device "byte-grow" a inode.blocks (currentBytes % BLOCK_SIZE)

/-- `truncate_file_to_bytes_journaled`. -/
def truncateFileToBytesJournaled (sb : Superblock) (id : UInt64)
    (targetBytes : UInt64) : DevM σ (List UInt64 × RecoveryReport) := do
  let allocator ← Effect.query (loadAllocator · sb)
  let inodes ← Effect.query (loadInodeTable · sb)
  let inode ← okOr (findInode inodes id)
    (invalidInput "byte-truncate target inode is missing")
  rejectIf (inode.kind ≠ .file)
    (invalidInput "byte-truncate target must be a regular file")
  let currentBytes ← currentByteLen inode
  rejectIf (targetBytes > currentBytes)
    (invalidInput "byte-truncate target exceeds current EOF")
  if targetBytes = currentBytes then pure ([], RecoveryReport.default)
  else do
    let targetBlocks := byteLenToBlockCount targetBytes.toNat
    rejectIf (targetBlocks > inode.blocks.length) (invalidData
      "persisted EOF requires more blocks than inode references")
    requireAllocatorOwned "byte-truncate released block is not allocator-owned"
      allocator (inode.blocks.drop targetBlocks)
    let tail ← Effect.query (preparePartialTailZero · allocator inode
      targetBlocks targetBytes.toNat)
    let edited ← inode.replaceBlockRange targetBlocks inode.blocks.length []
    let resized ← edited.2.setFileByteLen targetBytes
    let freed ← liftAllocation (allocator.freeAll (edited.1.map UInt64.toNat))
    let report ← publishFileChanges "byte-truncate" sb freed
      (setInode inodes resized) tail
    pure (edited.1, report)

/-- The inode with the blocks that a growth has allocated, if any. -/
def appendAllocated (inode : PersistedInode) (allocated : List UInt64) :
    Result PersistedInode :=
  if allocated = [] then pure inode
  else do
    let edited ← inode.replaceBlockRange inode.blocks.length
      inode.blocks.length allocated
    pure edited.2

/-- `grow_file_to_bytes_journaled`. -/
def growFileToBytesJournaled (sb : Superblock) (id : UInt64)
    (targetBytes : UInt64) : DevM σ (List UInt64 × RecoveryReport) := do
  let allocator ← Effect.query (loadAllocator · sb)
  let inodes ← Effect.query (loadInodeTable · sb)
  let inode ← okOr (findInode inodes id)
    (invalidInput "byte-grow target inode is missing")
  rejectIf (inode.kind ≠ .file)
    (invalidInput "byte-grow target must be a regular file")
  let currentBytes ← currentByteLen inode
  rejectIf (targetBytes ≤ currentBytes)
    (invalidInput "byte-grow target must exceed current EOF")
  let targetBlocks := byteLenToBlockCount targetBytes.toNat
  rejectIf (targetBlocks < inode.blocks.length) (invalidData
    "byte-grow target requires fewer blocks than current inode mapping")
  let tail ← Effect.query (prepareExistingTailZero · allocator inode
    currentBytes.toNat)
  let taken ← allocateEach allocator (targetBlocks - inode.blocks.length)
  let edited ← appendAllocated inode taken.1
  let resized ← edited.setFileByteLen targetBytes
  let report ← publishFileChanges "byte-grow" sb taken.2
    (setInode inodes resized)
    (tail ++ taken.1.map fun block => (block, Block.zero))
  pure (taken.1, report)

/-- `PathMetadata`. -/
structure PathMetadata where
  inodeId : UInt64
  kind : InodeKind
  logicalBlocks : Nat
  byteLen : UInt64
  namespaceReferences : Nat

/-- The loop of `metadata_for_inode` over the blocks of the inode. -/
def requireDataBlocks (sb : Superblock) (a : BlockAllocator) :
    List UInt64 → Result Unit
  | [] => pure ()
  | block :: blocks => do
    rejectIf (block.toNat < sb.reservedBlocks)
      (invalidData "resolved inode references a reserved metadata block")
    let owned ← liftAllocation (a.isOwned block.toNat)
    rejectIf (owned = false)
      (invalidData "resolved inode references an allocator-free data block")
    requireDataBlocks sb a blocks

/-- `metadata_for_inode`. -/
def metadataForInode (device : σ) (sb : Superblock) (id : UInt64) :
    Result PathMetadata := do
  let allocator ← loadAllocator device sb
  let inodes ← loadInodeTable device sb
  let entries ← loadDirectoryTable device sb
  let inode ← okOr (findInode inodes id)
    (invalidData "resolved inode is missing")
  requireDataBlocks sb allocator inode.blocks
  let namespaceReferences :=
    (entries.filter fun entry => entry.target = id).length
  rejectIf (id ≠ 1 ∧ namespaceReferences = 0)
    (invalidData "resolved non-root inode has no namespace reference")
  let byteLen ← currentByteLen inode
  pure { inodeId := id, kind := inode.kind
         logicalBlocks := inode.blocks.length, byteLen, namespaceReferences }

/-- `metadata_at_path`. -/
def metadataAtPath (sb : Superblock) (path : String) : DevM σ PathMetadata := do
  let _ ← recoverJournalAndCheckpointChecked sb
  let id ← Effect.query (resolvePathFollowingSymlinks · sb path)
  Effect.query (metadataForInode · sb id)

/-- `grow_file_at_path_to_bytes_journaled`. -/
def growFileAtPathToBytesJournaled (sb : Superblock) (path : String)
    (targetBytes : UInt64) : DevM σ (List UInt64 × RecoveryReport) := do
  let metadata ← metadataAtPath sb path
  rejectIf (metadata.kind ≠ .file)
    (invalidInput "pathname byte-growth target must be a regular file")
  rejectIf (targetBytes ≤ metadata.byteLen)
    (invalidInput "pathname byte-growth target must exceed current EOF")
  growFileToBytesJournaled sb metadata.inodeId targetBytes

/-- `resize_file_at_path_to_bytes_journaled`. -/
def resizeFileAtPathToBytesJournaled (sb : Superblock) (path : String)
    (targetBytes : UInt64) : DevM σ (List UInt64 × RecoveryReport) := do
  let metadata ← metadataAtPath sb path
  rejectIf (metadata.kind ≠ .file)
    (invalidInput "pathname byte-resize target must be a regular file")
  if targetBytes > metadata.byteLen then
    growFileToBytesJournaled sb metadata.inodeId targetBytes
  else if targetBytes < metadata.byteLen then
    truncateFileToBytesJournaled sb metadata.inodeId targetBytes
  else
    Effect.fail
      (invalidInput "pathname byte-resize target must differ from current EOF")

end Device

/-! ## The bytes of the blocks of a file -/

/-- The bytes of all blocks of a file, with those behind its end. -/
def fileSpace (d : Disk) (inode : PersistedInode) : List UInt8 :=
  (fileImages d inode).flatMap Block.bytes

/-- The bytes behind the end of a file, which are in its last block. -/
def fileTail (d : Disk) (inode : PersistedInode) : List UInt8 :=
  (fileSpace d inode).drop inode.byteLen.toNat

section Space

variable {d : Disk} {inode : PersistedInode}

theorem fileBytes_eq_take (d : Disk) (inode : PersistedInode) :
    fileBytes d inode = (fileSpace d inode).take inode.byteLen.toNat := rfl

theorem length_fileSpace (d : Disk) (inode : PersistedInode) :
    (fileSpace d inode).length = inode.blocks.length * BLOCK_SIZE := by
  rw [fileSpace, length_flatMap_bytes, length_fileImages]

/-- A position of a block of a file. -/
theorem getElem?_fileSpace {i j : Nat} {block : UInt64}
    (hblock : inode.blocks[i]? = some block) (hj : j < BLOCK_SIZE) :
    (fileSpace d inode)[i * BLOCK_SIZE + j]? =
      (d.blocks block.toNat).bytes[j]? := by
  rw [fileSpace, getElem?_flatMap_pieces Block.length_eq _ _ hj, fileImages,
    List.getElem?_map, hblock]
  rfl

/-- The bytes of the blocks are known from every block. -/
theorem fileSpace_eq {bytes : List UInt8}
    (hlen : bytes.length = inode.blocks.length * BLOCK_SIZE)
    (h : ∀ i block, inode.blocks[i]? = some block → ∀ j, j < BLOCK_SIZE →
      (d.blocks block.toNat).bytes[j]? = bytes[i * BLOCK_SIZE + j]?) :
    fileSpace d inode = bytes := by
  apply flatMap_pieces_eq Block.length_eq
  · rw [length_fileImages, hlen]
  · intro i image himage
    rw [fileImages, List.getElem?_map, Option.map_eq_some_iff] at himage
    obtain ⟨block, hblock, rfl⟩ := himage
    exact h i block hblock

theorem getElem?_zeroFill_bytes {image : Block} {start stop : Nat}
    (hle : start ≤ stop) (hstop : stop ≤ BLOCK_SIZE) (j : Nat) :
    (image.zeroFill start stop).bytes[j]? =
      if start ≤ j ∧ j < stop then some 0 else image.bytes[j]? := by
  have hbytes : stop ≤ image.bytes.length := by
    rw [image.length_eq]
    exact hstop
  rw [Block.zeroFill, Block.bytes_ofBytes, getElem?_zeroFill hle hbytes]
  rw [length_zeroFill hle hbytes, image.length_eq]

/-- As many blocks as a length needs. -/
theorem byteLenToBlockCount_le_iff {n k : Nat} :
    byteLenToBlockCount n ≤ k ↔ n ≤ k * BLOCK_SIZE := by
  unfold byteLenToBlockCount
  rw [blockSize_eq]
  omega

/-- The end of a file lies in the last of its blocks. -/
theorem PersistedInode.FileEnd.length_eq (h : inode.FileEnd) :
    inode.blocks.length = byteLenToBlockCount inode.byteLen.toNat := by
  have hle := h.le_capacity
  have hlt := h.capacity_lt
  unfold byteLenToBlockCount
  rw [blockSize_eq] at *
  omega

end Space

/-! ## Clearing the last block -/

section Tail

variable {d : Disk} {a : BlockAllocator} {label : String}
  {blocks : List UInt64} {tail stop : Nat} {data : List (UInt64 × Block)}

/-- What the tail checks give: nothing to write, or the last block cleared. -/
theorem prepareTailZero_cases
    (h : prepareTailZero d label a blocks tail = .ok data)
    (hrange : ∀ block ∈ blocks, block.toNat < d.size) :
    (data = [] ∧ ∀ block, blocks.getLast? = some block → tail ≠ 0 →
        (d.blocks block.toNat).zeroFill tail BLOCK_SIZE =
          d.blocks block.toNat) ∨
      ∃ block, blocks.getLast? = some block ∧ tail ≠ 0 ∧
        data = [(block, (d.blocks block.toNat).zeroFill tail BLOCK_SIZE)] := by
  unfold prepareTailZero at h
  split at h
  · rename_i hnone
    cases h
    refine .inl ⟨rfl, ?_⟩
    intro block hlast
    rw [hnone] at hlast
    cases hlast
  · rename_i block hlast
    by_cases hzero : tail = 0
    · rw [if_pos hzero] at h
      cases h
      exact .inl ⟨rfl, fun _ _ hne => absurd hzero hne⟩
    rw [if_neg hzero] at h
    simp only [Except.bind_eq_ok, Except.pure_eq_ok, Except.ok.injEq,
      Disk.readBlock_of_lt (hrange block (List.mem_of_getLast? hlast))] at h
    obtain ⟨_, _, _, _, _, rfl, rfl⟩ := h
    by_cases hsame : (d.blocks block.toNat).zeroFill tail BLOCK_SIZE =
        d.blocks block.toNat
    · rw [if_neg (not_not.mpr hsame)]
      refine .inl ⟨rfl, ?_⟩
      intro other hother _
      rw [hlast, Option.some.injEq] at hother
      rw [← hother]
      exact hsame
    · rw [if_pos hsame]
      exact .inr ⟨block, hlast, hzero, rfl⟩

/-- **The blocks after the last one is cleared**: in the positions from the
surviving end on they hold zeros. -/
theorem getElem?_clearedTail
    (h : prepareTailZero d label a blocks (stop % BLOCK_SIZE) = .ok data)
    (hrange : ∀ block ∈ blocks, block.toNat < d.size) (hnodup : blocks.Nodup)
    (hlen : blocks.length = byteLenToBlockCount stop) {i j : Nat}
    {block : UInt64} (hblock : blocks[i]? = some block) (hj : j < BLOCK_SIZE) :
    (overlay d.blocks (dataWrites data) block.toNat).bytes[j]? =
      if stop ≤ i * BLOCK_SIZE + j then some 0
      else (d.blocks block.toNat).bytes[j]? := by
  obtain ⟨hi, _⟩ := List.getElem?_eq_some_iff.mp hblock
  have hsplit : stop / BLOCK_SIZE * BLOCK_SIZE + stop % BLOCK_SIZE = stop :=
    Nat.div_add_mod' stop BLOCK_SIZE
  have hmod : stop % BLOCK_SIZE < BLOCK_SIZE := Nat.mod_lt _ blockSize_pos
  -- only the last block reaches behind the end
  have hlast : blocks.getLast? = some block ↔ i + 1 = blocks.length := by
    rw [List.getLast?_eq_getElem?, ← hblock]
    constructor
    · intro heq
      have := (List.getElem?_inj (by omega) hnodup).mp heq
      omega
    · intro heq
      rw [← heq, Nat.add_sub_cancel]
  have hbehind : stop ≤ i * BLOCK_SIZE + j ↔
      (i + 1 = blocks.length ∧ stop % BLOCK_SIZE ≠ 0) ∧
        stop % BLOCK_SIZE ≤ j := by
    rw [hlen] at hi ⊢
    unfold byteLenToBlockCount at hi ⊢
    rw [blockSize_eq] at *
    omega
  have hclear : ∀ image : Block,
      (image.zeroFill (stop % BLOCK_SIZE) BLOCK_SIZE).bytes[j]? =
        if stop % BLOCK_SIZE ≤ j then some 0 else image.bytes[j]? := by
    intro image
    rw [getElem?_zeroFill_bytes hmod.le le_rfl, if_congr (and_iff_left hj) rfl
      rfl]
  rcases prepareTailZero_cases h hrange with ⟨rfl, hsame⟩ |
    ⟨other, hother, hzero, rfl⟩
  · show (d.blocks block.toNat).bytes[j]? = _
    by_cases hcut : i + 1 = blocks.length ∧ stop % BLOCK_SIZE ≠ 0
    · rw [if_congr (hbehind.trans (and_iff_right hcut)) rfl rfl, ← hclear,
        hsame block (hlast.mpr hcut.1) hcut.2]
    · rw [if_neg (fun hle => hcut (hbehind.mp hle).1)]
  · show (overlay d.blocks [(other.toNat, _)] block.toNat).bytes[j]? = _
    by_cases hcut : i + 1 = blocks.length
    · rw [hlast.mpr hcut, Option.some.injEq] at hother
      subst hother
      rw [if_congr (hbehind.trans (and_iff_right ⟨hcut, hzero⟩)) rfl rfl,
        ← hclear]
      simp [overlay]
    · rw [if_neg (fun hle => hcut (hbehind.mp hle).1.1), overlay_of_notMem]
      rw [List.map_singleton, List.mem_singleton]
      intro heq
      rw [← UInt64.toNat_inj.mp heq] at hother
      exact hcut (hlast.mp hother)

end Tail

/-! ## Files that are rewritten -/

/-- The disk `d'` is the mounted disk `d` with one file on its first `keep`
blocks and then fresh ones, and written nowhere else. -/
structure Rewritten (sb : Superblock) (d d' : Disk) (a a' : BlockAllocator)
    (inodes : List PersistedInode) (entries : List PersistedDirectoryEntry)
    (inode inode' : PersistedInode) (keep : Nat) (fresh : List UInt64) :
    Prop extends FileChanged sb d d' a' inodes entries inode inode' where
  keep_le : keep ≤ inode.blocks.length
  blocks_eq : inode'.blocks = inode.blocks.take keep ++ fresh
  free : ∀ block ∈ fresh, a.flag block.toNat = false
  flag : ∀ b, a'.flag b = (decide (b ∉
      (inode.blocks.drop keep).map UInt64.toNat) &&
    (decide (b ∈ fresh.map UInt64.toNat) || a.flag b))
  kept : ∀ b, sb.reservedBlocks ≤ b → b ∉ inode'.blocks.map UInt64.toNat →
    d'.blocks b = d.blocks b

section Rewrite

variable {d d' : Disk} {sb : Superblock} {a mid a' : BlockAllocator}
  {inodes : List PersistedInode} {entries : List PersistedDirectoryEntry}
  {inode inode' edited : PersistedInode} {keep : Nat} {fresh : List UInt64}
  {data : List (UInt64 × Block)}

theorem PersistedInode.setFileByteLen_eq_ok {byteLen : UInt64} :
    inode.setFileByteLen byteLen = .ok inode' ↔
      inode' = { inode with byteLen } ∧ inode'.kind = .file ∧
        validateInodeFields inode'.id inode'.kind inode'.blocks inode'.byteLen
          false = .ok inode'.byteLen := by
  simp only [setFileByteLen, Except.bind_eq_ok, rejectIf_eq_ok, not_ne_iff,
    liftMessage_eq_ok, Except.pure_eq_ok, Except.ok.injEq]
  constructor
  · intro hfacts
    rcases hfacts with ⟨_, hkind, n, hvalid, rfl⟩
    have hn := validateInodeFields_exact hvalid
    rw [hn] at hvalid
    exact ⟨rfl, hkind, hvalid⟩
  · intro hfacts
    rcases hfacts with ⟨rfl, hkind, hvalid⟩
    exact ⟨(), hkind, byteLen, hvalid, rfl⟩

/-- **A file whose tail is given up or extended** is rewritten. -/
theorem Mounted.rewritten (h : Mounted d sb a inodes entries)
    (hmem : inode ∈ inodes) (hkind : inode.kind = .file)
    (hid : inode'.id = inode.id) (hkind' : inode'.kind = .file)
    (hkeep : keep ≤ inode.blocks.length)
    (hblocks : inode'.blocks = inode.blocks.take keep ++ fresh)
    (hvalid' : validateInodeFields inode'.id inode'.kind inode'.blocks
      inode'.byteLen false = .ok inode'.byteLen)
    (htakes : Takes a mid fresh)
    (hfreed : mid.freeAll ((inode.blocks.drop keep).map UInt64.toNat) = .ok a')
    (hdata : ∀ w ∈ data, w.1 ∈ inode'.blocks)
    (hbecame : Became sb d d' a'
      ((setInode inodes inode').map PersistedInode.canonical) entries
      (dataWrites data)) :
    Rewritten sb d d' a a' inodes entries inode inode' keep fresh := by
  have hflag := flag_of_takes_freeAll htakes hfreed
  have hrange : (inode.blocks.drop keep).take (inode.blocks.length - keep) =
      inode.blocks.drop keep :=
    List.take_of_length_le (by rw [List.length_drop])
  have hsplice : inode'.blocks = inode.blocks.take keep ++ fresh ++
      inode.blocks.drop inode.blocks.length := by
    rw [hblocks, List.drop_length, List.append_nil]
  have hchanged := h.fileChanged hmem hkind hid hkind' hkeep hsplice hvalid'
    htakes.free (by rw [hrange]; exact hflag) hdata hbecame
  refine ⟨hchanged, hkeep, hblocks, htakes.free, hflag, ?_⟩
  intro b hb hnot
  rw [hbecame.contents b hb, overlay_of_notMem]
  intro hwritten
  obtain ⟨w, hw, rfl⟩ := List.mem_map.mp hwritten
  obtain ⟨v, hv, rfl⟩ := List.mem_map.mp hw
  exact hnot (List.mem_map_of_mem (hdata v hv))

/-- A file with another end is another file. -/
theorem AtRest.editWrites (h : AtRest d sb a inodes entries)
    (hmem : inode ∈ inodes) (hid : inode'.id = inode.id)
    (hvalid' : validateInodeFields inode'.id inode'.kind inode'.blocks
      inode'.byteLen false = .ok inode'.byteLen)
    (hne : inode'.byteLen ≠ inode.byteLen) :
    EditWrites inodes (setInode inodes inode') data := by
  right
  intro hsame
  have hnew : inode'.canonical ∈
      (setInode inodes inode').map PersistedInode.canonical :=
    List.mem_map_of_mem ((mem_setInode h.nodup_ids hmem hid).mpr (.inl rfl))
  rw [hsame, PersistedInode.canonical_of_validate hvalid'] at hnew
  exact hne (congrArg PersistedInode.byteLen
    (List.inj_on_of_nodup_map h.nodup_ids hnew hmem hid))

/-- The inode with the blocks that a growth has allocated. -/
theorem appendAllocated_eq_ok (hkind : inode.kind = .file)
    (hvalid : validateInodeFields inode.id inode.kind inode.blocks inode.byteLen
      true = .ok inode.byteLen)
    (h : appendAllocated inode fresh = .ok edited) :
    edited.id = inode.id ∧ edited.kind = .file ∧
      edited.blocks = inode.blocks ++ fresh := by
  unfold appendAllocated at h
  split at h
  · rename_i hnil
    cases h
    exact ⟨rfl, hkind, by rw [hnil, List.append_nil]⟩
  · simp only [Except.bind_eq_ok, Except.pure_eq_ok, Except.ok.injEq] at h
    obtain ⟨⟨displaced, inode'⟩, hedit, rfl⟩ := h
    obtain ⟨_, _, _, hid, hkind', hblocks, _⟩ :=
      PersistedInode.replaceBlockRange_eq_ok hkind hvalid hedit
    refine ⟨hid, hkind', ?_⟩
    rw [hblocks, List.take_length, List.drop_length, List.append_nil]

end Rewrite

/-! ## Files that are resized -/

/-- What a resize to `target` bytes leaves: in the blocks of the file the
contents up to the smaller of both ends, and zeros from there on. -/
structure Resized (sb : Superblock) (d d' : Disk) (a a' : BlockAllocator)
    (inodes : List PersistedInode) (entries : List PersistedDirectoryEntry)
    (inode inode' : PersistedInode) (keep : Nat) (fresh : List UInt64)
    (target : UInt64) : Prop extends
    Rewritten sb d d' a a' inodes entries inode inode' keep fresh where
  byteLen_eq : inode'.byteLen = target
  space : fileSpace d' inode' = (fileBytes d inode).take target.toNat ++
    zeros (inode'.blocks.length * BLOCK_SIZE -
      min inode.byteLen.toNat target.toNat)

section Resize

variable {d d' : Disk} {sb : Superblock} {a mid a' : BlockAllocator}
  {inodes : List PersistedInode} {entries : List PersistedDirectoryEntry}
  {inode inode' : PersistedInode} {keep : Nat} {fresh : List UInt64}
  {tail : List (UInt64 × Block)} {label : String} {target : UInt64}

/-- The contents after a resize. -/
theorem Resized.fileBytes_eq
    (hr : Resized sb d d' a a' inodes entries inode inode' keep fresh target)
    (h : Mounted d sb a inodes entries) (hmem : inode ∈ inodes)
    (hkind : inode.kind = .file) :
    fileBytes d' inode' = (fileBytes d inode).take target.toNat ++
      zeros (target.toNat - inode.byteLen.toNat) := by
  have hlen := length_fileBytes d (h.fileEnd hmem hkind).1
  have hle := (hr.mounted.fileEnd
    (hr.toFileChanged.mem_self h hmem) hr.kind_eq).1.le_capacity
  have hcut : ((fileBytes d inode).take target.toNat).length =
      min inode.byteLen.toNat target.toNat := by
    rw [List.length_take, hlen, Nat.min_comm]
  rw [hr.byteLen_eq] at hle
  rw [fileBytes_eq_take, hr.byteLen_eq, hr.space, List.take_append, hcut,
    List.take_of_length_le (by omega), take_zeros]
  congr 2
  omega

/-- Behind the end of a resized file there are zeros. -/
theorem Resized.fileTail_eq
    (hr : Resized sb d d' a a' inodes entries inode inode' keep fresh target)
    (h : Mounted d sb a inodes entries) (hmem : inode ∈ inodes)
    (hkind : inode.kind = .file) :
    fileTail d' inode' =
      zeros (inode'.blocks.length * BLOCK_SIZE - target.toNat) := by
  have hlen := length_fileBytes d (h.fileEnd hmem hkind).1
  have hcut : ((fileBytes d inode).take target.toNat).length =
      min inode.byteLen.toNat target.toNat := by
    rw [List.length_take, hlen, Nat.min_comm]
  rw [fileTail, hr.byteLen_eq, hr.space, List.drop_append, hcut,
    List.drop_eq_nil_of_le (by omega), List.nil_append, drop_zeros]
  congr 1
  omega

theorem map_fst_zeroWrites (fresh : List UInt64) :
    (dataWrites (fresh.map fun block => (block, Block.zero))).map Prod.fst =
      fresh.map UInt64.toNat := by
  simp [dataWrites, Function.comp_def]

/-- A block that is not fresh gets what the tail writes. -/
theorem overlay_notFresh {f : Nat → Block} {block : UInt64}
    (hblock : block ∉ fresh) :
    overlay f (dataWrites (tail ++ fresh.map fun block => (block, Block.zero)))
      block.toNat = overlay f (dataWrites tail) block.toNat := by
  rw [dataWrites, List.map_append, overlay_append, overlay_of_notMem]
  · rfl
  · rw [← dataWrites, map_fst_zeroWrites, List.mem_map_of_injective
      fun _ _ => UInt64.toNat_inj.mp]
    exact hblock

/-- A fresh block becomes zero. -/
theorem overlay_fresh {f : Nat → Block} {block : UInt64}
    (hnodup : fresh.Nodup) (hblock : block ∈ fresh) :
    overlay f (dataWrites (tail ++ fresh.map fun block => (block, Block.zero)))
      block.toNat = Block.zero := by
  rw [dataWrites, List.map_append, overlay_append]
  apply overlay_of_nodup
  · rw [← dataWrites, map_fst_zeroWrites]
    exact hnodup.map fun _ _ heq => UInt64.toNat_inj.mp heq
  · rw [List.map_map]
    exact List.mem_map_of_mem hblock

/-- The blocks that stay are cleared behind the surviving end, and zero blocks
follow them. -/
theorem Mounted.fileSpace_resized (h : Mounted d sb a inodes entries)
    (hmem : inode ∈ inodes) (hkind : inode.kind = .file) {stop : Nat}
    (hstop : stop ≤ inode.byteLen.toNat)
    (htail : prepareTailZero d label a
      (inode.blocks.take (byteLenToBlockCount stop)) (stop % BLOCK_SIZE) =
        .ok tail)
    (htakes : Takes a mid fresh)
    (hblocks : inode'.blocks =
      inode.blocks.take (byteLenToBlockCount stop) ++ fresh)
    (hcontents : ∀ b, sb.reservedBlocks ≤ b → d'.blocks b =
      overlay d.blocks (dataWrites
        (tail ++ fresh.map fun block => (block, Block.zero))) b) :
    fileSpace d' inode' = (fileBytes d inode).take stop ++
      zeros (inode'.blocks.length * BLOCK_SIZE - stop) := by
  obtain ⟨hend, _⟩ := h.fileEnd hmem hkind
  have hle := hend.le_capacity
  have hsize := h.size
  obtain ⟨htotal, hreserved⟩ := h.geometry
  have hcount : byteLenToBlockCount stop ≤ inode.blocks.length :=
    byteLenToBlockCount_le_iff.mpr (by omega)
  have hkeepLen : (inode.blocks.take (byteLenToBlockCount stop)).length =
      byteLenToBlockCount stop := by
    rw [List.length_take]
    omega
  have hcover : stop ≤ byteLenToBlockCount stop * BLOCK_SIZE :=
    byteLenToBlockCount_le_iff.mp le_rfl
  have hlen : inode'.blocks.length = byteLenToBlockCount stop + fresh.length := by
    rw [hblocks, List.length_append, hkeepLen]
  have hcut : ((fileBytes d inode).take stop).length = stop := by
    rw [List.length_take, length_fileBytes d hend]
    omega
  have hroom : byteLenToBlockCount stop * BLOCK_SIZE ≤
      inode'.blocks.length * BLOCK_SIZE :=
    Nat.mul_le_mul_right _ (by omega)
  have hkept : ∀ block ∈ inode.blocks.take (byteLenToBlockCount stop),
      block ∈ inode.blocks := fun block hblock => List.mem_of_mem_take hblock
  apply fileSpace_eq
  · rw [List.length_append, hcut, length_zeros]
    omega
  intro i block hblock j hj
  rw [hblocks] at hblock
  by_cases hi : i < byteLenToBlockCount stop
  · -- a block that stays
    rw [List.getElem?_append_left (by omega)] at hblock
    have hold := hkept block (List.mem_of_getElem? hblock)
    have hflag := h.owned.data inode hmem block hold
    have hrange := BlockAllocator.range_of_flag hflag
    have hnotFresh := h.owned.notMem_fresh hmem htakes.free hold
    rw [hcontents _ (by omega), overlay_notFresh hnotFresh,
      getElem?_clearedTail htail _ _ hkeepLen hblock hj]
    · by_cases hbehind : stop ≤ i * BLOCK_SIZE + j
      · have hrow : (i + 1) * BLOCK_SIZE ≤
            byteLenToBlockCount stop * BLOCK_SIZE := Nat.mul_le_mul_right _ hi
        rw [Nat.succ_mul] at hrow
        rw [if_pos hbehind, List.getElem?_append_right (by omega), hcut,
          getElem?_zeros, if_pos (by omega)]
      · rw [List.getElem?_take_of_lt hi] at hblock
        rw [if_neg hbehind, List.getElem?_append_left (by omega),
          List.getElem?_take_of_lt (by omega), fileBytes_eq_take,
          List.getElem?_take_of_lt (by omega), getElem?_fileSpace hblock hj]
    · intro other hother
      have hset := h.owned.data inode hmem other (hkept other hother)
      have := BlockAllocator.range_of_flag hset
      omega
    · exact (PersistedInode.nodup_of_validate (h.validate hmem)).sublist
        (List.take_sublist _ _)
  · -- a fresh block
    rw [List.getElem?_append_right (by omega), hkeepLen] at hblock
    have hnew := List.mem_of_getElem? hblock
    have hrange := htakes.range hnew
    have hbelow : byteLenToBlockCount stop * BLOCK_SIZE ≤ i * BLOCK_SIZE :=
      Nat.mul_le_mul_right _ (by omega)
    have hindex := (List.getElem?_eq_some_iff.mp hblock).1
    have hrow : (i + 1) * BLOCK_SIZE ≤ inode'.blocks.length * BLOCK_SIZE :=
      Nat.mul_le_mul_right _ (by omega)
    rw [Nat.succ_mul] at hrow
    rw [hcontents _ (by omega), overlay_fresh htakes.nodup hnew,
      List.getElem?_append_right (by omega), hcut, getElem?_zeros, if_pos (by omega)]
    show (zeros BLOCK_SIZE)[j]? = _
    rw [getElem?_zeros, if_pos hj]

/-- The end of an inode of a disk at rest. -/
theorem AtRest.currentByteLen_eq (h : AtRest d sb a inodes entries)
    (hmem : inode ∈ inodes) : currentByteLen inode = .ok inode.byteLen := by
  rw [currentByteLen, Except.mapErr_eq_ok, PersistedInode.canonicalByteLen,
    liftMessage_eq_ok]
  exact h.validate hmem

/-- The writes of a resize go to distinct blocks of the file. -/
theorem Mounted.resizeWrites (h : Mounted d sb a inodes entries)
    (hmem : inode ∈ inodes) {count offset : Nat}
    (htail : prepareTailZero d label a (inode.blocks.take count) offset =
      .ok tail) (htakes : Takes a mid fresh) :
    (∀ w ∈ tail ++ fresh.map fun block => (block, Block.zero),
        w.1 ∈ inode.blocks.take count ++ fresh) ∧
      ((tail ++ fresh.map fun block => (block, Block.zero)).map Prod.fst).Nodup ∧
      ∀ w ∈ tail ++ fresh.map fun block => (block, Block.zero),
        sb.reservedBlocks ≤ w.1.toNat := by
  have hsize := h.size
  obtain ⟨htotal, hreserved⟩ := h.geometry
  have hset : ∀ block ∈ inode.blocks.take count, a.flag block.toNat = true :=
    fun block hblock =>
      h.owned.data inode hmem block (List.mem_of_mem_take hblock)
  have htailMem : ∀ w ∈ tail, w.1 ∈ inode.blocks.take count := by
    intro w hw
    rcases prepareTailZero_cases htail (fun block hblock => by
      have := BlockAllocator.range_of_flag (hset block hblock)
      omega) with ⟨rfl, _⟩ | ⟨block, hlast, _, rfl⟩
    · cases hw
    · rw [List.mem_singleton.mp hw]
      exact List.mem_of_getLast? hlast
  have htailNodup : (tail.map Prod.fst).Nodup := by
    rcases prepareTailZero_cases htail (fun block hblock => by
      have := BlockAllocator.range_of_flag (hset block hblock)
      omega) with ⟨rfl, _⟩ | ⟨block, _, _, rfl⟩
    · exact List.nodup_nil
    · exact List.nodup_singleton _
  have hnames : ((fresh.map fun block => (block, Block.zero)).map Prod.fst) =
      fresh := by
    simp [Function.comp_def]
  have hmemAll : ∀ w ∈ tail ++ fresh.map fun block => (block, Block.zero),
      w.1 ∈ inode.blocks.take count ++ fresh := by
    intro w hw
    rcases List.mem_append.mp hw with hw | hw
    · exact List.mem_append_left _ (htailMem w hw)
    · refine List.mem_append_right _ ?_
      rw [← hnames]
      exact List.mem_map_of_mem hw
  refine ⟨hmemAll, ?_, ?_⟩
  · rw [List.map_append, hnames, List.nodup_append]
    refine ⟨htailNodup, htakes.nodup, ?_⟩
    intro block hblock other hother heq
    subst heq
    obtain ⟨w, hw, rfl⟩ := List.mem_map.mp hblock
    exact h.owned.notMem_fresh hmem htakes.free
      (List.mem_of_mem_take (htailMem w hw)) hother
  · intro w hw
    rcases List.mem_append.mp (hmemAll w hw) with hold | hnew
    · have := BlockAllocator.range_of_flag (hset _ hold)
      omega
    · have := htakes.range hnew
      omega

/-- The last block of a file can be cleared. -/
theorem Mounted.exists_prepareTailZero (h : Mounted d sb a inodes entries)
    (label : String) (hmem : inode ∈ inodes) (count offset : Nat) :
    ∃ tail, prepareTailZero d label a (inode.blocks.take count) offset =
      .ok tail ∧ tail.length ≤ 1 := by
  unfold prepareTailZero
  split
  · exact ⟨[], rfl, Nat.zero_le _⟩
  rename_i block hlast
  by_cases hzero : offset = 0
  · exact ⟨[], by rw [if_pos hzero]; rfl, Nat.zero_le _⟩
  have hset := h.owned.data inode hmem block
    (List.mem_of_mem_take (List.mem_of_getLast? hlast))
  have hrange := BlockAllocator.range_of_flag hset
  have hsize := h.size
  have htotal := h.geometry.1
  rw [if_neg hzero, liftAllocation_eq_ok.mpr
    (BlockAllocator.isOwned_of_data hrange.1 hrange.2), Except.ok_bind, hset,
    rejectIf_of_not (by decide), Except.ok_bind,
    Disk.readBlock_of_lt (by omega), Except.ok_bind]
  refine ⟨_, rfl, ?_⟩
  split
  · exact le_rfl
  · exact Nat.zero_le _

/-- `truncate_file_to_bytes_journaled` on a mounted disk. -/
theorem Mounted.truncateFileToBytes (h : Mounted d sb a inodes entries)
    (id : UInt64) (target : UInt64) :
    Effect.Atomic (truncateFileToBytesJournaled sb id target) d fun r d' =>
      ∃ inode ∈ inodes, inode.id = id ∧ inode.kind = .file ∧
        (target = inode.byteLen ∧ d' = d ∨ target < inode.byteLen ∧
          r.1 = inode.blocks.drop (byteLenToBlockCount target.toNat) ∧
          ∃ a' inode', Resized sb d d' a a' inodes entries inode inode'
            (byteLenToBlockCount target.toNat) [] target) := by
  apply h.atomic_allocator
  apply h.atomic_inodes
  apply atomic_findFile
  intro inode hmem hid hkind
  apply Effect.atomic_lift_bind
  intro current hcurrent
  rw [h.currentByteLen_eq hmem, Except.ok.injEq] at hcurrent
  subst hcurrent
  apply Effect.atomic_lift_bind
  intro _ hle
  rw [rejectIf_eq_ok, gt_iff_lt, UInt64.not_lt] at hle
  by_cases hsame : target = inode.byteLen
  · rw [if_pos hsame]
    exact Effect.atomic_pure ⟨inode, hmem, hid, hkind, .inl ⟨hsame, rfl⟩⟩
  rw [if_neg hsame]
  have hlt : target < inode.byteLen := UInt64.lt_of_le_of_ne hle hsame
  apply Effect.atomic_lift_bind
  intro _ hcount
  rw [rejectIf_eq_ok, gt_iff_lt, not_lt] at hcount
  apply Effect.atomic_lift_bind
  intro _ _
  apply Effect.atomic_query_bind
  intro tail htail
  apply Effect.atomic_lift_bind
  rintro ⟨displaced, edited⟩ hedit
  obtain ⟨_, _, hdisplaced, hid', hkind', hblocks, _⟩ :=
    PersistedInode.replaceBlockRange_eq_ok hkind (h.validate hmem) hedit
  rw [List.take_of_length_le (by rw [List.length_drop])] at hdisplaced
  rw [List.append_nil, List.drop_length] at hblocks
  apply Effect.atomic_lift_bind
  intro inode' hinode'
  obtain ⟨hset, hkind', hvalid'⟩ :=
    PersistedInode.setFileByteLen_eq_ok.mp hinode'
  rw [← congrArg PersistedInode.id hset] at hid'
  rw [← congrArg PersistedInode.blocks hset] at hblocks
  have hend : inode'.byteLen = target := congrArg PersistedInode.byteLen hset
  apply Effect.atomic_lift_bind
  intro a' hfreed
  rw [liftAllocation_eq_ok] at hfreed
  dsimp only at hfreed
  rw [hdisplaced] at hfreed
  obtain ⟨hdata, hnodup, hle'⟩ :=
    h.resizeWrites hmem htail (takes_nil a)
  rw [List.map_nil, List.append_nil] at hdata hnodup hle'
  apply (h.publishFileChanges hle' hnodup (h.editWrites hmem hid' hvalid'
    (hend ▸ hsame))).bind
  intro report d' hbecame
  have hrewritten := h.rewritten hmem hkind hid' hkind' hcount hblocks hvalid'
    (takes_nil a) hfreed (fun w hw => by
      rw [hblocks]
      exact hdata w hw) hbecame
  refine ⟨_, _, rfl, inode, hmem, hid, hkind, .inr ⟨hlt, hdisplaced, a', inode',
    hrewritten, hend, ?_⟩⟩
  have hstop : target.toNat ≤ inode.byteLen.toNat := hle
  rw [h.fileSpace_resized hmem hkind hstop htail (takes_nil a) hblocks (by
    rw [List.map_nil, List.append_nil]
    exact hbecame.contents), Nat.min_eq_right hstop]

/-- `grow_file_to_bytes_journaled` on a mounted disk. -/
theorem Mounted.growFileToBytes (h : Mounted d sb a inodes entries)
    (id : UInt64) (target : UInt64) :
    Effect.Atomic (growFileToBytesJournaled sb id target) d fun r d' =>
      ∃ inode ∈ inodes, inode.id = id ∧ inode.kind = .file ∧
        inode.byteLen < target ∧ ∃ a' inode',
          Resized sb d d' a a' inodes entries inode inode' inode.blocks.length
            r.1 target := by
  apply h.atomic_allocator
  apply h.atomic_inodes
  apply atomic_findFile
  intro inode hmem hid hkind
  apply Effect.atomic_lift_bind
  intro current hcurrent
  rw [h.currentByteLen_eq hmem, Except.ok.injEq] at hcurrent
  subst hcurrent
  apply Effect.atomic_lift_bind
  intro _ hlt
  rw [rejectIf_eq_ok, UInt64.not_le] at hlt
  apply Effect.atomic_lift_bind
  intro _ _
  apply Effect.atomic_query_bind
  intro tail htail
  apply Effect.atomic_lift_bind
  rintro ⟨fresh, mid⟩ hloop
  obtain ⟨htakes, _, _⟩ := h.takes_of_allocateEach hloop
  apply Effect.atomic_lift_bind
  intro edited hedited
  obtain ⟨hid', _, hblocks⟩ :=
    appendAllocated_eq_ok hkind (h.validate hmem) hedited
  apply Effect.atomic_lift_bind
  intro inode' hinode'
  obtain ⟨hset, hkind', hvalid'⟩ :=
    PersistedInode.setFileByteLen_eq_ok.mp hinode'
  rw [← congrArg PersistedInode.id hset] at hid'
  rw [← congrArg PersistedInode.blocks hset] at hblocks
  have hend : inode'.byteLen = target := congrArg PersistedInode.byteLen hset
  -- the blocks that stay are all blocks, as many as the old end needs
  have hcount := (h.fileEnd hmem hkind).1.length_eq
  have htake : inode.blocks.take (byteLenToBlockCount inode.byteLen.toNat) =
      inode.blocks := by
    rw [← hcount, List.take_length]
  have hkeep : inode'.blocks =
      inode.blocks.take (byteLenToBlockCount inode.byteLen.toNat) ++ fresh := by
    rw [htake]
    exact hblocks
  have htail' : prepareTailZero d "byte-grow" a
      (inode.blocks.take (byteLenToBlockCount inode.byteLen.toNat))
      (inode.byteLen.toNat % BLOCK_SIZE) = .ok tail := by
    rw [htake]
    exact htail
  obtain ⟨hdata, hnodup, hle⟩ := h.resizeWrites hmem htail' htakes
  have hne : inode'.byteLen ≠ inode.byteLen := by
    intro heq
    rw [← hend, heq] at hlt
    exact UInt64.lt_irrefl _ hlt
  apply (h.publishFileChanges hle hnodup (h.editWrites hmem hid' hvalid'
    hne)).bind
  intro report d' hbecame
  have hrewritten := h.rewritten hmem hkind hid' hkind' le_rfl (by
      rw [List.take_length]
      exact hblocks) hvalid' htakes (by
      rw [List.drop_length]
      rfl) (fun w hw => by
      rw [hkeep]
      exact hdata w hw) hbecame
  refine ⟨_, _, rfl, inode, hmem, hid, hkind, hlt, mid, inode', hrewritten, hend,
    ?_⟩
  have hstop : inode.byteLen.toNat ≤ target.toNat := le_of_lt hlt
  have hlen := length_fileBytes d (h.fileEnd hmem hkind).1
  rw [h.fileSpace_resized hmem hkind le_rfl htail' htakes hkeep
    hbecame.contents, Nat.min_eq_left hstop, List.take_of_length_le (by omega),
    List.take_of_length_le (by omega)]

end Resize

/-! ## Metadata of a path -/

/-- What `metadata_for_inode` reports of an inode that passes its checks. -/
def PersistedInode.metadata (inode : PersistedInode)
    (entries : List PersistedDirectoryEntry) : PathMetadata where
  inodeId := inode.id
  kind := inode.kind
  logicalBlocks := inode.blocks.length
  byteLen := inode.byteLen
  namespaceReferences :=
    (entries.filter fun entry => entry.target = inode.id).length

section Metadata

variable {d : Disk} {sb : Superblock} {a : BlockAllocator}
  {inodes : List PersistedInode} {entries : List PersistedDirectoryEntry}
  {inode : PersistedInode}

/-- Owned blocks pass the check of `metadata_for_inode`. -/
theorem requireDataBlocks_of_owned {blocks : List UInt64}
    (hreserved : a.reservedBlocks = sb.reservedBlocks)
    (h : ∀ block ∈ blocks, a.flag block.toNat = true) :
    requireDataBlocks sb a blocks = .ok () := by
  induction blocks with
  | nil => rfl
  | cons block blocks ih =>
    rw [List.forall_mem_cons] at h
    have hrange := BlockAllocator.range_of_flag h.1
    have howned := BlockAllocator.isOwned_of_data hrange.1 hrange.2
    rw [requireDataBlocks, rejectIf_of_not (by omega), Except.ok_bind,
      liftAllocation_eq_ok.mpr howned, Except.ok_bind, h.1,
      rejectIf_of_not (by decide), Except.ok_bind]
    exact ih h.2

/-- Every inode but the root is the target of an entry. -/
theorem Namespace.exists_entry (h : Namespace inodes entries)
    (hmem : inode ∈ inodes) (hroot : inode.id ≠ ROOT_INODE_ID) :
    ∃ entry ∈ entries, entry.target = inode.id := by
  cases (h.reachable inode hmem).cases_tail with
  | inl hsame => exact absurd hsame hroot
  | inr hstep =>
    obtain ⟨_, _, entry, hentry, _, htarget⟩ := hstep
    exact ⟨entry, hentry, htarget⟩

/-- The metadata of an inode of a mounted disk. -/
theorem Mounted.metadataForInode (h : Mounted d sb a inodes entries)
    (hmem : inode ∈ inodes) :
    FilesystemLab.metadataForInode d sb inode.id =
      .ok (inode.metadata entries) := by
  have hblocks : requireDataBlocks sb a inode.blocks = .ok () :=
    requireDataBlocks_of_owned h.geometry.2 (h.owned.data inode hmem)
  have hreferences : ¬ (inode.id ≠ 1 ∧
      (entries.filter fun entry => entry.target = inode.id).length = 0) := by
    intro hfacts
    rcases hfacts with ⟨hroot, hnone⟩
    obtain ⟨entry, hentry, htarget⟩ := h.tree.exists_entry hmem hroot
    rw [List.length_eq_zero_iff, List.filter_eq_nil_iff] at hnone
    exact hnone entry hentry (decide_eq_true htarget)
  rw [FilesystemLab.metadataForInode, h.allocator, Except.ok_bind, h.inodeTable,
    Except.ok_bind, h.directoryTable, Except.ok_bind,
    findInode_of_mem h.nodup_ids hmem, okOr_some, Except.ok_bind, hblocks,
    Except.ok_bind]
  dsimp only
  rw [rejectIf_of_not hreferences, Except.ok_bind, h.currentByteLen_eq hmem]
  rfl

/-- **The metadata of a path** is that of the inode that it leads to. -/
theorem Mounted.metadataAtPath (h : Mounted d sb a inodes entries)
    (hmem : inode ∈ inodes) {path : String}
    (hpath : resolvePathFollowingSymlinks d sb path = .ok inode.id) :
    FilesystemLab.metadataAtPath sb path d =
      (.ok (inode.metadata entries), d) := by
  rw [FilesystemLab.metadataAtPath, Effect.bind_of_ok h.recoverChecked,
    resolve_bind hpath, Effect.query, h.metadataForInode hmem]

/-- `grow_file_at_path_to_bytes_journaled` on a mounted disk. -/
theorem Mounted.growFileAtPathToBytes (h : Mounted d sb a inodes entries)
    (hmem : inode ∈ inodes) (hkind : inode.kind = .file) {path : String}
    (hpath : resolvePathFollowingSymlinks d sb path = .ok inode.id)
    (target : UInt64) :
    Effect.Atomic (growFileAtPathToBytesJournaled sb path target) d
      fun r d' => ∃ a' inode', Resized sb d d' a a' inodes entries inode inode'
        inode.blocks.length r.1 target := by
  apply Effect.atomic_bind_of_ok (h.metadataAtPath hmem hpath)
  apply Effect.atomic_lift_bind
  intro _ _
  apply Effect.atomic_lift_bind
  intro _ _
  apply (h.growFileToBytes inode.id target).mono
  intro r d' hpost
  rcases hpost with ⟨other, hother, hid, _, _, a', inode', hr⟩
  have heq := List.inj_on_of_nodup_map h.nodup_ids hother hmem hid
  subst heq
  exact ⟨a', inode', hr⟩

/-- `resize_file_at_path_to_bytes_journaled` on a mounted disk. -/
theorem Mounted.resizeFileAtPathToBytes (h : Mounted d sb a inodes entries)
    (hmem : inode ∈ inodes) (hkind : inode.kind = .file) {path : String}
    (hpath : resolvePathFollowingSymlinks d sb path = .ok inode.id)
    (target : UInt64) :
    Effect.Atomic (resizeFileAtPathToBytesJournaled sb path target) d
      fun r d' => ∃ a' inode',
        target < inode.byteLen ∧
            r.1 = inode.blocks.drop (byteLenToBlockCount target.toNat) ∧
            Resized sb d d' a a' inodes entries inode inode'
              (byteLenToBlockCount target.toNat) [] target ∨
          inode.byteLen < target ∧
            Resized sb d d' a a' inodes entries inode inode' inode.blocks.length
              r.1 target := by
  have hunique : ∀ other ∈ inodes, other.id = inode.id → other = inode :=
    fun other hother hid =>
      List.inj_on_of_nodup_map h.nodup_ids hother hmem hid
  apply Effect.atomic_bind_of_ok (h.metadataAtPath hmem hpath)
  apply Effect.atomic_lift_bind
  intro _ _
  by_cases hgrow : target > inode.byteLen
  · rw [show (inode.metadata entries).byteLen = inode.byteLen from rfl,
      if_pos hgrow]
    apply (h.growFileToBytes inode.id target).mono
    intro r d' hpost
    rcases hpost with ⟨other, hother, hid, _, hlt, a', inode', hr⟩
    have heq := hunique other hother hid
    subst heq
    exact ⟨a', inode', .inr ⟨hlt, hr⟩⟩
  rw [show (inode.metadata entries).byteLen = inode.byteLen from rfl,
    if_neg hgrow]
  by_cases hshrink : target < inode.byteLen
  · rw [if_pos hshrink]
    apply (h.truncateFileToBytes inode.id target).mono
    intro r d' hpost
    rcases hpost with ⟨other, hother, hid, _, ⟨hsame, _⟩ | ⟨hlt, hdrop, a',
      inode', hr⟩⟩
    · have heq := hunique other hother hid
      rw [heq] at hsame
      rw [hsame] at hshrink
      exact absurd hshrink (UInt64.lt_irrefl _)
    · have heq := hunique other hother hid
      subst heq
      exact ⟨a', inode', .inl ⟨hlt, hdrop, hr⟩⟩
  · rw [if_neg hshrink]
    exact Effect.atomic_lift_error

end Metadata

/-! ## What a resize leaves -/

/-- The allocator that is stored on a disk has a block as owned, or as free. -/
def MarkedOwned (d : Disk) (sb : Superblock) (block : UInt64) (owned : Bool) :
    Prop :=
  ∃ a, loadAllocator d sb = .ok a ∧ a.flag block.toNat = owned

/-- The disk `d'` is `d` with one file changed: the other inodes, the entries,
the ownership and the data of the other blocks are those of before, and the
check accepts the disk. -/
structure OnlyFile (sb : Superblock) (d d' : Disk)
    (inode inode' : PersistedInode) : Prop where
  superblock : readSuperblock d' = .ok sb
  journal : loadJournalImage d' sb = .ok []
  checked : ∃ report, checkDevice d' = .ok report
  inodes : ∃ inodes, loadInodeTable d sb = .ok inodes ∧
    loadInodeTable d' sb = .ok (inodes.map fun other =>
      if other.id = inode.id then inode' else other)
  entries : loadDirectoryTable d' sb = loadDirectoryTable d sb
  ownership : ∀ block, block ∉ inode.blocks → block ∉ inode'.blocks →
    ∀ owned, MarkedOwned d' sb block owned ↔ MarkedOwned d sb block owned
  data : ∀ b, sb.reservedBlocks ≤ b → b ∉ inode'.blocks.map UInt64.toNat →
    d'.blocks b = d.blocks b

/-- What a resize of the file at a path to `n` bytes returns and leaves. -/
structure ResizedAt (sb : Superblock) (d d' : Disk) (path : String)
    (inode inode' : PersistedInode) (n : Nat) (blocks : List UInt64) : Prop
    extends OnlyFile sb d d' inode inode' where
  file : FileAt d' sb path inode'
  changed : n ≠ (fileBytes d inode).length
  contents : fileBytes d' inode' = (fileBytes d inode).take n ++
    zeros (n - (fileBytes d inode).length)
  cleared : ∀ byte ∈ fileTail d' inode', byte = 0
  shrunk : n < (fileBytes d inode).length →
    blocks = inode.blocks.drop (byteLenToBlockCount n) ∧
      inode'.blocks = inode.blocks.take (byteLenToBlockCount n) ∧
      ∀ block ∈ blocks, MarkedOwned d' sb block false
  grown : (fileBytes d inode).length < n →
    inode'.blocks = inode.blocks ++ blocks ∧
      inode'.blocks.length = byteLenToBlockCount n ∧
      ∀ block ∈ blocks, MarkedOwned d sb block false ∧
        MarkedOwned d' sb block true

section Public

variable {d d' : Disk} {sb : Superblock} {a a' : BlockAllocator}
  {inodes : List PersistedInode} {entries : List PersistedDirectoryEntry}
  {inode inode' : PersistedInode} {keep : Nat} {fresh : List UInt64}
  {target : UInt64} {path : String}

/-- What is marked on a disk at rest. -/
theorem AtRest.markedOwned_iff (h : AtRest d sb a inodes entries)
    {block : UInt64} {owned : Bool} :
    MarkedOwned d sb block owned ↔ a.flag block.toNat = owned := by
  constructor
  · intro hfacts
    rcases hfacts with ⟨other, hload, hflag⟩
    rw [h.allocator, Except.ok.injEq] at hload
    rw [hload]
    exact hflag
  · intro hflag
    exact ⟨a, h.allocator, hflag⟩

/-- The file at a path is in the table that is loaded. -/
theorem FileAt.mem (hfile : FileAt d sb path inode)
    (h : AtRest d sb a inodes entries) : inode ∈ inodes := by
  obtain ⟨other, hload, hmem⟩ := hfile.loaded
  rw [h.inodeTable, Except.ok.injEq] at hload
  rw [hload]
  exact hmem

/-- A file that has changed is where it was. -/
theorem FileChanged.fileAt
    (hx : FileChanged sb d d' a' inodes entries inode inode')
    (h : Mounted d sb a inodes entries) (hfile : FileAt d sb path inode) :
    FileAt d' sb path inode' := by
  have hmem := hfile.mem h.toAtRest
  refine ⟨?_, ⟨_, hx.mounted.inodeTable, hx.mem_self h hmem⟩, hx.kind_eq⟩
  rw [hx.id_eq]
  exact hx.resolves h hmem hfile.kind_eq hfile.resolves

/-- A file that is rewritten is all that changes. -/
theorem Rewritten.onlyFile
    (hr : Rewritten sb d d' a a' inodes entries inode inode' keep fresh)
    (h : Mounted d sb a inodes entries) : OnlyFile sb d d' inode inode' := by
  refine ⟨hr.mounted.superblock, hr.mounted.journal, ⟨_, hr.mounted.check⟩,
    ⟨inodes, h.inodeTable, hr.inodeTable h⟩, ?_, ?_, hr.kept⟩
  · rw [hr.mounted.directoryTable, h.directoryTable]
  · intro block hold hnew owned
    have hdropped : block.toNat ∉ (inode.blocks.drop keep).map UInt64.toNat := by
      rw [List.mem_map_of_injective fun _ _ => UInt64.toNat_inj.mp]
      exact fun hmem => hold (List.mem_of_mem_drop hmem)
    have hfresh : block.toNat ∉ fresh.map UInt64.toNat := by
      rw [List.mem_map_of_injective fun _ _ => UInt64.toNat_inj.mp]
      intro hmem
      apply hnew
      rw [hr.blocks_eq]
      exact List.mem_append_right _ hmem
    rw [hr.mounted.toAtRest.markedOwned_iff, h.toAtRest.markedOwned_iff,
      hr.flag, decide_eq_true hdropped, decide_eq_false hfresh, Bool.true_and,
      Bool.false_or]

/-- The blocks that a file gives up become free. -/
theorem Rewritten.released
    (hr : Rewritten sb d d' a a' inodes entries inode inode' keep fresh)
    {block : UInt64} (hblock : block ∈ inode.blocks.drop keep) :
    MarkedOwned d' sb block false := by
  rw [hr.mounted.toAtRest.markedOwned_iff, hr.flag,
    decide_eq_false (not_not.mpr (List.mem_map_of_mem hblock)), Bool.false_and]

/-- The blocks that a file takes were free, and are owned. -/
theorem Rewritten.taken
    (hr : Rewritten sb d d' a a' inodes entries inode inode' keep fresh)
    (h : Mounted d sb a inodes entries) (hmem : inode ∈ inodes)
    {block : UInt64} (hblock : block ∈ fresh) :
    MarkedOwned d sb block false ∧ MarkedOwned d' sb block true := by
  rw [hr.mounted.toAtRest.markedOwned_iff, h.toAtRest.markedOwned_iff]
  refine ⟨hr.free block hblock, ?_⟩
  apply hr.mounted.owned.data inode' (hr.mem_self h hmem)
  rw [hr.blocks_eq]
  exact List.mem_append_right _ hblock

/-- The blocks of a file reach as far as its end needs. -/
theorem FileChanged.length_eq
    (hx : FileChanged sb d d' a' inodes entries inode inode')
    (h : Mounted d sb a inodes entries) (hmem : inode ∈ inodes) :
    inode'.blocks.length = byteLenToBlockCount inode'.byteLen.toNat :=
  (hx.mounted.fileEnd (hx.mem_self h hmem) hx.kind_eq).1.length_eq

/-- What a resize leaves, as a caller sees it. -/
theorem Resized.resizedAt
    (hr : Resized sb d d' a a' inodes entries inode inode' keep fresh target)
    (h : Mounted d sb a inodes entries) (hfile : FileAt d sb path inode)
    {blocks : List UInt64}
    (hcase : target < inode.byteLen ∧
        blocks = inode.blocks.drop (byteLenToBlockCount target.toNat) ∧
        keep = byteLenToBlockCount target.toNat ∧ fresh = [] ∨
      inode.byteLen < target ∧ keep = inode.blocks.length ∧ fresh = blocks) :
    ResizedAt sb d d' path inode inode' target.toNat blocks := by
  have hmem := hfile.mem h.toAtRest
  have hlen := length_fileBytes d (h.fileEnd hmem hfile.kind_eq).1
  refine ⟨hr.onlyFile h, hr.toFileChanged.fileAt h hfile, ?_, ?_, ?_, ?_, ?_⟩
  · rw [hlen]
    rcases hcase with ⟨hlt, _⟩ | ⟨hlt, _⟩
    · exact Nat.ne_of_lt hlt
    · exact Nat.ne_of_gt hlt
  · rw [hlen]
    exact hr.fileBytes_eq h hmem hfile.kind_eq
  · intro byte hbyte
    rw [hr.fileTail_eq h hmem hfile.kind_eq] at hbyte
    exact List.eq_of_mem_replicate hbyte
  · intro hshrink
    rw [hlen] at hshrink
    rcases hcase with ⟨_, rfl, rfl, rfl⟩ | ⟨hlt, _⟩
    · refine ⟨rfl, ?_, fun block hblock => hr.released hblock⟩
      rw [hr.blocks_eq, List.append_nil]
    · exact absurd hshrink (Nat.lt_asymm hlt)
  · intro hgrow
    rw [hlen] at hgrow
    rcases hcase with ⟨hlt, _⟩ | ⟨_, rfl, rfl⟩
    · exact absurd hgrow (Nat.lt_asymm hlt)
    · refine ⟨?_, ?_, fun block hblock => hr.taken h hmem hblock⟩
      · rw [hr.blocks_eq, List.take_length]
      · rw [hr.length_eq h hmem, hr.byteLen_eq]

/-- A resize on a mounted disk, as a caller sees it. -/
theorem Mounted.resizedAt (h : Mounted d sb a inodes entries)
    (hfile : FileAt d sb path inode) (n : UInt64) :
    Effect.Atomic (resizeFileAtPathToBytesJournaled sb path n) d fun r d' =>
      ∃ inode', ResizedAt sb d d' path inode inode' n.toNat r.1 := by
  apply (h.resizeFileAtPathToBytes (hfile.mem h.toAtRest) hfile.kind_eq
    hfile.resolves n).mono
  intro r d' hpost
  rcases hpost with ⟨a', inode', ⟨hlt, hdrop, hr⟩ | ⟨hlt, hr⟩⟩
  · exact ⟨inode', hr.resizedAt h hfile (.inl ⟨hlt, hdrop, rfl, rfl⟩)⟩
  · exact ⟨inode', hr.resizedAt h hfile (.inr ⟨hlt, rfl, rfl⟩)⟩

end Public

/-- **A resize to a number of bytes is exact.**  On a device that the check
accepts with an empty journal, a resize of a file to `n` bytes that fails
changes nothing, and one that succeeds leaves the contents cut or extended with
zeros to `n` bytes; a file that is cut and grown back has zeros for the bytes
that it lost. -/
theorem resizeFileAtPathToBytes_exact {d d' : Disk} {sb : Superblock}
    {report : FsckReport} {path : String} {inode : PersistedInode}
    {n : UInt64} {result : Result (List UInt64 × RecoveryReport)}
    (hsb : readSuperblock d = .ok sb)
    (hjournal : loadJournalImage d sb = .ok [])
    (hcheck : checkDevice d = .ok report) (hfile : FileAt d sb path inode)
    (hrun : resizeFileAtPathToBytesJournaled sb path n d = (result, d')) :
    match result with
    | .error _ => d' = d
    | .ok r => (∃ inode', ResizedAt sb d d' path inode inode' n.toNat r.1) ∧
        ∀ (r' : List UInt64 × RecoveryReport) (d'' : Disk),
          n.toNat < (fileBytes d inode).length →
          resizeFileAtPathToBytesJournaled sb path inode.byteLen d' =
            (.ok r', d'') →
          ∃ inode'', FileAt d'' sb path inode'' ∧
            fileBytes d'' inode'' = (fileBytes d inode).take n.toNat ++
              zeros ((fileBytes d inode).length - n.toNat) := by
  obtain ⟨a, inodes, entries, h⟩ := exists_mounted hsb hjournal hcheck
  have hatomic := h.resizedAt hfile n
  cases result with
  | error error =>
    have hsame := hatomic.of_error (congrArg Prod.fst hrun)
    rw [hrun] at hsame
    exact hsame
  | ok r =>
    obtain ⟨inode', hresized⟩ := hatomic.of_ok hrun
    refine ⟨⟨inode', hresized⟩, ?_⟩
    intro r' d'' hshrink hback
    obtain ⟨report', hcheck'⟩ := hresized.checked
    obtain ⟨a', inodes', entries', h'⟩ :=
      exists_mounted hresized.superblock hresized.journal hcheck'
    obtain ⟨inode'', hgrown⟩ := (h'.resizedAt hresized.file _).of_ok hback
    refine ⟨inode'', hgrown.file, ?_⟩
    have hlen := length_fileBytes d
      (h.fileEnd (hfile.mem h.toAtRest) hfile.kind_eq).1
    have hcut : ((fileBytes d inode).take n.toNat ++
        zeros (n.toNat - (fileBytes d inode).length)).length = n.toNat := by
      rw [List.length_append, List.length_take, length_zeros]
      omega
    rw [hgrown.contents, hresized.contents, hcut, ← hlen,
      List.take_of_length_le (by omega), Nat.sub_eq_zero_of_le hshrink.le]
    exact congrArg (· ++ _) (List.append_nil _)

/-! ## A sample resize -/

/-- The second file of the sample is cut to four bytes. -/
theorem resizeFile_filesDisk (contents : Nat → Block) :
    ∃ r d', resizeFileAtPathToBytesJournaled treeSuperblock "/t" 4
      (filesDisk contents) = (.ok r, d') := by
  have h := mounted_filesDisk contents
  have hmem : ⟨3, .file, [11], 10⟩ ∈ filesInodes := by decide
  obtain ⟨tail, htail, hlen⟩ :=
    h.exists_prepareTailZero "byte-truncate" hmem 1
      ((4 : UInt64).toNat % BLOCK_SIZE)
  obtain ⟨hdata, _, _⟩ := h.resizeWrites hmem htail (takes_nil filesAllocator)
  rw [List.map_nil, List.append_nil] at hdata
  have hset : setInode filesInodes ⟨3, .file, [11], 4⟩ =
      [⟨1, .directory, [], 0⟩, ⟨2, .file, [10], 4096⟩, ⟨3, .file, [11], 4⟩] := by
    decide
  obtain ⟨image, himage⟩ : ∃ image,
      inodeFormat.encodeImage treeSuperblock.inodeBlocks
        (setInode filesInodes ⟨3, .file, [11], 4⟩) = .ok image := by
    rw [hset]
    exact exists_inodeImage (by decide) (by decide) (by decide) (by decide)
      (by decide)
  obtain ⟨report, d', hrun⟩ := @AtRest.publishFileChanges_tree _ _
    filesAllocator _ _ _ "byte-truncate" tail image h.toAtRest rfl rfl himage (by
      intro w hw
      rw [List.mem_singleton.mp (hdata w hw)]
      decide) (by omega) (.inr (by decide))
  have hfind : okOr (findInode filesInodes 3)
      (invalidInput "byte-truncate target inode is missing") =
        .ok ⟨3, .file, [11], 10⟩ := rfl
  obtain ⟨edited, hedit, hnone, hsized⟩ : ∃ edited,
      PersistedInode.replaceBlockRange ⟨3, .file, [11], 10⟩ 1 1 [] =
        .ok edited ∧ edited.1 = [] ∧
      edited.2.setFileByteLen 4 = .ok ⟨3, .file, [11], 4⟩ :=
    ⟨([], ⟨3, .file, [11], 10⟩), by decide, rfl, by decide⟩
  have hcurrent : currentByteLen ⟨3, .file, [11], 10⟩ = .ok 10 :=
    h.currentByteLen_eq hmem
  have hquery : preparePartialTailZero (filesDisk contents) filesAllocator
      ⟨3, .file, [11], 10⟩ 1 (4 : UInt64).toNat = .ok tail := htail
  have hcount : byteLenToBlockCount (4 : UInt64).toNat = 1 := by decide
  have hreleased : requireAllocatorOwned
      "byte-truncate released block is not allocator-owned" filesAllocator
      (List.drop 1 [11]) = .ok () := rfl
  have hfreed : liftAllocation (filesAllocator.freeAll
      (edited.1.map UInt64.toNat)) = .ok filesAllocator := by
    rw [hnone]
    rfl
  refine ⟨(edited.1, report), d', ?_⟩
  rw [resizeFileAtPathToBytesJournaled, Effect.bind_of_ok
    (h.metadataAtPath hmem (fileAt_destination contents).resolves),
    Effect.lift_bind_of_ok (a := ()) (rejectIf_of_not (by decide))]
  rw [if_neg (by decide), if_pos (by decide), truncateFileToBytesJournaled,
    h.allocator_bind, h.inodes_bind]
  rw [show (PersistedInode.metadata ⟨3, .file, [11], 10⟩ filesEntries).inodeId =
    3 from rfl, Effect.lift_bind_of_ok hfind,
    Effect.lift_bind_of_ok (a := ()) (rejectIf_of_not (by decide)),
    Effect.lift_bind_of_ok hcurrent,
    Effect.lift_bind_of_ok (a := ()) (rejectIf_of_not (by decide)),
    if_neg (by decide)]
  dsimp only
  rw [hcount, Effect.lift_bind_of_ok (a := ()) (rejectIf_of_not (by decide)),
    Effect.lift_bind_of_ok hreleased]
  rw [Effect.query_bind_of_ok (q := fun d : Disk => preparePartialTailZero d
    filesAllocator ⟨3, .file, [11], 10⟩ 1 (4 : UInt64).toNat) hquery,
    show [(11 : UInt64)].length = 1 from rfl, Effect.lift_bind_of_ok hedit,
    Effect.lift_bind_of_ok hsized, Effect.lift_bind_of_ok hfreed,
    Effect.bind_of_ok hrun]
  rfl

theorem resizeFileAtPathToBytes_exact_filesDisk :
    ∃ (r : List UInt64 × RecoveryReport) (d' : Disk),
      resizeFileAtPathToBytesJournaled treeSuperblock "/t" 4
        (filesDisk fun _ => Block.zero) = (.ok r, d') ∧
      ∃ inode', ResizedAt treeSuperblock (filesDisk fun _ => Block.zero) d' "/t"
        ⟨3, .file, [11], 10⟩ inode' 4 r.1 := by
  have h := mounted_filesDisk fun _ => Block.zero
  obtain ⟨r, d', hrun⟩ := resizeFile_filesDisk fun _ => Block.zero
  exact ⟨r, d', hrun, (resizeFileAtPathToBytes_exact h.superblock h.journal
    h.check (fileAt_destination _) hrun).1⟩

end FilesystemLab
