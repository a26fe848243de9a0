import FilesystemLab.BlockConservation
import FilesystemLab.BlockSplice
import FilesystemLab.BlockResize
import FilesystemLab.ExtendingWrite
import FilesystemLab.RangeCopy

/-!
# The other operations on the data of a file

`append_file_blocks_contiguous_journaled`, `clone_file_blocks_append_journaled`,
`clone_file_blocks_replace_journaled`, `remove_file_block_journaled`,
`zero_file_range_journaled`, and the single-block functions of `file_data.rs`.

* The appends, the clones and the removal leave a file with a range of blocks
  replaced, as `Spliced` says; the clone replacement writes into the block list
  where the others call `replace_block_range`, and leaves the same.
* A batch of blocks, in whatever order and wherever they are, leaves the file
  with each of them in its place (`Mounted.writeFileBlockBatch`), and the write
  of one block is a batch of one.
-/

namespace FilesystemLab

open WriteLog Splice

/-! ## The operations -/

section Device

variable {σ : Type} [BlockDevice σ]

/-- An append after its check of the arguments. -/
def appendBlocks (label : String)
    (take : BlockAllocator → Result (List UInt64 × BlockAllocator))
    (sb : Superblock) (id : UInt64) (images : List Block) :
    DevM σ (List UInt64 × List UInt64 × RecoveryReport) := do
  let allocator ← Effect.query (loadAllocator · sb)
  let inodes ← Effect.query (loadInodeTable · sb)
  let inode ← okOr (findInode inodes id)
    (invalidInput "file-data target inode is missing")
  rejectIf (inode.kind ≠ .file)
    (invalidInput "file-data target must be a regular file")
  spliceBlocks label take sb allocator inodes inode inode.blocks.length
    inode.blocks.length images

/-- `append_file_blocks_contiguous_journaled`. -/
def appendFileBlocksContiguousJournaled (sb : Superblock) (id : UInt64)
    (data : List Block) : DevM σ (List UInt64 × RecoveryReport) := do
  rejectIf (data = []) (invalidInput
    "contiguous multi-block append requires at least one data block")
  let r ← appendBlocks "contiguous multi-block append"
    (allocateRun "contiguous allocation run overflowed block address space" ·
      data.length) sb id data
  pure (r.1, r.2.2)

/-- `append_file_block_journaled`. -/
def appendFileBlockJournaled (sb : Superblock) (id : UInt64) (data : Block) :
    DevM σ (UInt64 × RecoveryReport) := do
  let r ← appendBlocks "file append" (allocateEach · 1) sb id [data]
  -- one block is allocated, and it is the one that is returned
  pure (r.1.headD 0, r.2.2)

/-- `clone_file_blocks_append_journaled`. -/
def cloneFileBlocksAppendJournaled (sb : Superblock) (sourceInode : UInt64)
    (sourceStart blockCount : Nat) (destinationInode : UInt64) :
    DevM σ (List UInt64 × RecoveryReport) := do
  rejectIf (blockCount = 0)
    (invalidInput "clone append requires at least one source block")
  let allocator ← Effect.query (loadAllocator · sb)
  let inodes ← Effect.query (loadInodeTable · sb)
  let source ← okOr (findInode inodes sourceInode)
    (invalidInput "clone source inode is missing")
  let destination ← okOr (findInode inodes destinationInode)
    (invalidInput "clone destination inode is missing")
  rejectIf (source.kind ≠ .file ∨ destination.kind ≠ .file)
    (invalidInput "clone source and destination must be regular files")
  let sourceEnd ← okOr (checkedAdd sourceStart blockCount)
    (invalidInput "clone source range overflows usize")
  rejectIf (sourceEnd > source.blocks.length)
    (invalidInput "clone source range exceeds existing logical blocks")
  let snapshots ← Effect.query (snapshotOwnedBlocks · allocator
    "clone source block is not allocator-owned"
    ((source.blocks.drop sourceStart).take (sourceEnd - sourceStart)))
  let r ← spliceBlocks "clone append" (allocateEach · blockCount) sb allocator
    inodes destination destination.blocks.length destination.blocks.length
    snapshots
  pure (r.1, r.2.2)

/-- `clone_file_blocks_replace_journaled`.  The fresh blocks are copied over the
range of the block list, which has their number; the end of the file stays. -/
def cloneFileBlocksReplaceJournaled (sb : Superblock) (sourceInode : UInt64)
    (sourceStart blockCount : Nat) (destinationInode : UInt64)
    (destinationStart : Nat) :
    DevM σ (List UInt64 × List UInt64 × RecoveryReport) := do
  rejectIf (blockCount = 0)
    (invalidInput "clone replacement requires at least one source block")
  rejectIf (sourceInode = destinationInode) (invalidInput
    "clone replacement requires distinct source and destination inodes")
  let sourceEnd ← okOr (checkedAdd sourceStart blockCount)
    (invalidInput "clone replacement source range overflows usize")
  let destinationEnd ← okOr (checkedAdd destinationStart blockCount)
    (invalidInput "clone replacement destination range overflows usize")
  let allocator ← Effect.query (loadAllocator · sb)
  let inodes ← Effect.query (loadInodeTable · sb)
  let source ← okOr (findInode inodes sourceInode)
    (invalidInput "clone source inode is missing")
  let destination ← okOr (findInode inodes destinationInode)
    (invalidInput "clone destination inode is missing")
  rejectIf (source.kind ≠ .file ∨ destination.kind ≠ .file)
    (invalidInput "clone source and destination must be regular files")
  rejectIf (sourceEnd > source.blocks.length)
    (invalidInput "clone source range exceeds existing logical blocks")
  rejectIf (destinationEnd > destination.blocks.length)
    (invalidInput "clone destination range exceeds existing logical blocks")
  let displaced :=
    (destination.blocks.drop destinationStart).take
      (destinationEnd - destinationStart)
  let snapshots ← Effect.query (snapshotOwnedBlocks · allocator
    "clone source block is not allocator-owned"
    ((source.blocks.drop sourceStart).take (sourceEnd - sourceStart)))
  let _ ← Effect.query (snapshotOwnedBlocks · allocator
    "clone destination block is not allocator-owned" displaced)
  let taken ← allocateEach allocator blockCount
  let freed ← liftAllocation (taken.2.freeAll (displaced.map UInt64.toNat))
  let report ← publishFileChanges "clone replacement" sb freed
    (setInode inodes { destination with
      blocks := destination.blocks.take destinationStart ++ taken.1 ++
        destination.blocks.drop destinationEnd })
    (taken.1.zip snapshots)
  pure (taken.1, displaced, report)

/-- `remove_file_block_journaled`. -/
def removeFileBlockJournaled (sb : Superblock) (id : UInt64)
    (removeIndex : Nat) : DevM σ (UInt64 × RecoveryReport) := do
  let allocator ← Effect.query (loadAllocator · sb)
  let inodes ← Effect.query (loadInodeTable · sb)
  let entries ← Effect.query (loadDirectoryTable · sb)
  let inode ← okOr (findInode inodes id)
    (invalidInput "file removal target inode is missing")
  rejectIf (inode.kind ≠ .file)
    (invalidInput "file removal target must be a regular file")
  let block ← okOr inode.blocks[removeIndex]?
    (invalidInput "file removal logical index is outside the file")
  let edited ← inode.replaceBlockRange removeIndex (removeIndex + 1) []
  let freed ← liftAllocation (allocator.free block.toNat)
  let report ← storeCreateMetadataJournaled sb freed
    (setInode inodes edited.2) entries
  pure (block, report)

/-- `journal_block_image`. -/
def journalBlockImage (sb : Superblock) (block : UInt64) (data : Block) :
    DevM σ RecoveryReport := do
  let current ← Effect.query (readBlock · block.toNat)
  if current = data then pure RecoveryReport.default
  else
    publishChanges recoverJournalAndCheckpoint
      "file-data transaction recovery report is inconsistent" sb
      [(block.toNat, data)]

/-- `write_file_block_journaled`. -/
def writeFileBlockJournaled (sb : Superblock) (id : UInt64) (index : Nat)
    (data : Block) : DevM σ RecoveryReport := do
  let block ← Effect.query (resolveOwnedFileBlock · sb id index)
  journalBlockImage sb block data

/-- `write_file_block_range_journaled`. -/
def writeFileBlockRangeJournaled (sb : Superblock) (id : UInt64)
    (index offset : Nat) (data : List UInt8) :
    Effect (Abort IoError) σ RecoveryReport := do
  rejectIf (data = [] ∨ offset ≥ BLOCK_SIZE ∨ data.length > BLOCK_SIZE - offset)
    (Abort.error (invalidInput
      "partial file-data write must be non-empty and stay within one block"))
  writeFileRangeJournaled sb id index offset data

/-- `zero_file_range_journaled`. -/
def zeroFileRangeJournaled (sb : Superblock) (id : UInt64)
    (firstBlock offset len : Nat) :
    Effect (Abort IoError) σ RecoveryReport := do
  rejectIf (len = 0)
    (Abort.error (invalidInput "zero-range requires at least one byte"))
  writeFileRangeJournaled sb id firstBlock offset (Bytes.zeros len)

end Device

/-! ## The edits of the block list -/

section Splices

variable {d : Disk} {sb : Superblock} {a : BlockAllocator}
  {inodes : List PersistedInode} {entries : List PersistedDirectoryEntry}
  {inode : PersistedInode} {start stop : Nat} {images : List Block}
  {label : String}
  {take : BlockAllocator → Result (List UInt64 × BlockAllocator)}

/-- The appends on a mounted disk. -/
theorem Mounted.appendBlocks (h : Mounted d sb a inodes entries) (id : UInt64)
    (hne : images ≠ []) (htake : TakesEach take a images) :
    Effect.Atomic (FilesystemLab.appendBlocks label take sb id images) d
      fun r d' => ∃ inode ∈ inodes, inode.id = id ∧ inode.kind = .file ∧
        (∃ mid, take a = .ok (r.1, mid)) ∧
        ∃ a' inode', Spliced sb d d' a a' inodes entries inode inode'
          inode.blocks.length inode.blocks.length r.1 images := by
  apply h.atomic_allocator
  apply h.atomic_inodes
  apply atomic_findFile
  intro inode hmem hid hkind
  apply (h.spliceBlocks hmem hkind hne htake).mono
  intro r d' hpost
  exact ⟨inode, hmem, hid, hkind, hpost.1, hpost.2.2⟩

/-- `append_file_blocks_contiguous_journaled` on a mounted disk. -/
theorem Mounted.appendFileBlocksContiguous (h : Mounted d sb a inodes entries)
    (id : UInt64) (data : List Block) :
    Effect.Atomic (appendFileBlocksContiguousJournaled sb id data) d
      fun r d' => Consecutive r.1 ∧
        ∃ inode ∈ inodes, inode.id = id ∧ inode.kind = .file ∧
        ∃ a' inode', Spliced sb d d' a a' inodes entries inode inode'
          inode.blocks.length inode.blocks.length r.1 data := by
  apply Effect.atomic_lift_bind
  intro _ hne
  rw [rejectIf_eq_ok] at hne
  apply (h.appendBlocks id hne (takesEach_allocateRun _)).bind
  intro r d' hpost
  rcases hpost with ⟨inode, hmem, hid, hkind, ⟨mid, hrun⟩, hs⟩
  exact ⟨_, _, rfl, (allocateRun_eq_ok hrun).2.2, inode, hmem, hid, hkind, hs⟩

/-- `append_file_block_journaled` on a mounted disk. -/
theorem Mounted.appendFileBlock (h : Mounted d sb a inodes entries)
    (id : UInt64) (data : Block) :
    Effect.Atomic (appendFileBlockJournaled sb id data) d
      fun r d' => ∃ inode ∈ inodes, inode.id = id ∧ inode.kind = .file ∧
        ∃ a' inode', Spliced sb d d' a a' inodes entries inode inode'
          inode.blocks.length inode.blocks.length [r.1] [data] := by
  have htake : TakesEach (allocateEach · 1) a [data] :=
    h.toAtRest.takesEach_allocateEach rfl
  apply (h.appendBlocks id (List.cons_ne_nil data []) htake).bind
  intro r d' hpost
  rcases hpost with ⟨inode, hmem, hid, hkind, ⟨mid, hloop⟩, a', inode', hs⟩
  obtain ⟨block, hone⟩ := List.length_eq_one_iff.mp (htake _ _ hloop).2
  rw [hone] at hs
  refine ⟨_, _, rfl, inode, hmem, hid, hkind, a', inode', ?_⟩
  rw [hone]
  exact hs

/-- The images of a range that is inside of a file. -/
theorem length_snapshot {source : PersistedInode} {blockCount : Nat}
    (himages : images = ((fileImages d source).drop start).take blockCount)
    (hinside : start + blockCount ≤ source.blocks.length)
    (hcount : blockCount ≠ 0) : images.length = blockCount ∧ images ≠ [] := by
  have hlen : images.length = blockCount := by
    rw [himages, List.length_take, List.length_drop, length_fileImages]
    omega
  refine ⟨hlen, ?_⟩
  rw [← List.length_pos_iff]
  omega

/-- `clone_file_blocks_append_journaled` on a mounted disk. -/
theorem Mounted.cloneFileBlocksAppend (h : Mounted d sb a inodes entries)
    (sourceInode : UInt64) (sourceStart blockCount : Nat)
    (destinationInode : UInt64) :
    Effect.Atomic (cloneFileBlocksAppendJournaled sb sourceInode sourceStart
        blockCount destinationInode) d
      fun r d' => ∃ source ∈ inodes, source.id = sourceInode ∧
        source.kind = .file ∧
        sourceStart + blockCount ≤ source.blocks.length ∧
        ∃ inode ∈ inodes, inode.id = destinationInode ∧ inode.kind = .file ∧
        ∃ a' inode', Spliced sb d d' a a' inodes entries inode inode'
          inode.blocks.length inode.blocks.length r.1
          (((fileImages d source).drop sourceStart).take blockCount) := by
  apply Effect.atomic_lift_bind
  intro _ hcount
  rw [rejectIf_eq_ok] at hcount
  apply h.atomic_allocator
  apply h.atomic_inodes
  apply Effect.atomic_lift_bind
  intro source hsource
  obtain ⟨hsrc, hsid⟩ := findInode_eq_some (okOr_eq_ok.mp hsource)
  apply Effect.atomic_lift_bind
  intro inode hfind
  obtain ⟨hmem, hid⟩ := findInode_eq_some (okOr_eq_ok.mp hfind)
  apply Effect.atomic_lift_bind
  intro _ hkinds
  rw [rejectIf_eq_ok, not_or, not_ne_iff, not_ne_iff] at hkinds
  apply Effect.atomic_lift_bind
  intro stop hstop
  rw [okOr_eq_ok, checkedAdd_eq_some] at hstop
  obtain ⟨_, rfl⟩ := hstop
  apply Effect.atomic_lift_bind
  intro _ hinside
  rw [rejectIf_eq_ok, not_lt] at hinside
  apply Effect.atomic_query_bind
  intro images himages
  rw [Nat.add_sub_cancel_left] at himages
  have hsnapshot := h.snapshot_eq hsrc himages
  obtain ⟨hlen, hne⟩ := length_snapshot hsnapshot hinside hcount
  apply (h.spliceBlocks hmem hkinds.2 hne
    (h.toAtRest.takesEach_allocateEach hlen.symm)).bind
  intro r d' hpost
  rcases hpost with ⟨_, _, a', inode', hs⟩
  rw [hsnapshot] at hs
  exact ⟨_, _, rfl, source, hsrc, hsid, hkinds.1, hinside, inode, hmem, hid,
    hkinds.2, a', inode', hs⟩

/-- Copying as many fresh blocks over a range of a valid file is what
`replace_block_range` does with them. -/
theorem PersistedInode.Valid.replaceBlockRange_same (hvalid : inode.Valid)
    (hkind : inode.kind = .file) (hstart : start ≤ stop)
    (hstop : stop ≤ inode.blocks.length) {fresh : List UInt64}
    (hlen : fresh.length = stop - start)
    (hnodup : (splice inode.blocks start stop fresh).Nodup) :
    inode.replaceBlockRange start stop fresh =
      .ok (segment inode.blocks start stop,
        { inode with blocks := splice inode.blocks start stop fresh }) := by
  obtain ⟨_, _, hend, hcapacity⟩ := (PersistedInode.valid_iff hkind).mp hvalid
  have hsame : (splice inode.blocks start stop fresh).length =
      inode.blocks.length := by
    have := length_splice hstart hstop fresh
    omega
  have hslack : inode.blocks.length * BLOCK_SIZE - inode.tailSlack =
      inode.byteLen.toNat := by
    have := hend.le_capacity
    unfold PersistedInode.tailSlack
    omega
  have hinode : ({ inode with blocks := splice inode.blocks start stop fresh } :
      PersistedInode) = inode.withBlocks (splice inode.blocks start stop fresh) := by
    have hbyteLen : inode.byteLen = UInt64.ofNat (if splice inode.blocks start stop
        fresh = [] then 0 else (splice inode.blocks start stop fresh).length *
          BLOCK_SIZE - inode.tailSlack) := by
      rw [hsame, hslack]
      split
      case isTrue hnil =>
        rw [hnil, List.length_nil] at hsame
        have hzero := hend.le_capacity
        rw [← hsame, Nat.zero_mul, Nat.le_zero] at hzero
        exact UInt64.toNat_inj.mp hzero
      case isFalse => rw [UInt64.ofNat_toNat]
    unfold PersistedInode.withBlocks
    rw [← hbyteLen]
  rw [PersistedInode.replaceBlockRange_iff hvalid hkind]
  refine ⟨hstart, hstop, rfl, hinode, ?_⟩
  rw [hinode]
  exact hvalid.of_withBlocks hkind hnodup (by rw [hsame]; exact hcapacity)

/-- The blocks of a file with a range replaced by fresh ones are distinct. -/
theorem Mounted.nodup_splice (h : Mounted d sb a inodes entries)
    (hmem : inode ∈ inodes) {mid : BlockAllocator} {fresh : List UInt64}
    (htakes : Takes a mid fresh) (hstart : start ≤ stop) :
    (splice inode.blocks start stop fresh).Nodup := by
  have hnodup := PersistedInode.nodup_of_validate (h.validate hmem)
  have hsublist : List.Sublist
      (inode.blocks.take start ++ inode.blocks.drop stop) inode.blocks := by
    conv_rhs => rw [← List.take_append_drop start inode.blocks]
    exact List.Sublist.append_left (List.drop_sublist_drop_left _ hstart) _
  have hrest := hnodup.sublist hsublist
  have hother : ∀ block ∈ fresh,
      block ∉ inode.blocks.take start ++ inode.blocks.drop stop := by
    intro block hblock hin
    exact h.owned.notMem_fresh hmem htakes.free (hsublist.subset hin) hblock
  have hperm : (splice inode.blocks start stop fresh).Perm
      (fresh ++ (inode.blocks.take start ++ inode.blocks.drop stop)) := by
    unfold splice
    rw [← List.append_assoc]
    exact (List.perm_append_comm).append_right _
  rw [hperm.nodup_iff, List.nodup_append']
  exact ⟨htakes.nodup, hrest, fun block hblock => hother block hblock⟩

/-- `clone_file_blocks_replace_journaled` on a mounted disk. -/
theorem Mounted.cloneFileBlocksReplace (h : Mounted d sb a inodes entries)
    (sourceInode : UInt64) (sourceStart blockCount : Nat)
    (destinationInode : UInt64) (destinationStart : Nat) :
    Effect.Atomic (cloneFileBlocksReplaceJournaled sb sourceInode sourceStart
        blockCount destinationInode destinationStart) d
      fun r d' => sourceInode ≠ destinationInode ∧
        ∃ source ∈ inodes, source.id = sourceInode ∧ source.kind = .file ∧
        sourceStart + blockCount ≤ source.blocks.length ∧
        ∃ inode ∈ inodes, inode.id = destinationInode ∧ inode.kind = .file ∧
        r.2.1 = (inode.blocks.drop destinationStart).take blockCount ∧
        ∃ a' inode', Spliced sb d d' a a' inodes entries inode inode'
          destinationStart (destinationStart + blockCount) r.1
          (((fileImages d source).drop sourceStart).take blockCount) := by
  apply Effect.atomic_lift_bind
  intro _ hcount
  rw [rejectIf_eq_ok] at hcount
  apply Effect.atomic_lift_bind
  intro _ hne
  rw [rejectIf_eq_ok] at hne
  apply Effect.atomic_lift_bind
  intro sourceEnd hsourceEnd
  rw [okOr_eq_ok, checkedAdd_eq_some] at hsourceEnd
  obtain ⟨_, rfl⟩ := hsourceEnd
  apply Effect.atomic_lift_bind
  intro destinationEnd hdestinationEnd
  rw [okOr_eq_ok, checkedAdd_eq_some] at hdestinationEnd
  obtain ⟨_, rfl⟩ := hdestinationEnd
  apply h.atomic_allocator
  apply h.atomic_inodes
  apply Effect.atomic_lift_bind
  intro source hsource
  obtain ⟨hsrc, hsid⟩ := findInode_eq_some (okOr_eq_ok.mp hsource)
  apply Effect.atomic_lift_bind
  intro inode hfind
  obtain ⟨hmem, hid⟩ := findInode_eq_some (okOr_eq_ok.mp hfind)
  apply Effect.atomic_lift_bind
  intro _ hkinds
  rw [rejectIf_eq_ok, not_or, not_ne_iff, not_ne_iff] at hkinds
  apply Effect.atomic_lift_bind
  intro _ hinside
  rw [rejectIf_eq_ok, not_lt] at hinside
  apply Effect.atomic_lift_bind
  intro _ hroom
  rw [rejectIf_eq_ok, not_lt] at hroom
  apply Effect.atomic_query_bind
  intro images himages
  rw [Nat.add_sub_cancel_left] at himages
  have hsnapshot := h.snapshot_eq hsrc himages
  obtain ⟨hlen, himagesNe⟩ := length_snapshot hsnapshot hinside hcount
  apply Effect.atomic_query_bind
  intro _ _
  apply Effect.atomic_lift_bind
  intro taken htaken
  obtain ⟨htakes, hfresh, hle⟩ := h.takes_of_allocateEach htaken
  apply Effect.atomic_lift_bind
  intro a' hfreed
  rw [liftAllocation_eq_ok] at hfreed
  -- the block list is what `replace_block_range` would leave
  have hcounts : taken.1.length =
      destinationStart + blockCount - destinationStart := by omega
  have hedit := PersistedInode.Valid.replaceBlockRange_same (h.validate hmem)
    hkinds.2 (Nat.le_add_right destinationStart blockCount) hroom hcounts
    (h.nodup_splice hmem htakes (Nat.le_add_right _ _))
  obtain ⟨hdata, hnodup, hdataNe⟩ :=
    zip_of_takes htakes (hfresh.trans hlen.symm) himagesNe hle
  apply (h.publishFileChanges hdata hnodup (.inl hdataNe)).bind
  intro report d' hbecame
  have hs := h.spliced hmem hkinds.2 hedit htakes hfreed
    (hfresh.trans hlen.symm) hbecame
  rw [hsnapshot] at hs
  refine ⟨_, _, rfl, hne, source, hsrc, hsid, hkinds.1, hinside, inode, hmem,
    hid, hkinds.2, ?_, a', _, hs⟩
  rw [Nat.add_sub_cancel_left]

/-- One block of a list, as a range. -/
theorem segment_one {blocks : List UInt64} {index : Nat} {block : UInt64}
    (hblock : blocks[index]? = some block) :
    (blocks.drop index).take (index + 1 - index) = [block] := by
  obtain ⟨hlt, rfl⟩ := List.getElem?_eq_some_iff.mp hblock
  rw [Nat.add_sub_cancel_left, List.drop_eq_getElem_cons hlt]
  rfl

/-- `remove_file_block_journaled` on a mounted disk. -/
theorem Mounted.removeFileBlock (h : Mounted d sb a inodes entries)
    (id : UInt64) (removeIndex : Nat) :
    Effect.Atomic (removeFileBlockJournaled sb id removeIndex) d
      fun r d' => ∃ inode ∈ inodes, inode.id = id ∧ inode.kind = .file ∧
        inode.blocks[removeIndex]? = some r.1 ∧
        ∃ a' inode', Spliced sb d d' a a' inodes entries inode inode'
          removeIndex (removeIndex + 1) [] [] := by
  apply h.atomic_allocator
  apply h.atomic_inodes
  apply h.atomic_entries
  apply atomic_findFile
  intro inode hmem hid hkind
  apply Effect.atomic_lift_bind
  intro block hblock
  rw [okOr_eq_ok] at hblock
  apply Effect.atomic_lift_bind
  intro edited hedit
  have hdisplaced := (PersistedInode.replaceBlockRange_eq_ok hkind
    (h.validate hmem) hedit).2.2.1
  rw [segment_one hblock] at hdisplaced
  apply Effect.atomic_lift_bind
  intro a' hfreed
  rw [liftAllocation_eq_ok] at hfreed
  apply (h.storeCreateMetadata _ _ _).atomic.bind
  intro report d' hbecame
  refine ⟨_, _, rfl, inode, hmem, hid, hkind, hblock, a', edited.2, ?_⟩
  apply h.spliced hmem hkind hedit (takes_nil a) _ rfl hbecame
  rw [hdisplaced]
  simp only [List.map_cons, List.map_nil, BlockAllocator.freeAll, hfreed]
  rfl

end Splices

/-! ## The writes of whole blocks -/

section Writes

variable {d d' : Disk} {sb : Superblock} {a : BlockAllocator}
  {inodes : List PersistedInode} {entries : List PersistedDirectoryEntry}
  {inode : PersistedInode} {writes : List (Nat × Block)}
  {changed : List (UInt64 × Block)}

/-- The indices of an accepted batch are distinct, and the file has blocks
there. -/
theorem changedBlocks_indices {σ : Type} [BlockDevice σ] {device : σ}
    {seen : List Nat}
    (h : changedBlocks device a inode seen writes = .ok changed) :
    (writes.map Prod.fst).Nodup ∧ ∀ w ∈ writes,
      w.1 ∉ seen ∧ w.1 < inode.blocks.length := by
  induction writes generalizing seen changed with
  | nil => simp
  | cons w writes ih =>
    obtain ⟨index, image⟩ := w
    simp only [changedBlocks, Except.bind_eq_ok, okOr_eq_ok,
      rejectIf_eq_ok] at h
    obtain ⟨_, hseen, block, hblock, _, _, _, _, _, _, rest, hrest, _⟩ := h
    obtain ⟨hnodup, hrange⟩ := ih hrest
    obtain ⟨hlt, _⟩ := List.getElem?_eq_some_iff.mp hblock
    rw [List.map_cons, List.nodup_cons, List.forall_mem_cons]
    refine ⟨⟨?_, hnodup⟩, ⟨hseen, hlt⟩, ?_⟩
    · intro hmem
      obtain ⟨w, hw, heq⟩ := List.mem_map.mp hmem
      apply (hrange w hw).1
      rw [heq]
      exact List.mem_cons_self
    · intro w hw
      obtain ⟨hnot, hinside⟩ := hrange w hw
      exact ⟨fun hmem => hnot (List.mem_cons_of_mem _ hmem), hinside⟩

/-- The contents of the blocks after the changed ones of a batch are written. -/
theorem fileImages_setAll
    (hchanged : changedBlocks d a inode [] writes = .ok changed)
    (hrange : ∀ block ∈ inode.blocks, block.toNat < d.size)
    (hnodup : inode.blocks.Nodup)
    (hcontents : ∀ block ∈ inode.blocks, d'.blocks block.toNat =
      overlay d.blocks (dataWrites changed) block.toNat) :
    fileImages d' inode = setAll (fileImages d inode) writes := by
  obtain ⟨hdistinct, hinside⟩ := changedBlocks_indices hchanged
  obtain ⟨hnamed, hblocks, hheld⟩ :=
    changedBlocks_eq_ok hchanged hrange hdistinct hnodup
  have hnames : (dataWrites changed).map Prod.fst =
      (changed.map Prod.fst).map UInt64.toNat := by
    simp [dataWrites, Function.comp_def]
  apply List.ext_getElem?
  intro i
  by_cases hi : i < inode.blocks.length
  case neg =>
    have hout : inode.blocks.length ≤ i := by omega
    rw [List.getElem?_eq_none (by rw [length_fileImages]; exact hout),
      List.getElem?_eq_none (by rw [length_setAll, length_fileImages]; exact hout)]
  have hblock : inode.blocks[i]? = some inode.blocks[i] :=
    List.getElem?_eq_getElem hi
  have hmem : inode.blocks[i] ∈ inode.blocks := List.getElem_mem hi
  have himage : ∀ f : Disk, (fileImages f inode)[i]? =
      some (f.blocks inode.blocks[i].toNat) := by
    intro f
    rw [fileImages, List.getElem?_map, hblock]
    rfl
  rw [himage d', hcontents _ hmem]
  by_cases hwritten : inode.blocks[i] ∈ changed.map Prod.fst
  · obtain ⟨w, hw, hfst⟩ := List.mem_map.mp hwritten
    obtain ⟨k, hk, hsome⟩ := hnamed w hw
    have hsame : k = i := by
      obtain ⟨hlt, _⟩ := List.getElem?_eq_some_iff.mp hsome
      apply (List.getElem?_inj hlt hnodup).mp
      rw [hsome, hblock, hfst]
    rw [hsame] at hk
    rw [getElem?_setAll_of_mem hdistinct hk (by rw [length_fileImages]; exact hi),
      ← hfst, overlay_of_nodup (v := w.2)]
    · rw [hnames]
      exact hblocks.map fun _ _ heq => UInt64.toNat_inj.mp heq
    · exact List.mem_map_of_mem (f := fun w => (w.1.toNat, w.2)) hw
  rw [overlay_of_notMem (by
    rw [hnames, List.mem_map_of_injective fun _ _ => UInt64.toNat_inj.mp]
    exact hwritten)]
  by_cases hindex : i ∈ writes.map Prod.fst
  · obtain ⟨w, hw, rfl⟩ := List.mem_map.mp hindex
    obtain ⟨other, hother, hkeeps⟩ := hheld w hw
    rw [hblock, Option.some.injEq] at hother
    rw [getElem?_setAll_of_mem hdistinct (x := w.2) hw
      (by rw [length_fileImages]; exact hi), hother,
      hkeeps (by rw [← hother]; exact hwritten)]
  · rw [getElem?_setAll_of_notMem hindex, himage d]

/-- The changed blocks of a batch, published. -/
theorem Mounted.publishBatch (h : Mounted d sb a inodes entries)
    (hmem : inode ∈ inodes) (hkind : inode.kind = .file)
    (hchanged : changedBlocks d a inode [] writes = .ok changed)
    (mismatch : String) :
    Effect.Atomic (publishChanges recoverJournalAndCheckpoint mismatch sb
        (dataWrites changed)) d fun _ d' =>
      Rewritten sb d d' a a inodes entries inode inode inode.blocks.length [] ∧
        fileImages d' inode = setAll (fileImages d inode) writes := by
  have hvalid := h.validate hmem
  have hnodup := PersistedInode.nodup_of_validate hvalid
  have hsize := h.size
  obtain ⟨htotal, hreserved⟩ := h.geometry
  have hflag : ∀ block ∈ inode.blocks, sb.reservedBlocks ≤ block.toNat ∧
      block.toNat < d.size := by
    intro block hblock
    have := BlockAllocator.range_of_flag (h.owned.data inode hmem block hblock)
    omega
  have hrange : ∀ block ∈ inode.blocks, block.toNat < d.size :=
    fun block hblock => (hflag block hblock).2
  obtain ⟨hnamed, hdistinct, _⟩ := changedBlocks_eq_ok hchanged hrange
    (changedBlocks_indices hchanged).1 hnodup
  have hnames : ∀ w ∈ changed, w.1 ∈ inode.blocks := by
    intro w hw
    obtain ⟨i, _, hsome⟩ := hnamed w hw
    exact List.mem_of_getElem? hsome
  apply (h.publishData (fun w hw => (hflag _ (hnames w hw)).1) hdistinct _).mono
  intro report d' hbecame
  have htables : Became sb d d' a
      ((setInode inodes inode).map PersistedInode.canonical) entries
      (dataWrites changed) := by
    rw [setInode_self h.nodup_ids hmem, h.canonical]
    exact hbecame
  refine ⟨?_, ?_⟩
  · exact h.rewritten hmem hkind rfl hkind le_rfl
      (by rw [List.take_length, List.append_nil])
      (validateInodeFields_canonical hvalid false) (takes_nil a)
      (by rw [List.drop_length]; rfl) hnames htables
  · exact fileImages_setAll hchanged hrange hnodup fun block hblock =>
      hbecame.contents _ (hflag block hblock).1

/-- **A batch of blocks** on a mounted disk: whatever blocks of the file it
names, all of them are in place. -/
theorem Mounted.writeFileBlockBatch (h : Mounted d sb a inodes entries)
    (id : UInt64) (writes : List (Nat × Block)) :
    Effect.Atomic (writeFileBlocksJournaled sb id writes) d fun _ d' =>
      ∃ inode ∈ inodes, inode.id = id ∧ inode.kind = .file ∧
        (writes.map Prod.fst).Nodup ∧
        (∀ w ∈ writes, w.1 < inode.blocks.length) ∧
        Rewritten sb d d' a a inodes entries inode inode inode.blocks.length
          [] ∧ fileImages d' inode = setAll (fileImages d inode) writes := by
  apply Effect.atomic_lift_bind
  intro _ _
  apply h.atomic_inodes
  apply atomic_findFile
  intro inode hmem hid hkind
  apply h.atomic_allocator
  apply Effect.atomic_query_bind
  intro changed hchanged
  obtain ⟨hdistinct, hinside⟩ := changedBlocks_indices hchanged
  apply (h.publishBatch hmem hkind hchanged _).mono
  intro report d' hpost
  exact ⟨inode, hmem, hid, hkind, hdistinct, fun w hw => (hinside w hw).2, hpost⟩

/-- Outside of a defect that no run shows, the message for it does not
matter. -/
theorem publishChanges_mismatch (hlt : ∀ w ∈ dataWrites changed,
    w.1 < U64_LIMIT) (first second : String) :
    publishChanges recoverJournalAndCheckpoint first sb (dataWrites changed) d =
      publishChanges recoverJournalAndCheckpoint second sb (dataWrites changed)
        d := by
  have hrun : ∀ mismatch, StoreAccepts sb d
      (transactionEntries (dataWrites changed)) → dataWrites changed ≠ [] →
      publishChanges recoverJournalAndCheckpoint mismatch sb
        (dataWrites changed) d = (.ok ⟨1, (dataWrites changed).length⟩,
          d.commit (Accepted.epochs sb (dataWrites changed))) := by
    intro mismatch hacc hne
    rcases publishChanges_cases recovers_recoverJournalAndCheckpoint mismatch sb
      d hlt with ⟨hnil, _⟩ | ⟨_, hno, _⟩ | ⟨_, h⟩
    · exact absurd hnil hne
    · exact absurd hacc hno
    · exact h
  by_cases hnil : dataWrites changed = []
  · rw [publishChanges, publishChanges, if_pos hnil, if_pos hnil]
  by_cases hacc : StoreAccepts sb d (transactionEntries (dataWrites changed))
  · rw [hrun first hacc hnil, hrun second hacc hnil]
  · have htransaction : JournalLog.transaction (dataWrites changed) =
        .ok (transactionEntries (dataWrites changed)) :=
      JournalLog.transaction_eq _
    rcases storeJournalImage_cases sb d
      (transactionEntries (dataWrites changed)) with ⟨_, e, herr⟩ | ⟨hyes, _⟩
    · rw [publishChanges, publishChanges, if_neg hnil, if_neg hnil, htransaction,
        Effect.lift_bind, Effect.lift_bind]
      simp only
      rw [Effect.bind_of_error herr, Effect.bind_of_error herr]
    · exact absurd hyes hacc

/-- **The write of one block is the batch of that block**, with the same answer
and the same error. -/
theorem Mounted.writeFileBlock_eq (h : Mounted d sb a inodes entries)
    (id : UInt64) (index : Nat) (data : Block) :
    writeFileBlockJournaled sb id index data d =
      writeFileBlocksJournaled sb id [(index, data)] d := by
  have hsize := h.size
  obtain ⟨htotal, hreserved⟩ := h.geometry
  have hlayout := sb.layout
  rw [writeFileBlockJournaled, Effect.query_bind, writeFileBlocksJournaled,
    rejectIf_of_not (List.cons_ne_nil _ _), Effect.lift_bind, resolveOwnedFileBlock,
    h.inodeTable, Except.ok_bind]
  simp only
  rw [h.inodes_bind]
  cases hfind : findInode inodes id with
  | none => rfl
  | some inode =>
    obtain ⟨hmem, rfl⟩ := findInode_eq_some hfind
    rw [okOr_some, Except.ok_bind, Effect.lift_bind]
    simp only
    by_cases hkind : inode.kind ≠ .file
    · rw [rejectIf_of hkind, Effect.lift_bind]
      rfl
    rw [rejectIf_of_not hkind, Except.ok_bind, Effect.lift_bind]
    simp only
    rw [h.allocator_bind, Effect.query_bind, changedBlocks,
      rejectIf_of_not List.not_mem_nil, Except.ok_bind]
    cases hblock : inode.blocks[index]? with
    | none => rfl
    | some block =>
      have hflag := h.owned.data inode hmem block (List.mem_of_getElem? hblock)
      have hrange := BlockAllocator.range_of_flag hflag
      have howned : liftAllocation (a.isOwned block.toNat) = .ok true := by
        rw [liftAllocation_eq_ok,
          BlockAllocator.isOwned_of_data hrange.1 hrange.2, hflag]
      have hread : readBlock d block.toNat = .ok (d.blocks block.toNat) :=
        Disk.readBlock_of_lt (by omega)
      have hset : rejectIf (true = false) (invalidData
          "file-data inode references an unowned block") = .ok () :=
        rejectIf_of_not (by decide)
      simp only [okOr_some, Except.ok_bind, h.allocator, howned, hset, hread,
        Except.pure_eq_ok, changedBlocks, journalBlockImage, Effect.query_bind]
      by_cases hsame : d.blocks block.toNat = data
      · rw [if_pos hsame, if_neg (not_not.mpr hsame)]
        rfl
      · rw [if_neg hsame, if_pos hsame]
        have hlt : ∀ w ∈ dataWrites [(block, data)], w.1 < U64_LIMIT := by
          intro w hw
          rw [List.mem_singleton.mp hw]
          exact block.toNat_lt
        exact publishChanges_mismatch hlt _ _

/-- `write_file_block_journaled` on a mounted disk. -/
theorem Mounted.writeFileBlock (h : Mounted d sb a inodes entries) (id : UInt64)
    (index : Nat) (data : Block) :
    Effect.Atomic (writeFileBlockJournaled sb id index data) d fun _ d' =>
      ∃ inode ∈ inodes, inode.id = id ∧ inode.kind = .file ∧
        index < inode.blocks.length ∧
        Rewritten sb d d' a a inodes entries inode inode inode.blocks.length
          [] ∧ fileImages d' inode = (fileImages d inode).set index data := by
  have hbatch := h.writeFileBlockBatch id [(index, data)]
  rw [Effect.Atomic, ← h.writeFileBlock_eq] at hbatch
  apply Effect.Atomic.mono (x := writeFileBlockJournaled sb id index data) hbatch
  intro report d' hpost
  rcases hpost with ⟨inode, hmem, hid, hkind, _, hinside, hrewritten, himages⟩
  exact ⟨inode, hmem, hid, hkind, hinside _ List.mem_cons_self, hrewritten,
    himages⟩

end Writes

end FilesystemLab
