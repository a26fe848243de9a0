import FilesystemLab.FileResize

/-!
# Edits of the block list of a file

The inserts of `file_insert.rs`, `file_insert_batch.rs` and
`file_insert_contiguous.rs`, `file_collapse.rs`, `file_replace_contiguous.rs`,
`file_clone_insert.rs` and `file_clone_splice.rs`, beside the append and the
replacement of `FileEdit`.

All of them take fresh blocks, free the displaced ones, put the fresh blocks in
the place of a range of the blocks of a file, and publish the tables with the
images of the fresh blocks.  `SplicedAt` is what they leave, and
`blockListEdit_splices` that each of them leaves it.
-/

namespace FilesystemLab

open WriteLog

/-! ## The operations -/

/-- The blocks of a run, as `first_block.checked_add(offset)` computes them from
`index` on; `overflow` is the message of the function that does so. -/
def runBlocks (overflow : String) (first : Nat) :
    (count index : Nat) → Result (List UInt64)
  | 0, _ => pure []
  | count + 1, index => do
    let block ← okOr (checkedAdd first index) (invalidData overflow)
    let rest ← runBlocks overflow first count (index + 1)
    pure (UInt64.ofNat block :: rest)

/-- The allocation of one contiguous run. -/
def allocateRun (overflow : String) (a : BlockAllocator) (count : Nat) :
    Result (List UInt64 × BlockAllocator) := do
  let run ← liftInput (a.allocateContiguous count)
  let blocks ← runBlocks overflow run.1 count 0
  pure (blocks, run.2)

/-- `FileBlockRange`. -/
structure FileBlockRange where
  inode : UInt64
  start : Nat
  blockCount : Nat

/-- `range_end` of `file_clone_splice.rs`. -/
def FileBlockRange.spliceEnd (range : FileBlockRange) (label : String) :
    Result Nat := do
  rejectIf (range.blockCount = 0) (invalidInput
    "clone splice requires non-empty source and destination ranges")
  okOr (checkedAdd range.start range.blockCount)
    (invalidInput ("clone splice " ++ label ++ " range overflows usize"))

/-- `validate_ranges` of `file_clone_splice.rs`: the source and its end, and the
destination and its end. -/
def validateSpliceRanges (inodes : List PersistedInode)
    (source destination : FileBlockRange) :
    Result (PersistedInode × Nat × PersistedInode × Nat) := do
  rejectIf (source.inode = destination.inode) (invalidInput
    "clone splice requires distinct source and destination inodes")
  let sourceEnd ← source.spliceEnd "source"
  let destinationEnd ← destination.spliceEnd "destination"
  let sourceInode ← okOr (findInode inodes source.inode)
    (invalidInput "clone source inode is missing")
  let destinationInode ← okOr (findInode inodes destination.inode)
    (invalidInput "clone destination inode is missing")
  rejectIf (sourceInode.kind ≠ .file ∨ destinationInode.kind ≠ .file)
    (invalidInput "clone source and destination must be regular files")
  rejectIf (sourceEnd > sourceInode.blocks.length)
    (invalidInput "clone source range exceeds existing logical blocks")
  rejectIf (destinationEnd > destinationInode.blocks.length)
    (invalidInput "clone destination range exceeds existing logical blocks")
  pure (sourceInode, sourceEnd, destinationInode, destinationEnd)

section Device

variable {σ : Type} [BlockDevice σ]

/-- `snapshot_owned_blocks`. -/
def snapshotOwnedBlocks (device : σ) (a : BlockAllocator) (unowned : String) :
    List UInt64 → Result (List Block)
  | [] => pure []
  | block :: blocks => do
    let owned ← liftAllocation (a.isOwned block.toNat)
    rejectIf (owned = false) (invalidData unowned)
    let image ← readBlock device block.toNat
    let rest ← snapshotOwnedBlocks device a unowned blocks
    pure (image :: rest)

/-- What the edits do after their checks: `take` allocates the fresh blocks, the
displaced ones are freed (an insert displaces none), and the fresh ones take
their place. -/
def spliceBlocks (label : String)
    (take : BlockAllocator → Result (List UInt64 × BlockAllocator))
    (sb : Superblock) (a : BlockAllocator) (inodes : List PersistedInode)
    (inode : PersistedInode) (start stop : Nat) (images : List Block) :
    DevM σ (List UInt64 × List UInt64 × RecoveryReport) := do
  let displaced := (inode.blocks.drop start).take (stop - start)
  let taken ← take a
  let freed ← liftAllocation (taken.2.freeAll (displaced.map UInt64.toNat))
  let edited ← inode.replaceBlockRange start stop taken.1
  let report ← publishFileChanges label sb freed (setInode inodes edited.2)
    (taken.1.zip images)
  pure (taken.1, displaced, report)

/-- The inserts after their checks of the arguments. -/
def insertBlocks (label : String)
    (take : BlockAllocator → Result (List UInt64 × BlockAllocator))
    (sb : Superblock) (id : UInt64) (insertIndex : Nat) (images : List Block) :
    DevM σ (List UInt64 × List UInt64 × RecoveryReport) := do
  let allocator ← Effect.query (loadAllocator · sb)
  let inodes ← Effect.query (loadInodeTable · sb)
  let inode ← okOr (findInode inodes id)
    (invalidInput "file insert target inode is missing")
  rejectIf (inode.kind ≠ .file)
    (invalidInput "file insert target must be a regular file")
  rejectIf (insertIndex > inode.blocks.length)
    (invalidInput "file insert logical index is beyond the end")
  spliceBlocks label take sb allocator inodes inode insertIndex insertIndex
    images

/-- `insert_file_block_journaled`. -/
def insertFileBlockJournaled (sb : Superblock) (id : UInt64)
    (insertIndex : Nat) (data : Block) : DevM σ (UInt64 × RecoveryReport) := do
  let r ← insertBlocks "file insert" (allocateEach · 1) sb id insertIndex [data]
  -- one block is allocated, and it is the one that is returned
  pure (r.1.headD 0, r.2.2)

/-- `insert_file_blocks_journaled`. -/
def insertFileBlocksJournaled (sb : Superblock) (id : UInt64)
    (insertIndex : Nat) (data : List Block) :
    DevM σ (List UInt64 × RecoveryReport) := do
  rejectIf (data = [])
    (invalidInput "multi-block insert requires at least one data block")
  let r ← insertBlocks "multi-block insert" (allocateEach · data.length) sb id
    insertIndex data
  pure (r.1, r.2.2)

/-- `insert_file_blocks_contiguous_journaled`. -/
def insertFileBlocksContiguousJournaled (sb : Superblock) (id : UInt64)
    (insertIndex : Nat) (data : List Block) :
    DevM σ (List UInt64 × RecoveryReport) := do
  rejectIf (data = []) (invalidInput
    "contiguous multi-block insert requires at least one data block")
  let r ← insertBlocks "contiguous multi-block insert"
    (allocateRun "contiguous allocation run overflowed block address space" ·
      data.length) sb id insertIndex data
  pure (r.1, r.2.2)

/-- `collapse_file_block_range_journaled`. -/
def collapseFileBlockRangeJournaled (sb : Superblock) (id : UInt64)
    (start blockCount : Nat) : DevM σ (List UInt64 × RecoveryReport) := do
  rejectIf (blockCount = 0)
    (invalidInput "file collapse range must remove at least one block")
  let stop ← okOr (checkedAdd start blockCount)
    (invalidInput "file collapse range index overflow")
  let allocator ← Effect.query (loadAllocator · sb)
  let inodes ← Effect.query (loadInodeTable · sb)
  let entries ← Effect.query (loadDirectoryTable · sb)
  let inode ← okOr (findInode inodes id)
    (invalidInput "file collapse target inode is missing")
  rejectIf (inode.kind ≠ .file)
    (invalidInput "file collapse target must be a regular file")
  rejectIf (start ≥ inode.blocks.length ∨ stop > inode.blocks.length)
    (invalidInput "file collapse range is outside the file")
  requireAllocatorOwned "file collapse block is not allocator-owned" allocator
    ((inode.blocks.drop start).take (stop - start))
  let edited ← inode.replaceBlockRange start stop []
  let freed ← liftAllocation (allocator.freeAll (edited.1.map UInt64.toNat))
  let report ← storeCreateMetadataJournaled sb freed
    (setInode inodes edited.2) entries
  pure (edited.1, report)

/-- `replace_file_blocks_contiguous_journaled`, with its `prepare_mapping`. -/
def replaceFileBlocksContiguousJournaled (sb : Superblock) (id : UInt64)
    (start removeCount : Nat) (replacements : List Block) :
    DevM σ (List UInt64 × List UInt64 × RecoveryReport) := do
  rejectIf (removeCount = 0 ∨ replacements = []) (invalidInput
    "contiguous block replacement requires non-empty removed and replacement ranges")
  let stop ← okOr (checkedAdd start removeCount) (invalidInput
    "contiguous block replacement destination range overflows usize")
  let allocator ← Effect.query (loadAllocator · sb)
  let inodes ← Effect.query (loadInodeTable · sb)
  let inode ← okOr (findInode inodes id)
    (invalidInput "contiguous replacement inode is missing")
  rejectIf (inode.kind ≠ .file) (invalidInput
    "contiguous block replacement target must be a regular file")
  rejectIf (stop > inode.blocks.length) (invalidInput
    "contiguous block replacement range exceeds existing logical blocks")
  requireAllocatorOwned
    "contiguous replacement displaced block is not allocator-owned" allocator
    ((inode.blocks.drop start).take (stop - start))
  spliceBlocks "contiguous block replacement"
    (allocateRun "contiguous replacement run overflowed block address space" ·
      replacements.length) sb allocator inodes inode start stop replacements

/-- `clone_file_blocks_insert_journaled`. -/
def cloneFileBlocksInsertJournaled (sb : Superblock) (sourceInode : UInt64)
    (sourceStart blockCount : Nat) (destinationInode : UInt64)
    (destinationLogicalIndex : Nat) :
    DevM σ (List UInt64 × RecoveryReport) := do
  rejectIf (blockCount = 0)
    (invalidInput "clone insertion requires at least one source block")
  let allocator ← Effect.query (loadAllocator · sb)
  let inodes ← Effect.query (loadInodeTable · sb)
  let source ← okOr (findInode inodes sourceInode)
    (invalidInput "clone source inode is missing")
  let destination ← okOr (findInode inodes destinationInode)
    (invalidInput "clone destination inode is missing")
  rejectIf (source.kind ≠ .file ∨ destination.kind ≠ .file)
    (invalidInput "clone source and destination must be regular files")
  let sourceEnd ← okOr (checkedAdd sourceStart blockCount)
    (invalidInput "clone source range overflows usize")
  rejectIf (sourceEnd > source.blocks.length)
    (invalidInput "clone source range exceeds existing logical blocks")
  rejectIf (destinationLogicalIndex > destination.blocks.length) (invalidInput
    "clone destination index exceeds existing logical block boundary")
  let snapshots ← Effect.query (snapshotOwnedBlocks · allocator
    "clone source block is not allocator-owned"
    ((source.blocks.drop sourceStart).take (sourceEnd - sourceStart)))
  let r ← spliceBlocks "clone insertion" (allocateEach · blockCount) sb
    allocator inodes destination destinationLogicalIndex
    destinationLogicalIndex snapshots
  pure (r.1, r.2.2)

/-- `clone_file_blocks_splice_journaled`. -/
def cloneFileBlocksSpliceJournaled (sb : Superblock)
    (source destination : FileBlockRange) :
    DevM σ (List UInt64 × List UInt64 × RecoveryReport) := do
  let allocator ← Effect.query (loadAllocator · sb)
  let inodes ← Effect.query (loadInodeTable · sb)
  let ranges ← validateSpliceRanges inodes source destination
  let snapshots ← Effect.query (snapshotOwnedBlocks · allocator
    "clone source block is not allocator-owned"
    ((ranges.1.blocks.drop source.start).take (ranges.2.1 - source.start)))
  let _ ← Effect.query (snapshotOwnedBlocks · allocator
    "clone destination block is not allocator-owned"
    ((ranges.2.2.1.blocks.drop destination.start).take
      (ranges.2.2.2 - destination.start)))
  spliceBlocks "clone splice" (allocateEach · source.blockCount) sb allocator
    inodes ranges.2.2.1 destination.start ranges.2.2.2 snapshots

end Device

/-! ## Runs and snapshots -/

/-- Blocks with ascending numbers without a gap. -/
def Consecutive (blocks : List UInt64) : Prop :=
  ∃ first, blocks.map UInt64.toNat = List.range' first blocks.length

theorem runBlocks_eq_ok {overflow : String} {first count index : Nat}
    {blocks : List UInt64}
    (h : runBlocks overflow first count index = .ok blocks) :
    blocks.map UInt64.toNat = List.range' (first + index) count := by
  induction count generalizing index blocks with
  | zero =>
    cases h
    rfl
  | succ count ih =>
    simp only [runBlocks, Except.bind_eq_ok, okOr_eq_ok, checkedAdd_eq_some,
      Except.pure_eq_ok, Except.ok.injEq] at h
    obtain ⟨_, ⟨hlt, rfl⟩, rest, hrest, rfl⟩ := h
    rw [List.map_cons, ih hrest, List.range'_succ, Nat.add_assoc]
    congr 1
    exact UInt64.toNat_ofNat_of_lt' hlt

/-- A run that is allocated is taken, and its blocks are consecutive. -/
theorem allocateRun_eq_ok {overflow : String} {a a' : BlockAllocator}
    {count : Nat} {blocks : List UInt64}
    (h : allocateRun overflow a count = .ok (blocks, a')) :
    Takes a a' blocks ∧ blocks.length = count ∧ Consecutive blocks := by
  simp only [allocateRun, Except.bind_eq_ok, liftInput_eq_ok,
    Except.pure_eq_ok, Except.ok.injEq, Prod.mk.injEq] at h
  obtain ⟨⟨first, mid⟩, hrun, blocks, hblocks, rfl, rfl⟩ := h
  have hnumbers : blocks.map UInt64.toNat = List.range' first count :=
    runBlocks_eq_ok hblocks
  have hlen : blocks.length = count := by
    rw [← List.length_map (f := UInt64.toNat), hnumbers, List.length_range']
  obtain ⟨htotal, hreserved, _, _, hfree, hflag⟩ :=
    BlockAllocator.allocateContiguous_eq_ok hrun
  have hmem : ∀ b, b ∈ blocks.map UInt64.toNat ↔
      first ≤ b ∧ b < first + count := by
    intro b
    rw [hnumbers, List.mem_range'_1]
  refine ⟨⟨htotal, hreserved, ?_, ?_, ?_⟩, hlen, first, ?_⟩
  · apply List.Nodup.of_map UInt64.toNat
    rw [hnumbers]
    exact List.nodup_range'
  · intro block hblock
    have hrange := (hmem _).mp (List.mem_map_of_mem hblock)
    exact hfree _ hrange.1 hrange.2
  · intro b
    rw [hflag, decide_eq_decide.mpr (hmem b)]
  · rw [hnumbers, hlen]

/-- A snapshot holds the images of its blocks. -/
theorem snapshotOwnedBlocks_eq_ok {d : Disk} {a : BlockAllocator}
    {unowned : String} {blocks : List UInt64} {images : List Block}
    (h : snapshotOwnedBlocks d a unowned blocks = .ok images)
    (hrange : ∀ block ∈ blocks, block.toNat < d.size) :
    images = blocks.map fun block => d.blocks block.toNat := by
  induction blocks generalizing images with
  | nil =>
    cases h
    rfl
  | cons block blocks ih =>
    rw [List.forall_mem_cons] at hrange
    simp only [snapshotOwnedBlocks, Except.bind_eq_ok, Except.pure_eq_ok,
      Except.ok.injEq, Disk.readBlock_of_lt hrange.1] at h
    obtain ⟨_, _, _, _, _, rfl, rest, hrest, rfl⟩ := h
    rw [ih hrest hrange.2, List.map_cons]

/-! ## The edits on a mounted disk -/

section Mounted

variable {d : Disk} {sb : Superblock} {a : BlockAllocator}
  {inodes : List PersistedInode} {entries : List PersistedDirectoryEntry}
  {inode : PersistedInode} {start stop : Nat} {images : List Block}
  {label : String}
  {take : BlockAllocator → Result (List UInt64 × BlockAllocator)}

/-- The fresh blocks that a splice takes are as many as its images. -/
def TakesEach (take : BlockAllocator → Result (List UInt64 × BlockAllocator))
    (a : BlockAllocator) (images : List Block) : Prop :=
  ∀ fresh mid, take a = .ok (fresh, mid) →
    Takes a mid fresh ∧ fresh.length = images.length

theorem AtRest.takesEach_allocateEach (h : AtRest d sb a inodes entries)
    {n : Nat} (hlen : n = images.length) :
    TakesEach (allocateEach · n) a images := by
  intro fresh mid hloop
  obtain ⟨htakes, hfresh, _⟩ := h.takes_of_allocateEach hloop
  exact ⟨htakes, hfresh.trans hlen⟩

theorem takesEach_allocateRun (overflow : String) :
    TakesEach (allocateRun overflow · images.length) a images := by
  intro fresh mid hrun
  obtain ⟨htakes, hlen, _⟩ := allocateRun_eq_ok hrun
  exact ⟨htakes, hlen⟩

/-- **What the edits do after their checks.** -/
theorem Mounted.spliceBlocks (h : Mounted d sb a inodes entries)
    (hmem : inode ∈ inodes) (hkind : inode.kind = .file) (hne : images ≠ [])
    (htake : TakesEach take a images) :
    Effect.Atomic (FilesystemLab.spliceBlocks label take sb a inodes inode start
        stop images) d
      fun r d' => (∃ mid, take a = .ok (r.1, mid)) ∧
        r.2.1 = (inode.blocks.drop start).take (stop - start) ∧
        ∃ a' inode', Spliced sb d d' a a' inodes entries inode inode' start stop
          r.1 images := by
  have hreserved := h.geometry.2
  apply Effect.atomic_lift_bind
  intro taken htaken
  obtain ⟨htakes, hlen⟩ := htake taken.1 taken.2 htaken
  apply Effect.atomic_lift_bind
  intro a' hfreed
  rw [liftAllocation_eq_ok] at hfreed
  apply Effect.atomic_lift_bind
  intro edited hedit
  have hle : ∀ block ∈ taken.1, sb.reservedBlocks ≤ block.toNat := by
    intro block hblock
    have := htakes.range hblock
    omega
  obtain ⟨hdata, hnodup, hne'⟩ := zip_of_takes htakes hlen hne hle
  apply (h.publishFileChanges hdata hnodup (.inl hne')).bind
  intro report d' hbecame
  refine ⟨_, _, rfl, ⟨taken.2, htaken⟩, rfl, a', edited.2, ?_⟩
  apply h.spliced hmem hkind hedit htakes _ hlen hbecame
  rw [(PersistedInode.replaceBlockRange_eq_ok hkind (h.validate hmem)
    hedit).2.2.1]
  exact hfreed

/-- The inserts on a mounted disk. -/
theorem Mounted.insertBlocks (h : Mounted d sb a inodes entries) (id : UInt64)
    (insertIndex : Nat) (hne : images ≠ []) (htake : TakesEach take a images) :
    Effect.Atomic (FilesystemLab.insertBlocks label take sb id insertIndex
        images) d
      fun r d' => ∃ inode ∈ inodes, inode.id = id ∧ inode.kind = .file ∧
        (∃ mid, take a = .ok (r.1, mid)) ∧
        ∃ a' inode', Spliced sb d d' a a' inodes entries inode inode'
          insertIndex insertIndex r.1 images := by
  apply h.atomic_allocator
  apply h.atomic_inodes
  apply atomic_findFile
  intro inode hmem hid hkind
  apply Effect.atomic_lift_bind
  intro _ _
  apply (h.spliceBlocks hmem hkind hne htake).mono
  intro r d' hpost
  exact ⟨inode, hmem, hid, hkind, hpost.1, hpost.2.2⟩

/-- `insert_file_block_journaled` on a mounted disk. -/
theorem Mounted.insertFileBlock (h : Mounted d sb a inodes entries)
    (id : UInt64) (insertIndex : Nat) (data : Block) :
    Effect.Atomic (insertFileBlockJournaled sb id insertIndex data) d
      fun r d' => ∃ inode ∈ inodes, inode.id = id ∧ inode.kind = .file ∧
        ∃ a' inode', Spliced sb d d' a a' inodes entries inode inode'
          insertIndex insertIndex [r.1] [data] := by
  have htake : TakesEach (allocateEach · 1) a [data] :=
    h.toAtRest.takesEach_allocateEach rfl
  apply (h.insertBlocks id insertIndex (List.cons_ne_nil data []) htake).bind
  intro r d' hpost
  rcases hpost with ⟨inode, hmem, hid, hkind, ⟨mid, hloop⟩, a', inode', hs⟩
  obtain ⟨block, hone⟩ := List.length_eq_one_iff.mp (htake _ _ hloop).2
  rw [hone] at hs
  refine ⟨_, _, rfl, inode, hmem, hid, hkind, a', inode', ?_⟩
  rw [hone]
  exact hs

/-- `insert_file_blocks_journaled` on a mounted disk. -/
theorem Mounted.insertFileBlocks (h : Mounted d sb a inodes entries)
    (id : UInt64) (insertIndex : Nat) (data : List Block) :
    Effect.Atomic (insertFileBlocksJournaled sb id insertIndex data) d
      fun r d' => ∃ inode ∈ inodes, inode.id = id ∧ inode.kind = .file ∧
        ∃ a' inode', Spliced sb d d' a a' inodes entries inode inode'
          insertIndex insertIndex r.1 data := by
  apply Effect.atomic_lift_bind
  intro _ hne
  rw [rejectIf_eq_ok] at hne
  apply (h.insertBlocks id insertIndex hne
    (h.toAtRest.takesEach_allocateEach rfl)).bind
  intro r d' hpost
  rcases hpost with ⟨inode, hmem, hid, hkind, _, hs⟩
  exact ⟨_, _, rfl, inode, hmem, hid, hkind, hs⟩

/-- `insert_file_blocks_contiguous_journaled` on a mounted disk. -/
theorem Mounted.insertFileBlocksContiguous (h : Mounted d sb a inodes entries)
    (id : UInt64) (insertIndex : Nat) (data : List Block) :
    Effect.Atomic (insertFileBlocksContiguousJournaled sb id insertIndex data) d
      fun r d' => Consecutive r.1 ∧
        ∃ inode ∈ inodes, inode.id = id ∧ inode.kind = .file ∧
        ∃ a' inode', Spliced sb d d' a a' inodes entries inode inode'
          insertIndex insertIndex r.1 data := by
  apply Effect.atomic_lift_bind
  intro _ hne
  rw [rejectIf_eq_ok] at hne
  apply (h.insertBlocks id insertIndex hne (takesEach_allocateRun _)).bind
  intro r d' hpost
  rcases hpost with ⟨inode, hmem, hid, hkind, ⟨mid, hrun⟩, hs⟩
  exact ⟨_, _, rfl, (allocateRun_eq_ok hrun).2.2, inode, hmem, hid, hkind, hs⟩

/-- `collapse_file_block_range_journaled` on a mounted disk. -/
theorem Mounted.collapseFileBlockRange (h : Mounted d sb a inodes entries)
    (id : UInt64) (start blockCount : Nat) :
    Effect.Atomic (collapseFileBlockRangeJournaled sb id start blockCount) d
      fun r d' => ∃ inode ∈ inodes, inode.id = id ∧ inode.kind = .file ∧
        r.1 = (inode.blocks.drop start).take blockCount ∧
        ∃ a' inode', Spliced sb d d' a a' inodes entries inode inode' start
          (start + blockCount) [] [] := by
  apply Effect.atomic_lift_bind
  intro _ _
  apply Effect.atomic_lift_bind
  intro stop hstop
  rw [okOr_eq_ok, checkedAdd_eq_some] at hstop
  obtain ⟨_, rfl⟩ := hstop
  apply h.atomic_allocator
  apply h.atomic_inodes
  apply h.atomic_entries
  apply atomic_findFile
  intro inode hmem hid hkind
  apply Effect.atomic_lift_bind
  intro _ _
  apply Effect.atomic_lift_bind
  intro _ _
  apply Effect.atomic_lift_bind
  intro edited hedit
  apply Effect.atomic_lift_bind
  intro a' hfreed
  rw [liftAllocation_eq_ok] at hfreed
  apply (h.storeCreateMetadata _ _ _).atomic.bind
  intro report d' hbecame
  have hreleased := (PersistedInode.replaceBlockRange_eq_ok hkind
    (h.validate hmem) hedit).2.2.1
  rw [Nat.add_sub_cancel_left] at hreleased
  exact ⟨_, _, rfl, inode, hmem, hid, hkind, hreleased, a', edited.2,
    h.spliced hmem hkind hedit (takes_nil a) hfreed rfl hbecame⟩

/-- `replace_file_blocks_contiguous_journaled` on a mounted disk. -/
theorem Mounted.replaceFileBlocksContiguous (h : Mounted d sb a inodes entries)
    (id : UInt64) (start removeCount : Nat) (replacements : List Block) :
    Effect.Atomic (replaceFileBlocksContiguousJournaled sb id start removeCount
        replacements) d
      fun r d' => Consecutive r.1 ∧
        ∃ inode ∈ inodes, inode.id = id ∧ inode.kind = .file ∧
        r.2.1 = (inode.blocks.drop start).take removeCount ∧
        ∃ a' inode', Spliced sb d d' a a' inodes entries inode inode' start
          (start + removeCount) r.1 replacements := by
  apply Effect.atomic_lift_bind
  intro _ hne
  rw [rejectIf_eq_ok, not_or] at hne
  apply Effect.atomic_lift_bind
  intro stop hstop
  rw [okOr_eq_ok, checkedAdd_eq_some] at hstop
  obtain ⟨_, rfl⟩ := hstop
  apply h.atomic_allocator
  apply h.atomic_inodes
  apply atomic_findFile
  intro inode hmem hid hkind
  apply Effect.atomic_lift_bind
  intro _ _
  apply Effect.atomic_lift_bind
  intro _ _
  apply (h.spliceBlocks hmem hkind hne.2 (takesEach_allocateRun _)).mono
  intro r d' hpost
  rcases hpost with ⟨⟨mid, hrun⟩, hdisplaced, hs⟩
  rw [Nat.add_sub_cancel_left] at hdisplaced
  exact ⟨(allocateRun_eq_ok hrun).2.2, inode, hmem, hid, hkind, hdisplaced, hs⟩

/-- The snapshot of a range of a file. -/
theorem Mounted.snapshot_eq (h : Mounted d sb a inodes entries)
    (hmem : inode ∈ inodes) {unowned : String} {count : Nat}
    (hsnapshot : snapshotOwnedBlocks d a unowned
      ((inode.blocks.drop start).take count) = .ok images) :
    images = ((fileImages d inode).drop start).take count := by
  rw [snapshotOwnedBlocks_eq_ok hsnapshot, fileImages, List.map_take,
    List.map_drop]
  intro block hblock
  have hrange := BlockAllocator.range_of_flag (h.owned.data inode hmem block
    (List.mem_of_mem_drop (List.mem_of_mem_take hblock)))
  have htotal := h.geometry.1
  have hsize := h.size
  omega

/-- `clone_file_blocks_insert_journaled` on a mounted disk. -/
theorem Mounted.cloneFileBlocksInsert (h : Mounted d sb a inodes entries)
    (sourceInode : UInt64) (sourceStart blockCount : Nat)
    (destinationInode : UInt64) (destinationLogicalIndex : Nat) :
    Effect.Atomic (cloneFileBlocksInsertJournaled sb sourceInode sourceStart
        blockCount destinationInode destinationLogicalIndex) d
      fun r d' => ∃ source ∈ inodes, source.id = sourceInode ∧
        source.kind = .file ∧
        sourceStart + blockCount ≤ source.blocks.length ∧
        ∃ inode ∈ inodes, inode.id = destinationInode ∧ inode.kind = .file ∧
        ∃ a' inode', Spliced sb d d' a a' inodes entries inode inode'
          destinationLogicalIndex destinationLogicalIndex r.1
          (((fileImages d source).drop sourceStart).take blockCount) := by
  apply Effect.atomic_lift_bind
  intro _ hcount
  rw [rejectIf_eq_ok] at hcount
  apply h.atomic_allocator
  apply h.atomic_inodes
  apply Effect.atomic_lift_bind
  intro source hsource
  obtain ⟨hsrc, hsid⟩ := findInode_eq_some (okOr_eq_ok.mp hsource)
  apply Effect.atomic_lift_bind
  intro inode hfind
  obtain ⟨hmem, hid⟩ := findInode_eq_some (okOr_eq_ok.mp hfind)
  apply Effect.atomic_lift_bind
  intro _ hkinds
  rw [rejectIf_eq_ok, not_or, not_ne_iff, not_ne_iff] at hkinds
  apply Effect.atomic_lift_bind
  intro stop hstop
  rw [okOr_eq_ok, checkedAdd_eq_some] at hstop
  obtain ⟨_, rfl⟩ := hstop
  apply Effect.atomic_lift_bind
  intro _ hinside
  rw [rejectIf_eq_ok, not_lt] at hinside
  apply Effect.atomic_lift_bind
  intro _ _
  apply Effect.atomic_query_bind
  intro images himages
  rw [Nat.add_sub_cancel_left] at himages
  have hsnapshot := h.snapshot_eq hsrc himages
  have hlen : images.length = blockCount := by
    rw [hsnapshot, List.length_take, List.length_drop, length_fileImages]
    omega
  have hne : images ≠ [] := by
    rw [← List.length_pos_iff]
    omega
  apply (h.spliceBlocks hmem hkinds.2 hne
    (h.toAtRest.takesEach_allocateEach hlen.symm)).bind
  intro r d' hpost
  rcases hpost with ⟨_, _, a', inode', hs⟩
  rw [hsnapshot] at hs
  exact ⟨_, _, rfl, source, hsrc, hsid, hkinds.1, hinside, inode, hmem, hid,
    hkinds.2, a', inode', hs⟩

/-- What the checks of a splice have found. -/
theorem validateSpliceRanges_eq_ok {source destination : FileBlockRange}
    {ranges : PersistedInode × Nat × PersistedInode × Nat}
    (hranges : validateSpliceRanges inodes source destination = .ok ranges) :
    source.inode ≠ destination.inode ∧ ranges.1 ∈ inodes ∧
      ranges.1.id = source.inode ∧ ranges.1.kind = .file ∧
      ranges.2.1 = source.start + source.blockCount ∧ source.blockCount ≠ 0 ∧
      source.start + source.blockCount ≤ ranges.1.blocks.length ∧
      ranges.2.2.1 ∈ inodes ∧ ranges.2.2.1.id = destination.inode ∧
      ranges.2.2.1.kind = .file ∧
      ranges.2.2.2 = destination.start + destination.blockCount := by
  simp only [validateSpliceRanges, FileBlockRange.spliceEnd, Except.bind_eq_ok,
    rejectIf_eq_ok, okOr_eq_ok, checkedAdd_eq_some, Except.pure_eq_ok,
    Except.ok.injEq, not_or, not_ne_iff, not_lt] at hranges
  obtain ⟨_, hne, _, ⟨_, hcount, _, rfl⟩, _, ⟨_, _, _, rfl⟩, src, hsrc, dst,
    hdst, _, hkinds, _, hinside, _, _, rfl⟩ := hranges
  obtain ⟨hmem, hid⟩ := findInode_eq_some hsrc
  obtain ⟨hmem', hid'⟩ := findInode_eq_some hdst
  exact ⟨hne, hmem, hid, hkinds.1, rfl, hcount, hinside, hmem', hid', hkinds.2,
    rfl⟩

/-- `clone_file_blocks_splice_journaled` on a mounted disk. -/
theorem Mounted.cloneFileBlocksSplice (h : Mounted d sb a inodes entries)
    (source destination : FileBlockRange) :
    Effect.Atomic (cloneFileBlocksSpliceJournaled sb source destination) d
      fun r d' => source.inode ≠ destination.inode ∧
        ∃ src ∈ inodes, src.id = source.inode ∧ src.kind = .file ∧
        source.start + source.blockCount ≤ src.blocks.length ∧
        ∃ inode ∈ inodes, inode.id = destination.inode ∧ inode.kind = .file ∧
        r.2.1 =
          (inode.blocks.drop destination.start).take destination.blockCount ∧
        ∃ a' inode', Spliced sb d d' a a' inodes entries inode inode'
          destination.start (destination.start + destination.blockCount) r.1
          (((fileImages d src).drop source.start).take source.blockCount) := by
  apply h.atomic_allocator
  apply h.atomic_inodes
  apply Effect.atomic_lift_bind
  intro ranges hranges
  obtain ⟨hdistinct, hsrc, hsid, hskind, hend, hcount, hinside, hmem, hid, hkind,
    hend'⟩ := validateSpliceRanges_eq_ok hranges
  apply Effect.atomic_query_bind
  intro images himages
  rw [hend, Nat.add_sub_cancel_left] at himages
  have hsnapshot := h.snapshot_eq hsrc himages
  have hlen : images.length = source.blockCount := by
    rw [hsnapshot, List.length_take, List.length_drop, length_fileImages]
    omega
  have hne : images ≠ [] := by
    rw [← List.length_pos_iff]
    omega
  apply Effect.atomic_query_bind
  intro _ _
  apply (h.spliceBlocks hmem hkind hne
    (h.toAtRest.takesEach_allocateEach hlen.symm)).mono
  intro r d' hpost
  rcases hpost with ⟨_, hdisplaced, a', inode', hs⟩
  rw [hend', Nat.add_sub_cancel_left] at hdisplaced
  rw [hend', hsnapshot] at hs
  exact ⟨hdistinct, ranges.1, hsrc, hsid, hskind, hinside, ranges.2.2.1, hmem,
    hid, hkind, hdisplaced, a', inode', hs⟩

end Mounted

/-! ## What an edit leaves -/

/-- The disk `d'` is `d` with the blocks `start..stop` of one file replaced by
fresh ones, which hold `images`: the owned blocks are those of before with the
fresh ones and without the displaced ones, and the end of the file is as far from
the end of its last block as before. -/
structure SplicedAt (sb : Superblock) (d d' : Disk)
    (inode inode' : PersistedInode) (start stop : Nat) (fresh : List UInt64)
    (images : List Block) : Prop extends OnlyFile sb d d' inode inode' where
  start_le : start ≤ stop
  stop_le : stop ≤ inode.blocks.length
  id_eq : inode'.id = inode.id
  kind_eq : inode'.kind = .file
  blocks_eq : inode'.blocks =
    inode.blocks.take start ++ fresh ++ inode.blocks.drop stop
  images_eq : fileImages d' inode' =
    (fileImages d inode).take start ++ images ++ (fileImages d inode).drop stop
  fresh_nodup : fresh.Nodup
  fresh_free : ∀ block ∈ fresh, MarkedOwned d sb block false
  owned_iff : ∀ block, MarkedOwned d' sb block true ↔ block ∈ fresh ∨
    MarkedOwned d sb block true ∧
      block ∉ (inode.blocks.drop start).take (stop - start)
  emptied : inode'.blocks = [] → inode'.byteLen = 0
  slack : inode'.blocks ≠ [] →
    inode'.byteLen.toNat + inode.tailSlack = inode'.blocks.length * BLOCK_SIZE
  kept : ∀ b, sb.reservedBlocks ≤ b → b ∉ fresh.map UInt64.toNat →
    d'.blocks b = d.blocks b

section Public

variable {d d' : Disk} {sb : Superblock} {a a' : BlockAllocator}
  {inodes : List PersistedInode} {entries : List PersistedDirectoryEntry}
  {inode inode' : PersistedInode} {start stop : Nat} {fresh : List UInt64}
  {images : List Block}

/-- A block that is neither in the file before nor after is owned as before. -/
theorem Spliced.flag_outside
    (hs : Spliced sb d d' a a' inodes entries inode inode' start stop fresh
      images) {block : UInt64} (hold : block ∉ inode.blocks)
    (hnew : block ∉ inode'.blocks) :
    a'.flag block.toNat = a.flag block.toNat := by
  have hinj : Function.Injective UInt64.toNat := fun _ _ => UInt64.toNat_inj.mp
  have hdisplaced : block.toNat ∉
      ((inode.blocks.drop start).take (stop - start)).map UInt64.toNat := by
    rw [List.mem_map_of_injective hinj]
    exact fun hmem => hold (List.mem_of_mem_drop (List.mem_of_mem_take hmem))
  have hfresh : block.toNat ∉ fresh.map UInt64.toNat := by
    rw [List.mem_map_of_injective hinj]
    intro hmem
    apply hnew
    rw [hs.blocks_eq]
    exact List.mem_append_left _ (List.mem_append_right _ hmem)
  rw [hs.flag, decide_eq_true hdisplaced, decide_eq_false hfresh, Bool.true_and,
    Bool.false_or]

/-- A file with a range replaced is all that changes. -/
theorem Spliced.onlyFile
    (hs : Spliced sb d d' a a' inodes entries inode inode' start stop fresh
      images) (h : Mounted d sb a inodes entries) :
    OnlyFile sb d d' inode inode' := by
  refine ⟨hs.mounted.superblock, hs.mounted.journal, ⟨_, hs.mounted.check⟩,
    ⟨inodes, h.inodeTable, (hs.fileChanged h).inodeTable h⟩, ?_, ?_, ?_⟩
  · rw [hs.mounted.directoryTable, h.directoryTable]
  · intro block hold hnew owned
    rw [hs.mounted.toAtRest.markedOwned_iff, h.toAtRest.markedOwned_iff,
      hs.flag_outside hold hnew]
  · intro b hb hnot
    apply hs.kept b hb
    intro hmem
    apply hnot
    rw [hs.blocks_eq, List.map_append, List.map_append]
    exact List.mem_append_left _ (List.mem_append_right _ hmem)

/-- **What an edit leaves, as a caller sees it.** -/
theorem Spliced.splicedAt
    (hs : Spliced sb d d' a a' inodes entries inode inode' start stop fresh
      images) (h : Mounted d sb a inodes entries) (hmem : inode ∈ inodes)
    (hkind : inode.kind = .file) :
    SplicedAt sb d d' inode inode' start stop fresh images := by
  have hinj : Function.Injective UInt64.toNat := fun _ _ => UInt64.toNat_inj.mp
  have hmem' := (hs.fileChanged h).mem_self h hmem
  refine ⟨hs.onlyFile h, hs.start_le, hs.stop_le, hs.id_eq, hs.kind_eq,
    hs.blocks_eq, hs.fileImages_eq h hmem, ?_, ?_, ?_, ?_, ?_, hs.kept⟩
  · have hnodup := PersistedInode.nodup_of_validate (hs.mounted.validate hmem')
    rw [hs.blocks_eq] at hnodup
    exact hnodup.of_append_left.of_append_right
  · intro block hblock
    exact h.toAtRest.markedOwned_iff.mpr (hs.free block hblock)
  · intro block
    rw [hs.mounted.toAtRest.markedOwned_iff, h.toAtRest.markedOwned_iff,
      hs.flag, Bool.and_eq_true, Bool.or_eq_true, decide_eq_true_eq,
      decide_eq_true_eq, List.mem_map_of_injective hinj,
      List.mem_map_of_injective hinj]
    constructor
    · intro hfacts
      rcases hfacts with ⟨hstays, hfresh | hset⟩
      · exact .inl hfresh
      · exact .inr ⟨hset, hstays⟩
    · intro hcases
      rcases hcases with hfresh | ⟨hset, hstays⟩
      · refine ⟨?_, .inl hfresh⟩
        -- a displaced block was owned, a fresh one was not
        intro hgone
        exact h.owned.notMem_fresh hmem hs.free (List.mem_of_mem_drop
          (List.mem_of_mem_take hgone)) hfresh
      · exact ⟨hstays, .inr hset⟩
  · intro hnil
    have hzero := hs.byteLen_eq
    rw [if_pos hnil] at hzero
    exact UInt64.toNat_inj.mp hzero
  · intro hcons
    have hone : 1 ≤ inode'.blocks.length := List.length_pos_iff.mpr hcons
    have hrow := Nat.mul_le_mul_right BLOCK_SIZE hone
    -- less than a block is unused
    have hslack : inode.tailSlack < BLOCK_SIZE := by
      have hlast := (h.fileEnd hmem hkind).1.capacity_lt
      have hsize := blockSize_pos
      unfold PersistedInode.tailSlack
      omega
    rw [hs.byteLen_eq, if_neg hcons]
    omega

end Public

/-! ## All edits of the block list -/

/-- The functions that edit the block list of a file, with their arguments. -/
inductive BlockListEdit where
  | append (id : UInt64) (data : List Block)
  | insert (id : UInt64) (insertIndex : Nat) (data : Block)
  | insertBatch (id : UInt64) (insertIndex : Nat) (data : List Block)
  | insertContiguous (id : UInt64) (insertIndex : Nat) (data : List Block)
  | collapse (id : UInt64) (start blockCount : Nat)
  | replace (id : UInt64) (start removeCount : Nat) (replacements : List Block)
  | replaceContiguous (id : UInt64) (start removeCount : Nat)
      (replacements : List Block)
  | cloneInsert (source : FileBlockRange) (destinationInode : UInt64)
      (destinationLogicalIndex : Nat)
  | cloneSplice (source destination : FileBlockRange)

namespace BlockListEdit

/-- The call, with the fresh blocks that it returns. -/
def run (sb : Superblock) : BlockListEdit → DevM Disk (List UInt64)
  | append id data => do
    let r ← appendFileBlocksJournaled sb id data
    pure r.1
  | insert id insertIndex data => do
    let r ← insertFileBlockJournaled sb id insertIndex data
    pure [r.1]
  | insertBatch id insertIndex data => do
    let r ← insertFileBlocksJournaled sb id insertIndex data
    pure r.1
  | insertContiguous id insertIndex data => do
    let r ← insertFileBlocksContiguousJournaled sb id insertIndex data
    pure r.1
  | collapse id start blockCount => do
    let _ ← collapseFileBlockRangeJournaled sb id start blockCount
    pure []
  | replace id start removeCount replacements => do
    let r ← replaceFileBlocksJournaled sb id start removeCount replacements
    pure r.1
  | replaceContiguous id start removeCount replacements => do
    let r ← replaceFileBlocksContiguousJournaled sb id start removeCount
      replacements
    pure r.1
  | cloneInsert source destinationInode destinationLogicalIndex => do
    let r ← cloneFileBlocksInsertJournaled sb source.inode source.start
      source.blockCount destinationInode destinationLogicalIndex
    pure r.1
  | cloneSplice source destination => do
    let r ← cloneFileBlocksSpliceJournaled sb source destination
    pure r.1

/-- The file that is edited. -/
def target : BlockListEdit → UInt64
  | append id _ | insert id _ _ | insertBatch id _ _ | insertContiguous id _ _
  | collapse id _ _ | replace id _ _ _ | replaceContiguous id _ _ _
  | cloneInsert _ id _ => id
  | cloneSplice _ destination => destination.inode

/-- The range of its blocks that is replaced, when it has `blocks` of them. -/
def range (blocks : Nat) : BlockListEdit → Nat × Nat
  | append _ _ => (blocks, blocks)
  | insert _ index _ | insertBatch _ index _ | insertContiguous _ index _
  | cloneInsert _ _ index => (index, index)
  | collapse _ start count | replace _ start count _
  | replaceContiguous _ start count _ => (start, start + count)
  | cloneSplice _ destination =>
    (destination.start, destination.start + destination.blockCount)

/-- The images that `source` has on a disk. -/
def Copied (d : Disk) (inodes : List PersistedInode) (source : FileBlockRange)
    (images : List Block) : Prop :=
  ∃ inode ∈ inodes, inode.id = source.inode ∧ inode.kind = .file ∧
    source.start + source.blockCount ≤ inode.blocks.length ∧
    images = ((fileImages d inode).drop source.start).take source.blockCount

/-- The images that come into the place of the range. -/
def Places (d : Disk) (inodes : List PersistedInode) (images : List Block) :
    BlockListEdit → Prop
  | append _ data | insertBatch _ _ data | insertContiguous _ _ data
  | replace _ _ _ data | replaceContiguous _ _ _ data => images = data
  | insert _ _ data => images = [data]
  | collapse _ _ _ => images = []
  | cloneInsert source _ _ | cloneSplice source _ =>
    Copied d inodes source images

/-- The edits whose fresh blocks are one run. -/
def contiguous : BlockListEdit → Bool
  | insertContiguous _ _ _ | replaceContiguous _ _ _ _ => true
  | _ => false

end BlockListEdit

section Edits

variable {d : Disk} {sb : Superblock} {a : BlockAllocator}
  {inodes : List PersistedInode} {entries : List PersistedDirectoryEntry}

/-- What an edit that ends leaves. -/
def BlockListEdit.Leaves (edit : BlockListEdit) (sb : Superblock) (d : Disk)
    (inodes : List PersistedInode) (fresh : List UInt64) (d' : Disk) : Prop :=
  ∃ inode ∈ inodes, inode.id = edit.target ∧ inode.kind = .file ∧
    ∃ inode' images, edit.Places d inodes images ∧
      SplicedAt sb d d' inode inode' (edit.range inode.blocks.length).1
        (edit.range inode.blocks.length).2 fresh images ∧
      (edit.contiguous = true → Consecutive fresh)

/-- **Every edit of a block list is a splice**, on a mounted disk. -/
theorem Mounted.blockListEdit (h : Mounted d sb a inodes entries)
    (edit : BlockListEdit) :
    Effect.Atomic (edit.run sb) d (edit.Leaves sb d inodes) := by
  cases edit with
  | append id data =>
    apply (h.appendFileBlocks id data).bind
    intro r d' hpost
    rcases hpost with ⟨inode, hmem, hid, hkind, a', inode', hs⟩
    exact ⟨_, _, rfl, inode, hmem, hid, hkind, inode', data, rfl,
      hs.splicedAt h hmem hkind, nofun⟩
  | insert id insertIndex data =>
    apply (h.insertFileBlock id insertIndex data).bind
    intro r d' hpost
    rcases hpost with ⟨inode, hmem, hid, hkind, a', inode', hs⟩
    exact ⟨_, _, rfl, inode, hmem, hid, hkind, inode', [data], rfl,
      hs.splicedAt h hmem hkind, nofun⟩
  | insertBatch id insertIndex data =>
    apply (h.insertFileBlocks id insertIndex data).bind
    intro r d' hpost
    rcases hpost with ⟨inode, hmem, hid, hkind, a', inode', hs⟩
    exact ⟨_, _, rfl, inode, hmem, hid, hkind, inode', data, rfl,
      hs.splicedAt h hmem hkind, nofun⟩
  | insertContiguous id insertIndex data =>
    apply (h.insertFileBlocksContiguous id insertIndex data).bind
    intro r d' hpost
    rcases hpost with ⟨hrun, inode, hmem, hid, hkind, a', inode', hs⟩
    exact ⟨_, _, rfl, inode, hmem, hid, hkind, inode', data, rfl,
      hs.splicedAt h hmem hkind, fun _ => hrun⟩
  | collapse id start blockCount =>
    apply (h.collapseFileBlockRange id start blockCount).bind
    intro r d' hpost
    rcases hpost with ⟨inode, hmem, hid, hkind, _, a', inode', hs⟩
    exact ⟨_, _, rfl, inode, hmem, hid, hkind, inode', [], rfl,
      hs.splicedAt h hmem hkind, nofun⟩
  | replace id start removeCount replacements =>
    apply (h.replaceFileBlocks id start removeCount replacements).bind
    intro r d' hpost
    rcases hpost with ⟨inode, hmem, hid, hkind, a', inode', hs⟩
    exact ⟨_, _, rfl, inode, hmem, hid, hkind, inode', replacements, rfl,
      hs.splicedAt h hmem hkind, nofun⟩
  | replaceContiguous id start removeCount replacements =>
    apply (h.replaceFileBlocksContiguous id start removeCount replacements).bind
    intro r d' hpost
    rcases hpost with ⟨hrun, inode, hmem, hid, hkind, _, a', inode', hs⟩
    exact ⟨_, _, rfl, inode, hmem, hid, hkind, inode', replacements, rfl,
      hs.splicedAt h hmem hkind, fun _ => hrun⟩
  | cloneInsert source destinationInode destinationLogicalIndex =>
    apply (h.cloneFileBlocksInsert source.inode source.start source.blockCount
      destinationInode destinationLogicalIndex).bind
    intro r d' hpost
    rcases hpost with ⟨src, hsrc, hsid, hskind, hinside, inode, hmem, hid,
      hkind, a', inode', hs⟩
    exact ⟨_, _, rfl, inode, hmem, hid, hkind, inode', _,
      ⟨src, hsrc, hsid, hskind, hinside, rfl⟩, hs.splicedAt h hmem hkind, nofun⟩
  | cloneSplice source destination =>
    apply (h.cloneFileBlocksSplice source destination).bind
    intro r d' hpost
    rcases hpost with ⟨_, src, hsrc, hsid, hskind, hinside, inode, hmem, hid,
      hkind, _, a', inode', hs⟩
    exact ⟨_, _, rfl, inode, hmem, hid, hkind, inode', _,
      ⟨src, hsrc, hsid, hskind, hinside, rfl⟩, hs.splicedAt h hmem hkind, nofun⟩

end Edits

/-- **Every edit of a block list is a splice with exact ownership.**  On a device
that the check accepts with an empty journal, an edit that succeeds leaves the
blocks and images of the file with the range replaced, where a clone places what
its source held before; and one that fails changes nothing. -/
theorem blockListEdit_splices {d d' : Disk} {sb : Superblock}
    {report : FsckReport} {inodes : List PersistedInode} {edit : BlockListEdit}
    {result : Result (List UInt64)}
    (hsb : readSuperblock d = .ok sb)
    (hjournal : loadJournalImage d sb = .ok [])
    (hcheck : checkDevice d = .ok report)
    (hload : loadInodeTable d sb = .ok inodes)
    (hrun : edit.run sb d = (result, d')) :
    match result with
    | .error _ => d' = d
    | .ok fresh => edit.Leaves sb d inodes fresh d' := by
  obtain ⟨a, inodes', entries, h⟩ := exists_mounted hsb hjournal hcheck
  rw [h.inodeTable, Except.ok.injEq] at hload
  subst hload
  have hatomic := h.blockListEdit edit
  cases result with
  | error error =>
    have hsame := hatomic.of_error (congrArg Prod.fst hrun)
    rw [hrun] at hsame
    exact hsame
  | ok fresh => exact hatomic.of_ok hrun

/-! ## A sample insert -/

/-- The only block of the second file of the sample is cloned in front of
itself. -/
theorem cloneInsert_filesDisk (contents : Nat → Block) :
    ∃ fresh d', (BlockListEdit.cloneInsert ⟨3, 0, 1⟩ 3 0).run treeSuperblock
      (filesDisk contents) = (.ok fresh, d') := by
  have h := mounted_filesDisk contents
  have hmem : ⟨3, .file, [11], 10⟩ ∈ filesInodes := by decide
  obtain ⟨mid, hloop⟩ : ∃ mid, allocateEach filesAllocator 1 =
      .ok ([12], mid) := by
    have hfirst : (allocateEach filesAllocator 1).map Prod.fst = .ok [12] := rfl
    obtain ⟨⟨_, mid⟩, htaken, rfl⟩ := Except.map_eq_ok.mp hfirst
    exact ⟨mid, htaken⟩
  obtain ⟨htakes, _, _⟩ := h.takes_of_allocateEach hloop
  have hsnapshot : snapshotOwnedBlocks (filesDisk contents) filesAllocator
      "clone source block is not allocator-owned" [11] =
        .ok [(filesDisk contents).blocks 11] := by
    have howned : filesAllocator.isOwned (11 : UInt64).toNat = .ok true := rfl
    have hread : readBlock (filesDisk contents) (11 : UInt64).toNat =
        .ok ((filesDisk contents).blocks 11) :=
      Disk.readBlock_of_lt (show 11 < 16 by decide)
    rw [snapshotOwnedBlocks, liftAllocation_eq_ok.mpr howned, Except.ok_bind,
      rejectIf_of_not (by decide), Except.ok_bind, hread]
    rfl
  have hset : setInode filesInodes ⟨3, .file, [12, 11], 4106⟩ =
      [⟨1, .directory, [], 0⟩, ⟨2, .file, [10], 4096⟩,
        ⟨3, .file, [12, 11], 4106⟩] := by decide
  obtain ⟨image, himage⟩ : ∃ image,
      inodeFormat.encodeImage treeSuperblock.inodeBlocks
        (setInode filesInodes ⟨3, .file, [12, 11], 4106⟩) = .ok image := by
    rw [hset]
    exact exists_inodeImage (by decide) (by decide) (by decide) (by decide)
      (by decide)
  obtain ⟨report, d', hrun⟩ := @AtRest.publishFileChanges_tree _ _ mid _ _ _
    "clone insertion" [(12, (filesDisk contents).blocks 11)] image h.toAtRest
    htakes.totalBlocks htakes.reservedBlocks himage (by
      intro w hw
      rw [List.mem_singleton.mp hw]
      show treeSuperblock.reservedBlocks ≤ (12 : UInt64).toNat ∧
        (12 : UInt64).toNat < treeSuperblock.totalBlocks
      decide) (Nat.le_add_left 1 2) (.inl (by simp))
  have hfind : ∀ message, okOr (findInode filesInodes 3) (invalidInput message) =
      .ok ⟨3, .file, [11], 10⟩ := fun _ => rfl
  have hedit : PersistedInode.replaceBlockRange ⟨3, .file, [11], 10⟩ 0 0 [12] =
      .ok ([], ⟨3, .file, [12, 11], 4106⟩) := by decide
  have hsplice : spliceBlocks "clone insertion" (allocateEach · 1)
      treeSuperblock filesAllocator filesInodes ⟨3, .file, [11], 10⟩ 0 0
      [(filesDisk contents).blocks 11] (filesDisk contents) =
        (.ok ([12], [], report), d') := by
    have hfreed : liftAllocation (mid.freeAll ((List.take (0 - 0)
        (List.drop 0 [(11 : UInt64)])).map UInt64.toNat)) = .ok mid := rfl
    have hpublish : publishFileChanges "clone insertion" treeSuperblock mid
        (setInode filesInodes ⟨3, .file, [12, 11], 4106⟩)
        ([12].zip [(filesDisk contents).blocks 11]) (filesDisk contents) =
          (.ok report, d') := hrun
    rw [spliceBlocks, Effect.lift_bind_of_ok hloop,
      Effect.lift_bind_of_ok hfreed, Effect.lift_bind_of_ok hedit,
      Effect.bind_of_ok hpublish]
    rfl
  have hend : okOr (checkedAdd 0 1)
      (invalidInput "clone source range overflows usize") = .ok 1 := rfl
  obtain ⟨r, hcall⟩ : ∃ r, cloneFileBlocksInsertJournaled treeSuperblock 3 0 1
      3 0 (filesDisk contents) = (.ok r, d') := by
    refine ⟨([12], report), ?_⟩
    rw [cloneFileBlocksInsertJournaled,
      Effect.lift_bind_of_ok (a := ()) (rejectIf_of_not (by decide)),
      h.allocator_bind, h.inodes_bind, Effect.lift_bind_of_ok (hfind _),
      Effect.lift_bind_of_ok (hfind _),
      Effect.lift_bind_of_ok (a := ()) (rejectIf_of_not (by decide)),
      Effect.lift_bind_of_ok hend,
      Effect.lift_bind_of_ok (a := ()) (rejectIf_of_not (by decide)),
      Effect.lift_bind_of_ok (a := ()) (rejectIf_of_not (by decide)),
      Effect.query_bind_of_ok (q := fun d : Disk => snapshotOwnedBlocks d
        filesAllocator "clone source block is not allocator-owned"
        (List.take (1 - 0) (List.drop 0 [11]))) hsnapshot,
      Effect.bind_of_ok hsplice]
    rfl
  refine ⟨r.1, d', ?_⟩
  rw [BlockListEdit.run]
  exact Effect.bind_of_ok hcall

theorem blockListEdit_splices_filesDisk :
    ∃ (fresh : List UInt64) (d' : Disk),
      (BlockListEdit.cloneInsert ⟨3, 0, 1⟩ 3 0).run treeSuperblock
        (filesDisk fun _ => Block.zero) = (.ok fresh, d') ∧
      (BlockListEdit.cloneInsert ⟨3, 0, 1⟩ 3 0).Leaves treeSuperblock
        (filesDisk fun _ => Block.zero) filesInodes fresh d' := by
  have h := mounted_filesDisk fun _ => Block.zero
  obtain ⟨fresh, d', hrun⟩ := cloneInsert_filesDisk fun _ => Block.zero
  exact ⟨fresh, d', hrun, blockListEdit_splices h.superblock h.journal h.check
    h.inodeTable hrun⟩

end FilesystemLab
