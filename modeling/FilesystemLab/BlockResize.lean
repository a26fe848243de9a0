import FilesystemLab.FileResize

/-!
# Resizing a file to a number of blocks

`truncate_file_to_zero_journaled` and `truncate_file_last_block_journaled` of
`truncate_tx.rs`, and the path functions of `path_grow.rs` for block counts.

Both directions keep the distance of the end from the end of the last block.  A
cut leaves in the last block, behind the new end, bytes that were read before;
a growth moves the end past them.  So a growth exposes what the last block holds
behind the end, and is clean exactly if that is zero: `resizeRun_keeps_when`.
The functions for byte counts clear the last block and are always clean.
-/

namespace FilesystemLab

open Bytes

/-! ## The operations -/

section Device

variable {σ : Type} [BlockDevice σ]

/-- `truncate_file_to_zero_journaled`. -/
def truncateFileToZeroJournaled (sb : Superblock) (id : UInt64) :
    DevM σ RecoveryReport := do
  let allocator ← Effect.query (loadAllocator · sb)
  let inodes ← Effect.query (loadInodeTable · sb)
  let entries ← Effect.query (loadDirectoryTable · sb)
  let inode ← okOr (findInode inodes id)
    (invalidInput "truncate target inode is missing")
  rejectIf (inode.kind ≠ .file)
    (invalidInput "truncate target must be a regular file")
  if inode.blocks = [] then pure RecoveryReport.default
  else do
    let edited ← inode.replaceBlockRange 0 inode.blocks.length []
    let freed ← liftAllocation (allocator.freeAll (edited.1.map UInt64.toNat))
    storeCreateMetadataJournaled sb freed (setInode inodes edited.2) entries

/-- `truncate_file_last_block_journaled`. -/
def truncateFileLastBlockJournaled (sb : Superblock) (id : UInt64) :
    DevM σ (UInt64 × RecoveryReport) := do
  let allocator ← Effect.query (loadAllocator · sb)
  let inodes ← Effect.query (loadInodeTable · sb)
  let entries ← Effect.query (loadDirectoryTable · sb)
  let inode ← okOr (findInode inodes id)
    (invalidInput "truncate target inode is missing")
  rejectIf (inode.kind ≠ .file)
    (invalidInput "truncate target must be a regular file")
  let block ← okOr inode.blocks.getLast?
    (invalidInput "truncate target already has zero blocks")
  let lastIndex := inode.blocks.length - 1
  let edited ← inode.replaceBlockRange lastIndex (lastIndex + 1) []
  let freed ← liftAllocation (allocator.free block.toNat)
  let report ← storeCreateMetadataJournaled sb freed
    (setInode inodes edited.2) entries
  pure (block, report)

/-- `grow_file_at_path_to_blocks_journaled`.  A vector of blocks has at most
`isize::MAX` bytes. -/
def growFileAtPathToBlocksJournaled (sb : Superblock) (path : String)
    (targetBlocks : Nat) : DevM σ (List UInt64 × RecoveryReport) := do
  let metadata ← metadataAtPath sb path
  rejectIf (metadata.kind ≠ .file)
    (invalidInput "pathname zero-growth target must be a regular file")
  rejectIf (targetBlocks ≤ metadata.logicalBlocks) (invalidInput
    "pathname zero-growth target must exceed current logical-block count")
  let additional := targetBlocks - metadata.logicalBlocks
  rejectIf (additional * BLOCK_SIZE ≥ 2 ^ 63) (invalidInput
    "pathname zero-growth block count exceeds staging capacity")
  appendFileBlocksJournaled sb metadata.inodeId
    (List.replicate additional Block.zero)

/-- `resize_file_at_path_to_blocks_journaled`. -/
def resizeFileAtPathToBlocksJournaled (sb : Superblock) (path : String)
    (targetBlocks : Nat) : DevM σ (List UInt64 × RecoveryReport) := do
  let metadata ← metadataAtPath sb path
  rejectIf (metadata.kind ≠ .file)
    (invalidInput "pathname block-resize target must be a regular file")
  if targetBlocks > metadata.logicalBlocks then
    growFileAtPathToBlocksJournaled sb path targetBlocks
  else if targetBlocks < metadata.logicalBlocks then
    truncateFileToBlocksJournaled sb metadata.inodeId targetBlocks
  else
    Effect.fail (invalidInput
      "pathname block-resize target must differ from current logical-block count")

end Device

/-! ## The operations on a mounted disk -/

section Operations

variable {d d' : Disk} {sb : Superblock} {a : BlockAllocator}
  {inodes : List PersistedInode} {entries : List PersistedDirectoryEntry}
  {inode : PersistedInode} {path : String}

/-- `truncate_file_to_zero_journaled` on a mounted disk. -/
theorem Mounted.truncateFileToZero (h : Mounted d sb a inodes entries)
    (id : UInt64) :
    Effect.Atomic (truncateFileToZeroJournaled sb id) d fun _ d' =>
      ∃ inode ∈ inodes, inode.id = id ∧ inode.kind = .file ∧
        (inode.blocks = [] ∧ d' = d ∨ ∃ a' inode', Spliced sb d d' a a' inodes
          entries inode inode' 0 inode.blocks.length [] []) := by
  apply h.atomic_allocator
  apply h.atomic_inodes
  apply h.atomic_entries
  apply atomic_findFile
  intro inode hmem hid hkind
  by_cases hempty : inode.blocks = []
  · rw [if_pos hempty]
    exact Effect.atomic_pure ⟨inode, hmem, hid, hkind, .inl ⟨hempty, rfl⟩⟩
  rw [if_neg hempty]
  apply Effect.atomic_lift_bind
  rintro ⟨displaced, inode'⟩ hedit
  apply Effect.atomic_lift_bind
  intro a' hfreed
  rw [liftAllocation_eq_ok] at hfreed
  apply (h.storeCreateMetadata _ _ _).atomic.mono
  intro report d' hbecame
  exact ⟨inode, hmem, hid, hkind, .inr ⟨a', inode',
    h.spliced hmem hkind hedit (takes_nil a) hfreed rfl hbecame⟩⟩

/-- `truncate_file_last_block_journaled` on a mounted disk. -/
theorem Mounted.truncateFileLastBlock (h : Mounted d sb a inodes entries)
    (id : UInt64) :
    Effect.Atomic (truncateFileLastBlockJournaled sb id) d fun _ d' =>
      ∃ inode ∈ inodes, inode.id = id ∧ inode.kind = .file ∧ ∃ a' inode',
        Spliced sb d d' a a' inodes entries inode inode'
          (inode.blocks.length - 1) inode.blocks.length [] [] := by
  apply h.atomic_allocator
  apply h.atomic_inodes
  apply h.atomic_entries
  apply atomic_findFile
  intro inode hmem hid hkind
  apply Effect.atomic_lift_bind
  intro block hlast
  rw [okOr_eq_ok] at hlast
  have hne : inode.blocks ≠ [] := by
    intro hnil
    rw [hnil] at hlast
    cases hlast
  have hpos := List.length_pos_iff.mpr hne
  apply Effect.atomic_lift_bind
  rintro ⟨displaced, inode'⟩ hedit
  rw [Nat.sub_add_cancel hpos] at hedit
  -- the block that is freed is the one that the inode gives up
  have hdisplaced : displaced = [block] := by
    have hrange := (PersistedInode.replaceBlockRange_eq_ok hkind
      (h.validate hmem) hedit).2.2.1
    rw [hrange, Nat.sub_sub_self hpos, List.drop_length_sub_one hne,
      List.getLast_eq_iff_getLast?_eq_some hne |>.mpr hlast]
    rfl
  apply Effect.atomic_lift_bind
  intro a' hfree
  rw [liftAllocation_eq_ok] at hfree
  have hfreed : a.freeAll (displaced.map UInt64.toNat) = .ok a' := by
    rw [hdisplaced, List.map_singleton, BlockAllocator.freeAll, hfree]
    rfl
  apply (h.storeCreateMetadata _ _ _).atomic.bind
  intro report d' hbecame
  exact ⟨_, _, rfl, inode, hmem, hid, hkind, a', inode',
    h.spliced hmem hkind hedit (takes_nil a) hfreed rfl hbecame⟩

/-- `grow_file_at_path_to_blocks_journaled` on a mounted disk. -/
theorem Mounted.growFileAtPathToBlocks (h : Mounted d sb a inodes entries)
    (hmem : inode ∈ inodes)
    (hpath : resolvePathFollowingSymlinks d sb path = .ok inode.id)
    (targetBlocks : Nat) :
    Effect.Atomic (growFileAtPathToBlocksJournaled sb path targetBlocks) d
      fun r d' => inode.blocks.length < targetBlocks ∧ ∃ a' inode',
        Spliced sb d d' a a' inodes entries inode inode' inode.blocks.length
          inode.blocks.length r.1
          (List.replicate (targetBlocks - inode.blocks.length) Block.zero) := by
  apply Effect.atomic_bind_of_ok (h.metadataAtPath hmem hpath)
  apply Effect.atomic_lift_bind
  intro _ _
  apply Effect.atomic_lift_bind
  intro _ hlt
  rw [rejectIf_eq_ok, not_le] at hlt
  apply Effect.atomic_lift_bind
  intro _ _
  apply (h.appendFileBlocks inode.id _).mono
  intro r d' hpost
  rcases hpost with ⟨other, hother, hid, _, hs⟩
  have heq := List.inj_on_of_nodup_map h.nodup_ids hother hmem hid
  subst heq
  exact ⟨hlt, hs⟩

/-- `resize_file_at_path_to_blocks_journaled` on a mounted disk. -/
theorem Mounted.resizeFileAtPathToBlocks (h : Mounted d sb a inodes entries)
    (hmem : inode ∈ inodes)
    (hpath : resolvePathFollowingSymlinks d sb path = .ok inode.id)
    (targetBlocks : Nat) :
    Effect.Atomic (resizeFileAtPathToBlocksJournaled sb path targetBlocks) d
      fun r d' => ∃ a' inode',
        inode.blocks.length < targetBlocks ∧
            Spliced sb d d' a a' inodes entries inode inode'
              inode.blocks.length inode.blocks.length r.1
              (List.replicate (targetBlocks - inode.blocks.length) Block.zero) ∨
          targetBlocks < inode.blocks.length ∧
            Spliced sb d d' a a' inodes entries inode inode' targetBlocks
              inode.blocks.length [] [] := by
  apply Effect.atomic_bind_of_ok (h.metadataAtPath hmem hpath)
  apply Effect.atomic_lift_bind
  intro _ _
  show Effect.Atomic (if targetBlocks > inode.blocks.length then _ else _) d _
  by_cases hgrow : targetBlocks > inode.blocks.length
  · rw [if_pos hgrow]
    apply (h.growFileAtPathToBlocks hmem hpath targetBlocks).mono
    intro r d' hpost
    rcases hpost with ⟨hlt, a', inode', hs⟩
    exact ⟨a', inode', .inl ⟨hlt, hs⟩⟩
  rw [if_neg hgrow]
  by_cases hshrink : targetBlocks < inode.blocks.length
  · rw [show (inode.metadata entries).logicalBlocks = inode.blocks.length from
      rfl, if_pos hshrink]
    apply (h.truncateFileToBlocks inode.id targetBlocks).mono
    intro r d' hpost
    rcases hpost with ⟨other, hother, hid, _, hcase⟩
    have heq := List.inj_on_of_nodup_map h.nodup_ids hother hmem hid
    subst heq
    rcases hcase with ⟨hsame, _⟩ | ⟨_, a', inode', hs⟩
    · exact absurd hsame (Nat.ne_of_lt hshrink)
    · exact ⟨a', inode', .inr ⟨hshrink, hs⟩⟩
  · rw [show (inode.metadata entries).logicalBlocks = inode.blocks.length from
      rfl, if_neg hshrink]
    exact Effect.atomic_lift_error

end Operations

/-! ## The contents after a resize -/

/-- What a resize promises of the bytes before and after it: one that grows
appends zeros, and one that does not leaves a prefix. -/
structure KeepsBytes (c c' : List UInt8) : Prop where
  grown : c.length < c'.length → c' = c ++ zeros (c'.length - c.length)
  cut : c'.length ≤ c.length → c' = c.take c'.length

section Keeps

variable {c tail : List UInt8} {n : Nat}

theorem keepsBytes_take (c : List UInt8) (n : Nat) : KeepsBytes c (c.take n) := by
  constructor
  · intro hlt
    rw [List.length_take] at hlt
    omega
  · intro _
    rw [List.length_take, List.take_eq_take_iff]
    omega

theorem keepsBytes_refl (c : List UInt8) : KeepsBytes c c := by
  have hall := keepsBytes_take c c.length
  rw [List.take_length] at hall
  exact hall

theorem keepsBytes_append_zeros (c : List UInt8) (n : Nat) :
    KeepsBytes c (c ++ zeros n) := by
  constructor
  · intro _
    rw [List.length_append, length_zeros, Nat.add_sub_cancel_left]
  · intro hle
    rw [List.length_append, length_zeros] at hle
    rw [Nat.eq_zero_of_not_pos (by omega : ¬ 0 < n), zeros_zero,
      List.append_nil, List.take_length]

/-- A growth over a tail appends zeros exactly if the tail is zero. -/
theorem keepsBytes_append_iff (hlen : 0 < tail.length + n) :
    KeepsBytes c (c ++ tail ++ zeros n) ↔ ∀ byte ∈ tail, byte = 0 := by
  have hlength : (c ++ tail ++ zeros n).length =
      c.length + (tail.length + n) := by
    simp
  constructor
  · intro hkeeps
    have heq := hkeeps.grown (by omega)
    rw [hlength, Nat.add_sub_cancel_left, List.append_assoc,
      List.append_cancel_left_eq, ← zeros_append] at heq
    have htail := (List.append_inj heq (length_zeros _).symm).1
    intro byte hbyte
    rw [htail] at hbyte
    exact List.eq_of_mem_replicate hbyte
  · intro hzero
    have htail : tail = zeros tail.length := List.eq_replicate_of_mem hzero
    rw [htail, List.append_assoc, zeros_append]
    exact keepsBytes_append_zeros c _

end Keeps

namespace Spliced

variable {d d' : Disk} {sb : Superblock} {a a' : BlockAllocator}
  {inodes : List PersistedInode} {entries : List PersistedDirectoryEntry}
  {inode inode' : PersistedInode} {start stop count : Nat} {fresh : List UInt64}
  {images : List Block}

/-- The bytes of the blocks are those of before with the range replaced. -/
theorem fileSpace_eq
    (hs : Spliced sb d d' a a' inodes entries inode inode' start stop fresh
      images) (h : Mounted d sb a inodes entries) (hmem : inode ∈ inodes) :
    fileSpace d' inode' = (fileSpace d inode).take (start * BLOCK_SIZE) ++
      images.flatMap Block.bytes ++
        (fileSpace d inode).drop (stop * BLOCK_SIZE) := by
  rw [fileSpace, hs.fileImages_eq h hmem, List.flatMap_append,
    List.flatMap_append, fileSpace, take_flatMap_pieces Block.length_eq,
    drop_flatMap_pieces Block.length_eq]

/-- **A cut to fewer blocks** leaves a prefix. -/
theorem fileBytes_cut
    (hs : Spliced sb d d' a a' inodes entries inode inode' start
      inode.blocks.length [] []) (h : Mounted d sb a inodes entries)
    (hmem : inode ∈ inodes) (hkind : inode.kind = .file) :
    KeepsBytes (fileBytes d inode) (fileBytes d' inode') := by
  have hend := (h.fileEnd hmem hkind).1
  have hle := hend.le_capacity
  have hspace := length_fileSpace d inode
  have hstart := hs.start_le
  have hlen : inode'.blocks.length = start := by
    rw [hs.blocks_eq, List.append_nil, List.drop_length, List.append_nil,
      List.length_take]
    omega
  have hroom : start * BLOCK_SIZE ≤ inode.blocks.length * BLOCK_SIZE :=
    Nat.mul_le_mul_right _ hstart
  have hbyteLen := hs.byteLen_eq
  rw [hlen, PersistedInode.tailSlack] at hbyteLen
  -- the new end is before the old one and inside the blocks that stay
  have hbefore : inode'.byteLen.toNat ≤ inode.byteLen.toNat ∧
      inode'.byteLen.toNat ≤ start * BLOCK_SIZE := by
    split at hbyteLen <;> omega
  have hbytes : fileBytes d' inode' =
      (fileBytes d inode).take inode'.byteLen.toNat := by
    rw [fileBytes_eq_take, hs.fileSpace_eq h hmem, fileBytes_eq_take,
      List.flatMap_nil, List.append_nil, List.drop_eq_nil_of_le (by omega),
      List.append_nil, List.take_take, List.take_take,
      Nat.min_eq_left hbefore.2, Nat.min_eq_left hbefore.1]
  rw [hbytes]
  exact keepsBytes_take _ _

/-- **A growth by zero blocks** appends zeros exactly if there are only zeros
behind the old end. -/
theorem fileBytes_grown_iff
    (hs : Spliced sb d d' a a' inodes entries inode inode' inode.blocks.length
      inode.blocks.length fresh (List.replicate count Block.zero))
    (h : Mounted d sb a inodes entries) (hmem : inode ∈ inodes)
    (hkind : inode.kind = .file) (hcount : 0 < count) :
    KeepsBytes (fileBytes d inode) (fileBytes d' inode') ↔
      ∀ byte ∈ fileTail d inode, byte = 0 := by
  have hend := (h.fileEnd hmem hkind).1
  have hle := hend.le_capacity
  have hlt := hend.capacity_lt
  have hspace := length_fileSpace d inode
  have hfresh : fresh.length = count := by
    have := congrArg List.length hs.written
    rwa [List.length_map, List.length_replicate] at this
  have hlen : inode'.blocks.length = inode.blocks.length + count := by
    rw [hs.blocks_eq, List.take_length, List.drop_length, List.append_nil,
      List.length_append, hfresh]
  have hne : inode'.blocks ≠ [] := by
    intro hnil
    rw [hnil] at hlen
    simp at hlen
    omega
  have hbyteLen := hs.byteLen_eq
  rw [if_neg hne, hlen, Nat.add_mul, PersistedInode.tailSlack] at hbyteLen
  have hblock : BLOCK_SIZE ≤ count * BLOCK_SIZE :=
    Nat.le_mul_of_pos_left _ hcount
  have hzeros : (List.replicate count Block.zero).flatMap Block.bytes =
      zeros (count * BLOCK_SIZE) := by
    rw [List.flatMap_replicate]
    exact List.flatten_replicate_replicate
  have htail : (fileTail d inode).length =
      inode.blocks.length * BLOCK_SIZE - inode.byteLen.toNat := by
    rw [fileTail, List.length_drop, hspace]
  have hbytes : fileBytes d' inode' = fileBytes d inode ++ fileTail d inode ++
      zeros (count * BLOCK_SIZE - (fileTail d inode).length) := by
    rw [htail, fileBytes_eq_take, fileBytes_eq_take, fileTail,
      List.take_append_drop, hs.fileSpace_eq h hmem, hzeros,
      List.drop_eq_nil_of_le (by omega), List.append_nil, ← hspace,
      List.take_length, List.take_append, List.take_of_length_le (by omega),
      take_zeros, hbyteLen, hspace]
    congr 2
    omega
  rw [hbytes]
  exact keepsBytes_append_iff (by omega)

end Spliced

/-! ## Runs of resizes -/

/-- The functions that resize a file, with their arguments.  The file is named
by its identifier or by a path. -/
inductive ResizeCall where
  | truncateToBlocks (targetBlocks : Nat)
  | truncateLastBlock
  | truncateToZero
  | truncateToBytes (targetBytes : UInt64)
  | growToBytes (targetBytes : UInt64)
  | growPathToBlocks (path : String) (targetBlocks : Nat)
  | resizePathToBlocks (path : String) (targetBlocks : Nat)
  | growPathToBytes (path : String) (targetBytes : UInt64)
  | resizePathToBytes (path : String) (targetBytes : UInt64)

namespace ResizeCall

/-- A call on the file with an identifier. -/
def run (sb : Superblock) (id : UInt64) : ResizeCall → DevM Disk Unit
  | truncateToBlocks targetBlocks => do
    let _ ← truncateFileToBlocksJournaled sb id targetBlocks
    pure ()
  | truncateLastBlock => do
    let _ ← truncateFileLastBlockJournaled sb id
    pure ()
  | truncateToZero => do
    let _ ← truncateFileToZeroJournaled sb id
    pure ()
  | truncateToBytes targetBytes => do
    let _ ← truncateFileToBytesJournaled sb id targetBytes
    pure ()
  | growToBytes targetBytes => do
    let _ ← growFileToBytesJournaled sb id targetBytes
    pure ()
  | growPathToBlocks path targetBlocks => do
    let _ ← growFileAtPathToBlocksJournaled sb path targetBlocks
    pure ()
  | resizePathToBlocks path targetBlocks => do
    let _ ← resizeFileAtPathToBlocksJournaled sb path targetBlocks
    pure ()
  | growPathToBytes path targetBytes => do
    let _ ← growFileAtPathToBytesJournaled sb path targetBytes
    pure ()
  | resizePathToBytes path targetBytes => do
    let _ ← resizeFileAtPathToBytesJournaled sb path targetBytes
    pure ()

/-- The path of a call, if it has one, leads to the file. -/
def On (d : Disk) (sb : Superblock) (id : UInt64) : ResizeCall → Prop
  | growPathToBlocks path _ | resizePathToBlocks path _
  | growPathToBytes path _ | resizePathToBytes path _ =>
    resolvePathFollowingSymlinks d sb path = .ok id
  | _ => True

/-- A call that asks for more blocks than the file has. -/
def GrowsBlocks (inode : PersistedInode) : ResizeCall → Prop
  | growPathToBlocks _ targetBlocks | resizePathToBlocks _ targetBlocks =>
    inode.blocks.length < targetBlocks
  | _ => False

end ResizeCall

/-- The file with an identifier. -/
def fileWithId (d : Disk) (sb : Superblock) (id : UInt64) :
    Option PersistedInode :=
  match loadInodeTable d sb with
  | .ok inodes => findInode inodes id
  | .error _ => none

/-- A call with the disks before and after it. -/
structure ResizeStep where
  before : Disk
  call : ResizeCall
  result : Result Unit
  after : Disk

/-- A run of calls on one file; a call that fails does not end the run. -/
def resizeSteps (sb : Superblock) (id : UInt64) :
    Disk → List ResizeCall → List ResizeStep
  | _, [] => []
  | d, call :: calls =>
    { before := d, call, result := (call.run sb id d).1
      after := (call.run sb id d).2 } ::
        resizeSteps sb id (call.run sb id d).2 calls

/-- A successful step keeps what a resize promises of the contents. -/
def ResizeStep.Keeps (sb : Superblock) (id : UInt64) (step : ResizeStep) :
    Prop :=
  step.result = .ok () → ∃ inode inode',
    fileWithId step.before sb id = some inode ∧
      fileWithId step.after sb id = some inode' ∧
      KeepsBytes (fileBytes step.before inode) (fileBytes step.after inode')

/-- A step that asks for more blocks finds nothing but zeros behind the end. -/
def ResizeStep.Clean (sb : Superblock) (id : UInt64) (step : ResizeStep) :
    Prop :=
  ∀ inode, fileWithId step.before sb id = some inode →
    step.call.GrowsBlocks inode →
    ∀ byte ∈ fileTail step.before inode, byte = 0

section Run

variable {d d' : Disk} {sb : Superblock} {a a' : BlockAllocator}
  {inodes : List PersistedInode} {entries : List PersistedDirectoryEntry}
  {inode inode' : PersistedInode}

theorem AtRest.fileWithId (h : AtRest d sb a inodes entries)
    (hmem : inode ∈ inodes) :
    FilesystemLab.fileWithId d sb inode.id = some inode := by
  rw [FilesystemLab.fileWithId, h.inodeTable]
  exact findInode_of_mem h.nodup_ids hmem

/-- A call leads to the file after the file has changed. -/
theorem FileChanged.on (hx : FileChanged sb d d' a' inodes entries inode inode')
    (h : Mounted d sb a inodes entries) (hmem : inode ∈ inodes)
    (hkind : inode.kind = .file) {call : ResizeCall}
    (hon : call.On d sb inode.id) : call.On d' sb inode.id := by
  cases call with
  | growPathToBlocks path _ => exact hx.resolves h hmem hkind hon
  | resizePathToBlocks path _ => exact hx.resolves h hmem hkind hon
  | growPathToBytes path _ => exact hx.resolves h hmem hkind hon
  | resizePathToBytes path _ => exact hx.resolves h hmem hkind hon
  | _ => trivial

/-- What a call leaves: the same disk, or another version of the file, with the
contents as promised exactly if the call is clean. -/
def ResizeLeaves (sb : Superblock) (d d' : Disk) (inodes : List PersistedInode)
    (entries : List PersistedDirectoryEntry) (inode : PersistedInode)
    (call : ResizeCall) : Prop :=
  (d' = d ∧ ¬ call.GrowsBlocks inode) ∨ ∃ a' inode',
    FileChanged sb d d' a' inodes entries inode inode' ∧
      (KeepsBytes (fileBytes d inode) (fileBytes d' inode') ↔
        (call.GrowsBlocks inode → ∀ byte ∈ fileTail d inode, byte = 0))

/-- A resize to a number of bytes keeps what a resize promises. -/
theorem Resized.keepsBytes {keep : Nat} {fresh : List UInt64} {target : UInt64}
    (hr : Resized sb d d' a a' inodes entries inode inode' keep fresh target)
    (h : Mounted d sb a inodes entries) (hmem : inode ∈ inodes)
    (hkind : inode.kind = .file) :
    KeepsBytes (fileBytes d inode) (fileBytes d' inode') := by
  have hlen := length_fileBytes d (h.fileEnd hmem hkind).1
  rw [hr.fileBytes_eq h hmem hkind]
  by_cases hle : inode.byteLen.toNat ≤ target.toNat
  · rw [List.take_of_length_le (by omega)]
    exact keepsBytes_append_zeros _ _
  · rw [Nat.sub_eq_zero_of_le (by omega), zeros_zero, List.append_nil]
    exact keepsBytes_take _ _

theorem Resized.leaves {keep : Nat} {fresh : List UInt64} {target : UInt64}
    (hr : Resized sb d d' a a' inodes entries inode inode' keep fresh target)
    (h : Mounted d sb a inodes entries) (hmem : inode ∈ inodes)
    (hkind : inode.kind = .file) {call : ResizeCall}
    (hcall : ¬ call.GrowsBlocks inode) :
    ResizeLeaves sb d d' inodes entries inode call :=
  .inr ⟨a', inode', hr.toFileChanged,
    iff_of_true (hr.keepsBytes h hmem hkind) fun hgrows => absurd hgrows hcall⟩

theorem Spliced.leaves_cut {start : Nat}
    (hs : Spliced sb d d' a a' inodes entries inode inode' start
      inode.blocks.length [] []) (h : Mounted d sb a inodes entries)
    (hmem : inode ∈ inodes) (hkind : inode.kind = .file) {call : ResizeCall}
    (hcall : ¬ call.GrowsBlocks inode) :
    ResizeLeaves sb d d' inodes entries inode call :=
  .inr ⟨a', inode', hs.fileChanged h,
    iff_of_true (hs.fileBytes_cut h hmem hkind) fun hgrows =>
      absurd hgrows hcall⟩

theorem Spliced.leaves_grown {count : Nat} {fresh : List UInt64}
    (hs : Spliced sb d d' a a' inodes entries inode inode' inode.blocks.length
      inode.blocks.length fresh (List.replicate count Block.zero))
    (h : Mounted d sb a inodes entries) (hmem : inode ∈ inodes)
    (hkind : inode.kind = .file) (hcount : 0 < count) {call : ResizeCall}
    (hcall : call.GrowsBlocks inode) :
    ResizeLeaves sb d d' inodes entries inode call :=
  .inr ⟨a', inode', hs.fileChanged h,
    (hs.fileBytes_grown_iff h hmem hkind hcount).trans
      (imp_iff_right hcall).symm⟩

/-- **One call on a mounted disk**: it fails without a trace, or leaves what
`ResizeLeaves` says. -/
theorem Mounted.resizeCall (h : Mounted d sb a inodes entries)
    (hmem : inode ∈ inodes) (hkind : inode.kind = .file) (call : ResizeCall)
    (hon : call.On d sb inode.id) :
    Effect.Atomic (call.run sb inode.id) d fun _ d' =>
      ResizeLeaves sb d d' inodes entries inode call := by
  have hunique : ∀ other ∈ inodes, other.id = inode.id → other = inode :=
    fun other hother hid =>
      List.inj_on_of_nodup_map h.nodup_ids hother hmem hid
  cases call with
  | truncateToBlocks targetBlocks =>
    apply (h.truncateFileToBlocks inode.id targetBlocks).bind
    intro r d' hpost
    rcases hpost with ⟨other, hother, hid, _, hcase⟩
    have heq := hunique other hother hid
    subst heq
    refine ⟨(), d', rfl, ?_⟩
    rcases hcase with ⟨_, hsame⟩ | ⟨_, a', inode', hs⟩
    · exact .inl ⟨hsame, id⟩
    · exact hs.leaves_cut h hmem hkind id
  | truncateLastBlock =>
    apply (h.truncateFileLastBlock inode.id).bind
    intro r d' hpost
    rcases hpost with ⟨other, hother, hid, _, a', inode', hs⟩
    have heq := hunique other hother hid
    subst heq
    exact ⟨(), d', rfl, hs.leaves_cut h hmem hkind id⟩
  | truncateToZero =>
    apply (h.truncateFileToZero inode.id).bind
    intro r d' hpost
    rcases hpost with ⟨other, hother, hid, _, hcase⟩
    have heq := hunique other hother hid
    subst heq
    rcases hcase with ⟨_, hsame⟩ | ⟨a', inode', hs⟩
    · exact ⟨(), d', rfl, .inl ⟨hsame, id⟩⟩
    · exact ⟨(), d', rfl, hs.leaves_cut h hmem hkind id⟩
  | truncateToBytes targetBytes =>
    apply (h.truncateFileToBytes inode.id targetBytes).bind
    intro r d' hpost
    rcases hpost with ⟨other, hother, hid, _, hcase⟩
    have heq := hunique other hother hid
    subst heq
    refine ⟨(), d', rfl, ?_⟩
    rcases hcase with ⟨_, hsame⟩ | ⟨_, _, a', inode', hr⟩
    · exact .inl ⟨hsame, id⟩
    · exact hr.leaves h hmem hkind id
  | growToBytes targetBytes =>
    apply (h.growFileToBytes inode.id targetBytes).bind
    intro r d' hpost
    rcases hpost with ⟨other, hother, hid, _, _, a', inode', hr⟩
    have heq := hunique other hother hid
    subst heq
    exact ⟨(), d', rfl, hr.leaves h hmem hkind id⟩
  | growPathToBlocks path targetBlocks =>
    apply (h.growFileAtPathToBlocks hmem hon targetBlocks).bind
    intro r d' hpost
    rcases hpost with ⟨hlt, a', inode', hs⟩
    exact ⟨(), d', rfl,
      hs.leaves_grown h hmem hkind (Nat.sub_pos_of_lt hlt) hlt⟩
  | resizePathToBlocks path targetBlocks =>
    apply (h.resizeFileAtPathToBlocks hmem hon targetBlocks).bind
    intro r d' hpost
    rcases hpost with ⟨a', inode', ⟨hlt, hs⟩ | ⟨hlt, hs⟩⟩
    · exact ⟨(), d', rfl,
        hs.leaves_grown h hmem hkind (Nat.sub_pos_of_lt hlt) hlt⟩
    · exact ⟨(), d', rfl, hs.leaves_cut h hmem hkind (Nat.lt_asymm hlt)⟩
  | growPathToBytes path targetBytes =>
    apply (h.growFileAtPathToBytes hmem hkind hon targetBytes).bind
    intro r d' hpost
    rcases hpost with ⟨a', inode', hr⟩
    exact ⟨(), d', rfl, hr.leaves h hmem hkind id⟩
  | resizePathToBytes path targetBytes =>
    apply (h.resizeFileAtPathToBytes hmem hkind hon targetBytes).bind
    intro r d' hpost
    rcases hpost with ⟨a', inode', ⟨_, _, hr⟩ | ⟨_, hr⟩⟩
    · exact ⟨(), d', rfl, hr.leaves h hmem hkind id⟩
    · exact ⟨(), d', rfl, hr.leaves h hmem hkind id⟩

/-- One step of a run on a mounted disk. -/
theorem Mounted.resizeStep (h : Mounted d sb a inodes entries)
    (hmem : inode ∈ inodes) (hkind : inode.kind = .file) {call : ResizeCall}
    (hon : call.On d sb inode.id) {result : Result Unit}
    (hrun : call.run sb inode.id d = (result, d')) :
    (d' = d ∨ ∃ a' inode', FileChanged sb d d' a' inodes entries inode inode') ∧
      (ResizeStep.Clean sb inode.id ⟨d, call, result, d'⟩ →
        ResizeStep.Keeps sb inode.id ⟨d, call, result, d'⟩) ∧
      (result = .ok () → ResizeStep.Keeps sb inode.id ⟨d, call, result, d'⟩ →
        ResizeStep.Clean sb inode.id ⟨d, call, result, d'⟩) := by
  have hatomic := h.resizeCall hmem hkind call hon
  have hbefore := h.toAtRest.fileWithId hmem
  cases result with
  | error error =>
    have hsame := hatomic.of_error (congrArg Prod.fst hrun)
    rw [hrun] at hsame
    refine ⟨.inl hsame, ?_, ?_⟩
    · intro _ hok
      cases hok
    · intro hok
      cases hok
  | ok _ =>
    rcases hatomic.of_ok hrun with ⟨rfl, hcall⟩ | ⟨a', inode', hx, hiff⟩
    · refine ⟨.inl rfl, ?_, ?_⟩
      · intro _ _
        exact ⟨inode, inode, hbefore, hbefore, keepsBytes_refl _⟩
      · intro _ _ other hother hgrows
        rw [hbefore, Option.some.injEq] at hother
        rw [← hother] at hgrows
        exact absurd hgrows hcall
    · have hafter := hx.mounted.toAtRest.fileWithId (hx.mem_self h hmem)
      rw [hx.id_eq] at hafter
      refine ⟨.inr ⟨a', inode', hx⟩, ?_, ?_⟩
      · intro hclean _
        exact ⟨inode, inode', hbefore, hafter, hiff.mpr (hclean inode hbefore)⟩
      · intro _ hkeeps other hother
        rw [hbefore, Option.some.injEq] at hother
        obtain ⟨old, new, hold, hnew, hkept⟩ := hkeeps rfl
        rw [hbefore, Option.some.injEq] at hold
        rw [hafter, Option.some.injEq] at hnew
        rw [← hold, ← hnew] at hkept
        rw [← hother]
        exact hiff.mp hkept

/-- **A run on a mounted disk**, by induction over its calls: every step finds
the disk mounted and the file in place. -/
theorem Mounted.resizeSteps (h : Mounted d sb a inodes entries)
    (hmem : inode ∈ inodes) (hkind : inode.kind = .file) {calls : List ResizeCall}
    (hon : ∀ call ∈ calls, call.On d sb inode.id) :
    ∀ step ∈ FilesystemLab.resizeSteps sb inode.id d calls,
      (step.Clean sb inode.id → step.Keeps sb inode.id) ∧
        (step.result = .ok () → step.Keeps sb inode.id →
          step.Clean sb inode.id) := by
  induction calls generalizing d a inodes inode with
  | nil => exact fun _ hstep => absurd hstep List.not_mem_nil
  | cons call calls ih =>
    rw [List.forall_mem_cons] at hon
    have hrun : call.run sb inode.id d = ((call.run sb inode.id d).1,
        (call.run sb inode.id d).2) := rfl
    obtain ⟨hnext, hstep⟩ := h.resizeStep hmem hkind hon.1 hrun
    rw [FilesystemLab.resizeSteps, List.forall_mem_cons]
    refine ⟨hstep, ?_⟩
    rcases hnext with hsame | ⟨a', inode', hx⟩
    · rw [hsame]
      exact ih h hmem hkind hon.2
    · have hrest := ih hx.mounted (hx.mem_self h hmem) hx.kind_eq
      rw [hx.id_eq] at hrest
      exact hrest fun next hnext => hx.on h hmem hkind (hon.2 next hnext)

end Run

/-- **When resizes keep the contents.**  In a run of resizes of one file, on a
device that the check accepts with an empty journal, in which every step that
asks for more blocks finds nothing but zeros behind the end of the file, every
successful step keeps what a resize promises; and a successful step that does
not find zeros there does not. -/
theorem resizeRun_keeps_when {d : Disk} {sb : Superblock} {report : FsckReport}
    {inodes : List PersistedInode} {inode : PersistedInode}
    (hsb : readSuperblock d = .ok sb)
    (hjournal : loadJournalImage d sb = .ok [])
    (hcheck : checkDevice d = .ok report)
    (hload : loadInodeTable d sb = .ok inodes) (hmem : inode ∈ inodes)
    (hkind : inode.kind = .file) (calls : List ResizeCall)
    (hon : ∀ call ∈ calls, call.On d sb inode.id) :
    ((∀ step ∈ resizeSteps sb inode.id d calls, step.Clean sb inode.id) →
      ∀ step ∈ resizeSteps sb inode.id d calls, step.Keeps sb inode.id) ∧
    ∀ step ∈ resizeSteps sb inode.id d calls, step.result = .ok () →
      step.Keeps sb inode.id → step.Clean sb inode.id := by
  obtain ⟨a, table, entries, h⟩ := exists_mounted hsb hjournal hcheck
  have hsame := h.inodeTable
  rw [hload, Except.ok.injEq] at hsame
  subst hsame
  have hsteps := h.resizeSteps hmem hkind hon
  exact ⟨fun hclean step hstep => (hsteps step hstep).1 (hclean step hstep),
    fun step hstep => (hsteps step hstep).2⟩

/-! ## A cut whose bytes come back -/

/-- A file that ends ten bytes behind its first block. -/
def cutInodes : List PersistedInode :=
  [⟨1, .directory, [], 0⟩, ⟨3, .file, [10, 11], 4106⟩]

def cutEntries : List PersistedDirectoryEntry := [⟨1, 3, "t"⟩]

/-- The sample disk with this file, whose bytes are ones. -/
def cutDisk : Disk :=
  formatted treeSuperblock filesAllocator cutInodes cutEntries fun _ =>
    ⟨List.replicate BLOCK_SIZE 1, List.length_replicate⟩

/-- The allocator of the sample after the second block is given up. -/
def cutAllocator : BlockAllocator :=
  .ofFlags 10
    (List.replicate 10 false ++ [true, false, false, false, false, false])
    (by decide)

theorem mounted_cutDisk :
    Mounted cutDisk treeSuperblock filesAllocator cutInodes cutEntries := by
  obtain ⟨inodeImage, hinodeImage⟩ :
      ∃ image, inodeFormat.encodeImage 1 cutInodes = .ok image :=
    exists_inodeImage (by decide) (by decide) (by decide) (by decide)
      (by decide)
  obtain ⟨directoryImage, hdirectoryImage⟩ :
      ∃ image, directoryFormat.encodeImage 1 cutEntries = .ok image :=
    exists_directoryImage (by decide) (by decide) (by decide) (by decide)
      (by decide)
  refine ⟨atRest_formatted _ rfl rfl hinodeImage (by decide) hdirectoryImage,
    owned_filesAllocator rfl, ?_, ?_⟩
  · rw [cutInodes, List.forall_mem_cons, List.forall_mem_singleton]
    exact ⟨rfl, rfl⟩
  · exact namespace_of_targeted (by decide) (by decide) (by decide)
      (acyclic_of_lt (by decide)) (by decide)

theorem resolve_cutDisk :
    resolvePathFollowingSymlinks cutDisk treeSuperblock "/t" = .ok 3 :=
  @AtRest.resolve_rootName _ _ _ _ _ mounted_cutDisk.toAtRest "t" "/t"
    ⟨1, 3, "t"⟩ ⟨1, .directory, [], 0⟩ ⟨3, .file, [10, 11], 4106⟩ (by decide)
    (by decide) (by decide) (by decide) rfl rfl (by decide) rfl rfl rfl

/-- The file is cut to its first block, of which ten bytes stay. -/
theorem truncate_cutDisk :
    ∃ r d', truncateFileToBlocksJournaled treeSuperblock 3 1 cutDisk =
        (.ok r, d') ∧
      Spliced treeSuperblock cutDisk d' filesAllocator cutAllocator cutInodes
        cutEntries ⟨3, .file, [10, 11], 4106⟩ ⟨3, .file, [10], 10⟩ 1 2 [] [] := by
  have hset : setInode cutInodes ⟨3, .file, [10], 10⟩ =
      [⟨1, .directory, [], 0⟩, ⟨3, .file, [10], 10⟩] := by decide
  obtain ⟨tables, htables⟩ := @exists_treeTables cutAllocator
    (setInode cutInodes ⟨3, .file, [10], 10⟩) cutEntries rfl rfl (by
      rw [hset]
      exact exists_inodeImage (by decide) (by decide) (by decide) (by decide)
        (by decide))
    (exists_directoryImage (by decide) (by decide) (by decide) (by decide)
      (by decide))
  exact @Mounted.truncateFileToBlocks_ok _ _ _ cutAllocator _ _
    ⟨3, .file, [10, 11], 4106⟩ ⟨3, .file, [10], 10⟩ 1 [11] mounted_cutDisk
    (by decide) rfl (by decide) (by decide) rfl
    ⟨tables, htables, fits_tree (by simp) tables htables⟩

/-- A growth of the file that was cut. -/
theorem grow_cutDisk {d : Disk}
    (h : Mounted d treeSuperblock cutAllocator
      (setInode cutInodes ⟨3, .file, [10], 10⟩) cutEntries)
    (hpath : resolvePathFollowingSymlinks d treeSuperblock "/t" = .ok 3) :
    ∃ r d', growFileAtPathToBlocksJournaled treeSuperblock "/t" 2 d =
      (.ok r, d') := by
  have hset : setInode cutInodes ⟨3, .file, [10], 10⟩ =
      [⟨1, .directory, [], 0⟩, ⟨3, .file, [10], 10⟩] := by decide
  have hmem : ⟨3, .file, [10], 10⟩ ∈ setInode cutInodes ⟨3, .file, [10], 10⟩ := by
    rw [hset]
    decide
  obtain ⟨mid, hloop⟩ : ∃ mid, allocateEach cutAllocator 1 =
      .ok ([11], mid) := by
    have hfirst : (allocateEach cutAllocator 1).map Prod.fst = .ok [11] := rfl
    obtain ⟨⟨_, mid⟩, htaken, rfl⟩ := Except.map_eq_ok.mp hfirst
    exact ⟨mid, htaken⟩
  obtain ⟨htakes, _, _⟩ := h.takes_of_allocateEach hloop
  obtain ⟨image, himage⟩ : ∃ image,
      inodeFormat.encodeImage treeSuperblock.inodeBlocks
        (setInode (setInode cutInodes ⟨3, .file, [10], 10⟩)
          ⟨3, .file, [10, 11], 4106⟩) = .ok image := by
    rw [hset, show setInode _ _ = cutInodes by decide]
    exact exists_inodeImage (by decide) (by decide) (by decide) (by decide)
      (by decide)
  obtain ⟨r, d', hrun⟩ := @Mounted.appendFileBlocks_ok _ _ _ mid _ _
    ⟨3, .file, [10], 10⟩ ⟨3, .file, [10, 11], 4106⟩ [11] [] [Block.zero] h hmem
    rfl (by simp) hloop (by decide)
    (@AtRest.publishFileChanges_tree _ _ mid _ _ _ _ [(11, Block.zero)] image
      h.toAtRest htakes.totalBlocks htakes.reservedBlocks himage
      (by simp; decide) (by simp) (.inl (by simp)))
  refine ⟨r, d', ?_⟩
  rw [growFileAtPathToBlocksJournaled,
    Effect.bind_of_ok (h.metadataAtPath hmem hpath),
    Effect.lift_bind_of_ok (a := ()) (rejectIf_of_not (by decide)),
    Effect.lift_bind_of_ok (a := ()) (rejectIf_of_not (by decide))]
  rw [Effect.lift_bind_of_ok (a := ()) (rejectIf_of_not (by decide))]
  exact hrun

/-- Behind the end of the file that was cut is a byte of before. -/
theorem fileTail_cutDisk {d : Disk}
    (hs : Spliced treeSuperblock cutDisk d filesAllocator cutAllocator cutInodes
      cutEntries ⟨3, .file, [10, 11], 4106⟩ ⟨3, .file, [10], 10⟩ 1 2 [] []) :
    1 ∈ fileTail d ⟨3, .file, [10], 10⟩ := by
  have hblock : d.blocks 10 =
      ⟨List.replicate BLOCK_SIZE 1, List.length_replicate⟩ :=
    hs.kept 10 (by decide) List.not_mem_nil
  have hbyte := @getElem?_fileSpace d ⟨3, .file, [10], 10⟩ 0 10 10 rfl
    (by decide)
  rw [show (10 : UInt64).toNat = 10 from rfl, hblock, Nat.zero_mul,
    Nat.zero_add, List.getElem?_replicate_of_lt (by decide)] at hbyte
  apply List.mem_of_getElem? (i := 0)
  rw [fileTail, List.getElem?_drop]
  exact hbyte

theorem growFileAtPathToBlocks_exposes :
    (∃ report, checkDevice cutDisk = .ok report) ∧
    loadJournalImage cutDisk treeSuperblock = .ok [] ∧
    FileAt cutDisk treeSuperblock "/t" ⟨3, .file, [10, 11], 4106⟩ ∧
    ¬ ∀ step ∈ resizeSteps treeSuperblock 3 cutDisk
      [.truncateToBlocks 1, .growPathToBlocks "/t" 2],
        step.Keeps treeSuperblock 3 := by
  have h := mounted_cutDisk
  have hmem : ⟨3, .file, [10, 11], 4106⟩ ∈ cutInodes := by decide
  refine ⟨⟨_, h.check⟩, h.journal,
    ⟨resolve_cutDisk, ⟨_, h.inodeTable, hmem⟩, rfl⟩, ?_⟩
  intro hkeeps
  obtain ⟨r, d', hcut, hs⟩ := truncate_cutDisk
  have hx := hs.fileChanged h
  have hpath := hx.resolves h hmem rfl resolve_cutDisk
  obtain ⟨r', d'', hgrow⟩ := grow_cutDisk hs.mounted hpath
  have hfirst : ResizeCall.run treeSuperblock 3 (.truncateToBlocks 1) cutDisk =
      (.ok (), d') := by
    rw [ResizeCall.run, Effect.bind_of_ok hcut]
    rfl
  have hsecond : ResizeCall.run treeSuperblock 3 (.growPathToBlocks "/t" 2) d' =
      (.ok (), d'') := by
    rw [ResizeCall.run, Effect.bind_of_ok hgrow]
    rfl
  have hstep := hkeeps ⟨d', .growPathToBlocks "/t" 2, .ok (), d''⟩ (by
    rw [resizeSteps, hfirst, resizeSteps, hsecond]
    exact List.mem_cons_of_mem _ List.mem_cons_self)
  have hself := hx.mem_self h hmem
  have hon : ResizeCall.On d' treeSuperblock 3 (.growPathToBlocks "/t" 2) := hpath
  have hclean := (hs.mounted.resizeStep hself rfl hon hsecond).2.2 rfl hstep
  have hgrows : ResizeCall.GrowsBlocks ⟨3, .file, [10], 10⟩
      (.growPathToBlocks "/t" 2) := Nat.lt_succ_self 1
  have hzero := hclean _ (hs.mounted.toAtRest.fileWithId hself) hgrows 1
    (fileTail_cutDisk hs)
  exact absurd hzero (by decide)

/-- A cut to bytes that succeeds leaves zeros behind the end. -/
theorem truncateToBytes_cutDisk :
    Effect.Atomic (ResizeCall.run treeSuperblock 3 (.truncateToBytes 10)) cutDisk
      fun _ d' => ∀ inode, fileWithId d' treeSuperblock 3 = some inode →
        ∀ byte ∈ fileTail d' inode, byte = 0 := by
  have h := mounted_cutDisk
  have hmem : ⟨3, .file, [10, 11], 4106⟩ ∈ cutInodes := by decide
  apply (h.truncateFileToBytes 3 10).bind
  intro r d' hpost
  rcases hpost with ⟨inode, hinode, hid, hkind, hcase⟩
  have heq := List.inj_on_of_nodup_map h.nodup_ids hinode hmem hid
  subst heq
  refine ⟨(), d', rfl, ?_⟩
  rcases hcase with ⟨hsame, _⟩ | ⟨_, _, a', inode', hr⟩
  · exact absurd hsame (by decide)
  · intro found hfound byte hbyte
    have hafter := hr.mounted.toAtRest.fileWithId
      (hr.toFileChanged.mem_self h hmem)
    rw [hr.id_eq, hfound, Option.some.injEq] at hafter
    subst hafter
    rw [hr.fileTail_eq h hmem hkind] at hbyte
    exact List.eq_of_mem_replicate hbyte

theorem resizeRun_keeps_when_cutDisk :
    (resizeSteps treeSuperblock 3 cutDisk
      [.truncateToBytes 10, .growPathToBlocks "/t" 2]).length = 2 ∧
    ∀ step ∈ resizeSteps treeSuperblock 3 cutDisk
      [.truncateToBytes 10, .growPathToBlocks "/t" 2],
        step.Keeps treeSuperblock 3 := by
  have h := mounted_cutDisk
  have hmem : ⟨3, .file, [10, 11], 4106⟩ ∈ cutInodes := by decide
  refine ⟨rfl, ?_⟩
  apply (resizeRun_keeps_when h.superblock h.journal h.check h.inodeTable hmem
    rfl [.truncateToBytes 10, .growPathToBlocks "/t" 2] (by
      rw [List.forall_mem_cons, List.forall_mem_singleton]
      exact ⟨trivial, resolve_cutDisk⟩)).1
  rw [resizeSteps, List.forall_mem_cons]
  refine ⟨fun _ _ hgrows => hgrows.elim, ?_⟩
  rw [resizeSteps, resizeSteps, List.forall_mem_singleton]
  intro inode hinode hgrows
  rcases truncateToBytes_cutDisk with ⟨error, hrun⟩ | ⟨_, d', hrun, hzero⟩
  · -- a cut that fails leaves both blocks, and the growth asks for no more
    rw [hrun, h.toAtRest.fileWithId hmem, Option.some.injEq] at hinode
    rw [← hinode] at hgrows
    exact absurd hgrows (Nat.lt_irrefl 2)
  · rw [hrun] at hinode ⊢
    exact hzero inode hinode

end FilesystemLab
