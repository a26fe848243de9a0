import FilesystemLab.BlockSplice
import FilesystemLab.CloneReplace
import FilesystemLab.FileOperations
import FilesystemLab.RangeCopy

/-!
# Cloning blocks into contiguous blocks

The calls of `path_contiguous_clone_append.rs`, `path_contiguous_clone_insert.rs`,
`path_contiguous_clone_replace.rs` and `path_contiguous_clone_splice.rs`, from
the point on where both paths are resolved.

The plain clones copy block images.  These calls read the blocks as bytes of the
source, so they refuse a range that reaches behind its end: the last block of a
file can be cloned only if the file ends on a block boundary.  On all other
ranges they leave the contents that the plain clones leave.
-/

namespace FilesystemLab

open Bytes Splice

section Device

variable {σ : Type} [BlockDevice σ]

/-- The read of the source, and the loop over `snapshot.chunks_exact(BLOCK_SIZE)`. -/
def snapshotBlocks (device : σ) (sb : Superblock) (sourceInode : UInt64)
    (sourceStart blockCount : Nat) : Result (List Block) := do
  let byteLen ← okOr (checkedMul blockCount BLOCK_SIZE)
    (invalidInput "clone byte length overflow")
  let snapshot ← readFileRange device sb sourceInode sourceStart 0 byteLen
  pure (chunksExact snapshot)

/-- `clone_file_blocks_contiguous_append_at_path_journaled`, with the inodes of
its paths. -/
def cloneFileBlocksContiguousAppend (sb : Superblock) (sourceInode : UInt64)
    (sourceStart blockCount : Nat) (destinationInode : UInt64) :
    DevM σ (List UInt64 × RecoveryReport) := do
  let blocks ←
    Effect.query (snapshotBlocks · sb sourceInode sourceStart blockCount)
  appendFileBlocksContiguousJournaled sb destinationInode blocks

/-- `clone_file_blocks_contiguous_insert_at_path_journaled`, with the inodes of
its paths. -/
def cloneFileBlocksContiguousInsert (sb : Superblock) (sourceInode : UInt64)
    (sourceStart blockCount : Nat) (destinationInode : UInt64)
    (destinationLogicalIndex : Nat) :
    DevM σ (List UInt64 × RecoveryReport) := do
  let blocks ←
    Effect.query (snapshotBlocks · sb sourceInode sourceStart blockCount)
  insertFileBlocksContiguousJournaled sb destinationInode destinationLogicalIndex
    blocks

/-- `clone_file_blocks_contiguous_replace_at_path_journaled`, with the inodes of
its paths. -/
def cloneFileBlocksContiguousReplace (sb : Superblock) (sourceInode : UInt64)
    (sourceStart blockCount : Nat) (destinationInode : UInt64)
    (destinationStart : Nat) :
    DevM σ (List UInt64 × List UInt64 × RecoveryReport) := do
  rejectIf (sourceInode = destinationInode) (invalidInput
    "contiguous clone replacement requires distinct source and destination inodes")
  let blocks ←
    Effect.query (snapshotBlocks · sb sourceInode sourceStart blockCount)
  replaceFileBlocksContiguousJournaled sb destinationInode destinationStart
    blockCount blocks

/-- `clone_file_blocks_contiguous_splice_at_path_journaled`, with the inodes of
its paths. -/
def cloneFileBlocksContiguousSplice (sb : Superblock)
    (source destination : FileBlockRange) :
    DevM σ (List UInt64 × List UInt64 × RecoveryReport) := do
  rejectIf (source.inode = destination.inode) (invalidInput
    "contiguous clone splice requires distinct source and destination inodes")
  let blocks ←
    Effect.query (snapshotBlocks · sb source.inode source.start source.blockCount)
  replaceFileBlocksContiguousJournaled sb destination.inode destination.start
    destination.blockCount blocks

end Device

/-! ## The snapshot -/

theorem chunksExact_flatMap (images : List Block) :
    chunksExact (images.flatMap Block.bytes) = images := by
  have hpos := blockSize_pos
  rw [chunksExact, length_flatMap_bytes, Nat.mul_div_cancel _ hpos]
  exact map_ofImage_flatMap images

section Snapshot

variable {d d' : Disk} {sb : Superblock} {a a' : BlockAllocator}
  {inodes : List PersistedInode} {entries : List PersistedDirectoryEntry}
  {inode : PersistedInode} {start count : Nat} {blocks : List Block}

/-- Complete blocks of a file, as bytes. -/
theorem slice_fileBytes (hinside : (start + count) * BLOCK_SIZE ≤
      inode.byteLen.toNat) :
    ((fileBytes d inode).drop (start * BLOCK_SIZE)).take (count * BLOCK_SIZE) =
      (segment (fileImages d inode) start (start + count)).flatMap
        Block.bytes := by
  rw [Nat.add_mul] at hinside
  rw [fileBytes_eq_take, List.drop_take, List.take_take,
    Nat.min_eq_left (by omega), fileSpace,
    drop_flatMap_pieces Block.length_eq, take_flatMap_pieces Block.length_eq,
    Splice.segment, Nat.add_sub_cancel_left]

/-- **The snapshot has the images of the blocks**, if the range has a block and
its bytes are in the file. -/
theorem Mounted.snapshotBlocks_eq_ok (h : Mounted d sb a inodes entries)
    (hmem : inode ∈ inodes) (hkind : inode.kind = .file) :
    snapshotBlocks d sb inode.id start count = .ok blocks ↔
      count ≠ 0 ∧ (start + count) * BLOCK_SIZE ≤ inode.byteLen.toNat ∧
      blocks = segment (fileImages d inode) start (start + count) := by
  have hlimit : inode.byteLen.toNat < U64_LIMIT := inode.byteLen.toNat_lt
  have hpos := blockSize_pos
  have hsum := Nat.add_mul start count BLOCK_SIZE
  simp only [snapshotBlocks, Except.bind_eq_ok, okOr_eq_ok, checkedMul_eq_some,
    Except.pure_eq_ok, Except.ok.injEq, h.readFileRange_slice hmem hkind,
    length_fileBytes d (h.fileEnd hmem hkind).1, Nat.add_zero]
  constructor
  · intro hfacts
    rcases hfacts with ⟨_, ⟨_, rfl⟩, bytes, ⟨hne, _, _, hinside, rfl⟩, rfl⟩
    have hrange : (start + count) * BLOCK_SIZE ≤ inode.byteLen.toNat := by omega
    refine ⟨?_, hrange, ?_⟩
    · intro hzero
      rw [hzero, Nat.zero_mul] at hne
      exact hne rfl
    · rw [slice_fileBytes hrange, chunksExact_flatMap]
  · intro hfacts
    rcases hfacts with ⟨hne, hrange, rfl⟩
    refine ⟨_, ⟨by omega, rfl⟩, _, ⟨?_, hpos, by omega, by omega, rfl⟩, ?_⟩
    · exact Nat.mul_ne_zero hne hpos.ne'
    · rw [slice_fileBytes hrange, chunksExact_flatMap]

/-- The file that a snapshot was taken of. -/
theorem Mounted.of_snapshotBlocks (h : Mounted d sb a inodes entries)
    {id : UInt64} (hsnapshot : snapshotBlocks d sb id start count = .ok blocks) :
    ∃ inode ∈ inodes, inode.id = id ∧ inode.kind = .file := by
  simp only [snapshotBlocks, Except.bind_eq_ok] at hsnapshot
  obtain ⟨_, _, _, hread, _⟩ := hsnapshot
  exact h.of_readFileRange hread

/-- A call that takes a snapshot first. -/
theorem Mounted.atomic_snapshot {α : Type} (h : Mounted d sb a inodes entries)
    {id : UInt64} {f : List Block → DevM Disk α} {post : α → Disk → Prop}
    (hf : ∀ source ∈ inodes, source.id = id → source.kind = .file →
      count ≠ 0 → (start + count) * BLOCK_SIZE ≤ source.byteLen.toNat →
      Effect.Atomic (f (segment (fileImages d source) start (start + count))) d
        post) :
    Effect.Atomic (Effect.query (snapshotBlocks · sb id start count) >>= f) d
      post := by
  apply Effect.atomic_query_bind
  intro blocks hsnapshot
  obtain ⟨source, hmem, rfl, hkind⟩ := h.of_snapshotBlocks hsnapshot
  rw [h.snapshotBlocks_eq_ok hmem hkind] at hsnapshot
  obtain ⟨hne, hrange, rfl⟩ := hsnapshot
  exact hf source hmem rfl hkind hne hrange

end Snapshot

end FilesystemLab
