import FilesystemLab.BlockMoveRun
import FilesystemLab.BlockResize
import FilesystemLab.ContiguousClone
import FilesystemLab.ExtendingWrite

/-!
# Calls on the files of paths

The functions of `path_append.rs`, `path_insert.rs`, `path_remove.rs`,
`path_collapse.rs`, `path_replace.rs`, `path_move.rs`, `path_overwrite_batch.rs`,
`path_zero_range.rs`, `path_file_write.rs`, the three `path_contiguous_*.rs` that
edit one file, the clones of blocks, `path_copy_range.rs`, `path_exchange.rs`,
`path_transfer.rs`, `path_whole_exchange.rs`, `path_whole_transfer_replace.rs`,
`symlink_metadata_at_path`, and the functions of `path_lookup.rs` that read or
change a file.

Each recovers the journal, resolves its paths, and calls the function on inodes
that has its name; `enterPath` and its variants are the common first part.  The
functions of `path_lookup.rs` and `path_file_write.rs` use the recovery that
checks its device first, the others do not.
-/

namespace FilesystemLab

section Device

variable {σ : Type} [BlockDevice σ]

/-! ## The first part -/

/-- The journal is recovered and the path resolved. -/
def enterPath (sb : Superblock) (path : String) : DevM σ UInt64 := do
  let _ ← recoverJournalAndCheckpoint sb
  Effect.query (resolvePathFollowingSymlinks · sb path)

/-- The same with the recovery that checks first. -/
def enterPathChecked (sb : Superblock) (path : String) : DevM σ UInt64 := do
  let _ ← recoverJournalAndCheckpointChecked sb
  Effect.query (resolvePathFollowingSymlinks · sb path)

/-- The journal is recovered and two paths are resolved, one after the other. -/
def enterPaths (sb : Superblock) (first second : String) :
    DevM σ (UInt64 × UInt64) := do
  let _ ← recoverJournalAndCheckpoint sb
  let firstInode ← Effect.query (resolvePathFollowingSymlinks · sb first)
  let secondInode ← Effect.query (resolvePathFollowingSymlinks · sb second)
  pure (firstInode, secondInode)

/-! ## Edits of the block list -/

/-- `append_file_blocks_at_path_journaled`. -/
def appendFileBlocksAtPathJournaled (sb : Superblock) (path : String)
    (data : List Block) : DevM σ (List UInt64 × RecoveryReport) := do
  let id ← enterPath sb path
  appendFileBlocksJournaled sb id data

/-- `insert_file_blocks_at_path_journaled`. -/
def insertFileBlocksAtPathJournaled (sb : Superblock) (path : String)
    (insertIndex : Nat) (data : List Block) :
    DevM σ (List UInt64 × RecoveryReport) := do
  let id ← enterPath sb path
  insertFileBlocksJournaled sb id insertIndex data

/-- `remove_file_block_at_path_journaled`. -/
def removeFileBlockAtPathJournaled (sb : Superblock) (path : String)
    (removeIndex : Nat) : DevM σ (UInt64 × RecoveryReport) := do
  let id ← enterPath sb path
  removeFileBlockJournaled sb id removeIndex

/-- `collapse_file_block_range_at_path_journaled`. -/
def collapseFileBlockRangeAtPathJournaled (sb : Superblock) (path : String)
    (startIndex blockCount : Nat) : DevM σ (List UInt64 × RecoveryReport) := do
  let id ← enterPath sb path
  collapseFileBlockRangeJournaled sb id startIndex blockCount

/-- `replace_file_blocks_at_path_journaled`. -/
def replaceFileBlocksAtPathJournaled (sb : Superblock) (path : String)
    (start removeCount : Nat) (replacements : List Block) :
    DevM σ (List UInt64 × List UInt64 × RecoveryReport) := do
  let id ← enterPath sb path
  replaceFileBlocksJournaled sb id start removeCount replacements

/-- `move_file_block_range_at_path_journaled`. -/
def moveFileBlockRangeAtPathJournaled (sb : Superblock) (path : String)
    (sourceIndex blockCount destinationIndex : Nat) :
    DevM σ (List UInt64 × RecoveryReport) := do
  let id ← enterPath sb path
  moveFileBlockRangeJournaled sb id sourceIndex blockCount destinationIndex

/-- `write_file_blocks_at_path_journaled` of `path_overwrite_batch.rs`. -/
def writeFileBlockBatchAtPathJournaled (sb : Superblock) (path : String)
    (writes : List (Nat × Block)) : DevM σ RecoveryReport := do
  let id ← enterPath sb path
  writeFileBlocksJournaled sb id writes

/-! ## Edits with contiguous blocks -/

/-- The staging of `block_count` zeroed blocks, of which a vector has at most
`isize::MAX` bytes. -/
def stageZeroed (empty staging : String) (blockCount : UInt64) :
    Result (List Block) := do
  rejectIf (blockCount = 0) (invalidInput empty)
  rejectIf (blockCount.toNat * BLOCK_SIZE ≥ 2 ^ 63) (invalidInput staging)
  pure (List.replicate blockCount.toNat Block.zero)

/-- `append_file_blocks_contiguous_at_path_journaled`. -/
def appendFileBlocksContiguousAtPathJournaled (sb : Superblock) (path : String)
    (data : List Block) : DevM σ (List UInt64 × RecoveryReport) := do
  let id ← enterPath sb path
  appendFileBlocksContiguousJournaled sb id data

/-- `append_zeroed_blocks_contiguous_at_path_journaled`. -/
def appendZeroedBlocksContiguousAtPathJournaled (sb : Superblock)
    (path : String) (blockCount : UInt64) :
    DevM σ (List UInt64 × RecoveryReport) := do
  let data ← stageZeroed
    "contiguous zero append must contain at least one block"
    "contiguous zero append block count exceeds staging capacity" blockCount
  appendFileBlocksContiguousAtPathJournaled sb path data

/-- `insert_file_blocks_contiguous_at_path_journaled`. -/
def insertFileBlocksContiguousAtPathJournaled (sb : Superblock) (path : String)
    (insertIndex : Nat) (data : List Block) :
    DevM σ (List UInt64 × RecoveryReport) := do
  let id ← enterPath sb path
  insertFileBlocksContiguousJournaled sb id insertIndex data

/-- `insert_zeroed_blocks_contiguous_at_path_journaled`. -/
def insertZeroedBlocksContiguousAtPathJournaled (sb : Superblock)
    (path : String) (insertIndex : Nat) (blockCount : UInt64) :
    DevM σ (List UInt64 × RecoveryReport) := do
  let data ← stageZeroed
    "contiguous zero insert must contain at least one block"
    "contiguous zero insert block count exceeds staging capacity" blockCount
  insertFileBlocksContiguousAtPathJournaled sb path insertIndex data

/-- `replace_file_blocks_contiguous_at_path_journaled`. -/
def replaceFileBlocksContiguousAtPathJournaled (sb : Superblock)
    (path : String) (start removeCount : Nat) (replacements : List Block) :
    DevM σ (List UInt64 × List UInt64 × RecoveryReport) := do
  let id ← enterPath sb path
  replaceFileBlocksContiguousJournaled sb id start removeCount replacements

/-- `replace_with_zeroed_blocks_contiguous_at_path_journaled`. -/
def replaceWithZeroedBlocksContiguousAtPathJournaled (sb : Superblock)
    (path : String) (start : Nat) (blockCount : UInt64) :
    DevM σ (List UInt64 × List UInt64 × RecoveryReport) := do
  let data ← stageZeroed
    "contiguous zero replacement must contain at least one block"
    "contiguous zero replacement block count exceeds staging capacity" blockCount
  replaceFileBlocksContiguousAtPathJournaled sb path start blockCount.toNat data

/-! ## Edits of bytes -/

/-- `zero_file_range_at_path_journaled`. -/
def zeroFileRangeAtPathJournaled (sb : Superblock) (path : String)
    (firstBlock offset len : Nat) :
    Effect (Abort IoError) σ RecoveryReport := do
  let id ← Effect.abortable (enterPath sb path)
  zeroFileRangeJournaled sb id firstBlock offset len

/-- `zero_file_at_path_journaled`. -/
def zeroFileAtPathJournaled (sb : Superblock) (path : String) :
    Effect (Abort IoError) σ RecoveryReport := do
  let metadata ← Effect.abortable (metadataAtPath sb path)
  rejectIf (metadata.kind ≠ .file) (Abort.error (invalidInput
    "pathname whole-file zero target must be a regular file"))
  if metadata.logicalBlocks = 0 then pure RecoveryReport.default
  else do
    let len ← okOr (checkedMul metadata.logicalBlocks BLOCK_SIZE)
      (Abort.error (invalidInput
        "pathname whole-file zero block count overflows byte length"))
    zeroFileRangeAtPathJournaled sb path 0 0 len

/-- `write_file_range_at_path_journaled`. -/
def writeFileRangeAtPathJournaled (sb : Superblock) (path : String)
    (firstBlock startOffset : Nat) (data : List UInt8) :
    Effect (Abort IoError) σ RecoveryReport := do
  let id ← Effect.abortable (enterPathChecked sb path)
  writeFileRangeJournaled sb id firstBlock startOffset data

/-- `write_file_range_extending_at_path_journaled`. -/
def writeFileRangeExtendingAtPathJournaled (sb : Superblock) (path : String)
    (startOffset : UInt64) (data : List UInt8) :
    Effect (Abort IoError) σ (List UInt64 × RecoveryReport) := do
  let id ← Effect.abortable (enterPathChecked sb path)
  writeFileRangeExtendingJournaled sb id startOffset data

/-- `write_file_blocks_at_path_journaled` of `path_file_write.rs`. -/
def writeFileBlocksAtPathJournaled (sb : Superblock) (path : String)
    (data : List UInt8) : Effect (Abort IoError) σ RecoveryReport := do
  let id ← Effect.abortable (enterPathChecked sb path)
  let inode ← Effect.abortable (do
    let inodes ← Effect.query (loadInodeTable · sb)
    requireFile inodes id)
  let expectedLen ← okOr (checkedMul inode.blocks.length BLOCK_SIZE)
    (Abort.error (invalidInput "whole-file logical-block byte length overflow"))
  rejectIf (data.length ≠ expectedLen) (Abort.error (invalidInput
    "whole-file write length must match persisted logical-block capacity"))
  if data = [] then pure RecoveryReport.default
  else writeFileRangeJournaled sb id 0 0 data

/-- `truncate_file_at_path_to_bytes_journaled`. -/
def truncateFileAtPathToBytesJournaled (sb : Superblock) (path : String)
    (targetBytes : UInt64) : DevM σ (List UInt64 × RecoveryReport) := do
  let id ← enterPathChecked sb path
  truncateFileToBytesJournaled sb id targetBytes

/-- `truncate_file_at_path_to_blocks_journaled`. -/
def truncateFileAtPathToBlocksJournaled (sb : Superblock) (path : String)
    (targetBlocks : Nat) : DevM σ (List UInt64 × RecoveryReport) := do
  let id ← enterPathChecked sb path
  truncateFileToBlocksJournaled sb id targetBlocks

/-! ## Reads -/

/-- `read_file_range_at_path`. -/
def readFileRangeAtPath (sb : Superblock) (path : String)
    (firstBlock startOffset len : Nat) : DevM σ (List UInt8) := do
  let id ← enterPathChecked sb path
  Effect.query (readFileRange · sb id firstBlock startOffset len)

/-- `symlink_metadata_at_path`. -/
def symlinkMetadataAtPath (sb : Superblock) (path : String) :
    DevM σ PathMetadata := do
  let _ ← recoverJournalAndCheckpointChecked sb
  let id ←
    Effect.query (resolvePathWithoutFollowingFinalSymlink · sb path)
  Effect.query (metadataForInode · sb id)

/-- `read_symlink_at_path`. -/
def readSymlinkAtPath (sb : Superblock) (path : String) : DevM σ String := do
  let _ ← recoverJournalAndCheckpointChecked sb
  let id ←
    Effect.query (resolvePathWithoutFollowingFinalSymlink · sb path)
  Effect.query (readSymlink · sb id)

/-! ## Clones and copies -/

/-- `clone_file_blocks_append_at_path_journaled`. -/
def cloneFileBlocksAppendAtPathJournaled (sb : Superblock) (source : String)
    (sourceStart blockCount : Nat) (destination : String) :
    DevM σ (List UInt64 × RecoveryReport) := do
  let ids ← enterPaths sb source destination
  cloneFileBlocksAppendJournaled sb ids.1 sourceStart blockCount ids.2

/-- `clone_file_blocks_insert_at_path_journaled`. -/
def cloneFileBlocksInsertAtPathJournaled (sb : Superblock) (source : String)
    (sourceStart blockCount : Nat) (destination : String)
    (destinationLogicalIndex : Nat) :
    DevM σ (List UInt64 × RecoveryReport) := do
  let ids ← enterPaths sb source destination
  cloneFileBlocksInsertJournaled sb ids.1 sourceStart blockCount ids.2
    destinationLogicalIndex

/-- `clone_file_blocks_replace_at_path_journaled`. -/
def cloneFileBlocksReplaceAtPathJournaled (sb : Superblock) (source : String)
    (sourceStart blockCount : Nat) (destination : String)
    (destinationStart : Nat) :
    DevM σ (List UInt64 × List UInt64 × RecoveryReport) := do
  let ids ← enterPaths sb source destination
  cloneFileBlocksReplaceJournaled sb ids.1 sourceStart blockCount ids.2
    destinationStart

/-- `clone_file_blocks_splice_at_path_journaled`. -/
def cloneFileBlocksSpliceAtPathJournaled (sb : Superblock) (source : String)
    (sourceStart blockCount : Nat) (destination : String)
    (start removeCount : Nat) :
    DevM σ (List UInt64 × List UInt64 × RecoveryReport) := do
  let ids ← enterPaths sb source destination
  cloneFileBlocksSpliceJournaled sb ⟨ids.1, sourceStart, blockCount⟩
    ⟨ids.2, start, removeCount⟩

/-- `clone_file_blocks_contiguous_append_at_path_journaled`. -/
def cloneFileBlocksContiguousAppendAtPathJournaled (sb : Superblock)
    (source : String) (sourceStart blockCount : Nat) (destination : String) :
    DevM σ (List UInt64 × RecoveryReport) := do
  rejectIf (blockCount = 0) (invalidInput
    "contiguous clone append requires at least one source block")
  let ids ← enterPaths sb source destination
  cloneFileBlocksContiguousAppend sb ids.1 sourceStart blockCount ids.2

/-- `clone_file_blocks_contiguous_insert_at_path_journaled`. -/
def cloneFileBlocksContiguousInsertAtPathJournaled (sb : Superblock)
    (source : String) (sourceStart blockCount : Nat) (destination : String)
    (destinationLogicalIndex : Nat) :
    DevM σ (List UInt64 × RecoveryReport) := do
  rejectIf (blockCount = 0) (invalidInput
    "contiguous clone insertion requires at least one source block")
  let ids ← enterPaths sb source destination
  cloneFileBlocksContiguousInsert sb ids.1 sourceStart blockCount ids.2
    destinationLogicalIndex

/-- `clone_file_blocks_contiguous_replace_at_path_journaled`. -/
def cloneFileBlocksContiguousReplaceAtPathJournaled (sb : Superblock)
    (source : String) (sourceStart blockCount : Nat) (destination : String)
    (destinationStart : Nat) :
    DevM σ (List UInt64 × List UInt64 × RecoveryReport) := do
  rejectIf (blockCount = 0) (invalidInput
    "contiguous clone replacement requires at least one source block")
  let ids ← enterPaths sb source destination
  cloneFileBlocksContiguousReplace sb ids.1 sourceStart blockCount ids.2
    destinationStart

/-- `clone_file_blocks_contiguous_splice_at_path_journaled`. -/
def cloneFileBlocksContiguousSpliceAtPathJournaled (sb : Superblock)
    (source : String) (sourceStart blockCount : Nat) (destination : String)
    (start removeCount : Nat) :
    DevM σ (List UInt64 × List UInt64 × RecoveryReport) := do
  rejectIf (blockCount = 0 ∨ removeCount = 0) (invalidInput
    "contiguous clone splice requires non-empty source and destination ranges")
  let ids ← enterPaths sb source destination
  cloneFileBlocksContiguousSplice sb ⟨ids.1, sourceStart, blockCount⟩
    ⟨ids.2, start, removeCount⟩

/-- `copy_file_range_at_path_journaled`. -/
def copyFileRangeAtPathJournaled (sb : Superblock) (source : String)
    (sourceBlock sourceOffset : Nat) (destination : String)
    (block offset len : Nat) : Effect (Abort IoError) σ RecoveryReport := do
  let ids ← Effect.abortable (enterPaths sb source destination)
  copyFileRangeJournaled sb ⟨ids.1, sourceBlock, sourceOffset⟩
    ⟨ids.2, block, offset⟩ len

/-! ## Exchanges and transfers -/

/-- `exchange_file_block_ranges_at_path_journaled`. -/
def exchangeFileBlockRangesAtPathJournaled (sb : Superblock) (left : String)
    (leftStart : Nat) (right : String) (rightStart blockCount : Nat) :
    DevM σ RecoveryReport := do
  let ids ← enterPaths sb left right
  exchangeFileBlockRangesJournaled sb ids.1 leftStart ids.2 rightStart blockCount

/-- `exchange_variable_file_block_ranges_at_path_journaled`. -/
def exchangeVariableFileBlockRangesAtPathJournaled (sb : Superblock)
    (left : String) (leftStart leftCount : Nat) (right : String)
    (rightStart rightCount : Nat) : DevM σ RecoveryReport := do
  let ids ← enterPaths sb left right
  exchangeVariableFileBlockRangesJournaled sb ⟨ids.1, leftStart, leftCount⟩
    ⟨ids.2, rightStart, rightCount⟩

/-- `exchange_same_file_block_ranges_at_path_journaled`. -/
def exchangeSameFileBlockRangesAtPathJournaled (sb : Superblock)
    (first : String) (firstStart firstCount : Nat) (second : String)
    (secondStart secondCount : Nat) : DevM σ RecoveryReport := do
  let ids ← enterPaths sb first second
  exchangeSameFileBlockRangesJournaled sb ⟨ids.1, firstStart, firstCount⟩
    ⟨ids.2, secondStart, secondCount⟩

/-- `exchange_complete_files_at_path_journaled`. -/
def exchangeCompleteFilesAtPathJournaled (sb : Superblock)
    (left right : String) : DevM σ RecoveryReport := do
  let ids ← enterPaths sb left right
  exchangeCompleteFileBlocksJournaled sb ids.1 ids.2

/-- `transfer_file_block_range_at_path_journaled`. -/
def transferFileBlockRangeAtPathJournaled (sb : Superblock) (source : String)
    (sourceIndex blockCount : Nat) (destination : String)
    (destinationIndex : Nat) : DevM σ (List UInt64 × RecoveryReport) := do
  let ids ← enterPaths sb source destination
  transferFileBlockRangeJournaled sb ids.1 sourceIndex blockCount ids.2
    destinationIndex

/-- `transfer_replace_complete_file_at_path_journaled`. -/
def transferReplaceCompleteFileAtPathJournaled (sb : Superblock)
    (source destination : String) : DevM σ RecoveryReport := do
  let ids ← enterPaths sb source destination
  transferReplaceCompleteFileBlocksJournaled sb ids.1 ids.2

end Device

end FilesystemLab
