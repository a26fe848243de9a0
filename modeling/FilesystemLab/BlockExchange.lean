import FilesystemLab.InodeRearrange
import FilesystemLab.FileResize
import FilesystemLab.Lib.Splice

/-!
# Exchanges and transfers of blocks

The functions of `file_exchange.rs`, `file_transfer.rs`,
`file_whole_exchange.rs` and `file_whole_transfer_replace.rs`: they move block
references between two files, or within one, and copy no data.

`BlockMove` is a call of one of the first six, and `BlockMove.Rearranges` says
which inode table it asks for.
-/

namespace FilesystemLab

open WriteLog Splice

/-! ## The operations -/

/-- `FileBlockExchangeRange`. -/
structure FileBlockExchangeRange where
  inode : UInt64
  start : Nat
  blockCount : Nat
  deriving DecidableEq

namespace FileBlockExchangeRange

/-- Where the range ends. -/
def stop (range : FileBlockExchangeRange) : Nat :=
  range.start + range.blockCount

/-- `exchange_range_end`. -/
def exchangeRangeEnd (range : FileBlockExchangeRange) (label : String) :
    Result Nat := do
  rejectIf (range.blockCount = 0)
    (invalidInput "variable block-range exchange requires non-empty ranges")
  okOr (checkedAdd range.start range.blockCount)
    (invalidInput (label ++ " exchange range overflows usize"))

end FileBlockExchangeRange

/-- `exchange_inode_index`. -/
def exchangeInode (inodes : List PersistedInode) (id : UInt64)
    (label : String) : Result PersistedInode :=
  okOr (findInode inodes id)
    (invalidInput (label ++ " exchange inode is missing"))

/-- `validate_exchange_ownership`, also in `exchange_file_block_ranges`. -/
def validateExchangeOwnership (a : BlockAllocator)
    (left right : PersistedInode) : Result Unit :=
  requireDistinctOwned
    "exchange endpoints contain duplicate physical-block references"
    "exchange endpoint references a block that is not allocator-owned" a []
    (left.blocks ++ right.blocks)

/-- `exchange_file_block_ranges_journaled` between its loads and its
publication. -/
def exchangeRanges (a : BlockAllocator) (inodes : List PersistedInode)
    (leftInode : UInt64) (leftIndex : Nat) (rightInode : UInt64)
    (rightIndex blockCount : Nat) : Result (List PersistedInode) := do
  let left ← okOr (findInode inodes leftInode)
    (invalidInput "left inode is missing")
  let right ← okOr (findInode inodes rightInode)
    (invalidInput "right inode is missing")
  rejectIf (left.kind ≠ .file ∨ right.kind ≠ .file)
    (invalidInput "block-range exchange endpoints must be regular files")
  let leftEnd ← okOr (checkedAdd leftIndex blockCount)
    (invalidInput "left range overflows")
  let rightEnd ← okOr (checkedAdd rightIndex blockCount)
    (invalidInput "right range overflows")
  rejectIf (leftEnd > left.blocks.length ∨ rightEnd > right.blocks.length)
    (invalidInput "block-range exchange is beyond file end")
  validateExchangeOwnership a left right
  let newLeft := splice left.blocks leftIndex leftEnd
    (segment right.blocks rightIndex rightEnd)
  let newRight := splice right.blocks rightIndex rightEnd
    (segment left.blocks leftIndex leftEnd)
  pure (setInode (setInode inodes { left with blocks := newLeft })
    { right with blocks := newRight })

/-- `validate_variable_exchange_ranges`: the left file and the end of its range,
and the right ones. -/
def validateVariableExchangeRanges (inodes : List PersistedInode)
    (left right : FileBlockExchangeRange) :
    Result (PersistedInode × Nat × PersistedInode × Nat) := do
  rejectIf (left.inode = right.inode)
    (invalidInput "variable block-range exchange requires distinct files")
  let leftEnd ← left.exchangeRangeEnd "left"
  let rightEnd ← right.exchangeRangeEnd "right"
  let leftInode ← exchangeInode inodes left.inode "left"
  let rightInode ← exchangeInode inodes right.inode "right"
  rejectIf (leftInode.kind ≠ .file ∨ rightInode.kind ≠ .file) (invalidInput
    "variable block-range exchange endpoints must be regular files")
  rejectIf (leftEnd > leftInode.blocks.length ∨
      rightEnd > rightInode.blocks.length)
    (invalidInput "variable block-range exchange is beyond file end")
  pure (leftInode, leftEnd, rightInode, rightEnd)

/-- `exchange_variable_file_block_ranges_journaled` between its loads and its
publication. -/
def exchangeVariableRanges (a : BlockAllocator) (inodes : List PersistedInode)
    (left right : FileBlockExchangeRange) : Result (List PersistedInode) := do
  let (leftInode, leftEnd, rightInode, rightEnd) ←
    validateVariableExchangeRanges inodes left right
  validateExchangeOwnership a leftInode rightInode
  let newLeft ← leftInode.replaceBlockRange left.start leftEnd
    (segment rightInode.blocks right.start rightEnd)
  let newRight ← rightInode.replaceBlockRange right.start rightEnd
    (segment leftInode.blocks left.start leftEnd)
  pure (setInode (setInode inodes newLeft.2) newRight.2)

/-- `exchange_same_file_block_ranges_journaled` between its loads and its
publication. -/
def exchangeSameRanges (a : BlockAllocator) (inodes : List PersistedInode)
    (id : UInt64) (earlier earlierEnd later laterEnd : Nat) :
    Result (List PersistedInode) := do
  let inode ← exchangeInode inodes id "same-file"
  rejectIf (inode.kind ≠ .file)
    (invalidInput "same-file exchange endpoint must be a regular file")
  rejectIf (laterEnd > inode.blocks.length)
    (invalidInput "same-file exchange is beyond file end")
  requireDistinctOwned
    "same-file exchange inode contains duplicate physical-block references"
    "same-file exchange references a block that is not allocator-owned" a []
    inode.blocks
  pure (setInode inodes { inode with
    blocks := swapSegments inode.blocks earlier earlierEnd later laterEnd })

/-- `exchange_complete_file_blocks_journaled` between its loads and its
publication; two empty files are left alone. -/
def exchangeCompleteBlocks (a : BlockAllocator) (inodes : List PersistedInode)
    (leftInode rightInode : UInt64) : Result (Option (List PersistedInode)) := do
  let left ← okOr (findInode inodes leftInode)
    (invalidInput "left inode is missing")
  let right ← okOr (findInode inodes rightInode)
    (invalidInput "right inode is missing")
  rejectIf (left.kind ≠ .file ∨ right.kind ≠ .file)
    (invalidInput "whole-file exchange endpoints must both be regular files")
  requireDistinctOwned
    "whole-file exchange endpoints contain duplicate physical-block references"
    "whole-file exchange endpoint references a block that is not allocator-owned"
    a [] (left.blocks ++ right.blocks)
  if left.blocks = [] ∧ right.blocks = [] then pure none
  else do
    let leftByteLen ← left.canonicalByteLen
    let rightByteLen ← right.canonicalByteLen
    let newLeft ← left.replaceBlockRange 0 left.blocks.length right.blocks
    let newRight ← right.replaceBlockRange 0 right.blocks.length left.blocks
    let left' ← newLeft.2.setFileByteLen rightByteLen
    let right' ← newRight.2.setFileByteLen leftByteLen
    pure (some (setInode (setInode inodes left') right'))

/-- The loop of `transfer_file_block_range_journaled` over the moved blocks. -/
def validateMovedBlocks (a : BlockAllocator) (destination : List UInt64) :
    List UInt64 → Result Unit
  | [] => pure ()
  | block :: blocks => do
    let owned ← liftAllocation (a.isOwned block.toNat)
    rejectIf (owned = false)
      (invalidData "source block is not allocator-owned")
    rejectIf (block ∈ destination) (invalidData
      "source block is already referenced by destination inode")
    validateMovedBlocks a destination blocks

/-- `transfer_file_block_range_journaled` between its loads and its
publication: the moved blocks and the new table. -/
def transferRange (a : BlockAllocator) (inodes : List PersistedInode)
    (sourceInode : UInt64) (sourceIndex blockCount : Nat)
    (destinationInode : UInt64) (destinationIndex : Nat) :
    Result (List UInt64 × List PersistedInode) := do
  let source ← okOr (findInode inodes sourceInode)
    (invalidInput "source inode is missing")
  let destination ← okOr (findInode inodes destinationInode)
    (invalidInput "destination inode is missing")
  rejectIf (source.kind ≠ .file ∨ destination.kind ≠ .file) (invalidInput
    "block-range transfer endpoints must both be regular files")
  let sourceEnd ← okOr (checkedAdd sourceIndex blockCount)
    (invalidInput "source logical range overflows")
  rejectIf (sourceEnd > source.blocks.length)
    (invalidInput "source logical range is beyond the end")
  rejectIf (destinationIndex > destination.blocks.length)
    (invalidInput "destination logical index is beyond the end")
  let moved := segment source.blocks sourceIndex sourceEnd
  validateMovedBlocks a destination.blocks moved
  let newSource ← source.replaceBlockRange sourceIndex sourceEnd []
  let newDestination ← destination.replaceBlockRange destinationIndex
    destinationIndex moved
  pure (moved, setInode (setInode inodes newSource.2) newDestination.2)

/-- `move_file_block_range_journaled` between its loads and its publication: the
moved blocks and the new table. -/
def moveRange (a : BlockAllocator) (inodes : List PersistedInode)
    (id : UInt64) (sourceIndex blockCount destinationIndex : Nat) :
    Result (List UInt64 × List PersistedInode) := do
  let inode ← okOr (findInode inodes id) (invalidInput "move inode is missing")
  rejectIf (inode.kind ≠ .file)
    (invalidInput "block-range move requires a regular file")
  let sourceEnd ← okOr (checkedAdd sourceIndex blockCount)
    (invalidInput "source logical range overflows")
  rejectIf (sourceEnd > inode.blocks.length)
    (invalidInput "source logical range is beyond the end")
  rejectIf (destinationIndex > inode.blocks.length - blockCount) (invalidInput
    "destination logical index is beyond the post-removal end")
  rejectIf (destinationIndex = sourceIndex)
    (invalidInput "block-range move must change logical order")
  requireDistinctOwned "move inode contains duplicate physical-block references"
    "move inode references a block that is not allocator-owned" a []
    inode.blocks
  let moved := segment inode.blocks sourceIndex sourceEnd
  pure (moved, setInode inodes { inode with
    blocks := splice (splice inode.blocks sourceIndex sourceEnd [])
      destinationIndex destinationIndex moved })

/-- `transfer_replace_complete_file_blocks_journaled` between its loads and its
publication; two empty files are left alone. -/
def transferReplaceBlocks (a : BlockAllocator) (inodes : List PersistedInode)
    (sourceInode destinationInode : UInt64) :
    Result (Option (BlockAllocator × List PersistedInode)) := do
  let source ← okOr (findInode inodes sourceInode)
    (invalidInput "source inode is missing")
  let destination ← okOr (findInode inodes destinationInode)
    (invalidInput "destination inode is missing")
  rejectIf (source.kind ≠ .file ∨ destination.kind ≠ .file) (invalidInput
    "whole-file transfer replacement endpoints must both be regular files")
  requireDistinctOwned
    "whole-file transfer replacement endpoints contain duplicate physical-block references"
    "whole-file transfer replacement endpoint references a block that is not allocator-owned"
    a [] (source.blocks ++ destination.blocks)
  if source.blocks = [] ∧ destination.blocks = [] then pure none
  else do
    let sourceByteLen ← source.canonicalByteLen
    let newSource ← source.replaceBlockRange 0 source.blocks.length []
    let newDestination ← destination.replaceBlockRange 0
      destination.blocks.length newSource.1
    let destination' ← newDestination.2.setFileByteLen sourceByteLen
    let freed ← liftAllocation
      (a.freeAll (newDestination.1.map UInt64.toNat))
    pure (some (freed, setInode (setInode inodes newSource.2) destination'))

/-- The tables of `publish_whole_file_transfer_replace`. -/
def transferReplaceTables (sb : Superblock) (a : BlockAllocator)
    (inodes : List PersistedInode) :
    List (TableImage × Result (List UInt8)) :=
  [allocationPair sb a
      "whole-file transfer replacement did not render every allocation metadata block",
    inodePair sb inodes
      "whole-file transfer replacement did not render every inode metadata block"]

section Device

variable {σ : Type} [BlockDevice σ]

/-- `publish_exchange_inodes`. -/
def publishExchangeInodes (sb : Superblock) (inodes : List PersistedInode) :
    DevM σ RecoveryReport :=
  publishInodeTable "block-range exchange" (publishTransaction
    "block-range exchange recovery report is inconsistent" sb) sb inodes

/-- `publish_inode_table_transfer`. -/
def publishInodeTableTransfer (sb : Superblock)
    (inodes : List PersistedInode) : DevM σ RecoveryReport :=
  publishInodeTable "block-range transfer image" (publishTransaction
    "block-range transfer recovery report is inconsistent" sb) sb inodes

/-- `publish_whole_file_exchange`. -/
def publishWholeFileExchange (sb : Superblock)
    (inodes : List PersistedInode) : DevM σ RecoveryReport :=
  publishInodeTable "whole-file exchange"
    (publishChanges recoverJournalAndCheckpoint
      "whole-file exchange recovery report is inconsistent" sb) sb inodes

/-- `publish_whole_file_transfer_replace`. -/
def publishWholeFileTransferReplace (sb : Superblock)
    (inodes : List PersistedInode) (a : BlockAllocator) :
    DevM σ RecoveryReport := do
  let changes ← Effect.query (ImageStore.collect
    ⟨(transferReplaceTables sb a inodes).map Prod.fst,
      "whole-file transfer replacement rendered outside allocation and inode regions"⟩
    sb)
  publishChanges recoverJournalAndCheckpoint
    "whole-file transfer replacement recovery report is inconsistent" sb changes

/-- `exchange_file_block_ranges_journaled`. -/
def exchangeFileBlockRangesJournaled (sb : Superblock) (leftInode : UInt64)
    (leftIndex : Nat) (rightInode : UInt64) (rightIndex blockCount : Nat) :
    DevM σ RecoveryReport := do
  rejectIf (leftInode = rightInode ∨ blockCount = 0) (invalidInput
    "block-range exchange requires distinct files and a non-empty range")
  let allocator ← Effect.query (loadAllocator · sb)
  let inodes ← Effect.query (loadInodeTable · sb)
  let inodes' ← exchangeRanges allocator inodes leftInode leftIndex rightInode
    rightIndex blockCount
  publishExchangeInodes sb inodes'

/-- `exchange_variable_file_block_ranges_journaled`. -/
def exchangeVariableFileBlockRangesJournaled (sb : Superblock)
    (left right : FileBlockExchangeRange) : DevM σ RecoveryReport := do
  let allocator ← Effect.query (loadAllocator · sb)
  let inodes ← Effect.query (loadInodeTable · sb)
  let inodes' ← exchangeVariableRanges allocator inodes left right
  publishExchangeInodes sb inodes'

/-- `exchange_same_file_block_ranges_journaled`. -/
def exchangeSameFileBlockRangesJournaled (sb : Superblock)
    (first second : FileBlockExchangeRange) : DevM σ RecoveryReport := do
  rejectIf (first.inode ≠ second.inode)
    (invalidInput "same-file block-range exchange requires one inode")
  let firstEnd ← first.exchangeRangeEnd "first"
  let secondEnd ← second.exchangeRangeEnd "second"
  let (earlier, earlierEnd, later, laterEnd) :=
    if first.start ≤ second.start then
      (first.start, firstEnd, second.start, secondEnd)
    else (second.start, secondEnd, first.start, firstEnd)
  rejectIf (earlierEnd > later)
    (invalidInput "same-file exchange ranges must be disjoint")
  let allocator ← Effect.query (loadAllocator · sb)
  let inodes ← Effect.query (loadInodeTable · sb)
  let inodes' ← exchangeSameRanges allocator inodes first.inode earlier
    earlierEnd later laterEnd
  publishExchangeInodes sb inodes'

/-- `exchange_complete_file_blocks_journaled`. -/
def exchangeCompleteFileBlocksJournaled (sb : Superblock)
    (leftInode rightInode : UInt64) : DevM σ RecoveryReport := do
  rejectIf (leftInode = rightInode)
    (invalidInput "whole-file exchange requires distinct file inodes")
  let allocator ← Effect.query (loadAllocator · sb)
  let inodes ← Effect.query (loadInodeTable · sb)
  match ← exchangeCompleteBlocks allocator inodes leftInode rightInode with
  | none => pure RecoveryReport.default
  | some inodes' => publishWholeFileExchange sb inodes'

/-- `transfer_file_block_range_journaled`. -/
def transferFileBlockRangeJournaled (sb : Superblock) (sourceInode : UInt64)
    (sourceIndex blockCount : Nat) (destinationInode : UInt64)
    (destinationIndex : Nat) : DevM σ (List UInt64 × RecoveryReport) := do
  rejectIf (sourceInode = destinationInode) (invalidInput
    "block-range transfer requires distinct source and destination inodes")
  rejectIf (blockCount = 0)
    (invalidInput "block-range transfer requires at least one logical block")
  let allocator ← Effect.query (loadAllocator · sb)
  let inodes ← Effect.query (loadInodeTable · sb)
  let moved ← transferRange allocator inodes sourceInode sourceIndex blockCount
    destinationInode destinationIndex
  let report ← publishInodeTableTransfer sb moved.2
  pure (moved.1, report)

/-- `move_file_block_range_journaled`. -/
def moveFileBlockRangeJournaled (sb : Superblock) (id : UInt64)
    (sourceIndex blockCount destinationIndex : Nat) :
    DevM σ (List UInt64 × RecoveryReport) := do
  rejectIf (blockCount = 0)
    (invalidInput "block-range move requires at least one logical block")
  let allocator ← Effect.query (loadAllocator · sb)
  let inodes ← Effect.query (loadInodeTable · sb)
  let moved ← moveRange allocator inodes id sourceIndex blockCount
    destinationIndex
  let report ← publishInodeTableTransfer sb moved.2
  pure (moved.1, report)

/-- `transfer_replace_complete_file_blocks_journaled`. -/
def transferReplaceCompleteFileBlocksJournaled (sb : Superblock)
    (sourceInode destinationInode : UInt64) : DevM σ RecoveryReport := do
  rejectIf (sourceInode = destinationInode) (invalidInput
    "whole-file transfer replacement requires distinct file inodes")
  let allocator ← Effect.query (loadAllocator · sb)
  let inodes ← Effect.query (loadInodeTable · sb)
  match ← transferReplaceBlocks allocator inodes sourceInode
      destinationInode with
  | none => pure RecoveryReport.default
  | some (freed, inodes') => publishWholeFileTransferReplace sb inodes' freed

end Device

/-! ## What the calls ask for -/

/-- The inode with other blocks, which leaves as many bytes of its last block
unused as before. -/
def PersistedInode.withBlocks (inode : PersistedInode) (blocks : List UInt64) :
    PersistedInode :=
  { inode with
    blocks
    byteLen := UInt64.ofNat (if blocks = [] then 0
      else blocks.length * BLOCK_SIZE - inode.tailSlack) }

/-- Two different regular files of a table. -/
structure FilePair (inodes : List PersistedInode) (leftInode rightInode : UInt64)
    (left right : PersistedInode) : Prop where
  left_mem : left ∈ inodes
  right_mem : right ∈ inodes
  left_id : left.id = leftInode
  right_id : right.id = rightInode
  left_kind : left.kind = .file
  right_kind : right.kind = .file
  ne : leftInode ≠ rightInode

/-- The table with two other inodes. -/
def setPair (inodes : List PersistedInode) (left right : PersistedInode) :
    List PersistedInode :=
  setInode (setInode inodes left) right

/-- The functions that move block references, with their arguments. -/
inductive BlockMove where
  | exchange (leftInode : UInt64) (leftIndex : Nat) (rightInode : UInt64)
      (rightIndex blockCount : Nat)
  | exchangeVariable (left right : FileBlockExchangeRange)
  | exchangeSame (first second : FileBlockExchangeRange)
  | exchangeComplete (leftInode rightInode : UInt64)
  | transfer (sourceInode : UInt64) (sourceIndex blockCount : Nat)
      (destinationInode : UInt64) (destinationIndex : Nat)
  | move (inode : UInt64) (sourceIndex blockCount destinationIndex : Nat)

namespace BlockMove

/-- The call. -/
def run (sb : Superblock) : BlockMove → DevM Disk RecoveryReport
  | exchange leftInode leftIndex rightInode rightIndex blockCount =>
    exchangeFileBlockRangesJournaled sb leftInode leftIndex rightInode
      rightIndex blockCount
  | exchangeVariable left right =>
    exchangeVariableFileBlockRangesJournaled sb left right
  | exchangeSame first second =>
    exchangeSameFileBlockRangesJournaled sb first second
  | exchangeComplete leftInode rightInode =>
    exchangeCompleteFileBlocksJournaled sb leftInode rightInode
  | transfer sourceInode sourceIndex blockCount destinationInode
      destinationIndex => do
    let r ← transferFileBlockRangeJournaled sb sourceInode sourceIndex blockCount
      destinationInode destinationIndex
    pure r.2
  | move inode sourceIndex blockCount destinationIndex => do
    let r ← moveFileBlockRangeJournaled sb inode sourceIndex blockCount
      destinationIndex
    pure r.2

/-- The rearrangement of `inodes` that a call asks for. -/
def Rearranges (inodes inodes' : List PersistedInode) : BlockMove → Prop
  | exchange leftInode i rightInode k count =>
    ∃ left right, FilePair inodes leftInode rightInode left right ∧ count ≠ 0 ∧
      i + count ≤ left.blocks.length ∧ k + count ≤ right.blocks.length ∧
      inodes' = setPair inodes
        { left with blocks := splice left.blocks i (i + count)
                      (segment right.blocks k (k + count)) }
        { right with blocks := splice right.blocks k (k + count)
                      (segment left.blocks i (i + count)) }
  | exchangeVariable first second =>
    ∃ left right, FilePair inodes first.inode second.inode left right ∧
      first.blockCount ≠ 0 ∧ second.blockCount ≠ 0 ∧
      first.stop ≤ left.blocks.length ∧ second.stop ≤ right.blocks.length ∧
      inodes' = setPair inodes
        (left.withBlocks (splice left.blocks first.start first.stop
          (segment right.blocks second.start second.stop)))
        (right.withBlocks (splice right.blocks second.start second.stop
          (segment left.blocks first.start first.stop)))
  | exchangeSame first second =>
    ∃ inode ∈ inodes, inode.id = first.inode ∧ inode.id = second.inode ∧
      inode.kind = .file ∧ first.blockCount ≠ 0 ∧ second.blockCount ≠ 0 ∧
      ∃ earlier later, (earlier = first ∧ later = second ∨
          earlier = second ∧ later = first) ∧
        earlier.stop ≤ later.start ∧ later.stop ≤ inode.blocks.length ∧
        inodes' = setInode inodes
          { inode with blocks := swapSegments inode.blocks earlier.start
                        earlier.stop later.start later.stop }
  | exchangeComplete leftInode rightInode =>
    ∃ left right, FilePair inodes leftInode rightInode left right ∧
      inodes' = setPair inodes
        { left with blocks := right.blocks, byteLen := right.byteLen }
        { right with blocks := left.blocks, byteLen := left.byteLen }
  | transfer sourceInode i count destinationInode k =>
    ∃ source destination,
      FilePair inodes sourceInode destinationInode source destination ∧
      count ≠ 0 ∧ i + count ≤ source.blocks.length ∧
      k ≤ destination.blocks.length ∧
      inodes' = setPair inodes
        (source.withBlocks (splice source.blocks i (i + count) []))
        (destination.withBlocks (splice destination.blocks k k
          (segment source.blocks i (i + count))))
  | move id i count k =>
    ∃ inode ∈ inodes, inode.id = id ∧ inode.kind = .file ∧ count ≠ 0 ∧
      i + count ≤ inode.blocks.length ∧ k + count ≤ inode.blocks.length ∧
      k ≠ i ∧
      inodes' = setInode inodes
        { inode with blocks := splice (splice inode.blocks i (i + count) []) k k
                      (segment inode.blocks i (i + count)) }

/-- The exchange that undoes an exchange: the same one, with the ranges where
the blocks are now. -/
def again : BlockMove → Option BlockMove
  | exchange leftInode leftIndex rightInode rightIndex blockCount =>
    some (exchange leftInode leftIndex rightInode rightIndex blockCount)
  | exchangeVariable left right =>
    some (exchangeVariable { left with blockCount := right.blockCount }
      { right with blockCount := left.blockCount })
  | exchangeSame first second =>
    if first.start ≤ second.start then
      some (exchangeSame
        { first with start := second.stop - first.blockCount }
        { second with start := first.start })
    else
      some (exchangeSame { first with start := second.start }
        { second with start := first.stop - second.blockCount })
  | exchangeComplete leftInode rightInode =>
    some (exchangeComplete leftInode rightInode)
  | transfer _ _ _ _ _ => none
  | move _ _ _ _ => none

end BlockMove

end FilesystemLab
