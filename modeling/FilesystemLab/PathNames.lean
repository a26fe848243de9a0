import FilesystemLab.ContiguousClone
import FilesystemLab.DirectoryCycles
import FilesystemLab.FileClone
import FilesystemLab.PathFiles
import FilesystemLab.RecursiveRemove
import FilesystemLab.RenamePosix

/-!
# Calls on the names of paths

The functions on paths that change names and that the modules on their
transactions do not have: the rest of `path_create.rs`, `path_clone_create.rs`,
`path_contiguous_create.rs`, `path_contiguous_clone_create.rs`,
`path_symlink.rs`, `path_hard_link.rs`, `path_unlink.rs`, `path_rename.rs`,
`path_rename_overwrite.rs` and `path_directory_rename_overwrite.rs`, and
`path_rename_exchange_dispatch.rs`.
-/

namespace FilesystemLab

section Device

variable {σ : Type} [BlockDevice σ]

/-! ## Files -/

/-- `create_one_block_file_at_path_journaled`. -/
def createOneBlockFileAtPathJournaled (sb : Superblock) (destination : String)
    (data : Block) : DevM σ (UInt64 × RecoveryReport) := do
  let parts ← splitPath createSplit destination
  let _ ← recoverJournalAndCheckpointChecked sb
  let parent ← Effect.query (resolvePathFollowingSymlinks · sb parts.1)
  let allocator ← Effect.query (loadAllocator · sb)
  let inodes ← Effect.query (loadInodeTable · sb)
  let entries ← Effect.query (loadDirectoryTable · sb)
  validateCreateDestination parent parts.2 inodes entries
  let id ← nextInodeId inodes
  let taken ← liftInput allocator.allocate
  let dataBlock := UInt64.ofNat taken.1
  let _ ← encodeDirectoryEntry ⟨parent, id, parts.2⟩
  let inode ← PersistedInode.new id .file [dataBlock]
  let report ← storeCreateWithDataJournaled sb taken.2 (inodes ++ [inode])
    (entries ++ [⟨parent, id, parts.2⟩]) dataBlock data
  pure (id, report)

/-- `create_contiguous_file_with_blocks_at_path_journaled`.  Its
`validate_create_destination` also encodes an entry with the new name. -/
def createContiguousFileWithBlocksAtPathJournaled (sb : Superblock)
    (destination : String) (data : List Block) :
    DevM σ (UInt64 × RecoveryReport) := do
  rejectIf (data = []) (invalidInput
    "contiguous multi-block file create requires at least one logical block")
  let parts ← splitPath createSplit destination
  let _ ← recoverJournalAndCheckpointChecked sb
  let parent ← Effect.query (resolvePathFollowingSymlinks · sb parts.1)
  let allocator ← Effect.query (loadAllocator · sb)
  let inodes ← Effect.query (loadInodeTable · sb)
  let entries ← Effect.query (loadDirectoryTable · sb)
  validateCreateDestination parent parts.2 inodes entries
  let _ ← encodeDirectoryEntry ⟨parent, 1, parts.2⟩
  let id ← nextInodeId inodes
  let taken ← allocateRun
    "contiguous allocation run overflowed block address space" allocator
    data.length
  let _ ← encodeDirectoryEntry ⟨parent, id, parts.2⟩
  let inode ← PersistedInode.new id .file taken.1
  let report ← storeCreateWithBlocksJournaled sb taken.2 (inodes ++ [inode])
    (entries ++ [⟨parent, id, parts.2⟩]) (taken.1.zip data)
  pure (id, report)

/-- The first part of the functions that clone blocks to a new file: it reads
the complete blocks of the source. -/
def snapshotAtPath (overflow : String) (sb : Superblock) (source : String)
    (sourceFirstBlock blockCount : Nat) : DevM σ (List Block) := do
  let byteLen ← okOr (checkedMul blockCount BLOCK_SIZE) (invalidInput overflow)
  let sourceInode ← enterPathChecked sb source
  let snapshot ← Effect.query
    (readFileRange · sb sourceInode sourceFirstBlock 0 byteLen)
  pure (chunksExact snapshot)

/-- `clone_file_blocks_to_path_journaled`. -/
def cloneFileBlocksToPathJournaled (sb : Superblock) (source : String)
    (sourceFirstBlock blockCount : Nat) (destination : String) :
    DevM σ (UInt64 × RecoveryReport) := do
  rejectIf (blockCount = 0) (invalidInput
    "pathname clone-to-new-file requires at least one logical block")
  let blocks ← snapshotAtPath
    "pathname clone-to-new-file block count overflows byte length" sb source
    sourceFirstBlock blockCount
  createFileWithBlocksAtPathJournaled sb destination blocks

/-- `clone_file_blocks_contiguous_to_path_journaled`. -/
def cloneFileBlocksContiguousToPathJournaled (sb : Superblock)
    (source : String) (sourceFirstBlock blockCount : Nat)
    (destination : String) : DevM σ (UInt64 × RecoveryReport) := do
  rejectIf (blockCount = 0) (invalidInput
    "contiguous pathname clone-create requires at least one logical block")
  let blocks ← snapshotAtPath
    "contiguous pathname clone-create block count overflows byte length" sb
    source sourceFirstBlock blockCount
  createContiguousFileWithBlocksAtPathJournaled sb destination blocks

/-! ## Links -/

/-- `clone_symlink_at_path_journaled`. -/
def cloneSymlinkAtPathJournaled (sb : Superblock)
    (source destination : String) : DevM σ (UInt64 × RecoveryReport) := do
  let target ← readSymlinkAtPath sb source
  createSymlinkAtPathJournaled sb destination target

/-- The messages of `split_destination` in `path_hard_link.rs`. -/
def hardLinkSplit : SplitMessages where
  relative := "hard-link destination must be an absolute path"
  root := "hard-link destination cannot be the root path"
  missing := "hard-link destination must contain a final component"
  empty := "hard-link destination final component is empty"

/-- `HardLinkSourceFollow`. -/
inductive HardLinkSourceFollow where
  | noFollowFinal
  | followFinal
deriving DecidableEq, Repr

/-- The path that `follow` selects. -/
def HardLinkSourceFollow.resolve (follow : HardLinkSourceFollow) (device : σ)
    (sb : Superblock) (source : String) : Result UInt64 :=
  match follow with
  | .noFollowFinal => resolvePathWithoutFollowingFinalSymlink device sb source
  | .followFinal => resolvePathFollowingSymlinks device sb source

/-- `hard_link_at_path_with_source_follow_journaled`. -/
def hardLinkAtPathWithSourceFollowJournaled (sb : Superblock)
    (source destination : String) (follow : HardLinkSourceFollow) :
    DevM σ RecoveryReport := do
  rejectIf (startsWithSlash source = false)
    (invalidInput "hard-link source must be an absolute path")
  let _ ← recoverJournalAndCheckpointChecked sb
  let target ← Effect.query (follow.resolve · sb source)
  let inodes ← Effect.query (loadInodeTable · sb)
  let inode ← okOr (findInode inodes target)
    (invalidInput "hard-link source inode is missing")
  let parts ← splitPath hardLinkSplit destination
  let parent ← Effect.query (resolvePathFollowingSymlinks · sb parts.1)
  match inode.kind with
  | .file => hardLinkFileJournaled sb parent parts.2 target
  | .symlink => hardLinkSymlinkJournaled sb parent parts.2 target
  | .directory =>
    Effect.fail (invalidInput "hard-link source cannot be a directory")

/-- `hard_link_at_path_journaled`. -/
def hardLinkAtPathJournaled (sb : Superblock) (source destination : String) :
    DevM σ RecoveryReport :=
  hardLinkAtPathWithSourceFollowJournaled sb source destination .noFollowFinal

/-- `hard_link_following_source_at_path_journaled`. -/
def hardLinkFollowingSourceAtPathJournaled (sb : Superblock)
    (source destination : String) : DevM σ RecoveryReport :=
  hardLinkAtPathWithSourceFollowJournaled sb source destination .followFinal

/-- The endpoints of the two functions for one kind of source. -/
def hardLinkEndpoints (sb : Superblock) (source destination : String)
    (follow : HardLinkSourceFollow) : DevM σ (UInt64 × UInt64 × String) := do
  rejectIf (startsWithSlash source = false)
    (invalidInput "hard-link source must be an absolute path")
  let _ ← recoverJournalAndCheckpointChecked sb
  let target ← Effect.query (follow.resolve · sb source)
  let parts ← splitPath hardLinkSplit destination
  let parent ← Effect.query (resolvePathFollowingSymlinks · sb parts.1)
  pure (target, parent, parts.2)

/-- `hard_link_file_at_path_journaled`. -/
def hardLinkFileAtPathJournaled (sb : Superblock)
    (source destination : String) : DevM σ RecoveryReport := do
  let r ← hardLinkEndpoints sb source destination .followFinal
  hardLinkFileJournaled sb r.2.1 r.2.2 r.1

/-- `hard_link_symlink_at_path_journaled`. -/
def hardLinkSymlinkAtPathJournaled (sb : Superblock)
    (source destination : String) : DevM σ RecoveryReport := do
  let r ← hardLinkEndpoints sb source destination .noFollowFinal
  hardLinkSymlinkJournaled sb r.2.1 r.2.2 r.1

/-! ## Removals -/

/-- The key that a path selects after the recovery. -/
def enterKey (messages : SplitMessages) (sb : Superblock) (path : String) :
    DevM σ (UInt64 × String) := do
  let parts ← splitPath messages path
  let _ ← recoverJournalAndCheckpointChecked sb
  let parent ← Effect.query (resolvePathFollowingSymlinks · sb parts.1)
  pure (parent, parts.2)

/-- `unlink_symlink_at_path_journaled`. -/
def unlinkSymlinkAtPathJournaled (sb : Superblock) (path : String) :
    DevM σ RecoveryReport := do
  let key ← enterKey symlinkSplit sb path
  unlinkSymlinkJournaled sb key.1 key.2

/-- `unlink_file_at_path_journaled`. -/
def unlinkFileAtPathJournaled (sb : Superblock) (path : String) :
    DevM σ RecoveryReport := do
  let key ← enterKey unlinkSplit sb path
  unlinkFileJournaled sb key.1 key.2

/-- `remove_directory_at_path_journaled`. -/
def removeDirectoryAtPathJournaled (sb : Superblock) (path : String) :
    DevM σ RecoveryReport := do
  let stripped ← normalizeDirectoryIntent path "directory remove path"
  let key ← enterKey unlinkSplit sb stripped.1
  removeDirectoryJournaled sb key.1 key.2

/-- `remove_directory_tree_at_path_journaled`. -/
def removeDirectoryTreeAtPathJournaled (sb : Superblock) (path : String) :
    DevM σ RecursiveRemoveReport := do
  let stripped ← normalizeDirectoryIntent path "directory remove path"
  let key ← enterKey unlinkSplit sb stripped.1
  removeDirectoryTreeJournaled sb key.1 key.2

/-! ## Renames and exchanges -/

/-- The keys that two paths select after the recovery. -/
def enterKeys (first second : SplitMessages) (sb : Superblock)
    (firstPath secondPath : String) :
    DevM σ ((UInt64 × String) × (UInt64 × String)) := do
  let firstParts ← splitPath first firstPath
  let secondParts ← splitPath second secondPath
  let _ ← recoverJournalAndCheckpointChecked sb
  let firstParent ←
    Effect.query (resolvePathFollowingSymlinks · sb firstParts.1)
  let secondParent ←
    Effect.query (resolvePathFollowingSymlinks · sb secondParts.1)
  pure ((firstParent, firstParts.2), (secondParent, secondParts.2))

/-- `resolve_rename_overwrite_parents`. -/
def resolveRenameOverwriteParents (sb : Superblock)
    (source destination : String) :
    DevM σ ((UInt64 × String) × (UInt64 × String)) :=
  enterKeys (renameSplit "rename-overwrite source")
    (renameSplit "rename-overwrite destination") sb source destination

/-- `rename_overwrite_file_at_path_journaled`. -/
def renameOverwriteFileAtPathJournaled (sb : Superblock)
    (source destination : String) : DevM σ RecoveryReport := do
  let keys ← resolveRenameOverwriteParents sb source destination
  renameOverwriteFileJournaled sb keys.1.1 keys.1.2 keys.2.1 keys.2.2

/-- `rename_overwrite_linked_file_at_path_journaled`. -/
def renameOverwriteLinkedFileAtPathJournaled (sb : Superblock)
    (source destination : String) : DevM σ RecoveryReport := do
  let keys ← resolveRenameOverwriteParents sb source destination
  renameOverwriteLinkedFileJournaled sb keys.1.1 keys.1.2 keys.2.1 keys.2.2

/-- `rename_overwrite_symlink_at_path_journaled`. -/
def renameOverwriteSymlinkAtPathJournaled (sb : Superblock)
    (source destination : String) : DevM σ RecoveryReport := do
  let keys ← resolveRenameOverwriteParents sb source destination
  renameOverwriteSymlinkJournaled sb keys.1.1 keys.1.2 keys.2.1 keys.2.2

/-- `rename_overwrite_linked_symlink_at_path_journaled`. -/
def renameOverwriteLinkedSymlinkAtPathJournaled (sb : Superblock)
    (source destination : String) : DevM σ RecoveryReport := do
  let keys ← resolveRenameOverwriteParents sb source destination
  renameOverwriteLinkedSymlinkJournaled sb keys.1.1 keys.1.2 keys.2.1 keys.2.2

/-- The messages of `split_path` in `path_directory_rename_overwrite.rs`. -/
def directoryOverwriteSplit (label : String) : SplitMessages where
  relative := label ++ " must name a non-root absolute path"
  root := label ++ " must name a non-root absolute path"
  missing := label ++ " lacks a final component"
  empty := label ++ " final component is empty"

/-- `rename_overwrite_directory_at_path_journaled`. -/
def renameOverwriteDirectoryAtPathJournaled (sb : Superblock)
    (source destination : String) : DevM σ RecoveryReport := do
  let s ← normalizeDirectoryIntent source "directory rename-overwrite source"
  let t ← normalizeDirectoryIntent destination
    "directory rename-overwrite destination"
  let keys ← enterKeys
    (directoryOverwriteSplit "directory rename-overwrite source")
    (directoryOverwriteSplit "directory rename-overwrite destination") sb s.1 t.1
  renameOverwriteDirectoryJournaled sb keys.1.1 keys.1.2 keys.2.1 keys.2.2

/-- `resolve_exchange_parents`. -/
def resolveExchangeParents (sb : Superblock) (first second : String) :
    DevM σ ((UInt64 × String) × (UInt64 × String)) :=
  enterKeys (renameSplit "first exchange path")
    (renameSplit "second exchange path") sb first second

/-- `rename_exchange_files_at_path_journaled`. -/
def renameExchangeFilesAtPathJournaled (sb : Superblock)
    (first second : String) : DevM σ RecoveryReport := do
  let keys ← resolveExchangeParents sb first second
  renameExchangeFilesJournaled sb keys.1.1 keys.1.2 keys.2.1 keys.2.2

/-- `rename_exchange_symlinks_at_path_journaled`. -/
def renameExchangeSymlinksAtPathJournaled (sb : Superblock)
    (first second : String) : DevM σ RecoveryReport := do
  let keys ← resolveExchangeParents sb first second
  renameExchangeSymlinksJournaled sb keys.1.1 keys.1.2 keys.2.1 keys.2.2

/-- `rename_exchange_directories_at_path_journaled`. -/
def renameExchangeDirectoriesAtPathJournaled (sb : Superblock)
    (first second : String) : DevM σ RecoveryReport := do
  let s ← normalizeDirectoryIntent first "first directory exchange path"
  let t ← normalizeDirectoryIntent second "second directory exchange path"
  let keys ← resolveExchangeParents sb s.1 t.1
  renameExchangeDirectoriesJournaled sb keys.1.1 keys.1.2 keys.2.1 keys.2.2

/-- `rename_exchange_at_path_journaled`. -/
def renameExchangeAtPathJournaled (sb : Superblock) (first second : String) :
    DevM σ RecoveryReport := do
  let s ← normalizeDirectoryIntent first "first rename-exchange path"
  let t ← normalizeDirectoryIntent second "second rename-exchange path"
  let keys ← enterKeys (renameSplit "first rename-exchange path")
    (renameSplit "second rename-exchange path") sb s.1 t.1
  let entries ← Effect.query (loadDirectoryTable · sb)
  let firstEntry ← okOr (lookupEntry entries keys.1.1 keys.1.2)
    (invalidInput "first rename-exchange entry does not exist")
  let secondEntry ← okOr (lookupEntry entries keys.2.1 keys.2.2)
    (invalidInput "second rename-exchange entry does not exist")
  let inodes ← Effect.query (loadInodeTable · sb)
  let firstInode ← okOr (findInode inodes firstEntry.target)
    (invalidInput "first rename-exchange inode is missing")
  let secondInode ← okOr (findInode inodes secondEntry.target)
    (invalidInput "second rename-exchange inode is missing")
  rejectIf (firstInode.kind ≠ secondInode.kind) (invalidInput
    "rename-exchange endpoints must have matching inode kinds")
  rejectIf ((s.2 || t.2) = true ∧ firstInode.kind ≠ .directory) (invalidInput
    "trailing-slash rename-exchange requires directory endpoints")
  match firstInode.kind with
  | .file =>
    renameExchangeFilesJournaled sb keys.1.1 keys.1.2 keys.2.1 keys.2.2
  | .symlink =>
    renameExchangeSymlinksJournaled sb keys.1.1 keys.1.2 keys.2.1 keys.2.2
  | .directory =>
    renameExchangeDirectoriesJournaled sb keys.1.1 keys.1.2 keys.2.1 keys.2.2

end Device

end FilesystemLab
