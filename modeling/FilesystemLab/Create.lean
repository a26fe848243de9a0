import FilesystemLab.PathLookup

/-!
# Create

`path_create.rs`, `path_symlink.rs`, the part of `symlink.rs` that creates a
link, and `hard_link_tx.rs`.

The functions that create an inode take a fresh identifier and free blocks,
append the inode and an entry for it to the tables, and publish the three tables
with the contents of the new blocks in one transaction.  `Created` is what they
leave.  A hard link is one more entry for an inode that is there.
-/

namespace FilesystemLab

open WriteLog

/-! ## Fresh identifiers and blocks -/

/-- The largest identifier of a table. -/
def maxInodeId (inodes : List PersistedInode) : Nat :=
  inodes.foldl (fun largest inode => max largest inode.id.toNat) 0

/-- `next_inode_id` of `path_create.rs`. -/
def nextInodeId (inodes : List PersistedInode) : Result UInt64 := do
  rejectIf (¬ (inodes.map PersistedInode.id).Nodup)
    (invalidData "inode table contains duplicate identifiers")
  let id ← okOr ((checkedAdd (maxInodeId inodes) 1).filter fun id => id ≠ 0)
    (invalidInput "no fresh inode identifier is available")
  pure (UInt64.ofNat id)

/-- `next_inode_id` of `symlink.rs`. -/
def nextSymlinkInodeId (inodes : List PersistedInode) : Result UInt64 := do
  let id ← okOr (checkedAdd (maxInodeId inodes) 1)
    (invalidInput "symlink inode identifier space exhausted")
  pure (UInt64.ofNat id)

/-- The loops that allocate one block for each image. -/
def allocateEach (a : BlockAllocator) :
    Nat → Result (List UInt64 × BlockAllocator)
  | 0 => pure ([], a)
  | n + 1 => do
    let taken ← liftInput a.allocate
    let rest ← allocateEach taken.2 n
    pure (UInt64.ofNat taken.1 :: rest.1, rest.2)

/-- What one allocation takes. -/
theorem takes_of_allocate {a a' : BlockAllocator} {first : Nat}
    (h : a.allocate = .ok (first, a')) (htotal : a.totalBlocks ≤ U64_LIMIT) :
    Takes a a' [UInt64.ofNat first] := by
  obtain ⟨htotal', hreserved', hlo, hhi, hfree, hflag⟩ :=
    BlockAllocator.allocateContiguous_eq_ok h
  have hfirst : (UInt64.ofNat first).toNat = first :=
    UInt64.toNat_ofNat_of_lt' (show first < U64_LIMIT by omega)
  refine ⟨htotal', hreserved', List.nodup_singleton _, ?_, ?_⟩
  · intro block hblock
    rw [List.mem_singleton.mp hblock, hfirst]
    exact hfree first (Nat.le_refl _) (by omega)
  · intro b
    have hiff : first ≤ b ∧ b < first + 1 ↔ b ∈ [first] := by
      rw [List.mem_singleton]
      omega
    rw [hflag, List.map_singleton, hfirst, decide_eq_decide.mpr hiff]

/-- Blocks that are taken one after the other are taken together. -/
theorem Takes.trans {a a' a'' : BlockAllocator} {blocks rest : List UInt64}
    (h : Takes a a' blocks) (h' : Takes a' a'' rest) :
    Takes a a'' (blocks ++ rest) := by
  have hstill : ∀ block ∈ rest,
      block ∉ blocks ∧ a.flag block.toNat = false := by
    intro block hblock
    have hfree := h'.free block hblock
    rw [h.flag, Bool.or_eq_false_iff, decide_eq_false_iff_not] at hfree
    exact ⟨fun hmem => hfree.1 (List.mem_map_of_mem hmem), hfree.2⟩
  refine ⟨h'.totalBlocks.trans h.totalBlocks,
    h'.reservedBlocks.trans h.reservedBlocks, ?_, ?_, ?_⟩
  · rw [List.nodup_append]
    refine ⟨h.nodup, h'.nodup, ?_⟩
    intro block hblock _ hrest heq
    subst heq
    exact (hstill block hrest).1 hblock
  · intro block hblock
    rcases List.mem_append.mp hblock with hblock | hblock
    · exact h.free block hblock
    · exact (hstill block hblock).2
  · intro b
    have hiff : b ∈ (blocks ++ rest).map UInt64.toNat ↔
        b ∈ rest.map UInt64.toNat ∨ b ∈ blocks.map UInt64.toNat := by
      rw [List.map_append, List.mem_append]
      exact Or.comm
    rw [h'.flag, h.flag, decide_eq_decide.mpr hiff, Bool.decide_or,
      Bool.or_assoc]

/-- The loop takes as many blocks as asked for. -/
theorem allocateEach_eq_ok {a a' : BlockAllocator} {n : Nat}
    {blocks : List UInt64} (h : allocateEach a n = .ok (blocks, a'))
    (htotal : a.totalBlocks ≤ U64_LIMIT) :
    Takes a a' blocks ∧ blocks.length = n := by
  induction n generalizing a blocks with
  | zero =>
    simp only [allocateEach, Except.pure_eq_ok, Except.ok.injEq,
      Prod.mk.injEq] at h
    obtain ⟨rfl, rfl⟩ := h
    exact ⟨takes_nil a, rfl⟩
  | succ n ih =>
    simp only [allocateEach, Except.bind_eq_ok, liftInput_eq_ok,
      Except.pure_eq_ok, Except.ok.injEq, Prod.mk.injEq] at h
    obtain ⟨⟨first, mid⟩, htaken, ⟨rest, _⟩, hrest, rfl, rfl⟩ := h
    have hone := takes_of_allocate htaken htotal
    obtain ⟨hmore, hlen⟩ := ih hrest (by rw [hone.totalBlocks]; exact htotal)
    exact ⟨hone.trans hmore, by rw [List.length_cons, hlen]⟩

/-! ## The operations -/

/-- The checks on the key of a new entry; `missing`, `notDirectory` and `taken`
are the errors of the function that makes them. -/
def validateNewEntry (missing : IoError) (notDirectory taken : String)
    (parent : UInt64) (name : String) (inodes : List PersistedInode)
    (entries : List PersistedDirectoryEntry) : Result Unit := do
  let inode ← okOr (findInode inodes parent) missing
  rejectIf (inode.kind ≠ .directory) (invalidInput notDirectory)
  rejectIf (∃ entry ∈ entries, entry.parent = parent ∧ entry.name = name)
    (invalidInput taken)

/-- `validate_create_destination`. -/
def validateCreateDestination (parent : UInt64) (name : String)
    (inodes : List PersistedInode) (entries : List PersistedDirectoryEntry) :
    Result Unit :=
  validateNewEntry
    (invalidData "resolved parent inode is missing from inode table")
    "create parent pathname is not a directory"
    "create destination already exists" parent name inodes entries

/-- `validate_destination` of `symlink.rs`. -/
def validateSymlinkDestination (parent : UInt64) (name : String)
    (inodes : List PersistedInode) (entries : List PersistedDirectoryEntry) :
    Result Unit :=
  validateNewEntry (invalidInput "symlink parent inode is missing")
    "symlink parent must be a directory" "symlink destination already exists"
    parent name inodes entries

/-- The messages of `split_destination` in `path_create.rs`. -/
def createSplit : SplitMessages where
  relative := "create destination must be an absolute path"
  root := "create destination cannot be the root path"
  missing := "create destination must contain a final component"
  empty := "create destination final component is empty"

/-- The messages of `split_destination` in `path_symlink.rs`. -/
def symlinkSplit : SplitMessages where
  relative := "symlink destination must be an absolute path"
  root := "symlink destination cannot be the root path"
  missing := "symlink destination must contain a final component"
  empty := "symlink destination final component is empty"

/-- `strip_single_directory_trailing_slash`. -/
def stripSingleDirectoryTrailingSlash (path : String) : Result String :=
  if path = "/" ∨ endsWithSlash path = false then pure path
  else do
    let stripped := String.ofList path.toList.dropLast
    rejectIf (endsWithSlash stripped = true) (invalidInput
      "directory create destination contains repeated trailing separators")
    pure stripped

section Device

variable {σ : Type} [BlockDevice σ]

/-- `create_blockless_inode_at_path_journaled`. -/
def createBlocklessInodeAtPathJournaled (sb : Superblock) (destination : String)
    (kind : InodeKind) : DevM σ (UInt64 × RecoveryReport) := do
  let parts ← splitPath createSplit destination
  let _ ← recoverJournalAndCheckpointChecked sb
  let parent ← Effect.query (resolvePathFollowingSymlinks · sb parts.1)
  let allocator ← Effect.query (loadAllocator · sb)
  let inodes ← Effect.query (loadInodeTable · sb)
  let entries ← Effect.query (loadDirectoryTable · sb)
  validateCreateDestination parent parts.2 inodes entries
  let id ← nextInodeId inodes
  let _ ← encodeDirectoryEntry ⟨parent, id, parts.2⟩
  let inode ← PersistedInode.new id kind []
  let report ← storeCreateMetadataJournaled sb allocator (inodes ++ [inode])
    (entries ++ [⟨parent, id, parts.2⟩])
  pure (id, report)

/-- `create_empty_file_at_path_journaled`. -/
def createEmptyFileAtPathJournaled (sb : Superblock) (destination : String) :
    DevM σ (UInt64 × RecoveryReport) :=
  createBlocklessInodeAtPathJournaled sb destination .file

/-- `create_directory_at_path_journaled`. -/
def createDirectoryAtPathJournaled (sb : Superblock) (destination : String) :
    DevM σ (UInt64 × RecoveryReport) := do
  let destination ← stripSingleDirectoryTrailingSlash destination
  createBlocklessInodeAtPathJournaled sb destination .directory

/-- `create_file_with_blocks_and_size_at_path_journaled`. -/
def createFileWithBlocksAndSizeAtPathJournaled (sb : Superblock)
    (destination : String) (data : List Block) (byteLen : UInt64) :
    DevM σ (UInt64 × RecoveryReport) := do
  rejectIf (data = []) (invalidInput
    "multi-block file create requires at least one logical block")
  let parts ← splitPath createSplit destination
  let _ ← recoverJournalAndCheckpointChecked sb
  let parent ← Effect.query (resolvePathFollowingSymlinks · sb parts.1)
  let allocator ← Effect.query (loadAllocator · sb)
  let inodes ← Effect.query (loadInodeTable · sb)
  let entries ← Effect.query (loadDirectoryTable · sb)
  validateCreateDestination parent parts.2 inodes entries
  let id ← nextInodeId inodes
  let taken ← allocateEach allocator data.length
  let _ ← encodeDirectoryEntry ⟨parent, id, parts.2⟩
  let inode ← PersistedInode.newFileWithSize id taken.1 byteLen
  let report ← storeCreateWithBlocksJournaled sb taken.2 (inodes ++ [inode])
    (entries ++ [⟨parent, id, parts.2⟩]) (taken.1.zip data)
  pure (id, report)

/-- `create_file_with_blocks_at_path_journaled`. -/
def createFileWithBlocksAtPathJournaled (sb : Superblock)
    (destination : String) (data : List Block) :
    DevM σ (UInt64 × RecoveryReport) := do
  let byteLen ← okOr (checkedMul data.length BLOCK_SIZE)
    (invalidInput "multi-block file create byte length overflows")
  createFileWithBlocksAndSizeAtPathJournaled sb destination data
    (UInt64.ofNat byteLen)

/-- The tables of `collect_metadata_changes` in `symlink.rs`. -/
def symlinkImages (sb : Superblock) (a : BlockAllocator)
    (inodes : List PersistedInode) (entries : List PersistedDirectoryEntry) :
    List (TableImage × Result (List UInt8)) :=
  [allocationPair sb a
      "symlink image did not render every allocation metadata block",
    inodePair sb inodes
      "symlink image did not render every inode metadata block",
    directoryPair sb entries
      "symlink image did not render every directory metadata block"]

/-- The ends of the functions that write data blocks: one transaction, which may
also be empty, its publication and its recovery. -/
def publishTransaction (mismatch : String) (sb : Superblock)
    (changed : List (Nat × Block)) : DevM σ RecoveryReport := do
  let entries ← JournalLog.transaction changed
  storeJournalImage sb entries
  let report ← recoverJournalAndCheckpoint sb
  rejectIf (report.committedTransactions ≠ 1 ∨
      report.homeWrites ≠ changed.length) (invalidData mismatch)
  pure report

/-- `publish_changes` of `symlink.rs`, which also publishes no changes. -/
def publishSymlinkChanges (sb : Superblock) (changed : List (Nat × Block)) :
    DevM σ RecoveryReport :=
  publishTransaction "symlink recovery report is inconsistent" sb changed

/-- `create_symlink_journaled`. -/
def createSymlinkJournaled (sb : Superblock) (parent : UInt64) (name : String)
    (target : String) : DevM σ (UInt64 × RecoveryReport) := do
  let images ← encodeTargetBlocks target
  let allocator ← Effect.query (loadAllocator · sb)
  let inodes ← Effect.query (loadInodeTable · sb)
  let entries ← Effect.query (loadDirectoryTable · sb)
  validateSymlinkDestination parent name inodes entries
  let id ← nextSymlinkInodeId inodes
  let taken ← allocateEach allocator images.length
  let inode ← PersistedInode.new id .symlink taken.1
  let tables ← Effect.query (ImageStore.collect
    ⟨(symlinkImages sb taken.2 (inodes ++ [inode])
        (entries ++ [⟨parent, id, name⟩])).map Prod.fst,
      "symlink image rendered outside allocation, inode, and directory metadata regions"⟩
    sb)
  let report ← publishSymlinkChanges sb
    (tables ++ dataWrites (taken.1.zip images))
  pure (id, report)

/-- `create_symlink_at_path_journaled`. -/
def createSymlinkAtPathJournaled (sb : Superblock) (destination : String)
    (target : String) : DevM σ (UInt64 × RecoveryReport) := do
  let parts ← splitPath symlinkSplit destination
  let _ ← recoverJournalAndCheckpointChecked sb
  let parent ← Effect.query (resolvePathFollowingSymlinks · sb parts.1)
  createSymlinkJournaled sb parent parts.2 target

/-- `validate_link_endpoints`. -/
def validateLinkEndpoints (device : σ) (sb : Superblock) (parent : UInt64)
    (name : String) (target : UInt64) (requiredKind : InodeKind) :
    Result Unit := do
  let inodes ← loadInodeTable device sb
  let parentInode ← okOr (findInode inodes parent)
    (invalidInput "hard-link parent inode is missing")
  rejectIf (parentInode.kind ≠ .directory)
    (invalidInput "hard-link parent must be a directory")
  let targetInode ← okOr (findInode inodes target)
    (invalidInput "hard-link target inode is missing")
  rejectIf (targetInode.kind ≠ requiredKind)
    (invalidInput "hard-link target has the wrong inode kind")
  let entries ← loadDirectoryTable device sb
  rejectIf (∃ entry ∈ entries, entry.parent = parent ∧ entry.name = name)
    (invalidInput "hard-link destination already exists")

/-- `publish_link`. -/
def publishLink (sb : Superblock) (parent : UInt64) (name : String)
    (target : UInt64) : DevM σ RecoveryReport := do
  let entries ← Effect.query (loadDirectoryTable · sb)
  storeDirectoryTableAndCheckpoint sb (entries ++ [⟨parent, target, name⟩])

/-- `hard_link_file_journaled`. -/
def hardLinkFileJournaled (sb : Superblock) (parent : UInt64) (name : String)
    (target : UInt64) : DevM σ RecoveryReport := do
  Effect.query (validateLinkEndpoints · sb parent name target .file)
  publishLink sb parent name target

/-- `hard_link_symlink_journaled`. -/
def hardLinkSymlinkJournaled (sb : Superblock) (parent : UInt64) (name : String)
    (target : UInt64) : DevM σ RecoveryReport := do
  Effect.query (validateLinkEndpoints · sb parent name target .symlink)
  let _ ← Effect.query (readSymlink · sb target)
  publishLink sb parent name target

end Device

/-! ## What the transactions leave -/

section Stores

variable {d : Disk} {sb : Superblock} {a a' : BlockAllocator}
  {inodes inodes' : List PersistedInode}
  {entries entries' : List PersistedDirectoryEntry}
  {data : List (UInt64 × Block)} {blocks : List UInt64} {images : List Block}

/-- The names of the data blocks are distinct. -/
theorem nodup_dataWrites (hnodup : (data.map Prod.fst).Nodup) :
    ((dataWrites data).map Prod.fst).Nodup := by
  have hmap : (dataWrites data).map Prod.fst =
      (data.map Prod.fst).map UInt64.toNat := by
    simp [dataWrites, Function.comp_def]
  rw [hmap]
  exact hnodup.map fun _ _ heq => UInt64.toNat_inj.mp heq

/-- Data blocks proper lie behind the tables. -/
theorem reserved_le_dataWrites
    (hdata : ∀ w ∈ data, sb.reservedBlocks ≤ w.1.toNat) :
    ∀ w ∈ dataWrites data, sb.reservedBlocks ≤ w.1 := by
  intro w hw
  obtain ⟨v, hv, rfl⟩ := List.mem_map.mp hw
  exact hdata v hv

/-- `store_create_with_blocks_journaled` on a disk at rest, with data blocks
proper. -/
theorem AtRest.storeCreateWithBlocks (h : AtRest d sb a inodes entries)
    (hdata : ∀ w ∈ data, sb.reservedBlocks ≤ w.1.toNat) :
    Effect.Atomic (storeCreateWithBlocksJournaled sb a' inodes' entries' data) d
      fun _ d' => Became sb d d' a' (inodes'.map PersistedInode.canonical)
        entries' (dataWrites data) := by
  have hle := reserved_le_dataWrites hdata
  cases hchecks : checkCreateWithBlocks a' inodes' (data.map Prod.fst) with
  | error e => exact .inl (createWithBlocks_rejected h.size (.inl hchecks))
  | ok u =>
    have hnodup : (data.map Prod.fst).Nodup := by
      simp only [checkCreateWithBlocks, Except.bind_eq_ok] at hchecks
      obtain ⟨_, _, _, _, hblocks⟩ := hchecks
      exact (checkDataBlocks_eq_ok.mp hblocks).1
    cases htables : renderedWrites (createImages sb a' inodes' entries') with
    | error e => exact .inl (createWithBlocks_rejected h.size (.inr htables))
    | ok tables =>
      have hnodup := nodup_dataWrites hnodup
      cases stores_createWithBlocks h.size hchecks htables with
      | rejected e hrun => exact .inl ⟨e, hrun⟩
      | same hws hrun =>
        exact .inr ⟨_, _, hrun, h.became_self htables hle hnodup
          (differing_eq_nil.mpr hws)⟩
      | committed hacc hrun =>
        exact .inr ⟨_, _, hrun, h.became htables hle hnodup hacc.applied⟩

/-- A transaction that also writes data which is in place leaves the same. -/
theorem Applied.differing_data {d' : Disk} {tables writes : List (Nat × Block)}
    (hnodup : ((tables ++ writes).map Prod.fst).Nodup)
    (h : Applied sb d d' (differing d.blocks tables ++ writes)) :
    Applied sb d d' (differing d.blocks (tables ++ writes)) := by
  have htables : (tables.map Prod.fst).Nodup := by
    rw [List.map_append] at hnodup
    exact hnodup.of_append_left
  refine ⟨h.size, h.vacant, ?_⟩
  intro b hb
  rw [h.home b hb, overlay_differing hnodup, overlay_append, overlay_append,
    overlay_differing htables]

/-- With some changes, the transaction is the usual one. -/
theorem publishTransaction_eq {changed : List (Nat × Block)}
    (hne : changed ≠ []) (mismatch : String) :
    (publishTransaction mismatch sb changed : DevM Disk RecoveryReport) =
      publishChanges recoverJournalAndCheckpoint mismatch sb changed := by
  unfold publishChanges
  rw [if_neg hne]
  rfl

/-- What a transaction of tables and data blocks asks for are blocks of the
device. -/
theorem publishRequest_lt {tables : List (Nat × Block)}
    (htables : renderedWrites (createImages sb a' inodes' entries') =
      .ok tables) :
    ∀ w ∈ differing d.blocks tables ++ dataWrites data, w.1 < U64_LIMIT := by
  intro w hw
  rcases List.mem_append.mp hw with hw | hw
  · have hlayout := sb.layout
    have := range_of_tables htables (List.mem_of_mem_filter hw)
    omega
  · obtain ⟨v, _, rfl⟩ := List.mem_map.mp hw
    exact v.1.toNat_lt

theorem append_dataWrites_ne_nil (changes : List (Nat × Block))
    (hne : data ≠ []) : changes ++ dataWrites data ≠ [] := by
  intro hnil
  exact hne (List.map_eq_nil_iff.mp (List.append_eq_nil_iff.mp hnil).2)

/-- **A transaction of tables and data blocks on a disk at rest.** -/
theorem AtRest.publishTransaction (h : AtRest d sb a inodes entries)
    {tables : List (Nat × Block)}
    (htables : renderedWrites (createImages sb a' inodes' entries') =
      .ok tables)
    (hdata : ∀ w ∈ data, sb.reservedBlocks ≤ w.1.toNat)
    (hnodup : (data.map Prod.fst).Nodup)
    (hne : differing d.blocks tables ++ dataWrites data ≠ [])
    (mismatch : String) :
    Effect.Atomic (FilesystemLab.publishTransaction mismatch sb
        (differing d.blocks tables ++ dataWrites data)) d
      fun _ d' => Became sb d d' a' (inodes'.map PersistedInode.canonical)
        entries' (dataWrites data) := by
  have hle := reserved_le_dataWrites hdata
  have hdistinct := nodup_dataWrites hnodup
  rw [publishTransaction_eq hne]
  rcases publishChanges_cases recovers_recoverJournalAndCheckpoint mismatch sb d
    (publishRequest_lt htables) with ⟨hnil, _⟩ | ⟨_, _, herr⟩ | ⟨hacc, hrun⟩
  · exact absurd hnil hne
  · exact .inl herr
  · refine .inr ⟨_, _, hrun, h.became htables hle hdistinct ?_⟩
    exact hacc.applied.differing_data (nodup_request htables hle hdistinct)

/-- A transaction that fits the journal is published. -/
theorem AtRest.publishTransaction_ok (h : AtRest d sb a inodes entries)
    {tables : List (Nat × Block)}
    (htables : renderedWrites (createImages sb a' inodes' entries') =
      .ok tables)
    (hdata : ∀ w ∈ data,
      sb.reservedBlocks ≤ w.1.toNat ∧ w.1.toNat < sb.totalBlocks)
    (hne : differing d.blocks tables ++ dataWrites data ≠ [])
    (hfits : ChangesFit sb (differing d.blocks tables ++ dataWrites data))
    (mismatch : String) :
    ∃ report d', FilesystemLab.publishTransaction mismatch sb
      (differing d.blocks tables ++ dataWrites data) d = (.ok report, d') := by
  have hhome : ∀ w ∈ differing d.blocks tables ++ dataWrites data,
      sb.homeTarget w.1 := by
    intro w hw
    rw [sb.homeTarget_iff]
    have hlayout := sb.layout
    rcases List.mem_append.mp hw with hw | hw
    · have := range_of_tables htables (List.mem_of_mem_filter hw)
      omega
    · obtain ⟨v, hv, rfl⟩ := List.mem_map.mp hw
      have := hdata v hv
      show _ ∧ v.1.toNat < _
      omega
  have haccepts := (storeAccepts_transactionEntries hhome).mpr
    ⟨h.size, h.vacant, hfits⟩
  rw [publishTransaction_eq hne]
  rcases publishChanges_cases recovers_recoverJournalAndCheckpoint mismatch sb d
    (publishRequest_lt htables) with ⟨hnil, _⟩ | ⟨_, hno, _⟩ | ⟨_, hrun⟩
  · exact absurd hnil hne
  · exact absurd haccepts hno
  · exact ⟨_, _, hrun⟩

/-- Blocks that hold some images are read as these. -/
theorem readBlocks_of_held (hlen : blocks.length = images.length)
    (hrange : ∀ block ∈ blocks, block.toNat < d.size)
    (hheld : ∀ w ∈ blocks.zip images, d.blocks w.1.toNat = w.2) :
    readBlocks d blocks = .ok images := by
  induction blocks generalizing images with
  | nil =>
    rw [List.length_nil] at hlen
    rw [List.length_eq_zero_iff.mp hlen.symm]
    rfl
  | cons block blocks ih =>
    cases images with
    | nil => simp at hlen
    | cons image images =>
      rw [List.forall_mem_cons] at hrange
      rw [List.zip_cons_cons, List.forall_mem_cons] at hheld
      rw [readBlocks, Disk.readBlock_of_lt hrange.1, Except.ok_bind, hheld.1,
        ih (by simpa using hlen) hrange.2 hheld.2]
      rfl

end Stores

/-! ## A new inode -/

namespace PersistedInode

/-- A new inode is in its canonical form. -/
theorem canonical_of_validate {inode : PersistedInode} {n : UInt64}
    (h : validateInodeFields inode.id inode.kind inode.blocks inode.byteLen
      false = .ok n) : inode.canonical = inode := by
  have hn := validateInodeFields_exact h
  subst hn
  exact canonical_of_ok
    (liftMessage_eq_ok.mpr (validateInodeFields_canonical h true))

theorem new_eq_ok {id : UInt64} {kind : InodeKind} {blocks : List UInt64}
    {inode : PersistedInode} (h : new id kind blocks = .ok inode) :
    inode.id = id ∧ inode.kind = kind ∧ inode.blocks = blocks ∧
      inode.canonical = inode := by
  simp only [new, Except.bind_eq_ok, liftMessage_eq_ok, Except.pure_eq_ok,
    Except.ok.injEq] at h
  obtain ⟨_, _, _, hfields, rfl⟩ := h
  exact ⟨rfl, rfl, rfl, canonical_of_validate hfields⟩

theorem newFileWithSize_eq_ok {id : UInt64} {blocks : List UInt64}
    {byteLen : UInt64} {inode : PersistedInode}
    (h : newFileWithSize id blocks byteLen = .ok inode) :
    inode.id = id ∧ inode.kind = .file ∧ inode.blocks = blocks ∧
      inode.canonical = inode := by
  simp only [newFileWithSize, Except.bind_eq_ok, liftMessage_eq_ok,
    Except.pure_eq_ok, Except.ok.injEq] at h
  obtain ⟨_, hfields, rfl⟩ := h
  exact ⟨rfl, rfl, rfl, canonical_of_validate hfields⟩

/-- A new file has the length that it is given. -/
theorem byteLen_of_newFileWithSize {id : UInt64} {blocks : List UInt64}
    {byteLen : UInt64} {inode : PersistedInode}
    (h : newFileWithSize id blocks byteLen = .ok inode) :
    inode.byteLen = byteLen := by
  simp only [newFileWithSize, Except.bind_eq_ok, Except.pure_eq_ok,
    Except.ok.injEq] at h
  obtain ⟨_, _, rfl⟩ := h
  rfl

/-- A new file is as long as its blocks. -/
theorem byteLen_of_new_file {id : UInt64} {blocks : List UInt64}
    {inode : PersistedInode} (h : new id .file blocks = .ok inode) :
    inode.byteLen.toNat = blocks.length * BLOCK_SIZE := by
  simp only [new, defaultByteLen, blockCapacity, if_true, Except.bind_eq_ok,
    liftMessage_eq_ok, Except.pure_eq_ok, Except.ok.injEq] at h
  obtain ⟨n, hlen, _, _, rfl⟩ := h
  cases hcapacity : checkedMul blocks.length BLOCK_SIZE with
  | none =>
    rw [hcapacity] at hlen
    cases hlen
  | some capacity =>
    rw [hcapacity] at hlen
    cases hlen
    obtain ⟨hlt, rfl⟩ := checkedMul_eq_some.mp hcapacity
    exact UInt64.toNat_ofNat_of_lt' hlt

/-- A new inode without blocks is empty. -/
theorem byteLen_of_new_nil {id : UInt64} {kind : InodeKind}
    {inode : PersistedInode} (h : new id kind [] = .ok inode) :
    inode.byteLen = 0 := by
  simp only [new, Except.bind_eq_ok, liftMessage_eq_ok, Except.pure_eq_ok,
    Except.ok.injEq] at h
  obtain ⟨n, hlen, _, _, rfl⟩ := h
  have hcapacity : blockCapacity [] = .ok 0 := rfl
  unfold defaultByteLen at hlen
  rw [hcapacity] at hlen
  split at hlen <;> cases hlen <;> rfl

end PersistedInode

/-- The disk `d'` is `d`, with these tables, with a new inode and an entry for
it, and the blocks of the other inodes are as they were. -/
structure Created (sb : Superblock) (d d' : Disk)
    (inodes : List PersistedInode) (entries : List PersistedDirectoryEntry)
    (parent : UInt64) (name : String) (inode : PersistedInode) : Prop where
  parent_kind : kindOf inodes parent = some .directory
  mounted : ∃ a, Mounted d' sb a (inodes ++ [inode])
    (entries ++ [⟨parent, inode.id, name⟩])
  contents : ∀ other ∈ inodes, ∀ block ∈ other.blocks,
    readBlock d' block.toNat = readBlock d block.toNat

namespace Created

variable {sb : Superblock} {d d' : Disk} {inodes : List PersistedInode}
  {entries : List PersistedDirectoryEntry} {parent : UInt64} {name : String}
  {inode : PersistedInode}

/-- The identifier is new. -/
theorem fresh (h : Created sb d d' inodes entries parent name inode) :
    ∀ other ∈ inodes, other.id ≠ inode.id := by
  obtain ⟨a, hm⟩ := h.mounted
  have hnodup := hm.nodup_ids
  rw [List.map_append, List.nodup_append] at hnodup
  intro other hother
  exact hnodup.2.2 other.id (List.mem_map_of_mem hother) inode.id (by simp)

/-- The key is new. -/
theorem absent (h : Created sb d d' inodes entries parent name inode) :
    ∀ entry ∈ entries, ¬ (entry.parent = parent ∧ entry.name = name) := by
  obtain ⟨a, hm⟩ := h.mounted
  have hnodup := hm.nodup_keys
  rw [List.map_append, List.nodup_append] at hnodup
  intro entry hentry hfacts
  rcases hfacts with ⟨hparent, hname⟩
  apply hnodup.2.2 (directoryFormat.key entry) (List.mem_map_of_mem hentry)
    (parent, name) (by simp [directoryFormat])
  show (entry.parent, entry.name) = (parent, name)
  rw [hparent, hname]

end Created

section Mounted

variable {d d' : Disk} {sb : Superblock} {a a' : BlockAllocator}
  {inodes : List PersistedInode} {entries : List PersistedDirectoryEntry}
  {parent : UInt64} {name : String} {inode : PersistedInode}
  {data : List (Nat × Block)}

/-- **A new inode keeps the disk consistent.** -/
theorem Mounted.created (h : Mounted d sb a inodes entries)
    (hbecame : Became sb d d' a'
      ((inodes ++ [inode]).map PersistedInode.canonical)
      (entries ++ [⟨parent, inode.id, name⟩]) data)
    (hcanonical : inode.canonical = inode)
    (hparent : kindOf inodes parent = some .directory)
    (htakes : Takes a a' inode.blocks)
    (hdata : ∀ w ∈ data, w.1 ∈ inode.blocks.map UInt64.toNat)
    (hpayload : validateSymlinkInode d' inode = .ok ()) :
    Created sb d d' inodes entries parent name inode := by
  rw [List.map_append, h.canonical, List.map_singleton, hcanonical] at hbecame
  have hnodup := hbecame.nodup_ids
  have hfresh : ∀ other ∈ inodes, other.id ≠ inode.id := by
    rw [List.map_append, List.nodup_append] at hnodup
    intro other hother
    exact hnodup.2.2 other.id (List.mem_map_of_mem hother) inode.id (by simp)
  -- the blocks of the old inodes are not among the new ones
  have hkept : ∀ other ∈ inodes, ∀ block ∈ other.blocks,
      block.toNat ∉ data.map Prod.fst := by
    intro other hother block hblock hmem
    obtain ⟨w, hw, heq⟩ := List.mem_map.mp hmem
    obtain ⟨new, hnew, hsame⟩ := List.mem_map.mp (hdata w hw)
    have hset := h.owned.data other hother block hblock
    rw [← heq, ← hsame, htakes.free new hnew] at hset
    cases hset
  have htree : Namespace (inodes ++ [inode])
      (entries ++ [⟨parent, inode.id, name⟩]) := by
    apply h.tree.addEntry _ hparent
    · rw [kindOf_of_mem hnodup (by simp)]
      exact Option.some_ne_none _
    · intro hkind
      obtain ⟨other, hother, hid, _⟩ := exists_of_kindOf hkind
      exact hfresh other hother hid
    · intro other hother
      rcases List.mem_append.mp hother with hold | hnew
      · exact .inl hold
      · exact .inr (by rw [List.mem_singleton.mp hnew])
    · intro id kind hkind
      obtain ⟨other, hother, hid, hk⟩ := exists_of_kindOf hkind
      exact (kindOf_eq_some hnodup).mpr
        ⟨other, List.mem_append_left _ hother, hid, hk⟩
  refine ⟨hparent, ⟨a', h.of_became hbecame (h.owned.take htakes) htree ?_⟩, ?_⟩
  · intro other hother
    rcases List.mem_append.mp hother with hold | hnew
    · exact .inl ⟨hold, hkept other hold⟩
    · rw [List.mem_singleton.mp hnew]
      exact .inr hpayload
  · intro other hother block hblock
    obtain ⟨htotal, hreserved⟩ := h.geometry
    have hrange :=
      BlockAllocator.range_of_flag (h.owned.data other hother block hblock)
    exact hbecame.readBlock_eq h.size (by omega) (by omega)
      (hkept other hother block hblock)

end Mounted

/-! ## The operations on a mounted disk -/

/-- A disk on which a path was created: its parent was resolved on `d`, and `d'`
has a new inode of this kind under its final component. -/
def CreatedAt (messages : SplitMessages) (sb : Superblock) (d d' : Disk)
    (inodes : List PersistedInode) (entries : List PersistedDirectoryEntry)
    (destination : String) (kind : InodeKind) (id : UInt64) : Prop :=
  ∃ parentPath parent name inode,
    splitPath messages destination = .ok (parentPath, name) ∧
    resolvePathFollowingSymlinks d sb parentPath = .ok parent ∧
    inode.id = id ∧ inode.kind = kind ∧
    Created sb d d' inodes entries parent name inode

/-- A disk on which a path was created with a new inode whose blocks, taken from
the allocator, hold `data`; the rest of the disk is as it was. -/
def CreatedWith (messages : SplitMessages) (sb : Superblock) (d d' : Disk)
    (a : BlockAllocator) (inodes : List PersistedInode)
    (entries : List PersistedDirectoryEntry) (destination : String)
    (inode : PersistedInode) (data : List Block) : Prop :=
  ∃ parentPath parent name a',
    splitPath messages destination = .ok (parentPath, name) ∧
    resolvePathFollowingSymlinks d sb parentPath = .ok parent ∧
    Created sb d d' inodes entries parent name inode ∧
    Takes a a' inode.blocks ∧ inode.blocks.length = data.length ∧
    Became sb d d' a' (inodes ++ [inode])
      (entries ++ [⟨parent, inode.id, name⟩])
      (dataWrites (inode.blocks.zip data))

section Operations

variable {d d' : Disk} {sb : Superblock} {a a' : BlockAllocator}
  {inodes : List PersistedInode} {entries : List PersistedDirectoryEntry}

theorem CreatedWith.createdAt {messages : SplitMessages} {destination : String}
    {inode : PersistedInode} {data : List Block}
    (h : CreatedWith messages sb d d' a inodes entries destination inode data) :
    CreatedAt messages sb d d' inodes entries destination inode.kind
      inode.id := by
  rcases h with ⟨parentPath, parent, name, a', hsplit, hparent, hcreated, _⟩
  exact ⟨parentPath, parent, name, inode, hsplit, hparent, rfl, rfl, hcreated⟩

/-- The checks on a new key find a directory. -/
theorem AtRest.kindOf_of_validateNewEntry (h : AtRest d sb a inodes entries)
    {missing : IoError} {notDirectory taken : String} {parent : UInt64}
    {name : String} {u : Unit}
    (hvalid : validateNewEntry missing notDirectory taken parent name inodes
      entries = .ok u) : kindOf inodes parent = some .directory := by
  simp only [validateNewEntry, Except.bind_eq_ok, okOr_eq_ok, rejectIf_eq_ok,
    not_ne_iff] at hvalid
  obtain ⟨inode, hfind, _, hkind, _⟩ := hvalid
  rw [kindOf_of_findInode h.nodup_ids hfind, hkind]

/-- `create_blockless_inode_at_path_journaled` on a mounted disk. -/
theorem Mounted.createBlockless_with (h : Mounted d sb a inodes entries)
    (destination : String) {kind : InodeKind} (hkind : kind ≠ .symlink) :
    Effect.Atomic (createBlocklessInodeAtPathJournaled sb destination kind) d
      fun r d' => ∃ inode, inode.id = r.1 ∧ inode.kind = kind ∧
        inode.byteLen = 0 ∧ CreatedWith createSplit sb d d' a inodes entries
          destination inode [] := by
  apply Effect.atomic_lift_bind
  intro parts hsplit
  apply Effect.atomic_bind_of_ok h.recoverChecked
  apply Effect.atomic_query_bind
  intro parent hparent
  apply h.atomic_allocator
  apply h.atomic_inodes
  apply h.atomic_entries
  apply Effect.atomic_lift_bind
  intro _ hvalid
  apply Effect.atomic_lift_bind
  intro id _
  apply Effect.atomic_lift_bind
  intro _ _
  apply Effect.atomic_lift_bind
  intro inode hinode
  have hzero := PersistedInode.byteLen_of_new_nil hinode
  obtain ⟨rfl, rfl, hblocks, hcanonical⟩ := PersistedInode.new_eq_ok hinode
  have htakes : Takes a a inode.blocks := by
    rw [hblocks]
    exact takes_nil a
  apply (h.storeCreateMetadata _ _ _).atomic.bind
  intro report d' hbecame
  have hcreated := h.created hbecame hcanonical
    (h.kindOf_of_validateNewEntry hvalid) htakes
    (fun w hw => absurd hw List.not_mem_nil) (if_pos hkind)
  rw [List.map_append, h.canonical, List.map_singleton, hcanonical] at hbecame
  refine ⟨_, _, rfl, inode, rfl, rfl, hzero, parts.1, parent, parts.2, a, hsplit,
    hparent, hcreated, htakes, ?_, ?_⟩
  · rw [hblocks]
    rfl
  · rw [hblocks]
    exact hbecame

theorem Mounted.createBlockless (h : Mounted d sb a inodes entries)
    (destination : String) {kind : InodeKind} (hkind : kind ≠ .symlink) :
    Effect.Atomic (createBlocklessInodeAtPathJournaled sb destination kind) d
      fun r d' => CreatedAt createSplit sb d d' inodes entries destination kind
        r.1 := by
  apply (h.createBlockless_with destination hkind).mono
  intro r d' hpost
  rcases hpost with ⟨inode, hid, rfl, _, hcreated⟩
  rw [← hid]
  exact hcreated.createdAt

/-- What is taken lies behind the tables. -/
theorem AtRest.reserved_le_of_takes (h : AtRest d sb a inodes entries)
    {blocks : List UInt64} (htakes : Takes a a' blocks) :
    ∀ block ∈ blocks, sb.reservedBlocks ≤ block.toNat := by
  obtain ⟨_, hreserved⟩ := h.geometry
  intro block hblock
  have := htakes.range hblock
  omega

theorem AtRest.takes_of_allocateEach (h : AtRest d sb a inodes entries) {n : Nat}
    {blocks : List UInt64} (hloop : allocateEach a n = .ok (blocks, a')) :
    Takes a a' blocks ∧ blocks.length = n ∧
      ∀ block ∈ blocks, sb.reservedBlocks ≤ block.toNat := by
  obtain ⟨htotal, _⟩ := h.geometry
  have hlayout := sb.layout
  obtain ⟨htakes, hlen⟩ := allocateEach_eq_ok hloop (by omega)
  exact ⟨htakes, hlen, h.reserved_le_of_takes htakes⟩

/-- The data that an edit writes to its fresh blocks. -/
theorem zip_of_takes {a mid : BlockAllocator} {fresh : List UInt64}
    {images : List Block} (htakes : Takes a mid fresh)
    (hlen : fresh.length = images.length) (hne : images ≠ [])
    (hle : ∀ block ∈ fresh, sb.reservedBlocks ≤ block.toNat) :
    (∀ w ∈ fresh.zip images, sb.reservedBlocks ≤ w.1.toNat) ∧
      ((fresh.zip images).map Prod.fst).Nodup ∧ fresh.zip images ≠ [] := by
  have hfst : (fresh.zip images).map Prod.fst = fresh :=
    List.map_fst_zip (by omega)
  refine ⟨fun w hw => hle w.1 (List.of_mem_zip hw).1, ?_, ?_⟩
  · rw [hfst]
    exact htakes.nodup
  · intro hnil
    rw [hnil, List.map_nil] at hfst
    rw [← hfst] at hlen
    exact hne (List.length_eq_zero_iff.mp hlen.symm)

/-- The end of the functions that create a file with blocks. -/
theorem Mounted.storeNewFile (h : Mounted d sb a inodes entries)
    {destination : String} {parts : String × String} {parent : UInt64} {u : Unit}
    {inode : PersistedInode} {data : List Block}
    (hsplit : splitPath createSplit destination = .ok parts)
    (hparent : resolvePathFollowingSymlinks d sb parts.1 = .ok parent)
    (hvalid : validateCreateDestination parent parts.2 inodes entries = .ok u)
    (hkind : inode.kind = .file) (hcanonical : inode.canonical = inode)
    (htakes : Takes a a' inode.blocks) (hlen : inode.blocks.length = data.length)
    (hle : ∀ block ∈ inode.blocks, sb.reservedBlocks ≤ block.toNat) :
    Effect.Atomic (storeCreateWithBlocksJournaled sb a' (inodes ++ [inode])
        (entries ++ [⟨parent, inode.id, parts.2⟩]) (inode.blocks.zip data)) d
      fun _ d' => CreatedWith createSplit sb d d' a inodes entries destination
        inode data := by
  have hzip : ∀ w ∈ inode.blocks.zip data, w.1 ∈ inode.blocks :=
    fun w hw => (List.of_mem_zip hw).1
  apply (h.storeCreateWithBlocks fun w hw => hle w.1 (hzip w hw)).mono
  intro report d' hbecame
  have hcreated := h.created hbecame hcanonical
    (h.kindOf_of_validateNewEntry hvalid) htakes (by
      intro w hw
      obtain ⟨v, hv, rfl⟩ := List.mem_map.mp hw
      exact List.mem_map_of_mem (hzip v hv)) (if_pos (by rw [hkind]; decide))
  rw [List.map_append, h.canonical, List.map_singleton, hcanonical] at hbecame
  exact ⟨parts.1, parent, parts.2, a', hsplit, hparent, hcreated, htakes, hlen,
    hbecame⟩

/-- `create_file_with_blocks_and_size_at_path_journaled` on a mounted disk. -/
theorem Mounted.createFileWithBlocksAndSize_with
    (h : Mounted d sb a inodes entries) (destination : String)
    (data : List Block) (byteLen : UInt64) :
    Effect.Atomic (createFileWithBlocksAndSizeAtPathJournaled sb destination
        data byteLen) d
      fun r d' => ∃ inode, inode.id = r.1 ∧ inode.kind = .file ∧
        inode.byteLen = byteLen ∧ CreatedWith createSplit sb d d' a inodes
          entries destination inode data := by
  apply Effect.atomic_lift_bind
  intro _ _
  apply Effect.atomic_lift_bind
  intro parts hsplit
  apply Effect.atomic_bind_of_ok h.recoverChecked
  apply Effect.atomic_query_bind
  intro parent hparent
  apply h.atomic_allocator
  apply h.atomic_inodes
  apply h.atomic_entries
  apply Effect.atomic_lift_bind
  intro _ hvalid
  apply Effect.atomic_lift_bind
  intro id _
  apply Effect.atomic_lift_bind
  rintro ⟨blocks, a'⟩ hloop
  obtain ⟨htakes, hlen, hle⟩ := h.takes_of_allocateEach hloop
  apply Effect.atomic_lift_bind
  intro _ _
  apply Effect.atomic_lift_bind
  intro inode hinode
  have hend := PersistedInode.byteLen_of_newFileWithSize hinode
  obtain ⟨rfl, hkind, hblocks, hcanonical⟩ :=
    PersistedInode.newFileWithSize_eq_ok hinode
  have hblocks : inode.blocks = blocks := hblocks
  subst hblocks
  apply (h.storeNewFile hsplit hparent hvalid hkind hcanonical htakes hlen
    hle).bind
  intro report d' hcreated
  exact ⟨_, _, rfl, inode, rfl, hkind, hend, hcreated⟩

theorem Mounted.createFileWithBlocksAndSize (h : Mounted d sb a inodes entries)
    (destination : String) (data : List Block) (byteLen : UInt64) :
    Effect.Atomic (createFileWithBlocksAndSizeAtPathJournaled sb destination
        data byteLen) d
      fun r d' => CreatedAt createSplit sb d d' inodes entries destination .file
        r.1 := by
  apply (h.createFileWithBlocksAndSize_with destination data byteLen).mono
  intro r d' hpost
  rcases hpost with ⟨inode, hid, hkind, _, hcreated⟩
  rw [← hid, ← hkind]
  exact hcreated.createdAt

/-- `create_file_with_blocks_at_path_journaled` on a mounted disk. -/
theorem Mounted.createFileWithBlocks (h : Mounted d sb a inodes entries)
    (destination : String) (data : List Block) :
    Effect.Atomic (createFileWithBlocksAtPathJournaled sb destination data) d
      fun r d' => CreatedAt createSplit sb d d' inodes entries destination .file
        r.1 := by
  apply Effect.atomic_lift_bind
  intro byteLen _
  exact h.createFileWithBlocksAndSize destination data _

/-- `create_symlink_journaled` on a mounted disk, with the target of the link. -/
theorem Mounted.createSymlink_with (h : Mounted d sb a inodes entries)
    (parent : UInt64) (name target : String) :
    Effect.Atomic (createSymlinkJournaled sb parent name target) d
      fun r d' => ∃ inode, inode.id = r.1 ∧ inode.kind = .symlink ∧
        readSymlinkInode d' inode = .ok target ∧
        Created sb d d' inodes entries parent name inode := by
  apply Effect.atomic_lift_bind
  intro images himages
  have hne := (decodeTarget_of_encode himages).2.1
  apply h.atomic_allocator
  apply h.atomic_inodes
  apply h.atomic_entries
  apply Effect.atomic_lift_bind
  intro _ hvalid
  apply Effect.atomic_lift_bind
  intro id _
  apply Effect.atomic_lift_bind
  rintro ⟨blocks, a'⟩ hloop
  obtain ⟨htakes, hlen, hle⟩ := h.takes_of_allocateEach hloop
  apply Effect.atomic_lift_bind
  intro inode hinode
  obtain ⟨rfl, hkind, hblocks, hcanonical⟩ := PersistedInode.new_eq_ok hinode
  have hblocks' : inode.blocks = blocks := hblocks
  obtain ⟨hdata, hnodup, hzipne⟩ := zip_of_takes htakes hlen hne hle
  obtain ⟨hcollect, hreject⟩ := ImageStore.collect_eq
    (renderings_threeTables sb a' (inodes ++ [inode])
      (entries ++ [⟨parent, inode.id, name⟩])
      "symlink image did not render every allocation metadata block"
      "symlink image did not render every inode metadata block"
      "symlink image did not render every directory metadata block") h.size
    "symlink image rendered outside allocation, inode, and directory metadata regions"
  apply Effect.atomic_query_bind
  intro changes hchanges
  cases htables : renderedWrites (createImages sb a' (inodes ++ [inode])
      (entries ++ [⟨parent, inode.id, name⟩])) with
  | error e =>
    obtain ⟨e', he'⟩ := hreject e htables
    have hboth := he'.symm.trans hchanges
    cases hboth
  | ok tables =>
    have hboth := (hcollect tables htables).symm.trans hchanges
    rw [Except.ok.injEq] at hboth
    subst hboth
    apply (h.publishTransaction htables hdata hnodup
      (append_dataWrites_ne_nil _ hzipne) "symlink recovery report is inconsistent").bind
    intro report d' hbecame
    -- the new payload is the encoded target
    have hread : readBlocks d' inode.blocks = .ok images := by
      have hsize := hbecame.size
      obtain ⟨htotal, _⟩ := h.geometry
      rw [hblocks']
      apply readBlocks_of_held hlen
      · intro block hblock
        have := htakes.range hblock
        omega
      · intro w hw
        rw [hbecame.contents _ (hdata w hw)]
        exact overlay_of_nodup (nodup_dataWrites hnodup)
          (List.mem_map_of_mem (f := fun w => (w.1.toNat, w.2)) hw)
    have htext := readSymlinkInode_eq_ok.mpr ⟨images, hread, himages⟩
    refine ⟨_, _, rfl, inode, rfl, hkind, htext, ?_⟩
    apply h.created hbecame hcanonical (h.kindOf_of_validateNewEntry hvalid)
    · rw [hblocks']
      exact htakes
    · intro w hw
      obtain ⟨v, hv, rfl⟩ := List.mem_map.mp hw
      rw [hblocks']
      exact List.mem_map_of_mem (List.of_mem_zip hv).1
    · rw [validateSymlinkInode, hkind, htext]
      rfl

/-- `create_symlink_journaled` on a mounted disk. -/
theorem Mounted.createSymlink (h : Mounted d sb a inodes entries)
    (parent : UInt64) (name target : String) :
    Effect.Atomic (createSymlinkJournaled sb parent name target) d
      fun r d' => ∃ inode, inode.id = r.1 ∧ inode.kind = .symlink ∧
        Created sb d d' inodes entries parent name inode := by
  apply (h.createSymlink_with parent name target).mono
  intro r d' hpost
  obtain ⟨inode, hid, hkind, _, hcreated⟩ := hpost
  exact ⟨inode, hid, hkind, hcreated⟩

/-- `create_symlink_at_path_journaled` on a mounted disk. -/
theorem Mounted.createSymlinkAtPath (h : Mounted d sb a inodes entries)
    (destination target : String) :
    Effect.Atomic (createSymlinkAtPathJournaled sb destination target) d
      fun r d' => CreatedAt symlinkSplit sb d d' inodes entries destination
        .symlink r.1 := by
  apply Effect.atomic_lift_bind
  intro parts hsplit
  apply Effect.atomic_bind_of_ok h.recoverChecked
  apply Effect.atomic_query_bind
  intro parent hparent
  apply (h.createSymlink parent parts.2 target).mono
  intro r d' hpost
  rcases hpost with ⟨inode, hid, hkind, hcreated⟩
  exact ⟨parts.1, parent, parts.2, inode, hsplit, hparent, hid, hkind,
    hcreated⟩

/-- The disk `d'` is `d`, with these tables, with another entry for an inode of
this kind. -/
structure HardLinked (sb : Superblock) (d d' : Disk) (a : BlockAllocator)
    (inodes : List PersistedInode) (entries : List PersistedDirectoryEntry)
    (parent : UInt64) (name : String) (target : UInt64) (kind : InodeKind) :
    Prop where
  kind_eq : kindOf inodes target = some kind
  became : Became sb d d' a inodes (entries ++ [⟨parent, target, name⟩]) []
  mounted : Mounted d' sb a inodes (entries ++ [⟨parent, target, name⟩])

/-- The end of the functions that add a link, on a mounted disk. -/
theorem Mounted.publishLink (h : Mounted d sb a inodes entries)
    {parent target : UInt64} {name : String} {kind : InodeKind}
    (hvalid : validateLinkEndpoints d sb parent name target kind = .ok ())
    (hkind : kind ≠ .directory) :
    Effect.Atomic (FilesystemLab.publishLink sb parent name target) d
      fun _ d' => HardLinked sb d d' a inodes entries parent name target kind := by
  simp only [validateLinkEndpoints, h.inodeTable, Except.bind_eq_ok,
    Except.ok.injEq, okOr_eq_ok, rejectIf_eq_ok, not_ne_iff] at hvalid
  obtain ⟨_, rfl, above, habove, _, hdirectory, inode, hfind, _, hinode, _⟩ :=
    hvalid
  apply h.atomic_entries
  apply (h.storeDirectoryTableAndCheckpoint _).atomic.mono
  intro _ d' hbecame
  have hparent : kindOf inodes parent = some .directory := by
    rw [kindOf_of_findInode h.nodup_ids habove, hdirectory]
  have htarget := kindOf_of_findInode h.nodup_ids hfind
  rw [hinode] at htarget
  have htree : Namespace inodes (entries ++ [⟨parent, target, name⟩]) := by
    apply h.tree.addEntry (fun _ _ hold => hold) hparent
    · rw [htarget]
      exact Option.some_ne_none kind
    · rw [htarget]
      simpa using hkind
    · exact fun other hother => .inl hother
  obtain ⟨hbecame, hmounted⟩ :=
    h.of_became_sublist (List.Sublist.refl inodes) hbecame h.owned htree
  exact ⟨htarget, hbecame, hmounted⟩

/-- `hard_link_file_journaled` on a mounted disk. -/
theorem Mounted.hardLinkFile (h : Mounted d sb a inodes entries)
    (parent : UInt64) (name : String) (target : UInt64) :
    Effect.Atomic (hardLinkFileJournaled sb parent name target) d
      fun _ d' => HardLinked sb d d' a inodes entries parent name target
        .file := by
  apply Effect.atomic_query_bind
  intro _ hvalid
  exact h.publishLink hvalid (by decide)

/-- `hard_link_symlink_journaled` on a mounted disk. -/
theorem Mounted.hardLinkSymlink (h : Mounted d sb a inodes entries)
    (parent : UInt64) (name : String) (target : UInt64) :
    Effect.Atomic (hardLinkSymlinkJournaled sb parent name target) d
      fun _ d' => HardLinked sb d d' a inodes entries parent name target
        .symlink := by
  apply Effect.atomic_query_bind
  intro _ hvalid
  apply Effect.atomic_query_bind
  intro _ _
  exact h.publishLink hvalid (by decide)

end Operations

/-- A call that passes its checks publishes the tables with the new inode. -/
theorem AtRest.createBlockless_run {d : Disk} {sb : Superblock}
    {a : BlockAllocator} {inodes : List PersistedInode}
    {entries : List PersistedDirectoryEntry} (h : AtRest d sb a inodes entries)
    {destination parentPath name : String} {kind : InodeKind}
    {parent id : UInt64} {bytes : List UInt8} {inode : PersistedInode}
    (hsplit : splitPath createSplit destination = .ok (parentPath, name))
    (hparent : resolvePathFollowingSymlinks d sb parentPath = .ok parent)
    (hvalid : validateCreateDestination parent name inodes entries = .ok ())
    (hid : nextInodeId inodes = .ok id)
    (hbytes : encodeDirectoryEntry ⟨parent, id, name⟩ = .ok bytes)
    (hinode : PersistedInode.new id kind [] = .ok inode) :
    createBlocklessInodeAtPathJournaled sb destination kind d =
      (do
        let report ← storeCreateMetadataJournaled sb a (inodes ++ [inode])
          (entries ++ [⟨parent, id, name⟩])
        pure (id, report) : DevM Disk (UInt64 × RecoveryReport)) d := by
  rw [createBlocklessInodeAtPathJournaled, Effect.lift_bind_of_ok hsplit,
    Effect.bind_of_ok h.recoverChecked, resolve_bind hparent, h.allocator_bind,
    h.inodes_bind, h.entries_bind, Effect.lift_bind_of_ok hvalid,
    Effect.lift_bind_of_ok hid, Effect.lift_bind_of_ok hbytes,
    Effect.lift_bind_of_ok hinode]

end FilesystemLab
