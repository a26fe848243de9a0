import FilesystemLab.Unlink

/-!
# Rename

`rename_tx.rs`, `rename_overwrite_tx.rs`, `rename_overwrite_nondirectory_tx.rs`,
`path_directory_rename_overwrite.rs` and `rename_exchange_tx.rs`.

A rename moves one entry to a new key.  The functions here differ in what they
demand of the new key, of the kinds of the two inodes and of the number of
entries for them.

* `Renamed` is the effect that they share, on the directory table as a map from
  keys to targets.
* `Namespace.move_iff` says when a move keeps the namespace consistent: exactly
  if the moved inode does not reach its new parent by other entries.
* `Moved` is the outcome of a rename with its consistency reduced to such a
  condition.
-/

namespace FilesystemLab

open Relation Digraph

/-! ## The checks -/

/-- `validate_directory_parent`, `validate_parent`. -/
def validateDirectoryParent (inodes : List PersistedInode) (parent : UInt64)
    (label : String) : Result Unit := do
  let inode ← okOr (findInode inodes parent)
    (invalidInput (label ++ " inode does not exist"))
  rejectIf (inode.kind ≠ .directory)
    (invalidInput (label ++ " inode is not a directory"))

/-- `would_create_directory_cycle`: the depth-first search from the target
through every entry but the source. -/
def wouldCreateDirectoryCycle (entries : List PersistedDirectoryEntry)
    (sourceIndex : Nat) (target newParent : UInt64) : Bool :=
  target = newParent ||
    newParent ∈ reach (edgesOf (entries.eraseIdx sourceIndex)) [target] []

/-- The identifiers of the directories. -/
def directoryIds (inodes : List PersistedInode) : List UInt64 :=
  (inodes.filter fun inode => inode.kind = .directory).map PersistedInode.id

/-- `parent_of`, the newest insertion first: the first pair for an identifier is
the one that the map holds. -/
def parentMap (inodes : List PersistedInode)
    (entries : List PersistedDirectoryEntry) : List (UInt64 × UInt64) :=
  ((entries.filter fun entry => entry.target ∈ directoryIds inodes).map
    fun entry => (entry.target, entry.parent)).reverse

/-- `validate_directory_acyclic`, `validate_acyclic`. -/
def validateAcyclic (inodes : List PersistedInode)
    (entries : List PersistedDirectoryEntry) (message : String) :
    Result Unit :=
  rejectIf (∃ id ∈ directoryIds inodes,
      climbs (parentMap inodes entries) [] id = false)
    (invalidInput message)

/-- The loop that copies the entries without the destination and with the
replacement in the place of the source. -/
def overwrittenEntries (entries : List PersistedDirectoryEntry)
    (sourceIndex destinationIndex : Nat)
    (replacement : PersistedDirectoryEntry) : List PersistedDirectoryEntry :=
  (entries.set sourceIndex replacement).eraseIdx destinationIndex

/-- `kind_name`. -/
def kindName : InodeKind → String
  | .file => "a regular file"
  | .symlink => "a symbolic link"
  | .directory => "a directory"

/-- `RenameOverwritePolicy`. -/
structure RenameOverwritePolicy where
  expectedKind : InodeKind
  requireMultipleLinks : Bool

/-- `ExchangeTargetPolicy`. -/
structure ExchangeTargetPolicy where
  kind : InodeKind
  label : String
  rejectDirectoryCycles : Bool

def FILE_POLICY : ExchangeTargetPolicy := ⟨.file, "regular file", false⟩

def SYMLINK_POLICY : ExchangeTargetPolicy := ⟨.symlink, "symbolic link", false⟩

def DIRECTORY_POLICY : ExchangeTargetPolicy := ⟨.directory, "directory", true⟩

/-- `validate_target_kind`. -/
def validateTargetKind (inodes : List PersistedInode) (target : UInt64)
    (policy : ExchangeTargetPolicy) (label : String) : Result Unit := do
  let inode ← okOr (findInode inodes target)
    (invalidInput (label ++ " inode does not exist"))
  rejectIf (inode.kind ≠ policy.kind)
    (invalidInput (label ++ " inode is not a " ++ policy.label))

/-- `validate_directory` of `path_directory_rename_overwrite.rs`. -/
def validateDirectory (inodes : List PersistedInode) (id : UInt64)
    (label : String) : Result Unit := do
  let inode ← okOr (findInode inodes id) (invalidInput
    ("directory rename-overwrite " ++ label ++ " inode does not exist"))
  rejectIf (inode.kind ≠ .directory) (invalidInput
    ("directory rename-overwrite " ++ label ++ " must be a directory"))

section Device

variable {σ : Type} [BlockDevice σ]

/-! ## The operations -/

/-- `rename_entry_journaled`. -/
def renameEntryJournaled (sb : Superblock) (oldParent : UInt64)
    (oldName : String) (newParent : UInt64) (newName : String) :
    DevM σ RecoveryReport := do
  let inodes ← Effect.query (loadInodeTable · sb)
  validateDirectoryParent inodes oldParent "rename source parent"
  validateDirectoryParent inodes newParent "rename destination parent"
  let entries ← Effect.query (loadDirectoryTable · sb)
  let source ← okOr (selectEntry entries oldParent oldName)
    (invalidInput "rename source entry does not exist")
  rejectIf (source.2.target = 1) (invalidInput "root inode cannot be renamed")
  if oldParent = newParent ∧ oldName = newName then
    pure RecoveryReport.default
  else do
    rejectIf (∃ entry ∈ entries.eraseIdx source.1,
        entry.parent = newParent ∧ entry.name = newName)
      (invalidInput "rename destination already exists")
    let candidate : PersistedDirectoryEntry :=
      ⟨newParent, source.2.target, newName⟩
    let _ ← encodeDirectoryEntry candidate
    let inode ← okOr (findInode inodes source.2.target)
      (invalidInput "rename source targets a missing inode")
    rejectIf (inode.kind = .directory ∧ wouldCreateDirectoryCycle entries
        source.1 source.2.target newParent = true)
      (invalidInput "rename would create a directory cycle")
    storeDirectoryTableJournaled sb (entries.set source.1 candidate)

/-- The end of the functions that overwrite the last entry of an inode: they
free its blocks and publish the tables without it. -/
def publishOverwrite (sb : Superblock) (allocator : BlockAllocator)
    (inodes : List PersistedInode) (entries : List PersistedDirectoryEntry)
    (destination : PersistedInode) (label : String) :
    DevM σ RecoveryReport := do
  let allocator ← (allocator.freeAll
    (destination.blocks.map UInt64.toNat)).mapError
      fun error => invalidInput (label ++ error.message)
  storeCreateMetadataJournaled sb allocator
    (inodes.filter fun inode => inode.id ∉ [destination.id]) entries

/-- `rename_overwrite_impl`. -/
def renameOverwriteImpl (sb : Superblock) (oldParent : UInt64)
    (oldName : String) (newParent : UInt64) (newName : String)
    (policy : RenameOverwritePolicy) : DevM σ RecoveryReport := do
  let _ ← Effect.query checkDevice
  let allocator ← Effect.query (loadAllocator · sb)
  let inodes ← Effect.query (loadInodeTable · sb)
  let entries ← Effect.query (loadDirectoryTable · sb)
  validateDirectoryParent inodes oldParent "rename-overwrite source parent"
  validateDirectoryParent inodes newParent "rename-overwrite destination parent"
  let source ← okOr (selectEntry entries oldParent oldName)
    (invalidInput "rename-overwrite source entry does not exist")
  let destination ← okOr (selectEntry entries newParent newName)
    (invalidInput "rename-overwrite destination entry does not exist")
  if source.1 = destination.1 then pure RecoveryReport.default
  else do
    rejectIf (source.2.target = destination.2.target) (invalidInput
      "rename-overwrite source and destination may not alias the same inode")
    let sourceInode ← okOr (findInode inodes source.2.target)
      (invalidInput "rename-overwrite source targets a missing inode")
    rejectIf (sourceInode.kind ≠ policy.expectedKind) (invalidInput
      ("rename-overwrite source must be " ++ kindName policy.expectedKind))
    let destinationInode ← okOr (findInode inodes destination.2.target)
      (invalidInput "rename-overwrite destination targets a missing inode")
    rejectIf (destinationInode.kind ≠ policy.expectedKind) (invalidInput
      ("rename-overwrite destination must be " ++ kindName policy.expectedKind))
    rejectIf (policy.requireMultipleLinks = true ∧
        referenceCount entries destination.2.target < 2) (invalidInput
      "linked rename-overwrite destination must have multiple namespace references")
    rejectIf (policy.requireMultipleLinks = false ∧
        referenceCount entries destination.2.target ≠ 1) (invalidInput
      "rename-overwrite destination must have exactly one namespace reference")
    let replacement : PersistedDirectoryEntry :=
      ⟨newParent, source.2.target, newName⟩
    let _ ← encodeDirectoryEntry replacement
    let desired :=
      overwrittenEntries entries source.1 destination.1 replacement
    if policy.requireMultipleLinks = true then
      storeDirectoryTableAndCheckpoint sb desired
    else
      publishOverwrite sb allocator inodes desired destinationInode
        "rename-overwrite block release failed: "

/-- `rename_overwrite_file_journaled`. -/
def renameOverwriteFileJournaled (sb : Superblock) (oldParent : UInt64)
    (oldName : String) (newParent : UInt64) (newName : String) :
    DevM σ RecoveryReport :=
  renameOverwriteImpl sb oldParent oldName newParent newName ⟨.file, false⟩

/-- `rename_overwrite_linked_file_journaled`. -/
def renameOverwriteLinkedFileJournaled (sb : Superblock) (oldParent : UInt64)
    (oldName : String) (newParent : UInt64) (newName : String) :
    DevM σ RecoveryReport :=
  renameOverwriteImpl sb oldParent oldName newParent newName ⟨.file, true⟩

/-- `rename_overwrite_symlink_journaled`. -/
def renameOverwriteSymlinkJournaled (sb : Superblock) (oldParent : UInt64)
    (oldName : String) (newParent : UInt64) (newName : String) :
    DevM σ RecoveryReport :=
  renameOverwriteImpl sb oldParent oldName newParent newName ⟨.symlink, false⟩

/-- `rename_overwrite_linked_symlink_journaled`. -/
def renameOverwriteLinkedSymlinkJournaled (sb : Superblock)
    (oldParent : UInt64) (oldName : String) (newParent : UInt64)
    (newName : String) : DevM σ RecoveryReport :=
  renameOverwriteImpl sb oldParent oldName newParent newName ⟨.symlink, true⟩

/-- `rename_overwrite_nondirectory_journaled`. -/
def renameOverwriteNondirectoryJournaled (sb : Superblock) (oldParent : UInt64)
    (oldName : String) (newParent : UInt64) (newName : String) :
    DevM σ RecoveryReport := do
  let _ ← Effect.query checkDevice
  let allocator ← Effect.query (loadAllocator · sb)
  let inodes ← Effect.query (loadInodeTable · sb)
  let entries ← Effect.query (loadDirectoryTable · sb)
  validateDirectoryParent inodes oldParent "rename source parent"
  validateDirectoryParent inodes newParent "rename destination parent"
  let source ← okOr (selectEntry entries oldParent oldName)
    (invalidInput "rename source entry does not exist")
  let destination ← okOr (selectEntry entries newParent newName)
    (invalidInput "rename destination entry does not exist")
  if source.1 = destination.1 then pure RecoveryReport.default
  else do
    rejectIf (source.2.target = destination.2.target) (invalidInput
      "rename source and destination may not alias the same inode")
    let sourceInode ← okOr (findInode inodes source.2.target)
      (invalidInput "rename source targets a missing inode")
    let destinationInode ← okOr (findInode inodes destination.2.target)
      (invalidInput "rename destination targets a missing inode")
    rejectIf (sourceInode.kind = .directory ∨
        destinationInode.kind = .directory) (invalidInput
      "non-directory rename overwrite cannot use directory endpoints")
    rejectIf (referenceCount entries destination.2.target = 0)
      (invalidInput "rename destination has no namespace reference")
    let replacement : PersistedDirectoryEntry :=
      ⟨newParent, source.2.target, newName⟩
    let _ ← encodeDirectoryEntry replacement
    let desired :=
      overwrittenEntries entries source.1 destination.1 replacement
    if 1 < referenceCount entries destination.2.target then
      storeDirectoryTableAndCheckpoint sb desired
    else
      publishOverwrite sb allocator inodes desired destinationInode
        "rename destination block release failed: "

/-- `rename_overwrite_directory_journaled`. -/
def renameOverwriteDirectoryJournaled (sb : Superblock) (oldParent : UInt64)
    (oldName : String) (newParent : UInt64) (newName : String) :
    DevM σ RecoveryReport := do
  let _ ← Effect.query checkDevice
  let allocator ← Effect.query (loadAllocator · sb)
  let inodes ← Effect.query (loadInodeTable · sb)
  let entries ← Effect.query (loadDirectoryTable · sb)
  validateDirectory inodes oldParent "source parent"
  validateDirectory inodes newParent "destination parent"
  let source ← okOr (selectEntry entries oldParent oldName)
    (invalidInput "directory rename-overwrite source entry does not exist")
  let destination ← okOr (selectEntry entries newParent newName)
    (invalidInput "directory rename-overwrite destination entry does not exist")
  if source.1 = destination.1 then pure RecoveryReport.default
  else do
    rejectIf (source.2.target = destination.2.target) (invalidInput
      "directory rename-overwrite endpoints alias the same inode")
    validateDirectory inodes source.2.target "source"
    validateDirectory inodes destination.2.target "destination"
    rejectIf (source.2.target = 1 ∨ destination.2.target = 1) (invalidInput
      "directory rename-overwrite cannot replace the root inode")
    rejectIf (referenceCount entries destination.2.target ≠ 1) (invalidInput
      "directory rename-overwrite destination must be singly referenced")
    rejectIf (∃ entry ∈ entries, entry.parent = destination.2.target)
      (invalidInput "directory rename-overwrite destination must be empty")
    let destinationInode ← okOr (findInode inodes destination.2.target)
      (invalidInput "validated destination inode disappeared")
    rejectIf (¬ destinationInode.blocks.Nodup) (invalidInput
      "destination directory contains duplicate block references")
    requireOwned allocator "destination directory block is not allocator-owned"
      destinationInode.blocks
    let replacement : PersistedDirectoryEntry :=
      ⟨newParent, source.2.target, newName⟩
    let _ ← encodeDirectoryEntry replacement
    let desired :=
      overwrittenEntries entries source.1 destination.1 replacement
    validateAcyclic inodes desired
      "directory rename-overwrite would create a cycle"
    publishOverwrite sb allocator inodes desired destinationInode ""

/-- `rename_exchange_by_kind_journaled`. -/
def renameExchangeByKindJournaled (sb : Superblock) (firstParent : UInt64)
    (firstName : String) (secondParent : UInt64) (secondName : String)
    (policy : ExchangeTargetPolicy) : DevM σ RecoveryReport := do
  let _ ← Effect.query checkDevice
  let inodes ← Effect.query (loadInodeTable · sb)
  validateDirectoryParent inodes firstParent "first exchange parent"
  validateDirectoryParent inodes secondParent "second exchange parent"
  if firstParent = secondParent ∧ firstName = secondName then
    pure RecoveryReport.default
  else do
    let entries ← Effect.query (loadDirectoryTable · sb)
    let first ← okOr (selectEntry entries firstParent firstName)
      (invalidInput "first exchange entry does not exist")
    let second ← okOr (selectEntry entries secondParent secondName)
      (invalidInput "second exchange entry does not exist")
    validateTargetKind inodes first.2.target policy "first exchange target"
    validateTargetKind inodes second.2.target policy "second exchange target"
    if first.2.target = second.2.target then pure RecoveryReport.default
    else do
      let firstReplacement : PersistedDirectoryEntry :=
        ⟨firstParent, second.2.target, firstName⟩
      let secondReplacement : PersistedDirectoryEntry :=
        ⟨secondParent, first.2.target, secondName⟩
      let _ ← encodeDirectoryEntry firstReplacement
      let _ ← encodeDirectoryEntry secondReplacement
      let desired := (entries.set first.1 firstReplacement).set second.1
        secondReplacement
      if policy.rejectDirectoryCycles = true then
        validateAcyclic inodes desired "directory exchange would create a cycle"
      storeDirectoryTableAndCheckpoint sb desired

/-- `rename_exchange_files_journaled`. -/
def renameExchangeFilesJournaled (sb : Superblock) (firstParent : UInt64)
    (firstName : String) (secondParent : UInt64) (secondName : String) :
    DevM σ RecoveryReport :=
  renameExchangeByKindJournaled sb firstParent firstName secondParent secondName
    FILE_POLICY

/-- `rename_exchange_symlinks_journaled`. -/
def renameExchangeSymlinksJournaled (sb : Superblock) (firstParent : UInt64)
    (firstName : String) (secondParent : UInt64) (secondName : String) :
    DevM σ RecoveryReport :=
  renameExchangeByKindJournaled sb firstParent firstName secondParent secondName
    SYMLINK_POLICY

/-- `rename_exchange_directories_journaled`. -/
def renameExchangeDirectoriesJournaled (sb : Superblock) (firstParent : UInt64)
    (firstName : String) (secondParent : UInt64) (secondName : String) :
    DevM σ RecoveryReport :=
  renameExchangeByKindJournaled sb firstParent firstName secondParent secondName
    DIRECTORY_POLICY

end Device

/-! ## The table as a map -/

/-- The directory table as a map from a parent and a name to a target. -/
def targetOf (entries : List PersistedDirectoryEntry) (key : UInt64 × String) :
    Option UInt64 :=
  (lookupEntry entries key.1 key.2).map PersistedDirectoryEntry.target

/-- The entries with neither of two keys. -/
def otherEntries (entries : List PersistedDirectoryEntry)
    (s t : UInt64 × String) : List PersistedDirectoryEntry :=
  entries.filter fun entry =>
    directoryFormat.key entry ≠ s ∧ directoryFormat.key entry ≠ t

section Map

variable {entries entries' : List PersistedDirectoryEntry}
  {key s t : UInt64 × String} {target : UInt64}
  {source destination entry : PersistedDirectoryEntry}

theorem mem_otherEntries : entry ∈ otherEntries entries s t ↔
    entry ∈ entries ∧ directoryFormat.key entry ≠ s ∧
      directoryFormat.key entry ≠ t := by
  rw [otherEntries, List.mem_filter, decide_eq_true_eq]

theorem otherEntries_subset : ∀ entry ∈ otherEntries entries s t,
    entry ∈ entries :=
  fun _ hentry => (mem_otherEntries.mp hentry).1

theorem mem_of_targetOf (h : targetOf entries key = some target) :
    ⟨key.1, target, key.2⟩ ∈ entries := by
  unfold targetOf at h
  obtain ⟨entry, hfind, rfl⟩ := Option.map_eq_some_iff.mp h
  obtain ⟨hmem, hparent, hname⟩ := lookupEntry_eq_some hfind
  rw [← hparent, ← hname]
  exact hmem

/-- The entry for a key and a target. -/
theorem targetOf_eq_some (hnodup : (entries.map directoryFormat.key).Nodup) :
    targetOf entries key = some target ↔ ⟨key.1, target, key.2⟩ ∈ entries := by
  constructor
  · exact mem_of_targetOf
  · intro hmem
    cases hfind : lookupEntry entries key.1 key.2 with
    | none => exact absurd ⟨rfl, rfl⟩ (lookupEntry_eq_none.mp hfind _ hmem)
    | some entry =>
      obtain ⟨hentry, hparent, hname⟩ := lookupEntry_eq_some hfind
      have hsame : entry = ⟨key.1, target, key.2⟩ := by
        apply List.inj_on_of_nodup_map hnodup hentry hmem
        show (entry.parent, entry.name) = (key.1, key.2)
        rw [hparent, hname]
      rw [targetOf, hfind, hsame]
      rfl

theorem targetOf_of_mem (hnodup : (entries.map directoryFormat.key).Nodup)
    (hmem : entry ∈ entries) :
    targetOf entries (directoryFormat.key entry) = some entry.target :=
  (targetOf_eq_some hnodup).mpr hmem

theorem targetOf_eq_none :
    targetOf entries key = none ↔
      ∀ entry ∈ entries, directoryFormat.key entry ≠ key := by
  rw [targetOf, Option.map_eq_none_iff, lookupEntry_eq_none]
  constructor
  · intro h entry hentry heq
    subst heq
    exact h entry hentry ⟨rfl, rfl⟩
  · intro h entry hentry hfacts
    rcases hfacts with ⟨hparent, hname⟩
    apply h entry hentry
    show (entry.parent, entry.name) = (key.1, key.2)
    rw [hparent, hname]

/-- **A rename on the map**: the old key goes and the new one takes its
target. -/
theorem targetOf_moved (hnodup : (entries.map directoryFormat.key).Nodup)
    (hnodup' : (entries'.map directoryFormat.key).Nodup)
    (hsource : targetOf entries s = some target)
    (hiff : ∀ entry, entry ∈ entries' ↔
      entry = ⟨t.1, target, t.2⟩ ∨ entry ∈ otherEntries entries s t) :
    targetOf entries' = Function.update
      (Function.update (targetOf entries) s none) t (targetOf entries s) := by
  funext key
  apply Option.ext
  intro other
  rw [targetOf_eq_some hnodup', hiff]
  by_cases ht : key = t
  · subst ht
    rw [Function.update_self, hsource, Option.some.injEq]
    constructor
    · intro hcases
      rcases hcases with h | h
      · cases h
        rfl
      · exact absurd rfl (mem_otherEntries.mp h).2.2
    · intro heq
      subst heq
      exact .inl rfl
  rw [Function.update_of_ne ht]
  have hnew : (⟨key.1, other, key.2⟩ : PersistedDirectoryEntry) ≠
      ⟨t.1, target, t.2⟩ := by
    intro h
    cases key
    cases h
    exact ht rfl
  by_cases hs : key = s
  · subst hs
    rw [Function.update_self]
    constructor
    · intro hcases
      rcases hcases with h | h
      · exact absurd h hnew
      · exact absurd rfl (mem_otherEntries.mp h).2.1
    · intro h
      cases h
  · rw [Function.update_of_ne hs, targetOf_eq_some hnodup, mem_otherEntries]
    constructor
    · intro hcases
      rcases hcases with h | h
      · exact absurd h hnew
      · exact h.1
    · intro h
      exact .inr ⟨h, hs, ht⟩

/-- The entries after the source has been set to another key that has no
entry. -/
theorem mem_set_key (hnodup : (entries.map directoryFormat.key).Nodup)
    {index : Nat} (hget : entries[index]? = some source)
    (hs : directoryFormat.key source = s) (ht : targetOf entries t = none)
    {replacement : PersistedDirectoryEntry} :
    entry ∈ entries.set index replacement ↔
      entry = replacement ∨ entry ∈ otherEntries entries s t := by
  have hmem := List.mem_of_getElem? hget
  rw [mem_set_entry hnodup.of_map hget, mem_otherEntries]
  apply or_congr_right
  apply and_congr_right
  intro hentry
  constructor
  · intro hne
    refine ⟨?_, targetOf_eq_none.mp ht entry hentry⟩
    intro hsame
    exact hne (List.inj_on_of_nodup_map hnodup hentry hmem
      (hsame.trans hs.symm))
  · rintro ⟨hne, _⟩ rfl
    exact hne hs

/-- Entries with one key stand at one position. -/
theorem index_of_key (hnodup : (entries.map directoryFormat.key).Nodup)
    {k l : Nat} {other : PersistedDirectoryEntry}
    (hk : entries[k]? = some entry) (hl : entries[l]? = some other)
    (hkey : directoryFormat.key entry = directoryFormat.key other) :
    k = l := by
  have hk' : (entries.map directoryFormat.key)[k]? =
      some (directoryFormat.key entry) := by
    rw [List.getElem?_map, hk]
    rfl
  have hl' : (entries.map directoryFormat.key)[l]? =
      some (directoryFormat.key entry) := by
    rw [List.getElem?_map, hl, hkey]
    rfl
  obtain ⟨_, hkget⟩ := List.getElem?_eq_some_iff.mp hk'
  obtain ⟨_, hlget⟩ := List.getElem?_eq_some_iff.mp hl'
  exact hnodup.getElem_inj_iff.mp (hkget.trans hlget.symm)

/-- The entries after one key has been overwritten from another. -/
theorem mem_overwrittenEntries
    (hnodup : (entries.map directoryFormat.key).Nodup) {i j : Nat}
    (hsource : entries[i]? = some source)
    (hdestination : entries[j]? = some destination) (hij : i ≠ j)
    (hs : directoryFormat.key source = s)
    (ht : directoryFormat.key destination = t)
    {replacement : PersistedDirectoryEntry} :
    entry ∈ overwrittenEntries entries i j replacement ↔
      entry = replacement ∨ entry ∈ otherEntries entries s t := by
  have hlt := (List.getElem?_eq_some_iff.mp hsource).1
  rw [overwrittenEntries, List.mem_eraseIdx_iff_getElem?, mem_otherEntries]
  constructor
  · intro hfacts
    rcases hfacts with ⟨k, hkj, hk⟩
    by_cases hki : i = k
    · subst hki
      rw [List.getElem?_set_self hlt, Option.some.injEq] at hk
      exact .inl hk.symm
    · rw [List.getElem?_set_ne hki] at hk
      refine .inr ⟨List.mem_of_getElem? hk, ?_, ?_⟩
      · intro hkey
        exact hki (index_of_key hnodup hsource hk (hs.trans hkey.symm))
      · intro hkey
        exact hkj (index_of_key hnodup hk hdestination (hkey.trans ht.symm))
  · intro hcases
    rcases hcases with rfl | ⟨hmem, hns, hnt⟩
    · exact ⟨i, hij, List.getElem?_set_self hlt⟩
    · obtain ⟨k, hk⟩ := List.mem_iff_getElem?.mp hmem
      refine ⟨k, ?_, ?_⟩
      · intro heq
        subst heq
        rw [hk, Option.some.injEq] at hdestination
        exact hnt (by rw [hdestination, ht])
      · rw [List.getElem?_set_ne, hk]
        intro heq
        subst heq
        rw [hk, Option.some.injEq] at hsource
        exact hns (by rw [hsource, hs])

end Map

/-! ## Moves in the namespace -/

section Tree

variable {inodes : List PersistedInode}
  {entries entries' rest : List PersistedDirectoryEntry}
  {s t : UInt64 × String} {target parent : UInt64} {name : String}

/-- The target of an entry does not lead back to its parent. -/
theorem no_way_back_of_acyclic (h : Acyclic (Links entries))
    (hmem : ⟨parent, target, name⟩ ∈ entries)
    (hsub : ∀ entry ∈ rest, entry ∈ entries) :
    ¬ ReflTransGen (Links rest) target parent := by
  intro hpath
  have hedge : Links entries parent target := ⟨_, hmem, rfl, rfl⟩
  exact h parent
    (TransGen.head' hedge (ReflTransGen.mono (links_mono hsub) _ _ hpath))

theorem Namespace.no_way_back (h : Namespace inodes entries)
    (hmem : ⟨parent, target, name⟩ ∈ entries)
    (hsub : ∀ entry ∈ rest, entry ∈ entries) :
    ¬ ReflTransGen (Links rest) target parent :=
  no_way_back_of_acyclic h.acyclic hmem hsub

theorem filter_removed_nil :
    inodes.filter (fun inode => inode.id ∉ ([] : List UInt64)) = inodes := by
  simp

/-- **A move keeps the namespace consistent exactly if the moved inode does not
lead to its new parent by the entries of other keys.** -/
theorem Namespace.move_iff (h : Namespace inodes entries)
    {removed : List UInt64}
    (hiff : ∀ entry, entry ∈ entries' ↔
      entry = ⟨t.1, target, t.2⟩ ∨ entry ∈ otherEntries entries s t)
    (hparent : kindOf inodes t.1 = some .directory)
    (htarget : kindOf inodes target ≠ none)
    (hroot : ROOT_INODE_ID ∉ removed)
    (hclosed : ∀ entry ∈ entries',
      entry.parent ∉ removed ∧ entry.target ∉ removed)
    (hkept : ∀ inode ∈ inodes, inode.id ∉ removed →
      inode.id ≠ ROOT_INODE_ID → ∃ entry ∈ entries', entry.target = inode.id) :
    Namespace (inodes.filter fun inode => inode.id ∉ removed) entries' ↔
      ¬ ReflTransGen (Links (otherEntries entries s t)) target t.1 := by
  have hlinks := links_eq_withEdge hiff
  have hold := Acyclic.mono h.acyclic
    (links_mono (@otherEntries_subset entries s t))
  constructor
  · intro hn
    have hacyclic : Acyclic (Links entries') := hn.acyclic
    rw [hlinks, acyclic_withEdge_iff] at hacyclic
    exact hacyclic.2
  · intro hno
    apply namespace_of_targeted
    · intro entry hentry
      rw [kindOf_filter (hclosed entry hentry).1]
      rcases (hiff entry).mp hentry with rfl | hother
      · exact hparent
      · exact h.parent entry (otherEntries_subset entry hother)
    · intro entry hentry
      rw [kindOf_filter (hclosed entry hentry).2]
      rcases (hiff entry).mp hentry with rfl | hother
      · exact htarget
      · exact h.target entry (otherEntries_subset entry hother)
    · intro hne
      rw [kindOf_filter hroot]
      apply h.root
      intro heq
      subst heq
      exact hne rfl
    · rw [hlinks, acyclic_withEdge_iff]
      exact ⟨hold, hno⟩
    · intro inode hinode hne
      rw [List.mem_filter, decide_eq_true_eq] at hinode
      exact hkept inode hinode.1 hinode.2 hne

end Tree

/-! ## What a rename leaves -/

/-- The effect of a rename of the key `s` to the key `t` on the three tables. -/
structure Renamed (a : BlockAllocator) (inodes : List PersistedInode)
    (entries : List PersistedDirectoryEntry) (a' : BlockAllocator)
    (inodes' : List PersistedInode) (entries' : List PersistedDirectoryEntry)
    (s t : UInt64 × String) : Prop where
  source : targetOf entries s ≠ none
  same : targetOf entries s = targetOf entries t →
    targetOf entries' = targetOf entries
  moved : targetOf entries s ≠ targetOf entries t →
    targetOf entries' = Function.update
      (Function.update (targetOf entries) s none) t (targetOf entries s)
  removed : ∀ gone, targetOf entries t = some gone →
    (∀ key, targetOf entries' key ≠ some gone) →
    inodes' = (inodes.filter fun inode => inode.id ∉ [gone]) ∧
      ∃ inode ∈ inodes, inode.id = gone ∧ ∀ b, a'.flag b = true ↔
        a.flag b = true ∧ b ∉ inode.blocks.map UInt64.toNat
  kept : (∀ gone, targetOf entries t = some gone →
      ∃ key, targetOf entries' key = some gone) →
    inodes' = inodes ∧ a' = a

/-- A rename of an entry to another one for the same inode changes nothing. -/
theorem Renamed.refl {a : BlockAllocator} {inodes : List PersistedInode}
    {entries : List PersistedDirectoryEntry} {s t : UInt64 × String}
    (hsource : targetOf entries s ≠ none)
    (halias : targetOf entries s = targetOf entries t) :
    Renamed a inodes entries a inodes entries s t := by
  refine ⟨hsource, fun _ => rfl, fun hne => absurd halias hne, ?_,
    fun _ => ⟨rfl, rfl⟩⟩
  intro gone hgone hnone
  exact absurd hgone (hnone t)

/-- The inode at `s` does not lead to the parent of `t` by the entries of other
keys. -/
def MoveSafe (entries : List PersistedDirectoryEntry) (s t : UInt64 × String) :
    Prop :=
  ∀ target, targetOf entries s = some target →
    ¬ ReflTransGen (Links (otherEntries entries s t)) target t.1

/-- The disk `d'` is the mounted disk `d` after a rename, and it is consistent
exactly if the move was safe. -/
def Moved (sb : Superblock) (d d' : Disk) (a : BlockAllocator)
    (inodes : List PersistedInode) (entries : List PersistedDirectoryEntry)
    (s t : UInt64 × String) : Prop :=
  ∃ a' inodes' entries', Became sb d d' a' inodes' entries' [] ∧
    Renamed a inodes entries a' inodes' entries' s t ∧ Owned sb a' inodes' ∧
    inodes'.Sublist inodes ∧ (Namespace inodes' entries' ↔ MoveSafe entries s t)

/-! ### The check for cycles -/

/-- Every directory has at most one entry. -/
def SingleEntries (inodes : List PersistedInode)
    (entries : List PersistedDirectoryEntry) : Prop :=
  ∀ entry ∈ entries, kindOf inodes entry.target = some .directory →
    ∀ other ∈ entries, other.target = entry.target → other = entry

section Cycles

variable {inodes : List PersistedInode}
  {entries rest : List PersistedDirectoryEntry}

theorem mem_directoryIds {id : UInt64} :
    id ∈ directoryIds inodes ↔
      ∃ inode ∈ inodes, inode.id = id ∧ inode.kind = .directory := by
  unfold directoryIds
  simp only [List.mem_map, List.mem_filter, decide_eq_true_eq]
  constructor
  · intro h
    obtain ⟨inode, ⟨hmem, hkind⟩, hid⟩ := h
    exact ⟨inode, hmem, hid, hkind⟩
  · intro h
    obtain ⟨inode, hmem, hid, hkind⟩ := h
    exact ⟨inode, ⟨hmem, hkind⟩, hid⟩

theorem mem_directoryIds_of_kindOf {id : UInt64}
    (h : kindOf inodes id = some .directory) : id ∈ directoryIds inodes :=
  mem_directoryIds.mpr (exists_of_kindOf h)

/-- The map holds the parent in the only entry of a directory. -/
theorem lookup_parentMap {entry : PersistedDirectoryEntry}
    (hsingle : SingleEntries inodes entries) (hmem : entry ∈ entries)
    (hkind : kindOf inodes entry.target = some .directory) :
    (parentMap inodes entries).lookup entry.target = some entry.parent := by
  apply lookup_of_unique
  · unfold parentMap
    rw [List.mem_reverse, List.mem_map]
    refine ⟨entry, ?_, rfl⟩
    rw [List.mem_filter, decide_eq_true_eq]
    exact ⟨hmem, mem_directoryIds_of_kindOf hkind⟩
  · intro pair hpair hid
    unfold parentMap at hpair
    rw [List.mem_reverse, List.mem_map] at hpair
    obtain ⟨other, hother, rfl⟩ := hpair
    have hsame := hsingle entry hmem hkind other (List.mem_filter.mp hother).1
      hid
    rw [hsame]

/-- **The check for cycles finds every cycle** if every directory has one
entry. -/
theorem acyclic_of_validateAcyclic {message : String}
    (h : validateAcyclic inodes entries message = .ok ())
    (hparent : ∀ entry ∈ entries, kindOf inodes entry.parent = some .directory)
    (hsingle : SingleEntries inodes entries) : Acyclic (Links entries) := by
  unfold validateAcyclic at h
  rw [rejectIf_eq_ok] at h
  -- a link to a directory is one in the map
  have hlink : ∀ {x y : UInt64}, Links entries x y →
      kindOf inodes y = some .directory →
        (parentMap inodes entries).lookup y = some x := by
    intro x y hxy hy
    obtain ⟨entry, hmem, rfl, rfl⟩ := hxy
    exact lookup_parentMap hsingle hmem hy
  have hsource : ∀ {x y : UInt64}, Links entries x y →
      kindOf inodes x = some .directory := by
    intro x y hxy
    obtain ⟨entry, hmem, rfl, _⟩ := hxy
    exact hparent entry hmem
  have hpath : ∀ {x y : UInt64}, TransGen (Links entries) x y →
      kindOf inodes y = some .directory →
        TransGen (fun parent id =>
          (parentMap inodes entries).lookup id = some parent) x y := by
    intro x y hxy
    induction hxy with
    | single hlast => exact fun hy => .single (hlink hlast hy)
    | tail _ hlast ih =>
      exact fun hy => (ih (hsource hlast)).tail (hlink hlast hy)
  intro x hcycle
  obtain ⟨y, hxy, _⟩ := TransGen.head'_iff.mp hcycle
  have hx := hsource hxy
  have hclimbs : climbs (parentMap inodes entries) [] x = true := by
    by_contra hfalse
    exact h ⟨x, mem_directoryIds_of_kindOf hx, by simpa using hfalse⟩
  exact not_transGen_self (acc_of_climbs hclimbs) (hpath hcycle hx)

/-- The check passes if the map has no directory below another one. -/
theorem validateAcyclic_of_flat
    (h : (directoryIds inodes).all fun id =>
      ((parentMap inodes entries).lookup id).all fun parent =>
        ((parentMap inodes entries).lookup parent).isNone) (message : String) :
    validateAcyclic inodes entries message = .ok () := by
  apply rejectIf_of_not
  intro hfacts
  rcases hfacts with ⟨id, hid, hcycle⟩
  have hclimbs : climbs (parentMap inodes entries) [] id = true := by
    cases hparent : (parentMap inodes entries).lookup id with
    | none => exact climbs_of_none hparent
    | some parent =>
      have htop := List.all_eq_true.mp h id hid
      rw [hparent, Option.all_some, Option.isNone_iff_eq_none] at htop
      rw [climbs_of_some hparent List.not_mem_nil]
      exact climbs_of_none htop
  rw [hclimbs] at hcycle
  cases hcycle

end Cycles

section Outcome

variable {d d' : Disk} {sb : Superblock} {a : BlockAllocator}
  {inodes : List PersistedInode}
  {entries entries' : List PersistedDirectoryEntry} {s t : UInt64 × String}

/-- The check accepts a disk after a rename exactly if the move was safe. -/
theorem Moved.check_iff (h : Mounted d sb a inodes entries)
    (hmoved : Moved sb d d' a inodes entries s t) :
    (∃ report, checkDevice d' = .ok report) ↔ MoveSafe entries s t := by
  obtain ⟨a', inodes', entries', hbecame, _, howned, hsub, hiff⟩ := hmoved
  rw [← hiff]
  constructor
  · intro hfacts
    rcases hfacts with ⟨report, hreport⟩
    exact (hbecame.toAtRest.checkDevice_iff.mp hreport).1.tree
  · intro htree
    have hmounted := h.of_became hbecame howned htree (by
      intro inode hinode
      exact .inl ⟨hsub.subset hinode, by simp⟩)
    exact ⟨_, hmounted.check⟩

/-- A rename to the same key changes nothing. -/
theorem Mounted.moved_refl (h : Mounted d sb a inodes entries)
    (hsource : targetOf entries s ≠ none)
    (halias : targetOf entries s = targetOf entries t) :
    Moved sb d d a inodes entries s t := by
  refine ⟨a, inodes, entries, h.toAtRest.became_refl,
    Renamed.refl hsource halias, h.owned, List.Sublist.refl _,
    fun _ => ?_, fun _ => h.tree⟩
  intro target htarget
  rw [halias, targetOf_eq_some h.nodup_keys] at htarget
  exact h.tree.no_way_back htarget otherEntries_subset

/-- A rename whose old target keeps an entry leaves the inodes alone. -/
theorem Mounted.moved_of_kept (h : Mounted d sb a inodes entries)
    {target : UInt64} (hsource : targetOf entries s = some target)
    (hne : targetOf entries t ≠ some target)
    (hparent : kindOf inodes t.1 = some .directory)
    (hiff : ∀ entry, entry ∈ entries' ↔
      entry = ⟨t.1, target, t.2⟩ ∨ entry ∈ otherEntries entries s t)
    (hkept : ∀ gone, targetOf entries t = some gone →
      ∃ entry ∈ otherEntries entries s t, entry.target = gone)
    (hbecame : Became sb d d' a inodes entries' []) :
    Moved sb d d' a inodes entries s t := by
  have hnodup := h.nodup_keys
  have hnodup' := hbecame.toAtRest.nodup_keys
  have hmem := (targetOf_eq_some hnodup).mp hsource
  refine ⟨a, inodes, entries', hbecame, ⟨?_, ?_, ?_, ?_, ?_⟩, h.owned,
    List.Sublist.refl _, ?_⟩
  · rw [hsource]
    simp
  · intro halias
    exact absurd (halias.symm.trans hsource) hne
  · intro _
    exact targetOf_moved hnodup hnodup' hsource hiff
  · intro gone hgone hnone
    obtain ⟨entry, hentry, rfl⟩ := hkept gone hgone
    exact absurd (targetOf_of_mem hnodup' ((hiff entry).mpr (.inr hentry)))
      (hnone _)
  · exact fun _ => ⟨rfl, rfl⟩
  · have htree := h.tree.move_iff hiff hparent (h.tree.target _ hmem)
      List.not_mem_nil (fun _ _ => ⟨List.not_mem_nil, List.not_mem_nil⟩) (by
        intro inode hinode _ hroot
        obtain ⟨entry, hentry, htarget⟩ := h.tree.targeted hinode hroot
        by_cases hs : directoryFormat.key entry = s
        · have hsame := targetOf_of_mem hnodup hentry
          rw [hs, hsource, Option.some.injEq] at hsame
          exact ⟨_, (hiff _).mpr (.inl rfl), hsame.trans htarget⟩
        · by_cases ht : directoryFormat.key entry = t
          · have hgone := targetOf_of_mem hnodup hentry
            rw [ht] at hgone
            obtain ⟨other, hother, hsame⟩ := hkept _ hgone
            exact ⟨other, (hiff other).mpr (.inr hother),
              hsame.trans htarget⟩
          · exact ⟨entry, (hiff entry).mpr
              (.inr (mem_otherEntries.mpr ⟨hentry, hs, ht⟩)), htarget⟩)
    rw [filter_removed_nil] at htree
    rw [htree, MoveSafe, hsource]
    simp

/-- A rename over the last entry of an inode that is no parent removes it. -/
theorem Mounted.moved_of_removed (h : Mounted d sb a inodes entries)
    {a' : BlockAllocator} {target : UInt64}
    (hsource : targetOf entries s = some target)
    {destination : PersistedInode} (hdestination : destination ∈ inodes)
    (hgone : targetOf entries t = some destination.id)
    (hne : destination.id ≠ target)
    (hparent : kindOf inodes t.1 = some .directory)
    (hiff : ∀ entry, entry ∈ entries' ↔
      entry = ⟨t.1, target, t.2⟩ ∨ entry ∈ otherEntries entries s t)
    (honly : ∀ entry ∈ entries, entry.target = destination.id →
      directoryFormat.key entry = t)
    (hchild : ∀ entry ∈ entries, entry.parent ≠ destination.id)
    (hfreed : a.freeAll (destination.blocks.map UInt64.toNat) = .ok a')
    (hbecame : Became sb d d' a'
      (inodes.filter fun inode => inode.id ∉ [destination.id]) entries' []) :
    Moved sb d d' a inodes entries s t := by
  have hnodup := h.nodup_keys
  have hnodup' := hbecame.toAtRest.nodup_keys
  have hmem := (targetOf_eq_some hnodup).mp hsource
  have hold := (targetOf_eq_some hnodup).mp hgone
  have hnone : ∀ entry ∈ entries', entry.target ≠ destination.id := by
    intro entry hentry htarget
    rcases (hiff entry).mp hentry with rfl | hother
    · exact hne htarget.symm
    · obtain ⟨hentry', _, ht⟩ := mem_otherEntries.mp hother
      exact ht (honly entry hentry' htarget)
  have hfreed' := hfreed
  rw [← releasedBlocks_singleton h.nodup_ids hdestination] at hfreed'
  obtain ⟨_, _, _, _, hflag⟩ := BlockAllocator.freeAll_eq_ok hfreed
  refine ⟨a', _, entries', hbecame, ⟨?_, ?_, ?_, ?_, ?_⟩,
    h.owned.release hfreed', List.filter_sublist, ?_⟩
  · rw [hsource]
    simp
  · intro halias
    rw [hsource, hgone, Option.some.injEq] at halias
    exact absurd halias.symm hne
  · intro _
    exact targetOf_moved hnodup hnodup' hsource hiff
  · intro gone hgone' _
    rw [hgone, Option.some.injEq] at hgone'
    subst hgone'
    refine ⟨rfl, destination, hdestination, rfl, ?_⟩
    intro b
    rw [hflag, Bool.and_eq_true, decide_eq_true_eq]
    exact and_comm
  · intro hall
    obtain ⟨key, hkey⟩ := hall _ hgone
    exact absurd rfl (hnone _ ((targetOf_eq_some hnodup').mp hkey))
  · have htree := @Namespace.move_iff _ _ _ s t target h.tree
      [destination.id] hiff hparent (h.tree.target _ hmem) (by
        rw [List.mem_singleton]
        exact (h.tree.target_ne_root hold).symm) (by
        intro entry hentry
        rw [List.mem_singleton, List.mem_singleton]
        refine ⟨?_, hnone entry hentry⟩
        rcases (hiff entry).mp hentry with rfl | hother
        · have hlive := hchild _ hold
          exact hlive
        · exact hchild entry (otherEntries_subset entry hother)) (by
        intro inode hinode hstays hroot
        rw [List.mem_singleton] at hstays
        obtain ⟨entry, hentry, htarget⟩ := h.tree.targeted hinode hroot
        by_cases hs : directoryFormat.key entry = s
        · have hsame := targetOf_of_mem hnodup hentry
          rw [hs, hsource, Option.some.injEq] at hsame
          exact ⟨_, (hiff _).mpr (.inl rfl), hsame.trans htarget⟩
        · have ht : directoryFormat.key entry ≠ t := by
            intro ht
            have hsame := targetOf_of_mem hnodup hentry
            rw [ht, hgone, Option.some.injEq] at hsame
            exact hstays (htarget.symm.trans hsame.symm)
          exact ⟨entry, (hiff entry).mpr
            (.inr (mem_otherEntries.mpr ⟨hentry, hs, ht⟩)), htarget⟩)
    rw [htree, MoveSafe, hsource]
    simp

end Outcome

/-! ## The operations on a mounted disk -/

/-- Recovery of the disk `d` leaves a disk with `post`. -/
def Settles (sb : Superblock) (d : Disk) (post : Disk → Prop) : Prop :=
  ∃ report d', recoverJournalAndCheckpoint sb d = (.ok report, d') ∧ post d'

section Operations

variable {d d' : Disk} {sb : Superblock} {a : BlockAllocator}
  {inodes : List PersistedInode}
  {entries entries' : List PersistedDirectoryEntry}
  {oldParent newParent : UInt64} {oldName newName : String} {i j : Nat}
  {source destination : PersistedDirectoryEntry}
  {sourceInode destinationInode : PersistedInode}

/-- A disk at rest has settled. -/
theorem AtRest.settles (h : AtRest d sb a inodes entries) {post : Disk → Prop}
    (hpost : post d) : Settles sb d post :=
  ⟨_, d, h.recover, hpost⟩

theorem Selects.key {parent : UInt64} {name : String}
    (h : Selects entries parent name i source) :
    directoryFormat.key source = (parent, name) := by
  show (source.parent, source.name) = (parent, name)
  rw [h.parent_eq, h.name_eq]

theorem AtRest.targetOf_of_selects (h : AtRest d sb a inodes entries)
    {parent : UInt64} {name : String}
    (hsel : Selects entries parent name i source) :
    targetOf entries (parent, name) = some source.target := by
  rw [← hsel.key]
  exact targetOf_of_mem h.nodup_keys hsel.mem

theorem AtRest.kindOf_of_parent (h : AtRest d sb a inodes entries)
    {parent : UInt64} {label : String} {u : Unit}
    (hparent : validateDirectoryParent inodes parent label = .ok u) :
    kindOf inodes parent = some .directory := by
  simp only [validateDirectoryParent, Except.bind_eq_ok, okOr_eq_ok,
    rejectIf_eq_ok, not_ne_iff] at hparent
  obtain ⟨inode, hfind, hkind⟩ := hparent
  rw [kindOf_of_findInode h.nodup_ids hfind, hkind]

theorem AtRest.kindOf_of_directory (h : AtRest d sb a inodes entries)
    {id : UInt64} {label : String} {u : Unit}
    (hid : validateDirectory inodes id label = .ok u) :
    kindOf inodes id = some .directory := by
  simp only [validateDirectory, Except.bind_eq_ok, okOr_eq_ok, rejectIf_eq_ok,
    not_ne_iff] at hid
  obtain ⟨inode, hfind, hkind⟩ := hid
  rw [kindOf_of_findInode h.nodup_ids hfind, hkind]

/-- A move of an inode that is no directory is safe. -/
theorem Mounted.moveSafe_of_leaf (h : Mounted d sb a inodes entries)
    {s t : UInt64 × String} {target : UInt64}
    (hsource : targetOf entries s = some target)
    (hkind : kindOf inodes target ≠ some .directory)
    (hparent : kindOf inodes t.1 = some .directory) :
    MoveSafe entries s t := by
  intro other hother
  rw [hsource, Option.some.injEq] at hother
  rw [← hother]
  exact h.tree.no_way_out hkind hparent otherEntries_subset

/-- A move that passes the search for a cycle is safe. -/
theorem Mounted.moveSafe_of_search (h : Mounted d sb a inodes entries)
    (hsel : Selects entries oldParent oldName i source)
    (hsearch : wouldCreateDirectoryCycle entries i source.target newParent ≠
      true) :
    MoveSafe entries (oldParent, oldName) (newParent, newName) := by
  intro target htarget hpath
  rw [h.targetOf_of_selects hsel, Option.some.injEq] at htarget
  subst htarget
  apply hsearch
  rw [wouldCreateDirectoryCycle, Bool.or_eq_true]
  right
  rw [decide_eq_true_eq, mem_reach_iff, edge_eq_links]
  refine ReflTransGen.mono (links_mono ?_) _ _ hpath
  intro entry hentry
  obtain ⟨hmem, hs, _⟩ := mem_otherEntries.mp hentry
  rw [mem_eraseIdx h.nodup_entries hsel.get]
  refine ⟨hmem, ?_⟩
  intro heq
  subst heq
  exact hs hsel.key

/-- `rename_entry_journaled` on a mounted disk, with the recovery behind it. -/
theorem Mounted.renameEntry (h : Mounted d sb a inodes entries)
    (oldParent : UInt64) (oldName : String) (newParent : UInt64)
    (newName : String) :
    Effect.Atomic (renameEntryJournaled sb oldParent oldName newParent newName)
      d fun _ d' => Settles sb d' fun d'' =>
        Moved sb d d'' a inodes entries (oldParent, oldName)
            (newParent, newName) ∧
          MoveSafe entries (oldParent, oldName) (newParent, newName) ∧
          ((oldParent, oldName) = (newParent, newName) ∨
            targetOf entries (newParent, newName) = none) := by
  apply h.atomic_inodes
  apply Effect.atomic_lift_bind
  intro _ _
  apply Effect.atomic_lift_bind
  intro _ hparent
  have hkind := h.kindOf_of_parent hparent
  apply h.atomic_entries
  apply atomic_selectEntry
  intro i source hsel
  have hsource := h.targetOf_of_selects hsel
  apply Effect.atomic_lift_bind
  intro _ _
  by_cases hsame : oldParent = newParent ∧ oldName = newName
  · rw [if_pos hsame]
    obtain ⟨rfl, rfl⟩ := hsame
    apply Effect.atomic_pure
    apply h.toAtRest.settles
    have hmoved := h.moved_refl (by rw [hsource]; simp) rfl
    exact ⟨hmoved, (hmoved.check_iff h).mp ⟨_, h.check⟩, .inl rfl⟩
  · rw [if_neg hsame]
    have hkeys : (oldParent, oldName) ≠ (newParent, newName) := by
      intro heq
      rw [Prod.mk.injEq] at heq
      exact hsame heq
    apply Effect.atomic_lift_bind
    intro _ hfree
    rw [rejectIf_eq_ok] at hfree
    have hnone : targetOf entries (newParent, newName) = none := by
      rw [targetOf_eq_none]
      intro entry hentry hkey
      by_cases heq : entry = source
      · exact hkeys (by rw [← hsel.key, ← heq, hkey])
      · apply hfree
        refine ⟨entry, (mem_eraseIdx h.nodup_entries hsel.get).mpr
          ⟨hentry, heq⟩, congrArg Prod.fst hkey, congrArg Prod.snd hkey⟩
    apply Effect.atomic_lift_bind
    intro _ _
    apply Effect.atomic_lift_bind
    intro inode hfind
    rw [okOr_eq_ok] at hfind
    apply Effect.atomic_lift_bind
    intro _ hsearch
    rw [rejectIf_eq_ok, not_and] at hsearch
    have hsafe : MoveSafe entries (oldParent, oldName)
        (newParent, newName) := by
      by_cases hdirectory : inode.kind = .directory
      · exact h.moveSafe_of_search hsel (hsearch hdirectory)
      · apply h.moveSafe_of_leaf hsource _ hkind
        rw [kindOf_of_findInode h.nodup_ids hfind]
        simpa using hdirectory
    have hmoved : ∀ final, Became sb d final a inodes
        (entries.set i ⟨newParent, source.target, newName⟩) [] →
        Moved sb d final a inodes entries (oldParent, oldName)
          (newParent, newName) := by
      intro final hbecame
      apply h.moved_of_kept hsource (by rw [hnone]; simp) hkind _ _ hbecame
      · intro entry
        exact mem_set_key h.nodup_keys hsel.get hsel.key hnone
      · intro gone hgone
        rw [hnone] at hgone
        cases hgone
    rcases h.storeDirectoryTable
      (entries.set i ⟨newParent, source.target, newName⟩) with
      ⟨e, herr, _⟩ | ⟨hrun, hbecame⟩ | ⟨changed, d', hrun, hlogged, hbecame⟩
    · exact .inl ⟨e, herr⟩
    · refine .inr ⟨_, d, hrun, ?_⟩
      exact h.toAtRest.settles ⟨hmoved d hbecame, hsafe, .inr hnone⟩
    · refine .inr ⟨_, d', hrun, ?_⟩
      obtain ⟨report, final, hrecover, happlied⟩ := hlogged.recover h.size
      exact ⟨report, final, hrecover, hmoved final (hbecame final happlied),
        hsafe, .inr hnone⟩

/-! ### Overwriting -/

/-- One entry of several for an inode may be overwritten. -/
theorem Mounted.overwriteLinked (h : Mounted d sb a inodes entries)
    (hsource : Selects entries oldParent oldName i source)
    (hdestination : Selects entries newParent newName j destination)
    (hij : i ≠ j) (hne : source.target ≠ destination.target)
    (hkind : kindOf inodes newParent = some .directory)
    (hcount : referenceCount entries destination.target ≠ 1) :
    Effect.Atomic
      (storeDirectoryTableAndCheckpoint sb
        (overwrittenEntries entries i j ⟨newParent, source.target, newName⟩)) d
      fun _ d' => Moved sb d d' a inodes entries (oldParent, oldName)
        (newParent, newName) := by
  have hs := h.targetOf_of_selects hsource
  have ht := h.targetOf_of_selects hdestination
  apply (h.storeDirectoryTableAndCheckpoint _).atomic.mono
  intro _ d' hbecame
  rw [h.canonical] at hbecame
  apply h.moved_of_kept hs _ hkind _ _ hbecame
  · rw [ht]
    intro hsame
    exact hne (Option.some.inj hsame).symm
  · intro entry
    exact mem_overwrittenEntries h.nodup_keys hsource.get hdestination.get hij
      hsource.key hdestination.key
  · intro gone hgone
    rw [ht, Option.some.injEq] at hgone
    subst hgone
    obtain ⟨other, hother, hnot, htarget⟩ :=
      exists_other_reference h.nodup_entries hdestination.mem hcount
    refine ⟨other, mem_otherEntries.mpr ⟨hother, ?_, ?_⟩, htarget⟩
    · intro hkey
      have hsame := List.inj_on_of_nodup_map h.nodup_keys hother hsource.mem
        (hkey.trans hsource.key.symm)
      exact hne (by rw [← hsame, htarget])
    · intro hkey
      exact hnot (List.inj_on_of_nodup_map h.nodup_keys hother hdestination.mem
        (hkey.trans hdestination.key.symm))

/-- The last entry of an inode that is no parent may be overwritten. -/
theorem Mounted.overwriteLast (h : Mounted d sb a inodes entries)
    (hsource : Selects entries oldParent oldName i source)
    (hdestination : Selects entries newParent newName j destination)
    (hij : i ≠ j) (hne : source.target ≠ destination.target)
    (hkind : kindOf inodes newParent = some .directory)
    (hfind : findInode inodes destination.target = some destinationInode)
    (hcount : referenceCount entries destination.target = 1)
    (hchild : ∀ entry ∈ entries, entry.parent ≠ destination.target)
    (label : String) :
    Effect.Atomic
      (publishOverwrite sb a inodes
        (overwrittenEntries entries i j ⟨newParent, source.target, newName⟩)
        destinationInode label) d
      fun _ d' => Moved sb d d' a inodes entries (oldParent, oldName)
        (newParent, newName) := by
  obtain ⟨hmem, hid⟩ := findInode_eq_some hfind
  rw [← hid] at hne hchild
  have hs := h.targetOf_of_selects hsource
  have ht := h.targetOf_of_selects hdestination
  rw [← hid] at ht
  apply Effect.atomic_lift_bind
  intro a' hfreed
  have hfreed' : a.freeAll (destinationInode.blocks.map UInt64.toNat) =
      .ok a' := by
    cases hcase : a.freeAll (destinationInode.blocks.map UInt64.toNat) with
    | error e =>
      rw [hcase] at hfreed
      cases hfreed
    | ok b =>
      rw [hcase] at hfreed
      cases hfreed
      rfl
  apply (h.storeCreateMetadata a' _ _).atomic.mono
  intro _ d' hbecame
  rw [h.canonical_sublist List.filter_sublist] at hbecame
  apply h.moved_of_removed hs hmem ht hne.symm hkind _ _ hchild hfreed' hbecame
  · intro entry
    exact mem_overwrittenEntries h.nodup_keys hsource.get hdestination.get hij
      hsource.key hdestination.key
  · intro entry hentry htarget
    rw [(referenceCount_eq_one h.nodup_entries hdestination.mem).mp hcount entry
      hentry (htarget.trans hid)]
    exact hdestination.key

/-- Two selections at one position are for one key. -/
theorem Selects.same_key
    (hsource : Selects entries oldParent oldName i source)
    (hdestination : Selects entries newParent newName i destination) :
    (oldParent, oldName) = (newParent, newName) := by
  have hget := hsource.get
  rw [hdestination.get, Option.some.injEq] at hget
  rw [← hsource.key, ← hdestination.key, hget]

/-- A rename over the source itself changes nothing. -/
theorem Mounted.overwriteSelf (h : Mounted d sb a inodes entries)
    (hsource : Selects entries oldParent oldName i source)
    (hdestination : Selects entries newParent newName i destination) :
    Effect.Atomic (pure RecoveryReport.default : DevM Disk RecoveryReport) d
      fun _ d' => Moved sb d d' a inodes entries (oldParent, oldName)
          (newParent, newName) ∧
        MoveSafe entries (oldParent, oldName) (newParent, newName) := by
  apply Effect.atomic_pure
  rw [hsource.same_key hdestination]
  have hmoved := @Mounted.moved_refl _ _ _ _ _ _ (newParent, newName) h
    (by rw [h.targetOf_of_selects hdestination]; simp) rfl
  exact ⟨hmoved, (hmoved.check_iff h).mp ⟨_, h.check⟩⟩

/-- A rename of something else than a directory is safe. -/
theorem Mounted.moveSafe_of_kind (h : Mounted d sb a inodes entries)
    (hsource : Selects entries oldParent oldName i source)
    (hfind : findInode inodes source.target = some sourceInode)
    (hkind : sourceInode.kind ≠ .directory)
    (hparent : kindOf inodes newParent = some .directory) :
    MoveSafe entries (oldParent, oldName) (newParent, newName) := by
  apply h.moveSafe_of_leaf (h.targetOf_of_selects hsource) _ hparent
  rw [kindOf_of_findInode h.nodup_ids hfind]
  simpa using hkind

/-- `rename_overwrite_impl` on a mounted disk. -/
theorem Mounted.renameOverwriteImpl (h : Mounted d sb a inodes entries)
    (oldParent : UInt64) (oldName : String) (newParent : UInt64)
    (newName : String) {policy : RenameOverwritePolicy}
    (hpolicy : policy.expectedKind ≠ .directory) :
    Effect.Atomic
      (FilesystemLab.renameOverwriteImpl sb oldParent oldName newParent newName
        policy) d
      fun _ d' => Moved sb d d' a inodes entries (oldParent, oldName)
          (newParent, newName) ∧
        MoveSafe entries (oldParent, oldName) (newParent, newName) := by
  apply Effect.atomic_query_bind
  intro _ _
  apply h.atomic_allocator
  apply h.atomic_inodes
  apply h.atomic_entries
  apply Effect.atomic_lift_bind
  intro _ _
  apply Effect.atomic_lift_bind
  intro _ hparent
  have hkind := h.kindOf_of_parent hparent
  apply atomic_selectEntry
  intro i source hsource
  apply atomic_selectEntry
  intro j destination hdestination
  by_cases hij : i = j
  · rw [if_pos hij]
    subst hij
    exact h.overwriteSelf hsource hdestination
  · rw [if_neg hij]
    apply Effect.atomic_lift_bind
    intro _ hne
    rw [rejectIf_eq_ok] at hne
    apply Effect.atomic_lift_bind
    intro sourceInode hsourceInode
    rw [okOr_eq_ok] at hsourceInode
    apply Effect.atomic_lift_bind
    intro _ hsourceKind
    rw [rejectIf_eq_ok, not_ne_iff] at hsourceKind
    have hsafe := @Mounted.moveSafe_of_kind _ _ _ _ _ _ _ _ newName _ _ _ h
      hsource hsourceInode (by rw [hsourceKind]; exact hpolicy) hkind
    apply Effect.atomic_lift_bind
    intro destinationInode hfind
    rw [okOr_eq_ok] at hfind
    apply Effect.atomic_lift_bind
    intro _ hdestinationKind
    rw [rejectIf_eq_ok, not_ne_iff] at hdestinationKind
    apply Effect.atomic_lift_bind
    intro _ hmany
    rw [rejectIf_eq_ok, not_and] at hmany
    apply Effect.atomic_lift_bind
    intro _ hone
    rw [rejectIf_eq_ok, not_and, not_ne_iff] at hone
    apply Effect.atomic_lift_bind
    intro _ _
    by_cases hlinks : policy.requireMultipleLinks = true
    · rw [if_pos hlinks]
      have hcount : ¬ referenceCount entries destination.target < 2 :=
        hmany hlinks
      apply (h.overwriteLinked hsource hdestination hij hne hkind
        (by omega)).mono
      intro _ d' hmoved
      exact ⟨hmoved, hsafe⟩
    · rw [if_neg hlinks]
      apply (h.overwriteLast hsource hdestination hij hne hkind hfind
        (hone (by simpa using hlinks)) _ _).mono
      · intro _ d' hmoved
        exact ⟨hmoved, hsafe⟩
      · apply h.childless hfind
        rw [hdestinationKind]
        exact hpolicy

/-- `rename_overwrite_nondirectory_journaled` on a mounted disk. -/
theorem Mounted.renameOverwriteNondirectory (h : Mounted d sb a inodes entries)
    (oldParent : UInt64) (oldName : String) (newParent : UInt64)
    (newName : String) :
    Effect.Atomic
      (renameOverwriteNondirectoryJournaled sb oldParent oldName newParent
        newName) d
      fun _ d' => Moved sb d d' a inodes entries (oldParent, oldName)
          (newParent, newName) ∧
        MoveSafe entries (oldParent, oldName) (newParent, newName) := by
  apply Effect.atomic_query_bind
  intro _ _
  apply h.atomic_allocator
  apply h.atomic_inodes
  apply h.atomic_entries
  apply Effect.atomic_lift_bind
  intro _ _
  apply Effect.atomic_lift_bind
  intro _ hparent
  have hkind := h.kindOf_of_parent hparent
  apply atomic_selectEntry
  intro i source hsource
  apply atomic_selectEntry
  intro j destination hdestination
  by_cases hij : i = j
  · rw [if_pos hij]
    subst hij
    exact h.overwriteSelf hsource hdestination
  · rw [if_neg hij]
    apply Effect.atomic_lift_bind
    intro _ hne
    rw [rejectIf_eq_ok] at hne
    apply Effect.atomic_lift_bind
    intro sourceInode hsourceInode
    rw [okOr_eq_ok] at hsourceInode
    apply Effect.atomic_lift_bind
    intro destinationInode hfind
    rw [okOr_eq_ok] at hfind
    apply Effect.atomic_lift_bind
    intro _ hkinds
    rw [rejectIf_eq_ok, not_or] at hkinds
    have hsafe := @Mounted.moveSafe_of_kind _ _ _ _ _ _ _ _ newName _ _ _ h
      hsource hsourceInode hkinds.1 hkind
    apply Effect.atomic_lift_bind
    intro _ hzero
    rw [rejectIf_eq_ok] at hzero
    apply Effect.atomic_lift_bind
    intro _ _
    have hzero' : referenceCount entries destination.target ≠ 0 := hzero
    by_cases hmany : 1 < referenceCount entries destination.target
    · rw [if_pos hmany]
      apply (h.overwriteLinked hsource hdestination hij hne hkind
        (by omega)).mono
      intro _ d' hmoved
      exact ⟨hmoved, hsafe⟩
    · rw [if_neg hmany]
      apply (h.overwriteLast hsource hdestination hij hne hkind hfind
        (by omega) (h.childless hfind hkinds.2) _).mono
      intro _ d' hmoved
      exact ⟨hmoved, hsafe⟩

/-- How `rename_overwrite_directory_journaled` ends on a consistent disk: it
finds one key, or it publishes tables without an empty directory. -/
theorem Checked.renameOverwriteDirectory (h : Checked d sb a inodes entries)
    {post : RecoveryReport → Disk → Prop}
    (hself : ∀ i source destination,
      Selects entries oldParent oldName i source →
      Selects entries newParent newName i destination →
      post RecoveryReport.default d)
    (hpublish : ∀ i j source destination destinationInode,
      Selects entries oldParent oldName i source →
      Selects entries newParent newName j destination → i ≠ j →
      source.target ≠ destination.target →
      validateDirectory inodes newParent "destination parent" = .ok () →
      findInode inodes destination.target = some destinationInode →
      referenceCount entries destination.target = 1 →
      (∀ entry ∈ entries, entry.parent ≠ destination.target) →
      validateAcyclic inodes
        (overwrittenEntries entries i j ⟨newParent, source.target, newName⟩)
        "directory rename-overwrite would create a cycle" = .ok () →
      Effect.Atomic
        (publishOverwrite sb a inodes
          (overwrittenEntries entries i j ⟨newParent, source.target, newName⟩)
          destinationInode "") d post) :
    Effect.Atomic
      (renameOverwriteDirectoryJournaled sb oldParent oldName newParent newName)
      d post := by
  apply Effect.atomic_query_bind
  intro _ _
  refine Effect.atomic_query_bind_of_ok h.allocator ?_
  refine Effect.atomic_query_bind_of_ok h.inodeTable ?_
  refine Effect.atomic_query_bind_of_ok h.directoryTable ?_
  apply Effect.atomic_lift_bind
  intro _ _
  apply Effect.atomic_lift_bind
  intro _ hparent
  apply atomic_selectEntry
  intro i source hsource
  apply atomic_selectEntry
  intro j destination hdestination
  by_cases hij : i = j
  · rw [if_pos hij]
    subst hij
    exact Effect.atomic_pure (hself _ _ _ hsource hdestination)
  · rw [if_neg hij]
    apply Effect.atomic_lift_bind
    intro _ hne
    rw [rejectIf_eq_ok] at hne
    apply Effect.atomic_lift_bind
    intro _ _
    apply Effect.atomic_lift_bind
    intro _ _
    apply Effect.atomic_lift_bind
    intro _ _
    apply Effect.atomic_lift_bind
    intro _ hcount
    rw [rejectIf_eq_ok, not_ne_iff] at hcount
    apply Effect.atomic_lift_bind
    intro _ hempty
    rw [rejectIf_eq_ok] at hempty
    apply Effect.atomic_lift_bind
    intro destinationInode hfind
    rw [okOr_eq_ok] at hfind
    apply Effect.atomic_lift_bind
    intro _ _
    apply Effect.atomic_lift_bind
    intro _ _
    apply Effect.atomic_lift_bind
    intro _ _
    apply Effect.atomic_lift_bind
    intro _ hcycles
    apply hpublish i j source destination destinationInode hsource hdestination
      hij hne hparent hfind hcount _ hcycles
    intro entry hentry hchild
    exact hempty ⟨entry, hentry, hchild⟩

/-- A rename over a directory that passes the check for cycles is safe if every
directory has one entry. -/
theorem Mounted.moveSafe_of_validateAcyclic (h : Mounted d sb a inodes entries)
    (hsource : Selects entries oldParent oldName i source)
    (hdestination : Selects entries newParent newName j destination)
    (hij : i ≠ j) (hkind : kindOf inodes newParent = some .directory)
    {message : String} (hcycles : validateAcyclic inodes
      (overwrittenEntries entries i j ⟨newParent, source.target, newName⟩)
      message = .ok ())
    (hsingle : SingleEntries inodes entries) :
    MoveSafe entries (oldParent, oldName) (newParent, newName) := by
  have hnew : ∀ entry, entry ∈ overwrittenEntries entries i j
      ⟨newParent, source.target, newName⟩ ↔ _ := fun entry =>
    mem_overwrittenEntries h.nodup_keys hsource.get hdestination.get hij
      hsource.key hdestination.key
  have hmoved := (hnew ⟨newParent, source.target, newName⟩).mpr (.inl rfl)
  have hacyclic : Acyclic (Links (overwrittenEntries entries i j
      ⟨newParent, source.target, newName⟩)) := by
    apply acyclic_of_validateAcyclic hcycles
    · intro entry hentry
      rcases (hnew entry).mp hentry with rfl | hold
      · exact hkind
      · exact h.tree.parent entry (otherEntries_subset entry hold)
    · -- the moved directory has no entry besides the new one
      have hnone : ∀ other ∈ otherEntries entries (oldParent, oldName)
          (newParent, newName), kindOf inodes source.target = some .directory →
            other.target ≠ source.target := by
        intro other hother hsourceKind htarget
        obtain ⟨hmem, hkey, _⟩ := mem_otherEntries.mp hother
        apply hkey
        rw [hsingle source hsource.mem hsourceKind other hmem htarget,
          hsource.key]
      intro entry hentry hdirectory other hother htarget
      rcases (hnew entry).mp hentry with rfl | hold
      · rcases (hnew other).mp hother with rfl | hold'
        · rfl
        · exact absurd htarget (hnone other hold' hdirectory)
      · rcases (hnew other).mp hother with rfl | hold'
        · have hsame : source.target = entry.target := htarget
          rw [← hsame] at hdirectory
          exact absurd hsame.symm (hnone entry hold hdirectory)
        · exact hsingle entry (otherEntries_subset entry hold) hdirectory other
            (otherEntries_subset other hold') htarget
  intro target htarget
  rw [h.targetOf_of_selects hsource, Option.some.injEq] at htarget
  subst htarget
  exact no_way_back_of_acyclic hacyclic hmoved
    fun entry hentry => (hnew entry).mpr (.inr hentry)

/-- `rename_overwrite_directory_journaled` on a mounted disk, with the condition
under which the check for cycles suffices. -/
theorem Mounted.renameOverwriteDirectory_safe
    (h : Mounted d sb a inodes entries) (oldParent : UInt64) (oldName : String)
    (newParent : UInt64) (newName : String) :
    Effect.Atomic
      (renameOverwriteDirectoryJournaled sb oldParent oldName newParent newName)
      d fun _ d' => Moved sb d d' a inodes entries (oldParent, oldName)
          (newParent, newName) ∧
        (SingleEntries inodes entries →
          MoveSafe entries (oldParent, oldName) (newParent, newName)) := by
  apply h.checked.renameOverwriteDirectory
  · intro i source destination hsource hdestination
    rw [hsource.same_key hdestination]
    have hmoved := @Mounted.moved_refl _ _ _ _ _ _ (newParent, newName) h
      (by rw [h.targetOf_of_selects hdestination]; simp) rfl
    exact ⟨hmoved, fun _ => (hmoved.check_iff h).mp ⟨_, h.check⟩⟩
  · intro i j source destination destinationInode hsource hdestination hij hne
      hparent hfind hcount hchild hcycles
    have hkind := h.kindOf_of_directory hparent
    apply (h.overwriteLast hsource hdestination hij hne hkind hfind hcount
      hchild _).mono
    intro _ d' hmoved
    exact ⟨hmoved, h.moveSafe_of_validateAcyclic hsource hdestination hij hkind
      hcycles⟩

/-- `rename_overwrite_directory_journaled` on a mounted disk. -/
theorem Mounted.renameOverwriteDirectory (h : Mounted d sb a inodes entries)
    (oldParent : UInt64) (oldName : String) (newParent : UInt64)
    (newName : String) :
    Effect.Atomic
      (renameOverwriteDirectoryJournaled sb oldParent oldName newParent newName)
      d fun _ d' => Moved sb d d' a inodes entries (oldParent, oldName)
        (newParent, newName) := by
  apply (h.renameOverwriteDirectory_safe oldParent oldName newParent
    newName).mono
  intro _ d' hpost
  exact hpost.1

end Operations

end FilesystemLab
