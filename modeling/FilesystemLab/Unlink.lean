import FilesystemLab.PathLookup

/-!
# Unlink

`unlink_tx.rs`, `path_unlink.rs`, `hard_unlink_tx.rs`, `symlink_unlink.rs` and
`path_unlink_dispatch.rs`.

The functions that remove the last entry of an inode publish the three tables
without it, after `validate_unlink_transition` has compared them with the tables
in place.  `LegalUnlink` is what this validator decides.  An entry of an inode
with others is removed from the directory table alone.
-/

namespace FilesystemLab

open Relation Digraph

/-! ## The validator -/

/-- The loop over the data blocks: those that the current allocator owns and the
desired one does not. -/
def observeFreed (current desired : BlockAllocator) :
    List Nat → Result (List Nat)
  | [] => pure []
  | block :: blocks => do
    let currentOwned ← liftInput (current.isOwned block)
    let desiredOwned ← liftInput (desired.isOwned block)
    match currentOwned, desiredOwned with
    | true, false => do
      let rest ← observeFreed current desired blocks
      pure (block :: rest)
    | false, true =>
      .error (invalidInput "unlink may not allocate a data block")
    | _, _ => observeFreed current desired blocks

/-- The checks of `validate_unlink_transition` on the inodes: the one that is
removed. -/
def validateRemovedInode (current desired : List PersistedInode) :
    Result PersistedInode := do
  rejectIf (¬ (current.map PersistedInode.id).Nodup ∨
      ¬ (desired.map PersistedInode.id).Nodup)
    (invalidInput "unlink inode snapshot contains duplicate identifiers")
  match current.filter fun inode =>
    inode.id ∉ desired.map PersistedInode.id with
  | [removed] => do
    rejectIf (∃ id ∈ desired.map PersistedInode.id,
        id ∉ current.map PersistedInode.id)
      (invalidInput "unlink may not add an inode")
    rejectIf (∃ inode ∈ current, ∃ other ∈ findInode desired inode.id,
        inode.eq other = false)
      (invalidInput "unlink may not modify surviving inodes")
    rejectIf (removed.id = 1)
      (invalidInput "unlink may not remove the root inode")
    pure removed
  | _ => .error (invalidInput "unlink must remove exactly one inode")

/-- The checks of `validate_unlink_transition` on the entries. -/
def validateRemovedEntry (removed : PersistedInode)
    (current desired : List PersistedDirectoryEntry) : Result Unit := do
  rejectIf (¬ current.Nodup ∨ ¬ desired.Nodup)
    (invalidInput "unlink namespace snapshot contains duplicate entries")
  rejectIf (∃ entry ∈ desired, entry ∉ current)
    (invalidInput "unlink may not add or retarget a namespace entry")
  match current.filter fun entry => entry ∉ desired with
  | [entry] => do
    rejectIf (entry.target ≠ removed.id)
      (invalidInput "removed namespace entry must target the removed inode")
    rejectIf (referenceCount current removed.id ≠ 1) (invalidInput
      "unlink cannot remove an inode with another namespace reference")
    rejectIf (∃ entry ∈ desired,
        entry.target = removed.id ∨ entry.parent = removed.id)
      (invalidInput "unlink leaves a namespace reference to the removed inode")
    rejectIf (removed.kind = .directory ∧
        ∃ entry ∈ current, entry.parent = removed.id)
      (invalidInput "unlink cannot remove a non-empty directory")
  | _ => .error (invalidInput "unlink must remove exactly one namespace entry")

/-- The check of `validate_unlink_transition` on the allocators. -/
def validateFreed (removed : PersistedInode) (current desired : BlockAllocator) :
    Result Unit := do
  let observed ← observeFreed current desired
    (List.range' current.reservedBlocks
      (current.totalBlocks - current.reservedBlocks))
  let expected := removed.blocks.map UInt64.toNat
  rejectIf (¬ (observed ⊆ expected ∧ expected ⊆ observed))
    (invalidInput "unlink must free exactly the removed inode's data blocks")

section Device

variable {σ : Type} [BlockDevice σ]

/-- `validate_unlink_transition`. -/
def validateUnlinkTransition (device : σ) (sb : Superblock)
    (allocator : BlockAllocator) (inodes : List PersistedInode)
    (entries : List PersistedDirectoryEntry) : Result Unit := do
  let currentAllocator ← loadAllocator device sb
  let currentInodes ← loadInodeTable device sb
  let currentEntries ← loadDirectoryTable device sb
  rejectIf (currentAllocator.totalBlocks ≠ allocator.totalBlocks ∨
      currentAllocator.reservedBlocks ≠ allocator.reservedBlocks)
    (invalidInput "unlink allocator geometry changed")
  let removed ← validateRemovedInode currentInodes inodes
  validateRemovedEntry removed currentEntries entries
  validateFreed removed currentAllocator allocator

/-- `store_unlink_metadata_journaled`. -/
def storeUnlinkMetadataJournaled (sb : Superblock) (allocator : BlockAllocator)
    (inodes : List PersistedInode) (entries : List PersistedDirectoryEntry) :
    DevM σ RecoveryReport := do
  Effect.query (validateUnlinkTransition · sb allocator inodes entries)
  storeCreateMetadataJournaled sb allocator inodes entries

/-! ## The operations -/

/-- The loop that asks for the owner of every block of an inode. -/
def requireOwned (allocator : BlockAllocator) (message : String) :
    List UInt64 → Result Unit
  | [] => pure ()
  | block :: blocks => do
    let owned ← liftInput (allocator.isOwned block.toNat)
    rejectIf (owned = false) (invalidInput message)
    requireOwned allocator message blocks

/-- The end of the functions that remove the last entry of an inode: they free
its blocks and publish the tables without both. -/
def publishUnlink (sb : Superblock) (allocator : BlockAllocator)
    (inodes : List PersistedInode) (entries : List PersistedDirectoryEntry)
    (index : Nat) (inode : PersistedInode) : DevM σ RecoveryReport := do
  let allocator ← liftInput (allocator.freeAll (inode.blocks.map UInt64.toNat))
  storeUnlinkMetadataJournaled sb allocator
    (inodes.eraseP fun other => other.id = inode.id) (entries.eraseIdx index)

/-- `unlink_file_journaled`. -/
def unlinkFileJournaled (sb : Superblock) (parent : UInt64) (name : String) :
    DevM σ RecoveryReport := do
  let allocator ← Effect.query (loadAllocator · sb)
  let inodes ← Effect.query (loadInodeTable · sb)
  let entries ← Effect.query (loadDirectoryTable · sb)
  let selected ← okOr (selectEntry entries parent name)
    (invalidInput "regular-file entry is missing")
  let inode ← okOr (findInode inodes selected.2.target)
    (invalidInput "regular-file target inode is missing")
  rejectIf (inode.kind ≠ .file)
    (invalidInput "unlink requires a regular-file inode")
  rejectIf (referenceCount entries selected.2.target ≠ 1) (invalidInput
    "regular-file final unlink requires exactly one namespace reference")
  rejectIf (¬ inode.blocks.Nodup)
    (invalidInput "regular-file inode contains duplicate block references")
  requireOwned allocator "regular-file data block is not allocator-owned"
    inode.blocks
  publishUnlink sb allocator inodes entries selected.1 inode

/-- `remove_directory_journaled`. -/
def removeDirectoryJournaled (sb : Superblock) (parent : UInt64)
    (name : String) : DevM σ RecoveryReport := do
  let allocator ← Effect.query (loadAllocator · sb)
  let inodes ← Effect.query (loadInodeTable · sb)
  let entries ← Effect.query (loadDirectoryTable · sb)
  let selected ← okOr (selectEntry entries parent name)
    (invalidInput "directory entry is missing")
  let inode ← okOr (findInode inodes selected.2.target)
    (invalidInput "directory target inode is missing")
  rejectIf (selected.2.target = 1)
    (invalidInput "directory removal cannot remove the root inode")
  rejectIf (inode.kind ≠ .directory)
    (invalidInput "directory removal requires a directory inode")
  rejectIf (referenceCount entries selected.2.target ≠ 1)
    (invalidInput "directory removal requires exactly one namespace reference")
  rejectIf (∃ entry ∈ entries, entry.parent = selected.2.target)
    (invalidInput "directory removal requires an empty directory")
  rejectIf (¬ inode.blocks.Nodup)
    (invalidInput "directory inode contains duplicate block references")
  requireOwned allocator "directory data block is not allocator-owned"
    inode.blocks
  publishUnlink sb allocator inodes entries selected.1 inode

/-- `unlink_symlink_journaled`. -/
def unlinkSymlinkJournaled (sb : Superblock) (parent : UInt64) (name : String) :
    DevM σ RecoveryReport := do
  let allocator ← Effect.query (loadAllocator · sb)
  let inodes ← Effect.query (loadInodeTable · sb)
  let entries ← Effect.query (loadDirectoryTable · sb)
  let selected ← okOr (selectEntry entries parent name)
    (invalidInput "symlink entry is missing")
  let inode ← okOr (findInode inodes selected.2.target)
    (invalidInput "symlink target inode is missing")
  rejectIf (inode.kind ≠ .symlink)
    (invalidInput "unlink requires a symbolic-link inode")
  rejectIf (referenceCount entries selected.2.target ≠ 1)
    (invalidInput "symlink unlink requires exactly one namespace reference")
  Effect.query (validateSymlinkInode · inode)
  requireOwned allocator "symlink target block is not allocator-owned"
    inode.blocks
  publishUnlink sb allocator inodes entries selected.1 inode

/-- `unlink_nonfinal_link_journaled`. -/
def unlinkNonfinalLinkJournaled (sb : Superblock) (parent : UInt64)
    (name : String) (expectedKind : InodeKind) (validatePayload : Bool) :
    DevM σ RecoveryReport := do
  let inodes ← Effect.query (loadInodeTable · sb)
  let entries ← Effect.query (loadDirectoryTable · sb)
  let selected ← okOr (selectEntry entries parent name)
    (invalidInput "hard-link entry is missing")
  let inode ← okOr (findInode inodes selected.2.target)
    (invalidInput "hard-link target inode is missing")
  rejectIf (inode.kind ≠ expectedKind) (invalidInput
    "non-final hard-link unlink target has the wrong inode kind")
  rejectIf (referenceCount entries selected.2.target < 2) (invalidInput
    "non-final hard-link unlink cannot remove the final reference")
  let _ ← Effect.query fun device =>
    if validatePayload = true then
      (readSymlink device sb selected.2.target).map fun _ => ()
    else pure ()
  storeDirectoryTableAndCheckpoint sb (entries.eraseIdx selected.1)

/-- `unlink_nonfinal_file_link_journaled`. -/
def unlinkNonfinalFileLinkJournaled (sb : Superblock) (parent : UInt64)
    (name : String) : DevM σ RecoveryReport :=
  unlinkNonfinalLinkJournaled sb parent name .file false

/-- `unlink_nonfinal_symlink_link_journaled`. -/
def unlinkNonfinalSymlinkLinkJournaled (sb : Superblock) (parent : UInt64)
    (name : String) : DevM σ RecoveryReport :=
  unlinkNonfinalLinkJournaled sb parent name .symlink true

/-- The messages of `split_path` in `path_unlink_dispatch.rs`. -/
def unlinkSplit : SplitMessages where
  relative := "unlink path must be an absolute path"
  root := "unlink path cannot be the root path"
  missing := "unlink path must contain a final component"
  empty := "unlink path final component is empty"

/-- The part of `unlink_at_path_journaled` behind the path. -/
def unlinkDispatch (sb : Superblock) (parent : UInt64) (name : String) :
    DevM σ RecoveryReport := do
  let entries ← Effect.query (loadDirectoryTable · sb)
  let entry ← okOr (lookupEntry entries parent name)
    (invalidInput "unlink entry is missing")
  let inodes ← Effect.query (loadInodeTable · sb)
  let inode ← okOr (findInode inodes entry.target)
    (invalidInput "unlink target inode is missing")
  match inode.kind, referenceCount entries entry.target with
  | .directory, _ =>
    Effect.fail
      (invalidInput "unlink cannot remove a directory; use directory removal")
  | _, 0 =>
    Effect.fail (invalidInput "unlink target has no namespace references")
  | .file, 1 => unlinkFileJournaled sb parent name
  | .file, _ => unlinkNonfinalFileLinkJournaled sb parent name
  | .symlink, 1 => unlinkSymlinkJournaled sb parent name
  | .symlink, _ => unlinkNonfinalSymlinkLinkJournaled sb parent name

/-- `unlink_at_path_journaled`. -/
def unlinkAtPathJournaled (sb : Superblock) (path : String) :
    DevM σ RecoveryReport := do
  let parts ← splitPath unlinkSplit path
  let _ ← recoverJournalAndCheckpointChecked sb
  let parent ← Effect.query (resolvePathFollowingSymlinks · sb parts.1)
  unlinkDispatch sb parent parts.2

end Device

/-! ## What the validator decides -/

/-- The desired tables are the current ones without `removed`, its only entry
`entry` and its blocks. -/
structure LegalUnlink (a : BlockAllocator) (inodes : List PersistedInode)
    (entries : List PersistedDirectoryEntry) (a' : BlockAllocator)
    (inodes' : List PersistedInode) (entries' : List PersistedDirectoryEntry)
    (removed : PersistedInode) (entry : PersistedDirectoryEntry) : Prop where
  totalBlocks : a.totalBlocks = a'.totalBlocks
  reservedBlocks : a.reservedBlocks = a'.reservedBlocks
  ids : (inodes.map PersistedInode.id).Nodup
  ids' : (inodes'.map PersistedInode.id).Nodup
  triples : entries.Nodup
  triples' : entries'.Nodup
  mem : removed ∈ inodes
  not_root : removed.id ≠ 1
  survives : ∀ inode ∈ inodes, inode ≠ removed →
    ∃ other ∈ inodes', inode.eq other = true
  kept : ∀ other ∈ inodes',
    ∃ inode ∈ inodes, inode ≠ removed ∧ inode.eq other = true
  entry_mem : entry ∈ entries
  entries_iff : ∀ other, other ∈ entries' ↔ other ∈ entries ∧ other ≠ entry
  target : entry.target = removed.id
  only : ∀ other ∈ entries, other.target = removed.id → other = entry
  no_child : ∀ other ∈ entries', other.parent ≠ removed.id
  childless : removed.kind = .directory →
    ∀ other ∈ entries, other.parent ≠ removed.id
  owned : ∀ block ∈ removed.blocks, a.flag block.toNat = true
  freed : ∀ b, a'.flag b = true ↔
    a.flag b = true ∧ b ∉ removed.blocks.map UInt64.toNat

/-- A list without repetitions with one element of a kind. -/
theorem filter_eq_singleton {α : Type} {p : α → Bool} {l : List α}
    (hnodup : l.Nodup) {x : α} :
    l.filter p = [x] ↔ x ∈ l ∧ ∀ y ∈ l, p y = true ↔ y = x := by
  have hmem : ∀ y, y ∈ l.filter p ↔ y ∈ l ∧ p y = true := fun y =>
    List.mem_filter
  constructor
  · intro h
    rw [h] at hmem
    have hx := (hmem x).mp (List.mem_singleton_self x)
    refine ⟨hx.1, ?_⟩
    intro y hy
    constructor
    · intro hp
      exact List.mem_singleton.mp ((hmem y).mpr ⟨hy, hp⟩)
    · intro heq
      subst heq
      exact hx.2
  · intro hfacts
    rcases hfacts with ⟨hx, hall⟩
    apply List.perm_singleton.mp
    rw [List.perm_ext_iff_of_nodup (hnodup.filter _) (List.nodup_singleton x)]
    intro y
    rw [hmem, List.mem_singleton]
    constructor
    · intro hfacts
      rcases hfacts with ⟨hy, hp⟩
      exact (hall y hy).mp hp
    · intro heq
      subst heq
      exact ⟨hx, (hall y hx).mpr rfl⟩

theorem PersistedInode.id_eq_of_eq {inode other : PersistedInode}
    (h : inode.eq other = true) : inode.id = other.id := by
  simp only [PersistedInode.eq, Bool.and_eq_true, decide_eq_true_eq] at h
  exact h.1.1.1

section Validator

variable {a a' : BlockAllocator} {inodes inodes' : List PersistedInode}
  {entries entries' : List PersistedDirectoryEntry} {removed : PersistedInode}

theorem validateRemovedInode_eq_ok :
    validateRemovedInode inodes inodes' = .ok removed ↔
      (inodes.map PersistedInode.id).Nodup ∧
      (inodes'.map PersistedInode.id).Nodup ∧ removed ∈ inodes ∧
      removed.id ≠ 1 ∧
      (∀ inode ∈ inodes, inode ≠ removed →
        ∃ other ∈ inodes', inode.eq other = true) ∧
      ∀ other ∈ inodes',
        ∃ inode ∈ inodes, inode ≠ removed ∧ inode.eq other = true := by
  unfold validateRemovedInode
  simp only [Except.bind_eq_ok, rejectIf_eq_ok, not_or, not_not]
  constructor
  · intro hfacts
    rcases hfacts with ⟨_, ⟨hids, hids'⟩, h⟩
    split at h
    case h_2 => cases h
    case h_1 only hfilter =>
      simp only [Except.bind_eq_ok, rejectIf_eq_ok, Except.pure_eq_ok,
        Except.ok.injEq] at h
      obtain ⟨_, hadd, _, hmodify, _, hroot, rfl⟩ := h
      rw [filter_eq_singleton hids.of_map] at hfilter
      obtain ⟨hmem, hgone⟩ := hfilter
      simp only [decide_eq_true_eq] at hgone
      -- a survivor is compared with the desired inode of its identifier
      have hsame : ∀ inode ∈ inodes, ∀ other ∈ inodes', other.id = inode.id →
          inode.eq other = true := by
        intro inode hinode other hother hid
        have hfind := findInode_of_mem hids' hother
        rw [hid] at hfind
        by_contra hne
        exact hmodify ⟨inode, hinode, other, hfind, by simpa using hne⟩
      refine ⟨hids, hids', hmem, hroot, ?_, ?_⟩
      · intro inode hinode hne
        have hid : inode.id ∈ inodes'.map PersistedInode.id := by
          by_contra hno
          exact hne ((hgone inode hinode).mp hno)
        obtain ⟨other, hother, hid⟩ := List.mem_map.mp hid
        exact ⟨other, hother, hsame inode hinode other hother hid⟩
      · intro other hother
        have hid : other.id ∈ inodes.map PersistedInode.id := by
          by_contra hno
          exact hadd ⟨other.id, List.mem_map_of_mem hother, hno⟩
        obtain ⟨inode, hinode, hid⟩ := List.mem_map.mp hid
        refine ⟨inode, hinode, ?_, hsame inode hinode other hother hid.symm⟩
        intro heq
        subst heq
        exact (hgone inode hinode).mpr rfl
          (hid ▸ List.mem_map_of_mem hother)
  · intro hfacts
    rcases hfacts with ⟨hids, hids', hmem, hroot, hsurvives, hkept⟩
    have hfilter : inodes.filter (fun inode =>
        inode.id ∉ inodes'.map PersistedInode.id) = [removed] := by
      rw [filter_eq_singleton hids.of_map]
      refine ⟨hmem, ?_⟩
      intro inode hinode
      rw [decide_eq_true_eq]
      constructor
      · intro hno
        by_contra hne
        obtain ⟨other, hother, heq⟩ := hsurvives inode hinode hne
        apply hno
        rw [PersistedInode.id_eq_of_eq heq]
        exact List.mem_map_of_mem hother
      · rintro rfl hid
        obtain ⟨other, hother, hid⟩ := List.mem_map.mp hid
        obtain ⟨survivor, hsurvivor, hne, heq⟩ := hkept other hother
        apply hne
        apply List.inj_on_of_nodup_map hids hsurvivor hmem
        rw [PersistedInode.id_eq_of_eq heq, hid]
    refine ⟨(), ⟨hids, hids'⟩, ?_⟩
    rw [hfilter]
    simp only [Except.bind_eq_ok, rejectIf_eq_ok, Except.pure_eq_ok]
    refine ⟨(), ?_, (), ?_, (), hroot, trivial⟩
    · intro hfacts
      rcases hfacts with ⟨id, hid, hno⟩
      obtain ⟨other, hother, rfl⟩ := List.mem_map.mp hid
      obtain ⟨inode, hinode, _, heq⟩ := hkept other hother
      apply hno
      rw [← PersistedInode.id_eq_of_eq heq]
      exact List.mem_map_of_mem hinode
    · intro hfacts
      rcases hfacts with ⟨inode, hinode, other, hfind, hne⟩
      obtain ⟨hother, hid⟩ := findInode_eq_some hfind
      obtain ⟨same, hsame, _, heq⟩ := hkept other hother
      have hinodes : same = inode := by
        apply List.inj_on_of_nodup_map hids hsame hinode
        rw [PersistedInode.id_eq_of_eq heq, hid]
      rw [hinodes, hne] at heq
      cases heq

theorem validateRemovedEntry_eq_ok {u : Unit} :
    validateRemovedEntry removed entries entries' = .ok u ↔
      entries.Nodup ∧ entries'.Nodup ∧ ∃ entry ∈ entries,
        (∀ other, other ∈ entries' ↔ other ∈ entries ∧ other ≠ entry) ∧
        entry.target = removed.id ∧
        (∀ other ∈ entries, other.target = removed.id → other = entry) ∧
        (∀ other ∈ entries', other.parent ≠ removed.id) ∧
        (removed.kind = .directory →
          ∀ other ∈ entries, other.parent ≠ removed.id) := by
  unfold validateRemovedEntry
  simp only [Except.bind_eq_ok, rejectIf_eq_ok, not_or, not_not]
  constructor
  · intro hfacts
    rcases hfacts with ⟨_, ⟨hnodup, hnodup'⟩, _, hadd, h⟩
    split at h
    case h_2 => cases h
    case h_1 entry hfilter =>
      simp only [Except.bind_eq_ok, rejectIf_eq_ok, not_ne_iff] at h
      obtain ⟨_, htarget, _, hcount, _, hleft, hempty⟩ := h
      rw [filter_eq_singleton hnodup] at hfilter
      obtain ⟨hmem, hgone⟩ := hfilter
      simp only [decide_eq_true_eq] at hgone
      rw [← htarget, referenceCount_eq_one hnodup hmem, htarget] at hcount
      refine ⟨hnodup, hnodup', entry, hmem, ?_, htarget, hcount, ?_, ?_⟩
      · intro other
        constructor
        · intro hother
          have hold : other ∈ entries := by
            by_contra hno
            exact hadd ⟨other, hother, hno⟩
          exact ⟨hold, fun heq => (hgone other hold).mpr heq hother⟩
        · intro hfacts
          rcases hfacts with ⟨hold, hne⟩
          by_contra hno
          exact hne ((hgone other hold).mp hno)
      · intro other hother hparent
        exact hleft ⟨other, hother, .inr hparent⟩
      · intro hkind other hother hparent
        exact hempty ⟨hkind, other, hother, hparent⟩
  · intro hfacts
    rcases hfacts with ⟨hnodup, hnodup', entry, hmem, hiff, htarget, honly,
      hchild, hempty⟩
    have hfilter : entries.filter (fun other => other ∉ entries') =
        [entry] := by
      rw [filter_eq_singleton hnodup]
      refine ⟨hmem, ?_⟩
      intro other hother
      rw [decide_eq_true_eq, hiff, not_and, not_not]
      exact ⟨fun h => h hother, fun h _ => h⟩
    refine ⟨(), ⟨hnodup, hnodup'⟩, (), ?_, ?_⟩
    · intro hfacts
      rcases hfacts with ⟨other, hother, hno⟩
      exact hno ((hiff other).mp hother).1
    · rw [hfilter]
      simp only [Except.bind_eq_ok, rejectIf_eq_ok, not_ne_iff]
      refine ⟨(), htarget, (), ?_, (), ?_, ?_⟩
      · rw [← htarget, referenceCount_eq_one hnodup hmem, htarget]
        exact honly
      · intro hfacts
        rcases hfacts with ⟨other, hother, htarget' | hparent⟩
        · obtain ⟨hold, hne⟩ := (hiff other).mp hother
          exact hne (honly other hold htarget')
        · exact hchild other hother hparent
      · intro hfacts
        rcases hfacts with ⟨hkind, other, hother, hparent⟩
        exact hempty hkind other hother hparent

/-- The loop over the data blocks ends unless one is newly owned. -/
theorem observeFreed_eq_ok {blocks observed : List Nat}
    (hrange : ∀ b ∈ blocks, a.isOwned b = .ok (a.flag b) ∧
      a'.isOwned b = .ok (a'.flag b)) :
    observeFreed a a' blocks = .ok observed ↔
      (∀ b ∈ blocks, a'.flag b = true → a.flag b = true) ∧
        observed = blocks.filter fun b => a.flag b && !a'.flag b := by
  induction blocks generalizing observed with
  | nil =>
    simp only [observeFreed, Except.pure_eq_ok, Except.ok.injEq,
      List.filter_nil]
    exact ⟨fun h => ⟨by simp, h.symm⟩, fun h => h.2.symm⟩
  | cons b bs ih =>
    rw [List.forall_mem_cons] at hrange
    obtain ⟨⟨hb, hb'⟩, hrange⟩ := hrange
    have ih := fun observed => @ih observed hrange
    rw [observeFreed, liftInput_eq_ok.mpr hb, Except.ok_bind,
      liftInput_eq_ok.mpr hb', Except.ok_bind]
    cases hflag : a.flag b with
    | true =>
      cases hflag' : a'.flag b with
      | true => simp [ih, hflag, hflag']
      | false =>
        simp only [Except.bind_eq_ok, ih, Except.pure_eq_ok, Except.ok.injEq,
          List.forall_mem_cons, hflag, hflag', List.filter_cons,
          Bool.not_false, Bool.and_self, if_true]
        constructor
        · intro hfacts
          rcases hfacts with ⟨_, ⟨hnew, rfl⟩, rfl⟩
          exact ⟨⟨fun _ => trivial, hnew⟩, rfl⟩
        · intro hfacts
          rcases hfacts with ⟨⟨_, hnew⟩, rfl⟩
          exact ⟨_, ⟨hnew, rfl⟩, rfl⟩
    | false =>
      cases hflag' : a'.flag b with
      | true => simp [hflag, hflag']
      | false => simp [ih, hflag, hflag']

theorem validateFreed_eq_ok {u : Unit}
    (htotal : a.totalBlocks = a'.totalBlocks)
    (hreserved : a.reservedBlocks = a'.reservedBlocks) :
    validateFreed removed a a' = .ok u ↔
      (∀ block ∈ removed.blocks, a.flag block.toNat = true) ∧
        ∀ b, a'.flag b = true ↔
          a.flag b = true ∧ b ∉ removed.blocks.map UInt64.toNat := by
  have hmem : ∀ b, b ∈ List.range' a.reservedBlocks
      (a.totalBlocks - a.reservedBlocks) ↔
        a.reservedBlocks ≤ b ∧ b < a.totalBlocks := by
    intro b
    rw [List.mem_range'_1]
    have := a.reserved_le
    omega
  have hrange : ∀ b ∈ List.range' a.reservedBlocks
      (a.totalBlocks - a.reservedBlocks), a.isOwned b = .ok (a.flag b) ∧
        a'.isOwned b = .ok (a'.flag b) := by
    intro b hb
    rw [hmem] at hb
    exact ⟨BlockAllocator.isOwned_of_data hb.1 hb.2,
      BlockAllocator.isOwned_of_data (by omega) (by omega)⟩
  unfold validateFreed
  simp only [Except.bind_eq_ok, observeFreed_eq_ok hrange, rejectIf_eq_ok,
    not_not]
  constructor
  · intro hfacts
    rcases hfacts with ⟨_, ⟨hnew, rfl⟩, hsub, hsup⟩
    refine ⟨?_, ?_⟩
    · intro block hblock
      have := hsup (List.mem_map_of_mem hblock)
      rw [List.mem_filter, Bool.and_eq_true] at this
      exact this.2.1
    · intro b
      constructor
      · intro hflag'
        have hb := BlockAllocator.range_of_flag hflag'
        have hin := (hmem b).mpr ⟨by omega, by omega⟩
        refine ⟨hnew b hin hflag', ?_⟩
        intro hreleased
        have := hsup hreleased
        simp [hflag'] at this
      · intro hfacts
        rcases hfacts with ⟨hflag, hno⟩
        have hin := (hmem b).mpr (BlockAllocator.range_of_flag hflag)
        by_contra hflag'
        apply hno
        apply hsub
        rw [List.mem_filter]
        exact ⟨hin, by simpa [hflag] using hflag'⟩
  · intro hfacts
    rcases hfacts with ⟨howned, hfreed⟩
    refine ⟨_, ⟨fun b _ hflag' => ((hfreed b).mp hflag').1, rfl⟩, ?_, ?_⟩
    · intro b hb
      rw [List.mem_filter, Bool.and_eq_true, Bool.not_eq_true'] at hb
      by_contra hno
      rw [(hfreed b).mpr ⟨hb.2.1, hno⟩] at hb
      cases hb.2.2
    · intro b hb
      obtain ⟨block, hblock, rfl⟩ := List.mem_map.mp hb
      have hflag := howned block hblock
      rw [List.mem_filter]
      refine ⟨(hmem _).mpr (BlockAllocator.range_of_flag hflag), ?_⟩
      have hflag' : ¬ a'.flag block.toNat = true := fun h =>
        ((hfreed _).mp h).2 hb
      simpa [hflag] using hflag'

/-- **The validator decides exactly one legal unlink.** -/
theorem validateUnlinkTransition_eq_ok {d : Disk} {sb : Superblock}
    (ha : loadAllocator d sb = .ok a)
    (hinodes : loadInodeTable d sb = .ok inodes)
    (hentries : loadDirectoryTable d sb = .ok entries) {u : Unit} :
    validateUnlinkTransition d sb a' inodes' entries' = .ok u ↔
      ∃ removed entry,
        LegalUnlink a inodes entries a' inodes' entries' removed entry := by
  rw [validateUnlinkTransition, ha, Except.ok_bind, hinodes, Except.ok_bind,
    hentries, Except.ok_bind]
  simp only [Except.bind_eq_ok, rejectIf_eq_ok, not_or, not_ne_iff,
    validateRemovedInode_eq_ok, validateRemovedEntry_eq_ok]
  constructor
  · intro hfacts
    rcases hfacts with ⟨_, ⟨htotal, hreserved⟩, removed, ⟨hids, hids', hmem,
      hroot, hsurvives, hkept⟩, _, ⟨hnodup, hnodup', entry, hentry, hiff,
      htarget, honly, hchild, hempty⟩, hfreed⟩
    rw [validateFreed_eq_ok htotal hreserved] at hfreed
    exact ⟨removed, entry, htotal, hreserved, hids, hids', hnodup, hnodup',
      hmem, hroot, hsurvives, hkept, hentry, hiff, htarget, honly, hchild,
      hempty, hfreed.1, hfreed.2⟩
  · intro hfacts
    rcases hfacts with ⟨removed, entry, h⟩
    refine ⟨(), ⟨h.totalBlocks, h.reservedBlocks⟩, removed, ⟨h.ids, h.ids',
      h.mem, h.not_root, h.survives, h.kept⟩, (), ⟨h.triples, h.triples',
      entry, h.entry_mem, h.entries_iff, h.target, h.only, h.no_child,
      h.childless⟩, ?_⟩
    rw [validateFreed_eq_ok h.totalBlocks h.reservedBlocks]
    exact ⟨h.owned, h.freed⟩

end Validator

/-! ## What an unlink leaves -/

/-- The disk `d'` is the mounted disk `d` without the entry of a key: an inode
with another entry stays as it is, one without goes with its blocks. -/
def Unlinked (sb : Superblock) (d d' : Disk) (parent : UInt64) (name : String) :
    Prop :=
  ∃ a inodes entries entry a' inodes',
    AtRest d sb a inodes entries ∧ entry ∈ entries ∧ entry.parent = parent ∧
    entry.name = name ∧
    Became sb d d' a' inodes' (entries.filter fun other => other ≠ entry) [] ∧
    ((∃ other ∈ entries, other ≠ entry ∧ other.target = entry.target) →
      inodes' = inodes ∧ a' = a) ∧
    ((∀ other ∈ entries, other.target = entry.target → other = entry) →
      inodes' = (inodes.filter fun inode => inode.id ∉ [entry.target]) ∧
      ∃ removed ∈ inodes, removed.id = entry.target ∧ ∀ b, a'.flag b = true ↔
        a.flag b = true ∧ b ∉ removed.blocks.map UInt64.toNat) ∧
    ∃ fsck, checkDevice d' = .ok fsck

section Operations

variable {d : Disk} {sb : Superblock} {a : BlockAllocator}
  {inodes : List PersistedInode} {entries : List PersistedDirectoryEntry}
  {parent : UInt64} {name : String} {index : Nat}
  {entry : PersistedDirectoryEntry} {inode : PersistedInode}

/-- The last entry of an inode that is no parent may go. -/
theorem Mounted.publishUnlink (h : Mounted d sb a inodes entries)
    (hsel : Selects entries parent name index entry)
    (hfind : findInode inodes entry.target = some inode)
    (hcount : referenceCount entries entry.target = 1)
    (hchild : ∀ other ∈ entries, other.parent ≠ entry.target) :
    Effect.Atomic (FilesystemLab.publishUnlink sb a inodes entries index inode)
      d fun _ d' => Unlinked sb d d' parent name := by
  obtain ⟨hmem, hid⟩ := findInode_eq_some hfind
  have honly := (referenceCount_eq_one h.nodup_entries hsel.mem).mp hcount
  have hiff : ∀ other, other ∈ entries.eraseIdx index ↔
      other ∈ entries ∧ other ≠ entry :=
    fun _ => mem_eraseIdx h.nodup_entries hsel.get
  apply Effect.atomic_lift_bind
  intro a' hfreed
  rw [liftInput_eq_ok] at hfreed
  have hfreed' := hfreed
  rw [← releasedBlocks_singleton h.nodup_ids hmem] at hfreed'
  obtain ⟨_, _, _, _, hflag⟩ := BlockAllocator.freeAll_eq_ok hfreed
  apply Effect.atomic_query_bind
  intro _ _
  rw [eraseP_id h.nodup_ids]
  apply (h.storeCreateMetadata a' _ _).atomic.mono
  intro _ d' hbecame
  have htree : Namespace (inodes.filter fun other => other.id ∉ [inode.id])
      (entries.eraseIdx index) := by
    apply h.tree.remove
    · exact fun other hother => ((hiff other).mp hother).1
    · rw [List.mem_singleton, hid]
      exact fun hroot => h.tree.target_ne_root hsel.mem hroot.symm
    · intro other hother
      obtain ⟨hold, hne⟩ := (hiff other).mp hother
      rw [List.mem_singleton, List.mem_singleton, hid]
      exact ⟨hchild other hold, fun htarget => hne (honly other hold htarget)⟩
    · intro other hother hstays hroot
      obtain ⟨e, he, htarget⟩ := h.tree.targeted hother hroot
      refine ⟨e, (hiff e).mpr ⟨he, ?_⟩, htarget⟩
      intro heq
      subst heq
      rw [List.mem_singleton, hid, htarget] at hstays
      exact hstays rfl
  obtain ⟨hbecame, hmounted⟩ := h.of_became_sublist List.filter_sublist hbecame
    (h.owned.release hfreed') htree
  rw [eraseIdx_eq_filter h.nodup_entries hsel.get] at hbecame
  refine ⟨a, inodes, entries, entry, a', _, h.toAtRest, hsel.mem,
    hsel.parent_eq, hsel.name_eq, hbecame, ?_, ?_, _, hmounted.check⟩
  · intro hfacts
    rcases hfacts with ⟨other, hother, hne, htarget⟩
    exact absurd (honly other hother htarget) hne
  · intro _
    refine ⟨by rw [hid], inode, hmem, hid, ?_⟩
    intro b
    rw [hflag, Bool.and_eq_true, decide_eq_true_eq]
    exact and_comm

/-- An entry of an inode with others may go. -/
theorem Mounted.removeNonfinal (h : Mounted d sb a inodes entries)
    (hsel : Selects entries parent name index entry)
    (hcount : ¬ referenceCount entries entry.target < 2) :
    Effect.Atomic
      (storeDirectoryTableAndCheckpoint sb (entries.eraseIdx index)) d
      fun _ d' => Unlinked sb d d' parent name := by
  obtain ⟨other, hother, hne, htarget⟩ :=
    exists_other_reference h.nodup_entries hsel.mem (by omega)
  have hiff : ∀ other, other ∈ entries.eraseIdx index ↔
      other ∈ entries ∧ other ≠ entry :=
    fun _ => mem_eraseIdx h.nodup_entries hsel.get
  apply (h.storeDirectoryTableAndCheckpoint _).atomic.mono
  intro _ d' hbecame
  have hall : (inodes.filter fun inode => inode.id ∉ ([] : List UInt64)) =
      inodes := by simp
  have htree : Namespace inodes (entries.eraseIdx index) := by
    rw [← hall]
    apply h.tree.remove
    · exact fun other hother => ((hiff other).mp hother).1
    · exact List.not_mem_nil
    · intro other _
      exact ⟨List.not_mem_nil, List.not_mem_nil⟩
    · intro kept hkept _ hroot
      obtain ⟨e, he, hkeeps⟩ := h.tree.targeted hkept hroot
      by_cases heq : e = entry
      · refine ⟨other, (hiff other).mpr ⟨hother, hne⟩, ?_⟩
        rw [htarget, ← heq, hkeeps]
      · exact ⟨e, (hiff e).mpr ⟨he, heq⟩, hkeeps⟩
  obtain ⟨hbecame, hmounted⟩ := h.of_became_sublist (List.Sublist.refl inodes)
    hbecame h.owned htree
  rw [eraseIdx_eq_filter h.nodup_entries hsel.get] at hbecame
  refine ⟨a, inodes, entries, entry, a, inodes, h.toAtRest, hsel.mem,
    hsel.parent_eq, hsel.name_eq, hbecame, fun _ => ⟨rfl, rfl⟩, ?_, _,
    hmounted.check⟩
  intro honly
  exact absurd (honly other hother htarget) hne

/-- The target of a selected entry that is no directory is no parent. -/
theorem Mounted.childless (h : Mounted d sb a inodes entries)
    (hfind : findInode inodes entry.target = some inode)
    (hkind : inode.kind ≠ .directory) :
    ∀ other ∈ entries, other.parent ≠ entry.target := by
  intro other hother
  apply h.tree.parent_ne _ hother
  rw [kindOf_of_findInode h.nodup_ids hfind]
  simpa using hkind

/-- The key has an entry for an inode of this kind, which is no parent. -/
def Childless (inodes : List PersistedInode)
    (entries : List PersistedDirectoryEntry) (parent : UInt64) (name : String)
    (kind : InodeKind) : Prop :=
  ∃ target, ⟨parent, target, name⟩ ∈ entries ∧
    kindOf inodes target = some kind ∧
    ∀ other ∈ entries, other.parent ≠ target

theorem Mounted.childless_of_selects (h : Mounted d sb a inodes entries)
    (hsel : Selects entries parent name index entry)
    (hfind : findInode inodes entry.target = some inode)
    (hchild : ∀ other ∈ entries, other.parent ≠ entry.target) :
    Childless inodes entries parent name inode.kind := by
  have hmem := hsel.mem
  rw [show entry = ⟨parent, entry.target, name⟩ by
    rw [← hsel.parent_eq, ← hsel.name_eq]] at hmem
  exact ⟨entry.target, hmem, kindOf_of_findInode h.nodup_ids hfind, hchild⟩

/-- `unlink_file_journaled` on a mounted disk. -/
theorem Mounted.unlinkFile (h : Mounted d sb a inodes entries) (parent : UInt64)
    (name : String) :
    Effect.Atomic (unlinkFileJournaled sb parent name) d
      fun _ d' => Unlinked sb d d' parent name ∧
        Childless inodes entries parent name .file := by
  apply h.atomic_allocator
  apply h.atomic_inodes
  apply h.atomic_entries
  apply atomic_selectEntry
  intro index entry hsel
  apply Effect.atomic_lift_bind
  intro inode hfind
  rw [okOr_eq_ok] at hfind
  apply Effect.atomic_lift_bind
  intro _ hkind
  rw [rejectIf_eq_ok, not_ne_iff] at hkind
  apply Effect.atomic_lift_bind
  intro _ hcount
  rw [rejectIf_eq_ok, not_ne_iff] at hcount
  apply Effect.atomic_lift_bind
  intro _ _
  apply Effect.atomic_lift_bind
  intro _ _
  have hchild := h.childless hfind (by rw [hkind]; decide)
  apply (h.publishUnlink hsel hfind hcount hchild).mono
  intro _ d' hunlinked
  rw [← hkind]
  exact ⟨hunlinked, h.childless_of_selects hsel hfind hchild⟩

/-- `remove_directory_journaled` on a mounted disk: the directory is empty. -/
theorem Mounted.removeDirectory_empty (h : Mounted d sb a inodes entries)
    (parent : UInt64) (name : String) :
    Effect.Atomic (removeDirectoryJournaled sb parent name) d
      fun _ d' => Unlinked sb d d' parent name ∧
        Childless inodes entries parent name .directory := by
  apply h.atomic_allocator
  apply h.atomic_inodes
  apply h.atomic_entries
  apply atomic_selectEntry
  intro index entry hsel
  apply Effect.atomic_lift_bind
  intro inode hfind
  rw [okOr_eq_ok] at hfind
  apply Effect.atomic_lift_bind
  intro _ _
  apply Effect.atomic_lift_bind
  intro _ hkind
  rw [rejectIf_eq_ok, not_ne_iff] at hkind
  apply Effect.atomic_lift_bind
  intro _ hcount
  rw [rejectIf_eq_ok, not_ne_iff] at hcount
  apply Effect.atomic_lift_bind
  intro _ hempty
  rw [rejectIf_eq_ok] at hempty
  have hchild : ∀ other ∈ entries, other.parent ≠ entry.target := by
    intro other hother hparent
    exact hempty ⟨other, hother, hparent⟩
  apply Effect.atomic_lift_bind
  intro _ _
  apply Effect.atomic_lift_bind
  intro _ _
  apply (h.publishUnlink hsel hfind hcount hchild).mono
  intro _ d' hunlinked
  rw [← hkind]
  exact ⟨hunlinked, h.childless_of_selects hsel hfind hchild⟩

/-- `remove_directory_journaled` on a mounted disk. -/
theorem Mounted.removeDirectory (h : Mounted d sb a inodes entries)
    (parent : UInt64) (name : String) :
    Effect.Atomic (removeDirectoryJournaled sb parent name) d
      fun _ d' => Unlinked sb d d' parent name := by
  apply (h.removeDirectory_empty parent name).mono
  intro _ d' hpost
  exact hpost.1

/-- `unlink_symlink_journaled` on a mounted disk. -/
theorem Mounted.unlinkSymlink (h : Mounted d sb a inodes entries)
    (parent : UInt64) (name : String) :
    Effect.Atomic (unlinkSymlinkJournaled sb parent name) d
      fun _ d' => Unlinked sb d d' parent name ∧
        Childless inodes entries parent name .symlink := by
  apply h.atomic_allocator
  apply h.atomic_inodes
  apply h.atomic_entries
  apply atomic_selectEntry
  intro index entry hsel
  apply Effect.atomic_lift_bind
  intro inode hfind
  rw [okOr_eq_ok] at hfind
  apply Effect.atomic_lift_bind
  intro _ hkind
  rw [rejectIf_eq_ok, not_ne_iff] at hkind
  apply Effect.atomic_lift_bind
  intro _ hcount
  rw [rejectIf_eq_ok, not_ne_iff] at hcount
  apply Effect.atomic_query_bind
  intro _ _
  apply Effect.atomic_lift_bind
  intro _ _
  have hchild := h.childless hfind (by rw [hkind]; decide)
  apply (h.publishUnlink hsel hfind hcount hchild).mono
  intro _ d' hunlinked
  rw [← hkind]
  exact ⟨hunlinked, h.childless_of_selects hsel hfind hchild⟩

/-- `unlink_nonfinal_link_journaled` on a mounted disk. -/
theorem Mounted.unlinkNonfinalLink (h : Mounted d sb a inodes entries)
    (parent : UInt64) (name : String) {kind : InodeKind}
    (hleaf : kind ≠ .directory) (validate : Bool) :
    Effect.Atomic (unlinkNonfinalLinkJournaled sb parent name kind validate) d
      fun _ d' => Unlinked sb d d' parent name ∧
        Childless inodes entries parent name kind := by
  apply h.atomic_inodes
  apply h.atomic_entries
  apply atomic_selectEntry
  intro index entry hsel
  apply Effect.atomic_lift_bind
  intro inode hfind
  rw [okOr_eq_ok] at hfind
  apply Effect.atomic_lift_bind
  intro _ hkind
  rw [rejectIf_eq_ok, not_ne_iff] at hkind
  apply Effect.atomic_lift_bind
  intro _ hcount
  rw [rejectIf_eq_ok] at hcount
  apply Effect.atomic_query_bind
  intro _ _
  have hchild := h.childless hfind (by rw [hkind]; exact hleaf)
  apply (h.removeNonfinal hsel hcount).mono
  intro _ d' hunlinked
  rw [← hkind]
  exact ⟨hunlinked, h.childless_of_selects hsel hfind hchild⟩

/-- The choice of the operation by the kind and the count. -/
theorem Mounted.unlinkDispatch (h : Mounted d sb a inodes entries)
    (parent : UInt64) (name : String) :
    Effect.Atomic (FilesystemLab.unlinkDispatch sb parent name) d
      fun _ d' => Unlinked sb d d' parent name ∧ ∃ kind, kind ≠ .directory ∧
        Childless inodes entries parent name kind := by
  have hkind : ∀ {op : DevM Disk RecoveryReport} {kind : InodeKind},
      kind ≠ .directory →
      Effect.Atomic op d (fun _ d' => Unlinked sb d d' parent name ∧
        Childless inodes entries parent name kind) →
      Effect.Atomic op d fun _ d' => Unlinked sb d d' parent name ∧
        ∃ kind, kind ≠ .directory ∧
          Childless inodes entries parent name kind := by
    intro op kind hleaf hatomic
    exact hatomic.mono fun _ _ hpost => ⟨hpost.1, kind, hleaf, hpost.2⟩
  apply h.atomic_entries
  apply Effect.atomic_lift_bind
  intro entry _
  apply h.atomic_inodes
  apply Effect.atomic_lift_bind
  intro inode _
  split
  · exact .inl ⟨_, rfl⟩
  · exact .inl ⟨_, rfl⟩
  · exact hkind (by decide) (h.unlinkFile parent name)
  · exact hkind (by decide) (h.unlinkNonfinalLink parent name (by decide) _)
  · exact hkind (by decide) (h.unlinkSymlink parent name)
  · exact hkind (by decide) (h.unlinkNonfinalLink parent name (by decide) _)

/-- `unlink_at_path_journaled` on a mounted disk: no directory goes. -/
theorem Mounted.unlinkAtPath_leaf (h : Mounted d sb a inodes entries)
    (path : String) :
    Effect.Atomic (unlinkAtPathJournaled sb path) d
      fun _ d' => ∃ parentPath parent name,
        splitPath unlinkSplit path = .ok (parentPath, name) ∧
        resolvePathFollowingSymlinks d sb parentPath = .ok parent ∧
        Unlinked sb d d' parent name ∧ ∃ kind, kind ≠ .directory ∧
          Childless inodes entries parent name kind := by
  apply Effect.atomic_lift_bind
  rintro ⟨parentPath, name⟩ hsplit
  apply Effect.atomic_bind_of_ok h.recoverChecked
  apply Effect.atomic_query_bind
  intro parent hparent
  apply (h.unlinkDispatch parent name).mono
  intro _ d' hunlinked
  exact ⟨parentPath, parent, name, hsplit, hparent, hunlinked⟩

/-- `unlink_at_path_journaled` on a mounted disk. -/
theorem Mounted.unlinkAtPath (h : Mounted d sb a inodes entries)
    (path : String) :
    Effect.Atomic (unlinkAtPathJournaled sb path) d
      fun _ d' => ∃ parentPath parent name,
        splitPath unlinkSplit path = .ok (parentPath, name) ∧
        resolvePathFollowingSymlinks d sb parentPath = .ok parent ∧
        Unlinked sb d d' parent name := by
  apply (h.unlinkAtPath_leaf path).mono
  intro _ d' hpost
  obtain ⟨parentPath, parent, name, hsplit, hparent, hunlinked, _⟩ := hpost
  exact ⟨parentPath, parent, name, hsplit, hparent, hunlinked⟩

end Operations

/-- **Unlink is exact, and its validator decides exactly one legal unlink.**
On a device with decodable tables, the validator accepts the desired tables
exactly if they are those of a legal unlink.  On a device that the check
accepts, with an empty journal, an unlink by path and the removal of a directory
remove the selected key; the target goes, with exactly its blocks, if and only
if it has no other entry; everything else stays as it was and the check accepts
the device.  An error leaves the device unchanged. -/
theorem unlink_exact {d : Disk} {sb : Superblock} :
    (∀ a inodes entries a' inodes' entries',
      loadAllocator d sb = .ok a → loadInodeTable d sb = .ok inodes →
      loadDirectoryTable d sb = .ok entries →
      (validateUnlinkTransition d sb a' inodes' entries' = .ok () ↔
        ∃ removed entry,
          LegalUnlink a inodes entries a' inodes' entries' removed entry)) ∧
    (∀ report, readSuperblock d = .ok sb → loadJournalImage d sb = .ok [] →
      checkDevice d = .ok report →
      (∀ path,
        (∀ r d', unlinkAtPathJournaled sb path d = (.ok r, d') →
          ∃ parentPath parent name,
            splitPath unlinkSplit path = .ok (parentPath, name) ∧
            resolvePathFollowingSymlinks d sb parentPath = .ok parent ∧
            Unlinked sb d d' parent name) ∧
        ∀ e, (unlinkAtPathJournaled sb path d).1 = .error e →
          (unlinkAtPathJournaled sb path d).2 = d) ∧
      ∀ parent name,
        (∀ r d', removeDirectoryJournaled sb parent name d = (.ok r, d') →
          Unlinked sb d d' parent name) ∧
        ∀ e, (removeDirectoryJournaled sb parent name d).1 = .error e →
          (removeDirectoryJournaled sb parent name d).2 = d) := by
  constructor
  · intro a inodes entries a' inodes' entries' ha hinodes hentries
    exact validateUnlinkTransition_eq_ok ha hinodes hentries
  · intro report hsb hjournal hcheck
    obtain ⟨a, inodes, entries, h⟩ := exists_mounted hsb hjournal hcheck
    constructor
    · intro path
      constructor
      · intro r d' hrun
        exact (h.unlinkAtPath path).of_ok hrun
      · intro e he
        exact (h.unlinkAtPath path).of_error he
    · intro parent name
      constructor
      · intro r d' hrun
        exact (h.removeDirectory parent name).of_ok hrun
      · intro e he
        exact (h.removeDirectory parent name).of_error he

theorem resolve_treeDisk :
    resolvePathFollowingSymlinks treeDisk treeSuperblock "/d" = .ok 2 := by
  have hparse : parseComponents "/d" = .ok ["d"] := by decide
  rw [resolvePathFollowingSymlinks, resolvePath, rejectIf_of_not (by decide),
    Except.ok_bind, mounted_treeDisk.inodeTable, Except.ok_bind,
    mounted_treeDisk.directoryTable, Except.ok_bind, hparse, Except.ok_bind,
    if_neg (by decide)]
  have hroot : requireInode treeInodes 1 = .ok ⟨1, .directory, [], 0⟩ := rfl
  have hdirectory : requireInode treeInodes 2 = .ok ⟨2, .directory, [], 0⟩ :=
    rfl
  have hentry : lookupEntry treeEntries 1 "d" = some ⟨1, 2, "d"⟩ := by decide
  rw [resolveComponents_entry hroot rfl (by decide) (by decide) hentry
    hdirectory (by decide)]
  exact resolveComponents_end hdirectory fun _ => rfl

theorem resolve_root_treeDisk :
    resolvePathFollowingSymlinks treeDisk treeSuperblock "/" = .ok 1 :=
  @AtRest.resolve_root _ _ _ _ _ atRest_treeDisk ⟨1, .directory, [], 0⟩ rfl

/-- A removal that frees nothing and that the validator accepts is published. -/
theorem publishUnlink_tree {d : Disk} {inodes : List PersistedInode}
    {entries : List PersistedDirectoryEntry} {index : Nat}
    {inode : PersistedInode}
    (h : AtRest d treeSuperblock treeAllocator inodes entries)
    (hblockless : inode.blocks = [])
    (hvalid : validateUnlinkTransition d treeSuperblock treeAllocator
      (inodes.eraseP fun other => other.id = inode.id)
      (entries.eraseIdx index) = .ok ()) :
    ∃ r d', publishUnlink treeSuperblock treeAllocator inodes entries index
      inode d = (.ok r, d') := by
  obtain ⟨_, hinodes⟩ := h.inodeImage
  obtain ⟨_, hentries⟩ := h.directoryImage
  obtain ⟨r, d', hrun, _⟩ := (h.storeCreateMetadata _ _ _).of_storable
    (storable_tree
      (TableFormat.exists_encodeImage_sublist hinodes List.eraseP_sublist)
      (TableFormat.exists_encodeImage_sublist hentries
        (List.eraseIdx_sublist entries index)))
  have hfree : liftInput (treeAllocator.freeAll
      (inode.blocks.map UInt64.toNat)) = .ok treeAllocator := by
    rw [hblockless]
    rfl
  refine ⟨r, d', ?_⟩
  rw [publishUnlink, Effect.lift_bind_of_ok hfree, storeUnlinkMetadataJournaled,
    Effect.query_bind, hvalid]
  exact hrun

/-- The tables of the sample without its file are those of a legal unlink. -/
theorem legalUnlink_treeDisk :
    LegalUnlink treeAllocator treeInodes treeEntries treeAllocator
      [⟨1, .directory, [], 0⟩, ⟨2, .directory, [], 0⟩] [⟨1, 2, "d"⟩]
      ⟨3, .file, [], 0⟩ ⟨2, 3, "f"⟩ := by
  refine ⟨rfl, rfl, by decide, by decide, by decide, by decide, by decide,
    by decide, by decide, ?_, by decide, ?_, rfl, by decide,
    by decide, by decide, by simp, by simp⟩
  · intro other hother
    rcases List.mem_cons.mp hother with rfl | hother
    · exact ⟨⟨1, .directory, [], 0⟩, by decide, by decide, by decide⟩
    · rw [List.mem_singleton.mp hother]
      exact ⟨⟨2, .directory, [], 0⟩, by decide, by decide, by decide⟩
  · intro other
    simp only [treeEntries, List.mem_cons, List.not_mem_nil, or_false]
    constructor
    · intro heq
      subst heq
      decide
    · intro hfacts
      rcases hfacts with ⟨rfl | rfl, hne⟩
      · rfl
      · exact absurd rfl hne

/-- The file of the sample is unlinked. -/
theorem unlinkAtPath_treeDisk :
    ∃ r d', unlinkAtPathJournaled treeSuperblock "/d/f" treeDisk =
      (.ok r, d') := by
  have h := mounted_treeDisk
  have hsplit : splitPath unlinkSplit "/d/f" = .ok ("/d", "f") := by decide
  have hentry : okOr (lookupEntry treeEntries 2 "f")
      (invalidInput "unlink entry is missing") = .ok ⟨2, 3, "f"⟩ := by decide
  have hinode : okOr (findInode treeInodes 3)
      (invalidInput "unlink target inode is missing") =
        .ok ⟨3, .file, [], 0⟩ := rfl
  have hcount : referenceCount treeEntries 3 = 1 := by decide
  have hselected : okOr (selectEntry treeEntries 2 "f")
      (invalidInput "regular-file entry is missing") =
        .ok (1, ⟨2, 3, "f"⟩) := by decide
  obtain ⟨r, d', hrun⟩ := @publishUnlink_tree _ _ _ 1
    ⟨3, .file, [], 0⟩ h.toAtRest rfl
    ((validateUnlinkTransition_eq_ok h.allocator h.inodeTable
      h.directoryTable).mpr ⟨_, _, legalUnlink_treeDisk⟩)
  refine ⟨r, d', ?_⟩
  rw [unlinkAtPathJournaled, Effect.lift_bind_of_ok hsplit,
    Effect.bind_of_ok h.recoverChecked, Effect.query_bind, resolve_treeDisk]
  show unlinkDispatch treeSuperblock 2 "f" treeDisk = _
  rw [unlinkDispatch, h.entries_bind, Effect.lift_bind_of_ok hentry,
    h.inodes_bind, Effect.lift_bind_of_ok hinode]
  simp only [hcount]
  rw [unlinkFileJournaled, h.allocator_bind, h.inodes_bind, h.entries_bind,
    Effect.lift_bind_of_ok hselected]
  exact hrun

/-- The empty directory of the larger sample is removed. -/
theorem removeDirectory_forestDisk :
    ∃ r d', removeDirectoryJournaled treeSuperblock 1 "e" forestDisk =
      (.ok r, d') := by
  have h := mounted_forestDisk
  have hvalid : validateUnlinkTransition forestDisk treeSuperblock treeAllocator
      treeInodes (treeEntries ++ [⟨1, 3, "g"⟩]) = .ok () := by
    simp only [validateUnlinkTransition, h.allocator, h.inodeTable,
      h.directoryTable, Except.ok_bind]
    decide
  obtain ⟨r, d', hrun⟩ := @publishUnlink_tree _ _ _ 3
    ⟨4, .directory, [], 0⟩ h.toAtRest rfl hvalid
  refine ⟨r, d', ?_⟩
  rw [removeDirectoryJournaled, h.allocator_bind, h.inodes_bind, h.entries_bind]
  exact hrun

theorem unlink_exact_treeDisk :
    validateUnlinkTransition treeDisk treeSuperblock treeAllocator
        [⟨1, .directory, [], 0⟩, ⟨2, .directory, [], 0⟩] [⟨1, 2, "d"⟩] =
      .ok () ∧
    (∃ r d', unlinkAtPathJournaled treeSuperblock "/d/f" treeDisk =
      (.ok r, d') ∧ Unlinked treeSuperblock treeDisk d' 2 "f") ∧
    ∃ r d', removeDirectoryJournaled treeSuperblock 1 "e" forestDisk =
      (.ok r, d') ∧ Unlinked treeSuperblock forestDisk d' 1 "e" := by
  have hexact := @unlink_exact treeDisk treeSuperblock
  refine ⟨?_, ?_, ?_⟩
  · exact (hexact.1 _ _ _ _ _ _ mounted_treeDisk.allocator
      mounted_treeDisk.inodeTable mounted_treeDisk.directoryTable).mpr
        ⟨_, _, legalUnlink_treeDisk⟩
  · obtain ⟨r, d', hrun⟩ := unlinkAtPath_treeDisk
    obtain ⟨parentPath, parent, name, hsplit, hresolve, hunlinked⟩ :=
      ((hexact.2 _ mounted_treeDisk.superblock mounted_treeDisk.journal
        mounted_treeDisk.check).1 "/d/f").1 r d' hrun
    have hparts : splitPath unlinkSplit "/d/f" = .ok ("/d", "f") := by decide
    rw [hparts, Except.ok.injEq, Prod.mk.injEq] at hsplit
    obtain ⟨rfl, rfl⟩ := hsplit
    rw [resolve_treeDisk, Except.ok.injEq] at hresolve
    subst hresolve
    exact ⟨r, d', hrun, hunlinked⟩
  · obtain ⟨r, d', hrun⟩ := removeDirectory_forestDisk
    exact ⟨r, d', hrun, (((@unlink_exact forestDisk treeSuperblock).2 _
      mounted_forestDisk.superblock mounted_forestDisk.journal
      mounted_forestDisk.check).2 1 "e").1 r d' hrun⟩

end FilesystemLab
