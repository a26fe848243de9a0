import FilesystemLab.Rename

/-!
# Rename by path

`path_rename.rs`, `path_rename_overwrite.rs` and `path_rename_dispatch.rs`.

The functions resolve the parents of both paths and select an operation on the
two keys by the kinds of their inodes and by the number of entries for the old
target.  `renamePosix_exact` says that the dispatcher has one effect, whichever
operation it selects.
-/

namespace FilesystemLab

/-! ## The endpoints -/

/-- The messages of `split_path` for an operand of a rename. -/
def renameSplit (label : String) : SplitMessages where
  relative := label ++ " must be an absolute path"
  root := label ++ " cannot be the root path"
  missing := label ++ " must contain a final component"
  empty := label ++ " final component is empty"

/-- What the functions know of their operands after the parents are resolved. -/
structure RenameEndpoints where
  recovery : RecoveryReport
  directoryIntent : Bool
  oldParent : UInt64
  oldName : String
  newParent : UInt64
  newName : String

section Device

variable {σ : Type} [BlockDevice σ]

/-- The beginning of the functions: they split both paths, recover and resolve
the parents. -/
def renameEndpoints (sb : Superblock) (operation source destination : String) :
    DevM σ RenameEndpoints := do
  let s ← normalizeDirectoryIntent source (operation ++ " source")
  let t ← normalizeDirectoryIntent destination (operation ++ " destination")
  let sourceParts ← splitPath (renameSplit (operation ++ " source")) s.1
  let destinationParts ←
    splitPath (renameSplit (operation ++ " destination")) t.1
  let recovery ← recoverJournalAndCheckpointChecked sb
  let oldParent ←
    Effect.query (resolvePathFollowingSymlinks · sb sourceParts.1)
  let newParent ←
    Effect.query (resolvePathFollowingSymlinks · sb destinationParts.1)
  pure ⟨recovery, s.2 || t.2, oldParent, sourceParts.2, newParent,
    destinationParts.2⟩

/-- `require_directory_entry`. -/
def requireDirectoryEntry (device : σ) (sb : Superblock) (parent : UInt64)
    (name : String) : Result Unit := do
  let entries ← loadDirectoryTable device sb
  let entry ← okOr (lookupEntry entries parent name)
    ⟨.notFound, "rename source does not exist"⟩
  let inodes ← loadInodeTable device sb
  let inode ← okOr (findInode inodes entry.target)
    (invalidData "rename source inode is missing")
  rejectIf (inode.kind ≠ .directory)
    (invalidInput "trailing-slash rename requires a directory source entry")

/-- `require_directory_inode`. -/
def requireDirectoryInode (device : σ) (sb : Superblock) (id : UInt64) :
    Result Unit := do
  let inodes ← loadInodeTable device sb
  let inode ← okOr (findInode inodes id)
    (invalidData "rename source inode is missing")
  rejectIf (inode.kind ≠ .directory)
    (invalidInput "trailing-slash rename requires directory endpoints")

/-! ## The operations by path -/

/-- `rename_at_path_journaled`. -/
def renameAtPathJournaled (sb : Superblock) (source destination : String) :
    DevM σ RecoveryReport := do
  let r ← renameEndpoints sb "rename" source destination
  Effect.query fun device =>
    if r.directoryIntent = true then
      requireDirectoryEntry device sb r.oldParent r.oldName
    else pure ()
  renameEntryJournaled sb r.oldParent r.oldName r.newParent r.newName

/-- `rename_overwrite_at_path_journaled`. -/
def renameOverwriteAtPathJournaled (sb : Superblock)
    (source destination : String) : DevM σ RecoveryReport := do
  let r ← renameEndpoints sb "rename-overwrite" source destination
  let entries ← Effect.query (loadDirectoryTable · sb)
  let sourceEntry ← okOr (lookupEntry entries r.oldParent r.oldName)
    (invalidInput "rename-overwrite source entry does not exist")
  let destinationEntry ← okOr (lookupEntry entries r.newParent r.newName)
    (invalidInput "rename-overwrite destination entry does not exist")
  let inodes ← Effect.query (loadInodeTable · sb)
  let sourceInode ← okOr (findInode inodes sourceEntry.target)
    (invalidInput "rename-overwrite source inode is missing")
  let destinationInode ← okOr (findInode inodes destinationEntry.target)
    (invalidInput "rename-overwrite destination inode is missing")
  rejectIf (sourceInode.kind ≠ destinationInode.kind) (invalidInput
    "rename-overwrite source and destination must have matching inode kinds")
  rejectIf (r.directoryIntent = true ∧ sourceInode.kind ≠ .directory)
    (invalidInput
      "trailing-slash rename-overwrite requires directory endpoints")
  match sourceInode.kind, referenceCount entries destinationEntry.target with
  | .file, 1 =>
    renameOverwriteFileJournaled sb r.oldParent r.oldName r.newParent r.newName
  | .file, _ =>
    renameOverwriteLinkedFileJournaled sb r.oldParent r.oldName r.newParent
      r.newName
  | .symlink, 1 =>
    renameOverwriteSymlinkJournaled sb r.oldParent r.oldName r.newParent
      r.newName
  | .symlink, _ =>
    renameOverwriteLinkedSymlinkJournaled sb r.oldParent r.oldName r.newParent
      r.newName
  | .directory, _ =>
    renameOverwriteDirectoryJournaled sb r.oldParent r.oldName r.newParent
      r.newName

/-- `rename_posix_at_path_journaled`. -/
def renamePosixAtPathJournaled (sb : Superblock) (source destination : String) :
    DevM σ RecoveryReport := do
  let r ← renameEndpoints sb "rename" source destination
  let entries ← Effect.query (loadDirectoryTable · sb)
  let sourceEntry ← okOr (lookupEntry entries r.oldParent r.oldName)
    (⟨.notFound, "rename source does not exist"⟩ : IoError)
  match lookupEntry entries r.newParent r.newName with
  | none => renameAtPathJournaled sb source destination
  | some destinationEntry =>
    if destinationEntry.target = sourceEntry.target then do
      Effect.query fun device =>
        if r.directoryIntent = true then
          requireDirectoryInode device sb sourceEntry.target
        else pure ()
      pure r.recovery
    else do
      let inodes ← Effect.query (loadInodeTable · sb)
      let sourceInode ← okOr (findInode inodes sourceEntry.target)
        (invalidData "rename source inode is missing")
      let destinationInode ← okOr (findInode inodes destinationEntry.target)
        (invalidData "rename destination inode is missing")
      rejectIf (r.directoryIntent = true ∧ (sourceInode.kind ≠ .directory ∨
          destinationInode.kind ≠ .directory))
        (invalidInput "trailing-slash rename requires directory endpoints")
      match sourceInode.kind, destinationInode.kind with
      | .directory, .directory =>
        renameOverwriteAtPathJournaled sb source destination
      | .directory, _ =>
        Effect.fail (invalidInput
          "rename cannot replace a directory with a non-directory endpoint")
      | _, .directory =>
        Effect.fail (invalidInput
          "rename cannot replace a directory with a non-directory endpoint")
      | _, _ =>
        renameOverwriteNondirectoryJournaled sb r.oldParent r.oldName
          r.newParent r.newName

end Device

/-! ## The selected keys -/

/-- The path selects the key: its final component in the directory that the path
of its parent resolves to. -/
def SelectsKey (d : Disk) (sb : Superblock) (label path : String)
    (key : UInt64 × String) : Prop :=
  ∃ stripped intent parentPath,
    normalizeDirectoryIntent path label = .ok (stripped, intent) ∧
    splitPath (renameSplit label) stripped = .ok (parentPath, key.2) ∧
    resolvePathFollowingSymlinks d sb parentPath = .ok key.1

theorem normalizeDirectoryIntent_label {path label label' : String}
    {x : String × Bool} (h : normalizeDirectoryIntent path label = .ok x) :
    normalizeDirectoryIntent path label' = .ok x := by
  unfold normalizeDirectoryIntent at h ⊢
  split at h
  case isTrue hplain =>
    rw [if_pos hplain]
    exact h
  case isFalse hslash =>
    rw [if_neg hslash]
    simp only [Except.bind_eq_ok, rejectIf_eq_ok] at h ⊢
    exact h

theorem splitPath_messages {messages messages' : SplitMessages} {path : String}
    {x : String × String} (h : splitPath messages path = .ok x) :
    splitPath messages' path = .ok x := by
  simp only [splitPath, Except.bind_eq_ok, rejectIf_eq_ok, okOr_eq_ok] at h ⊢
  exact h

/-- The key does not depend on the operation that asks for it. -/
theorem SelectsKey.unique {d : Disk} {sb : Superblock}
    {label label' path : String} {key key' : UInt64 × String}
    (h : SelectsKey d sb label path key)
    (h' : SelectsKey d sb label' path key') : key' = key := by
  obtain ⟨stripped, intent, parentPath, hpath, hsplit, hparent⟩ := h
  obtain ⟨stripped', intent', parentPath', hpath', hsplit', hparent'⟩ := h'
  rw [normalizeDirectoryIntent_label hpath, Except.ok.injEq, Prod.mk.injEq]
    at hpath'
  obtain ⟨rfl, rfl⟩ := hpath'
  rw [splitPath_messages hsplit, Except.ok.injEq, Prod.mk.injEq] at hsplit'
  obtain ⟨rfl, hname⟩ := hsplit'
  rw [hparent, Except.ok.injEq] at hparent'
  exact Prod.ext hparent'.symm hname.symm

section Operations

variable {d : Disk} {sb : Superblock} {a : BlockAllocator}
  {inodes : List PersistedInode} {entries : List PersistedDirectoryEntry}

/-- The endpoints of a rename on a disk at rest. -/
theorem AtRest.renameEndpoints (h : AtRest d sb a inodes entries)
    (operation source destination : String) :
    Effect.Atomic
      (FilesystemLab.renameEndpoints sb operation source destination) d
      fun r d' => d' = d ∧
        SelectsKey d sb (operation ++ " source") source
          (r.oldParent, r.oldName) ∧
        SelectsKey d sb (operation ++ " destination") destination
          (r.newParent, r.newName) := by
  apply Effect.atomic_lift_bind
  rintro ⟨stripped, intent⟩ hsource
  apply Effect.atomic_lift_bind
  rintro ⟨stripped', intent'⟩ hdestination
  apply Effect.atomic_lift_bind
  rintro ⟨parentPath, name⟩ hsplit
  apply Effect.atomic_lift_bind
  rintro ⟨parentPath', name'⟩ hsplit'
  apply Effect.atomic_bind_of_ok h.recoverChecked
  apply Effect.atomic_query_bind
  intro parent hparent
  apply Effect.atomic_query_bind
  intro parent' hparent'
  apply Effect.atomic_pure
  exact ⟨rfl, ⟨_, _, _, hsource, hsplit, hparent⟩,
    ⟨_, _, _, hdestination, hsplit', hparent'⟩⟩

theorem Moved.settles {d' : Disk} {s t : UInt64 × String} {safe : Prop}
    (h : Moved sb d d' a inodes entries s t) (hsafe : safe) :
    Settles sb d' fun d'' => Moved sb d d'' a inodes entries s t ∧ safe := by
  obtain ⟨_, _, _, hbecame, _⟩ := id h
  exact hbecame.toAtRest.settles ⟨h, hsafe⟩

/-- The disk `d'`, once recovered, is the mounted disk `d` after a rename of the
keys that the paths select. -/
def MovedPaths (sb : Superblock) (d d' : Disk) (a : BlockAllocator)
    (inodes : List PersistedInode) (entries : List PersistedDirectoryEntry)
    (source destination : String) : Prop :=
  ∃ s t, SelectsKey d sb "rename source" source s ∧
    SelectsKey d sb "rename destination" destination t ∧
    Settles sb d' fun d'' => Moved sb d d'' a inodes entries s t

/-- The same, after a move that is safe if every directory has one entry. -/
def SafelyMovedPaths (sb : Superblock) (d d' : Disk) (a : BlockAllocator)
    (inodes : List PersistedInode) (entries : List PersistedDirectoryEntry)
    (source destination : String) : Prop :=
  ∃ s t, SelectsKey d sb "rename source" source s ∧
    SelectsKey d sb "rename destination" destination t ∧
    Settles sb d' fun d'' => Moved sb d d'' a inodes entries s t ∧
      (SingleEntries inodes entries → MoveSafe entries s t)

theorem SafelyMovedPaths.moved {d' : Disk} {source destination : String}
    (h : SafelyMovedPaths sb d d' a inodes entries source destination) :
    MovedPaths sb d d' a inodes entries source destination := by
  obtain ⟨s, t, hs, ht, report, d'', hrecover, hmoved, _⟩ := h
  exact ⟨s, t, hs, ht, report, d'', hrecover, hmoved⟩

/-- `rename_at_path_journaled` on a mounted disk: the destination is the source,
or it has no entry. -/
theorem Mounted.renameAtPath (h : Mounted d sb a inodes entries)
    (source destination : String) :
    Effect.Atomic (renameAtPathJournaled sb source destination) d
      fun _ d' => ∃ s t, SelectsKey d sb "rename source" source s ∧
        SelectsKey d sb "rename destination" destination t ∧
        (s = t ∨ targetOf entries t = none) ∧
        Settles sb d' fun d'' => Moved sb d d'' a inodes entries s t ∧
          MoveSafe entries s t := by
  apply (h.toAtRest.renameEndpoints _ source destination).bind_unchanged
  intro r hfacts
  rcases hfacts with ⟨hs, ht⟩
  apply Effect.atomic_query_bind
  intro _ _
  apply (h.renameEntry r.oldParent r.oldName r.newParent r.newName).mono
  intro _ d' hpost
  rcases hpost with ⟨report, d'', hrecover, hmoved, hsafe, hfree⟩
  exact ⟨_, _, hs, ht, hfree, report, d'', hrecover, hmoved, hsafe⟩

/-- `rename_overwrite_at_path_journaled` on a mounted disk. -/
theorem Mounted.renameOverwriteAtPath (h : Mounted d sb a inodes entries)
    (source destination : String) :
    Effect.Atomic (renameOverwriteAtPathJournaled sb source destination) d
      fun _ d' => ∃ s t, SelectsKey d sb "rename-overwrite source" source s ∧
        SelectsKey d sb "rename-overwrite destination" destination t ∧
        Moved sb d d' a inodes entries s t ∧
        (SingleEntries inodes entries → MoveSafe entries s t) := by
  apply (h.toAtRest.renameEndpoints _ source destination).bind_unchanged
  intro r hfacts
  rcases hfacts with ⟨hs, ht⟩
  apply h.atomic_entries
  apply Effect.atomic_lift_bind
  intro sourceEntry _
  apply Effect.atomic_lift_bind
  intro destinationEntry _
  apply h.atomic_inodes
  apply Effect.atomic_lift_bind
  intro sourceInode _
  apply Effect.atomic_lift_bind
  intro destinationInode _
  apply Effect.atomic_lift_bind
  intro _ _
  apply Effect.atomic_lift_bind
  intro _ _
  have hoverwrite : ∀ policy : RenameOverwritePolicy,
      policy.expectedKind ≠ .directory →
      Effect.Atomic (FilesystemLab.renameOverwriteImpl sb r.oldParent r.oldName
          r.newParent r.newName policy) d
        fun _ d' => ∃ s t,
          SelectsKey d sb "rename-overwrite source" source s ∧
          SelectsKey d sb "rename-overwrite destination" destination t ∧
          Moved sb d d' a inodes entries s t ∧
          (SingleEntries inodes entries → MoveSafe entries s t) := by
    intro policy hpolicy
    apply (h.renameOverwriteImpl _ _ _ _ hpolicy).mono
    intro _ d' hmoved
    exact ⟨_, _, hs, ht, hmoved.1, fun _ => hmoved.2⟩
  split
  · exact hoverwrite ⟨.file, false⟩ (by decide)
  · exact hoverwrite ⟨.file, true⟩ (by decide)
  · exact hoverwrite ⟨.symlink, false⟩ (by decide)
  · exact hoverwrite ⟨.symlink, true⟩ (by decide)
  · apply (h.renameOverwriteDirectory_safe _ _ _ _).mono
    intro _ d' hmoved
    exact ⟨_, _, hs, ht, hmoved⟩

/-- `rename_posix_at_path_journaled` on a mounted disk, with the condition under
which its checks for cycles suffice. -/
theorem Mounted.renamePosixAtPath_safe (h : Mounted d sb a inodes entries)
    (source destination : String) :
    Effect.Atomic (renamePosixAtPathJournaled sb source destination) d
      fun _ d' =>
        SafelyMovedPaths sb d d' a inodes entries source destination := by
  apply (h.toAtRest.renameEndpoints _ source destination).bind_unchanged
  intro r hfacts
  rcases hfacts with ⟨hs, ht⟩
  apply h.atomic_entries
  apply Effect.atomic_lift_bind
  intro sourceEntry hsource
  rw [okOr_eq_ok] at hsource
  have hold : targetOf entries (r.oldParent, r.oldName) =
      some sourceEntry.target := by rw [targetOf, hsource]; rfl
  cases hdestination : lookupEntry entries r.newParent r.newName with
  | none =>
    apply (h.renameAtPath source destination).mono
    intro _ d' hpost
    rcases hpost with ⟨s, t, hs', ht', _, report, d'', hrecover, hmoved, hsafe⟩
    exact ⟨s, t, hs', ht', report, d'', hrecover, hmoved, fun _ => hsafe⟩
  | some destinationEntry =>
    have hnew : targetOf entries (r.newParent, r.newName) =
        some destinationEntry.target := by rw [targetOf, hdestination]; rfl
    by_cases halias : destinationEntry.target = sourceEntry.target
    · -- both keys name one inode
      show Effect.Atomic (if _ then _ else _) _ _
      rw [if_pos halias]
      apply Effect.atomic_query_bind
      intro _ _
      apply Effect.atomic_pure
      have hmoved := h.moved_refl (by rw [hold]; simp)
        (hold.trans (by rw [hnew, halias]))
      exact ⟨_, _, hs, ht, h.toAtRest.settles
        ⟨hmoved, fun _ => (hmoved.check_iff h).mp ⟨_, h.check⟩⟩⟩
    · show Effect.Atomic (if _ then _ else _) _ _
      rw [if_neg halias]
      apply h.atomic_inodes
      apply Effect.atomic_lift_bind
      intro sourceInode _
      apply Effect.atomic_lift_bind
      intro destinationInode _
      apply Effect.atomic_lift_bind
      intro _ _
      split
      · apply (h.renameOverwriteAtPath source destination).mono
        intro _ d' hpost
        rcases hpost with ⟨s, t, hs', ht', hmoved, hsafe⟩
        rw [hs.unique hs', ht.unique ht'] at hmoved hsafe
        exact ⟨_, _, hs, ht, hmoved.settles hsafe⟩
      · exact .inl ⟨_, rfl⟩
      · exact .inl ⟨_, rfl⟩
      · apply (h.renameOverwriteNondirectory _ _ _ _).mono
        intro _ d' hmoved
        exact ⟨_, _, hs, ht, hmoved.1.settles fun _ => hmoved.2⟩

/-- `rename_posix_at_path_journaled` on a mounted disk. -/
theorem Mounted.renamePosixAtPath (h : Mounted d sb a inodes entries)
    (source destination : String) :
    Effect.Atomic (renamePosixAtPathJournaled sb source destination) d
      fun _ d' => MovedPaths sb d d' a inodes entries source destination := by
  apply (h.renamePosixAtPath_safe source destination).mono
  intro _ d' hpost
  exact hpost.moved

end Operations

/-- **A rename has exactly the specified effect.**  On a device that the check
accepts, with an empty journal, a successful rename selects the keys `s` and `t`
by the paths of their parents.  After recovery the directory table is the old
map if both keys had one target, and else the old map with `s` removed and `t`
mapped to the target of `s`.  The old target of `t` goes, with exactly its
blocks, if and only if it has no entry left; everything else, every data block
included, stays as it was.  An error leaves the device unchanged. -/
theorem renamePosix_exact {d : Disk} {sb : Superblock} {report : FsckReport}
    (hsb : readSuperblock d = .ok sb) (hjournal : loadJournalImage d sb = .ok [])
    (hcheck : checkDevice d = .ok report) (source destination : String) :
    (∀ r d', renamePosixAtPathJournaled sb source destination d = (.ok r, d') →
      ∃ s t, SelectsKey d sb "rename source" source s ∧
        SelectsKey d sb "rename destination" destination t ∧
        ∃ r' d'' a inodes entries a' inodes' entries',
          recoverJournalAndCheckpoint sb d' = (.ok r', d'') ∧
          AtRest d sb a inodes entries ∧
          Became sb d d'' a' inodes' entries' [] ∧
          Renamed a inodes entries a' inodes' entries' s t) ∧
    ∀ e, (renamePosixAtPathJournaled sb source destination d).1 = .error e →
      (renamePosixAtPathJournaled sb source destination d).2 = d := by
  obtain ⟨a, inodes, entries, h⟩ := exists_mounted hsb hjournal hcheck
  constructor
  · intro r d' hrun
    obtain ⟨s, t, hs, ht, r', d'', hrecover, a', inodes', entries', hbecame,
      hrenamed, _⟩ := (h.renamePosixAtPath source destination).of_ok hrun
    exact ⟨s, t, hs, ht, r', d'', a, inodes, entries, a', inodes', entries',
      hrecover, h.toAtRest, hbecame, hrenamed⟩
  · intro e he
    exact (h.renamePosixAtPath source destination).of_error he

/-- The endpoints of the sample rename. -/
theorem renameEndpoints_treeDisk :
    renameEndpoints treeSuperblock "rename" "/d/f" "/g" treeDisk =
      (.ok ⟨RecoveryReport.default, false, 2, "f", 1, "g"⟩, treeDisk) := by
  have hs : normalizeDirectoryIntent "/d/f" ("rename" ++ " source") =
      .ok ("/d/f", false) := by decide
  have ht : normalizeDirectoryIntent "/g" ("rename" ++ " destination") =
      .ok ("/g", false) := by decide
  have hs' : splitPath (renameSplit ("rename" ++ " source")) "/d/f" =
      .ok ("/d", "f") := by decide
  have ht' : splitPath (renameSplit ("rename" ++ " destination")) "/g" =
      .ok ("/", "g") := by decide
  rw [renameEndpoints, Effect.lift_bind_of_ok hs, Effect.lift_bind_of_ok ht,
    Effect.lift_bind_of_ok hs', Effect.lift_bind_of_ok ht',
    Effect.bind_of_ok mounted_treeDisk.recoverChecked,
    resolve_bind resolve_treeDisk, resolve_bind resolve_root_treeDisk]
  rfl

/-- The entry of the file is renamed. -/
theorem renameEntry_treeDisk :
    ∃ r d', renameEntryJournaled treeSuperblock 2 "f" 1 "g" treeDisk =
      (.ok r, d') := by
  have h := mounted_treeDisk
  have hparent : validateDirectoryParent treeInodes 2 "rename source parent" =
      .ok () := by decide
  have hparent' : validateDirectoryParent treeInodes 1
      "rename destination parent" = .ok () := by decide
  have hselected : okOr (selectEntry treeEntries 2 "f")
      (invalidInput "rename source entry does not exist") =
        .ok (1, ⟨2, 3, "f"⟩) := by decide
  obtain ⟨bytes, hbytes⟩ : ∃ bytes,
      encodeDirectoryEntry ⟨1, 3, "g"⟩ = .ok bytes :=
    ⟨_, encodeDirectoryEntry_eq_ok.mpr ⟨by decide, rfl⟩⟩
  have hinode : okOr (findInode treeInodes 3)
      (invalidInput "rename source targets a missing inode") =
        .ok ⟨3, .file, [], 0⟩ := rfl
  obtain ⟨r, d', _, _, hrun, _⟩ := h.storeDirectoryTable_ok (@storable_tree treeDisk
    treeInodes [⟨1, 2, "d"⟩, ⟨1, 3, "g"⟩]
    (exists_inodeImage (by decide) (by decide) (by decide) (by decide)
      (by decide))
    (exists_directoryImage (by decide) (by decide) (by decide) (by decide)
      (by decide)))
  refine ⟨r, d', ?_⟩
  rw [renameEntryJournaled, h.inodes_bind, Effect.lift_bind_of_ok hparent,
    Effect.lift_bind_of_ok hparent', h.entries_bind,
    Effect.lift_bind_of_ok hselected,
    Effect.lift_bind_of_ok (rejectIf_of_not (by decide)), if_neg (by decide),
    Effect.lift_bind_of_ok (rejectIf_of_not (by decide)),
    Effect.lift_bind_of_ok hbytes, Effect.lift_bind_of_ok hinode,
    Effect.lift_bind_of_ok (rejectIf_of_not (by decide))]
  exact hrun

/-- The file of the sample is renamed. -/
theorem renamePosixAtPath_treeDisk :
    ∃ r d', renamePosixAtPathJournaled treeSuperblock "/d/f" "/g" treeDisk =
      (.ok r, d') := by
  have hends := renameEndpoints_treeDisk
  obtain ⟨r, d', hrun⟩ := renameEntry_treeDisk
  have hsource : okOr (lookupEntry treeEntries 2 "f")
      (⟨.notFound, "rename source does not exist"⟩ : IoError) =
        .ok ⟨2, 3, "f"⟩ := by decide
  have hnone : lookupEntry treeEntries 1 "g" = none := by decide
  refine ⟨r, d', ?_⟩
  rw [renamePosixAtPathJournaled, Effect.bind_of_ok hends,
    mounted_treeDisk.entries_bind, Effect.lift_bind_of_ok hsource]
  simp only [hnone]
  rw [renameAtPathJournaled, Effect.bind_of_ok hends, Effect.query_bind]
  exact hrun

theorem renamePosix_exact_treeDisk :
    SelectsKey treeDisk treeSuperblock "rename source" "/d/f" (2, "f") ∧
    SelectsKey treeDisk treeSuperblock "rename destination" "/g" (1, "g") ∧
    ∃ r d' r' d'' a' inodes' entries',
      renamePosixAtPathJournaled treeSuperblock "/d/f" "/g" treeDisk =
        (.ok r, d') ∧
      recoverJournalAndCheckpoint treeSuperblock d' = (.ok r', d'') ∧
      Became treeSuperblock treeDisk d'' a' inodes' entries' [] ∧
      Renamed treeAllocator treeInodes treeEntries a' inodes' entries'
        (2, "f") (1, "g") := by
  have hs : SelectsKey treeDisk treeSuperblock "rename source" "/d/f"
      (2, "f") := ⟨"/d/f", false, "/d", by decide, by decide, resolve_treeDisk⟩
  have ht : SelectsKey treeDisk treeSuperblock "rename destination" "/g"
      (1, "g") := ⟨"/g", false, "/", by decide, by decide,
        resolve_root_treeDisk⟩
  refine ⟨hs, ht, ?_⟩
  obtain ⟨r, d', hrun⟩ := renamePosixAtPath_treeDisk
  obtain ⟨s, t, hs', ht', r', d'', a, inodes, entries, a', inodes', entries',
    hrecover, hrest, hbecame, hrenamed⟩ :=
    (renamePosix_exact mounted_treeDisk.superblock mounted_treeDisk.journal
      mounted_treeDisk.check "/d/f" "/g").1 r d' hrun
  rw [hs.unique hs', ht.unique ht'] at hrenamed
  obtain ⟨_, rfl, rfl, rfl⟩ := mounted_treeDisk.toAtRest.unique hrest
  exact ⟨r, d', r', d'', a', inodes', entries', hrun, hrecover, hbecame,
    hrenamed⟩

end FilesystemLab
