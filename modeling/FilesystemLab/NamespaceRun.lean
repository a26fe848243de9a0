import FilesystemLab.DirectoryCycles
import FilesystemLab.PathCreate

/-!
# Runs of namespace operations

`Consistent` is the invariant of a disk between two operations: it is at rest
and the check accepts it.  Every operation below keeps it, with whatever
arguments it is called and whether it succeeds or fails, so every run of them
does (`namespaceRun_checked`).

A directory may have several entries.  Moving one of them is the delicate case:
`rename_entry_journaled` looks for a way from the moved directory to its new
parent by the other entries, which is what the move has to avoid.
-/

namespace FilesystemLab

/-! ## The operations -/

/-- The two functions for links to a file and to a symbolic link. -/
inductive LinkKind where
  | file
  | symlink

/-- The functions that change the namespace, with their arguments. -/
inductive NamespaceOperation where
  | create (creator : PathCreator) (path : String)
  | createSymlink (parent : UInt64) (name target : String)
  | hardLink (kind : LinkKind) (parent : UInt64) (name : String)
    (target : UInt64)
  | unlinkFile (parent : UInt64) (name : String)
  | unlinkSymlink (parent : UInt64) (name : String)
  | unlinkNonfinal (kind : LinkKind) (parent : UInt64) (name : String)
  | removeDirectory (parent : UInt64) (name : String)
  | renameEntry (oldParent : UInt64) (oldName : String) (newParent : UInt64)
    (newName : String)
  | renameOverwriteFile (oldParent : UInt64) (oldName : String)
    (newParent : UInt64) (newName : String)
  | renameOverwriteLinkedFile (oldParent : UInt64) (oldName : String)
    (newParent : UInt64) (newName : String)
  | renameOverwriteSymlink (oldParent : UInt64) (oldName : String)
    (newParent : UInt64) (newName : String)
  | renameOverwriteLinkedSymlink (oldParent : UInt64) (oldName : String)
    (newParent : UInt64) (newName : String)
  | renameOverwriteNondirectory (oldParent : UInt64) (oldName : String)
    (newParent : UInt64) (newName : String)
  | renameExchange (kind : LinkKind) (firstParent : UInt64)
    (firstName : String) (secondParent : UInt64) (secondName : String)

namespace NamespaceOperation

/-- The disk after an operation, whether it succeeds or fails.  A rename leaves
its transaction in the journal and is followed by a recovery. -/
def step (sb : Superblock) (d : Disk) : NamespaceOperation → Disk
  | .create creator path => (creator.run sb path d).2
  | .createSymlink parent name target =>
    (createSymlinkJournaled sb parent name target d).2
  | .hardLink .file parent name target =>
    (hardLinkFileJournaled sb parent name target d).2
  | .hardLink .symlink parent name target =>
    (hardLinkSymlinkJournaled sb parent name target d).2
  | .unlinkFile parent name => (unlinkFileJournaled sb parent name d).2
  | .unlinkSymlink parent name => (unlinkSymlinkJournaled sb parent name d).2
  | .unlinkNonfinal .file parent name =>
    (unlinkNonfinalFileLinkJournaled sb parent name d).2
  | .unlinkNonfinal .symlink parent name =>
    (unlinkNonfinalSymlinkLinkJournaled sb parent name d).2
  | .removeDirectory parent name =>
    (removeDirectoryJournaled sb parent name d).2
  | .renameEntry oldParent oldName newParent newName =>
    (recoverJournalAndCheckpoint sb
      (renameEntryJournaled sb oldParent oldName newParent newName d).2).2
  | .renameOverwriteFile oldParent oldName newParent newName =>
    (renameOverwriteFileJournaled sb oldParent oldName newParent newName d).2
  | .renameOverwriteLinkedFile oldParent oldName newParent newName =>
    (renameOverwriteLinkedFileJournaled sb oldParent oldName newParent newName
      d).2
  | .renameOverwriteSymlink oldParent oldName newParent newName =>
    (renameOverwriteSymlinkJournaled sb oldParent oldName newParent newName d).2
  | .renameOverwriteLinkedSymlink oldParent oldName newParent newName =>
    (renameOverwriteLinkedSymlinkJournaled sb oldParent oldName newParent
      newName d).2
  | .renameOverwriteNondirectory oldParent oldName newParent newName =>
    (renameOverwriteNondirectoryJournaled sb oldParent oldName newParent newName
      d).2
  | .renameExchange .file firstParent firstName secondParent secondName =>
    (renameExchangeFilesJournaled sb firstParent firstName secondParent
      secondName d).2
  | .renameExchange .symlink firstParent firstName secondParent secondName =>
    (renameExchangeSymlinksJournaled sb firstParent firstName secondParent
      secondName d).2

/-- The disk after a sequence of operations. -/
def run (sb : Superblock) (d : Disk) (operations : List NamespaceOperation) :
    Disk :=
  operations.foldl (step sb) d

end NamespaceOperation

/-! ## The invariant -/

/-- A disk at rest that the check accepts. -/
def Consistent (sb : Superblock) (d : Disk) : Prop :=
  ∃ a inodes entries, Mounted d sb a inodes entries

section Outcomes

variable {sb : Superblock} {d d' : Disk} {a : BlockAllocator}
  {inodes : List PersistedInode} {entries : List PersistedDirectoryEntry}

theorem Consistent.check (h : Consistent sb d) :
    ∃ report, checkDevice d = .ok report := by
  obtain ⟨_, _, _, hm⟩ := h
  exact ⟨_, hm.check⟩

/-- A disk at rest that passes the check is consistent. -/
theorem AtRest.consistent (h : AtRest d sb a inodes entries)
    (hcheck : ∃ report, checkDevice d = .ok report) : Consistent sb d := by
  obtain ⟨report, hreport⟩ := hcheck
  exact ⟨a, inodes, entries, (h.checkDevice_iff.mp hreport).1⟩

/-- An atomic operation keeps a disk consistent if it does when it succeeds. -/
theorem consistent_of_atomic {α : Type} {op : DevM Disk α}
    {post : α → Disk → Prop} (hatomic : Effect.Atomic op d post)
    (h : Consistent sb d) (hpost : ∀ r d', post r d' → Consistent sb d') :
    Consistent sb (op d).2 := by
  rcases hatomic with ⟨e, herr⟩ | ⟨r, d', hok, hd'⟩
  · rw [herr]
    exact h
  · rw [hok]
    exact hpost r d' hd'

theorem Created.consistent {parent : UInt64} {name : String}
    {inode : PersistedInode}
    (h : Created sb d d' inodes entries parent name inode) :
    Consistent sb d' := by
  obtain ⟨a, hm⟩ := h.mounted
  exact ⟨a, _, _, hm⟩

theorem Unlinked.consistent {parent : UInt64} {name : String}
    (h : Unlinked sb d d' parent name) : Consistent sb d' := by
  obtain ⟨_, _, _, _, _, _, _, _, _, _, hbecame, _, _, hcheck⟩ := h
  exact hbecame.toAtRest.consistent hcheck

theorem Moved.consistent {s t : UInt64 × String}
    (h : Mounted d sb a inodes entries)
    (hmoved : Moved sb d d' a inodes entries s t)
    (hsafe : MoveSafe entries s t) : Consistent sb d' := by
  have hcheck := (hmoved.check_iff h).mpr hsafe
  obtain ⟨_, _, _, hbecame, _⟩ := hmoved
  exact hbecame.toAtRest.consistent hcheck

theorem Exchanged.consistent {s t : UInt64 × String}
    (h : Mounted d sb a inodes entries)
    (hexchanged : Exchanged sb d d' a inodes entries s t)
    (hsafe : ExchangeSafe entries s t) : Consistent sb d' := by
  have hcheck := (hexchanged.check_iff h).mpr hsafe
  obtain ⟨_, hbecame, _⟩ := hexchanged
  exact hbecame.toAtRest.consistent hcheck

end Outcomes

section Steps

variable {sb : Superblock} {d : Disk} {a : BlockAllocator}
  {inodes : List PersistedInode} {entries : List PersistedDirectoryEntry}

/-- A rename with its recovery. -/
theorem Mounted.renameEntry_consistent (h : Mounted d sb a inodes entries)
    (oldParent : UInt64) (oldName : String) (newParent : UInt64)
    (newName : String) :
    Consistent sb (recoverJournalAndCheckpoint sb (renameEntryJournaled sb
      oldParent oldName newParent newName d).2).2 := by
  rcases h.renameEntry oldParent oldName newParent newName with
    ⟨e, herr⟩ | ⟨r, d', hok, report, d'', hrecover, hmoved, hsafe, _⟩
  · rw [herr]
    show Consistent sb (recoverJournalAndCheckpoint sb d).2
    rw [h.recover]
    exact ⟨a, inodes, entries, h⟩
  · rw [hok]
    show Consistent sb (recoverJournalAndCheckpoint sb d').2
    rw [hrecover]
    exact hmoved.consistent h hsafe

/-- A rename over an entry for something else than a directory. -/
theorem Mounted.overwrite_consistent (h : Mounted d sb a inodes entries)
    (oldParent : UInt64) (oldName : String) (newParent : UInt64)
    (newName : String) (policy : RenameOverwritePolicy)
    (hpolicy : policy.expectedKind ≠ .directory) :
    Consistent sb (FilesystemLab.renameOverwriteImpl sb oldParent oldName
      newParent newName policy d).2 := by
  apply consistent_of_atomic
    (h.renameOverwriteImpl oldParent oldName newParent newName hpolicy)
    ⟨a, inodes, entries, h⟩
  intro _ d' hpost
  rcases hpost with ⟨hmoved, hsafe⟩
  exact hmoved.consistent h hsafe

/-- An exchange of entries for something else than directories. -/
theorem Mounted.exchange_consistent (h : Mounted d sb a inodes entries)
    (firstParent : UInt64) (firstName : String) (secondParent : UInt64)
    (secondName : String) {policy : ExchangeTargetPolicy}
    (hpolicy : policy.kind ≠ .directory) :
    Consistent sb (renameExchangeByKindJournaled sb firstParent firstName
      secondParent secondName policy d).2 := by
  apply consistent_of_atomic
    (h.renameExchange firstParent firstName secondParent secondName policy)
    ⟨a, inodes, entries, h⟩
  intro _ d' hpost
  rcases hpost with ⟨hexchanged, hsafe⟩
  exact hexchanged.consistent h (hsafe hpolicy)

/-- **Every operation keeps the disk consistent**, whether it succeeds or
fails. -/
theorem NamespaceOperation.step_consistent (h : Consistent sb d)
    (operation : NamespaceOperation) : Consistent sb (operation.step sb d) := by
  have hd := h
  obtain ⟨a, inodes, entries, h⟩ := h
  have hunlink : ∀ {op : DevM Disk RecoveryReport} {parent : UInt64}
      {name : String} {kind : InodeKind},
      Effect.Atomic op d (fun _ d' => Unlinked sb d d' parent name ∧
        Childless inodes entries parent name kind) →
      Consistent sb (op d).2 := fun hatomic =>
    consistent_of_atomic hatomic hd fun _ _ hpost => hpost.1.consistent
  have hlink : ∀ {op : DevM Disk RecoveryReport} {parent target : UInt64}
      {name : String} {kind : InodeKind},
      Effect.Atomic op d (fun _ d' =>
        HardLinked sb d d' a inodes entries parent name target kind) →
      Consistent sb (op d).2 := fun hatomic =>
    consistent_of_atomic hatomic hd fun _ _ hl => ⟨a, inodes, _, hl.mounted⟩
  cases operation with
  | create creator path =>
    apply consistent_of_atomic (h.pathCreator creator path) hd
    intro r d' hpost
    rcases hpost with ⟨_, _, _, _, _, _, _, _, _, _, _, _, hcreated⟩
    exact hcreated.consistent
  | createSymlink parent name target =>
    apply consistent_of_atomic (h.createSymlink parent name target) hd
    intro r d' hpost
    rcases hpost with ⟨inode, _, _, hcreated⟩
    exact hcreated.consistent
  | hardLink kind parent name target =>
    cases kind with
    | file => exact hlink (h.hardLinkFile parent name target)
    | symlink => exact hlink (h.hardLinkSymlink parent name target)
  | unlinkFile parent name => exact hunlink (h.unlinkFile parent name)
  | unlinkSymlink parent name => exact hunlink (h.unlinkSymlink parent name)
  | unlinkNonfinal kind parent name =>
    cases kind with
    | file => exact hunlink (h.unlinkNonfinalLink parent name (by decide) false)
    | symlink =>
      exact hunlink (h.unlinkNonfinalLink parent name (by decide) true)
  | removeDirectory parent name =>
    exact hunlink (h.removeDirectory_empty parent name)
  | renameEntry oldParent oldName newParent newName =>
    exact h.renameEntry_consistent oldParent oldName newParent newName
  | renameOverwriteFile oldParent oldName newParent newName =>
    exact h.overwrite_consistent oldParent oldName newParent newName
      ⟨.file, false⟩ (by decide)
  | renameOverwriteLinkedFile oldParent oldName newParent newName =>
    exact h.overwrite_consistent oldParent oldName newParent newName
      ⟨.file, true⟩ (by decide)
  | renameOverwriteSymlink oldParent oldName newParent newName =>
    exact h.overwrite_consistent oldParent oldName newParent newName
      ⟨.symlink, false⟩ (by decide)
  | renameOverwriteLinkedSymlink oldParent oldName newParent newName =>
    exact h.overwrite_consistent oldParent oldName newParent newName
      ⟨.symlink, true⟩ (by decide)
  | renameOverwriteNondirectory oldParent oldName newParent newName =>
    apply consistent_of_atomic
      (h.renameOverwriteNondirectory oldParent oldName newParent newName) hd
    intro _ d' hpost
    rcases hpost with ⟨hmoved, hsafe⟩
    exact hmoved.consistent h hsafe
  | renameExchange kind firstParent firstName secondParent secondName =>
    cases kind with
    | file =>
      exact h.exchange_consistent firstParent firstName secondParent secondName
        (by decide)
    | symlink =>
      exact h.exchange_consistent firstParent firstName secondParent secondName
        (by decide)

/-- Every run keeps the disk consistent. -/
theorem NamespaceOperation.run_consistent (h : Consistent sb d)
    (operations : List NamespaceOperation) :
    Consistent sb (run sb d operations) := by
  induction operations generalizing d with
  | nil => exact h
  | cons operation operations ih => exact ih (step_consistent h operation)

end Steps

/-- **Namespace operations preserve consistency over whole runs.**  From every
device that the check accepts with an empty journal, after every step of every
sequence of operations, the check accepts the device. -/
theorem namespaceRun_checked {d : Disk} {sb : Superblock} {report : FsckReport}
    (hsb : readSuperblock d = .ok sb) (hjournal : loadJournalImage d sb = .ok [])
    (hcheck : checkDevice d = .ok report)
    (operations : List NamespaceOperation) (n : Nat) :
    ∃ report', checkDevice (NamespaceOperation.run sb d (operations.take n)) =
      .ok report' := by
  have hd : Consistent sb d := exists_mounted hsb hjournal hcheck
  exact (NamespaceOperation.run_consistent hd (operations.take n)).check

/-- A directory is made in the root of the sample. -/
theorem createDirectory_treeDisk :
    ∃ r d', createDirectoryAtPathJournaled treeSuperblock "/e/" treeDisk =
        (.ok r, d') ∧
      AtRest d' treeSuperblock treeAllocator
        (treeInodes ++ [⟨4, .directory, [], 0⟩])
        (treeEntries ++ [⟨1, 4, "e"⟩]) := by
  have h := mounted_treeDisk
  have hstrip : stripSingleDirectoryTrailingSlash "/e/" = .ok "/e" := by decide
  have hsplit : splitPath createSplit "/e" = .ok ("/", "e") := by decide
  have hvalid : validateCreateDestination 1 "e" treeInodes treeEntries =
      .ok () := by decide
  have hid : nextInodeId treeInodes = .ok 4 := by decide
  have hinode : PersistedInode.new 4 .directory [] =
      .ok ⟨4, .directory, [], 0⟩ := by decide
  obtain ⟨bytes, hbytes⟩ : ∃ bytes,
      encodeDirectoryEntry ⟨1, 4, "e"⟩ = .ok bytes :=
    ⟨_, encodeDirectoryEntry_eq_ok.mpr ⟨by decide, rfl⟩⟩
  have hrun := h.createBlockless_run hsplit resolve_root_treeDisk hvalid hid
    hbytes hinode
  obtain ⟨report, d', hdone, hbecame⟩ := (h.storeCreateMetadata treeAllocator
    (treeInodes ++ [⟨4, .directory, [], 0⟩])
    (treeEntries ++ [⟨1, 4, "e"⟩])).of_storable (storable_tree
      (exists_inodeImage (by decide) (by decide) (by decide) (by decide)
        (by decide))
      (exists_directoryImage (by decide) (by decide) (by decide) (by decide)
        (by decide)))
  refine ⟨(4, report), d', ?_, hbecame.toAtRest⟩
  rw [createDirectoryAtPathJournaled, Effect.lift_bind_of_ok hstrip]
  exact hrun.trans (Effect.bind_of_ok hdone)

/-- The other directory of the root is moved into the new one. -/
theorem renameEntry_grown {d : Disk}
    (h : AtRest d treeSuperblock treeAllocator
      (treeInodes ++ [⟨4, .directory, [], 0⟩])
      (treeEntries ++ [⟨1, 4, "e"⟩])) :
    ∃ r d' r' d'',
      renameEntryJournaled treeSuperblock 1 "d" 4 "d" d = (.ok r, d') ∧
      recoverJournalAndCheckpoint treeSuperblock d' = (.ok r', d'') ∧
      AtRest d'' treeSuperblock treeAllocator
        (treeInodes ++ [⟨4, .directory, [], 0⟩])
        [⟨4, 2, "d"⟩, ⟨2, 3, "f"⟩, ⟨1, 4, "e"⟩] := by
  have hparent : validateDirectoryParent (treeInodes ++ [⟨4, .directory, [], 0⟩])
      1 "rename source parent" = .ok () := by decide
  have hparent' : validateDirectoryParent
      (treeInodes ++ [⟨4, .directory, [], 0⟩]) 4 "rename destination parent" =
        .ok () := by decide
  have hselected : okOr (selectEntry (treeEntries ++ [⟨1, 4, "e"⟩]) 1 "d")
      (invalidInput "rename source entry does not exist") =
        .ok (0, ⟨1, 2, "d"⟩) := by decide
  obtain ⟨bytes, hbytes⟩ : ∃ bytes,
      encodeDirectoryEntry ⟨4, 2, "d"⟩ = .ok bytes :=
    ⟨_, encodeDirectoryEntry_eq_ok.mpr ⟨by decide, rfl⟩⟩
  have hinode : okOr (findInode (treeInodes ++ [⟨4, .directory, [], 0⟩]) 2)
      (invalidInput "rename source targets a missing inode") =
        .ok ⟨2, .directory, [], 0⟩ := rfl
  have hentries : ∃ image, directoryFormat.encodeImage 1
      [⟨4, 2, "d"⟩, ⟨2, 3, "f"⟩, ⟨1, 4, "e"⟩] = .ok image :=
    exists_directoryImage (by decide) (by decide) (by decide) (by decide)
      (by decide)
  -- the file is all that the moved directory leads to
  have hsearch : ¬ (InodeKind.directory = .directory ∧
      wouldCreateDirectoryCycle (treeEntries ++ [⟨1, 4, "e"⟩]) 0 2 4 =
        true) := by
    have hedges : edgesOf ((treeEntries ++
        [(⟨1, 4, "e"⟩ : PersistedDirectoryEntry)]).eraseIdx 0) =
          [(2, 3), (1, 4)] := rfl
    rw [wouldCreateDirectoryCycle, hedges]
    simp [Digraph.reach, Digraph.succ]
  obtain ⟨r, d', r', d'', hrun, hrecover, hbecame⟩ :=
    h.storeDirectoryTable_ok (storable_tree h.inodeImage hentries)
  refine ⟨r, d', r', d'', ?_, hrecover, hbecame.toAtRest⟩
  rw [renameEntryJournaled, h.inodes_bind, Effect.lift_bind_of_ok hparent,
    Effect.lift_bind_of_ok hparent', h.entries_bind,
    Effect.lift_bind_of_ok hselected,
    Effect.lift_bind_of_ok (rejectIf_of_not (by decide)), if_neg (by decide),
    Effect.lift_bind_of_ok (rejectIf_of_not (by decide)),
    Effect.lift_bind_of_ok hbytes, Effect.lift_bind_of_ok hinode,
    Effect.lift_bind_of_ok (rejectIf_of_not hsearch)]
  exact hrun

/-- The new directory is not empty then. -/
theorem removeDirectory_grown {d : Disk}
    (h : AtRest d treeSuperblock treeAllocator
      (treeInodes ++ [⟨4, .directory, [], 0⟩])
      [⟨4, 2, "d"⟩, ⟨2, 3, "f"⟩, ⟨1, 4, "e"⟩]) :
    ∃ e, removeDirectoryJournaled treeSuperblock 1 "e" d = (.error e, d) := by
  have hselected : okOr (selectEntry [⟨4, 2, "d"⟩, ⟨2, 3, "f"⟩, ⟨1, 4, "e"⟩] 1
      "e") (invalidInput "directory entry is missing") =
        .ok (2, ⟨1, 4, "e"⟩) := by decide
  have hinode : okOr (findInode (treeInodes ++ [⟨4, .directory, [], 0⟩]) 4)
      (invalidInput "directory target inode is missing") =
        .ok ⟨4, .directory, [], 0⟩ := rfl
  rw [removeDirectoryJournaled, h.allocator_bind, h.inodes_bind,
    h.entries_bind, Effect.lift_bind_of_ok hselected,
    Effect.lift_bind_of_ok hinode,
    Effect.lift_bind_of_ok (rejectIf_of_not (by decide)),
    Effect.lift_bind_of_ok (rejectIf_of_not (by decide)),
    Effect.lift_bind_of_ok (rejectIf_of_not (by decide)), Effect.lift_bind,
    rejectIf_of (by decide)]
  exact ⟨_, rfl⟩

/-- A directory is made, another one is moved into it, and its removal is then
rejected. -/
theorem namespaceRun_checked_treeDisk :
    ∃ r d₁ r' d₂ r'' d₃ e report,
      createDirectoryAtPathJournaled treeSuperblock "/e/" treeDisk =
        (.ok r, d₁) ∧
      renameEntryJournaled treeSuperblock 1 "d" 4 "d" d₁ = (.ok r', d₂) ∧
      recoverJournalAndCheckpoint treeSuperblock d₂ = (.ok r'', d₃) ∧
      removeDirectoryJournaled treeSuperblock 1 "e" d₃ = (.error e, d₃) ∧
      NamespaceOperation.run treeSuperblock treeDisk [.create .directory "/e/",
        .renameEntry 1 "d" 4 "d", .removeDirectory 1 "e"] = d₃ ∧
      checkDevice d₃ = .ok report := by
  obtain ⟨r, d₁, hcreate, h₁⟩ := createDirectory_treeDisk
  obtain ⟨r', d₂, r'', d₃, hrename, hrecover, h₃⟩ := renameEntry_grown h₁
  obtain ⟨e, hremove⟩ := removeDirectory_grown h₃
  have hrun : NamespaceOperation.run treeSuperblock treeDisk
      [.create .directory "/e/", .renameEntry 1 "d" 4 "d",
        .removeDirectory 1 "e"] = d₃ := by
    have hfirst : NamespaceOperation.step treeSuperblock treeDisk
        (.create .directory "/e/") = d₁ := by
      rw [NamespaceOperation.step, PathCreator.run, hcreate]
    have hsecond : NamespaceOperation.step treeSuperblock d₁
        (.renameEntry 1 "d" 4 "d") = d₃ := by
      rw [NamespaceOperation.step, hrename, hrecover]
    have hthird : NamespaceOperation.step treeSuperblock d₃
        (.removeDirectory 1 "e") = d₃ := by
      rw [NamespaceOperation.step, hremove]
    rw [NamespaceOperation.run, List.foldl_cons, hfirst, List.foldl_cons,
      hsecond, List.foldl_cons, hthird, List.foldl_nil]
  obtain ⟨report, hreport⟩ := namespaceRun_checked mounted_treeDisk.superblock
    mounted_treeDisk.journal mounted_treeDisk.check
    [.create .directory "/e/", .renameEntry 1 "d" 4 "d",
      .removeDirectory 1 "e"] 3
  rw [List.take_of_length_le (Nat.le_refl 3), hrun] at hreport
  exact ⟨r, d₁, r', d₂, r'', d₃, e, report, hcreate, hrename, hrecover, hremove,
    hrun, hreport⟩

/-! ## Directories with one entry each -/

/-- **The checks for cycles suffice if every directory has one entry.**  On such
a device, which the check accepts, it also accepts the device after every exchange
of directories and every rename over a directory. -/
theorem directoryMoves_checked {d : Disk} {sb : Superblock}
    {inodes : List PersistedInode} {entries : List PersistedDirectoryEntry}
    {report : FsckReport} (hsb : readSuperblock d = .ok sb)
    (hjournal : loadJournalImage d sb = .ok [])
    (hcheck : checkDevice d = .ok report)
    (hinodes : loadInodeTable d sb = .ok inodes)
    (hentries : loadDirectoryTable d sb = .ok entries)
    (hsingle : SingleEntries inodes entries) (s t : UInt64 × String) :
    (∃ report', checkDevice
      (renameExchangeDirectoriesJournaled sb s.1 s.2 t.1 t.2 d).2 =
        .ok report') ∧
    ∃ report', checkDevice
      (renameOverwriteDirectoryJournaled sb s.1 s.2 t.1 t.2 d).2 =
        .ok report' := by
  obtain ⟨a, inodes₀, entries₀, h⟩ := exists_mounted hsb hjournal hcheck
  obtain rfl := Except.ok.inj (h.inodeTable.symm.trans hinodes)
  obtain rfl := Except.ok.inj (h.directoryTable.symm.trans hentries)
  have hd : Consistent sb d := ⟨a, _, _, h⟩
  constructor
  · apply Consistent.check
    apply consistent_of_atomic
      (h.renameExchange_safe s.1 s.2 t.1 t.2 DIRECTORY_POLICY) hd
    intro _ d' hpost
    exact hpost.1.consistent h (hpost.2 (.inr ⟨rfl, hsingle⟩))
  · apply Consistent.check
    apply consistent_of_atomic
      (h.renameOverwriteDirectory_safe s.1 s.2 t.1 t.2) hd
    intro _ d' hpost
    exact hpost.1.consistent h (hpost.2 hsingle)

/-- The two directories of the larger sample are exchanged. -/
theorem exchangeDirectories_forestDisk :
    ∃ r d', renameExchangeDirectoriesJournaled treeSuperblock 1 "d" 1 "e"
      forestDisk = (.ok r, d') := by
  have h := mounted_forestDisk
  obtain ⟨r, d', hrun, _⟩ := (h.storeDirectoryTableAndCheckpoint
    [⟨1, 4, "d"⟩, ⟨2, 3, "f"⟩, ⟨1, 3, "g"⟩, ⟨1, 2, "e"⟩]).of_storable
      (storable_tree h.inodeImage (exists_directoryImage (by decide) (by decide)
        (by decide) (by decide) (by decide)))
  refine ⟨r, d', ?_⟩
  rw [← hrun]
  exact @Mounted.exchangeDirectories_eq _ _ _ _ _ h (1, "d") (1, "e") 0 3
    ⟨1, 2, "d"⟩ ⟨1, 4, "e"⟩ (fun _ => rfl) (fun _ => rfl) (by decide)
    (by decide) (by decide) (fun _ => rfl) (fun _ => rfl) (by decide)
    (by decide) (by decide) (validateAcyclic_of_flat (by decide))

/-- One of them is renamed over the other, which is empty. -/
theorem overwriteDirectory_forestDisk :
    ∃ r d', renameOverwriteDirectoryJournaled treeSuperblock 1 "d" 1 "e"
      forestDisk = (.ok r, d') := by
  have h := mounted_forestDisk
  have hdirectory : ∀ label, validateDirectory forestInodes 1 label =
      .ok () := fun _ => rfl
  have hsource : okOr (selectEntry forestEntries 1 "d") (invalidInput
      "directory rename-overwrite source entry does not exist") =
        .ok (0, ⟨1, 2, "d"⟩) := by decide
  have hdestination : okOr (selectEntry forestEntries 1 "e") (invalidInput
      "directory rename-overwrite destination entry does not exist") =
        .ok (3, ⟨1, 4, "e"⟩) := by decide
  have hkind : validateDirectory forestInodes 2 "source" = .ok () := rfl
  have hkind' : validateDirectory forestInodes 4 "destination" = .ok () := rfl
  have hinode : okOr (findInode forestInodes 4)
      (invalidInput "validated destination inode disappeared") =
        .ok ⟨4, .directory, [], 0⟩ := rfl
  have howned : requireOwned treeAllocator
      "destination directory block is not allocator-owned" [] = .ok () := rfl
  have hname : PersistedDirectoryEntry.Valid ⟨1, 2, "e"⟩ := by decide
  have hfree : (treeAllocator.freeAll ([].map UInt64.toNat)).mapError
      (fun error => invalidInput ("" ++ error.message)) = .ok treeAllocator :=
    rfl
  obtain ⟨r, d', hrun, _⟩ := (h.storeCreateMetadata treeAllocator treeInodes
    [⟨1, 2, "e"⟩, ⟨2, 3, "f"⟩, ⟨1, 3, "g"⟩]).of_storable (storable_tree
      (exists_inodeImage (by decide) (by decide) (by decide) (by decide)
        (by decide))
      (exists_directoryImage (by decide) (by decide) (by decide) (by decide)
        (by decide)))
  refine ⟨r, d', ?_⟩
  rw [renameOverwriteDirectoryJournaled, Effect.query_bind_of_ok h.check,
    h.allocator_bind, h.inodes_bind, h.entries_bind,
    Effect.lift_bind_of_ok (hdirectory _), Effect.lift_bind_of_ok (hdirectory _),
    Effect.lift_bind_of_ok hsource, Effect.lift_bind_of_ok hdestination,
    if_neg (by decide), Effect.lift_bind_of_ok (rejectIf_of_not (by decide)),
    Effect.lift_bind_of_ok hkind, Effect.lift_bind_of_ok hkind',
    Effect.lift_bind_of_ok (rejectIf_of_not (by decide)),
    Effect.lift_bind_of_ok (rejectIf_of_not (by decide)),
    Effect.lift_bind_of_ok (rejectIf_of_not (by decide)),
    Effect.lift_bind_of_ok hinode,
    Effect.lift_bind_of_ok (rejectIf_of_not (by decide)),
    Effect.lift_bind_of_ok howned,
    Effect.lift_bind_of_ok (encodeDirectoryEntry_eq_ok.mpr ⟨hname, rfl⟩),
    Effect.lift_bind_of_ok (validateAcyclic_of_flat (by decide) _),
    publishOverwrite, Effect.lift_bind_of_ok hfree]
  exact hrun

theorem directoryMoves_checked_forestDisk :
    ∃ r d₁ r' d₂ report report',
      renameExchangeDirectoriesJournaled treeSuperblock 1 "d" 1 "e"
        forestDisk = (.ok r, d₁) ∧ checkDevice d₁ = .ok report ∧
      renameOverwriteDirectoryJournaled treeSuperblock 1 "d" 1 "e"
        forestDisk = (.ok r', d₂) ∧ checkDevice d₂ = .ok report' := by
  obtain ⟨r, d₁, hexchange⟩ := exchangeDirectories_forestDisk
  obtain ⟨r', d₂, hoverwrite⟩ := overwriteDirectory_forestDisk
  obtain ⟨⟨report, hreport⟩, report', hreport'⟩ := directoryMoves_checked
    mounted_forestDisk.superblock mounted_forestDisk.journal
    mounted_forestDisk.check mounted_forestDisk.inodeTable
    mounted_forestDisk.directoryTable (by unfold SingleEntries; decide) (1, "d")
    (1, "e")
  rw [hexchange] at hreport
  rw [hoverwrite] at hreport'
  exact ⟨r, d₁, r', d₂, report, report', hexchange, hreport, hoverwrite,
    hreport'⟩

end FilesystemLab
