import FilesystemLab.DirectoryPaging
import FilesystemLab.DiskVolume

/-!
# Directory listings

`list_directory_at_path` of `path_directory.rs` with its two kinds of pages,
`read_dir_at_path` of `path_read_dir.rs`, and
`list_directory_with_metadata_at_path` of `path_directory_plus.rs`.

`Volume.ListedBy` says what a listing of a directory is, and a volume has one for
each directory: the names in it, in order, with the kinds of their nodes.  The
three functions find it exactly (`Mounted.listDirectory_eq_ok` and its variants),
so they agree, although each has its own way to it.
-/

namespace FilesystemLab

/-! ## The functions -/

/-- `PathDirectoryEntry`. -/
structure PathDirectoryEntry where
  name : String
  inodeId : UInt64
  kind : InodeKind
deriving DecidableEq, Repr

/-- The loop over the children of a directory, of both functions; they look for
a target in their own ways. -/
def pathChildren (find : UInt64 → Option PersistedInode) (missing : String) :
    List PersistedDirectoryEntry → Result (List PathDirectoryEntry)
  | [] => pure []
  | entry :: entries => do
    let target ← okOr (find entry.target) (invalidData missing)
    let children ← pathChildren find missing entries
    pure (⟨entry.name, entry.target, target.kind⟩ :: children)

/-- `sort_by` of both functions. -/
def sortedByName (children : List PathDirectoryEntry) : List PathDirectoryEntry :=
  children.mergeSort fun left right => nameKey left.name ≤ nameKey right.name

/-- `enumerate_directory` of `path_read_dir.rs`. -/
def enumerateDirectory (directoryInode : UInt64) (inodes : List PersistedInode)
    (entries : List PersistedDirectoryEntry) :
    Result (List PathDirectoryEntry) := do
  let directory ← okOr (inodeById inodes directoryInode)
    (invalidData "resolved directory inode is missing")
  rejectIf (directory.kind ≠ .directory) (invalidInput
    "pathname directory enumeration target is not a directory")
  let children ← pathChildren (inodeById inodes)
    "directory entry references missing target inode"
    (entries.filter fun entry => entry.parent = directoryInode)
  pure (sortedByName children)

section Device

variable {σ : Type} [BlockDevice σ]

/-- `list_directory_at_path`. -/
def listDirectoryAtPath (sb : Superblock) (path : String) :
    DevM σ (List PathDirectoryEntry) := do
  let _ ← recoverJournalAndCheckpointChecked sb
  let id ← Effect.query (resolvePathFollowingSymlinks · sb path)
  let inodes ← Effect.query (loadInodeTable · sb)
  let directory ← okOr (findInode inodes id)
    (invalidData "resolved directory inode is missing from inode table")
  rejectIf (directory.kind ≠ .directory)
    (invalidInput "resolved pathname is not a directory")
  let entries ← Effect.query (loadDirectoryTable · sb)
  let children ← pathChildren (findInode inodes)
    "directory entry references missing inode"
    (entries.filter fun entry => entry.parent = id)
  pure (sortedByName children)

/-- `list_directory_page_at_path`. -/
def listDirectoryPageAtPath (sb : Superblock) (path : String)
    (offset limit : Nat) : DevM σ (List PathDirectoryEntry) := do
  let entries ← listDirectoryAtPath sb path
  pure ((entries.drop offset).take limit)

/-- The entry is behind the name. -/
def PathDirectoryEntry.isAfter (afterName : Option String)
    (entry : PathDirectoryEntry) : Bool :=
  match afterName with
  | some cursor => nameKey cursor < nameKey entry.name
  | none => true

/-- `list_directory_page_after_name_at_path`. -/
def listDirectoryPageAfterNameAtPath (sb : Superblock) (path : String)
    (afterName : Option String) (limit : Nat) :
    DevM σ (List PathDirectoryEntry) := do
  let entries ← listDirectoryAtPath sb path
  pure ((entries.filter fun entry => entry.isAfter afterName).take limit)

/-- `read_dir_at_path`. -/
def readDirAtPath (sb : Superblock) (path : String) :
    DevM σ (List PathDirectoryEntry) := do
  let _ ← recoverJournalAndCheckpointChecked sb
  let id ← Effect.query (resolvePathFollowingSymlinks · sb path)
  let inodes ← Effect.query (loadInodeTable · sb)
  let entries ← Effect.query (loadDirectoryTable · sb)
  enumerateDirectory id inodes entries

/-- `list_directory_with_metadata_at_path`. -/
def listDirectoryWithMetadataAtPath (sb : Superblock) (path : String) :
    DevM σ (List PathDirectoryEntryMetadata) := do
  let _ ← recoverJournalAndCheckpointChecked sb
  let _ ← Effect.query checkDevice
  let id ← Effect.query (resolvePathFollowingSymlinks · sb path)
  let inodes ← Effect.query (loadInodeTable · sb)
  let entries ← Effect.query (loadDirectoryTable · sb)
  enumerateDirectoryWithMetadata id inodes entries

end Device

/-! ## Listings of a volume -/

/-- The kind of a node. -/
def Node.kind : Node → InodeKind
  | .file _ => .file
  | .directory => .directory
  | .symlink _ => .symlink

theorem nodeOf_kind (d : Disk) (inode : PersistedInode) :
    (nodeOf d inode).kind = inode.kind := by
  unfold nodeOf
  split <;> simp_all [Node.kind]

/-- The children are the names in a directory, in their order, with the kinds of
their nodes. -/
structure Volume.ListedBy (v : Volume) (directory : UInt64)
    (children : List PathDirectoryEntry) : Prop where
  node_eq : v.node directory = some .directory
  sorted : children.Pairwise fun left right =>
    nameKey left.name < nameKey right.name
  mem_iff : ∀ child, child ∈ children ↔
    v.name (directory, child.name) = some child.inodeId ∧
      ∃ n, v.node child.inodeId = some n ∧ n.kind = child.kind

/-- A directory has one listing. -/
theorem Volume.ListedBy.unique {v : Volume} {directory : UInt64}
    {children children' : List PathDirectoryEntry}
    (h : v.ListedBy directory children) (h' : v.ListedBy directory children') :
    children = children' := by
  have _ : Std.Irrefl fun left right : PathDirectoryEntry =>
      nameKey left.name < nameKey right.name := ⟨fun child => lt_irrefl _⟩
  have _ : Std.Antisymm fun left right : PathDirectoryEntry =>
      nameKey left.name < nameKey right.name :=
    ⟨fun left right hlt hgt => absurd hgt (lt_asymm hlt)⟩
  apply h.sorted.eq_of_mem_iff h'.sorted
  intro child
  rw [h.mem_iff, h'.mem_iff]

/-- The path leads to a directory with these children. -/
def Volume.Listing (v : Volume) (path : String)
    (children : List PathDirectoryEntry) : Prop :=
  ∃ directory, v.Resolves path true directory ∧ v.ListedBy directory children

/-! ## The listing of a disk -/

section Listing

variable {d : Disk} {sb : Superblock} {a : BlockAllocator}
  {inodes : List PersistedInode} {entries : List PersistedDirectoryEntry}
  {directory : UInt64}

/-- Both ways to look for an inode find the same. -/
theorem inodeById_eq (hnodup : (inodes.map PersistedInode.id).Nodup) :
    inodeById inodes = findInode inodes := by
  funext id
  cases hfind : inodeById inodes id with
  | some inode =>
    obtain ⟨hmem, rfl⟩ := mem_of_inodeById hfind
    exact (findInode_of_mem hnodup hmem).symm
  | none =>
    symm
    rw [findInode_eq_none]
    intro inode hmem
    have hne := List.find?_eq_none.mp hfind inode (List.mem_reverse.mpr hmem)
    rw [decide_eq_true_eq] at hne
    exact hne

/-- The children, if every target is found. -/
theorem pathChildren_eq_ok {find : UInt64 → Option PersistedInode}
    {missing : String}
    (htarget : ∀ entry ∈ entries, ∃ target, find entry.target = some target) :
    ∃ children, pathChildren find missing entries = .ok children ∧
      children.map PathDirectoryEntry.name =
        entries.map PersistedDirectoryEntry.name ∧
      ∀ child, child ∈ children ↔ ∃ entry ∈ entries, ∃ target,
        find entry.target = some target ∧
          child = ⟨entry.name, entry.target, target.kind⟩ := by
  induction entries with
  | nil =>
    refine ⟨[], rfl, rfl, fun child => ?_⟩
    simp only [List.not_mem_nil, false_and, exists_false]
  | cons entry entries ih =>
    rw [List.forall_mem_cons] at htarget
    obtain ⟨⟨target, hfind⟩, hrest⟩ := htarget
    obtain ⟨children, hok, hnames, hmem⟩ := ih hrest
    refine ⟨⟨entry.name, entry.target, target.kind⟩ :: children, ?_, ?_, ?_⟩
    · rw [pathChildren, hfind, okOr_some, Except.ok_bind, hok]
      rfl
    · rw [List.map_cons, List.map_cons, hnames]
    · intro child
      rw [List.mem_cons, hmem child]
      simp only [List.mem_cons, exists_eq_or_imp, hfind, Option.some.injEq,
        exists_eq_left']

/-- The children of a directory of a mounted disk, sorted, are its listing. -/
theorem Mounted.pathChildren (h : Mounted d sb a inodes entries)
    (hdirectory : (volumeOf sb d).node directory = some .directory)
    (missing : String) :
    ∃ children, FilesystemLab.pathChildren (findInode inodes) missing
        (entries.filter fun entry => entry.parent = directory) = .ok children ∧
      (volumeOf sb d).ListedBy directory (sortedByName children) := by
  obtain ⟨children, hok, hnames, hmem⟩ := @pathChildren_eq_ok
    (entries.filter fun entry => entry.parent = directory) (findInode inodes)
    missing (by
      intro entry hentry
      have htarget := h.tree.target entry (List.mem_filter.mp hentry).1
      obtain ⟨kind, hkind⟩ := Option.ne_none_iff_exists'.mp htarget
      obtain ⟨inode, hinode, hid, _⟩ := exists_of_kindOf hkind
      rw [← hid]
      exact ⟨inode, findInode_of_mem h.nodup_ids hinode⟩)
  refine ⟨children, hok, hdirectory, ?_, ?_⟩
  · apply sorted_mergeSort
    rw [hnames]
    exact nodup_names_of_keys h.nodup_keys
  · intro child
    rw [sortedByName, (List.mergeSort_perm children _).mem_iff, hmem,
      h.volume_eq]
    constructor
    · intro hchild
      obtain ⟨entry, hentry, target, hfind, rfl⟩ := hchild
      rw [List.mem_filter, decide_eq_true_eq] at hentry
      obtain ⟨hentry, rfl⟩ := hentry
      refine ⟨targetOf_of_mem h.nodup_keys hentry, _,
        volumeWith_node.mpr ⟨target, hfind, rfl⟩, ?_⟩
      exact nodeOf_kind d target
    · intro hchild
      obtain ⟨hname, n, hnode, hkind⟩ := hchild
      obtain ⟨target, hfind, rfl⟩ := volumeWith_node.mp hnode
      rw [nodeOf_kind] at hkind
      refine ⟨⟨directory, child.inodeId, child.name⟩, ?_, target, hfind, ?_⟩
      · rw [List.mem_filter, decide_eq_true_eq]
        exact ⟨mem_of_targetOf hname, rfl⟩
      · rw [hkind]

/-- The directory of a volume. -/
theorem Mounted.node_directory (h : Mounted d sb a inodes entries)
    {inode : PersistedInode} (hfind : findInode inodes directory = some inode) :
    (volumeOf sb d).node directory = some .directory ↔
      inode.kind = .directory := by
  rw [h.volume_eq, volumeWith_directory, FoundDirectory, hfind]
  constructor
  · intro hfound
    obtain ⟨other, hother, hkind⟩ := hfound
    cases hother
    exact hkind
  · intro hkind
    exact ⟨inode, rfl, hkind⟩

/-- A result is the listing of a path if it is the one of the directory that the
path leads to. -/
theorem Mounted.listing_iff (h : Mounted d sb a inodes entries) {path : String}
    (hpath : (volumeOf sb d).Resolves path true directory)
    {r : Result (List PathDirectoryEntry)}
    (hlists : (volumeOf sb d).node directory = some .directory →
      ∃ children, r = .ok children ∧ (volumeOf sb d).ListedBy directory children)
    (hkind : ∀ children, r = .ok children →
      (volumeOf sb d).node directory = some .directory)
    (children : List PathDirectoryEntry) :
    r = .ok children ↔ (volumeOf sb d).Listing path children := by
  constructor
  · intro hr
    obtain ⟨others, hothers, hlisted⟩ := hlists (hkind children hr)
    rw [hr, Except.ok.injEq] at hothers
    subst hothers
    exact ⟨directory, hpath, hlisted⟩
  · intro hlisting
    obtain ⟨other, hother, hlisted⟩ := hlisting
    obtain rfl := h.resolves_unique hother hpath
    obtain ⟨others, hothers, hlisted'⟩ := hlists hlisted.node_eq
    rw [hothers, hlisted.unique hlisted']

/-- A path that does not resolve has no listing. -/
theorem Mounted.not_listing (h : Mounted d sb a inodes entries) {path : String}
    {e : IoError}
    (hpath : resolvePathFollowingSymlinks d sb path = .error e)
    (children : List PathDirectoryEntry) :
    ¬ (volumeOf sb d).Listing path children := by
  intro hlisting
  obtain ⟨directory, hresolves, _⟩ := hlisting
  have hok : resolvePathFollowingSymlinks d sb path = .ok directory :=
    h.resolvePath_eq_ok.mpr hresolves
  rw [hpath] at hok
  cases hok

/-- The search of both functions for the directory and its children. -/
theorem Mounted.enumerate_iff (h : Mounted d sb a inodes entries)
    {path : String} (hpath : (volumeOf sb d).Resolves path true directory)
    (missing absent other : String) (children : List PathDirectoryEntry) :
    (do
      let inode ← okOr (findInode inodes directory) (invalidData absent)
      rejectIf (inode.kind ≠ .directory) (invalidInput other)
      let children ← FilesystemLab.pathChildren (findInode inodes) missing
        (entries.filter fun entry => entry.parent = directory)
      pure (sortedByName children) : Result (List PathDirectoryEntry)) =
        .ok children ↔
      (volumeOf sb d).Listing path children := by
  apply h.listing_iff hpath
  · intro hdirectory
    obtain ⟨found, hok, hlisted⟩ := h.pathChildren hdirectory missing
    refine ⟨_, ?_, hlisted⟩
    rw [h.volume_eq, volumeWith_directory] at hdirectory
    obtain ⟨inode, hfind, hkind⟩ := hdirectory
    rw [hfind, okOr_some, Except.ok_bind,
      rejectIf_of_not (not_ne_iff.mpr hkind), Except.ok_bind, hok]
    rfl
  · intro found hfound
    rw [Except.bind_eq_ok] at hfound
    obtain ⟨inode, hfind, hfound⟩ := hfound
    rw [Except.bind_eq_ok] at hfound
    obtain ⟨_, hkind, _⟩ := hfound
    rw [rejectIf_eq_ok, not_ne_iff] at hkind
    exact (h.node_directory (okOr_eq_ok.mp hfind)).mpr hkind

/-- **`list_directory_at_path` finds the listing of its path**, and nothing
else. -/
theorem Mounted.listDirectory (h : Mounted d sb a inodes entries)
    (path : String) :
    (listDirectoryAtPath sb path d).2 = d ∧ ∀ children,
      (listDirectoryAtPath sb path d).1 = .ok children ↔
        (volumeOf sb d).Listing path children := by
  rw [listDirectoryAtPath, Effect.bind_of_ok h.recoverChecked]
  cases hpath : resolvePathFollowingSymlinks d sb path with
  | error e =>
    rw [Effect.query_bind]
    rw [hpath]
    refine ⟨rfl, fun children => iff_of_false nofun ?_⟩
    exact h.not_listing hpath children
  | ok id =>
    rw [resolve_bind hpath, h.inodes_bind]
    have hiff := h.enumerate_iff (h.resolvePath_eq_ok.mp hpath)
      "directory entry references missing inode"
      "resolved directory inode is missing from inode table"
      "resolved pathname is not a directory"
    cases hfind : findInode inodes id with
    | none =>
      rw [hfind] at hiff
      exact ⟨rfl, hiff⟩
    | some inode =>
      rw [hfind, okOr_some, Except.ok_bind] at hiff
      rw [okOr_some, Effect.lift_bind_of_ok rfl]
      by_cases hkind : inode.kind = .directory
      · rw [rejectIf_of_not (not_ne_iff.mpr hkind), Except.ok_bind] at hiff
        rw [Effect.lift_bind_of_ok (rejectIf_of_not (not_ne_iff.mpr hkind)),
          h.entries_bind]
        refine ⟨Effect.bind_snd_of_unchanged rfl fun _ => rfl, ?_⟩
        intro children
        rw [← hiff, Effect.lift_bind]
        cases FilesystemLab.pathChildren (findInode inodes)
          "directory entry references missing inode"
          (entries.filter fun entry => entry.parent = id) <;> rfl
      · rw [rejectIf_of hkind] at hiff ⊢
        exact ⟨rfl, hiff⟩

/-- **`read_dir_at_path` finds the listing of its path**, and nothing else. -/
theorem Mounted.readDir (h : Mounted d sb a inodes entries) (path : String) :
    (readDirAtPath sb path d).2 = d ∧ ∀ children,
      (readDirAtPath sb path d).1 = .ok children ↔
        (volumeOf sb d).Listing path children := by
  rw [readDirAtPath, Effect.bind_of_ok h.recoverChecked]
  cases hpath : resolvePathFollowingSymlinks d sb path with
  | error e =>
    rw [Effect.query_bind, hpath]
    refine ⟨rfl, fun children => iff_of_false nofun ?_⟩
    exact h.not_listing hpath children
  | ok id =>
    rw [resolve_bind hpath, h.inodes_bind, h.entries_bind]
    have hiff := h.enumerate_iff (h.resolvePath_eq_ok.mp hpath)
      "directory entry references missing target inode"
      "resolved directory inode is missing"
      "pathname directory enumeration target is not a directory"
    rw [← inodeById_eq h.nodup_ids] at hiff
    exact ⟨rfl, hiff⟩

/-- The entry that the metadata are of. -/
def PathDirectoryEntryMetadata.entry (metadata : PathDirectoryEntryMetadata) :
    PathDirectoryEntry :=
  ⟨metadata.name, metadata.inodeId, metadata.kind⟩

/-- The children with their metadata are the listing. -/
theorem Mounted.listedBy_enumerates (h : Mounted d sb a inodes entries)
    (hdirectory : (volumeOf sb d).node directory = some .directory)
    {children : List PathDirectoryEntryMetadata}
    (henum : Enumerates inodes entries directory children) :
    (volumeOf sb d).ListedBy directory
      (children.map PathDirectoryEntryMetadata.entry) := by
  have hmem : ∀ name id, (name, id) ∈ children.map (fun child =>
      (child.name, child.inodeId)) ↔
        (volumeOf sb d).name (directory, name) = some id := by
    intro name id
    rw [henum.listed.mem_iff, h.volume_eq]
    show _ ↔ targetOf entries (directory, name) = some id
    rw [targetOf_eq_some h.nodup_keys, List.mem_map]
    constructor
    · intro hentry
      obtain ⟨⟨parent, target, text⟩, hentry, heq⟩ := hentry
      rw [List.mem_filter, decide_eq_true_eq] at hentry
      obtain ⟨hentry, rfl⟩ := hentry
      cases heq
      exact hentry
    · intro hentry
      refine ⟨_, List.mem_filter.mpr ⟨hentry, ?_⟩, rfl⟩
      exact decide_eq_true rfl
  -- the kind of a child is that of its node
  have hkind : ∀ child ∈ children, ∃ n,
      (volumeOf sb d).node child.inodeId = some n ∧ n.kind = child.kind := by
    intro child hchild
    obtain ⟨inode, hinode, hid, hkind, _⟩ := (henum.described child hchild).target
    rw [← hid, h.volume_eq]
    refine ⟨_, volumeWith_node.mpr
      ⟨inode, findInode_of_mem h.nodup_ids hinode, rfl⟩, ?_⟩
    rw [nodeOf_kind, hkind]
  refine ⟨hdirectory, ?_, ?_⟩
  · exact List.pairwise_map.mpr henum.sorted
  · intro child
    rw [← hmem, List.mem_map, List.mem_map]
    constructor
    · intro hchild
      obtain ⟨metadata, hmetadata, rfl⟩ := hchild
      exact ⟨⟨metadata, hmetadata, rfl⟩, hkind metadata hmetadata⟩
    · intro hchild
      obtain ⟨⟨metadata, hmetadata, heq⟩, n, hnode, hn⟩ := hchild
      obtain ⟨hname, hid⟩ := Prod.mk.inj heq
      obtain ⟨n', hnode', hn'⟩ := hkind metadata hmetadata
      refine ⟨metadata, hmetadata, ?_⟩
      rw [hid, hnode, Option.some.injEq] at hnode'
      subst hnode'
      rw [PathDirectoryEntryMetadata.entry, hname, hid, ← hn', hn]

/-- What `list_directory_with_metadata_at_path` finds on a mounted disk. -/
theorem Mounted.of_listDirectoryWithMetadata (h : Mounted d sb a inodes entries)
    {path : String} {children : List PathDirectoryEntryMetadata}
    (hrun : (listDirectoryWithMetadataAtPath sb path d).1 = .ok children) :
    ∃ directory, (volumeOf sb d).Resolves path true directory ∧
      (volumeOf sb d).node directory = some .directory ∧
      Enumerates inodes entries directory children := by
  rw [listDirectoryWithMetadataAtPath, Effect.bind_of_ok h.recoverChecked,
    Effect.query_bind_of_ok h.check, Effect.query_bind] at hrun
  split at hrun
  · rename_i id hpath
    rw [h.inodes_bind, h.entries_bind] at hrun
    have hrun : enumerateDirectoryWithMetadata id inodes entries =
      .ok children := hrun
    have hfound := hrun
    rw [enumerateDirectoryWithMetadata, inodeById_eq h.nodup_ids,
      Except.bind_eq_ok] at hfound
    obtain ⟨inode, hfind, hfound⟩ := hfound
    rw [Except.bind_eq_ok] at hfound
    obtain ⟨_, hkind, _⟩ := hfound
    rw [okOr_eq_ok] at hfind
    rw [rejectIf_eq_ok, not_ne_iff] at hkind
    obtain ⟨hmem, rfl⟩ := findInode_eq_some hfind
    obtain ⟨others, hothers, henum⟩ := h.enumerates
      (by rw [kindOf_of_mem h.nodup_ids hmem, hkind])
    rw [hrun, Except.ok.injEq] at hothers
    subst hothers
    exact ⟨_, h.resolvePath_eq_ok.mp hpath, (h.node_directory hfind).mpr hkind,
      henum⟩
  · cases hrun

/-- **`list_directory_with_metadata_at_path` finds the listing of its path**,
with the metadata of each entry. -/
theorem Mounted.listDirectoryWithMetadata (h : Mounted d sb a inodes entries)
    (path : String) (children : List PathDirectoryEntry) :
    (listDirectoryWithMetadataAtPath sb path d).1.map
        (List.map PathDirectoryEntryMetadata.entry) = .ok children ↔
      (volumeOf sb d).Listing path children := by
  have hlists : ∀ found,
      (listDirectoryWithMetadataAtPath sb path d).1 = .ok found →
        (volumeOf sb d).Listing path
          (found.map PathDirectoryEntryMetadata.entry) := by
    intro found hfound
    obtain ⟨directory, hpath, hdirectory, henum⟩ :=
      h.of_listDirectoryWithMetadata hfound
    exact ⟨directory, hpath, h.listedBy_enumerates hdirectory henum⟩
  constructor
  · intro hchildren
    obtain ⟨found, hfound, rfl⟩ := Except.map_eq_ok.mp hchildren
    exact hlists found hfound
  · intro hlisting
    obtain ⟨directory, hpath, hlisted⟩ := hlisting
    have hkind := hlisted.node_eq
    rw [h.volume_eq, volumeWith_directory] at hkind
    obtain ⟨inode, hfind, hkind⟩ := hkind
    obtain ⟨hmem, rfl⟩ := findInode_eq_some hfind
    obtain ⟨found, hok, henum⟩ := h.enumerates
      (by rw [kindOf_of_mem h.nodup_ids hmem, hkind])
    rw [listDirectoryWithMetadataAtPath, Effect.bind_of_ok h.recoverChecked,
      Effect.query_bind_of_ok h.check,
      resolve_bind (h.resolvePath_eq_ok.mpr hpath), h.inodes_bind,
      h.entries_bind]
    show (enumerateDirectoryWithMetadata inode.id inodes entries).map _ = _
    have hsame := (h.listedBy_enumerates hlisted.node_eq henum).unique hlisted
    rw [hok, ← hsame]
    rfl

/-- **The three listings agree** on a device that the check accepts: they list
the same entries, or none of them answers. -/
theorem listings_agree {report : FsckReport} (hsb : readSuperblock d = .ok sb)
    (hjournal : loadJournalImage d sb = .ok [])
    (hcheck : checkDevice d = .ok report) (path : String)
    (children : List PathDirectoryEntry) :
    ((readDirAtPath sb path d).1 = .ok children ↔
      (listDirectoryAtPath sb path d).1 = .ok children) ∧
    ((listDirectoryWithMetadataAtPath sb path d).1.map
        (List.map PathDirectoryEntryMetadata.entry) = .ok children ↔
      (listDirectoryAtPath sb path d).1 = .ok children) := by
  obtain ⟨a, inodes, entries, h⟩ := exists_mounted hsb hjournal hcheck
  rw [(h.readDir path).2, h.listDirectoryWithMetadata, (h.listDirectory path).2]
  exact ⟨Iff.rfl, Iff.rfl⟩

/-- The entries of the root of the larger sample, by their names. -/
def forestListing : List PathDirectoryEntry :=
  [⟨"d", 2, .directory⟩, ⟨"e", 4, .directory⟩, ⟨"g", 3, .file⟩]

theorem sortedByName_forest :
    sortedByName [⟨"d", 2, .directory⟩, ⟨"g", 3, .file⟩, ⟨"e", 4, .directory⟩] =
      forestListing := by
  have hd : nameKey "d" = [100] := by decide
  have he : nameKey "e" = [101] := by decide
  have hg : nameKey "g" = [103] := by decide
  have hdg : [100] ≤ [103] := by decide
  have hde : [100] ≤ [101] := by decide
  have hge : ¬ [103] ≤ [101] := by decide
  simp [sortedByName, List.mergeSort, List.MergeSort.Internal.splitInTwo,
    hd, he, hg, hdg, hde, hge, forestListing]

theorem listDirectoryAtPath_forestDisk :
    (listDirectoryAtPath treeSuperblock "/" forestDisk).1 =
      .ok forestListing := by
  have h := mounted_forestDisk
  have hroot : resolvePathFollowingSymlinks forestDisk treeSuperblock "/" =
      .ok 1 :=
    @AtRest.resolve_root _ _ _ _ _ h.toAtRest ⟨1, .directory, [], 0⟩ rfl
  have hfind : okOr (findInode forestInodes 1)
      (invalidData "resolved directory inode is missing from inode table") =
        .ok ⟨1, .directory, [], 0⟩ := rfl
  have hchildren : pathChildren (findInode forestInodes)
      "directory entry references missing inode"
      (forestEntries.filter fun entry => entry.parent = 1) =
        .ok [⟨"d", 2, .directory⟩, ⟨"g", 3, .file⟩, ⟨"e", 4, .directory⟩] := by
    decide
  rw [listDirectoryAtPath, Effect.bind_of_ok h.recoverChecked,
    resolve_bind hroot, h.inodes_bind, Effect.lift_bind_of_ok hfind,
    Effect.lift_bind_of_ok (a := ()) (rejectIf_of_not (by decide)),
    h.entries_bind, Effect.lift_bind_of_ok hchildren, sortedByName_forest]
  rfl

theorem listings_agree_forestDisk :
    (readDirAtPath treeSuperblock "/" forestDisk).1 = .ok forestListing ∧
    (listDirectoryWithMetadataAtPath treeSuperblock "/" forestDisk).1.map
      (List.map PathDirectoryEntryMetadata.entry) = .ok forestListing := by
  have hagree := listings_agree mounted_forestDisk.superblock
    mounted_forestDisk.journal mounted_forestDisk.check "/" forestListing
  exact ⟨hagree.1.mpr listDirectoryAtPath_forestDisk,
    hagree.2.mpr listDirectoryAtPath_forestDisk⟩

/-! ### Pages -/

/-- The pages by position are parts of the listing. -/
theorem listDirectoryPage_eq (offset limit : Nat) (path : String) (d : Disk) :
    (listDirectoryPageAtPath sb path offset limit d).1 =
      (listDirectoryAtPath sb path d).1.map fun children =>
        (children.drop offset).take limit := by
  rw [listDirectoryPageAtPath, Effect.bind_apply]
  rcases listDirectoryAtPath sb path d with ⟨_ | _, _⟩ <;> rfl

/-- The pages by name are parts of the listing. -/
theorem listDirectoryPageAfterName_eq (afterName : Option String) (limit : Nat)
    (path : String) (d : Disk) :
    (listDirectoryPageAfterNameAtPath sb path afterName limit d).1 =
      (listDirectoryAtPath sb path d).1.map fun children =>
        (children.filter fun entry => entry.isAfter afterName).take limit := by
  rw [listDirectoryPageAfterNameAtPath, Effect.bind_apply]
  rcases listDirectoryAtPath sb path d with ⟨_ | _, _⟩ <;> rfl

/-- In a sorted listing, what is behind a name is what follows it. -/
theorem filter_isAfter {before after : List PathDirectoryEntry}
    {last : PathDirectoryEntry}
    (hsorted : (before ++ last :: after).Pairwise fun left right =>
      nameKey left.name < nameKey right.name) :
    (before ++ last :: after).filter (fun entry => entry.isAfter (some last.name)) =
      after := by
  rw [List.pairwise_append, List.pairwise_cons] at hsorted
  obtain ⟨_, ⟨hafter, _⟩, hbefore⟩ := hsorted
  rw [List.filter_append, List.filter_eq_nil_iff.mpr, List.nil_append,
    List.filter_cons_of_neg, List.filter_eq_self.mpr]
  · intro entry hentry
    exact decide_eq_true (hafter entry hentry)
  · intro hself
    exact absurd (of_decide_eq_true hself) (lt_irrefl _)
  · intro entry hentry hself
    have hlt := hbefore entry hentry last List.mem_cons_self
    exact absurd (of_decide_eq_true hself) (lt_asymm hlt)

/-- **A page behind the last name of a page is the page behind its position.** -/
theorem directoryPages_continue {report : FsckReport}
    (hsb : readSuperblock d = .ok sb) (hjournal : loadJournalImage d sb = .ok [])
    (hcheck : checkDevice d = .ok report) {path : String} {offset limit : Nat}
    {before : List PathDirectoryEntry} {last : PathDirectoryEntry}
    (hpage : (listDirectoryPageAtPath sb path offset limit d).1 =
      .ok (before ++ [last])) (next : Nat) :
    (listDirectoryPageAfterNameAtPath sb path (some last.name) next d).1 =
      (listDirectoryPageAtPath sb path (offset + (before.length + 1)) next
        d).1 := by
  obtain ⟨a, inodes, entries, h⟩ := exists_mounted hsb hjournal hcheck
  rw [listDirectoryPage_eq, Except.map_eq_ok] at hpage
  obtain ⟨children, hchildren, hpage⟩ := hpage
  obtain ⟨directory, _, hlisted⟩ := ((h.listDirectory path).2 children).mp hchildren
  -- the page is followed by the entries behind it
  have hsplit : children.drop offset =
      before ++ last :: (children.drop offset).drop (before.length + 1) := by
    have hlen := congrArg List.length hpage
    rw [List.length_take, List.length_append, List.length_singleton] at hlen
    have htake : (children.drop offset).take (before.length + 1) =
        before ++ [last] := by
      rw [← hpage, List.take_eq_take_iff]
      omega
    rw [← List.singleton_append, ← List.append_assoc, ← htake,
      List.take_append_drop]
  have hfilter : (children.filter fun entry =>
      entry.isAfter (some last.name)) =
        children.drop (offset + (before.length + 1)) := by
    have hall := List.take_append_drop offset children
    rw [hsplit, ← List.append_assoc] at hall
    have hsorted := hlisted.sorted
    rw [← hall] at hsorted
    rw [← List.drop_drop, ← filter_isAfter hsorted, hall]
  rw [listDirectoryPageAfterName_eq, listDirectoryPage_eq, hchildren]
  exact congrArg (fun rest => Except.ok (rest.take next)) hfilter

/-- The first page has two of the three entries, the page behind its last name
the third one. -/
theorem directoryPages_continue_forestDisk :
    (listDirectoryPageAtPath treeSuperblock "/" 0 2 forestDisk).1 =
        .ok [⟨"d", 2, .directory⟩, ⟨"e", 4, .directory⟩] ∧
      (listDirectoryPageAfterNameAtPath treeSuperblock "/" (some "e") 2
        forestDisk).1 = .ok [⟨"g", 3, .file⟩] := by
  have hpage : (listDirectoryPageAtPath treeSuperblock "/" 0 2 forestDisk).1 =
      .ok ([⟨"d", 2, .directory⟩] ++ [⟨"e", 4, .directory⟩]) := by
    rw [listDirectoryPage_eq, listDirectoryAtPath_forestDisk]
    rfl
  refine ⟨hpage, ?_⟩
  rw [directoryPages_continue mounted_forestDisk.superblock
    mounted_forestDisk.journal mounted_forestDisk.check hpage 2,
    listDirectoryPage_eq, listDirectoryAtPath_forestDisk]
  rfl

end Listing

end FilesystemLab
