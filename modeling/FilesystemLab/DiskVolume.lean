import FilesystemLab.Mounted
import FilesystemLab.Rename
import FilesystemLab.Volume

/-!
# The volume of a disk

`volumeOf` reads the volume off the tables of a disk, and `resolve_path` finds
what a path stands for in it (`Mounted.resolvePath_eq_ok`): the walk over the
tables, with the loads of the link targets, is the walk over the volume.
-/

namespace FilesystemLab

/-- The contents of a file on a disk. -/
def fileData (d : Disk) (inode : PersistedInode) : FileData :=
  ⟨fileImages d inode, inode.byteLen.toNat⟩

/-- The text of a link on a disk. -/
def linkText (d : Disk) (inode : PersistedInode) : String :=
  match readSymlinkInode d inode with
  | .ok target => target
  | .error _ => ""

/-- The node of an inode. -/
def nodeOf (d : Disk) (inode : PersistedInode) : Node :=
  match inode.kind with
  | .file => .file (fileData d inode)
  | .directory => .directory
  | .symlink => .symlink (linkText d inode)

/-- The volume of two tables. -/
def volumeWith (d : Disk) (inodes : List PersistedInode)
    (entries : List PersistedDirectoryEntry) : Volume where
  node id := (findInode inodes id).map (nodeOf d)
  name := targetOf entries

/-- The volume of a disk. -/
def volumeOf (sb : Superblock) (d : Disk) : Volume :=
  match loadInodeTable d sb, loadDirectoryTable d sb with
  | .ok inodes, .ok entries => volumeWith d inodes entries
  | _, _ => ⟨fun _ => none, fun _ => none⟩

section Nodes

variable {d : Disk} {inode : PersistedInode}

theorem nodeOf_file (h : inode.kind = .file) :
    nodeOf d inode = .file (fileData d inode) := by
  rw [nodeOf, h]

theorem nodeOf_directory (h : inode.kind = .directory) :
    nodeOf d inode = .directory := by
  rw [nodeOf, h]

theorem nodeOf_symlink (h : inode.kind = .symlink) :
    nodeOf d inode = .symlink (linkText d inode) := by
  rw [nodeOf, h]

theorem nodeOf_eq_file {f : FileData} (h : nodeOf d inode = .file f) :
    inode.kind = .file ∧ fileData d inode = f := by
  unfold nodeOf at h
  split at h
  · rename_i hkind
    cases h
    exact ⟨hkind, rfl⟩
  · cases h
  · cases h

theorem nodeOf_eq_directory :
    nodeOf d inode = .directory ↔ inode.kind = .directory := by
  unfold nodeOf
  split <;> simp_all

theorem nodeOf_eq_symlink {target : String} :
    nodeOf d inode = .symlink target ↔
      inode.kind = .symlink ∧ linkText d inode = target := by
  unfold nodeOf
  split <;> simp_all

@[simp] theorem fileData_bytes : (fileData d inode).bytes = fileBytes d inode :=
  rfl

@[simp] theorem fileData_space : (fileData d inode).space = fileSpace d inode :=
  rfl

@[simp] theorem fileData_tail : (fileData d inode).tail = fileTail d inode :=
  rfl

@[simp] theorem fileData_images : (fileData d inode).images = fileImages d inode :=
  rfl

@[simp] theorem fileData_byteLen :
    (fileData d inode).byteLen = inode.byteLen.toNat := rfl

@[simp] theorem fileData_slack :
    (fileData d inode).slack = inode.tailSlack := by
  unfold FileData.slack PersistedInode.tailSlack fileData
  rw [length_fileImages]

end Nodes

theorem AtRest.volume_eq {d : Disk} {sb : Superblock} {a : BlockAllocator}
    {inodes : List PersistedInode} {entries : List PersistedDirectoryEntry}
    (h : AtRest d sb a inodes entries) :
    volumeOf sb d = volumeWith d inodes entries := by
  rw [volumeOf, h.inodeTable, h.directoryTable]

/-! ## Paths -/

section Paths

variable {d : Disk} {sb : Superblock} {a : BlockAllocator}
  {inodes : List PersistedInode} {entries : List PersistedDirectoryEntry}

theorem volumeWith_node {id : UInt64} {n : Node} :
    (volumeWith d inodes entries).node id = some n ↔
      ∃ inode, findInode inodes id = some inode ∧ nodeOf d inode = n :=
  Option.map_eq_some_iff

theorem volumeWith_directory {id : UInt64} :
    (volumeWith d inodes entries).node id = some .directory ↔
      FoundDirectory inodes id := by
  rw [volumeWith_node]
  simp only [nodeOf_eq_directory, FoundDirectory]

/-- The target of a link on a mounted disk. -/
theorem Mounted.readSymlink_eq (h : Mounted d sb a inodes entries)
    {link : PersistedInode} (hmem : link ∈ inodes)
    (hkind : link.kind = .symlink) :
    readSymlink d sb link.id = .ok (linkText d link) := by
  have hpayload := h.payloads link hmem
  rw [validateSymlinkInode, if_neg (not_ne_iff.mpr hkind)] at hpayload
  rw [readSymlink, h.inodeTable, Except.ok_bind,
    findInode_of_mem h.nodup_ids hmem, okOr_some, Except.ok_bind,
    rejectIf_of_not (not_ne_iff.mpr hkind), Except.ok_bind]
  unfold linkText
  cases hread : readSymlinkInode d link with
  | ok target => rfl
  | error e =>
    rw [hread] at hpayload
    cases hpayload

theorem Mounted.parent_iff (h : Mounted d sb a inodes entries)
    {directory parent : UInt64} :
    (volumeWith d inodes entries).Parent directory parent ↔
      UniqueParent inodes entries directory parent := by
  unfold Volume.Parent UniqueParent
  rw [volumeWith_directory]
  have hnames : (∃ text, ∀ key, targetOf entries key = some directory ↔
      key = (parent, text)) ↔ ∃ entry, entry.parent = parent ∧
        (entries.filter fun entry => entry.target = directory) = [entry] := by
    constructor
    · intro hunique
      rcases hunique with ⟨text, htext⟩
      have hentry := mem_of_targetOf ((htext (parent, text)).mpr rfl)
      refine ⟨⟨parent, directory, text⟩, rfl,
        (filter_eq_singleton h.nodup_entries).mpr ⟨hentry, ?_⟩⟩
      intro other hother
      rw [decide_eq_true_eq]
      refine ⟨fun htarget => ?_, by rintro rfl; rfl⟩
      have hkey := targetOf_of_mem h.nodup_keys hother
      rw [htarget, htext] at hkey
      exact h.entry_unique hother hentry (congrArg Prod.fst hkey)
        (congrArg Prod.snd hkey)
    · intro hunique
      rcases hunique with ⟨entry, rfl, hfilter⟩
      rw [filter_eq_singleton h.nodup_entries] at hfilter
      obtain ⟨hmem, honly⟩ := hfilter
      have htarget := of_decide_eq_true ((honly entry hmem).mpr rfl)
      refine ⟨entry.name, fun key => ?_⟩
      rw [targetOf_eq_some h.nodup_keys]
      constructor
      · intro hother
        have hsame := (honly _ hother).mp (by simp)
        rw [← hsame]
      · rintro rfl
        rw [← htarget]
        exact hmem
  show directory = 1 ∧ parent = 1 ∨ _ ∧ _ ∧ (∃ text, ∀ key,
    targetOf entries key = some directory ↔ key = (parent, text)) ↔ _
  rw [hnames]

theorem lists_iff {directory id : UInt64} {text : String} {n : Node} :
    (volumeWith d inodes entries).Lists directory text id n ↔
      ∃ inode, Names inodes entries directory text inode ∧ inode.id = id ∧
        nodeOf d inode = n := by
  unfold Volume.Lists Names
  constructor
  · intro h
    rcases h with ⟨hdot, hdots, hname, hnode⟩
    obtain ⟨inode, hfind, hn⟩ := volumeWith_node.mp hnode
    obtain ⟨entry, hentry, rfl⟩ := Option.map_eq_some_iff.mp hname
    exact ⟨inode, ⟨hdot, hdots, entry, hentry, hfind⟩,
      (findInode_eq_some hfind).2, hn⟩
  · intro h
    rcases h with ⟨inode, ⟨hdot, hdots, entry, hentry, hfind⟩, rfl, hn⟩
    have hid := (findInode_eq_some hfind).2
    rw [← hid] at hfind
    refine ⟨hdot, hdots, ?_, volumeWith_node.mpr ⟨inode, hfind, hn⟩⟩
    show targetOf entries (directory, text) = some inode.id
    rw [targetOf, hentry, hid]
    rfl

theorem Mounted.hop_iff (h : Mounted d sb a inodes entries)
    {directory next : UInt64} {text : String} :
    (volumeWith d inodes entries).Hop directory text next ↔
      Hop inodes entries directory text next := by
  constructor
  · intro hhop
    cases hhop with
    | stay => exact .stay
    | up hparent => exact .up (h.parent_iff.mp hparent)
    | down hlists hkind =>
      obtain ⟨inode, hnames, rfl, rfl⟩ := lists_iff.mp hlists
      exact .down hnames fun hsymlink => hkind _ (nodeOf_symlink hsymlink)
  · intro hhop
    cases hhop with
    | stay => exact .stay
    | up hparent => exact .up (h.parent_iff.mpr hparent)
    | down hnames hkind =>
      refine .down (lists_iff.mpr ⟨_, hnames, rfl, rfl⟩) ?_
      intro target hsymlink
      exact hkind (nodeOf_eq_symlink.mp hsymlink).1

theorem Names.mem {directory : UInt64} {text : String} {inode : PersistedInode}
    (h : Names inodes entries directory text inode) : inode ∈ inodes := by
  obtain ⟨_, _, _, _, hfind⟩ := h
  exact (findInode_eq_some hfind).1

/-- The walk over the volume, by induction on the walk. -/
theorem Mounted.reaches_iff (h : Mounted d sb a inodes entries)
    {keep requires : Bool} {links left : Nat} {directory id : UInt64}
    {components : List String} :
    (volumeWith d inodes entries).Reaches keep requires links directory
        components id left ↔
      Reaches (readSymlink d sb) inodes entries keep requires links directory
        components id left := by
  constructor
  · intro hwalk
    induction hwalk with
    | done hnode hkind =>
      obtain ⟨inode, hfind, rfl⟩ := volumeWith_node.mp hnode
      exact .done hfind fun hrequires =>
        nodeOf_eq_directory.mp (hkind hrequires)
    | hop hdirectory hhop _ ih =>
      exact .hop (volumeWith_directory.mp hdirectory) (h.hop_iff.mp hhop) ih
    | keep hdirectory hlink =>
      obtain ⟨link, hnames, rfl, hn⟩ := lists_iff.mp hlink
      exact .keep (volumeWith_directory.mp hdirectory) hnames
        (nodeOf_eq_symlink.mp hn).1
    | expand hdirectory hlink hopen hparse _ _ ihtarget ihrest =>
      obtain ⟨link, hnames, rfl, hn⟩ := lists_iff.mp hlink
      obtain ⟨hkind, rfl⟩ := nodeOf_eq_symlink.mp hn
      exact .expand (volumeWith_directory.mp hdirectory) hnames hkind hopen
        (h.readSymlink_eq hnames.mem hkind) hparse ihtarget ihrest
  · intro hwalk
    induction hwalk with
    | done hfind hkind =>
      exact .done (volumeWith_node.mpr ⟨_, hfind, rfl⟩) fun hrequires =>
        nodeOf_eq_directory.mpr (hkind hrequires)
    | hop hdirectory hhop _ ih =>
      exact .hop (volumeWith_directory.mpr hdirectory) (h.hop_iff.mpr hhop) ih
    | keep hdirectory hnames hkind =>
      exact .keep (volumeWith_directory.mpr hdirectory)
        (lists_iff.mpr ⟨_, hnames, rfl, nodeOf_symlink hkind⟩)
    | expand hdirectory hnames hkind hopen htext hparse _ _ ihtarget ihrest =>
      have htarget := h.readSymlink_eq hnames.mem hkind
      rw [htext, Except.ok.injEq] at htarget
      subst htarget
      exact .expand (volumeWith_directory.mpr hdirectory)
        (lists_iff.mpr ⟨_, hnames, rfl, nodeOf_symlink hkind⟩) hopen hparse
        ihtarget ihrest

/-- **`resolve_path` finds what the path stands for.** -/
theorem Mounted.resolvePath_eq_ok (h : Mounted d sb a inodes entries)
    {path : String} {follow : Bool} {id : UInt64} :
    resolvePath d sb path follow = .ok id ↔
      (volumeOf sb d).Resolves path follow id := by
  rw [resolvePath_eq_ok_iff h.inodeTable h.directoryTable, h.volume_eq]
  unfold Resolves Volume.Resolves
  simp only [h.reaches_iff]

/-- A path of a mounted disk stands for one node only. -/
theorem Mounted.resolves_unique (h : Mounted d sb a inodes entries)
    {path : String} {follow : Bool} {id other : UInt64}
    (hid : (volumeOf sb d).Resolves path follow id)
    (hother : (volumeOf sb d).Resolves path follow other) : id = other := by
  have hpath := h.resolvePath_eq_ok.mpr hid
  rw [h.resolvePath_eq_ok.mpr hother, Except.ok.injEq] at hpath
  exact hpath.symm

end Paths

/-! ## Disks with the same contents -/

section Contents

variable {d d' : Disk} {sb : Superblock} {a a' : BlockAllocator}
  {inodes inodes' : List PersistedInode}
  {entries entries' : List PersistedDirectoryEntry}
  {inode inode' : PersistedInode}

theorem Disk.readBlock_congr {b : Nat} (hsize : d'.size = d.size)
    (hblock : d'.blocks b = d.blocks b) : readBlock d' b = readBlock d b := by
  show (if _ then _ else _) = if _ then _ else _
  rw [hsize, hblock]

/-- The node of an inode depends on its blocks only. -/
theorem nodeOf_congr (hsize : d'.size = d.size)
    (hblocks : ∀ block ∈ inode.blocks,
      d'.blocks block.toNat = d.blocks block.toNat) :
    nodeOf d' inode = nodeOf d inode := by
  have himages : fileImages d' inode = fileImages d inode :=
    List.map_congr_left hblocks
  have hread : readBlocks d' inode.blocks = readBlocks d inode.blocks :=
    readBlocks_congr fun block hblock =>
      Disk.readBlock_congr hsize (hblocks block hblock)
  unfold nodeOf fileData linkText readSymlinkInode
  rw [himages, hread]

theorem volumeWith_congr (hsize : d'.size = d.size)
    (hblocks : ∀ inode ∈ inodes, ∀ block ∈ inode.blocks,
      d'.blocks block.toNat = d.blocks block.toNat) :
    volumeWith d' inodes entries = volumeWith d inodes entries := by
  refine Volume.ext ?_ rfl
  funext id
  show (findInode inodes id).map _ = (findInode inodes id).map _
  cases hfind : findInode inodes id with
  | none => rfl
  | some inode =>
    have hmem := (findInode_eq_some hfind).1
    exact congrArg some (nodeOf_congr hsize (hblocks inode hmem))

/-- The volume of a table with another inode for a file. -/
theorem volumeWith_setInode (hnodup : (inodes.map PersistedInode.id).Nodup)
    (hmem : inode ∈ inodes)
    (hid : inode'.id = inode.id) (hkind : inode'.kind = .file) :
    volumeWith d (setInode inodes inode') entries =
      (volumeWith d inodes entries).setFile inode.id (fileData d inode') := by
  refine Volume.ext ?_ rfl
  funext id
  by_cases hsame : id = inode.id
  · subst hsame
    rw [Volume.setFile_node_self]
    show (findInode _ _).map _ = _
    rw [findInode_setInode_self hnodup hmem hid]
    exact congrArg some (nodeOf_file hkind)
  · rw [Volume.setFile_node_of_ne _ _ hsame]
    show (findInode _ id).map _ = (findInode _ id).map _
    cases hfind : findInode inodes id with
    | none =>
      have hnone : findInode (setInode inodes inode') id = none := by
        rw [findInode_eq_none] at hfind ⊢
        intro other hother
        rcases (mem_setInode hnodup hmem hid).mp hother with rfl | ⟨hold, _⟩
        · rw [hid]
          exact Ne.symm hsame
        · exact hfind other hold
      rw [hnone]
    | some other =>
      obtain ⟨hother, rfl⟩ := findInode_eq_some hfind
      rw [findInode_setInode_of_ne hnodup hmem hid hother hsame]

theorem Mounted.block_range (h : Mounted d sb a inodes entries)
    (hmem : inode ∈ inodes) {block : UInt64} (hblock : block ∈ inode.blocks) :
    sb.reservedBlocks ≤ block.toNat ∧ block.toNat < sb.totalBlocks := by
  obtain ⟨htotal, hreserved⟩ := h.geometry
  have hrange := BlockAllocator.range_of_flag
    (h.owned.data inode hmem block hblock)
  omega

/-- The home blocks and an empty journal decide what is mounted. -/
theorem Mounted.congr (h : Mounted d sb a inodes entries)
    (hsize : d'.size = d.size) (hvacant : journalOf sb d'.blocks = .ok [])
    (hhome : ∀ b, ¬ sb.journalRange b → d'.blocks b = d.blocks b) :
    Mounted d' sb a inodes entries := by
  have hchecked : Checked d sb a inodes entries :=
    ⟨h.superblock, h.allocator, h.inodeTable, h.owned, h.payloads,
      h.directoryTable, h.tree⟩
  have hsame : Checked d' sb a inodes entries := by
    apply hchecked.congr hsize.symm
    intro b _ hb
    exact (Disk.readBlock_congr hsize (hhome b hb)).symm
  have hsize' : sb.totalBlocks = d'.size := by rw [hsize, h.size]
  refine ⟨⟨hsame.superblock, hsame.allocator, hsame.inodeTable,
    hsame.directoryTable, ?_⟩, hsame.owned, hsame.payloads, hsame.tree⟩
  rw [loadJournalImage_disk hsize']
  exact hvacant

/-- A data block is outside of the journal. -/
theorem not_journalRange_of_reserved {b : Nat} (hb : sb.reservedBlocks ≤ b) :
    ¬ sb.journalRange b := by
  have hlayout := sb.layout
  unfold Superblock.journalRange
  omega

theorem Mounted.volumeOf_congr (h : Mounted d sb a inodes entries)
    (hsize : d'.size = d.size) (hvacant : journalOf sb d'.blocks = .ok [])
    (hhome : ∀ b, ¬ sb.journalRange b → d'.blocks b = d.blocks b) :
    volumeOf sb d' = volumeOf sb d := by
  rw [(h.congr hsize hvacant hhome).volume_eq, h.volume_eq]
  apply volumeWith_congr hsize
  intro inode hmem block hblock
  exact hhome _ (not_journalRange_of_reserved (h.block_range hmem hblock).1)

/-- The volume has a file for an inode of this kind. -/
theorem Mounted.node_file (h : Mounted d sb a inodes entries)
    (hmem : inode ∈ inodes) (hkind : inode.kind = .file) :
    (volumeOf sb d).node inode.id = some (.file (fileData d inode)) := by
  rw [h.volume_eq, volumeWith_node]
  exact ⟨inode, findInode_of_mem h.nodup_ids hmem, nodeOf_file hkind⟩

theorem Mounted.size_eq (h : Mounted d sb a inodes entries)
    (h' : Mounted d' sb a' inodes' entries') : d'.size = d.size := by
  rw [← h.size, ← h'.size]

/-- **The edit of one file** is the update of one file. -/
theorem FileChanged.volumeOf_eq
    (hx : FileChanged sb d d' a' inodes entries inode inode')
    (h : Mounted d sb a inodes entries) (hmem : inode ∈ inodes) :
    volumeOf sb d' =
      (volumeOf sb d).setFile inode.id (fileData d' inode') := by
  rw [hx.mounted.volume_eq, h.volume_eq,
    volumeWith_setInode h.nodup_ids hmem hx.id_eq hx.kind_eq]
  apply Volume.setFile_congr _ (by rfl)
  intro id hid
  show (findInode inodes id).map _ = (findInode inodes id).map _
  cases hfind : findInode inodes id with
  | none => rfl
  | some other =>
    obtain ⟨hother, rfl⟩ := findInode_eq_some hfind
    exact congrArg some (nodeOf_congr (h.size_eq hx.mounted)
      (hx.others other hother hid))

/-- Other tables on the same data blocks. -/
theorem Became.volumeOf_eq (hbecame : Became sb d d' a' inodes' entries' [])
    (h' : Mounted d' sb a' inodes' entries')
    (h : Mounted d sb a inodes entries) :
    volumeOf sb d' = volumeWith d inodes' entries' := by
  rw [h'.volume_eq]
  apply volumeWith_congr (h.size_eq h')
  intro inode hmem block hblock
  exact hbecame.contents _ (h'.block_range hmem hblock).1

end Contents

end FilesystemLab
