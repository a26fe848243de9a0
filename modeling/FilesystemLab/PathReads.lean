import FilesystemLab.DirectoryListing
import FilesystemLab.VolumeCall
import Mathlib.Data.Set.Card

/-!
# Reads of paths

What the calls that read answer, said of a volume: the bytes of a file, the
target of a link, the metadata of a node, and the listing of a directory.  They
change nothing, and answer exactly what the volume has.

Their first parts, and those of the calls that write, are `Entry`s.
-/

namespace FilesystemLab

/-! ## What is read -/

namespace Volume

/-- The path leads to a file. -/
def FileAt (v : Volume) (path : String) (f : FileData) : Prop :=
  ∃ id, v.Resolves path true id ∧ v.node id = some (.file f)

/-- The path leads to a link, which is not followed. -/
def LinkAt (v : Volume) (path target : String) : Prop :=
  ∃ id, v.Resolves path false id ∧ v.node id = some (.symlink target)

/-- The node has this kind and this size, and this many names. -/
structure Measures (v : Volume) (id : UInt64) (kind : InodeKind)
    (logicalBlocks byteLen references : Nat) : Prop where
  node : ∃ n, v.node id = some n ∧ n.kind = kind
  file : ∀ f, v.node id = some (.file f) →
    logicalBlocks = f.images.length ∧ byteLen = f.byteLen
  references_eq : references = {key | v.name key = some id}.ncard

/-- The metadata is that of the node that the path leads to. -/
structure Describes (v : Volume) (path : String) (follow : Bool)
    (m : PathMetadata) : Prop extends v.Measures m.inodeId m.kind
      m.logicalBlocks m.byteLen.toNat m.namespaceReferences where
  resolves : v.Resolves path follow m.inodeId

/-- A described file. -/
theorem Describes.exists_file {v : Volume} {path : String} {follow : Bool}
    {m : PathMetadata} (hm : v.Describes path follow m) (hkind : m.kind = .file) :
    ∃ f, v.node m.inodeId = some (.file f) ∧
      m.logicalBlocks = f.images.length ∧ m.byteLen.toNat = f.byteLen := by
  obtain ⟨n, hn, hnkind⟩ := hm.node
  rw [hkind] at hnkind
  cases n with
  | file f => exact ⟨f, hn, hm.file f hn⟩
  | directory => cases hnkind
  | symlink target => cases hnkind

end Volume

section Mounted

variable {d : Disk} {sb : Superblock} {a : BlockAllocator}
  {inodes : List PersistedInode} {entries : List PersistedDirectoryEntry}
  {path : String} {id : UInt64}

/-- What a path leads to is an inode. -/
theorem Mounted.exists_inode (h : Mounted d sb a inodes entries) {follow : Bool}
    (hpath : (volumeOf sb d).Resolves path follow id) :
    ∃ inode ∈ inodes, inode.id = id ∧
      (volumeOf sb d).node id = some (nodeOf d inode) := by
  obtain ⟨n, hn⟩ := hpath.exists_node
  rw [h.volume_eq] at hn ⊢
  obtain ⟨inode, hfind, rfl⟩ := volumeWith_node.mp hn
  exact ⟨inode, (findInode_eq_some hfind).1, (findInode_eq_some hfind).2, hn⟩

/-- The file of an inode. -/
theorem Mounted.exists_file (h : Mounted d sb a inodes entries) {f : FileData}
    (hnode : (volumeOf sb d).node id = some (.file f)) :
    ∃ inode ∈ inodes, inode.id = id ∧ inode.kind = .file ∧
      fileData d inode = f := by
  rw [h.volume_eq] at hnode
  obtain ⟨inode, hfind, hn⟩ := volumeWith_node.mp hnode
  obtain ⟨hmem, hid⟩ := findInode_eq_some hfind
  exact ⟨inode, hmem, hid, nodeOf_eq_file hn⟩

/-- The names of an inode are its entries. -/
theorem Mounted.ncard_names (h : Mounted d sb a inodes entries) (id : UInt64) :
    {key | (volumeOf sb d).name key = some id}.ncard =
      (entries.filter fun entry => entry.target = id).length := by
  have hnodup : ((entries.filter fun entry => entry.target = id).map
      directoryFormat.key).Nodup :=
    h.nodup_keys.sublist ((List.filter_sublist).map _)
  have hset : {key | (volumeOf sb d).name key = some id} =
      ((entries.filter fun entry => entry.target = id).map
        directoryFormat.key).toFinset := by
    ext key
    rw [Finset.mem_coe, List.mem_toFinset, List.mem_map, Set.mem_ofPred_eq,
      h.volume_eq]
    show targetOf entries key = some id ↔ _
    rw [targetOf_eq_some h.nodup_keys]
    constructor
    · intro hentry
      refine ⟨_, List.mem_filter.mpr ⟨hentry, decide_eq_true rfl⟩, rfl⟩
    · intro hentry
      obtain ⟨entry, hentry, rfl⟩ := hentry
      rw [List.mem_filter, decide_eq_true_eq] at hentry
      obtain ⟨hentry, rfl⟩ := hentry
      exact hentry
  rw [hset, Set.ncard_coe_finset, List.toFinset_card_of_nodup hnodup,
    List.length_map]

/-- The inodes of a mounted disk measure its nodes. -/
theorem Mounted.measures (h : Mounted d sb a inodes entries)
    {inode : PersistedInode} (hmem : inode ∈ inodes) :
    (volumeOf sb d).Measures inode.id inode.kind inode.blocks.length
      inode.byteLen.toNat (referencesTo entries inode.id) := by
  refine ⟨⟨nodeOf d inode, ?_, nodeOf_kind d inode⟩, ?_, (h.ncard_names _).symm⟩
  · rw [h.volume_eq]
    exact volumeWith_node.mpr ⟨inode, findInode_of_mem h.nodup_ids hmem, rfl⟩
  · intro f hf
    obtain ⟨other, hother, hid, _, rfl⟩ := h.exists_file hf
    obtain rfl := List.inj_on_of_nodup_map h.nodup_ids hother hmem hid
    exact ⟨(length_fileImages d other).symm, rfl⟩

/-- The metadata of an inode are those of its node. -/
theorem Mounted.describes (h : Mounted d sb a inodes entries) {follow : Bool}
    {m : PathMetadata} (hpath : (volumeOf sb d).Resolves path follow id)
    (hload : FilesystemLab.metadataForInode d sb id = .ok m) :
    (volumeOf sb d).Describes path follow m := by
  obtain ⟨inode, hmem, rfl, _⟩ := h.exists_inode hpath
  rw [h.metadataForInode hmem, Except.ok.injEq] at hload
  subst hload
  exact ⟨h.measures hmem, hpath⟩

end Mounted

/-! ## First parts -/

section Entry

variable (sb : Superblock) (path : String)

theorem finds_path : Finds sb (Effect.query (resolvePathFollowingSymlinks · sb path))
    fun v id => v.Resolves path true id :=
  finds_query fun h hpath => h.resolvePath_eq_ok.mp hpath

theorem entry_enterPath :
    Entry sb (enterPath sb path) fun v id => v.Resolves path true id :=
  (finds_path sb path).entry

theorem entry_enterPathChecked :
    Entry sb (enterPathChecked sb path) fun v id => v.Resolves path true id :=
  (finds_path sb path).entryChecked

theorem entry_enterPaths (first second : String) :
    Entry sb (enterPaths sb first second) fun v ids =>
      v.Resolves first true ids.1 ∧ v.Resolves second true ids.2 := by
  apply Finds.entry
  apply (finds_path sb first).bind
  intro firstInode
  refine ⟨fun d => Effect.bind_snd_of_unchanged rfl fun _ => rfl, ?_⟩
  intro d a inodes entries ids h hrun hfirst
  rw [Effect.query_bind] at hrun
  split at hrun
  · rename_i secondInode hsecond
    obtain rfl : (firstInode, secondInode) = ids := Except.ok.inj hrun
    exact ⟨hfirst, h.resolvePath_eq_ok.mp hsecond⟩
  · cases hrun

/-- A path, and what one read finds for its node. -/
theorem entry_resolved {β : Type} {resolve : Disk → Result UInt64}
    {follow : Bool} (hresolve : ∀ d, resolve d = resolvePath d sb path follow)
    {q : UInt64 → Disk → Result β} {good : Volume → β → Prop}
    (hq : ∀ {d a inodes entries id b}, Mounted d sb a inodes entries →
      (volumeOf sb d).Resolves path follow id → q id d = .ok b →
        good (volumeOf sb d) b) :
    Entry sb (recoverJournalAndCheckpointChecked sb >>= fun _ =>
      Effect.query resolve >>= fun id => Effect.query (q id)) good := by
  apply Finds.entryChecked
  refine ⟨fun d => Effect.bind_snd_of_unchanged rfl fun _ => rfl, ?_⟩
  intro d a inodes entries b h hrun
  rw [Effect.query_bind] at hrun
  split at hrun
  · rename_i id hid
    rw [hresolve] at hid
    exact hq h (h.resolvePath_eq_ok.mp hid) hrun
  · cases hrun

theorem entry_metadataAtPath :
    Entry sb (metadataAtPath sb path) fun v m => v.Describes path true m :=
  entry_resolved sb path (fun _ => rfl) fun h hpath hload =>
    h.describes hpath hload

theorem entry_symlinkMetadataAtPath :
    Entry sb (symlinkMetadataAtPath sb path)
      fun v m => v.Describes path false m :=
  entry_resolved sb path (fun _ => rfl) fun h hpath hload =>
    h.describes hpath hload

end Entry

/-! ## The calls that read -/

section Reads

variable {d : Disk} {sb : Superblock} {a : BlockAllocator}
  {inodes : List PersistedInode} {entries : List PersistedDirectoryEntry}

/-- One read of the node of a path. -/
theorem Mounted.query_path_eq_ok (h : Mounted d sb a inodes entries) {β : Type}
    {resolve : Disk → Result UInt64} {path : String} (follow : Bool)
    (hresolve : resolve d = resolvePath d sb path follow)
    {q : UInt64 → Disk → Result β} {b : β} :
    ((recoverJournalAndCheckpointChecked sb >>= fun _ =>
      Effect.query resolve >>= fun id => Effect.query (q id)) d).1 = .ok b ↔
      ∃ id, (volumeOf sb d).Resolves path follow id ∧ q id d = .ok b := by
  rw [Effect.bind_of_ok h.recoverChecked, Effect.query_bind, hresolve]
  cases hpath : resolvePath d sb path follow with
  | error e =>
    refine iff_of_false nofun ?_
    intro hfound
    obtain ⟨id, hid, _⟩ := hfound
    rw [← h.resolvePath_eq_ok, hpath] at hid
    cases hid
  | ok id =>
    have hid := h.resolvePath_eq_ok.mp hpath
    constructor
    · intro hb
      exact ⟨id, hid, hb⟩
    · intro hfound
      obtain ⟨other, hother, hb⟩ := hfound
      obtain rfl := h.resolves_unique hother hid
      exact hb

/-- **`read_file_range_at_path` reads the bytes of its range.** -/
theorem Mounted.readFileRangeAtPath (h : Mounted d sb a inodes entries)
    {path : String} {firstBlock offset len : Nat} {bytes : List UInt8} :
    (FilesystemLab.readFileRangeAtPath sb path firstBlock offset len d).1 =
        .ok bytes ↔
      len ≠ 0 ∧ offset < BLOCK_SIZE ∧
        ∃ f, (volumeOf sb d).FileAt path f ∧
          firstBlock * BLOCK_SIZE + offset + len ≤ f.byteLen ∧
          bytes = (f.bytes.drop (firstBlock * BLOCK_SIZE + offset)).take len := by
  rw [FilesystemLab.readFileRangeAtPath, enterPathChecked, Effect.bind_assoc,
    h.query_path_eq_ok true rfl]
  constructor
  · intro hread
    obtain ⟨id, hpath, hread⟩ := hread
    obtain ⟨inode, hmem, rfl, hkind⟩ := h.of_readFileRange hread
    rw [h.readFileRange_iff hmem hkind] at hread
    obtain ⟨hlen, hoffset, hend, hbytes⟩ := hread
    exact ⟨hlen, hoffset, fileData d inode,
      ⟨_, hpath, h.node_file hmem hkind⟩, hend, hbytes⟩
  · intro hread
    obtain ⟨hlen, hoffset, f, ⟨id, hpath, hnode⟩, hend, hbytes⟩ := hread
    obtain ⟨inode, hmem, rfl, hkind, rfl⟩ := h.exists_file hnode
    refine ⟨_, hpath, ?_⟩
    rw [h.readFileRange_iff hmem hkind]
    exact ⟨hlen, hoffset, hend, hbytes⟩

/-- **`read_file_blocks_at_path` reads the bytes of its file.** -/
theorem Mounted.readWhole (h : Mounted d sb a inodes entries) {path : String}
    {bytes : List UInt8} :
    (FilesystemLab.readFileBlocksAtPath sb path d).1 = .ok bytes ↔
      ∃ f, (volumeOf sb d).FileAt path f ∧ bytes = f.bytes := by
  constructor
  · intro hread
    have hread' := hread
    rw [FilesystemLab.readFileBlocksAtPath, Effect.bind_of_ok h.recoverChecked,
      Effect.query_bind] at hread
    split at hread
    · rename_i id hid
      rw [h.inodes_bind, Effect.lift_bind] at hread
      split at hread
      · rename_i inode hfile
        obtain ⟨hmem, hkind, rfl⟩ := of_requireFile hfile
        rw [h.readFileBlocksAtPath hmem hkind hid, Except.ok.injEq] at hread'
        exact ⟨_, ⟨_, h.resolvePath_eq_ok.mp hid, h.node_file hmem hkind⟩,
          hread'.symm⟩
      · cases hread
    · cases hread
  · intro hread
    obtain ⟨f, ⟨id, hpath, hnode⟩, rfl⟩ := hread
    obtain ⟨inode, hmem, rfl, hkind, rfl⟩ := h.exists_file hnode
    rw [h.readFileBlocksAtPath hmem hkind (h.resolvePath_eq_ok.mpr hpath)]
    rfl

/-- **`read_symlink_at_path` reads the target of its link.** -/
theorem Mounted.readSymlinkAtPath (h : Mounted d sb a inodes entries)
    {path target : String} :
    (FilesystemLab.readSymlinkAtPath sb path d).1 = .ok target ↔
      (volumeOf sb d).LinkAt path target := by
  rw [FilesystemLab.readSymlinkAtPath, h.query_path_eq_ok false rfl]
  unfold Volume.LinkAt
  constructor
  · intro hread
    obtain ⟨id, hpath, hread⟩ := hread
    obtain ⟨inode, hmem, rfl, hnode⟩ := h.exists_inode hpath
    refine ⟨_, hpath, ?_⟩
    have hkind : inode.kind = .symlink := by
      rw [readSymlink, h.inodeTable, Except.ok_bind,
        findInode_of_mem h.nodup_ids hmem, okOr_some, Except.ok_bind,
        Except.bind_eq_ok] at hread
      obtain ⟨_, hkind, _⟩ := hread
      rw [rejectIf_eq_ok, not_ne_iff] at hkind
      exact hkind
    rw [h.readSymlink_eq hmem hkind, Except.ok.injEq] at hread
    rw [hnode, nodeOf_symlink hkind, hread]
  · intro hlink
    obtain ⟨id, hpath, hnode⟩ := hlink
    obtain ⟨inode, hmem, rfl, hnode'⟩ := h.exists_inode hpath
    rw [hnode', Option.some.injEq, nodeOf_eq_symlink] at hnode
    refine ⟨_, hpath, ?_⟩
    rw [h.readSymlink_eq hmem hnode.1, hnode.2]

end Reads

/-! ### All of them -/

/-- What a call answers. -/
inductive Reply where
  | done
  | bytes (data : List UInt8)
  | target (text : String)
  | metadata (m : PathMetadata)
  | listing (children : List PathDirectoryEntry)
  | listingWithMetadata (children : List PathDirectoryEntryMetadata)

/-- The calls that read, with their arguments. -/
inductive ReadCall where
  | fileRange (path : String) (firstBlock offset len : Nat)
  | file (path : String)
  | symlink (path : String)
  | metadata (path : String)
  | symlinkMetadata (path : String)
  | list (path : String)
  | listPage (path : String) (offset limit : Nat)
  | listPageAfterName (path : String) (afterName : Option String) (limit : Nat)
  | readDir (path : String)
  | listWithMetadata (path : String)

namespace ReadCall

/-- The call. -/
def run (sb : Superblock) : ReadCall → DevM Disk Reply
  | fileRange path firstBlock offset len => do
    let data ← readFileRangeAtPath sb path firstBlock offset len
    pure (.bytes data)
  | file path => do
    let data ← readFileBlocksAtPath sb path
    pure (.bytes data)
  | symlink path => do
    let text ← readSymlinkAtPath sb path
    pure (.target text)
  | metadata path => do
    let m ← metadataAtPath sb path
    pure (.metadata m)
  | symlinkMetadata path => do
    let m ← symlinkMetadataAtPath sb path
    pure (.metadata m)
  | list path => do
    let children ← listDirectoryAtPath sb path
    pure (.listing children)
  | listPage path offset limit => do
    let children ← listDirectoryPageAtPath sb path offset limit
    pure (.listing children)
  | listPageAfterName path afterName limit => do
    let children ← listDirectoryPageAfterNameAtPath sb path afterName limit
    pure (.listing children)
  | readDir path => do
    let children ← readDirAtPath sb path
    pure (.listing children)
  | listWithMetadata path => do
    let children ← listDirectoryWithMetadataAtPath sb path
    pure (.listingWithMetadata children)

/-- What the volume has to answer. -/
def Answers (v : Volume) (reply : Reply) : ReadCall → Prop
  | fileRange path firstBlock offset len => ∃ f, v.FileAt path f ∧
      firstBlock * BLOCK_SIZE + offset + len ≤ f.byteLen ∧
      reply = .bytes
        ((f.bytes.drop (firstBlock * BLOCK_SIZE + offset)).take len)
  | file path => ∃ f, v.FileAt path f ∧ reply = .bytes f.bytes
  | symlink path => ∃ text, v.LinkAt path text ∧ reply = .target text
  | metadata path => ∃ m, v.Describes path true m ∧ reply = .metadata m
  | symlinkMetadata path => ∃ m, v.Describes path false m ∧ reply = .metadata m
  | list path | readDir path =>
    ∃ children, v.Listing path children ∧ reply = .listing children
  | listPage path offset limit => ∃ children, v.Listing path children ∧
      reply = .listing ((children.drop offset).take limit)
  | listPageAfterName path afterName limit =>
    ∃ children, v.Listing path children ∧ reply = .listing
      ((children.filter fun entry => entry.isAfter afterName).take limit)
  | listWithMetadata path => ∃ children,
      v.Listing path (children.map PathDirectoryEntryMetadata.entry) ∧
      (∀ child ∈ children, v.Measures child.inodeId child.kind
        child.logicalBlocks child.byteLen.toNat child.namespaceReferences) ∧
      reply = .listingWithMetadata children

end ReadCall

section ReadCalls

variable {sb : Superblock} {β γ : Type}

/-- A first part that hands on what it finds in another form. -/
theorem Entry.map {enter : DevM Disk β} {good : Volume → β → Prop}
    {good' : Volume → γ → Prop} (he : Entry sb enter good) {f : β → γ}
    (hf : ∀ v b, good v b → good' v (f b)) :
    Entry sb (enter >>= fun b => pure (f b)) good' where
  entered hd := (he.entered hd).bind _
  unchanged := by
    intro d hsize hvacant
    exact Effect.bind_snd_of_unchanged (he.unchanged hsize hvacant) fun _ => rfl
  finds := by
    intro d a inodes entries h
    apply (he.finds h).bind_unchanged
    intro b hgood
    exact Effect.atomic_pure ⟨rfl, hf _ b hgood⟩

theorem entry_readFileRangeAtPath (path : String)
    (firstBlock offset len : Nat) :
    Entry sb (readFileRangeAtPath sb path firstBlock offset len)
      fun v data => ∃ f, v.FileAt path f ∧
        firstBlock * BLOCK_SIZE + offset + len ≤ f.byteLen ∧
        data = (f.bytes.drop (firstBlock * BLOCK_SIZE + offset)).take len := by
  have hassoc : readFileRangeAtPath (σ := Disk) sb path firstBlock offset len =
      recoverJournalAndCheckpointChecked sb >>= fun _ =>
        Effect.query (resolvePathFollowingSymlinks · sb path) >>= fun id =>
          Effect.query (readFileRange · sb id firstBlock offset len) := by
    rw [readFileRangeAtPath, enterPathChecked, Effect.bind_assoc]
  rw [hassoc]
  apply entryChecked_of
  · exact fun d => Effect.bind_snd_of_unchanged rfl fun _ => rfl
  · intro d a inodes entries data h hrun
    rw [← hassoc, h.readFileRangeAtPath] at hrun
    exact hrun.2.2

theorem entry_readFileBlocksAtPath (path : String) :
    Entry sb (readFileBlocksAtPath sb path)
      fun v data => ∃ f, v.FileAt path f ∧ data = f.bytes := by
  apply entryChecked_of
  · intro d
    refine Effect.bind_snd_of_unchanged rfl fun id => ?_
    refine Effect.bind_snd_of_unchanged rfl fun inodes => ?_
    refine Effect.bind_snd_of_unchanged rfl fun inode => ?_
    split <;> rfl
  · exact fun h hrun => h.readWhole.mp hrun

theorem entry_readSymlinkAtPath (path : String) :
    Entry sb (readSymlinkAtPath sb path) fun v text => v.LinkAt path text := by
  apply entryChecked_of
  · exact fun d => Effect.bind_snd_of_unchanged rfl fun _ => rfl
  · exact fun h hrun => h.readSymlinkAtPath.mp hrun

theorem entry_listDirectoryAtPath (path : String) :
    Entry sb (listDirectoryAtPath sb path)
      fun v children => v.Listing path children := by
  apply entryChecked_of
  · intro d
    refine Effect.bind_snd_of_unchanged rfl fun id => ?_
    refine Effect.bind_snd_of_unchanged rfl fun inodes => ?_
    refine Effect.bind_snd_of_unchanged rfl fun directory => ?_
    refine Effect.bind_snd_of_unchanged rfl fun _ => ?_
    refine Effect.bind_snd_of_unchanged rfl fun entries => ?_
    exact Effect.bind_snd_of_unchanged rfl fun _ => rfl
  · exact fun h hrun => ((h.listDirectory path).2 _).mp hrun

theorem entry_listDirectoryPageAtPath (path : String) (offset limit : Nat) :
    Entry sb (listDirectoryPageAtPath sb path offset limit) fun v page =>
      ∃ children, v.Listing path children ∧
        page = (children.drop offset).take limit :=
  (entry_listDirectoryAtPath path).map fun _ children h => ⟨children, h, rfl⟩

theorem entry_listDirectoryPageAfterNameAtPath (path : String)
    (afterName : Option String) (limit : Nat) :
    Entry sb (listDirectoryPageAfterNameAtPath sb path afterName limit)
      fun v page => ∃ children, v.Listing path children ∧ page =
        (children.filter fun entry => entry.isAfter afterName).take limit :=
  (entry_listDirectoryAtPath path).map fun _ children h => ⟨children, h, rfl⟩

theorem entry_readDirAtPath (path : String) :
    Entry sb (readDirAtPath sb path)
      fun v children => v.Listing path children := by
  apply entryChecked_of
  · intro d
    refine Effect.bind_snd_of_unchanged rfl fun id => ?_
    refine Effect.bind_snd_of_unchanged rfl fun inodes => ?_
    exact Effect.bind_snd_of_unchanged rfl fun entries => rfl
  · exact fun h hrun => ((h.readDir path).2 _).mp hrun

theorem entry_listDirectoryWithMetadataAtPath (path : String) :
    Entry sb (listDirectoryWithMetadataAtPath sb path) fun v children =>
      v.Listing path (children.map PathDirectoryEntryMetadata.entry) ∧
        ∀ child ∈ children, v.Measures child.inodeId child.kind
          child.logicalBlocks child.byteLen.toNat child.namespaceReferences := by
  apply entryChecked_of
  · intro d
    refine Effect.bind_snd_of_unchanged rfl fun _ => ?_
    refine Effect.bind_snd_of_unchanged rfl fun id => ?_
    refine Effect.bind_snd_of_unchanged rfl fun inodes => ?_
    exact Effect.bind_snd_of_unchanged rfl fun entries => rfl
  · intro d a inodes entries children h hrun
    obtain ⟨directory, hpath, hdirectory, henum⟩ :=
      h.of_listDirectoryWithMetadata hrun
    refine ⟨⟨directory, hpath, h.listedBy_enumerates hdirectory henum⟩, ?_⟩
    intro child hchild
    obtain ⟨⟨inode, hmem, hid, hkind, hblocks, hbytes⟩, hreferences⟩ :=
      henum.described child hchild
    have hlen : inode.byteLen = child.byteLen := by
      rw [PersistedInode.canonicalByteLen, liftMessage_eq_ok.mpr
        (h.validate hmem), Except.ok.injEq] at hbytes
      exact hbytes
    rw [hkind, hblocks, hreferences, ← hid, ← hlen]
    exact h.measures hmem

/-- **The calls that read answer what the volume has.** -/
theorem entry_readCall (call : ReadCall) :
    Entry sb (call.run sb) fun v reply => call.Answers v reply := by
  cases call with
  | fileRange path firstBlock offset len =>
    apply (entry_readFileRangeAtPath path firstBlock offset len).map
    intro v data hfound
    obtain ⟨f, hfile, hend, rfl⟩ := hfound
    exact ⟨f, hfile, hend, rfl⟩
  | file path =>
    apply (entry_readFileBlocksAtPath path).map
    intro v data hfound
    obtain ⟨f, hfile, rfl⟩ := hfound
    exact ⟨f, hfile, rfl⟩
  | symlink path =>
    exact (entry_readSymlinkAtPath path).map fun _ text h => ⟨text, h, rfl⟩
  | metadata path =>
    exact (entry_metadataAtPath sb path).map fun _ m h => ⟨m, h, rfl⟩
  | symlinkMetadata path =>
    exact (entry_symlinkMetadataAtPath sb path).map fun _ m h => ⟨m, h, rfl⟩
  | list path =>
    exact (entry_listDirectoryAtPath path).map fun _ children h =>
      ⟨children, h, rfl⟩
  | listPage path offset limit =>
    apply (entry_listDirectoryPageAtPath path offset limit).map
    intro v page hpage
    obtain ⟨children, hlisting, rfl⟩ := hpage
    exact ⟨children, hlisting, rfl⟩
  | listPageAfterName path afterName limit =>
    apply (entry_listDirectoryPageAfterNameAtPath path afterName limit).map
    intro v page hpage
    obtain ⟨children, hlisting, rfl⟩ := hpage
    exact ⟨children, hlisting, rfl⟩
  | readDir path =>
    exact (entry_readDirAtPath path).map fun _ children h => ⟨children, h, rfl⟩
  | listWithMetadata path =>
    exact (entry_listDirectoryWithMetadataAtPath path).map fun _ children h =>
      ⟨children, h.1, h.2, rfl⟩

end ReadCalls

end FilesystemLab
