import FilesystemLab.NameVolume
import FilesystemLab.OneTransaction
import FilesystemLab.PathNames
import FilesystemLab.PathReads

/-!
# Calls that make a node

The functions that make a file, a directory or a link at a path, also by copying
another one, on a mounted disk and on volumes: each makes one node under a fresh
identifier, with one name, and changes nothing else.
-/

namespace FilesystemLab

open Bytes Splice

/-! ## What the functions leave -/

/-- The disk `d'` is `d` with a new file at the path, whose blocks hold `data`
and whose length is `byteLen`. -/
def NewFile (sb : Superblock) (d d' : Disk) (a : BlockAllocator)
    (inodes : List PersistedInode) (entries : List PersistedDirectoryEntry)
    (destination : String) (id : UInt64) (data : List Block) (byteLen : Nat) :
    Prop :=
  ∃ inode, inode.id = id ∧ inode.kind = .file ∧
    inode.byteLen.toNat = byteLen ∧
    CreatedWith createSplit sb d d' a inodes entries destination inode data

section Files

variable {d d' : Disk} {sb : Superblock} {a : BlockAllocator}
  {inodes : List PersistedInode} {entries : List PersistedDirectoryEntry}

/-- `create_empty_file_at_path_journaled` on a mounted disk. -/
theorem Mounted.createEmptyFile (h : Mounted d sb a inodes entries)
    (destination : String) :
    Effect.Atomic (createEmptyFileAtPathJournaled sb destination) d fun r d' =>
      NewFile sb d d' a inodes entries destination r.1 [] 0 := by
  apply (h.createBlockless_with destination (by decide)).mono
  intro r d' hpost
  obtain ⟨inode, hid, hkind, hlen, hcreated⟩ := hpost
  exact ⟨inode, hid, hkind, by rw [hlen]; rfl, hcreated⟩

/-- `create_one_block_file_at_path_journaled` on a mounted disk. -/
theorem Mounted.createOneBlockFile (h : Mounted d sb a inodes entries)
    (destination : String) (data : Block) :
    Effect.Atomic (createOneBlockFileAtPathJournaled sb destination data) d
      fun r d' => NewFile sb d d' a inodes entries destination r.1 [data]
        BLOCK_SIZE := by
  apply Effect.atomic_lift_bind
  intro parts hsplit
  apply Effect.atomic_bind_of_ok h.recoverChecked
  apply Effect.atomic_query_bind
  intro parent hparent
  apply h.atomic_allocator
  apply h.atomic_inodes
  apply h.atomic_entries
  apply Effect.atomic_lift_bind
  intro _ hvalid
  apply Effect.atomic_lift_bind
  intro id _
  apply Effect.atomic_lift_bind
  intro taken htaken
  rw [liftInput_eq_ok] at htaken
  have htotal := h.geometry.1
  have hlayout := sb.layout
  have htakes := takes_of_allocate htaken (by omega)
  apply Effect.atomic_lift_bind
  intro _ _
  apply Effect.atomic_lift_bind
  intro inode hinode
  have hlen := PersistedInode.byteLen_of_new_file hinode
  obtain ⟨rfl, hkind, hblocks, hcanonical⟩ := PersistedInode.new_eq_ok hinode
  have hone : inode.blocks.length = [data].length := by rw [hblocks]; rfl
  have hstore := h.storeNewFile hsplit hparent hvalid hkind hcanonical
    (by rw [hblocks]; exact htakes) hone
    (by rw [hblocks]; exact h.reserved_le_of_takes htakes)
  rw [hblocks] at hstore
  apply hstore.bind
  intro report d' hcreated
  refine ⟨_, _, rfl, inode, rfl, hkind, ?_, hcreated⟩
  rw [hlen, List.length_singleton, Nat.one_mul]

/-- `create_file_with_blocks_at_path_journaled` on a mounted disk. -/
theorem Mounted.createFullFile (h : Mounted d sb a inodes entries)
    (destination : String) (data : List Block) :
    Effect.Atomic (createFileWithBlocksAtPathJournaled sb destination data) d
      fun r d' => NewFile sb d d' a inodes entries destination r.1 data
        (data.length * BLOCK_SIZE) := by
  apply Effect.atomic_lift_bind
  intro byteLen hlen
  rw [okOr_eq_ok, checkedMul_eq_some] at hlen
  obtain ⟨hlt, rfl⟩ := hlen
  apply (h.createFileWithBlocksAndSize_with destination data _).mono
  intro r d' hpost
  obtain ⟨inode, hid, hkind, hlen, hcreated⟩ := hpost
  refine ⟨inode, hid, hkind, ?_, hcreated⟩
  rw [hlen]
  exact UInt64.toNat_ofNat_of_lt' hlt

/-- `create_contiguous_file_with_blocks_at_path_journaled` on a mounted disk. -/
theorem Mounted.createContiguousFile (h : Mounted d sb a inodes entries)
    (destination : String) (data : List Block) :
    Effect.Atomic
      (createContiguousFileWithBlocksAtPathJournaled sb destination data) d
      fun r d' => NewFile sb d d' a inodes entries destination r.1 data
        (data.length * BLOCK_SIZE) := by
  apply Effect.atomic_lift_bind
  intro _ _
  apply Effect.atomic_lift_bind
  intro parts hsplit
  apply Effect.atomic_bind_of_ok h.recoverChecked
  apply Effect.atomic_query_bind
  intro parent hparent
  apply h.atomic_allocator
  apply h.atomic_inodes
  apply h.atomic_entries
  apply Effect.atomic_lift_bind
  intro _ hvalid
  apply Effect.atomic_lift_bind
  intro _ _
  apply Effect.atomic_lift_bind
  intro id _
  apply Effect.atomic_lift_bind
  intro taken htaken
  obtain ⟨htakes, hlength, _⟩ := allocateRun_eq_ok htaken
  apply Effect.atomic_lift_bind
  intro _ _
  apply Effect.atomic_lift_bind
  intro inode hinode
  have hlen := PersistedInode.byteLen_of_new_file hinode
  obtain ⟨rfl, hkind, hblocks, hcanonical⟩ := PersistedInode.new_eq_ok hinode
  have hblocks : inode.blocks = taken.1 := hblocks
  rw [← hblocks] at htakes hlength hlen ⊢
  apply (h.storeNewFile hsplit hparent hvalid hkind hcanonical htakes hlength
    (h.reserved_le_of_takes htakes)).bind
  intro report d' hcreated
  refine ⟨_, _, rfl, inode, rfl, hkind, ?_, hcreated⟩
  rw [hlen, hlength]

/-- The blocks that the clones of blocks read, on a mounted disk. -/
theorem Mounted.snapshotAtPath (h : Mounted d sb a inodes entries)
    (overflow source : String) {first count : Nat} :
    Effect.Atomic
      (FilesystemLab.snapshotAtPath overflow sb source first count) d
      fun blocks d' => d' = d ∧ ∃ f, (volumeOf sb d).FileAt source f ∧
        count ≠ 0 ∧ (first + count) * BLOCK_SIZE ≤ f.byteLen ∧
        blocks = segment f.images first (first + count) := by
  apply Effect.atomic_lift_bind
  intro byteLen hlen
  rw [okOr_eq_ok] at hlen
  unfold enterPathChecked
  rw [Effect.bind_assoc]
  apply Effect.atomic_bind_of_ok h.recoverChecked
  apply Effect.atomic_query_bind
  intro id hid
  apply Effect.atomic_query_bind
  intro bytes hbytes
  apply Effect.atomic_pure
  refine ⟨rfl, ?_⟩
  have hsnapshot : snapshotBlocks d sb id first count =
      .ok (chunksExact bytes) := by
    rw [snapshotBlocks, hlen, okOr_some, Except.ok_bind, hbytes]
    rfl
  obtain ⟨inode, hmem, rfl, hkind⟩ := h.of_snapshotBlocks hsnapshot
  obtain ⟨hcount, hinside, hblocks⟩ :=
    (h.snapshotBlocks_eq_ok hmem hkind).mp hsnapshot
  exact ⟨fileData d inode, ⟨inode.id, h.resolvePath_eq_ok.mp hid,
    h.node_file hmem hkind⟩, hcount, hinside, hblocks⟩

end Files

/-! ## What is made -/

/-- The functions that make a node, with what they make it of. -/
inductive NewNode where
  | emptyFile
  | oneBlockFile (data : Block)
  | fileWithBlocks (data : List Block)
  | contiguousFileWithBlocks (data : List Block)
  | directory
  | symlink (target : String)
  | cloneFile (source : String)
  | cloneFileBlocks (source : String) (first count : Nat)
  | cloneFileBlocksContiguous (source : String) (first count : Nat)
  | cloneSymlink (source : String)

namespace NewNode

/-- A call of one of the functions, with the new inode as its reply. -/
def run (sb : Superblock) (path : String) :
    NewNode → DevM Disk (UInt64 × RecoveryReport)
  | emptyFile => createEmptyFileAtPathJournaled sb path
  | oneBlockFile data => createOneBlockFileAtPathJournaled sb path data
  | fileWithBlocks data => createFileWithBlocksAtPathJournaled sb path data
  | contiguousFileWithBlocks data =>
    createContiguousFileWithBlocksAtPathJournaled sb path data
  | directory => createDirectoryAtPathJournaled sb path
  | symlink target => createSymlinkAtPathJournaled sb path target
  | cloneFile source => cloneFileToPathJournaled sb source path
  | cloneFileBlocks source first count =>
    cloneFileBlocksToPathJournaled sb source first count path
  | cloneFileBlocksContiguous source first count =>
    cloneFileBlocksContiguousToPathJournaled sb source first count path
  | cloneSymlink source => cloneSymlinkAtPathJournaled sb source path

/-- Some complete blocks of a file, as a file. -/
def Excerpt (v : Volume) (source : String) (first count : Nat) (n : Node) :
    Prop :=
  ∃ f, v.FileAt source f ∧ count ≠ 0 ∧
    (first + count) * BLOCK_SIZE ≤ f.byteLen ∧
    n = .file ⟨segment f.images first (first + count), count * BLOCK_SIZE⟩

/-- The node that is made.  A clone of a file has its bytes, with zeros behind
them. -/
def Makes (v : Volume) (n : Node) : NewNode → Prop
  | emptyFile => n = .file ⟨[], 0⟩
  | oneBlockFile data => n = .file ⟨[data], BLOCK_SIZE⟩
  | fileWithBlocks data => n = .file ⟨data, data.length * BLOCK_SIZE⟩
  | contiguousFileWithBlocks data => n = .file ⟨data, data.length * BLOCK_SIZE⟩
  | directory => n = .directory
  | symlink target => n = .symlink target
  | cloneFile source => ∃ f, v.FileAt source f ∧
      n = .file ⟨chunks f.bytes, f.byteLen⟩
  | cloneFileBlocks source first count => Excerpt v source first count n
  | cloneFileBlocksContiguous source first count =>
    Excerpt v source first count n
  | cloneSymlink source => ∃ target, v.LinkAt source target ∧
      n = .symlink target

/-- The key of the new name: the path of a directory may end with a slash. -/
def KeyOf (v : Volume) (path : String) (key : UInt64 × String) :
    NewNode → Prop
  | directory => ∃ stripped,
      stripSingleDirectoryTrailingSlash path = .ok stripped ∧
      v.KeyAt stripped key
  | _ => v.KeyAt path key

/-- What a call does to a volume. -/
def Acts (path : String) (call : NewNode) (id : UInt64) (v v' : Volume) :
    Prop :=
  ∃ n key, call.Makes v n ∧ call.KeyOf v path key ∧ v.Creates v' key id n

end NewNode

/-! ## The functions make what is said -/

section Makes

variable {d d' : Disk} {sb : Superblock} {a : BlockAllocator}
  {inodes : List PersistedInode} {entries : List PersistedDirectoryEntry}
  {path : String} {id : UInt64}

/-- The key of a path, as the functions find it. -/
theorem Mounted.keyAt (h : Mounted d sb a inodes entries)
    {messages : SplitMessages} {parentPath name : String} {parent : UInt64}
    (hsplit : splitPath messages path = .ok (parentPath, name))
    (hparent : resolvePathFollowingSymlinks d sb parentPath = .ok parent) :
    (volumeOf sb d).KeyAt path (parent, name) :=
  ⟨messages, parentPath, hsplit, h.resolvePath_eq_ok.mp hparent⟩

/-- A new node under a path. -/
def MadeAt (sb : Superblock) (d d' : Disk) (path : String) (id : UInt64)
    (n : Node) : Prop :=
  Consistent sb d' ∧ ∃ key, (volumeOf sb d).KeyAt path key ∧
    (volumeOf sb d).Creates (volumeOf sb d') key id n

/-- A new file is a new node. -/
theorem NewFile.madeAt {data : List Block} {byteLen : Nat}
    (hn : NewFile sb d d' a inodes entries path id data byteLen)
    (h : Mounted d sb a inodes entries) :
    MadeAt sb d d' path id (.file ⟨data, byteLen⟩) := by
  obtain ⟨inode, rfl, hkind, rfl, parentPath, parent, name, a', hsplit, hparent,
    hcreated, htakes, hlen, hbecame⟩ := hn
  have hcreates := hcreated.creates h
  have hdata : fileData d' inode = ⟨data, inode.byteLen.toNat⟩ := by
    unfold fileData
    rw [hbecame.fileImages_eq htakes.nodup hlen (h.reserved_le_of_takes htakes)]
  rw [nodeOf_file hkind, hdata] at hcreates
  exact ⟨hcreated.consistent, _, h.keyAt hsplit hparent, hcreates⟩

/-- A path with a created inode. -/
theorem CreatedWith.madeAt {messages : SplitMessages} {inode : PersistedInode}
    {data : List Block}
    (hc : CreatedWith messages sb d d' a inodes entries path inode data)
    (h : Mounted d sb a inodes entries) :
    MadeAt sb d d' path inode.id (nodeOf d' inode) := by
  obtain ⟨parentPath, parent, name, a', hsplit, hparent, hcreated, _⟩ := hc
  exact ⟨hcreated.consistent, _, h.keyAt hsplit hparent, hcreated.creates h⟩

/-- `create_directory_at_path_journaled` on a mounted disk. -/
theorem Mounted.createDirectory (h : Mounted d sb a inodes entries)
    (path : String) :
    Effect.Atomic (createDirectoryAtPathJournaled sb path) d fun r d' =>
      ∃ stripped, stripSingleDirectoryTrailingSlash path = .ok stripped ∧
        MadeAt sb d d' stripped r.1 .directory := by
  apply Effect.atomic_lift_bind
  intro stripped hstripped
  apply (h.createBlockless_with stripped (by decide)).mono
  intro r d' hpost
  obtain ⟨inode, hid, hkind, _, hcreated⟩ := hpost
  have hmade := hcreated.madeAt h
  rw [hid, nodeOf_directory hkind] at hmade
  exact ⟨stripped, hstripped, hmade⟩

/-- `create_symlink_at_path_journaled` on a mounted disk. -/
theorem Mounted.createSymlinkNode (h : Mounted d sb a inodes entries)
    (path target : String) :
    Effect.Atomic (createSymlinkAtPathJournaled sb path target) d fun r d' =>
      MadeAt sb d d' path r.1 (.symlink target) := by
  apply Effect.atomic_lift_bind
  intro parts hsplit
  apply Effect.atomic_bind_of_ok h.recoverChecked
  apply Effect.atomic_query_bind
  intro parent hparent
  apply (h.createSymlink_with parent parts.2 target).mono
  intro r d' hpost
  obtain ⟨inode, hid, hkind, htext, hcreated⟩ := hpost
  have hlink : linkText d' inode = target := by
    unfold linkText
    rw [htext]
  have hcreates := hcreated.creates h
  rw [hid, nodeOf_symlink hkind, hlink] at hcreates
  exact ⟨hcreated.consistent, _, h.keyAt hsplit hparent, hcreates⟩

/-- `clone_file_to_path_journaled` on a mounted disk. -/
theorem Mounted.cloneFileNode (h : Mounted d sb a inodes entries)
    (source path : String) :
    Effect.Atomic (cloneFileToPathJournaled sb source path) d fun r d' =>
      ∃ f, (volumeOf sb d).FileAt source f ∧
        MadeAt sb d d' path r.1 (.file ⟨chunks f.bytes, f.byteLen⟩) := by
  apply (h.cloneFileToPath source path).mono
  intro r d' hpost
  obtain ⟨inode, hmem, hkind, hpath, clone, hid, hfile, hlen, hcreated⟩ := hpost
  have hnew : NewFile sb d d' a inodes entries path r.1
      (chunks (fileBytes d inode)) inode.byteLen.toNat :=
    ⟨clone, hid, hfile, by rw [hlen], hcreated⟩
  exact ⟨fileData d inode, ⟨inode.id, h.resolvePath_eq_ok.mp hpath,
    h.node_file hmem hkind⟩, hnew.madeAt h⟩

/-- The clones of blocks, with either of the two creators. -/
theorem Mounted.cloneBlocksNode (h : Mounted d sb a inodes entries)
    {overflow source : String} {first count : Nat} {r : Result Unit}
    {create : List Block → DevM Disk (UInt64 × RecoveryReport)}
    (hcreate : ∀ data, Effect.Atomic (create data) d fun r d' =>
      NewFile sb d d' a inodes entries path r.1 data
        (data.length * BLOCK_SIZE)) :
    Effect.Atomic (liftM r >>= fun _ =>
        FilesystemLab.snapshotAtPath overflow sb source first count >>= create) d
      fun r d' => ∃ n, NewNode.Excerpt (volumeOf sb d) source first count n ∧
        MadeAt sb d d' path r.1 n := by
  apply Effect.atomic_lift_bind
  intro _ _
  apply (h.snapshotAtPath overflow source).bind_unchanged
  intro blocks hblocks
  obtain ⟨f, hf, hcount, hinside, rfl⟩ := hblocks
  apply (hcreate _).mono
  intro r d' hnew
  have hlen : (segment f.images first (first + count)).length = count := by
    obtain ⟨id, _, hnode⟩ := hf
    obtain ⟨inode, hmem, _, hkind, rfl⟩ := h.exists_file hnode
    have hle := (h.fileEnd hmem hkind).1.le_capacity
    rw [length_segment, Nat.add_sub_cancel_left]
    rw [fileData_images, length_fileImages]
    exact Nat.le_of_mul_le_mul_right (le_trans hinside hle) blockSize_pos
  rw [hlen] at hnew
  exact ⟨_, ⟨f, hf, hcount, hinside, rfl⟩, hnew.madeAt h⟩

end Makes

/-! ## The calls -/

section Calls

variable {sb : Superblock} {d : Disk} {path : String}

/-- Nothing is written before the recovery. -/
theorem guarded_recovered {α : Type} {f : RecoveryReport → DevM Disk α}
    (hvacant : journalOf sb d.blocks = .ok []) (hf : ∀ r, Guarded sb (f r) d) :
    Guarded sb (recoverJournalAndCheckpointChecked sb >>= f) d := by
  rw [guarded_bind_unchanged (recoverChecked_unchanged hvacant)]
  exact fun r _ => hf r

theorem guarded_createBlockless (hvacant : journalOf sb d.blocks = .ok [])
    (kind : InodeKind) :
    Guarded sb (createBlocklessInodeAtPathJournaled sb path kind) d := by
  unfold createBlocklessInodeAtPathJournaled
  rw [guarded_lift_bind]
  intro parts _
  apply guarded_recovered hvacant
  simp

theorem guarded_createSized (hvacant : journalOf sb d.blocks = .ok [])
    (data : List Block) (byteLen : UInt64) :
    Guarded sb (createFileWithBlocksAndSizeAtPathJournaled sb path data
      byteLen) d := by
  unfold createFileWithBlocksAndSizeAtPathJournaled
  rw [guarded_lift_bind]
  intro _ _
  rw [guarded_lift_bind]
  intro parts _
  apply guarded_recovered hvacant
  simp

theorem guarded_createFull (hvacant : journalOf sb d.blocks = .ok [])
    (data : List Block) :
    Guarded sb (createFileWithBlocksAtPathJournaled sb path data) d := by
  unfold createFileWithBlocksAtPathJournaled
  rw [guarded_lift_bind]
  exact fun _ _ => guarded_createSized hvacant _ _

theorem guarded_createContiguous (hvacant : journalOf sb d.blocks = .ok [])
    (data : List Block) :
    Guarded sb
      (createContiguousFileWithBlocksAtPathJournaled sb path data) d := by
  unfold createContiguousFileWithBlocksAtPathJournaled
  rw [guarded_lift_bind]
  intro _ _
  rw [guarded_lift_bind]
  intro parts _
  apply guarded_recovered hvacant
  simp

theorem guarded_createSymlinkAt (hvacant : journalOf sb d.blocks = .ok [])
    (target : String) :
    Guarded sb (createSymlinkAtPathJournaled sb path target) d := by
  unfold createSymlinkAtPathJournaled
  rw [guarded_lift_bind]
  intro parts _
  apply guarded_recovered hvacant
  simp

/-- A clone of blocks writes with its creator only. -/
theorem guarded_cloneBlocks (hvacant : journalOf sb d.blocks = .ok [])
    {overflow source : String} {first count : Nat} {r : Result Unit}
    {create : List Block → DevM Disk (UInt64 × RecoveryReport)}
    (hcreate : ∀ data, Guarded sb (create data) d) :
    Guarded sb (liftM r >>= fun _ =>
      snapshotAtPath overflow sb source first count >>= create) d := by
  rw [guarded_lift_bind]
  intro _ _
  have hsame : (snapshotAtPath overflow sb source first count d).2 = d := by
    refine Effect.bind_snd_of_unchanged rfl fun byteLen => ?_
    refine Effect.bind_snd_of_unchanged ?_ fun id => ?_
    · exact Effect.bind_snd_of_unchanged (recoverChecked_unchanged hvacant)
        fun _ => rfl
    · exact Effect.bind_snd_of_unchanged rfl fun _ => rfl
  rw [guarded_bind_unchanged hsame]
  exact fun blocks _ => hcreate blocks

/-- The calls write in one transaction. -/
theorem NewNode.guarded (call : NewNode) (hsize : sb.totalBlocks = d.size)
    (hvacant : journalOf sb d.blocks = .ok []) :
    Guarded sb (call.run sb path) d := by
  cases call with
  | emptyFile => exact guarded_createBlockless hvacant _
  | oneBlockFile data =>
    show Guarded sb (createOneBlockFileAtPathJournaled sb path data) d
    unfold createOneBlockFileAtPathJournaled storeCreateWithDataJournaled
    rw [guarded_lift_bind]
    intro parts _
    apply guarded_recovered hvacant
    simp
  | fileWithBlocks data => exact guarded_createFull hvacant data
  | contiguousFileWithBlocks data => exact guarded_createContiguous hvacant data
  | directory =>
    show Guarded sb (createDirectoryAtPathJournaled sb path) d
    unfold createDirectoryAtPathJournaled
    rw [guarded_lift_bind]
    exact fun _ _ => guarded_createBlockless hvacant _
  | symlink target => exact guarded_createSymlinkAt hvacant target
  | cloneFile source =>
    have hsame := (entry_metadataAtPath sb source).unchanged hsize hvacant
    show Guarded sb (cloneFileToPathJournaled sb source path) d
    unfold cloneFileToPathJournaled
    rw [guarded_bind_unchanged hsame]
    intro m _
    rw [guarded_lift_bind]
    intro _ _
    rw [guarded_ite]
    refine ⟨fun _ => guarded_createBlockless hvacant _, fun _ => ?_⟩
    simp only [guarded_query_bind]
    exact fun _ _ _ _ => guarded_createSized hvacant _ _
  | cloneFileBlocks source first count =>
    exact guarded_cloneBlocks hvacant fun data => guarded_createFull hvacant data
  | cloneFileBlocksContiguous source first count =>
    exact guarded_cloneBlocks hvacant fun data =>
      guarded_createContiguous hvacant data
  | cloneSymlink source =>
    have hsame := (@entry_readSymlinkAtPath sb source).unchanged hsize hvacant
    show Guarded sb (cloneSymlinkAtPathJournaled sb source path) d
    unfold cloneSymlinkAtPathJournaled
    rw [guarded_bind_unchanged hsame]
    exact fun target _ => guarded_createSymlinkAt hvacant target

/-- The calls begin with the recovery. -/
theorem NewNode.entered (call : NewNode) {view : Nat → Block}
    (hd : Holding sb d view) : Entered sb (call.run sb path) d := by
  have hsnapshot : ∀ {overflow source : String} {first count : Nat}
      {r : Result Unit} {create : List Block → DevM Disk (UInt64 × RecoveryReport)},
      Entered sb (liftM r >>= fun _ =>
        snapshotAtPath overflow sb source first count >>= create) d := by
    intro overflow source first count r create
    apply entered_lift_bind
    intro _ _
    apply Entered.bind
    apply entered_lift_bind
    intro _ _
    exact ((entry_enterPathChecked sb source).entered hd).bind _
  cases call with
  | emptyFile => exact entered_lift_bind fun _ _ => hd.entered_recoverChecked
  | oneBlockFile data =>
    exact entered_lift_bind fun _ _ => hd.entered_recoverChecked
  | fileWithBlocks data =>
    exact entered_lift_bind fun _ _ => entered_lift_bind fun _ _ =>
      entered_lift_bind fun _ _ => hd.entered_recoverChecked
  | contiguousFileWithBlocks data =>
    exact entered_lift_bind fun _ _ => entered_lift_bind fun _ _ =>
      hd.entered_recoverChecked
  | directory =>
    exact entered_lift_bind fun _ _ => entered_lift_bind fun _ _ =>
      hd.entered_recoverChecked
  | symlink target =>
    exact entered_lift_bind fun _ _ => hd.entered_recoverChecked
  | cloneFile source => exact ((entry_metadataAtPath sb source).entered hd).bind _
  | cloneFileBlocks source first count => exact hsnapshot
  | cloneFileBlocksContiguous source first count => exact hsnapshot
  | cloneSymlink source => exact (entry_readSymlinkAtPath source).entered hd |>.bind _

/-- A new node on a mounted disk. -/
theorem Mounted.newNode {a : BlockAllocator} {inodes : List PersistedInode}
    {entries : List PersistedDirectoryEntry} (h : Mounted d sb a inodes entries)
    (call : NewNode) :
    Effect.Atomic (call.run sb path) d fun r d' => Consistent sb d' ∧
      call.Acts path r.1 (volumeOf sb d) (volumeOf sb d') := by
  cases call with
  | emptyFile =>
    apply (h.createEmptyFile path).mono
    intro r d' hpost
    obtain ⟨hc, key, hkey, hcreates⟩ := hpost.madeAt h
    exact ⟨hc, _, key, rfl, hkey, hcreates⟩
  | oneBlockFile data =>
    apply (h.createOneBlockFile path data).mono
    intro r d' hpost
    obtain ⟨hc, key, hkey, hcreates⟩ := hpost.madeAt h
    exact ⟨hc, _, key, rfl, hkey, hcreates⟩
  | fileWithBlocks data =>
    apply (h.createFullFile path data).mono
    intro r d' hpost
    obtain ⟨hc, key, hkey, hcreates⟩ := hpost.madeAt h
    exact ⟨hc, _, key, rfl, hkey, hcreates⟩
  | contiguousFileWithBlocks data =>
    apply (h.createContiguousFile path data).mono
    intro r d' hpost
    obtain ⟨hc, key, hkey, hcreates⟩ := hpost.madeAt h
    exact ⟨hc, _, key, rfl, hkey, hcreates⟩
  | directory =>
    apply (h.createDirectory path).mono
    intro r d' hpost
    obtain ⟨stripped, hstripped, hc, key, hkey, hcreates⟩ := hpost
    exact ⟨hc, _, key, rfl, ⟨stripped, hstripped, hkey⟩, hcreates⟩
  | symlink target =>
    apply (h.createSymlinkNode path target).mono
    intro r d' hpost
    obtain ⟨hc, key, hkey, hcreates⟩ := hpost
    exact ⟨hc, _, key, rfl, hkey, hcreates⟩
  | cloneFile source =>
    apply (h.cloneFileNode source path).mono
    intro r d' hpost
    obtain ⟨f, hf, hc, key, hkey, hcreates⟩ := hpost
    exact ⟨hc, _, key, ⟨f, hf, rfl⟩, hkey, hcreates⟩
  | cloneFileBlocks source first count =>
    apply (h.cloneBlocksNode fun data => h.createFullFile path data).mono
    intro r d' hpost
    obtain ⟨n, hn, hc, key, hkey, hcreates⟩ := hpost
    exact ⟨hc, n, key, hn, hkey, hcreates⟩
  | cloneFileBlocksContiguous source first count =>
    apply (h.cloneBlocksNode fun data => h.createContiguousFile path data).mono
    intro r d' hpost
    obtain ⟨n, hn, hc, key, hkey, hcreates⟩ := hpost
    exact ⟨hc, n, key, hn, hkey, hcreates⟩
  | cloneSymlink source =>
    apply ((entry_readSymlinkAtPath source).finds h).bind_unchanged
    intro target htarget
    apply (h.createSymlinkNode path target).mono
    intro r d' hpost
    obtain ⟨hc, key, hkey, hcreates⟩ := hpost
    exact ⟨hc, _, key, ⟨target, htarget, rfl⟩, hkey, hcreates⟩

/-- **Every call that makes a node implements what is said of it.** -/
theorem implements_newNode (sb : Superblock) (path : String) (call : NewNode) :
    Implements sb (Effect.abortable (call.run sb path))
      fun r => call.Acts path r.1 :=
  implements_abortable (fun hd => call.entered hd)
    (fun hsize hvacant => call.guarded hsize hvacant) fun h => h.newNode call

end Calls

end FilesystemLab
