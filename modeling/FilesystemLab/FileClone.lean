import FilesystemLab.BlockSplice

/-!
# Cloning a file to a fresh path

`clone_file_to_path_journaled` of `path_clone_create.rs`.

The clone reads the source through its end, cuts what it read into blocks with
zeros behind the last byte, and creates a file with these blocks and the length
of the source.  So the bytes of the source behind its end are not copied.

* `chunks` is the loop that cuts, and `flatMap_chunks` says what it makes.
* `ClonedTo` is what a clone leaves, as a caller sees it.
-/

namespace FilesystemLab

open Bytes WriteLog

/-! ## The operation -/

/-- The loop over `snapshot.chunks(BLOCK_SIZE)`. -/
def chunks (snapshot : List UInt8) : List Block :=
  (List.range (byteLenToBlockCount snapshot.length)).map (Block.ofImage snapshot)

/-- `clone_file_to_path_journaled`. -/
def cloneFileToPathJournaled {σ : Type} [BlockDevice σ] (sb : Superblock)
    (source destination : String) : DevM σ (UInt64 × RecoveryReport) := do
  let metadata ← metadataAtPath sb source
  rejectIf (metadata.kind ≠ .file) (invalidInput
    "pathname whole-file clone source must be a regular file")
  if metadata.logicalBlocks = 0 then
    createEmptyFileAtPathJournaled sb destination
  else do
    let sourceInode ← Effect.query (resolvePathFollowingSymlinks · sb source)
    let snapshot ← Effect.query
      (readFileRange · sb sourceInode 0 0 metadata.byteLen.toNat)
    createFileWithBlocksAndSizeAtPathJournaled sb destination (chunks snapshot)
      metadata.byteLen

/-! ## Blocks with a padded end -/

theorem length_chunks (snapshot : List UInt8) :
    (chunks snapshot).length = byteLenToBlockCount snapshot.length := by
  rw [chunks, List.length_map, List.length_range]

/-- The piece of a padded byte string is the padded piece. -/
theorem Block.bytes_ofImage_eq_chunk {bytes : List UInt8} {n i : Nat}
    (hle : bytes.length ≤ n * BLOCK_SIZE) (hi : i < n) :
    (Block.ofImage bytes i).bytes =
      chunk BLOCK_SIZE (bytes ++ zeros (n * BLOCK_SIZE - bytes.length)) i := by
  have hend : (i + 1) * BLOCK_SIZE ≤ n * BLOCK_SIZE :=
    Nat.mul_le_mul_right _ hi
  rw [Nat.succ_mul] at hend
  have hpiece : (chunk BLOCK_SIZE bytes i).length ≤ BLOCK_SIZE :=
    List.length_take_le _ _
  rw [Block.ofImage]
  show (Block.ofBytes (chunk BLOCK_SIZE bytes i)).bytes = _
  rw [Block.bytes_ofBytes_of_le hpiece]
  simp only [chunk, List.drop_append, drop_zeros, List.take_append, take_zeros,
    List.length_take, List.length_drop]
  congr 2
  omega

/-- **What is cut into blocks is followed by zeros.** -/
theorem flatMap_chunks (snapshot : List UInt8) :
    (chunks snapshot).flatMap Block.bytes = snapshot ++
      zeros (byteLenToBlockCount snapshot.length * BLOCK_SIZE -
        snapshot.length) := by
  have hle : snapshot.length ≤
      byteLenToBlockCount snapshot.length * BLOCK_SIZE :=
    byteLenToBlockCount_le_iff.mp le_rfl
  have hlen : (snapshot ++ zeros (byteLenToBlockCount snapshot.length *
      BLOCK_SIZE - snapshot.length)).length =
        byteLenToBlockCount snapshot.length * BLOCK_SIZE := by
    rw [List.length_append, length_zeros]
    omega
  rw [chunks, List.flatMap_map]
  apply Eq.trans _ (flatMap_chunk hlen)
  apply List.flatMap_congr
  intro i hi
  exact Block.bytes_ofImage_eq_chunk hle (List.mem_range.mp hi)

/-! ## What a clone leaves -/

/-- The disk `d'` is `d` with a copy of the file `source` under a fresh path: a
regular file with the bytes of the source, in blocks that were free, with zeros
behind its end.  Every other record, entry and data block is that of before. -/
structure ClonedTo (sb : Superblock) (d d' : Disk) (destination : String)
    (source clone : PersistedInode) : Prop where
  superblock : readSuperblock d' = .ok sb
  journal : loadJournalImage d' sb = .ok []
  checked : ∃ report, checkDevice d' = .ok report
  inodes : ∃ inodes, loadInodeTable d sb = .ok inodes ∧
    (∀ other ∈ inodes, other.id ≠ clone.id ∧
      other.blocks.Disjoint clone.blocks) ∧
    loadInodeTable d' sb = .ok (inodes ++ [clone])
  entries : ∃ entries parentPath parent name,
    loadDirectoryTable d sb = .ok entries ∧
    splitPath createSplit destination = .ok (parentPath, name) ∧
    resolvePathFollowingSymlinks d sb parentPath = .ok parent ∧
    loadDirectoryTable d' sb = .ok (entries ++ [⟨parent, clone.id, name⟩])
  kind_eq : clone.kind = .file
  byteLen_eq : clone.byteLen = source.byteLen
  contents : fileBytes d' clone = fileBytes d source
  cleared : ∀ byte ∈ fileTail d' clone, byte = 0
  fresh_nodup : clone.blocks.Nodup
  fresh_free : ∀ block ∈ clone.blocks, MarkedOwned d sb block false
  owned_iff : ∀ block, MarkedOwned d' sb block true ↔
    block ∈ clone.blocks ∨ MarkedOwned d sb block true
  kept : ∀ b, sb.reservedBlocks ≤ b → b ∉ clone.blocks.map UInt64.toNat →
    d'.blocks b = d.blocks b

section Mounted

variable {d d' : Disk} {sb : Superblock} {a a' : BlockAllocator}
  {inodes : List PersistedInode} {entries : List PersistedDirectoryEntry}

/-- The metadata of a path is read without a change, and is that of an inode of
the table. -/
theorem Mounted.atomic_metadataAtPath (h : Mounted d sb a inodes entries)
    {β : Type} {path : String} {f : PathMetadata → DevM Disk β}
    {post : β → Disk → Prop}
    (hf : ∀ inode ∈ inodes,
      resolvePathFollowingSymlinks d sb path = .ok inode.id →
      Effect.Atomic (f (inode.metadata entries)) d post) :
    Effect.Atomic (FilesystemLab.metadataAtPath sb path >>= f) d post := by
  cases hpath : resolvePathFollowingSymlinks d sb path with
  | error e =>
    refine .inl ⟨e, Effect.bind_of_error ?_⟩
    rw [FilesystemLab.metadataAtPath, Effect.bind_of_ok h.recoverChecked,
      Effect.query_bind, hpath]
  | ok id =>
    cases hfind : findInode inodes id with
    | none =>
      refine .inl ⟨invalidData "resolved inode is missing",
        Effect.bind_of_error ?_⟩
      rw [FilesystemLab.metadataAtPath, Effect.bind_of_ok h.recoverChecked,
        resolve_bind hpath, Effect.query_apply, FilesystemLab.metadataForInode,
        h.allocator, Except.ok_bind, h.inodeTable, Except.ok_bind,
        h.directoryTable, Except.ok_bind, hfind]
      rfl
    | some inode =>
      obtain ⟨hmem, rfl⟩ := findInode_eq_some hfind
      exact Effect.atomic_bind_of_ok (h.metadataAtPath hmem hpath)
        (hf inode hmem hpath)

/-- What a clone of a regular file runs. -/
theorem Mounted.cloneFileToPath_eq (h : Mounted d sb a inodes entries)
    {inode : PersistedInode} {source : String} (hmem : inode ∈ inodes)
    (hkind : inode.kind = .file)
    (hpath : resolvePathFollowingSymlinks d sb source = .ok inode.id)
    (destination : String) :
    cloneFileToPathJournaled sb source destination d =
      (if inode.blocks.length = 0 then
        createEmptyFileAtPathJournaled sb destination
      else createFileWithBlocksAndSizeAtPathJournaled sb destination
        (chunks (fileBytes d inode)) inode.byteLen) d := by
  have hend := (h.fileEnd hmem hkind).1
  have hlen := length_fileBytes d hend
  have hkept : ¬ (inode.metadata entries).kind ≠ .file := not_not.mpr hkind
  rw [cloneFileToPathJournaled, Effect.bind_of_ok (h.metadataAtPath hmem hpath),
    Effect.lift_bind_of_ok (a := ()) (rejectIf_of_not hkept),
    show (inode.metadata entries).logicalBlocks = inode.blocks.length from rfl,
    show (inode.metadata entries).byteLen = inode.byteLen from rfl]
  by_cases hempty : inode.blocks.length = 0
  · rw [if_pos hempty, if_pos hempty]
  · have hread : readFileRange d sb inode.id 0 0 inode.byteLen.toNat =
        .ok (fileBytes d inode) := by
      apply (h.readFileRange_iff hmem hkind).mpr
      have hlt := hend.capacity_lt
      have hblock : 1 * BLOCK_SIZE ≤ inode.blocks.length * BLOCK_SIZE :=
        Nat.mul_le_mul_right _ (by omega)
      refine ⟨by omega, blockSize_pos, by omega, ?_⟩
      rw [Nat.zero_mul, List.drop_zero, List.take_of_length_le (by omega)]
    rw [if_neg hempty, if_neg hempty, resolve_bind hpath]
    exact Effect.query_bind_of_ok (q := fun d : Disk => readFileRange d sb
      inode.id 0 0 inode.byteLen.toNat) hread

/-- `clone_file_to_path_journaled` on a mounted disk: a file is created with the
blocks that the contents of the source are cut into. -/
theorem Mounted.cloneFileToPath (h : Mounted d sb a inodes entries)
    (source destination : String) :
    Effect.Atomic (cloneFileToPathJournaled sb source destination) d fun r d' =>
      ∃ inode ∈ inodes, inode.kind = .file ∧
        resolvePathFollowingSymlinks d sb source = .ok inode.id ∧
        ∃ clone, clone.id = r.1 ∧ clone.kind = .file ∧
          clone.byteLen = inode.byteLen ∧ CreatedWith createSplit sb d d' a
            inodes entries destination clone (chunks (fileBytes d inode)) := by
  by_cases hfile : ∃ inode ∈ inodes, inode.kind = .file ∧
      resolvePathFollowingSymlinks d sb source = .ok inode.id
  · obtain ⟨inode, hmem, hkind, hpath⟩ := hfile
    have hend := (h.fileEnd hmem hkind).1
    unfold Effect.Atomic
    rw [h.cloneFileToPath_eq hmem hkind hpath destination]
    by_cases hempty : inode.blocks.length = 0
    · -- a file without blocks is created empty
      have hzero : inode.byteLen.toNat = 0 := by
        have hle := hend.le_capacity
        rw [hempty, Nat.zero_mul] at hle
        omega
      have hnil : chunks (fileBytes d inode) = [] := by
        rw [← List.length_eq_zero_iff, length_chunks, length_fileBytes d hend,
          ← hend.length_eq]
        exact hempty
      rw [if_pos hempty]
      apply (h.createBlockless_with destination (by decide)).mono
      intro r d' hpost
      rcases hpost with ⟨clone, hid, hnew, hlength, hcreated⟩
      refine ⟨inode, hmem, hkind, hpath, clone, hid, hnew, ?_, ?_⟩
      · rw [hlength]
        exact (UInt64.toNat_inj.mp hzero).symm
      · rw [hnil]
        exact hcreated
    · rw [if_neg hempty]
      apply (h.createFileWithBlocksAndSize_with destination _ _).mono
      intro r d' hpost
      exact ⟨inode, hmem, hkind, hpath, hpost⟩
  · apply h.atomic_metadataAtPath
    intro inode hmem hpath
    apply Effect.atomic_lift_bind
    intro _ hkind
    exact absurd ⟨inode, hmem, not_ne_iff.mp (rejectIf_eq_ok.mp hkind), hpath⟩
      hfile

/-- A file that was created with some data holds this data. -/
theorem Became.fileImages_eq {clone : PersistedInode} {data : List Block}
    (hbecame : Became sb d d' a' inodes entries
      (dataWrites (clone.blocks.zip data)))
    (hnodup : clone.blocks.Nodup) (hlen : clone.blocks.length = data.length)
    (hle : ∀ block ∈ clone.blocks, sb.reservedBlocks ≤ block.toNat) :
    fileImages d' clone = data := by
  have hfst : (clone.blocks.zip data).map Prod.fst = clone.blocks :=
    List.map_fst_zip (by omega)
  have hnames : ((clone.blocks.zip data).map Prod.fst).Nodup := by
    rw [hfst]
    exact hnodup
  apply List.ext_getElem
  · rw [length_fileImages, hlen]
  · intro i hi hi'
    rw [length_fileImages] at hi
    have hpair : (clone.blocks[i], data[i]) ∈ clone.blocks.zip data := by
      rw [List.mem_iff_getElem]
      refine ⟨i, ?_, List.getElem_zip⟩
      rw [List.length_zip]
      omega
    simp only [fileImages, List.getElem_map]
    rw [hbecame.contents _ (hle _ (List.getElem_mem hi))]
    exact overlay_of_nodup (nodup_dataWrites hnames)
      (List.mem_map_of_mem (f := fun w => (w.1.toNat, w.2)) hpair)

/-- **What a created file leaves, as a caller sees it**, if its blocks hold the
bytes of another file. -/
theorem CreatedWith.clonedTo {source : PersistedInode} {destination : String}
    {clone : PersistedInode}
    (hcreated : CreatedWith createSplit sb d d' a inodes entries destination
      clone (chunks (fileBytes d source)))
    (h : Mounted d sb a inodes entries) (hsource : source ∈ inodes)
    (hsourceKind : source.kind = .file) (hkind : clone.kind = .file)
    (hbyteLen : clone.byteLen = source.byteLen) :
    ClonedTo sb d d' destination source clone := by
  rcases hcreated with ⟨parentPath, parent, name, a', hsplit, hparent, hnew,
    htakes, hlen, hbecame⟩
  obtain ⟨b, hmounted⟩ := hnew.mounted
  have hinj : Function.Injective UInt64.toNat := fun _ _ => UInt64.toNat_inj.mp
  have hb : b = a' := by
    have hload := hmounted.allocator
    rw [hbecame.allocator, Except.ok.injEq] at hload
    exact hload.symm
  subst hb
  have hdata : ∀ block ∈ clone.blocks, sb.reservedBlocks ≤ block.toNat := by
    intro block hblock
    have hrange := htakes.range hblock
    have hgeometry := h.geometry
    omega
  have himages := hbecame.fileImages_eq htakes.nodup hlen hdata
  -- the blocks hold the bytes of the source and zeros
  have hspace : fileSpace d' clone = fileBytes d source ++
      zeros (byteLenToBlockCount (fileBytes d source).length * BLOCK_SIZE -
        (fileBytes d source).length) := by
    rw [fileSpace, himages, flatMap_chunks]
  have hlength : (fileBytes d source).length = clone.byteLen.toNat := by
    rw [hbyteLen, length_fileBytes d (h.fileEnd hsource hsourceKind).1]
  refine ⟨hmounted.superblock, hmounted.journal, ⟨_, hmounted.check⟩,
    ⟨inodes, h.inodeTable, ?_, hmounted.inodeTable⟩,
    ⟨entries, parentPath, parent, name, h.directoryTable, hsplit, hparent,
      hmounted.directoryTable⟩, hkind, hbyteLen, ?_, ?_, htakes.nodup, ?_, ?_,
    ?_⟩
  · intro other hother
    refine ⟨hnew.fresh other hother, ?_⟩
    intro block hold hblock
    have hset := h.owned.data other hother block hold
    rw [htakes.free block hblock] at hset
    cases hset
  · rw [fileBytes_eq_take, hspace, ← hlength, List.take_left]
  · intro byte hbyte
    rw [fileTail, hspace, ← hlength, List.drop_left] at hbyte
    exact List.eq_of_mem_replicate hbyte
  · intro block hblock
    exact h.toAtRest.markedOwned_iff.mpr (htakes.free block hblock)
  · intro block
    rw [hmounted.toAtRest.markedOwned_iff, h.toAtRest.markedOwned_iff,
      htakes.flag, Bool.or_eq_true, decide_eq_true_eq,
      List.mem_map_of_injective hinj]
  · intro block hblock hnot
    rw [hbecame.contents block hblock]
    apply overlay_of_notMem
    rw [dataWrites, List.map_map]
    intro hwritten
    obtain ⟨w, hw, heq⟩ := List.mem_map.mp hwritten
    apply hnot
    rw [← heq]
    exact List.mem_map_of_mem (List.of_mem_zip hw).1

end Mounted

/-- **A clone to a fresh path copies exactly the bytes of the source.**  On a
device that the check accepts with an empty journal, a clone that fails changes
nothing, and one that succeeds adds one file with the contents of the source and
zeros behind its end, and one entry. -/
theorem cloneFileToPath_copies {d d' : Disk} {sb : Superblock}
    {report : FsckReport} {source destination : String}
    {result : Result (UInt64 × RecoveryReport)}
    (hsb : readSuperblock d = .ok sb)
    (hjournal : loadJournalImage d sb = .ok [])
    (hcheck : checkDevice d = .ok report)
    (hrun : cloneFileToPathJournaled sb source destination d = (result, d')) :
    match result with
    | .error _ => d' = d
    | .ok r => ∃ inode clone, FileAt d sb source inode ∧ clone.id = r.1 ∧
        ClonedTo sb d d' destination inode clone := by
  obtain ⟨a, inodes, entries, h⟩ := exists_mounted hsb hjournal hcheck
  have hatomic := h.cloneFileToPath source destination
  cases result with
  | error error =>
    have hsame := hatomic.of_error (congrArg Prod.fst hrun)
    rw [hrun] at hsame
    exact hsame
  | ok r =>
    obtain ⟨inode, hmem, hkind, hpath, clone, hid, hfile, hlen, hcreated⟩ :=
      hatomic.of_ok hrun
    exact ⟨inode, clone, ⟨hpath, ⟨inodes, h.inodeTable, hmem⟩, hkind⟩, hid,
      hcreated.clonedTo h hmem hkind hfile hlen⟩

/-! ## A sample clone -/

/-- A created file that passes its checks is stored if it fits. -/
theorem AtRest.storeCreateWithBlocks_ok {d : Disk} {sb : Superblock}
    {a a' : BlockAllocator} {inodes inodes' : List PersistedInode}
    {entries entries' : List PersistedDirectoryEntry}
    {data : List (UInt64 × Block)} (h : AtRest d sb a inodes entries)
    (hchecks : checkCreateWithBlocks a' inodes' (data.map Prod.fst) = .ok ())
    (hdata : ∀ w ∈ data, sb.reservedBlocks ≤ w.1.toNat ∧
      w.1.toNat < sb.totalBlocks)
    (hstore : Storable sb d a' inodes' entries' (dataWrites data)) :
    ∃ report d', storeCreateWithBlocksJournaled sb a' inodes' entries' data d =
      (.ok report, d') := by
  obtain ⟨tables, htables, hfits⟩ := hstore
  have hrange : ∀ w ∈ dataWrites data,
      sb.reservedBlocks ≤ w.1 ∧ w.1 < sb.totalBlocks := by
    intro w hw
    obtain ⟨v, hv, rfl⟩ := List.mem_map.mp hw
    exact hdata v hv
  have haccepts := h.storeAccepts htables hrange hfits
  rw [storeCreateWithBlocks_eq h.size hchecks htables]
  rcases publishChanges_cases recovers_recoverJournalAndCheckpoint
    "atomic create-with-data recovery report does not match one complete transaction"
    sb d (fun w hw => createRequest_lt htables hw)
    with ⟨_, hrun⟩ | ⟨_, hno, _⟩ | ⟨_, hrun⟩
  · exact ⟨_, _, hrun⟩
  · exact absurd haccepts hno
  · exact ⟨_, _, hrun⟩

/-- A call that passes its checks publishes the tables with the new file. -/
theorem Mounted.createFileWithBlocks_run {d : Disk} {sb : Superblock}
    {a mid : BlockAllocator} {inodes : List PersistedInode}
    {entries : List PersistedDirectoryEntry} (h : Mounted d sb a inodes entries)
    {destination parentPath name : String} {parent id byteLen : UInt64}
    {bytes : List UInt8} {data : List Block} {blocks : List UInt64}
    {inode : PersistedInode} (hne : data ≠ [])
    (hsplit : splitPath createSplit destination = .ok (parentPath, name))
    (hparent : resolvePathFollowingSymlinks d sb parentPath = .ok parent)
    (hvalid : validateCreateDestination parent name inodes entries = .ok ())
    (hid : nextInodeId inodes = .ok id)
    (hloop : allocateEach a data.length = .ok (blocks, mid))
    (hbytes : encodeDirectoryEntry ⟨parent, id, name⟩ = .ok bytes)
    (hinode : PersistedInode.newFileWithSize id blocks byteLen = .ok inode) :
    createFileWithBlocksAndSizeAtPathJournaled sb destination data byteLen d =
      (do
        let report ← storeCreateWithBlocksJournaled sb mid (inodes ++ [inode])
          (entries ++ [⟨parent, id, name⟩]) (blocks.zip data)
        pure (id, report) : DevM Disk (UInt64 × RecoveryReport)) d := by
  rw [createFileWithBlocksAndSizeAtPathJournaled,
    Effect.lift_bind_of_ok (a := ()) (rejectIf_of_not hne),
    Effect.lift_bind_of_ok hsplit, Effect.bind_of_ok h.recoverChecked,
    resolve_bind hparent, h.allocator_bind, h.inodes_bind, h.entries_bind,
    Effect.lift_bind_of_ok hvalid, Effect.lift_bind_of_ok hid,
    Effect.lift_bind_of_ok hloop, Effect.lift_bind_of_ok hbytes,
    Effect.lift_bind_of_ok hinode]

/-- A file of ten bytes is created in the root of the sample. -/
theorem createFile_filesDisk (contents : Nat → Block) (image : Block) :
    ∃ r d', createFileWithBlocksAndSizeAtPathJournaled treeSuperblock "/u"
      [image] 10 (filesDisk contents) = (.ok r, d') := by
  have h := mounted_filesDisk contents
  have hfirst : (allocateEach filesAllocator 1).map (fun taken => (taken.1,
      checkCreateWithBlocks taken.2 (filesInodes ++ [⟨4, .file, [12], 10⟩])
        [12])) = .ok ([12], .ok ()) := rfl
  obtain ⟨⟨blocks, mid⟩, hloop, hboth⟩ := Except.map_eq_ok.mp hfirst
  rw [Prod.mk.injEq] at hboth
  rcases hboth with ⟨hblocks, hchecks⟩
  have hblocks : blocks = [12] := hblocks
  subst hblocks
  obtain ⟨htakes, _, _⟩ := h.takes_of_allocateEach hloop
  have hsplit : splitPath createSplit "/u" = .ok ("/", "u") := by decide
  have hvalid : validateCreateDestination 1 "u" filesInodes filesEntries =
      .ok () := by decide
  have hid : nextInodeId filesInodes = .ok 4 := by decide
  have hinode : PersistedInode.newFileWithSize 4 [12] 10 =
      .ok ⟨4, .file, [12], 10⟩ := by decide
  obtain ⟨bytes, hbytes⟩ : ∃ bytes,
      encodeDirectoryEntry ⟨1, 4, "u"⟩ = .ok bytes :=
    ⟨_, encodeDirectoryEntry_eq_ok.mpr ⟨by decide, rfl⟩⟩
  have hinodes : ∃ image, inodeFormat.encodeImage 1 (filesInodes ++
      [⟨4, .file, [12], 10⟩]) = .ok image :=
    exists_inodeImage (by decide) (by decide) (by decide) (by decide)
      (by decide)
  have hentries : ∃ image, directoryFormat.encodeImage 1 (filesEntries ++
      [⟨1, 4, "u"⟩]) = .ok image :=
    exists_directoryImage (by decide) (by decide) (by decide) (by decide)
      (by decide)
  have hone : (dataWrites [((12 : UInt64), image)]).length ≤ 2 := by
    rw [dataWrites, List.length_map, List.length_singleton]
    omega
  obtain ⟨tables, htables⟩ := exists_treeTables htakes.totalBlocks
    htakes.reservedBlocks hinodes hentries
  have hstore : Storable treeSuperblock (filesDisk contents) mid
      (filesInodes ++ [⟨4, .file, [12], 10⟩]) (filesEntries ++ [⟨1, 4, "u"⟩])
      (dataWrites [(12, image)]) :=
    ⟨tables, htables, fits_tree hone tables htables⟩
  have hdata : ∀ w ∈ [((12 : UInt64), image)],
      treeSuperblock.reservedBlocks ≤ w.1.toNat ∧
        w.1.toNat < treeSuperblock.totalBlocks := by
    intro w hw
    rw [List.mem_singleton.mp hw]
    exact ⟨show 10 ≤ 12 by omega, show 12 < 16 by omega⟩
  obtain ⟨report, d', hrun⟩ :=
    h.toAtRest.storeCreateWithBlocks_ok hchecks hdata hstore
  have hroot := h.toAtRest.resolve_root (show requireInode filesInodes 1 =
    .ok ⟨1, .directory, [], 0⟩ from rfl)
  have hcreate := h.createFileWithBlocks_run (List.cons_ne_nil image [])
    hsplit hroot hvalid hid hloop hbytes hinode
  exact ⟨(4, report), d', hcreate.trans (Effect.bind_of_ok hrun)⟩

/-- The second file of the sample, which ends in its block, is cloned. -/
theorem cloneFileToPath_run (contents : Nat → Block) :
    ∃ r d', cloneFileToPathJournaled treeSuperblock "/t" "/u"
      (filesDisk contents) = (.ok r, d') := by
  have h := mounted_filesDisk contents
  have hmem : ⟨3, .file, [11], 10⟩ ∈ filesInodes := by decide
  obtain ⟨image, hchunks⟩ : ∃ image, chunks (fileBytes (filesDisk contents)
      ⟨3, .file, [11], 10⟩) = [image] := by
    rw [← List.length_eq_one_iff, length_chunks,
      length_fileBytes _ (h.fileEnd hmem rfl).1]
    decide
  rw [h.cloneFileToPath_eq hmem rfl (fileAt_destination contents).resolves,
    if_neg (by decide), hchunks]
  exact createFile_filesDisk contents image

/-- The blocks of the sample hold sevens also behind the ends of its files. -/
def sevens (_ : Nat) : Block := Block.ofBytes (List.replicate BLOCK_SIZE 7)

theorem cloneFileToPath_copies_filesDisk :
    ∃ (r : UInt64 × RecoveryReport) (d' : Disk) (clone : PersistedInode),
      cloneFileToPathJournaled treeSuperblock "/t" "/u" (filesDisk sevens) =
        (.ok r, d') ∧ clone.id = r.1 ∧
      ClonedTo treeSuperblock (filesDisk sevens) d' "/u"
        ⟨3, .file, [11], 10⟩ clone := by
  have h := mounted_filesDisk sevens
  obtain ⟨r, d', hrun⟩ := cloneFileToPath_run sevens
  obtain ⟨inode, clone, hfile, hid, hcloned⟩ :=
    cloneFileToPath_copies h.superblock h.journal h.check hrun
  have hresolves := (fileAt_destination sevens).resolves
  rw [hfile.resolves, Except.ok.injEq] at hresolves
  have hsame := List.inj_on_of_nodup_map h.nodup_ids (hfile.mem h.toAtRest)
    (show ⟨3, .file, [11], 10⟩ ∈ filesInodes by decide) hresolves
  rw [hsame] at hcloned
  exact ⟨r, d', clone, hrun, hid, hcloned⟩

end FilesystemLab
