import FilesystemLab.FileEdit

/-!
# Cloning a file over another

`replace_file_at_path_journaled` of `path_file_write.rs` and
`clone_file_to_existing_path_journaled` of `path_clone_replace.rs`.

A clone reads the source through its end, cuts what it read into complete
blocks, and replaces all blocks of the destination by copies of them.  The
replacement keeps the tail of the last block of the destination unused, so the
destination gets the contents of the source exactly if both ends lie on block
boundaries, or the source is empty: `cloneToExisting_copies_iff`.

The source checks with a `debug_assert_eq!` that no partial block is cut off.
The model is the program without debug assertions.
-/

namespace FilesystemLab

open Bytes

/-! ## The operations -/

/-- The loop over `snapshot.chunks_exact(BLOCK_SIZE)`. -/
def chunksExact (snapshot : List UInt8) : List Block :=
  (List.range (snapshot.length / BLOCK_SIZE)).map (Block.ofImage snapshot)

section Device

variable {σ : Type} [BlockDevice σ]

/-- `replace_file_at_path_journaled`. -/
def replaceFileAtPathJournaled (sb : Superblock) (path : String)
    (replacement : List Block) : DevM σ RecoveryReport := do
  let _ ← recoverJournalAndCheckpointChecked sb
  let id ← Effect.query (resolvePathFollowingSymlinks · sb path)
  let inodes ← Effect.query (loadInodeTable · sb)
  let inode ← requireFile inodes id
  let currentBlocks := inode.blocks.length
  if currentBlocks = 0 then
    if replacement = [] then pure RecoveryReport.default
    else do
      let r ← appendFileBlocksJournaled sb id replacement
      pure r.2
  else if replacement = [] then do
    let r ← truncateFileToBlocksJournaled sb id 0
    pure r.2
  else do
    let r ← replaceFileBlocksJournaled sb id 0 currentBlocks replacement
    pure r.2.2

/-- `clone_file_to_existing_path_journaled`. -/
def cloneFileToExistingPathJournaled (sb : Superblock)
    (sourcePath destinationPath : String) : DevM σ RecoveryReport := do
  let _ ← recoverJournalAndCheckpoint sb
  let sourceInode ←
    Effect.query (resolvePathFollowingSymlinks · sb sourcePath)
  let destinationInode ←
    Effect.query (resolvePathFollowingSymlinks · sb destinationPath)
  rejectIf (sourceInode = destinationInode) (invalidInput
    "whole-file clone replacement requires distinct source and destination inodes")
  let snapshot ← readFileBlocksAtPath sb sourcePath
  replaceFileAtPathJournaled sb destinationPath (chunksExact snapshot)

end Device

/-! ## Complete blocks -/

theorem length_chunksExact (snapshot : List UInt8) :
    (chunksExact snapshot).length = snapshot.length / BLOCK_SIZE := by
  rw [chunksExact, List.length_map, List.length_range]

/-- The complete blocks of a byte string are its bytes but for the last, partial
block. -/
theorem flatMap_chunksExact (snapshot : List UInt8) :
    (chunksExact snapshot).flatMap Block.bytes =
      snapshot.take (snapshot.length / BLOCK_SIZE * BLOCK_SIZE) := by
  have hle := Nat.div_mul_le_self snapshot.length BLOCK_SIZE
  have hlen : (snapshot.take
      (snapshot.length / BLOCK_SIZE * BLOCK_SIZE)).length =
        snapshot.length / BLOCK_SIZE * BLOCK_SIZE := by
    rw [List.length_take]
    omega
  rw [chunksExact, List.flatMap_map, ← flatMap_chunk hlen]
  apply List.flatMap_congr
  intro i hi
  have hi := List.mem_range.mp hi
  have hend : (i + 1) * BLOCK_SIZE ≤
      snapshot.length / BLOCK_SIZE * BLOCK_SIZE := Nat.mul_le_mul_right _ hi
  rw [Nat.succ_mul] at hend
  have hchunk : chunk BLOCK_SIZE
      (snapshot.take (snapshot.length / BLOCK_SIZE * BLOCK_SIZE)) i =
        chunk BLOCK_SIZE snapshot i := by
    rw [chunk, chunk, List.drop_take, List.take_take, Nat.min_eq_left (by omega)]
  rw [hchunk, Block.ofImage, Block.bytes_ofBytes]
  rw [chunk, List.length_take, List.length_drop]
  omega

/-! ## Replacing a whole file -/

section Replace

variable {d d' : Disk} {sb : Superblock} {a a' : BlockAllocator}
  {inodes : List PersistedInode} {entries : List PersistedDirectoryEntry}
  {inode inode' : PersistedInode} {fresh : List UInt64} {images : List Block}

/-- An edit that replaces nothing by nothing. -/
theorem Mounted.spliced_self (h : Mounted d sb a inodes entries)
    (hmem : inode ∈ inodes) (hkind : inode.kind = .file)
    (hempty : inode.blocks.length = 0) :
    Spliced sb d d a a inodes entries inode inode 0 inode.blocks.length []
      [] := by
  have hnil := List.length_eq_zero_iff.mp hempty
  have hsame : setInode inodes inode = inodes := by
    have hid : ∀ other ∈ inodes,
        (if other.id = inode.id then inode else other) = id other := by
      intro other hother
      split
      · rename_i heq
        exact (List.inj_on_of_nodup_map h.nodup_ids hother hmem heq).symm
      · rfl
    rw [setInode_eq_map h.nodup_ids, List.map_congr_left hid, List.map_id]
  have hend := (h.fileEnd hmem hkind).1.le_capacity
  refine ⟨?_, Nat.zero_le _, Nat.le_refl _, rfl, hkind, ?_, ?_, ?_, ?_, rfl, ?_⟩
  · rw [hsame]
    exact h
  · rw [hnil]
    rfl
  · rw [if_pos hnil]
    rw [hempty] at hend
    omega
  · intro block hblock
    cases hblock
  · intro b
    simp [hnil]
  · exact fun _ _ _ => rfl

/-- **`replace_file_at_path_journaled` on a mounted disk**: whichever of the four
cases it takes, all blocks of the file are replaced. -/
theorem Mounted.replaceFileAtPath (h : Mounted d sb a inodes entries)
    (hmem : inode ∈ inodes) (hkind : inode.kind = .file) {path : String}
    (hpath : resolvePathFollowingSymlinks d sb path = .ok inode.id)
    (replacement : List Block) :
    Effect.Atomic (replaceFileAtPathJournaled sb path replacement) d
      fun _ d' => ∃ a' inode' fresh, Spliced sb d d' a a' inodes entries inode
        inode' 0 inode.blocks.length fresh replacement := by
  have hunique : ∀ other ∈ inodes, other.id = inode.id → other = inode :=
    fun other hother hid =>
      List.inj_on_of_nodup_map h.nodup_ids hother hmem hid
  apply Effect.atomic_bind_of_ok h.recoverChecked
  apply Effect.atomic_bind_of_ok
    (show Effect.query (resolvePathFollowingSymlinks · sb path) d =
      (.ok inode.id, d) by rw [Effect.query, hpath])
  apply h.atomic_inodes
  apply Effect.atomic_lift_bind
  intro found hfound
  simp only [requireFile, findInode_of_mem h.nodup_ids hmem, okOr_some,
    Except.ok_bind, Except.bind_eq_ok, Except.pure_eq_ok, Except.ok.injEq]
    at hfound
  obtain ⟨_, _, rfl⟩ := hfound
  dsimp only
  by_cases hempty : inode.blocks.length = 0
  · rw [if_pos hempty]
    by_cases hnone : replacement = []
    · rw [if_pos hnone, hnone]
      exact Effect.atomic_pure
        ⟨a, inode, [], h.spliced_self hmem hkind hempty⟩
    · rw [if_neg hnone]
      apply (h.appendFileBlocks inode.id replacement).bind
      intro r d' hpost
      rcases hpost with ⟨other, hother, hid, _, a', inode', hs⟩
      have heq := hunique other hother hid
      subst heq
      rw [hempty] at hs
      rw [hempty]
      exact ⟨_, _, rfl, a', inode', r.1, hs⟩
  · rw [if_neg hempty]
    by_cases hnone : replacement = []
    · rw [if_pos hnone, hnone]
      apply (h.truncateFileToBlocks inode.id 0).bind
      intro r d' hpost
      rcases hpost with ⟨other, hother, hid, _, ⟨hzero, _⟩ | ⟨_, a', inode',
        hs⟩⟩
      · have heq := hunique other hother hid
        rw [heq] at hzero
        exact absurd hzero.symm hempty
      · have heq := hunique other hother hid
        subst heq
        exact ⟨_, _, rfl, a', inode', [], hs⟩
    · rw [if_neg hnone]
      apply (h.replaceFileBlocks inode.id 0 inode.blocks.length
        replacement).bind
      intro r d' hpost
      rcases hpost with ⟨other, hother, hid, _, a', inode', hs⟩
      have heq := hunique other hother hid
      subst heq
      rw [Nat.zero_add] at hs
      exact ⟨_, _, rfl, a', inode', r.1, hs⟩

/-- The contents of a file all of whose blocks were replaced. -/
theorem Spliced.fileBytes_whole
    (hs : Spliced sb d d' a a' inodes entries inode inode' 0
      inode.blocks.length fresh images) (h : Mounted d sb a inodes entries)
    (hmem : inode ∈ inodes) :
    inode'.byteLen.toNat = (if images = [] then 0 else
        images.length * BLOCK_SIZE - inode.tailSlack) ∧
      fileBytes d' inode' =
        (images.flatMap Block.bytes).take inode'.byteLen.toNat := by
  have himages : fileImages d' inode' = images := by
    rw [hs.fileImages_eq h hmem, List.take_zero, ← length_fileImages d inode,
      List.drop_length]
    simp
  have hlen : inode'.blocks.length = images.length := by
    rw [← length_fileImages d' inode', himages]
  refine ⟨?_, by rw [fileBytes, himages]⟩
  rw [hs.byteLen_eq, hlen]
  by_cases hnil : images = []
  · rw [if_pos hnil, if_pos]
    rw [← List.length_eq_zero_iff, hlen, hnil]
    rfl
  · rw [if_neg hnil, if_neg]
    rw [← List.length_eq_zero_iff, hlen, List.length_eq_zero_iff]
    exact hnil

end Replace

/-! ## What a clone promises -/

/-- A path that leads to a regular file. -/
structure FileAt (d : Disk) (sb : Superblock) (path : String)
    (inode : PersistedInode) : Prop where
  resolves : resolvePathFollowingSymlinks d sb path = .ok inode.id
  loaded : ∃ inodes, loadInodeTable d sb = .ok inodes ∧ inode ∈ inodes
  kind_eq : inode.kind = .file

/-- The destination is read as the source was, and nothing else has changed: the
source reads as before, the other inodes are in their places, the entries are
the same, and the two files share no block. -/
structure Cloned (sb : Superblock) (d d' : Disk)
    (sourcePath destinationPath : String)
    (source destination : PersistedInode) : Prop where
  copied : ∃ bytes, (readFileBlocksAtPath sb sourcePath d).1 = .ok bytes ∧
    (readFileBlocksAtPath sb destinationPath d').1 = .ok bytes
  source_bytes : (readFileBlocksAtPath sb sourcePath d').1 =
    (readFileBlocksAtPath sb sourcePath d).1
  source_images : fileImages d' source = fileImages d source
  tables : ∃ inodes entries destination',
    loadInodeTable d sb = .ok inodes ∧ loadDirectoryTable d sb = .ok entries ∧
    loadInodeTable d' sb = .ok (inodes.map fun other =>
      if other.id = destination.id then destination' else other) ∧
    loadDirectoryTable d' sb = .ok entries ∧
    destination'.id = destination.id ∧
    source.blocks.Disjoint destination'.blocks
  checked : ∃ report, checkDevice d' = .ok report

section Clone

variable {d d' : Disk} {sb : Superblock} {a a' : BlockAllocator}
  {inodes : List PersistedInode} {entries : List PersistedDirectoryEntry}
  {source destination destination' : PersistedInode} {fresh : List UInt64}
  {sourcePath destinationPath : String}

/-- `clone_file_to_existing_path_journaled` on a mounted disk. -/
theorem Mounted.cloneFileToExistingPath (h : Mounted d sb a inodes entries)
    (hsource : source ∈ inodes) (hsourceKind : source.kind = .file)
    (hsourcePath : resolvePathFollowingSymlinks d sb sourcePath =
      .ok source.id)
    (hdestination : destination ∈ inodes)
    (hdestinationKind : destination.kind = .file)
    (hdestinationPath : resolvePathFollowingSymlinks d sb destinationPath =
      .ok destination.id) :
    Effect.Atomic
      (cloneFileToExistingPathJournaled sb sourcePath destinationPath) d
      fun _ d' => ∃ a' destination' fresh, Spliced sb d d' a a' inodes entries
        destination destination' 0 destination.blocks.length fresh
        (chunksExact (fileBytes d source)) := by
  apply Effect.atomic_bind_of_ok h.recover
  apply Effect.atomic_query_bind
  intro _ _
  apply Effect.atomic_query_bind
  intro _ _
  apply Effect.atomic_lift_bind
  intro _ _
  apply Effect.atomic_bind_of_ok
    (h.readFileBlocksAtPath hsource hsourceKind hsourcePath)
  exact h.replaceFileAtPath hdestination hdestinationKind hdestinationPath _

/-- **When the destination gets the contents of the source**: its new end is a
whole number of blocks less the tail that was unused before. -/
theorem Spliced.fileBytes_eq_iff
    (hs : Spliced sb d d' a a' inodes entries destination destination' 0
      destination.blocks.length fresh (chunksExact (fileBytes d source)))
    (h : Mounted d sb a inodes entries) (hsource : source ∈ inodes)
    (hsourceKind : source.kind = .file) (hdestination : destination ∈ inodes)
    (hdestinationKind : destination.kind = .file) :
    fileBytes d' destination' = fileBytes d source ↔
      source.byteLen.toNat % BLOCK_SIZE = 0 ∧
        (source.byteLen = 0 ∨ destination.byteLen.toNat % BLOCK_SIZE = 0) := by
  obtain ⟨hbyteLen, hbytes⟩ := hs.fileBytes_whole h hdestination
  have hlen := length_fileBytes d (h.fileEnd hsource hsourceKind).1
  have hlen' := length_fileBytes d' (hs.mounted.fileEnd
    ((hs.fileChanged h).mem_self h hdestination) hs.kind_eq).1
  have hend := (h.fileEnd hdestination hdestinationKind).1
  have hle := hend.le_capacity
  have hlt := hend.capacity_lt
  have hnil : chunksExact (fileBytes d source) = [] ↔
      source.byteLen.toNat / BLOCK_SIZE = 0 := by
    rw [← List.length_eq_zero_iff, length_chunksExact, hlen]
  have hzero : source.byteLen = 0 ↔ source.byteLen.toNat = 0 :=
    ⟨fun heq => by rw [heq]; rfl, fun heq => UInt64.toNat_inj.mp heq⟩
  rw [length_chunksExact, hlen, if_congr hnil rfl rfl,
    PersistedInode.tailSlack] at hbyteLen
  rw [blockSize_eq] at *
  rw [hzero]
  constructor
  · intro hsame
    have hlens := congrArg List.length hsame
    rw [hlen, hlen'] at hlens
    rw [hlens] at hbyteLen
    split at hbyteLen <;> omega
  · intro hcond
    have hwhole : destination'.byteLen.toNat = source.byteLen.toNat := by
      rw [hbyteLen]
      split <;> omega
    rw [hbytes, flatMap_chunksExact, hlen, blockSize_eq, hwhole, List.take_take,
      List.take_of_length_le]
    omega

/-- **Everything else that a clone promises holds of every clone.** -/
theorem Spliced.cloned_iff
    (hs : Spliced sb d d' a a' inodes entries destination destination' 0
      destination.blocks.length fresh (chunksExact (fileBytes d source)))
    (h : Mounted d sb a inodes entries) (hsource : source ∈ inodes)
    (hsourceKind : source.kind = .file)
    (hsourcePath : resolvePathFollowingSymlinks d sb sourcePath =
      .ok source.id) (hdestination : destination ∈ inodes)
    (hdestinationKind : destination.kind = .file)
    (hdestinationPath : resolvePathFollowingSymlinks d sb destinationPath =
      .ok destination.id) (hne : source.id ≠ destination.id) :
    Cloned sb d d' sourcePath destinationPath source destination ↔
      source.byteLen.toNat % BLOCK_SIZE = 0 ∧
        (source.byteLen = 0 ∨ destination.byteLen.toNat % BLOCK_SIZE = 0) := by
  have hx := hs.fileChanged h
  have hself := hx.mem_self h hdestination
  have hstays := hx.mem_other h hdestination hsource hne
  have hread := h.readFileBlocksAtPath hsource hsourceKind hsourcePath
  have hread' := hs.mounted.readFileBlocksAtPath hstays hsourceKind
    (hx.resolves h hdestination hdestinationKind hsourcePath)
  have hcopy : readFileBlocksAtPath sb destinationPath d' =
      (.ok (fileBytes d' destination'), d') := by
    apply hs.mounted.readFileBlocksAtPath hself hs.kind_eq
    rw [hs.id_eq]
    exact hx.resolves h hdestination hdestinationKind hdestinationPath
  rw [← hs.fileBytes_eq_iff h hsource hsourceKind hdestination
    hdestinationKind]
  constructor
  · intro hcloned
    obtain ⟨bytes, hbytes, hbytes'⟩ := hcloned.copied
    rw [hread, Except.ok.injEq] at hbytes
    rw [hcopy, Except.ok.injEq] at hbytes'
    rw [hbytes, hbytes']
  · intro hsame
    have himages := hs.fileImages_other h hsource
    refine ⟨⟨_, by rw [hread], by rw [hcopy, hsame]⟩, ?_, himages, ?_, ?_⟩
    · rw [hread, hread', fileBytes, himages, fileBytes]
    · refine ⟨inodes, entries, destination', h.inodeTable, h.directoryTable, ?_,
        hs.mounted.directoryTable, hs.id_eq, ?_⟩
      · exact hx.inodeTable h
      · intro block hblock hshared
        apply hne
        rw [hs.mounted.owned.eq_of_shared hstays hself hblock hshared, hs.id_eq]
    · exact ⟨_, hs.mounted.check⟩

end Clone

/-- **Cloning over an existing file** copies it exactly if both files end on
block boundaries, or the source is empty. -/
theorem cloneToExisting_copies_iff {d d' : Disk} {sb : Superblock}
    {report : FsckReport} {source destination : PersistedInode}
    {sourcePath destinationPath : String} {r : RecoveryReport}
    (hsb : readSuperblock d = .ok sb)
    (hjournal : loadJournalImage d sb = .ok [])
    (hcheck : checkDevice d = .ok report)
    (hsource : FileAt d sb sourcePath source)
    (hdestination : FileAt d sb destinationPath destination)
    (hne : source.id ≠ destination.id)
    (hrun : cloneFileToExistingPathJournaled sb sourcePath destinationPath d =
      (.ok r, d')) :
    Cloned sb d d' sourcePath destinationPath source destination ↔
      source.byteLen.toNat % BLOCK_SIZE = 0 ∧
        (source.byteLen = 0 ∨ destination.byteLen.toNat % BLOCK_SIZE = 0) := by
  obtain ⟨a, inodes, entries, h⟩ := exists_mounted hsb hjournal hcheck
  have hmem : ∀ {path inode}, FileAt d sb path inode → inode ∈ inodes := by
    intro path inode hfile
    obtain ⟨other, hload, hmem⟩ := hfile.loaded
    rw [h.inodeTable, Except.ok.injEq] at hload
    rw [hload]
    exact hmem
  have hatomic := h.cloneFileToExistingPath (hmem hsource) hsource.kind_eq
    hsource.resolves (hmem hdestination) hdestination.kind_eq
    hdestination.resolves
  obtain ⟨a', destination', fresh, hs⟩ := hatomic.of_ok hrun
  exact hs.cloned_iff h (hmem hsource) hsource.kind_eq hsource.resolves
    (hmem hdestination) hdestination.kind_eq hdestination.resolves hne

/-! ## A clone that keeps the end of its destination -/

/-- The destination of the sample after a clone. -/
def clonedFile : PersistedInode := ⟨3, .file, [12], 10⟩

def clonedInodes : List PersistedInode :=
  [⟨1, .directory, [], 0⟩, ⟨2, .file, [10], 4096⟩, clonedFile]

theorem fileAt_source (data : Nat → Block) :
    FileAt (filesDisk data) treeSuperblock "/s" ⟨2, .file, [10], 4096⟩ := by
  refine ⟨?_, ⟨_, (mounted_filesDisk data).inodeTable, by decide⟩, rfl⟩
  exact @AtRest.resolve_rootName _ _ _ _ _ (mounted_filesDisk data).toAtRest "s"
    "/s" ⟨1, 2, "s"⟩ ⟨1, .directory, [], 0⟩ ⟨2, .file, [10], 4096⟩ (by decide)
    (by decide) (by decide) (by decide) rfl rfl (by decide) rfl rfl rfl

theorem fileAt_destination (data : Nat → Block) :
    FileAt (filesDisk data) treeSuperblock "/t" ⟨3, .file, [11], 10⟩ := by
  refine ⟨?_, ⟨_, (mounted_filesDisk data).inodeTable, by decide⟩, rfl⟩
  exact @AtRest.resolve_rootName _ _ _ _ _ (mounted_filesDisk data).toAtRest "t"
    "/t" ⟨1, 3, "t"⟩ ⟨1, .directory, [], 0⟩ ⟨3, .file, [11], 10⟩ (by decide)
    (by decide) (by decide) (by decide) rfl rfl (by decide) rfl rfl rfl

/-- The second file of the sample is replaced by any one block. -/
theorem replaceFileBlocks_filesDisk (image : Block) :
    ∃ r d', replaceFileBlocksJournaled treeSuperblock 3 0 1 [image]
      (filesDisk fun _ => Block.zero) = (.ok r, d') := by
  have h := mounted_filesDisk fun _ => Block.zero
  obtain ⟨mid, hloop⟩ : ∃ mid, allocateEach filesAllocator 1 =
      .ok ([12], mid) := by
    have hfirst : (allocateEach filesAllocator 1).map Prod.fst = .ok [12] := rfl
    obtain ⟨⟨_, mid⟩, htaken, rfl⟩ := Except.map_eq_ok.mp hfirst
    exact ⟨mid, htaken⟩
  have hedit : PersistedInode.replaceBlockRange ⟨3, .file, [11], 10⟩ 0 1 [12] =
      .ok ([11], clonedFile) := by decide
  obtain ⟨encoded, hencoded⟩ : ∃ encoded,
      inodeFormat.encodeImage treeSuperblock.inodeBlocks
        (setInode filesInodes clonedFile) = .ok encoded := by
    rw [show setInode filesInodes clonedFile = clonedInodes by decide]
    exact exists_inodeImage (by decide) (by decide) (by decide) (by decide)
      (by decide)
  apply @Mounted.replaceFileBlocks_ok _ _ _ _ _ _ _ clonedFile 1 [12] [11]
    [image] h (by decide : ⟨3, .file, [11], 10⟩ ∈ filesInodes) rfl (by decide)
    (by simp) (by decide) hloop hedit
  intro a' htotal hreserved
  exact h.toAtRest.publishFileChanges_tree htotal hreserved hencoded
    (by simp; decide) (by simp) (.inl (by simp))

/-- The first file of the sample is cloned over the second. -/
theorem cloneFile_filesDisk :
    ∃ r d', cloneFileToExistingPathJournaled treeSuperblock "/s" "/t"
      (filesDisk fun _ => Block.zero) = (.ok r, d') := by
  have h := mounted_filesDisk fun _ => Block.zero
  have hmem : ⟨2, .file, [10], 4096⟩ ∈ filesInodes := by decide
  have hsource := (fileAt_source fun _ => Block.zero).resolves
  have hdestination := (fileAt_destination fun _ => Block.zero).resolves
  obtain ⟨image, himage⟩ : ∃ image, chunksExact (fileBytes
      (filesDisk fun _ => Block.zero) ⟨2, .file, [10], 4096⟩) = [image] := by
    rw [← List.length_eq_one_iff, length_chunksExact,
      length_fileBytes _ (h.fileEnd hmem rfl).1]
    rfl
  obtain ⟨r, d', hrun⟩ := replaceFileBlocks_filesDisk image
  refine ⟨r.2.2, d', ?_⟩
  have hrequire : requireFile filesInodes 3 = .ok ⟨3, .file, [11], 10⟩ := rfl
  rw [cloneFileToExistingPathJournaled, Effect.bind_of_ok h.recover,
    resolve_bind hsource, resolve_bind hdestination,
    Effect.lift_bind_of_ok (a := ()) (rejectIf_of_not (by decide)),
    Effect.bind_of_ok (h.readFileBlocksAtPath hmem rfl hsource), himage,
    replaceFileAtPathJournaled, Effect.bind_of_ok h.recoverChecked,
    resolve_bind hdestination, h.inodes_bind, Effect.lift_bind_of_ok hrequire]
  dsimp only
  rw [if_neg (by decide), if_neg (by simp)]
  exact Effect.bind_of_ok hrun

theorem cloneToExisting_keeps_end :
    (∃ report, checkDevice (filesDisk fun _ => Block.zero) = .ok report) ∧
    FileAt (filesDisk fun _ => Block.zero) treeSuperblock "/s"
      ⟨2, .file, [10], 4096⟩ ∧
    FileAt (filesDisk fun _ => Block.zero) treeSuperblock "/t"
      ⟨3, .file, [11], 10⟩ ∧
    ∃ r d', cloneFileToExistingPathJournaled treeSuperblock "/s" "/t"
        (filesDisk fun _ => Block.zero) = (.ok r, d') ∧
      ¬ Cloned treeSuperblock (filesDisk fun _ => Block.zero) d' "/s" "/t"
        ⟨2, .file, [10], 4096⟩ ⟨3, .file, [11], 10⟩ := by
  have h := mounted_filesDisk fun _ => Block.zero
  have hsource : ⟨2, .file, [10], 4096⟩ ∈ filesInodes := by decide
  have hdestination : ⟨3, .file, [11], 10⟩ ∈ filesInodes := by decide
  refine ⟨⟨_, h.check⟩, fileAt_source _, fileAt_destination _, ?_⟩
  obtain ⟨r, d', hrun⟩ := cloneFile_filesDisk
  refine ⟨r, d', hrun, ?_⟩
  obtain ⟨a', destination', fresh, hs⟩ := (h.cloneFileToExistingPath hsource rfl
    (fileAt_source _).resolves hdestination rfl
    (fileAt_destination _).resolves).of_ok hrun
  rw [hs.cloned_iff h hsource rfl (fileAt_source _).resolves hdestination rfl
    (fileAt_destination _).resolves (by decide)]
  decide

theorem cloneToExisting_copies_iff_filesDisk :
    ∃ r d', cloneFileToExistingPathJournaled treeSuperblock "/s" "/t"
        (filesDisk fun _ => Block.zero) = (.ok r, d') ∧
      (Cloned treeSuperblock (filesDisk fun _ => Block.zero) d' "/s" "/t"
          ⟨2, .file, [10], 4096⟩ ⟨3, .file, [11], 10⟩ ↔
        (4096 : UInt64).toNat % BLOCK_SIZE = 0 ∧
          ((4096 : UInt64) = 0 ∨ (10 : UInt64).toNat % BLOCK_SIZE = 0)) := by
  have h := mounted_filesDisk fun _ => Block.zero
  obtain ⟨r, d', hrun⟩ := cloneFile_filesDisk
  exact ⟨r, d', hrun, cloneToExisting_copies_iff h.superblock h.journal h.check
    (fileAt_source _) (fileAt_destination _) (by decide) hrun⟩

end FilesystemLab
