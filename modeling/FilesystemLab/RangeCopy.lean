import FilesystemLab.FileWrite

/-!
# Copies between ranges of files

`file_copy_range.rs`: a copy reads the whole source range and then writes it
over the destination, which may be a part of the same file.

* `RangeWritten` is what a write in place leaves: the bytes of the range, and
  everything else as it was, with the bytes behind the end of the file.
* `fileRange_slice_splice` states the three range operations as slices and
  splices of the contents.
-/

namespace FilesystemLab

open Bytes WriteLog

/-! ## The operation -/

/-- `FileRangeEndpoint`. -/
structure FileRangeEndpoint where
  inode : UInt64
  firstBlock : Nat
  offset : Nat

/-- The position of an endpoint in the bytes of its file. -/
def FileRangeEndpoint.start (endpoint : FileRangeEndpoint) : Nat :=
  endpoint.firstBlock * BLOCK_SIZE + endpoint.offset

/-- `copy_file_range_journaled`. -/
def copyFileRangeJournaled {σ : Type} [BlockDevice σ] (sb : Superblock)
    (source destination : FileRangeEndpoint) (len : Nat) :
    Effect (Abort IoError) σ RecoveryReport := do
  let snapshot ← Effect.abortable (Effect.query
    (readFileRange · sb source.inode source.firstBlock source.offset len))
  writeFileRangeJournaled sb destination.inode destination.firstBlock
    destination.offset snapshot

/-- A copy is what is read, written. -/
theorem copyFileRangeJournaled_of_ok {σ : Type} [BlockDevice σ] {d d' : σ}
    {sb : Superblock} {source destination : FileRangeEndpoint} {len : Nat}
    {bytes : List UInt8} {result : Except (Abort IoError) RecoveryReport}
    (hread : readFileRange d sb source.inode source.firstBlock source.offset
      len = .ok bytes)
    (hwrite : writeFileRangeJournaled sb destination.inode
      destination.firstBlock destination.offset bytes d = (result, d')) :
    copyFileRangeJournaled sb source destination len d = (result, d') := by
  have hsnapshot : Effect.abortable (Effect.query (readFileRange · sb
      source.inode source.firstBlock source.offset len)) d = (.ok bytes, d) := by
    rw [Effect.abortable, Effect.query_apply, hread]
    rfl
  rw [copyFileRangeJournaled, Effect.bind_of_ok hsnapshot]
  exact hwrite

/-! ## What a write in place leaves -/

/-- The disk `d'` is `d` with `bytes` written over a file from `start` on: its
bytes before and behind the range, also those behind its end, the tables and
the blocks of the other files are those of before. -/
structure RangeWritten (sb : Superblock) (d d' : Disk) (inode : PersistedInode)
    (start : Nat) (bytes : List UInt8) : Prop where
  superblock : readSuperblock d' = .ok sb
  journal : loadJournalImage d' sb = .ok []
  checked : ∃ report, checkDevice d' = .ok report
  allocator : loadAllocator d' sb = loadAllocator d sb
  inodes : loadInodeTable d' sb = loadInodeTable d sb
  entries : loadDirectoryTable d' sb = loadDirectoryTable d sb
  length_eq : (fileBytes d' inode).length = (fileBytes d inode).length
  contents : fileBytes d' inode = overwrite (fileBytes d inode) start bytes
  tail : fileTail d' inode = fileTail d inode
  others : ∀ b, sb.reservedBlocks ≤ b → b ∉ inode.blocks.map UInt64.toNat →
    d'.blocks b = d.blocks b

section Mounted

variable {d d' : Disk} {sb : Superblock} {a a' : BlockAllocator}
  {inodes : List PersistedInode} {entries : List PersistedDirectoryEntry}
  {inode : PersistedInode} {start : Nat} {bytes : List UInt8}

/-- A file that keeps all its blocks and takes none leaves the allocator. -/
theorem Rewritten.allocator_eq
    (hr : Rewritten sb d d' a a' inodes entries inode inode
      inode.blocks.length []) (h : Mounted d sb a inodes entries) : a' = a := by
  obtain ⟨htotal, hreserved⟩ := h.geometry
  obtain ⟨htotal', hreserved'⟩ := hr.mounted.geometry
  apply BlockAllocator.ext_flag (by omega) (by omega)
  intro block _ _
  rw [hr.flag, List.drop_length]
  simp

/-- A write inside a file, as a caller sees it. -/
theorem Rewritten.rangeWritten
    (hr : Rewritten sb d d' a a' inodes entries inode inode
      inode.blocks.length []) (h : Mounted d sb a inodes entries)
    (hmem : inode ∈ inodes) (hkind : inode.kind = .file)
    (hinside : start + bytes.length ≤ inode.byteLen.toNat)
    (hspace : fileSpace d' inode = overwrite (fileSpace d inode) start bytes) :
    RangeWritten sb d d' inode start bytes := by
  have hend := (h.fileEnd hmem hkind).1
  have hcapacity := hend.le_capacity
  have hroom : inode.byteLen.toNat ≤ (fileSpace d inode).length := by
    rw [length_fileSpace]
    exact hcapacity
  refine ⟨hr.mounted.superblock, hr.mounted.journal, ⟨_, hr.mounted.check⟩,
    ?_, ?_, ?_, ?_, ?_, ?_, hr.kept⟩
  · rw [hr.mounted.allocator, h.allocator, hr.allocator_eq h]
  · rw [hr.mounted.inodeTable, h.inodeTable, setInode_self h.nodup_ids hmem]
  · rw [hr.mounted.directoryTable, h.directoryTable]
  · rw [length_fileBytes d' hend, length_fileBytes d hend]
  · rw [fileBytes_eq_take, hspace, take_overwrite hinside hroom]
    rfl
  · rw [fileTail, hspace, drop_overwrite hinside (by omega)]
    rfl

/-- A range write that passes its checks has found its file. -/
theorem Mounted.of_rangeWrites (h : Mounted d sb a inodes entries) {id : UInt64}
    {firstBlock offset : Nat} {writes : List (Nat × Block)}
    (hwrites : rangeWrites d sb id firstBlock offset bytes = .ok writes) :
    ∃ inode ∈ inodes, inode.id = id ∧ inode.kind = .file := by
  simp only [rangeWrites, h.inodeTable, Except.bind_eq_ok, rejectIf_eq_ok,
    okOr_eq_ok, Abort.lift_eq_ok, Except.ok.injEq, not_ne_iff] at hwrites
  obtain ⟨_, _, _, _, _, _, _, rfl, inode, hfind, _, hkind, _⟩ := hwrites
  obtain ⟨hmem, hid⟩ := findInode_eq_some hfind
  exact ⟨inode, hmem, hid, hkind⟩

/-- `write_file_range_journaled` on a mounted disk, for any inode number. -/
theorem Mounted.rangeRewritten (h : Mounted d sb a inodes entries) (id : UInt64)
    (firstBlock offset : Nat) (bytes : List UInt8) :
    Effect.Atomic (writeFileRangeJournaled sb id firstBlock offset bytes) d
      fun _ d' => ∃ inode ∈ inodes, inode.id = id ∧ inode.kind = .file ∧
        firstBlock * BLOCK_SIZE + offset + bytes.length ≤
          inode.byteLen.toNat ∧ ∃ a',
        Rewritten sb d d' a a' inodes entries inode inode inode.blocks.length
          [] ∧ fileSpace d' inode = overwrite (fileSpace d inode)
            (firstBlock * BLOCK_SIZE + offset) bytes := by
  cases hwrites : rangeWrites d sb id firstBlock offset bytes with
  | error e =>
    left
    refine ⟨e, ?_⟩
    rw [writeFileRangeJournaled, Effect.query_bind, hwrites]
  | ok writes =>
    obtain ⟨inode, hmem, rfl, hkind⟩ := h.of_rangeWrites hwrites
    apply (h.writeFileRange hmem hkind firstBlock offset bytes).mono
    intro report d' hpost
    exact ⟨inode, hmem, rfl, hkind, hpost⟩

/-- What a caller sees of a range write. -/
theorem Mounted.rangeWritten (h : Mounted d sb a inodes entries) (id : UInt64)
    (firstBlock offset : Nat) (bytes : List UInt8) :
    Effect.Atomic (writeFileRangeJournaled sb id firstBlock offset bytes) d
      fun _ d' => ∃ inode ∈ inodes, inode.id = id ∧ inode.kind = .file ∧
        firstBlock * BLOCK_SIZE + offset + bytes.length ≤
          (fileBytes d inode).length ∧
        RangeWritten sb d d' inode (firstBlock * BLOCK_SIZE + offset) bytes := by
  apply (h.rangeRewritten id firstBlock offset bytes).mono
  intro report d' hpost
  rcases hpost with ⟨inode, hmem, hid, hkind, hinside, a', hr, hspace⟩
  refine ⟨inode, hmem, hid, hkind, ?_, hr.rangeWritten h hmem hkind hinside
    hspace⟩
  rw [length_fileBytes d (h.fileEnd hmem hkind).1]
  exact hinside

/-- **A range read**, with the bounds that its checks have. -/
theorem Mounted.readFileRange_slice (h : Mounted d sb a inodes entries)
    (hmem : inode ∈ inodes) (hkind : inode.kind = .file)
    {firstBlock offset len : Nat} {bytes : List UInt8} :
    readFileRange d sb inode.id firstBlock offset len = .ok bytes ↔
      len ≠ 0 ∧ offset < BLOCK_SIZE ∧
      firstBlock * BLOCK_SIZE + offset + len < U64_LIMIT ∧
      firstBlock * BLOCK_SIZE + offset + len ≤ (fileBytes d inode).length ∧
      bytes = ((fileBytes d inode).drop
        (firstBlock * BLOCK_SIZE + offset)).take len := by
  rw [h.readFileRange_iff hmem hkind,
    length_fileBytes d (h.fileEnd hmem hkind).1]
  have hlimit : inode.byteLen.toNat < U64_LIMIT := inode.byteLen.toNat_lt
  constructor
  · intro hfacts
    rcases hfacts with ⟨hlen, hoffset, hinside, hbytes⟩
    exact ⟨hlen, hoffset, by omega, hinside, hbytes⟩
  · intro hfacts
    rcases hfacts with ⟨hlen, hoffset, _, hinside, hbytes⟩
    exact ⟨hlen, hoffset, hinside, hbytes⟩

/-- The file that a range was read from. -/
theorem Mounted.of_readFileRange (h : Mounted d sb a inodes entries)
    {id : UInt64} {firstBlock offset len : Nat} {bytes : List UInt8}
    (hread : readFileRange d sb id firstBlock offset len = .ok bytes) :
    ∃ inode ∈ inodes, inode.id = id ∧ inode.kind = .file := by
  simp only [readFileRange, h.inodeTable, Except.bind_eq_ok, rejectIf_eq_ok,
    okOr_eq_ok, Except.ok.injEq, not_ne_iff] at hread
  obtain ⟨_, _, _, _, _, _, _, rfl, inode, hfind, _, hkind, _⟩ := hread
  obtain ⟨hmem, hid⟩ := findInode_eq_some hfind
  exact ⟨inode, hmem, hid, hkind⟩

/-- `copy_file_range_journaled` on a mounted disk: the destination gets the
bytes that the source range had before. -/
theorem Mounted.copyFileRange (h : Mounted d sb a inodes entries)
    (source destination : FileRangeEndpoint) (len : Nat) :
    Effect.Atomic (copyFileRangeJournaled sb source destination len) d
      fun _ d' => ∃ src ∈ inodes, src.id = source.inode ∧ src.kind = .file ∧
        ∃ dst ∈ inodes, dst.id = destination.inode ∧ dst.kind = .file ∧
        source.start + len ≤ (fileBytes d src).length ∧
        destination.start + len ≤ (fileBytes d dst).length ∧
        RangeWritten sb d d' dst destination.start
          (((fileBytes d src).drop source.start).take len) := by
  cases hread : readFileRange d sb source.inode source.firstBlock source.offset
      len with
  | error e =>
    left
    refine ⟨.error e, ?_⟩
    apply Effect.bind_of_error
    rw [Effect.abortable, Effect.query_apply, hread]
    rfl
  | ok snapshot =>
    have hquery : Effect.abortable (Effect.query (readFileRange · sb
        source.inode source.firstBlock source.offset len)) d =
        (.ok snapshot, d) := by
      rw [Effect.abortable, Effect.query_apply, hread]
      rfl
    obtain ⟨src, hsrc, hid, hkind⟩ := h.of_readFileRange hread
    rw [← hid, h.readFileRange_slice hsrc hkind] at hread
    rcases hread with ⟨_, _, _, hinside, hbytes⟩
    have hlen : snapshot.length = len := by
      rw [hbytes, List.length_take, List.length_drop]
      omega
    apply Effect.atomic_bind_of_ok hquery
    apply (h.rangeWritten destination.inode destination.firstBlock
      destination.offset snapshot).mono
    intro report d' hpost
    rcases hpost with ⟨dst, hdst, hid', hkind', hroom, hwritten⟩
    rw [hlen] at hroom
    rw [hbytes] at hwritten
    exact ⟨src, hsrc, hid, hkind, dst, hdst, hid', hkind', hinside, hroom,
      hwritten⟩

end Mounted

/-- A copy stays in bounds on every device. -/
theorem noPanic_copyFileRange (sb : Superblock)
    (source destination : FileRangeEndpoint) (len : Nat) :
    Effect.NoPanic (copyFileRangeJournaled (σ := Disk) sb source destination
      len) := by
  apply (Effect.noPanic_abortable _).bind
  intro snapshot
  exact noPanic_writeFileRange sb _ _ _ _

/-- **Range reads and in-place range writes are slice and splice.**  On a device
that the check accepts with an empty journal, a read returns the slice of the
contents, and exactly for a range inside them; a write and a copy leave the
contents with the bytes, or the slice of before, over them, and change nothing
else; and if they fail, they change nothing. -/
theorem fileRange_slice_splice {d : Disk} {sb : Superblock}
    {report : FsckReport} {inodes : List PersistedInode}
    (hsb : readSuperblock d = .ok sb)
    (hjournal : loadJournalImage d sb = .ok [])
    (hcheck : checkDevice d = .ok report)
    (hload : loadInodeTable d sb = .ok inodes) :
    (∀ inode ∈ inodes, inode.kind = .file →
      ∀ (firstBlock offset len : Nat) (bytes : List UInt8),
        readFileRange d sb inode.id firstBlock offset len = .ok bytes ↔
          len ≠ 0 ∧ offset < BLOCK_SIZE ∧
          firstBlock * BLOCK_SIZE + offset + len < U64_LIMIT ∧
          firstBlock * BLOCK_SIZE + offset + len ≤
            (fileBytes d inode).length ∧
          bytes = ((fileBytes d inode).drop
            (firstBlock * BLOCK_SIZE + offset)).take len) ∧
    (∀ (id : UInt64) (firstBlock offset : Nat) (bytes : List UInt8)
      (result : Except (Abort IoError) RecoveryReport) (d' : Disk),
      writeFileRangeJournaled sb id firstBlock offset bytes d = (result, d') →
      match result with
      | .error e => e ≠ .panic ∧ d' = d
      | .ok _ => ∃ inode ∈ inodes, inode.id = id ∧ inode.kind = .file ∧
          firstBlock * BLOCK_SIZE + offset + bytes.length ≤
            (fileBytes d inode).length ∧
          RangeWritten sb d d' inode (firstBlock * BLOCK_SIZE + offset)
            bytes) ∧
    ∀ (source destination : FileRangeEndpoint) (len : Nat)
      (result : Except (Abort IoError) RecoveryReport) (d' : Disk),
      copyFileRangeJournaled sb source destination len d = (result, d') →
      match result with
      | .error e => e ≠ .panic ∧ d' = d
      | .ok _ => ∃ src ∈ inodes, src.id = source.inode ∧ src.kind = .file ∧
          ∃ dst ∈ inodes, dst.id = destination.inode ∧ dst.kind = .file ∧
          source.start + len ≤ (fileBytes d src).length ∧
          destination.start + len ≤ (fileBytes d dst).length ∧
          RangeWritten sb d d' dst destination.start
            (((fileBytes d src).drop source.start).take len) := by
  obtain ⟨a, inodes', entries, h⟩ := exists_mounted hsb hjournal hcheck
  rw [h.inodeTable, Except.ok.injEq] at hload
  subst hload
  refine ⟨?_, ?_, ?_⟩
  · intro inode hmem hkind firstBlock offset len bytes
    exact h.readFileRange_slice hmem hkind
  · intro id firstBlock offset bytes result d' hrun
    have hatomic := h.rangeWritten id firstBlock offset bytes
    have hpanic := noPanic_writeFileRange sb id firstBlock offset bytes d
    cases result with
    | error e =>
      have hsame := hatomic.of_error (congrArg Prod.fst hrun)
      rw [hrun] at hsame hpanic
      exact ⟨fun heq => hpanic (by rw [heq]), hsame⟩
    | ok r => exact hatomic.of_ok hrun
  · intro source destination len result d' hrun
    have hatomic := h.copyFileRange source destination len
    have hpanic := noPanic_copyFileRange sb source destination len d
    cases result with
    | error e =>
      have hsame := hatomic.of_error (congrArg Prod.fst hrun)
      rw [hrun] at hsame hpanic
      exact ⟨fun heq => hpanic (by rw [heq]), hsame⟩
    | ok r => exact hatomic.of_ok hrun

/-! ## A sample copy -/

/-- A few data blocks are published on the sample geometry. -/
theorem AtRest.publishData_tree {d : Disk} {a : BlockAllocator}
    {inodes : List PersistedInode} {entries : List PersistedDirectoryEntry}
    {data : List (UInt64 × Block)} {mismatch : String}
    (h : AtRest d treeSuperblock a inodes entries)
    (hdata : ∀ w ∈ data, treeSuperblock.reservedBlocks ≤ w.1.toNat ∧
      w.1.toNat < treeSuperblock.totalBlocks) (hlen : data.length ≤ 5) :
    ∃ report d', publishChanges recoverJournalAndCheckpoint mismatch
      treeSuperblock (dataWrites data) d = (.ok report, d') := by
  obtain ⟨tables, htables, hnone⟩ := h.tables_held
  by_cases hempty : dataWrites data = []
  · rw [hempty, publishChanges, if_pos rfl]
    exact ⟨_, d, rfl⟩
  · have hsame : differing d.blocks tables ++ dataWrites data =
        dataWrites data := by rw [hnone, List.nil_append]
    obtain ⟨report, d', hrun⟩ := h.publishTransaction_ok htables hdata
      (by rw [hsame]; exact hempty)
      (by
        rw [hsame]
        apply changesFit_tree
        rw [dataWrites, List.length_map]
        exact hlen) mismatch
    rw [hsame, publishTransaction_eq hempty] at hrun
    exact ⟨report, d', hrun⟩

/-- The block that two bytes behind the first of the first file give. -/
theorem rangeWrites_filesDisk (contents : Nat → Block) {bytes : List UInt8}
    (hbytes : bytes.length = 2) :
    ∃ image, rangeWrites (filesDisk contents) treeSuperblock 2 0 1 bytes =
      .ok [(0, image)] := by
  have h := mounted_filesDisk contents
  have hmem : ⟨2, .file, [10], 4096⟩ ∈ filesInodes := by decide
  have hload : (Abort.lift (loadInodeTable (filesDisk contents)
      treeSuperblock) : Except (Abort IoError) _) = .ok filesInodes :=
    Abort.lift_eq_ok.mpr h.inodeTable
  have hread : (Abort.lift (readFileBlock (filesDisk contents) treeSuperblock 2
      0) : Except (Abort IoError) _) = .ok ((filesDisk contents).blocks 10) :=
    Abort.lift_eq_ok.mpr (h.readFileBlock hmem rfl (by rfl))
  obtain ⟨image, hcopy, _⟩ := @copyFromSlice_ok
    ((filesDisk contents).blocks 10) 1 3 0 2 bytes (by omega) (by decide)
    (by omega) (by omega) rfl
  have hfind : okOr (findInode filesInodes 2) (Abort.error
      (invalidInput "file-data target inode is missing")) =
        .ok ⟨2, .file, [10], 4096⟩ := rfl
  have hne : bytes ≠ [] := by
    intro hnil
    rw [hnil] at hbytes
    cases hbytes
  have hstart : okOr ((checkedMul 0 BLOCK_SIZE).bind (checkedAdd · 1))
      (Abort.error (invalidInput "file-data absolute byte offset overflow")) =
        .ok 1 := rfl
  have hend : okOr (checkedAdd 1 2) (Abort.error
      (invalidInput "file-data range length overflow")) = .ok 3 := rfl
  have hindex : okOr (checkedAdd 0 0) (Abort.error
      (invalidInput "file-data logical index overflow")) = .ok 0 := rfl
  have htaken : min (BLOCK_SIZE - 1) (2 - 0) = 2 := rfl
  refine ⟨image, ?_⟩
  rw [rangeWrites, rejectIf_of_not (by
    rw [blockSize_eq]
    exact not_or.mpr ⟨hne, by omega⟩), Except.ok_bind, hstart, Except.ok_bind,
    hbytes, hend, Except.ok_bind, hload, Except.ok_bind, hfind, Except.ok_bind,
    rejectIf_of_not (by decide), Except.ok_bind, rejectIf_of_not (by decide),
    Except.ok_bind, Except.ok_bind,
    show (3 + BLOCK_SIZE - 1) / BLOCK_SIZE = 1 from rfl, writeRangeBlocks,
    hindex, Except.ok_bind, hread, Except.ok_bind, if_pos rfl, hbytes]
  dsimp only
  rw [htaken, Nat.zero_add, hcopy]
  rfl

/-- At most the block of the first file is changed. -/
theorem changedBlocks_filesDisk (contents : Nat → Block) (image : Block) :
    ∃ changed, changedBlocks (filesDisk contents) filesAllocator
      ⟨2, .file, [10], 4096⟩ [] [(0, image)] = .ok changed ∧
      changed.length ≤ 1 ∧ ∀ w ∈ changed, w.1 = 10 := by
  have hblock : readBlock (filesDisk contents) (10 : UInt64).toNat =
      .ok ((filesDisk contents).blocks 10) :=
    Disk.readBlock_of_lt (show 10 < 16 by decide)
  have howned : filesAllocator.isOwned (10 : UInt64).toNat = .ok true := rfl
  rw [changedBlocks, rejectIf_of_not (by decide), Except.ok_bind,
    List.getElem?_cons_zero, okOr_some, Except.ok_bind,
    liftAllocation_eq_ok.mpr howned, Except.ok_bind,
    rejectIf_of_not (by decide), Except.ok_bind, hblock, Except.ok_bind,
    changedBlocks]
  by_cases hsame : (filesDisk contents).blocks 10 = image
  · refine ⟨[], ?_, by decide, by simp⟩
    rw [Except.pure_eq_ok, Except.ok_bind, if_neg (not_not.mpr hsame)]
    rfl
  · refine ⟨[(10, image)], ?_, by simp, by simp⟩
    rw [Except.pure_eq_ok, Except.ok_bind, if_pos hsame]
    rfl

/-- Two bytes are written behind the first of the first file of the sample. -/
theorem writeFileRange_filesDisk (contents : Nat → Block) {bytes : List UInt8}
    (hbytes : bytes.length = 2) :
    ∃ r d', writeFileRangeJournaled treeSuperblock 2 0 1 bytes
      (filesDisk contents) = (.ok r, d') := by
  have h := mounted_filesDisk contents
  obtain ⟨image, hwrites⟩ := rangeWrites_filesDisk contents hbytes
  obtain ⟨changed, hchanged, hlen, hnames⟩ :=
    changedBlocks_filesDisk contents image
  obtain ⟨report, d', hrun⟩ := @AtRest.publishData_tree _ _ _ _ changed
    "multi-block file-data transaction recovery report is inconsistent"
    h.toAtRest (by
      intro w hw
      rw [hnames w hw]
      decide) (by omega)
  refine ⟨report, d', ?_⟩
  have hfound : okOr (findInode filesInodes 2)
      (invalidInput "file-data target inode is missing") =
        .ok ⟨2, .file, [10], 4096⟩ := rfl
  have hblocks : writeFileBlocksJournaled treeSuperblock 2 [(0, image)]
      (filesDisk contents) = (.ok report, d') := by
    rw [writeFileBlocksJournaled,
      Effect.lift_bind_of_ok (a := ()) (rejectIf_of_not (by simp)),
      h.inodes_bind,
      Effect.lift_bind_of_ok hfound,
      Effect.lift_bind_of_ok (a := ()) (rejectIf_of_not (by decide)),
      h.allocator_bind, Effect.query_bind_of_ok (q := fun d : Disk =>
        changedBlocks d filesAllocator ⟨2, .file, [10], 4096⟩ [] [(0, image)])
        hchanged]
    exact hrun
  rw [writeFileRangeJournaled, Effect.query_bind_of_ok (q := fun d : Disk =>
    rangeWrites d treeSuperblock 2 0 1 bytes) hwrites, Effect.abortable,
    hblocks]
  rfl

/-- Data blocks that start with three different bytes. -/
def countingBlock (_ : Nat) : Block := Block.ofBytes [1, 2, 3]

theorem take_fileBytes_countingBlock :
    (fileBytes (filesDisk countingBlock) ⟨2, .file, [10], 4096⟩).take 2 =
      [1, 2] := by
  have hblock : (filesDisk countingBlock).blocks 10 = Block.ofBytes [1, 2, 3] :=
    rfl
  have hend : (4096 : UInt64).toNat = 4096 := rfl
  have htwo : min 2 4096 = 2 := rfl
  have hten : (10 : UInt64).toNat = 10 := rfl
  rw [fileBytes, fileImages, List.map_singleton, hten, hblock, hend,
    List.flatMap_singleton, List.take_take, htwo,
    Block.bytes_ofBytes_of_le (by decide)]
  rfl

/-- The first two bytes of a file, `1` and `2`, are copied over the second and
the third, `2` and `3`. -/
theorem fileRange_slice_splice_filesDisk :
    ∃ (r : RecoveryReport) (d' : Disk),
      copyFileRangeJournaled treeSuperblock ⟨2, 0, 0⟩ ⟨2, 0, 1⟩ 2
        (filesDisk countingBlock) = (.ok r, d') ∧
      ∃ inode ∈ filesInodes, inode.id = 2 ∧
        RangeWritten treeSuperblock (filesDisk countingBlock) d' inode 1
          [1, 2] := by
  have h := mounted_filesDisk countingBlock
  have hmem : ⟨2, .file, [10], 4096⟩ ∈ filesInodes := by decide
  obtain ⟨hreads, _, hcopies⟩ :=
    fileRange_slice_splice h.superblock h.journal h.check h.inodeTable
  have hlen := length_fileBytes (filesDisk countingBlock)
    (h.fileEnd hmem rfl).1
  have hread := (hreads _ hmem rfl 0 0 2 _).mpr ⟨by decide, by decide,
    by decide, by rw [hlen]; decide, rfl⟩
  obtain ⟨r, d', hrun⟩ := @writeFileRange_filesDisk countingBlock
    (((fileBytes (filesDisk countingBlock)
      ⟨2, .file, [10], 4096⟩).drop (0 * BLOCK_SIZE + 0)).take 2) (by
    rw [List.length_take, List.length_drop, hlen]
    rfl)
  have hcopy : copyFileRangeJournaled treeSuperblock ⟨2, 0, 0⟩ ⟨2, 0, 1⟩ 2
      (filesDisk countingBlock) = (.ok r, d') :=
    copyFileRangeJournaled_of_ok hread hrun
  obtain ⟨src, hsrc, hid, _, dst, hdst, hid', _, _, _, hwritten⟩ :=
    hcopies ⟨2, 0, 0⟩ ⟨2, 0, 1⟩ 2 _ d' hcopy
  have hsame : src = dst :=
    List.inj_on_of_nodup_map h.nodup_ids hsrc hdst (hid.trans hid'.symm)
  have hsource : src = ⟨2, .file, [10], 4096⟩ :=
    List.inj_on_of_nodup_map h.nodup_ids hsrc hmem hid
  have hbytes : ((fileBytes (filesDisk countingBlock) dst).drop
      (0 * BLOCK_SIZE + 0)).take 2 = [1, 2] := by
    rw [← hsame, hsource, Nat.zero_mul, Nat.add_zero, List.drop_zero]
    exact take_fileBytes_countingBlock
  rw [hsame] at hwritten
  exact ⟨r, d', hcopy, dst, hdst, hid', hbytes ▸ hwritten⟩

end FilesystemLab
