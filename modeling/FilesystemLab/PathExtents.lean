import FilesystemLab.Defragment
import FilesystemLab.FileExtents
import FilesystemLab.FileResize
import FilesystemLab.FreeSpace
import FilesystemLab.PathReads

/-!
# Where the space is

`path_file_extents.rs` on paths, and the counts of `filesystem_space.rs`.

The extents of a file are where its bytes are (`fileExtents_agree`), no two files
share a block, and none has a free one (`fileExtents_apart`).  Pages of extents
lose nothing behind any cursor but the last (`fileExtentPages_cover`), and the
counts add up (`filesystemSpace_adds_up`).
-/

namespace FilesystemLab

open Pages

/-! ## The functions -/

/-- `FilesystemSpace`. -/
structure FilesystemSpace where
  blockSize : Nat
  totalBlocks : Nat
  reservedBlocks : Nat
  dataBlocks : Nat
  allocatedDataBlocks : Nat
  freeDataBlocks : Nat
deriving DecidableEq, Repr

section Device

variable {σ : Type} [BlockDevice σ]

/-- `filesystem_space`. -/
def filesystemSpace (sb : Superblock) : DevM σ FilesystemSpace := do
  let _ ← recoverJournalAndCheckpoint sb
  let report ← Effect.query checkDevice
  validateSpaceGeometry sb report.totalBlocks report.reservedBlocks
  pure {
    blockSize := BLOCK_SIZE
    totalBlocks := report.totalBlocks
    reservedBlocks := report.reservedBlocks
    dataBlocks := report.dataBlocks
    allocatedDataBlocks := report.allocatedBlocks
    freeDataBlocks := report.freeBlocks }

/-- `recovered_file_blocks`. -/
def recoveredFileBlocks (sb : Superblock) (path : String) :
    DevM σ (List UInt64) := do
  let _ ← recoverJournalAndCheckpoint sb
  let _ ← Effect.query checkDevice
  let id ← Effect.query (resolvePathFollowingSymlinks · sb path)
  let inodes ← Effect.query (loadInodeTable · sb)
  let inode ← okOr (findInode inodes id) (invalidData
    "resolved inode is missing from validated inode table")
  rejectIf (inode.kind ≠ .file)
    (invalidInput "resolved pathname is not a regular file")
  pure inode.blocks

/-- `file_extents_at_path`. -/
def fileExtentsAtPath (sb : Superblock) (path : String) :
    DevM σ (List FileExtent) := do
  let blocks ← recoveredFileBlocks sb path
  coalesceExtents blocks

/-- `file_extents_page_at_path`. -/
def fileExtentsPageAtPath (sb : Superblock) (path : String)
    (afterLogical : Option Nat) (limit : Nat) : DevM σ FileExtentPage := do
  rejectIf (limit = 0)
    (invalidInput "pathname extent page limit must be greater than zero")
  let blocks ← recoveredFileBlocks sb path
  let extents ← coalesceExtents blocks
  paginateExtents extents afterLogical limit

end Device

/-! ## The blocks of extents -/

/-- The blocks of the device that an extent takes. -/
def FileExtent.physical (extent : FileExtent) : List Nat :=
  List.range' extent.physicalStart extent.blockCount

theorem FileExtent.map_snd_cells (extent : FileExtent) :
    extent.cells.map Prod.snd = extent.physical := by
  apply List.map_snd_zip
  rw [List.length_range', List.length_range']

theorem map_snd_logicalBlocks (start : Nat) (blocks : List UInt64) :
    (logicalBlocks start blocks).map Prod.snd = blocks.map UInt64.toNat := by
  apply List.map_snd_zip
  rw [List.length_range', List.length_map]

/-- The extents of a block vector take its blocks. -/
theorem Coalesces.physical_eq {blocks : List UInt64} {extents : List FileExtent}
    (h : Coalesces blocks extents) :
    extents.flatMap FileExtent.physical = blocks.map UInt64.toNat := by
  rw [← map_snd_logicalBlocks 0, ← h.cells_eq, List.map_flatMap]
  exact List.flatMap_congr fun extent _ => extent.map_snd_cells.symm

/-! ## On a mounted disk -/

section Mounted

variable {d : Disk} {sb : Superblock} {a : BlockAllocator}
  {inodes : List PersistedInode} {entries : List PersistedDirectoryEntry}
  {inode : PersistedInode} {path : String} {extents : List FileExtent}

/-- `recovered_file_blocks` on a mounted disk. -/
theorem Mounted.recoveredFileBlocks (h : Mounted d sb a inodes entries)
    (path : String) :
    (FilesystemLab.recoveredFileBlocks sb path d).2 = d ∧
      ∀ blocks, (FilesystemLab.recoveredFileBlocks sb path d).1 = .ok blocks ↔
        ∃ inode, FileAt d sb path inode ∧ inode.blocks = blocks := by
  rw [FilesystemLab.recoveredFileBlocks, Effect.bind_of_ok h.recover,
    Effect.query_bind_of_ok h.check]
  cases hpath : resolvePathFollowingSymlinks d sb path with
  | error e =>
    rw [Effect.query_bind, hpath]
    refine ⟨rfl, fun blocks => iff_of_false nofun ?_⟩
    intro hfound
    obtain ⟨inode, hfile, _⟩ := hfound
    have hok := hfile.resolves
    rw [hpath] at hok
    cases hok
  | ok id =>
    have hid := h.resolvePath_eq_ok.mp hpath
    obtain ⟨inode, hmem, rfl, _⟩ := h.exists_inode hid
    -- no other file is there
    have hsame : ∀ other, FileAt d sb path other → other = inode := by
      intro other hother
      have hother' := hother.resolves
      rw [hpath, Except.ok.injEq] at hother'
      exact List.inj_on_of_nodup_map h.nodup_ids (hother.mem h.toAtRest) hmem
        hother'.symm
    have hfind : okOr (findInode inodes inode.id) (invalidData
        "resolved inode is missing from validated inode table") =
          .ok inode := by
      rw [findInode_of_mem h.nodup_ids hmem, okOr_some]
    rw [resolve_bind hpath, h.inodes_bind, Effect.lift_bind_of_ok hfind]
    by_cases hkind : inode.kind = .file
    · rw [Effect.lift_bind_of_ok (a := ())
        (rejectIf_of_not (not_ne_iff.mpr hkind))]
      refine ⟨rfl, fun blocks => ?_⟩
      constructor
      · intro hblocks
        exact ⟨inode, ⟨hpath, ⟨inodes, h.inodeTable, hmem⟩, hkind⟩,
          Except.ok.inj hblocks⟩
      · intro hfound
        obtain ⟨other, hother, rfl⟩ := hfound
        rw [hsame other hother]
        rfl
    · rw [rejectIf_of hkind]
      refine ⟨rfl, fun blocks => iff_of_false nofun ?_⟩
      intro hfound
      obtain ⟨other, hother, _⟩ := hfound
      rw [← hsame other hother] at hkind
      exact hkind hother.kind_eq

/-- `file_extents_at_path` on a mounted disk: the extents of a file. -/
theorem Mounted.fileExtentsAtPath (h : Mounted d sb a inodes entries)
    (path : String) :
    (FilesystemLab.fileExtentsAtPath sb path d).2 = d ∧
      ∀ extents, (FilesystemLab.fileExtentsAtPath sb path d).1 = .ok extents ↔
        ∃ inode, FileAt d sb path inode ∧
          coalesceExtents inode.blocks = .ok extents := by
  obtain ⟨hsame, hblocks⟩ := h.recoveredFileBlocks path
  rw [FilesystemLab.fileExtentsAtPath, Effect.bind_apply]
  rcases hrun : FilesystemLab.recoveredFileBlocks sb path d with ⟨r, d'⟩
  rw [hrun] at hsame hblocks
  obtain rfl : d' = d := hsame
  cases r with
  | error e =>
    refine ⟨rfl, fun extents => iff_of_false nofun ?_⟩
    intro hfound
    obtain ⟨inode, hfile, _⟩ := hfound
    cases (hblocks inode.blocks).mpr ⟨inode, hfile, rfl⟩
  | ok blocks =>
    refine ⟨rfl, fun extents => ?_⟩
    constructor
    · intro hextents
      obtain ⟨inode, hfile, rfl⟩ := (hblocks blocks).mp rfl
      exact ⟨inode, hfile, hextents⟩
    · intro hfound
      obtain ⟨inode, hfile, hextents⟩ := hfound
      obtain rfl := Except.ok.inj
        ((hblocks inode.blocks).mpr ⟨inode, hfile, rfl⟩)
      exact hextents

/-- A file that a path leads to has extents. -/
theorem Mounted.exists_fileExtents (h : Mounted d sb a inodes entries)
    (hfile : FileAt d sb path inode) :
    ∃ extents, (FilesystemLab.fileExtentsAtPath sb path d).1 = .ok extents := by
  obtain ⟨extents, hok, _⟩ := coalesceExtents_eq_ok inode.blocks
  exact ⟨extents, ((h.fileExtentsAtPath path).2 extents).mpr ⟨inode, hfile, hok⟩⟩

/-- The extents of a path. -/
theorem Mounted.of_fileExtents (h : Mounted d sb a inodes entries)
    (hok : (FilesystemLab.fileExtentsAtPath sb path d).1 = .ok extents) :
    ∃ inode, FileAt d sb path inode ∧
      coalesceExtents inode.blocks = .ok extents ∧
      Coalesces inode.blocks extents := by
  obtain ⟨inode, hfile, hextents⟩ := ((h.fileExtentsAtPath path).2 extents).mp hok
  obtain ⟨extents', hok', hcoalesces, _⟩ := coalesceExtents_eq_ok inode.blocks
  rw [hextents, Except.ok.injEq] at hok'
  subst hok'
  exact ⟨inode, hfile, hextents, hcoalesces⟩

/-- A file is read, measured and mapped. -/
theorem Mounted.extents_iff_read (h : Mounted d sb a inodes entries)
    (path : String) :
    (∃ extents, (FilesystemLab.fileExtentsAtPath sb path d).1 = .ok extents) ↔
      ∃ bytes, (FilesystemLab.readFileBlocksAtPath sb path d).1 = .ok bytes := by
  constructor
  · intro hextents
    obtain ⟨extents, hok⟩ := hextents
    obtain ⟨inode, hfile, _⟩ := h.of_fileExtents hok
    have hread := h.readFileBlocksAtPath (hfile.mem h.toAtRest) hfile.kind_eq
      hfile.resolves
    exact ⟨_, congrArg Prod.fst hread⟩
  · intro hread
    obtain ⟨bytes, hread⟩ := hread
    obtain ⟨f, ⟨id, hpath, hnode⟩, _⟩ := h.readWhole.mp hread
    obtain ⟨inode, hmem, rfl, hkind, _⟩ := h.exists_file hnode
    exact h.exists_fileExtents ⟨h.resolvePath_eq_ok.mpr hpath,
      ⟨inodes, h.inodeTable, hmem⟩, hkind⟩

/-- **The extents of a file are where its bytes are.**  On a device that the check
accepts, a path has extents when its file can be read.  They number as many blocks
as the metadata has, in order and in runs that could not be longer, and the bytes
on their blocks up to the length in the metadata are those that a read returns. -/
theorem fileExtents_agree {report : FsckReport}
    (hsb : readSuperblock d = .ok sb)
    (hjournal : loadJournalImage d sb = .ok [])
    (hcheck : checkDevice d = .ok report) (path : String) :
    (fileExtentsAtPath sb path d).2 = d ∧
    ((∃ extents, (fileExtentsAtPath sb path d).1 = .ok extents) ↔
      ∃ bytes, (readFileBlocksAtPath sb path d).1 = .ok bytes) ∧
    ∀ extents, (fileExtentsAtPath sb path d).1 = .ok extents →
      ∃ m, (metadataAtPath sb path d).1 = .ok m ∧ m.kind = .file ∧
        (extents.flatMap FileExtent.cells).map Prod.fst =
          List.range m.logicalBlocks ∧
        extents.IsChain (fun left right =>
          right.physicalStart ≠ left.physicalStart + left.blockCount) ∧
        (readFileBlocksAtPath sb path d).1 = .ok
          ((((extents.flatMap FileExtent.physical).map d.blocks).flatMap
            Block.bytes).take m.byteLen.toNat) := by
  obtain ⟨a, inodes, entries, h⟩ := exists_mounted hsb hjournal hcheck
  refine ⟨(h.fileExtentsAtPath path).1, h.extents_iff_read path, ?_⟩
  intro extents hok
  obtain ⟨inode, hfile, _, hcoalesces⟩ := h.of_fileExtents hok
  have hmem := hfile.mem h.toAtRest
  have hmeta := h.metadataAtPath hmem hfile.resolves
  have hread := h.readFileBlocksAtPath hmem hfile.kind_eq hfile.resolves
  refine ⟨_, congrArg Prod.fst hmeta, hfile.kind_eq, ?_, hcoalesces.apart, ?_⟩
  · rw [hcoalesces.cells_eq, map_fst_logicalBlocks, List.range_eq_range']
    rfl
  · rw [hread, hcoalesces.physical_eq, List.map_map]
    rfl

/-- The first file of the sample has one extent. -/
theorem fileExtentsAtPath_source (data : Nat → Block) :
    (FilesystemLab.fileExtentsAtPath treeSuperblock "/s" (filesDisk data)).1 =
      .ok [⟨0, 10, 1⟩] :=
  (((mounted_filesDisk data).fileExtentsAtPath "/s").2 _).mpr
    ⟨_, fileAt_source data, by decide⟩

/-- So has the second. -/
theorem fileExtentsAtPath_destination (data : Nat → Block) :
    (FilesystemLab.fileExtentsAtPath treeSuperblock "/t" (filesDisk data)).1 =
      .ok [⟨0, 11, 1⟩] :=
  (((mounted_filesDisk data).fileExtentsAtPath "/t").2 _).mpr
    ⟨_, fileAt_destination data, by decide⟩

/-- The file of scattered blocks has two. -/
theorem fileExtentsAtPath_scatteredDisk (data : Nat → Block) :
    (FilesystemLab.fileExtentsAtPath treeSuperblock "/t"
      (scatteredDisk data)).1 = .ok [⟨0, 11, 1⟩, ⟨1, 10, 1⟩] :=
  (((mounted_scatteredDisk data).fileExtentsAtPath "/t").2 _).mpr
    ⟨_, fileAt_scatteredDisk data, by decide⟩

theorem fileExtents_agree_scatteredDisk :
    ∃ m, (metadataAtPath treeSuperblock "/t" (scatteredDisk sevens)).1 = .ok m ∧
      m.kind = .file ∧ [0, 1] = List.range m.logicalBlocks ∧
      (readFileBlocksAtPath treeSuperblock "/t" (scatteredDisk sevens)).1 = .ok
        (([(scatteredDisk sevens).blocks 11,
          (scatteredDisk sevens).blocks 10].flatMap Block.bytes).take
            m.byteLen.toNat) := by
  have h := mounted_scatteredDisk sevens
  obtain ⟨m, hmeta, hkind, hlogical, _, hread⟩ :=
    (fileExtents_agree h.superblock h.journal h.check "/t").2.2 _
      (fileExtentsAtPath_scatteredDisk _)
  exact ⟨m, hmeta, hkind, hlogical, hread⟩

/-- **Extents never overlap.**  On a device that the check accepts, the extents of
a file have each block once, those of two paths are the same or have no block in
common, and no extent has a block of a free run. -/
theorem fileExtents_apart {report : FsckReport}
    (hsb : readSuperblock d = .ok sb)
    (hjournal : loadJournalImage d sb = .ok [])
    (hcheck : checkDevice d = .ok report) {first second : String}
    {left right : List FileExtent} {space : FilesystemFreeSpace}
    (hleft : (fileExtentsAtPath sb first d).1 = .ok left)
    (hright : (fileExtentsAtPath sb second d).1 = .ok right)
    (hspace : (filesystemFreeSpaceExtents sb d).1 = .ok space) :
    (left.flatMap FileExtent.physical).Nodup ∧
    (left = right ∨ (left.flatMap FileExtent.physical).Disjoint
      (right.flatMap FileExtent.physical)) ∧
    (left.flatMap FileExtent.physical).Disjoint
      (space.extents.flatMap FreeSpaceExtent.cells) := by
  obtain ⟨a, inodes, entries, h⟩ := exists_mounted hsb hjournal hcheck
  obtain ⟨inode, hfile, hextents, hcoalesces⟩ := h.of_fileExtents hleft
  obtain ⟨other, hother, hextents', hcoalesces'⟩ := h.of_fileExtents hright
  obtain ⟨space', hok, hruns⟩ := h.freeSpace
  rw [hok] at hspace
  obtain rfl := Except.ok.inj hspace
  have hmem := hfile.mem h.toAtRest
  rw [hcoalesces.physical_eq]
  refine ⟨?_, ?_, ?_⟩
  · have hnodup := (List.nodup_flatMap.mp h.owned.nodup).1 inode hmem
    exact hnodup.map fun _ _ heq => UInt64.toNat_inj.mp heq
  · by_cases hsame : inode = other
    · subst hsame
      rw [hextents, Except.ok.injEq] at hextents'
      exact .inl hextents'
    · refine .inr ?_
      rw [hcoalesces'.physical_eq]
      intro b hb hb'
      obtain ⟨block, hblock, rfl⟩ := List.mem_map.mp hb
      obtain ⟨shared, hshared, heq⟩ := List.mem_map.mp hb'
      obtain rfl := UInt64.toNat_inj.mp heq
      exact hsame (h.owned.eq_of_shared hmem (hother.mem h.toAtRest) hblock
        hshared)
  · intro b hb hfree
    obtain ⟨block, hblock, rfl⟩ := List.mem_map.mp hb
    rw [hruns.cells_eq, BlockAllocator.mem_freeData] at hfree
    have hset := h.owned.data inode hmem block hblock
    rw [hfree.2.2] at hset
    cases hset

/-- Two extents of one file, and the extents of two files. -/
theorem fileExtents_apart_samples :
    (∃ space, (filesystemFreeSpaceExtents treeSuperblock
        (scatteredDisk sevens)).1 = .ok space ∧ [11, 10].Nodup ∧
      List.Disjoint [11, 10] (space.extents.flatMap FreeSpaceExtent.cells)) ∧
    List.Disjoint [10] [11] := by
  constructor
  · have h := mounted_scatteredDisk sevens
    obtain ⟨space, hspace, _⟩ := h.freeSpace
    have hok := congrArg Prod.fst hspace
    obtain ⟨hnodup, _, hfree⟩ := fileExtents_apart h.superblock h.journal
      h.check (fileExtentsAtPath_scatteredDisk _)
      (fileExtentsAtPath_scatteredDisk _) hok
    exact ⟨space, hok, hnodup, hfree⟩
  · have h := mounted_filesDisk fun _ => Block.zero
    obtain ⟨space, hspace, _⟩ := h.freeSpace
    rcases (fileExtents_apart h.superblock h.journal h.check
      (fileExtentsAtPath_source _) (fileExtentsAtPath_destination _)
      (congrArg Prod.fst hspace)).2.1 with hsame | hdisjoint
    · exact absurd hsame (by decide)
    · exact hdisjoint

/-- The pages of the extents at a path, as pairs of extents and the next
cursor. -/
def fileExtentPagesAtPath (sb : Superblock) (d : Disk) (path : String)
    (limit : Nat) (cursor : Option Nat) :
    Result (List FileExtent × Option Nat) :=
  (fileExtentsPageAtPath sb path cursor limit d).1.map fun page =>
    (page.extents, page.nextAfterLogical)

/-- A page at a path is a page of its extents. -/
theorem Mounted.fileExtentsPageAtPath (h : Mounted d sb a inodes entries)
    (hok : (FilesystemLab.fileExtentsAtPath sb path d).1 = .ok extents)
    {limit : Nat} (hlimit : 0 < limit) (cursor : Option Nat) :
    FilesystemLab.fileExtentsPageAtPath sb path cursor limit d =
      (paginateExtents extents cursor limit, d) := by
  obtain ⟨inode, hfile, hextents, _⟩ := h.of_fileExtents hok
  obtain ⟨hsame, hblocks⟩ := h.recoveredFileBlocks path
  have hrun : FilesystemLab.recoveredFileBlocks sb path d =
      (.ok inode.blocks, d) :=
    Prod.ext ((hblocks inode.blocks).mpr ⟨inode, hfile, rfl⟩) hsame
  rw [FilesystemLab.fileExtentsPageAtPath,
    Effect.lift_bind_of_ok (a := ()) (rejectIf_of_not (by omega)),
    Effect.bind_of_ok hrun, Effect.lift_bind_of_ok hextents]
  rfl

/-- **The pages of extents lose and repeat nothing.**  On a device that the check
accepts, the pages from any cursor below `usize::MAX` end, change nothing, and
together have the blocks of the file behind the cursor. -/
theorem fileExtentPages_cover {report : FsckReport}
    (hsb : readSuperblock d = .ok sb)
    (hjournal : loadJournalImage d sb = .ok [])
    (hcheck : checkDevice d = .ok report)
    (hok : (fileExtentsAtPath sb path d).1 = .ok extents) {limit : Nat}
    (hlimit : 0 < limit) {cursor : Option Nat}
    (hcursor : ∀ n ∈ cursor, n + 1 < U64_LIMIT) :
    (fileExtentsPageAtPath sb path cursor limit d).2 = d ∧
    ∃ all, Follows (fileExtentPagesAtPath sb d path limit) cursor all ∧
      all.flatMap FileExtent.cells =
        after Prod.fst (extents.flatMap FileExtent.cells) cursor := by
  obtain ⟨a, inodes, entries, h⟩ := exists_mounted hsb hjournal hcheck
  obtain ⟨inode, hfile, hextents, hcoalesces⟩ := h.of_fileExtents hok
  obtain ⟨extents', hok', _, hwithin⟩ := coalesceExtents_eq_ok inode.blocks
  rw [hextents, Except.ok.injEq] at hok'
  subst hok'
  have hlen : inode.blocks.length < U64_LIMIT := by
    have hfits := (h.fileEnd (hfile.mem h.toAtRest) hfile.kind_eq).2
    rw [blockSize_eq] at hfits
    omega
  have hfits : CursorFits inode.blocks cursor := by
    refine .inl fun heq => ?_
    have hlast := hcursor _ heq
    simp only [U64_LIMIT] at hlast
    omega
  have hpages : fileExtentPagesAtPath sb d path limit =
      fileExtentPages extents limit := by
    funext c
    rw [fileExtentPagesAtPath, h.fileExtentsPageAtPath hok hlimit]
    rfl
  have hexact := hcoalesces.pagesExact hwithin hlen hlimit
    (fun n hn => (Nat.lt_succ_self n).trans (hcursor n hn)) hfits
  rw [h.fileExtentsPageAtPath hok hlimit, hpages, hcoalesces.cells_eq]
  exact ⟨rfl, hexact.follows⟩

/-- The pages with one extent each, from the front and behind the first block. -/
theorem fileExtentPages_cover_scatteredDisk :
    (∃ all, Follows (fileExtentPagesAtPath treeSuperblock (scatteredDisk sevens)
        "/t" 1) none all ∧
      all.flatMap FileExtent.cells = [(0, 11), (1, 10)]) ∧
    ∃ all, Follows (fileExtentPagesAtPath treeSuperblock (scatteredDisk sevens)
        "/t" 1) (some 0) all ∧ all.flatMap FileExtent.cells = [(1, 10)] := by
  have h := mounted_scatteredDisk sevens
  have hnone : ∀ n ∈ (none : Option Nat), n + 1 < U64_LIMIT :=
    fun _ hn => nomatch hn
  have hfirst : ∀ n ∈ some 0, n + 1 < U64_LIMIT := by
    intro n hn
    cases hn
    decide
  exact ⟨(fileExtentPages_cover h.superblock h.journal h.check
    (fileExtentsAtPath_scatteredDisk _) Nat.one_pos hnone).2,
    (fileExtentPages_cover h.superblock h.journal h.check
      (fileExtentsAtPath_scatteredDisk _) Nat.one_pos hfirst).2⟩

/-- **The counts of the space add up.**  On a device that the check accepts, the
metadata and the data blocks are all blocks, a data block is allocated or free,
the inodes have as many blocks as are allocated, and the free runs as many as are
free. -/
theorem filesystemSpace_adds_up {report : FsckReport}
    (hsb : readSuperblock d = .ok sb)
    (hjournal : loadJournalImage d sb = .ok [])
    (hcheck : checkDevice d = .ok report) :
    ∃ space free inodes, filesystemSpace sb d = (.ok space, d) ∧
      filesystemFreeSpaceExtents sb d = (.ok free, d) ∧
      loadInodeTable d sb = .ok inodes ∧
      space.reservedBlocks + space.dataBlocks = space.totalBlocks ∧
      space.allocatedDataBlocks + space.freeDataBlocks = space.dataBlocks ∧
      space.allocatedDataBlocks =
        (inodes.flatMap PersistedInode.blocks).length ∧
      space.freeDataBlocks =
        (free.extents.map FreeSpaceExtent.blockCount).sum := by
  obtain ⟨a, inodes, entries, h⟩ := exists_mounted hsb hjournal hcheck
  obtain ⟨free, hfree, hruns⟩ := h.freeSpace
  obtain ⟨htotal, hreserved⟩ := h.geometry
  have hgeometry : validateSpaceGeometry sb sb.totalBlocks sb.reservedBlocks =
      .ok () := rejectIf_of_not (by simp)
  have hle := a.allocatedBlocks_le
  have hlayout := sb.layout
  refine ⟨⟨BLOCK_SIZE, sb.totalBlocks, sb.reservedBlocks,
    sb.totalBlocks - sb.reservedBlocks, a.allocatedBlocks, a.freeBlocks⟩, free,
    inodes, ?_, hfree, h.inodeTable, ?_, ?_, ?_, ?_⟩
  · rw [filesystemSpace, Effect.bind_of_ok h.recover,
      Effect.query_bind_of_ok h.check, fsckReport,
      Effect.lift_bind_of_ok hgeometry]
    rfl
  · show sb.reservedBlocks + (sb.totalBlocks - sb.reservedBlocks) =
      sb.totalBlocks
    omega
  · show a.allocatedBlocks + a.freeBlocks = sb.totalBlocks - sb.reservedBlocks
    rw [BlockAllocator.freeBlocks]
    omega
  · show a.allocatedBlocks = _
    rw [← h.owned.length_references, ← references_fst, List.length_map]
  · show a.freeBlocks = _
    rw [← a.length_freeData, ← hruns.cells_eq, List.length_flatMap]
    congr 2
    funext extent
    exact List.length_range'

theorem filesystemSpace_adds_up_filesDisk :
    ∃ space, filesystemSpace treeSuperblock (filesDisk fun _ => Block.zero) =
        (.ok space, filesDisk fun _ => Block.zero) ∧
      space.allocatedDataBlocks = 2 ∧
      space.allocatedDataBlocks + space.freeDataBlocks = space.dataBlocks := by
  have h := mounted_filesDisk fun _ => Block.zero
  obtain ⟨space, free, inodes, hspace, _, hload, _, hsum, hcount, _⟩ :=
    filesystemSpace_adds_up h.superblock h.journal h.check
  rw [h.inodeTable, Except.ok.injEq] at hload
  subst hload
  exact ⟨space, hspace, hcount, hsum⟩

end Mounted

end FilesystemLab
