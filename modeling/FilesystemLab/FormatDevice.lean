import FilesystemLab.Geometry
import FilesystemLab.Mounted
import FilesystemLab.StoredTables

/-!
# Formatting

`format_device` (`src/format.rs`) and its variants with explicit reservations
(`src/format_geometry.rs`).

Formatting writes the first journal block, the three metadata regions and the
superblock, and nothing else.  The main result is `formatDevice_empties`: what
these writes leave is an empty filesystem, whatever the device held, because
every loader looks at written blocks only.  For the journal this is the anchor:
an empty one hides the rest of the reservation.

* `formatWrites` lists the writes, and `initializeDevice_apply` says that
  formatting is one epoch of them.
* `Blank` says what a blank filesystem is to its readers.
* `Formats` says how a formatting operation may end.
-/

namespace FilesystemLab

open Bytes JournalCodec WriteLog

/-! ## Formatting a device -/

def DEFAULT_JOURNAL_BLOCKS : Nat := 4

def DEFAULT_INODE_BLOCKS : Nat := 2

def DEFAULT_DIRECTORY_BLOCKS : Nat := 2

/-- `Superblock::new`. -/
def Superblock.new (totalBlocks : Nat) : Result Superblock :=
  withAllMetadataBlocks totalBlocks DEFAULT_JOURNAL_BLOCKS DEFAULT_INODE_BLOCKS
    DEFAULT_DIRECTORY_BLOCKS

/-- `Superblock::with_journal_blocks`. -/
def Superblock.withJournalBlocks (totalBlocks journalBlocks : Nat) :
    Result Superblock :=
  withAllMetadataBlocks totalBlocks journalBlocks DEFAULT_INODE_BLOCKS
    DEFAULT_DIRECTORY_BLOCKS

section Device

variable {σ : Type} [BlockDevice σ]

/-- `initialize_allocation_region`. -/
def initializeAllocationRegion (sb : Superblock) : DevM σ Unit := do
  Effect.query (validateDeviceGeometry · sb)
  let bytes ← allocationBitmapBytes sb.totalBlocks
  let image ← encodeAllocation sb (zeros bytes)
  writeRegion sb.allocationStart sb.allocationBlocks ALLOCATION_OVERFLOW
    "allocation image has invalid region length" image

/-- The initialiser that both tables share. -/
def TableFormat.initializeRegion {ρ κ : Type} [DecidableEq κ] (F : TableFormat ρ κ)
    (sb : Superblock) (start blocks : Nat) : DevM σ Unit := do
  Effect.query (F.validateGeometry · sb start blocks)
  let image ← F.encodeImage blocks []
  writeRegion start blocks (F.noun ++ " table byte size overflow")
    (F.noun ++ " table image has invalid region length") image

/-- `initialize_inode_table_region`. -/
def initializeInodeTableRegion (sb : Superblock) : DevM σ Unit :=
  inodeFormat.initializeRegion sb sb.inodeStart sb.inodeBlocks

/-- `initialize_directory_table_region`. -/
def initializeDirectoryTableRegion (sb : Superblock) : DevM σ Unit :=
  directoryFormat.initializeRegion sb sb.directoryStart sb.directoryBlocks

/-- What the formatting functions do with the superblock of their geometry. -/
def initializeDevice (sb : Superblock) : DevM σ Superblock := do
  initializeJournalRegion sb
  initializeAllocationRegion sb
  initializeInodeTableRegion sb
  initializeDirectoryTableRegion sb
  writeBlock SUPERBLOCK_BLOCK sb.encode
  flush
  pure sb

/-- `format_device`. -/
def formatDevice : DevM σ Superblock := do
  let sb ← Effect.query fun device => Superblock.new (blockCount device)
  initializeDevice sb

/-- `format_device_with_metadata_blocks`. -/
def formatDeviceWithMetadataBlocks (journalBlocks inodeBlocks
    directoryBlocks : Nat) : DevM σ Superblock := do
  let sb ← Effect.query fun device => Superblock.withAllMetadataBlocks
    (blockCount device) journalBlocks inodeBlocks directoryBlocks
  initializeDevice sb

/-- `format_device_with_journal_blocks`. -/
def formatDeviceWithJournalBlocks (journalBlocks : Nat) :
    DevM σ Superblock := do
  let defaults ← Effect.query fun device =>
    Superblock.withJournalBlocks (blockCount device) journalBlocks
  formatDeviceWithMetadataBlocks journalBlocks defaults.inodeBlocks
    defaults.directoryBlocks

end Device

/-! ## The writes of a formatting -/

/-- The writes of a formatting, in order, for the images of empty tables. -/
def formatWrites (sb : Superblock) (image inodeImage directoryImage :
    List UInt8) : List (Nat × Block) :=
  [(sb.journalStart, emptyAnchorBlock)] ++
    regionWrites sb.allocationStart sb.allocationBlocks image ++
    regionWrites sb.inodeStart sb.inodeBlocks inodeImage ++
    regionWrites sb.directoryStart sb.directoryBlocks directoryImage ++
    [(SUPERBLOCK_BLOCK, sb.encode)]

/-- The writes go to distinct blocks behind the superblock and below `limit`. -/
structure FillsBelow (limit : Nat) (ws : List (Nat × Block)) : Prop where
  nodup : (ws.map Prod.fst).Nodup
  range : ∀ b ∈ ws.map Prod.fst, SUPERBLOCK_BLOCK < b ∧ b < limit

/-- A region from the limit on can be filled next. -/
theorem FillsBelow.append_region {limit : Nat} {ws : List (Nat × Block)}
    (h : FillsBelow limit ws) (start blocks : Nat) (hstart : limit ≤ start)
    (hpos : SUPERBLOCK_BLOCK < start) (image : List UInt8) :
    FillsBelow (start + blocks) (ws ++ regionWrites start blocks image) := by
  constructor
  · rw [List.map_append, List.nodup_append]
    refine ⟨h.nodup, nodup_regionWrites _ _ _, ?_⟩
    intro b hb c hc
    have hbelow := h.range b hb
    have habove := range_of_mem_regionWrites hc
    omega
  · intro b hb
    rw [List.map_append, List.mem_append] at hb
    rcases hb with hb | hb
    · have hbelow := h.range b hb
      omega
    · have habove := range_of_mem_regionWrites hb
      omega

/-- The regions do not overlap, so no block is written twice. -/
theorem nodup_formatWrites (sb : Superblock)
    (image inodeImage directoryImage : List UInt8) :
    ((formatWrites sb image inodeImage directoryImage).map Prod.fst).Nodup := by
  have hlayout := sb.layout
  have hzero : SUPERBLOCK_BLOCK = 0 := rfl
  have hanchor : FillsBelow sb.allocationStart
      [(sb.journalStart, emptyAnchorBlock)] := by
    refine ⟨List.nodup_singleton _, ?_⟩
    intro b hb
    rw [List.map_singleton, List.mem_singleton] at hb
    omega
  have hallocation := hanchor.append_region sb.allocationStart
    sb.allocationBlocks le_rfl (by omega) image
  have hinodes := hallocation.append_region sb.inodeStart sb.inodeBlocks
    (by omega) (by omega) inodeImage
  have hentries := hinodes.append_region sb.directoryStart sb.directoryBlocks
    (by omega) (by omega) directoryImage
  unfold formatWrites
  rw [List.map_append, List.nodup_append]
  refine ⟨hentries.nodup, List.nodup_singleton _, ?_⟩
  intro b hb c hc
  have hrange := hentries.range b hb
  rw [List.map_singleton, List.mem_singleton] at hc
  omega

/-! ## The run of a formatting -/

section Run

variable {d : Disk} {sb : Superblock}

/-- The allocation region of a blank filesystem: the image of an allocator
without owned blocks. -/
theorem initializeAllocationRegion_apply {a : BlockAllocator}
    {image : List UInt8} (hsize : sb.totalBlocks = d.size)
    (himage : allocationImage sb a = .ok image)
    (hfree : ∀ b, a.flag b = false) :
    initializeAllocationRegion sb d = (.ok (), d.extend
      ((regionWrites sb.allocationStart sb.allocationBlocks image).map
        fun w => .write w.1 w.2)) := by
  have hlayout := sb.layout
  obtain ⟨hbytes, hregion, _⟩ := allocation_fits sb
  have hgeometry : validateDeviceGeometry d sb = .ok () :=
    rejectIf_of_not (not_ne_iff.mpr hsize.symm)
  have hbitmap : bitmapOf sb a = zeros ((sb.totalBlocks + 7) / 8) := by
    rw [bitmapOf, List.filter_eq_nil_iff.mpr fun b _ => by simp [hfree b]]
    rfl
  obtain ⟨_, _, hencode⟩ := allocationImage_eq_ok.mp himage
  rw [hbitmap] at hencode
  rw [initializeAllocationRegion, Effect.query_bind_of_ok
    (q := (validateDeviceGeometry · sb)) hgeometry,
    Effect.lift_bind_of_ok hbytes, Effect.lift_bind_of_ok hencode]
  exact writeRegion_apply hregion (length_allocationImage himage) (by omega)

theorem TableFormat.initializeRegion_apply {ρ κ : Type} [DecidableEq κ]
    {F : TableFormat ρ κ} {normal : ρ → ρ} (law : F.Lawful normal)
    {start blocks : Nat} {image : List UInt8} (hsize : sb.totalBlocks = d.size)
    (hne : blocks ≠ 0) (hfit : start + blocks ≤ sb.totalBlocks)
    (himage : F.encodeImage blocks [] = .ok image) :
    F.initializeRegion sb start blocks d = (.ok (), d.extend
      ((regionWrites start blocks image).map fun w => .write w.1 w.2)) := by
  obtain ⟨_, _, hlt, _⟩ := encodeImage_eq_ok.mp himage
  rw [initializeRegion, Effect.query_bind_of_ok
    (q := (F.validateGeometry · sb start blocks))
    (validateGeometry_of_size hsize hne hfit), Effect.lift_bind_of_ok himage]
  exact writeRegion_apply hlt (length_encodeImage law himage) (by omega)

/-- Formatting is one epoch. -/
theorem initializeDevice_apply {a : BlockAllocator}
    {image inodeImage directoryImage : List UInt8}
    (hsize : sb.totalBlocks = d.size)
    (himage : allocationImage sb a = .ok image)
    (hfree : ∀ b, a.flag b = false)
    (hinodes : inodeFormat.encodeImage sb.inodeBlocks [] = .ok inodeImage)
    (hentries : directoryFormat.encodeImage sb.directoryBlocks [] =
      .ok directoryImage) :
    initializeDevice sb d = (.ok sb,
      d.commit [formatWrites sb image inodeImage directoryImage]) := by
  have hlayout := sb.layout
  have hzero : SUPERBLOCK_BLOCK = 0 := rfl
  have hinodeRegion : ∀ e : Disk, e.size = d.size →
      initializeInodeTableRegion sb e = (.ok (), e.extend
        ((regionWrites sb.inodeStart sb.inodeBlocks inodeImage).map
          fun w => .write w.1 w.2)) := fun e he =>
    TableFormat.initializeRegion_apply inodeFormat_lawful (hsize.trans he.symm)
      (by omega) (by omega) hinodes
  have hdirectoryRegion : ∀ e : Disk, e.size = d.size →
      initializeDirectoryTableRegion sb e = (.ok (), e.extend
        ((regionWrites sb.directoryStart sb.directoryBlocks
          directoryImage).map fun w => .write w.1 w.2)) := fun e he =>
    TableFormat.initializeRegion_apply directoryFormat_lawful (hsize.trans he.symm)
      (by omega) (by omega) hentries
  have hsuper : ∀ e : Disk, e.size = d.size →
      writeBlock SUPERBLOCK_BLOCK sb.encode e =
        (.ok (), e.extend [.write SUPERBLOCK_BLOCK sb.encode]) := fun e he =>
    Disk.writeBlock_of_lt (by omega)
  rw [initializeDevice, Effect.bind_of_ok (initializeJournalRegion_apply hsize),
    Effect.bind_of_ok (initializeAllocationRegion_apply (by exact hsize) himage
      hfree),
    Effect.bind_of_ok (hinodeRegion _ (by rfl)),
    Effect.bind_of_ok (hdirectoryRegion _ (by rfl)),
    Effect.bind_of_ok (hsuper _ (by rfl)), Effect.bind_of_ok (Disk.flush_apply _)]
  simp only [Disk.extend_extend, Disk.commit, formatWrites]
  show (_, _) = _
  simp [barriers, epoch]

end Run

/-! ## Blank filesystems -/

/-- A blank filesystem, to everything that reads it: no journal, no inodes, no
directory entries, no owned blocks, and a journal that takes any valid stream
that fits. -/
structure Blank (d : Disk) (sb : Superblock) : Prop where
  superblock : readSuperblock d = .ok sb
  journal : loadJournalImage d sb = .ok []
  inodeTable : loadInodeTable d sb = .ok []
  directoryTable : loadDirectoryTable d sb = .ok []
  free : ∃ a, loadAllocator d sb = .ok a ∧ ∀ b, sb.reservedBlocks ≤ b →
    b < sb.totalBlocks → a.isOwned b = .ok false
  check : ∃ report, checkDevice d = .ok report
  store : ∀ entries, validateEntries sb entries = .ok () →
    32 + (stream entries).length ≤ sb.journalBlocks * BLOCK_SIZE →
      ∃ d', storeJournalImage sb entries d = (.ok (), d') ∧
        loadJournalImage d' sb = .ok entries

/-- A disk at rest without inodes, entries and owned blocks is blank. -/
theorem AtRest.blank {d : Disk} {sb : Superblock} {a : BlockAllocator}
    (h : AtRest d sb a [] []) (hfree : ∀ b, a.flag b = false)
    (hbytes : d.size * BLOCK_SIZE < U64_LIMIT) : Blank d sb := by
  have hlayout := sb.layout
  have hsize := h.size
  obtain ⟨htotal, hreserved⟩ := h.geometry
  have hmounted : Mounted d sb a [] [] :=
    { h with
      owned := owned_nil hfree
      payloads := by simp
      tree := namespace_nil }
  have hvacant := h.journal
  rw [loadJournalImage_disk hsize] at hvacant
  refine ⟨h.superblock, h.journal, h.inodeTable, h.directoryTable,
    ⟨a, h.allocator, ?_⟩, ⟨_, hmounted.check⟩, ?_⟩
  · intro b hlo hhi
    rw [BlockAllocator.isOwned_of_data (by omega) (by omega), hfree b]
  · intro entries hvalid hfits
    have hjournal : sb.journalBlocks * BLOCK_SIZE ≤ d.size * BLOCK_SIZE :=
      Nat.mul_le_mul_right _ (by omega)
    have haccepts : StoreAccepts sb d entries :=
      { size := hsize
        valid := hvalid
        vacant := hvacant
        fits := fun _ => ⟨by omega, hfits⟩ }
    rcases storeJournalImage_cases sb d entries with ⟨hno, _⟩ | ⟨_, hstore⟩
    · exact absurd haccepts hno
    · refine ⟨_, hstore, ?_⟩
      rw [loadJournalImage_disk (by exact hsize), Disk.blocks_commit]
      exact haccepts.journalOf_settle.1

/-! ## What formatting leaves -/

/-- The epoch of a formatting leaves a disk at rest. -/
theorem atRest_formatWrites {d : Disk} {sb : Superblock} {a : BlockAllocator}
    {image inodeImage directoryImage : List UInt8}
    (hsize : sb.totalBlocks = d.size)
    (himage : allocationImage sb a = .ok image)
    (hinodes : inodeFormat.encodeImage sb.inodeBlocks [] = .ok inodeImage)
    (hentries : directoryFormat.encodeImage sb.directoryBlocks [] =
      .ok directoryImage) :
    AtRest (d.commit [formatWrites sb image inodeImage directoryImage]) sb a
      [] [] := by
  have hnodup := nodup_formatWrites sb image inodeImage directoryImage
  -- every block that is written holds what is written to it
  have hholds : ∀ w ∈ formatWrites sb image inodeImage directoryImage,
      (d.commit [formatWrites sb image inodeImage directoryImage]).blocks w.1 =
        w.2 := by
    intro w hw
    rw [Disk.blocks_commit, settle, List.flatten_singleton]
    exact overlay_of_nodup hnodup hw
  unfold formatWrites at hholds
  simp only [List.forall_mem_append, List.forall_mem_singleton] at hholds
  obtain ⟨⟨⟨⟨hanchor, hallocation⟩, hinodeRegion⟩, hdirectory⟩, hsuper⟩ :=
    hholds
  refine ⟨readSuperblock_of_encode hsuper hsize,
    (loadAllocator_iff (by exact hsize)).mpr ⟨image, himage, ?_⟩,
    (loadInodeTable_iff (by exact hsize)).mpr ⟨inodeImage, hinodes, rfl, ?_⟩,
    (loadDirectoryTable_iff (by exact hsize)).mpr
      ⟨directoryImage, hentries, ?_⟩, ?_⟩
  · exact fun i hi => hallocation _ (mem_regionWrites.mpr ⟨i, hi, rfl⟩)
  · exact fun i hi => hinodeRegion _ (mem_regionWrites.mpr ⟨i, hi, rfl⟩)
  · exact fun i hi => hdirectory _ (mem_regionWrites.mpr ⟨i, hi, rfl⟩)
  · rw [loadJournalImage_disk (by exact hsize)]
    exact journalOf_emptyAnchor hanchor

/-- Formatting never fails on a device of the geometry, and leaves a blank
filesystem. -/
theorem initializeDevice_blank {d : Disk} {sb : Superblock}
    (hsize : sb.totalBlocks = d.size)
    (hbytes : d.size * BLOCK_SIZE < U64_LIMIT) :
    ∃ d', initializeDevice sb d = (.ok sb, d') ∧ Blank d' sb := by
  have hlayout := sb.layout
  obtain ⟨a, _, htotal, hreserved, hallocated⟩ :=
    BlockAllocator.new_eq_ok (show sb.reservedBlocks ≤ sb.totalBlocks by omega)
  have hfree : ∀ b, a.flag b = false := by
    intro b
    rw [BlockAllocator.flag, hallocated, List.getElem?_replicate]
    split <;> rfl
  obtain ⟨image, himage⟩ := exists_allocationImage htotal hreserved
  have hregion : ∀ blocks, 0 < blocks → blocks ≤ d.size →
      32 ≤ blocks * BLOCK_SIZE ∧ blocks * BLOCK_SIZE < U64_LIMIT := by
    intro blocks hpos hle
    have hmul : blocks * BLOCK_SIZE ≤ d.size * BLOCK_SIZE :=
      Nat.mul_le_mul_right _ hle
    rw [blockSize_eq] at *
    omega
  obtain ⟨hinodeFits, hinodeLt⟩ := hregion sb.inodeBlocks (by omega) (by omega)
  obtain ⟨hdirectoryFits, hdirectoryLt⟩ :=
    hregion sb.directoryBlocks (by omega) (by omega)
  obtain ⟨inodeImage, hinodes⟩ := @exists_inodeImage _ []
    (by simp) List.nodup_nil (by simpa using hinodeFits) hinodeLt (by decide)
  obtain ⟨directoryImage, hentries⟩ := @exists_directoryImage _ []
    (by simp) List.nodup_nil (by simpa using hdirectoryFits) hdirectoryLt
    (by decide)
  refine ⟨_, initializeDevice_apply hsize himage hfree hinodes hentries, ?_⟩
  exact (atRest_formatWrites hsize himage hinodes hentries).blank hfree hbytes

/-- How a formatting operation ends: with the error of the geometry, and then
nothing has been written, or with its superblock on a blank filesystem. -/
structure Formats (d : Disk) (geometry : Result Superblock)
    (op : DevM Disk Superblock) : Prop where
  rejected : ∀ e, geometry = .error e → op d = (.error e, d)
  accepted : ∀ sb, geometry = .ok sb → ∃ d', op d = (.ok sb, d') ∧ Blank d' sb

/-- Formatting with a given geometry. -/
theorem formats_of_geometry {d : Disk} {geometry : Result Superblock}
    {q : Disk → Result Superblock} (hq : q d = geometry)
    (hsize : ∀ sb, geometry = .ok sb → sb.totalBlocks = d.size)
    (hbytes : d.size * BLOCK_SIZE < U64_LIMIT) :
    Formats d geometry (do
      let sb ← Effect.query q
      initializeDevice sb) := by
  constructor
  · intro e he
    rw [Effect.query_bind, hq, he]
  · intro sb hsb
    rw [Effect.query_bind_of_ok (hq.trans hsb)]
    exact initializeDevice_blank (hsize sb hsb) hbytes

/-- A geometry is for the device that it was made for. -/
theorem formatDeviceWithMetadataBlocks_formats {d : Disk}
    (hbytes : d.size * BLOCK_SIZE < U64_LIMIT) (j i k : Nat) :
    Formats d (Superblock.withAllMetadataBlocks d.size j i k)
      (formatDeviceWithMetadataBlocks j i k) :=
  formats_of_geometry rfl
    (fun _ h => (Superblock.withAllMetadataBlocks_eq_ok.mp h).1) hbytes

/-- The variant with a journal reservation makes its geometry twice. -/
theorem formatDeviceWithJournalBlocks_formats {d : Disk}
    (hbytes : d.size * BLOCK_SIZE < U64_LIMIT) (j : Nat) :
    Formats d (Superblock.withJournalBlocks d.size j)
      (formatDeviceWithJournalBlocks j) := by
  constructor
  · intro e he
    rw [formatDeviceWithJournalBlocks, Effect.query_bind, Disk.blockCount_eq, he]
  · intro sb hsb
    obtain ⟨_, _, hinodes, hentries⟩ :=
      Superblock.withAllMetadataBlocks_eq_ok.mp hsb
    rw [formatDeviceWithJournalBlocks, Effect.query_bind, Disk.blockCount_eq,
      hsb]
    dsimp only
    rw [hinodes, hentries]
    exact (formatDeviceWithMetadataBlocks_formats hbytes j _ _).accepted sb hsb

/-- Formatting empties a device whatever was on it, and touches nothing if the
geometry is rejected. -/
theorem formatDevice_empties (d : Disk)
    (hbytes : d.size * BLOCK_SIZE < U64_LIMIT) :
    Formats d (Superblock.new d.size) formatDevice ∧
      ∀ journalBlocks inodeBlocks directoryBlocks : Nat,
        Formats d (Superblock.withAllMetadataBlocks d.size journalBlocks
            inodeBlocks directoryBlocks)
          (formatDeviceWithMetadataBlocks journalBlocks inodeBlocks
            directoryBlocks) := by
  refine ⟨formats_of_geometry rfl ?_ hbytes, ?_⟩
  · exact fun _ h => (Superblock.withAllMetadataBlocks_eq_ok.mp h).1
  · exact formatDeviceWithMetadataBlocks_formats hbytes

/-- A device of the sample geometry that held zeros is formatted. -/
theorem formatDevice_empties_sample :
    ∃ d', formatDeviceWithMetadataBlocks sampleSuperblock.journalBlocks
        sampleSuperblock.inodeBlocks sampleSuperblock.directoryBlocks
        (Disk.boot sampleSuperblock.totalBlocks fun _ => Block.zero) =
          (.ok sampleSuperblock, d') ∧ Blank d' sampleSuperblock := by
  have hformats := formatDevice_empties
    (Disk.boot sampleSuperblock.totalBlocks fun _ => Block.zero) (by decide)
  exact (hformats.2 _ _ _).accepted sampleSuperblock
    (Superblock.withAllMetadataBlocks_eq_ok.mpr ⟨rfl, rfl, rfl, rfl⟩)

end FilesystemLab
