import FilesystemLab.Fsck

/-!
# The tables of a disk

The allocation image and the two tables as blocks of a disk.  A table is loaded
from a disk exactly if its region holds the encoded image of that table
(`loadAllocator_iff`, `loadInodeTable_iff`, `loadDirectoryTable_iff`), so what a
transaction has to write is determined by what is to be loaded.

`formatted` is the disk that holds given tables.
-/

namespace FilesystemLab

open WriteLog

/-- The blocks from `start` on hold an image. -/
def Holds (f : Nat → Block) (start blocks : Nat) (image : List UInt8) : Prop :=
  ∀ i, i < blocks → f (start + i) = Block.ofImage image i

/-- A region of a disk, read as one image. -/
theorem readRegion_disk {d : Disk} {start blocks : Nat} {overflow : String}
    (hfit : start + blocks ≤ d.size) (hlt : blocks * BLOCK_SIZE < U64_LIMIT) :
    readRegion d start blocks overflow =
      .ok (imageOf d.blocks start blocks) := by
  rw [readRegion_eq_ok]
  refine ⟨hlt, readImage_eq ?_⟩
  intro b _ hb
  exact Disk.readBlock_of_lt (by omega)

theorem holds_imageOf (f : Nat → Block) (start blocks : Nat) :
    Holds f start blocks (imageOf f start blocks) :=
  fun _ hi => (ofImage_imageOf hi).symm

theorem Holds.imageOf_eq {f : Nat → Block} {start blocks : Nat}
    {image : List UInt8} (h : Holds f start blocks image)
    (hlen : image.length = blocks * BLOCK_SIZE) :
    imageOf f start blocks = image :=
  imageOf_ofImage hlen h

/-- Two disks that hold one image in a region agree there. -/
theorem Holds.agree {f g : Nat → Block} {start blocks : Nat}
    {image : List UInt8} (hf : Holds f start blocks image)
    (hg : Holds g start blocks image) {b : Nat} (hb : start ≤ b)
    (hlt : b < start + blocks) : f b = g b := by
  have hf' := hf (b - start) (by omega)
  have hg' := hg (b - start) (by omega)
  rw [show start + (b - start) = b by omega] at hf' hg'
  rw [hf', hg']

theorem length_allocationImage {sb : Superblock} {a : BlockAllocator}
    {image : List UInt8} (h : allocationImage sb a = .ok image) :
    image.length = sb.allocationBlocks * BLOCK_SIZE := by
  obtain ⟨_, _, hencode⟩ := allocationImage_eq_ok.mp h
  obtain ⟨hlen, _, rfl⟩ := encodeAllocation_eq_ok.mp hencode
  obtain ⟨_, _, hfits⟩ := allocation_fits sb
  simp only [List.length_append, length_allocationHeader, Bytes.length_zeros]
  omega

/-- The allocator of a disk. -/
theorem loadAllocator_iff {d : Disk} {sb : Superblock} {a : BlockAllocator}
    (hsize : sb.totalBlocks = d.size) :
    loadAllocator d sb = .ok a ↔
      ∃ image, allocationImage sb a = .ok image ∧
        Holds d.blocks sb.allocationStart sb.allocationBlocks image := by
  have hlayout := sb.layout
  obtain ⟨_, hregion, _⟩ := allocation_fits sb
  have hgeometry : validateDeviceGeometry d sb = .ok () :=
    rejectIf_of_not (not_ne_iff.mpr hsize.symm)
  unfold loadAllocator
  rw [hgeometry, Except.ok_bind,
    readRegion_disk (by omega) hregion, Except.ok_bind]
  constructor
  · intro h
    exact ⟨_, allocationImage_iff_load.mpr h, holds_imageOf _ _ _⟩
  · intro hfacts
    rcases hfacts with ⟨image, himage, hholds⟩
    rw [hholds.imageOf_eq (length_allocationImage himage)]
    exact allocationImage_iff_load.mp himage

namespace TableFormat

variable {ρ κ : Type} [DecidableEq κ] {F : TableFormat ρ κ} {normal : ρ → ρ}

omit [DecidableEq κ] in
theorem validateGeometry_of_size {d : Disk} {sb : Superblock}
    {start blocks : Nat} (hsize : sb.totalBlocks = d.size) (hne : blocks ≠ 0)
    (hfit : start + blocks ≤ sb.totalBlocks) :
    F.validateGeometry d sb start blocks = .ok () := by
  unfold validateGeometry
  rw [rejectIf_of_not (show ¬ blockCount d ≠ sb.totalBlocks from
    not_ne_iff.mpr hsize.symm), Except.ok_bind]
  exact rejectIf_of_not (by omega)

/-- The table of a disk whose region holds an encoded image. -/
theorem load_of_holds (law : F.Lawful normal) {d : Disk} {sb : Superblock}
    {start blocks : Nat} {rs : List ρ} {image : List UInt8}
    (hsize : sb.totalBlocks = d.size) (hne : blocks ≠ 0)
    (hfit : start + blocks ≤ sb.totalBlocks)
    (himage : F.encodeImage blocks rs = .ok image)
    (hholds : Holds d.blocks start blocks image) :
    F.load d sb start blocks = .ok (rs.map normal) := by
  obtain ⟨_, _, hlt, _⟩ := encodeImage_eq_ok.mp himage
  unfold load
  rw [validateGeometry_of_size hsize hne hfit, Except.ok_bind,
    readRegion_disk (by omega) hlt, Except.ok_bind,
    hholds.imageOf_eq (length_encodeImage law himage)]
  exact decodeImage_of_encode law himage

/-- The region of a table that is loaded. -/
theorem holds_of_load (law : F.Lawful normal) {d : Disk} {sb : Superblock}
    {start blocks : Nat} {rs : List ρ} (hsize : sb.totalBlocks = d.size)
    (hfit : start + blocks ≤ sb.totalBlocks)
    (h : F.load d sb start blocks = .ok rs) :
    ∃ image, F.encodeImage blocks rs = .ok image ∧ rs.map normal = rs ∧
      Holds d.blocks start blocks image := by
  simp only [load, Except.bind_eq_ok, readRegion_eq_ok] at h
  obtain ⟨_, _, image, ⟨hlt, hread⟩, hdecode⟩ := h
  have himage : image = imageOf d.blocks start blocks := by
    rw [readImage_eq fun b _ hb => Disk.readBlock_of_lt (by omega),
      Except.ok.injEq] at hread
    exact hread.symm
  subst himage
  obtain ⟨hencode, hnormal⟩ :=
    encodeImage_of_decode law hlt (length_imageOf _ _ _) hdecode
  exact ⟨_, hencode, hnormal, holds_imageOf _ _ _⟩

/-- A table is loaded as the normal forms of its records exactly if its region
holds the image of the records. -/
theorem load_iff_holds (law : F.Lawful normal) {d : Disk} {sb : Superblock}
    {start blocks : Nat} {rs : List ρ} (hsize : sb.totalBlocks = d.size)
    (hne : blocks ≠ 0) (hfit : start + blocks ≤ sb.totalBlocks)
    (hencodes : ∃ image, F.encodeImage blocks rs = .ok image) :
    F.load d sb start blocks = .ok (rs.map normal) ↔
      ∃ image, F.encodeImage blocks rs = .ok image ∧
        Holds d.blocks start blocks image := by
  constructor
  · intro h
    obtain ⟨image, himage⟩ := hencodes
    obtain ⟨image', himage', _, hholds⟩ := holds_of_load law hsize hfit h
    -- the records and their normal forms have the same image
    obtain ⟨_, _, hlt, _⟩ := encodeImage_eq_ok.mp himage
    obtain ⟨hsame, _⟩ := encodeImage_of_decode law hlt
      (length_encodeImage law himage) (decodeImage_of_encode law himage)
    rw [himage', Except.ok.injEq] at hsame
    subst hsame
    exact ⟨image', himage, hholds⟩
  · intro hfacts
    rcases hfacts with ⟨image, himage, hholds⟩
    exact load_of_holds law hsize hne hfit himage hholds

end TableFormat

/-- The inode table of a disk. -/
theorem loadInodeTable_iff {d : Disk} {sb : Superblock}
    {inodes : List PersistedInode} (hsize : sb.totalBlocks = d.size) :
    loadInodeTable d sb = .ok inodes ↔
      ∃ image, inodeFormat.encodeImage sb.inodeBlocks inodes = .ok image ∧
        inodes.map PersistedInode.canonical = inodes ∧
        Holds d.blocks sb.inodeStart sb.inodeBlocks image := by
  have hlayout := sb.layout
  constructor
  · exact TableFormat.holds_of_load inodeFormat_lawful hsize (by omega)
  · intro hfacts
    rcases hfacts with ⟨image, himage, hnormal, hholds⟩
    have hload := TableFormat.load_of_holds inodeFormat_lawful hsize (by omega)
      (by omega) himage hholds
    rw [hnormal] at hload
    exact hload

/-- The directory table of a disk. -/
theorem loadDirectoryTable_iff {d : Disk} {sb : Superblock}
    {entries : List PersistedDirectoryEntry}
    (hsize : sb.totalBlocks = d.size) :
    loadDirectoryTable d sb = .ok entries ↔
      ∃ image,
        directoryFormat.encodeImage sb.directoryBlocks entries = .ok image ∧
        Holds d.blocks sb.directoryStart sb.directoryBlocks image := by
  have hlayout := sb.layout
  constructor
  · intro h
    obtain ⟨image, himage, _, hholds⟩ :=
      TableFormat.holds_of_load directoryFormat_lawful hsize (by omega) h
    exact ⟨image, himage, hholds⟩
  · intro hfacts
    rcases hfacts with ⟨image, himage, hholds⟩
    have hload := TableFormat.load_of_holds directoryFormat_lawful hsize
      (by omega) (by omega) himage hholds
    rw [List.map_id] at hload
    exact hload

theorem readSuperblock_of_encode {d : Disk} {sb : Superblock}
    (h : d.blocks SUPERBLOCK_BLOCK = sb.encode)
    (hsize : sb.totalBlocks = d.size) : readSuperblock d = .ok sb := by
  have hlayout := sb.layout
  unfold readSuperblock
  rw [Disk.readBlock_of_lt (by simp only [SUPERBLOCK_BLOCK]; omega), h,
    Except.ok_bind, Superblock.decode_encode, Except.ok_bind,
    rejectIf_of_not (show ¬ sb.totalBlocks ≠ blockCount d from
      not_ne_iff.mpr hsize)]
  rfl

/-! ## Tables that have an image -/

/-- A directory table of valid entries with distinct names that is small enough
for its region has an image. -/
theorem exists_directoryImage {blocks : Nat}
    {entries : List PersistedDirectoryEntry}
    (hvalid : ∀ entry ∈ entries, entry.Valid)
    (hnodup : (entries.map directoryFormat.key).Nodup)
    (hfit : 32 + (entries.map fun entry =>
      40 + (nameBytes entry.name).length).sum ≤ blocks * BLOCK_SIZE)
    (hlt : blocks * BLOCK_SIZE < U64_LIMIT)
    (hcount : entries.length < 2 ^ 32) :
    ∃ image, directoryFormat.encodeImage blocks entries = .ok image := by
  refine TableFormat.exists_encodeImage ?_ hnodup hfit hlt hcount
  intro entry hentry
  refine ⟨_, encodeDirectoryEntry_eq_ok.mpr ⟨hvalid entry hentry, rfl⟩, ?_⟩
  simp
  omega

/-- An inode table of valid inodes with distinct identifiers that is small
enough for its region has an image. -/
theorem exists_inodeImage {blocks : Nat} {inodes : List PersistedInode}
    (hvalid : ∀ inode ∈ inodes, inode.validateForPersistence = .ok () ∧
      40 + inode.blocks.length * 8 < 2 ^ 32)
    (hnodup : (inodes.map PersistedInode.id).Nodup)
    (hfit : 32 + (inodes.map fun inode =>
      40 + inode.blocks.length * 8).sum ≤ blocks * BLOCK_SIZE)
    (hlt : blocks * BLOCK_SIZE < U64_LIMIT)
    (hcount : inodes.length < 2 ^ 32) :
    ∃ image, inodeFormat.encodeImage blocks inodes = .ok image := by
  refine TableFormat.exists_encodeImage ?_ hnodup hfit hlt hcount
  intro inode hinode
  obtain ⟨hvalid, hshort⟩ := hvalid inode hinode
  obtain ⟨byteLen, hlen, _⟩ := Except.map_eq_ok.mp hvalid
  refine ⟨_, encodeInode_eq_ok.mpr ⟨byteLen, hlen, hshort, rfl⟩, ?_⟩
  simp
  omega

/-! ## Disks with given tables -/

/-- Block `index` of an image that may not exist. -/
def imageBlock (image : Result (List UInt8)) (index : Nat) : Block :=
  match image with
  | .ok image => Block.ofImage image index
  | .error _ => Block.zero

/-- The disk that holds given tables behind an empty journal, with `data` in
its data blocks. -/
def formatted (sb : Superblock) (a : BlockAllocator)
    (inodes : List PersistedInode) (entries : List PersistedDirectoryEntry)
    (data : Nat → Block) : Disk :=
  Disk.boot sb.totalBlocks fun b =>
    if b = SUPERBLOCK_BLOCK then sb.encode
    else if b < sb.allocationStart then emptyAnchorBlock
    else if b < sb.inodeStart then
      imageBlock (allocationImage sb a) (b - sb.allocationStart)
    else if b < sb.directoryStart then
      imageBlock (inodeFormat.encodeImage sb.inodeBlocks inodes)
        (b - sb.inodeStart)
    else if b < sb.reservedBlocks then
      imageBlock (directoryFormat.encodeImage sb.directoryBlocks entries)
        (b - sb.directoryStart)
    else data b

section Formatted

variable {sb : Superblock} {a : BlockAllocator} {inodes : List PersistedInode}
  {entries : List PersistedDirectoryEntry} {data : Nat → Block}

theorem formatted_settled : (formatted sb a inodes entries data).Settled :=
  Disk.boot_settled _ _

theorem journalOf_formatted :
    journalOf sb (formatted sb a inodes entries data).blocks = .ok [] := by
  have hlayout := sb.layout
  apply journalOf_emptyAnchor
  unfold formatted
  rw [Disk.boot_blocks, if_neg (by simp only [SUPERBLOCK_BLOCK]; omega),
    if_pos (by omega)]

/-- A formatted disk has the tables that it was formatted with. -/
theorem load_formatted (data : Nat → Block)
    {image inodeImage directoryImage : List UInt8}
    (himage : allocationImage sb a = .ok image)
    (hinodes : inodeFormat.encodeImage sb.inodeBlocks inodes = .ok inodeImage)
    (hcanonical : inodes.map PersistedInode.canonical = inodes)
    (hentries : directoryFormat.encodeImage sb.directoryBlocks entries =
      .ok directoryImage) :
    readSuperblock (formatted sb a inodes entries data) = .ok sb ∧
      loadAllocator (formatted sb a inodes entries data) sb = .ok a ∧
      loadInodeTable (formatted sb a inodes entries data) sb = .ok inodes ∧
      loadDirectoryTable (formatted sb a inodes entries data) sb =
        .ok entries := by
  have hlayout := sb.layout
  have hzero : SUPERBLOCK_BLOCK = 0 := rfl
  refine ⟨readSuperblock_of_encode ?_ rfl, (loadAllocator_iff (by rfl)).mpr ?_,
    (loadInodeTable_iff (by rfl)).mpr ?_,
    (loadDirectoryTable_iff (by rfl)).mpr ?_⟩
  · unfold formatted
    rw [Disk.boot_blocks, if_pos rfl]
  · refine ⟨image, himage, ?_⟩
    intro i hi
    unfold formatted
    rw [Disk.boot_blocks, if_neg (by omega), if_neg (by omega),
      if_pos (by omega), himage, Nat.add_sub_cancel_left]
    rfl
  · refine ⟨inodeImage, hinodes, hcanonical, ?_⟩
    intro i hi
    unfold formatted
    rw [Disk.boot_blocks, if_neg (by omega), if_neg (by omega),
      if_neg (by omega), if_pos (by omega), hinodes, Nat.add_sub_cancel_left]
    rfl
  · refine ⟨directoryImage, hentries, ?_⟩
    intro i hi
    unfold formatted
    rw [Disk.boot_blocks, if_neg (by omega), if_neg (by omega),
      if_neg (by omega), if_neg (by omega), if_pos (by omega), hentries,
      Nat.add_sub_cancel_left]
    rfl

/-- A formatted disk passes the check if its tables do. -/
theorem checked_formatted {image inodeImage directoryImage : List UInt8}
    (himage : allocationImage sb a = .ok image)
    (hinodes : inodeFormat.encodeImage sb.inodeBlocks inodes = .ok inodeImage)
    (hcanonical : inodes.map PersistedInode.canonical = inodes)
    (hentries : directoryFormat.encodeImage sb.directoryBlocks entries =
      .ok directoryImage)
    (howned : Owned sb a inodes)
    (hkinds : ∀ inode ∈ inodes, inode.kind ≠ .symlink)
    (htree : Namespace inodes entries) :
    Checked (formatted sb a inodes entries data) sb a inodes entries := by
  obtain ⟨h1, h2, h3, h4⟩ := load_formatted data himage hinodes
    hcanonical hentries
  refine ⟨h1, h2, h3, howned, ?_, h4, htree⟩
  intro inode hinode
  unfold validateSymlinkInode
  rw [if_pos (hkinds inode hinode)]
  rfl

/-- Writes to the data blocks of a formatted disk. -/
theorem overlay_formatted {ws : List (Nat × Block)}
    (h : ∀ w ∈ ws, sb.reservedBlocks ≤ w.1) :
    overlay (formatted sb a inodes entries data).blocks ws =
      (formatted sb a inodes entries (overlay data ws)).blocks := by
  have hlayout := sb.layout
  funext b
  by_cases hb : b < sb.reservedBlocks
  · have hno : b ∉ ws.map Prod.fst := by
      intro hmem
      obtain ⟨w, hw, rfl⟩ := List.mem_map.mp hmem
      have := h w hw
      omega
    rw [overlay_of_notMem hno]
    simp only [formatted, Disk.boot_blocks, if_pos hb]
  · have hdata : ∀ data : Nat → Block,
        (formatted sb a inodes entries data).blocks b = data b := by
      intro data
      unfold formatted
      rw [Disk.boot_blocks, if_neg (by simp only [SUPERBLOCK_BLOCK]; omega),
        if_neg (by omega), if_neg (by omega), if_neg (by omega), if_neg hb]
    rw [hdata, overlay_congr fun _ => hdata data]

/-- A formatted disk without files, whose empty tables have an image. -/
theorem checked_formatted_nil (htotal : a.totalBlocks = sb.totalBlocks)
    (hreserved : a.reservedBlocks = sb.reservedBlocks)
    (hfree : ∀ b, a.flag b = false) {inodeImage directoryImage : List UInt8}
    (hinodes : inodeFormat.encodeImage sb.inodeBlocks [] = .ok inodeImage)
    (hentries : directoryFormat.encodeImage sb.directoryBlocks [] =
      .ok directoryImage) :
    Checked (formatted sb a [] [] data) sb a [] [] := by
  obtain ⟨image, himage⟩ := exists_allocationImage htotal hreserved
  exact checked_formatted himage hinodes rfl hentries (owned_nil hfree)
    (by simp) namespace_nil

/-- An allocator without a set flag. -/
theorem flag_ofFlags_replicate {reserved n : Nat}
    (h : reserved ≤ (List.replicate n false).length ∧ ∀ block,
      block < reserved → (List.replicate n false)[block]? = some false)
    (b : Nat) :
    (BlockAllocator.ofFlags reserved (List.replicate n false) h).flag b =
      false := by
  simp only [BlockAllocator.flag, BlockAllocator.ofFlags_allocated,
    List.getElem?_replicate]
  split <;> rfl

end Formatted

/-! ## The sample disk -/

/-- The allocator of the sample geometry without owned blocks. -/
def sampleAllocator : BlockAllocator :=
  .ofFlags 7 (List.replicate 16 false) (by decide)

/-- The sample disk without files, with `data` in its data blocks. -/
def sampleDisk (data : Nat → Block) : Disk :=
  formatted sampleSuperblock sampleAllocator [] [] data

theorem checked_sampleDisk (data : Nat → Block) :
    Checked (sampleDisk data) sampleSuperblock sampleAllocator [] [] :=
  checked_formatted_nil rfl rfl (flag_ofFlags_replicate _)
    (TableFormat.encodeImage_eq_ok.mpr
      ⟨[], rfl, by decide, by decide, by decide, rfl⟩)
    (TableFormat.encodeImage_eq_ok.mpr
      ⟨[], rfl, by decide, by decide, by decide, rfl⟩)

end FilesystemLab
