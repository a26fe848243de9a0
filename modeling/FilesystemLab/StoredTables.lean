import FilesystemLab.Tables

/-!
# Stores and loads

The three metadata images as `store_allocator`, `store_inode_table` and
`store_directory_table` write them and the loaders read them back, on a disk:

* `inodeTable_roundTrips`: inode tables, up to the shorthand for a full last
  block;
* `directoryTable_roundTrips`: directory tables, and which can be stored;
* `allocationImage_roundTrips`: allocators.

In each direction the region is the encoded image (`Holds`), so both directions
follow from the two codecs.
-/

namespace FilesystemLab

open Bytes WriteLog

/-! ## Writing a region -/

section Region

variable {d : Disk} {start blocks : Nat} {image : List UInt8}

/-- `write_region` puts its writes on the disk. -/
theorem writeRegion_apply {overflow mismatch : String}
    (hlt : blocks * BLOCK_SIZE < U64_LIMIT)
    (hlen : image.length = blocks * BLOCK_SIZE) (hfit : start + blocks ≤ d.size) :
    writeRegion start blocks overflow mismatch image d =
      (.ok (), d.extend
        ((regionWrites start blocks image).map fun w => .write w.1 w.2)) := by
  have hregion : regionLen blocks overflow = .ok (blocks * BLOCK_SIZE) :=
    regionLen_eq_ok.mpr ⟨hlt, rfl⟩
  have hrange : ∀ w ∈ regionWrites start blocks image, w.1 < d.size := by
    intro w hw
    obtain ⟨i, hi, rfl⟩ := mem_regionWrites.mp hw
    show start + i < d.size
    omega
  rw [writeRegion, Effect.lift_bind_of_ok hregion,
    Effect.lift_bind_of_ok (a := ()) (rejectIf_of_not (not_ne_iff.mpr hlen))]
  exact Disk.writeBlocks_apply hrange

/-- `write_region` and `flush` are one epoch of the disk. -/
theorem writeRegion_flush_apply {overflow mismatch : String}
    (hlt : blocks * BLOCK_SIZE < U64_LIMIT)
    (hlen : image.length = blocks * BLOCK_SIZE) (hfit : start + blocks ≤ d.size) :
    (do writeRegion start blocks overflow mismatch image; flush :
      DevM Disk Unit) d = (.ok (), d.commit [regionWrites start blocks image]) := by
  rw [Effect.bind_of_ok (writeRegion_apply hlt hlen hfit), Disk.flush_apply,
    Disk.extend_extend, Disk.commit]
  simp [barriers, epoch]

/-- The blocks that `write_region` writes. -/
theorem range_of_mem_regionWrites {b : Nat}
    (h : b ∈ (regionWrites start blocks image).map Prod.fst) :
    start ≤ b ∧ b < start + blocks := by
  obtain ⟨w, hw, rfl⟩ := List.mem_map.mp h
  obtain ⟨i, hi, rfl⟩ := mem_regionWrites.mp hw
  simp only
  omega

/-- A region that is written holds the image. -/
theorem holds_commit :
    Holds (d.commit [regionWrites start blocks image]).blocks start blocks
      image := by
  intro i hi
  rw [Disk.blocks_commit, settle, List.flatten_singleton]
  exact overlay_of_nodup (nodup_regionWrites start blocks image)
    (mem_regionWrites.mpr ⟨i, hi, rfl⟩)

end Region

/-! ## Tables of records -/

namespace TableFormat

variable {ρ κ : Type} [DecidableEq κ] {F : TableFormat ρ κ} {normal : ρ → ρ}
  {d d' : Disk} {sb : Superblock} {start blocks : Nat} {rs : List ρ}

/-- When a table is stored, and what that does to the disk. -/
theorem store_eq_ok (law : F.Lawful normal) :
    F.store sb start blocks rs d = (.ok (), d') ↔
      sb.totalBlocks = d.size ∧ blocks ≠ 0 ∧ start + blocks ≤ sb.totalBlocks ∧
        ∃ image, F.encodeImage blocks rs = .ok image ∧
          d' = d.commit [regionWrites start blocks image] := by
  have hwrite : ∀ image, sb.totalBlocks = d.size →
      start + blocks ≤ sb.totalBlocks → F.encodeImage blocks rs = .ok image →
      (do writeRegion start blocks (F.noun ++ " table byte size overflow")
            (F.noun ++ " table image has invalid region length") image
          flush : DevM Disk Unit) d =
        (.ok (), d.commit [regionWrites start blocks image]) := by
    intro image hsize hfit himage
    obtain ⟨_, _, hlt, _⟩ := encodeImage_eq_ok.mp himage
    exact writeRegion_flush_apply hlt (length_encodeImage law himage) (by omega)
  constructor
  · intro h
    obtain ⟨_, _, hgeometry, h⟩ := Effect.bind_eq_ok_iff.mp h
    rw [Effect.query_apply, Prod.mk.injEq] at hgeometry
    obtain ⟨hgeometry, rfl⟩ := hgeometry
    simp only [validateGeometry, Except.bind_eq_ok, rejectIf_eq_ok, not_or,
      not_ne_iff, not_lt, Disk.blockCount_eq, gt_iff_lt] at hgeometry
    obtain ⟨_, hsize, hne, hfit⟩ := hgeometry
    obtain ⟨image, _, himage, h⟩ := Effect.bind_eq_ok_iff.mp h
    rw [Effect.liftM_apply, Prod.mk.injEq] at himage
    obtain ⟨himage, rfl⟩ := himage
    rw [hwrite image hsize.symm hfit himage, Prod.mk.injEq] at h
    exact ⟨hsize.symm, hne, hfit, image, himage, h.2.symm⟩
  · intro hfacts
    rcases hfacts with ⟨hsize, hne, hfit, image, himage, rfl⟩
    rw [store, Effect.query_bind_of_ok
      (q := (F.validateGeometry · sb start blocks))
      (validateGeometry_of_size hsize hne hfit), Effect.lift_bind_of_ok himage]
    exact hwrite image hsize hfit himage

/-- A table that is stored is loaded in normal form. -/
theorem load_of_store (law : F.Lawful normal)
    (h : F.store sb start blocks rs d = (.ok (), d')) :
    F.load d' sb start blocks = .ok (rs.map normal) := by
  obtain ⟨hsize, hne, hfit, image, himage, rfl⟩ := (store_eq_ok law).mp h
  exact load_of_holds law hsize hne hfit himage holds_commit

/-- A table is loaded from disks of the geometry only. -/
theorem geometry_of_load (h : F.load d sb start blocks = .ok rs) :
    sb.totalBlocks = d.size ∧ blocks ≠ 0 ∧
      start + blocks ≤ sb.totalBlocks := by
  simp only [load, validateGeometry, Except.bind_eq_ok, rejectIf_eq_ok,
    not_ne_iff, not_or, not_lt, Disk.blockCount_eq, gt_iff_lt] at h
  obtain ⟨_, ⟨_, hsize, hne, hfit⟩, _⟩ := h
  exact ⟨hsize.symm, hne, hfit⟩

/-- A table that is loaded can be stored, on any disk of the geometry, and its
region is what it was loaded from. -/
theorem store_of_load (law : F.Lawful normal)
    (h : F.load d sb start blocks = .ok rs) {e : Disk}
    (he : e.size = d.size) :
    ∃ e', F.store sb start blocks rs e = (.ok (), e') ∧
      ∀ b, start ≤ b → b < start + blocks → e'.blocks b = d.blocks b := by
  obtain ⟨hsize, hne, hfit⟩ := geometry_of_load h
  obtain ⟨image, himage, _, hholds⟩ := holds_of_load law hsize hfit h
  refine ⟨_, (store_eq_ok law).mpr
    ⟨by rw [hsize, he], hne, hfit, image, himage, rfl⟩, ?_⟩
  intro b hb hlt
  exact holds_commit.agree hholds hb hlt

end TableFormat

/-! ## The inode table -/

/-- The end of a file as a case distinction. -/
theorem PersistedInode.FileEnd.cases {inode : PersistedInode}
    (h : inode.FileEnd) :
    inode.blocks = [] ∧ inode.byteLen = 0 ∨
      inode.blocks ≠ [] ∧
        (inode.blocks.length - 1) * BLOCK_SIZE < inode.byteLen.toNat ∧
        inode.byteLen.toNat ≤ inode.blocks.length * BLOCK_SIZE := by
  have hle := h.le_capacity
  have hlt := h.capacity_lt
  by_cases hnil : inode.blocks = []
  · left
    rw [hnil, List.length_nil, Nat.zero_mul] at hle
    exact ⟨hnil, UInt64.toNat_inj.mp (Nat.le_zero.mp hle)⟩
  · right
    have hpos := List.length_pos_of_ne_nil hnil
    have hsucc : inode.blocks.length * BLOCK_SIZE =
        (inode.blocks.length - 1) * BLOCK_SIZE + BLOCK_SIZE := by
      rw [← Nat.succ_mul]
      congr 1
      omega
    exact ⟨hnil, by omega, hle⟩

/-- The inodes of a table that can be encoded are valid. -/
theorem canonicalByteLen_of_encodeImage {blocks : Nat}
    {inodes : List PersistedInode} {image : List UInt8}
    (h : inodeFormat.encodeImage blocks inodes = .ok image)
    {inode : PersistedInode} (hmem : inode ∈ inodes) :
    ∃ n, inode.canonicalByteLen = .ok n := by
  obtain ⟨_, hpayload, _⟩ := TableFormat.encodeImage_eq_ok.mp h
  obtain ⟨_, hbytes⟩ :=
    TableFormat.encode_of_encodeRecords hpayload inode hmem
  obtain ⟨n, hlen, _⟩ := encodeInode_eq_ok.mp hbytes
  exact ⟨n, hlen⟩

/-- The canonical form of a valid inode has the length of the inode. -/
theorem PersistedInode.canonicalByteLen_canonical {inode : PersistedInode}
    {n : UInt64} (h : inode.canonicalByteLen = .ok n) :
    inode.canonical.byteLen = n ∧ inode.canonical.canonicalByteLen = .ok n := by
  have hfields := validateInodeFields_canonical (liftMessage_eq_ok.mp h) true
  rw [canonical_of_ok h]
  exact ⟨rfl, liftMessage_eq_ok.mpr hfields⟩

/-- What the inodes of a table satisfy that is loaded. -/
theorem inodes_of_load {d : Disk} {sb : Superblock}
    {inodes : List PersistedInode} (hsize : sb.totalBlocks = d.size)
    (h : loadInodeTable d sb = .ok inodes) :
    (inodes.map PersistedInode.id).Nodup ∧
      ∀ inode ∈ inodes, inode.id ≠ 0 ∧ inode.blocks.Nodup ∧
        (inode.kind = .file → inode.FileEnd) := by
  obtain ⟨image, himage, hnormal, _⟩ := (loadInodeTable_iff hsize).mp h
  obtain ⟨_, hpayload, _⟩ := TableFormat.encodeImage_eq_ok.mp himage
  refine ⟨(TableFormat.nodup_of_encodeRecords hpayload).1, ?_⟩
  intro inode hmem
  obtain ⟨n, hlen⟩ := canonicalByteLen_of_encodeImage himage hmem
  have hcanonical : inode.canonical = inode := by
    have hmap : inodes.map PersistedInode.canonical = inodes.map id := by
      rw [hnormal, List.map_id]
    exact List.map_inj_left.mp hmap inode hmem
  have hvalid := PersistedInode.validate_of_canonical hlen hcanonical
  refine ⟨?_, PersistedInode.nodup_of_validate hvalid, fun hkind =>
    (PersistedInode.fileEnd_of_validate hkind hvalid).1⟩
  simp only [validateInodeFields, Except.bind_eq_ok, rejectIf_eq_ok] at hvalid
  obtain ⟨_, hid, _⟩ := hvalid
  exact hid

/-- Inode tables round-trip in both directions, and what is accepted is
sound. -/
theorem inodeTable_roundTrips (sb : Superblock) (d : Disk) :
    (∀ inodes d', storeInodeTable sb inodes d = (.ok (), d') →
      ∃ loaded, loadInodeTable d' sb = .ok loaded ∧
        List.Forall₂ (fun inode original => inode.eq original = true ∧
          original.canonicalByteLen = .ok inode.byteLen ∧
          inode.canonicalByteLen = .ok inode.byteLen) loaded inodes) ∧
    ∀ inodes, loadInodeTable d sb = .ok inodes →
      (∀ e : Disk, e.size = d.size →
        ∃ e', storeInodeTable sb inodes e = (.ok (), e') ∧
          ∀ b, sb.inodeRange b → e'.blocks b = d.blocks b) ∧
      (inodes.map PersistedInode.id).Nodup ∧
      ∀ inode ∈ inodes, inode.id ≠ 0 ∧ inode.blocks.Nodup ∧
        (inode.kind = .file →
          inode.blocks = [] ∧ inode.byteLen = 0 ∨
          inode.blocks ≠ [] ∧
            (inode.blocks.length - 1) * BLOCK_SIZE < inode.byteLen.toNat ∧
            inode.byteLen.toNat ≤ inode.blocks.length * BLOCK_SIZE) := by
  constructor
  · intro inodes d' h
    refine ⟨_, TableFormat.load_of_store inodeFormat_lawful h, ?_⟩
    obtain ⟨_, _, _, image, himage, _⟩ :=
      (TableFormat.store_eq_ok inodeFormat_lawful).mp h
    rw [List.forall₂_map_left_iff, List.forall₂_same]
    intro inode hmem
    obtain ⟨n, hlen⟩ := canonicalByteLen_of_encodeImage himage hmem
    obtain ⟨hbyteLen, hcanonical⟩ :=
      PersistedInode.canonicalByteLen_canonical hlen
    refine ⟨inode.eq_canonical, ?_, ?_⟩
    · rw [hbyteLen, hlen]
    · rw [hbyteLen, hcanonical]
  · intro inodes h
    obtain ⟨hsize, _⟩ := TableFormat.geometry_of_load h
    obtain ⟨hnodup, hvalid⟩ := inodes_of_load hsize h
    refine ⟨?_, hnodup, ?_⟩
    · intro e he
      obtain ⟨e', hstore, hregion⟩ :=
        TableFormat.store_of_load inodeFormat_lawful h he
      exact ⟨e', hstore, fun b hb => hregion b hb.1 hb.2⟩
    · intro inode hmem
      obtain ⟨hid, hblocks, hend⟩ := hvalid inode hmem
      exact ⟨hid, hblocks, fun hkind => (hend hkind).cases⟩

/-! ## The directory table -/

/-- The lists of entries that the directory format has an image for. -/
structure StorableEntries (sb : Superblock)
    (entries : List PersistedDirectoryEntry) : Prop where
  keys : (entries.map fun entry => (entry.parent, entry.name)).Nodup
  ids : ∀ entry ∈ entries, entry.parent ≠ 0 ∧ entry.target ≠ 0
  names : ∀ entry ∈ entries, 1 ≤ (nameBytes entry.name).length ∧
    (nameBytes entry.name).length ≤ 255 ∧ '/' ∉ entry.name.toList ∧
    Char.ofNat 0 ∉ entry.name.toList ∧ entry.name ≠ "." ∧ entry.name ≠ ".."
  count : entries.length < 2 ^ 32
  fits : 32 + (entries.map fun entry =>
    40 + (nameBytes entry.name).length).sum ≤ sb.directoryBlocks * BLOCK_SIZE

theorem PersistedDirectoryEntry.valid_iff {entry : PersistedDirectoryEntry} :
    entry.Valid ↔ (entry.parent ≠ 0 ∧ entry.target ≠ 0) ∧
      1 ≤ (nameBytes entry.name).length ∧
      (nameBytes entry.name).length ≤ 255 ∧ '/' ∉ entry.name.toList ∧
      Char.ofNat 0 ∉ entry.name.toList ∧ entry.name ≠ "." ∧
      entry.name ≠ ".." := by
  have hpos : 1 ≤ (nameBytes entry.name).length ↔ entry.name ≠ "" := by
    rw [ne_eq, ← nameBytes_eq_nil]
    exact List.length_pos_iff
  unfold Valid InvalidName
  rw [hpos, show DIRECTORY_NAME_MAX_BYTES = 255 from rfl]
  simp only [not_or, gt_iff_lt, not_lt]
  tauto

/-- The records of valid entries have known lengths. -/
theorem length_encodeDirectoryEntry (entry : PersistedDirectoryEntry)
    (bytes : List UInt8) (h : encodeDirectoryEntry entry = .ok bytes) :
    bytes.length = 40 + (nameBytes entry.name).length := by
  obtain ⟨_, rfl⟩ := encodeDirectoryEntry_eq_ok.mp h
  rw [length_sealed, length_directoryFront, List.length_append, length_leBytes]
  omega

/-- The entries that have an image, in a region whose size is a `usize`. -/
theorem exists_directoryImage_iff {sb : Superblock}
    {entries : List PersistedDirectoryEntry} :
    (∃ image,
        directoryFormat.encodeImage sb.directoryBlocks entries = .ok image) ↔
      StorableEntries sb entries ∧
        sb.directoryBlocks * BLOCK_SIZE < U64_LIMIT := by
  constructor
  · intro hfacts
    rcases hfacts with ⟨image, himage⟩
    obtain ⟨payload, hpayload, hlt, hfit, hcount, _⟩ :=
      TableFormat.encodeImage_eq_ok.mp himage
    have hlen :=
      TableFormat.length_encodeRecords length_encodeDirectoryEntry hpayload
    have hvalid : ∀ entry ∈ entries, entry.Valid := by
      intro entry hmem
      obtain ⟨bytes, hbytes⟩ :=
        TableFormat.encode_of_encodeRecords hpayload entry hmem
      exact (encodeDirectoryEntry_eq_ok.mp hbytes).1
    refine ⟨⟨(TableFormat.nodup_of_encodeRecords hpayload).1, ?_, ?_, hcount,
      by rw [← hlen]; exact hfit⟩, hlt⟩
    · intro entry hmem
      exact (PersistedDirectoryEntry.valid_iff.mp (hvalid entry hmem)).1
    · intro entry hmem
      exact (PersistedDirectoryEntry.valid_iff.mp (hvalid entry hmem)).2
  · intro hfacts
    rcases hfacts with ⟨h, hlt⟩
    refine exists_directoryImage ?_ h.keys h.fits hlt h.count
    intro entry hmem
    exact PersistedDirectoryEntry.valid_iff.mpr
      ⟨h.ids entry hmem, h.names entry hmem⟩

/-- Directory tables round-trip in both directions, and a list is stored
exactly if it is storable and the size of the region is a `usize`. -/
theorem directoryTable_roundTrips (sb : Superblock) (d : Disk) :
    (∀ entries d', storeDirectoryTable sb entries d = (.ok (), d') →
      loadDirectoryTable d' sb = .ok entries) ∧
    (∀ entries, loadDirectoryTable d sb = .ok entries →
      ∀ e : Disk, e.size = d.size →
        ∃ e', storeDirectoryTable sb entries e = (.ok (), e') ∧
          ∀ b, sb.directoryRange b → e'.blocks b = d.blocks b) ∧
    (sb.totalBlocks = d.size → ∀ entries,
      (∃ d', storeDirectoryTable sb entries d = (.ok (), d')) ↔
        StorableEntries sb entries ∧
          sb.directoryBlocks * BLOCK_SIZE < U64_LIMIT) := by
  refine ⟨?_, ?_, ?_⟩
  · intro entries d' h
    have hload := TableFormat.load_of_store directoryFormat_lawful h
    rw [List.map_id] at hload
    exact hload
  · intro entries h e he
    obtain ⟨e', hstore, hregion⟩ :=
      TableFormat.store_of_load directoryFormat_lawful h he
    exact ⟨e', hstore, fun b hb => hregion b hb.1 hb.2⟩
  · intro hsize entries
    have hlayout := sb.layout
    rw [← exists_directoryImage_iff]
    constructor
    · intro hfacts
      rcases hfacts with ⟨d', h⟩
      obtain ⟨_, _, _, image, himage, _⟩ :=
        (TableFormat.store_eq_ok directoryFormat_lawful).mp h
      exact ⟨image, himage⟩
    · intro hfacts
      rcases hfacts with ⟨image, himage⟩
      exact ⟨_, (TableFormat.store_eq_ok directoryFormat_lawful).mpr
        ⟨hsize, by omega, by omega, image, himage, rfl⟩⟩

/-- A geometry whose directory table has `2^64` bytes. -/
def vastSuperblock : Superblock :=
  .ofSizes (2 ^ 53) 1 (2 ^ 38 + 1) 1 (2 ^ 52) ⟨rfl, by decide⟩

/-- The empty table is storable in a vast region, and is not stored. -/
theorem directoryTable_vast_rejected :
    StorableEntries vastSuperblock [] ∧
      ∀ d' : Disk, storeDirectoryTable vastSuperblock []
        (Disk.boot vastSuperblock.totalBlocks fun _ => Block.zero) ≠
          (.ok (), d') := by
  have hblocks : vastSuperblock.directoryBlocks = 2 ^ 52 := rfl
  constructor
  · refine ⟨List.nodup_nil, by simp, by simp, by decide, ?_⟩
    rw [hblocks, blockSize_eq]
    decide
  · intro d' h
    obtain ⟨_, _, _, image, himage, _⟩ :=
      (TableFormat.store_eq_ok directoryFormat_lawful).mp h
    obtain ⟨_, _, hlt, _⟩ := TableFormat.encodeImage_eq_ok.mp himage
    rw [hblocks, blockSize_eq] at hlt
    exact absurd hlt (by decide)

/-! ## The allocation image -/

/-- The allocators that calls of `allocate`, `allocate_contiguous` and `free`
leave behind, starting from `BlockAllocator::new`. -/
inductive BlockAllocator.Reachable (total reserved : Nat) :
    BlockAllocator → Prop
  | new {a : BlockAllocator} (h : BlockAllocator.new total reserved = .ok a) :
      Reachable total reserved a
  | allocate {a a' : BlockAllocator} {block : Nat}
      (ha : Reachable total reserved a) (h : a.allocate = .ok (block, a')) :
      Reachable total reserved a'
  | allocateContiguous {a a' : BlockAllocator} {count first : Nat}
      (ha : Reachable total reserved a)
      (h : a.allocateContiguous count = .ok (first, a')) :
      Reachable total reserved a'
  | free {a a' : BlockAllocator} {block : Nat}
      (ha : Reachable total reserved a) (h : a.free block = .ok a') :
      Reachable total reserved a'

/-- No call changes the geometry. -/
theorem BlockAllocator.Reachable.geometry {total reserved : Nat}
    {a : BlockAllocator} (h : Reachable total reserved a) :
    a.totalBlocks = total ∧ a.reservedBlocks = reserved := by
  induction h with
  | new h =>
    unfold BlockAllocator.new at h
    split at h
    · cases h
    · cases h
      exact ⟨rfl, rfl⟩
  | allocate _ h ih =>
    obtain ⟨htotal, hreserved, _⟩ := allocateContiguous_eq_ok h
    rw [htotal, hreserved]
    exact ih
  | allocateContiguous _ h ih =>
    obtain ⟨htotal, hreserved, _⟩ := allocateContiguous_eq_ok h
    rw [htotal, hreserved]
    exact ih
  | free _ h ih =>
    obtain ⟨htotal, hreserved, _⟩ := free_eq_ok h
    rw [htotal, hreserved]
    exact ih

/-- An allocator of the geometry is stored. -/
theorem storeAllocator_of_image {d : Disk} {sb : Superblock}
    {a : BlockAllocator} {image : List UInt8} (hsize : sb.totalBlocks = d.size)
    (himage : allocationImage sb a = .ok image) :
    storeAllocator sb a d = (.ok (), d.commit
      [regionWrites sb.allocationStart sb.allocationBlocks image]) := by
  have hlayout := sb.layout
  obtain ⟨_, hregion, _⟩ := allocation_fits sb
  have hgeometry : validateDeviceGeometry d sb = .ok () :=
    rejectIf_of_not (not_ne_iff.mpr hsize.symm)
  rw [storeAllocator, Effect.query_bind_of_ok
    (q := (validateDeviceGeometry · sb)) hgeometry,
    Effect.lift_bind_of_ok himage]
  exact writeRegion_flush_apply hregion (length_allocationImage himage)
    (by omega)

/-- The bits of the image of an allocator: the owned data blocks, and nothing
else up to the end of the region. -/
theorem bitAt_allocationImage {sb : Superblock} {a : BlockAllocator}
    {image : List UInt8} (h : allocationImage sb a = .ok image) (n : Nat) :
    bitAt (image.drop 32) n =
      (decide (sb.reservedBlocks ≤ n ∧ n < sb.totalBlocks) && a.flag n) := by
  obtain ⟨_, _, hencode⟩ := allocationImage_eq_ok.mp h
  obtain ⟨hlen, _, rfl⟩ := encodeAllocation_eq_ok.mp hencode
  rw [List.append_assoc, List.drop_left' (length_allocationHeader _),
    bitAt_append_zeros, bitAt_bitmapOf]

/-- Allocation images round-trip in both directions, the bitmap fits the
reservation, and only data blocks have bits in an image that is accepted. -/
theorem allocationImage_roundTrips (sb : Superblock) (d : Disk) :
    (sb.totalBlocks = d.size → ∀ a,
      BlockAllocator.Reachable sb.totalBlocks sb.reservedBlocks a →
        ∃ d', storeAllocator sb a d = (.ok (), d') ∧
          loadAllocator d' sb = .ok a) ∧
    (∀ a, loadAllocator d sb = .ok a →
      ∀ e : Disk, e.size = d.size →
        ∃ e', storeAllocator sb a e = (.ok (), e') ∧
          ∀ b, sb.allocationRange b → e'.blocks b = d.blocks b) ∧
    (allocationBitmapBytes sb.totalBlocks = .ok ((sb.totalBlocks + 7) / 8) ∧
      32 + (sb.totalBlocks + 7) / 8 ≤ sb.allocationBlocks * BLOCK_SIZE) ∧
    ∀ a, loadAllocator d sb = .ok a → ∀ n,
      bitAt ((imageOf d.blocks sb.allocationStart sb.allocationBlocks).drop 32)
        n = true → sb.reservedBlocks ≤ n ∧ n < sb.totalBlocks := by
  obtain ⟨hbytes, _, hfits⟩ := allocation_fits sb
  have hgeometry : ∀ a, loadAllocator d sb = .ok a →
      sb.totalBlocks = d.size := by
    intro a h
    simp only [loadAllocator, validateDeviceGeometry, Except.bind_eq_ok,
      rejectIf_eq_ok, not_ne_iff, Disk.blockCount_eq] at h
    obtain ⟨_, hsize, _⟩ := h
    exact hsize.symm
  refine ⟨?_, ?_, ⟨hbytes, hfits⟩, ?_⟩
  · intro hsize a ha
    obtain ⟨htotal, hreserved⟩ := ha.geometry
    obtain ⟨image, himage⟩ := exists_allocationImage htotal hreserved
    refine ⟨_, storeAllocator_of_image hsize himage, ?_⟩
    exact (loadAllocator_iff (d := d.commit _) hsize).mpr
      ⟨image, himage, holds_commit⟩
  · intro a h e he
    have hsize := hgeometry a h
    obtain ⟨image, himage, hholds⟩ := (loadAllocator_iff hsize).mp h
    refine ⟨_, storeAllocator_of_image (by rw [hsize, he]) himage, ?_⟩
    intro b hb
    exact holds_commit.agree hholds hb.1 hb.2
  · intro a h n hbit
    obtain ⟨image, himage, hholds⟩ := (loadAllocator_iff (hgeometry a h)).mp h
    rw [hholds.imageOf_eq (length_allocationImage himage),
      bitAt_allocationImage himage, Bool.and_eq_true, decide_eq_true_eq] at hbit
    exact hbit.1

end FilesystemLab
