import FilesystemLab.FormatDevice

/-!
# Formatting for a capacity

`src/format_capacity.rs`: formatting with a table region that is sized for a
number of records.

The planner has the size arithmetic of the encoders a second time, and its
regions are never too small (`tableBlocks_eq_ok`).  The header of a table has
one more limit, a record count of 32 bits, and the planner accepts larger
capacities than that.

* `capacityFormatters_formats`: how a request ends.
* `TableFormat.Takes` says that a table takes every list up to a capacity: a
  region of the planned size does so below `2 ^ 32`, and none beyond.
* `capacityFormatters_iff`: a formatter keeps its promise exactly then.
-/

namespace FilesystemLab

open Bytes

/-! ## The planner -/

def INODE_RECORD_HEADER_LEN : Nat := 40

def INODE_TABLE_HEADER_LEN : Nat := 32

def DIRECTORY_ENTRY_HEADER_LEN : Nat := 40

def DIRECTORY_TABLE_HEADER_LEN : Nat := 32

/-- `blocks_for_bytes`.  A `usize` is a `u64`, so the conversion does not
fail. -/
def blocksForBytes (bytes : Nat) (overflowMessage : String) : Result Nat := do
  let padded ← okOr (checkedAdd bytes (BLOCK_SIZE - 1))
    (invalidInput overflowMessage)
  pure (padded / BLOCK_SIZE)

/-- The blocks of a table of `capacity` records, which both formatters
compute. -/
def tableBlocks (capacity recordBytes headerLen : Nat)
    (overflowMessage : String) : Result Nat := do
  let bytes ← okOr ((checkedMul capacity recordBytes).bind
    (checkedAdd · headerLen)) (invalidInput overflowMessage)
  blocksForBytes bytes overflowMessage

section Device

variable {σ : Type} [BlockDevice σ]

/-- `format_device_for_blockless_inode_capacity`. -/
def formatDeviceForBlocklessInodeCapacity (journalBlocks
    inodeCapacity : Nat) : DevM σ Superblock := do
  rejectIf (inodeCapacity = 0) (invalidInput "inode capacity must be non-zero")
  let inodeBlocks ← tableBlocks inodeCapacity INODE_RECORD_HEADER_LEN
    INODE_TABLE_HEADER_LEN "inode capacity overflow"
  formatDeviceWithMetadataBlocks journalBlocks inodeBlocks
    DEFAULT_DIRECTORY_BLOCKS

/-- `format_device_for_directory_capacity`. -/
def formatDeviceForDirectoryCapacity (journalBlocks entryCapacity
    maxNameBytes : Nat) : DevM σ Superblock := do
  rejectIf (entryCapacity = 0)
    (invalidInput "directory entry capacity must be non-zero")
  rejectIf (maxNameBytes = 0 ∨ maxNameBytes > DIRECTORY_NAME_MAX_BYTES)
    (invalidInput "directory maximum name length is invalid")
  let recordBytes ← okOr (checkedAdd DIRECTORY_ENTRY_HEADER_LEN maxNameBytes)
    (invalidInput "directory capacity overflow")
  let directoryBlocks ← tableBlocks entryCapacity recordBytes
    DIRECTORY_TABLE_HEADER_LEN "directory capacity overflow"
  formatDeviceWithMetadataBlocks journalBlocks DEFAULT_INODE_BLOCKS
    directoryBlocks

end Device

/-- The planned region holds the records behind their header, and its size in
bytes is a `usize`. -/
theorem tableBlocks_eq_ok {capacity recordBytes headerLen blocks : Nat}
    {overflowMessage : String}
    (h : tableBlocks capacity recordBytes headerLen overflowMessage =
      .ok blocks) :
    headerLen + capacity * recordBytes ≤ blocks * BLOCK_SIZE ∧
      blocks * BLOCK_SIZE < U64_LIMIT := by
  simp only [tableBlocks, blocksForBytes, Except.bind_eq_ok, okOr_eq_ok,
    Option.bind_eq_some_iff, checkedMul_eq_some, checkedAdd_eq_some,
    Except.pure_eq_ok, Except.ok.injEq] at h
  obtain ⟨_, ⟨_, ⟨_, rfl⟩, _, rfl⟩, _, ⟨hlt, rfl⟩, rfl⟩ := h
  rw [blockSize_eq] at *
  omega

/-! ## What the formatters plan -/

section Inversion

variable {d d' : Disk} {sb : Superblock} {journalBlocks : Nat}

/-- A formatting returns the superblock of its geometry. -/
theorem formatDeviceWithMetadataBlocks_eq_ok {inodeBlocks directoryBlocks : Nat}
    (h : formatDeviceWithMetadataBlocks journalBlocks inodeBlocks
      directoryBlocks d = (.ok sb, d')) :
    sb.inodeBlocks = inodeBlocks ∧ sb.directoryBlocks = directoryBlocks := by
  obtain ⟨s, _, hgeometry, hrun⟩ := Effect.bind_eq_ok_iff.mp h
  rw [Effect.query_apply, Prod.mk.injEq] at hgeometry
  -- the steps of `initializeDevice`, of which only the last returns a value
  obtain ⟨_, _, _, hrun⟩ := Effect.bind_eq_ok_iff.mp hrun
  obtain ⟨_, _, _, hrun⟩ := Effect.bind_eq_ok_iff.mp hrun
  obtain ⟨_, _, _, hrun⟩ := Effect.bind_eq_ok_iff.mp hrun
  obtain ⟨_, _, _, hrun⟩ := Effect.bind_eq_ok_iff.mp hrun
  obtain ⟨_, _, _, hrun⟩ := Effect.bind_eq_ok_iff.mp hrun
  obtain ⟨_, _, _, hrun⟩ := Effect.bind_eq_ok_iff.mp hrun
  rw [Effect.pure_apply, Prod.mk.injEq, Except.ok.injEq] at hrun
  obtain ⟨rfl, _⟩ := hrun
  exact (Superblock.withAllMetadataBlocks_eq_ok.mp hgeometry.1).2.2

/-- The inode table of a successful formatting has the planned size. -/
theorem inodeBlocks_of_format {inodeCapacity : Nat}
    (h : formatDeviceForBlocklessInodeCapacity journalBlocks inodeCapacity d =
      (.ok sb, d')) :
    tableBlocks inodeCapacity 40 32 "inode capacity overflow" =
      .ok sb.inodeBlocks := by
  obtain ⟨_, _, _, hrun⟩ := Effect.bind_eq_ok_iff.mp h
  obtain ⟨inodeBlocks, _, hplan, hrun⟩ := Effect.bind_eq_ok_iff.mp hrun
  rw [Effect.liftM_apply, Prod.mk.injEq] at hplan
  rw [(formatDeviceWithMetadataBlocks_eq_ok hrun).1]
  exact hplan.1

/-- The directory table of a successful formatting has the planned size. -/
theorem directoryBlocks_of_format {entryCapacity maxNameBytes : Nat}
    (h : formatDeviceForDirectoryCapacity journalBlocks entryCapacity
      maxNameBytes d = (.ok sb, d')) :
    (maxNameBytes ≠ 0 ∧ maxNameBytes ≤ 255) ∧
      tableBlocks entryCapacity (40 + maxNameBytes) 32
        "directory capacity overflow" = .ok sb.directoryBlocks := by
  obtain ⟨_, _, _, hrun⟩ := Effect.bind_eq_ok_iff.mp h
  obtain ⟨_, _, hname, hrun⟩ := Effect.bind_eq_ok_iff.mp hrun
  obtain ⟨_, _, hrecord, hrun⟩ := Effect.bind_eq_ok_iff.mp hrun
  obtain ⟨directoryBlocks, _, hplan, hformat⟩ := Effect.bind_eq_ok_iff.mp hrun
  simp only [Effect.liftM_apply, Prod.mk.injEq, rejectIf_eq_ok, okOr_eq_ok,
    checkedAdd_eq_some, not_or, not_lt, gt_iff_lt] at hname hrecord hplan
  obtain ⟨⟨_, rfl⟩, _⟩ := hrecord
  rw [(formatDeviceWithMetadataBlocks_eq_ok hformat).2]
  exact ⟨hname.1, hplan.1⟩

end Inversion

/-! ## Runs -/

section Runs

variable {d : Disk}

/-- A check in front of a formatting is a check of its geometry. -/
theorem Formats.bind {α : Type} {x : Result α} {geometry : α → Result Superblock}
    {op : α → DevM Disk Superblock} (h : ∀ a, Formats d (geometry a) (op a)) :
    Formats d (x >>= geometry) (liftM x >>= op) := by
  cases x with
  | error e =>
    refine ⟨?_, fun sb hsb => by cases hsb⟩
    intro e' he
    cases he
    rfl
  | ok a => exact ⟨(h a).rejected, (h a).accepted⟩

/-- The geometry of a request for inodes. -/
def inodeCapacityGeometry (totalBlocks journalBlocks inodeCapacity : Nat) :
    Result Superblock := do
  rejectIf (inodeCapacity = 0) (invalidInput "inode capacity must be non-zero")
  let inodeBlocks ← tableBlocks inodeCapacity INODE_RECORD_HEADER_LEN
    INODE_TABLE_HEADER_LEN "inode capacity overflow"
  Superblock.withAllMetadataBlocks totalBlocks journalBlocks inodeBlocks
    DEFAULT_DIRECTORY_BLOCKS

/-- The geometry of a request for directory entries. -/
def directoryCapacityGeometry (totalBlocks journalBlocks entryCapacity
    maxNameBytes : Nat) : Result Superblock := do
  rejectIf (entryCapacity = 0)
    (invalidInput "directory entry capacity must be non-zero")
  rejectIf (maxNameBytes = 0 ∨ maxNameBytes > DIRECTORY_NAME_MAX_BYTES)
    (invalidInput "directory maximum name length is invalid")
  let recordBytes ← okOr (checkedAdd DIRECTORY_ENTRY_HEADER_LEN maxNameBytes)
    (invalidInput "directory capacity overflow")
  let directoryBlocks ← tableBlocks entryCapacity recordBytes
    DIRECTORY_TABLE_HEADER_LEN "directory capacity overflow"
  Superblock.withAllMetadataBlocks totalBlocks journalBlocks
    DEFAULT_INODE_BLOCKS directoryBlocks

/-- The capacity formatters write nothing if they reject the request, and leave
a blank filesystem if they accept it. -/
theorem capacityFormatters_formats (hbytes : d.size * BLOCK_SIZE < U64_LIMIT)
    (journalBlocks : Nat) :
    (∀ inodeCapacity, Formats d
      (inodeCapacityGeometry d.size journalBlocks inodeCapacity)
      (formatDeviceForBlocklessInodeCapacity journalBlocks inodeCapacity)) ∧
    ∀ entryCapacity maxNameBytes, Formats d
      (directoryCapacityGeometry d.size journalBlocks entryCapacity
        maxNameBytes)
      (formatDeviceForDirectoryCapacity journalBlocks entryCapacity
        maxNameBytes) := by
  constructor
  · intro inodeCapacity
    apply Formats.bind
    intro _
    apply Formats.bind
    intro inodeBlocks
    exact formatDeviceWithMetadataBlocks_formats hbytes _ _ _
  · intro entryCapacity maxNameBytes
    apply Formats.bind
    intro _
    apply Formats.bind
    intro _
    apply Formats.bind
    intro recordBytes
    apply Formats.bind
    intro directoryBlocks
    exact formatDeviceWithMetadataBlocks_formats hbytes _ _ _

end Runs

/-! ## Tables that take every list -/

section Takes

variable {ρ κ : Type} [DecidableEq κ] (F : TableFormat ρ κ) (sb : Superblock)
  (start blocks : Nat)

/-- A table takes every list of at most `capacity` records of a kind whose keys
are distinct, on every device of the geometry. -/
def TableFormat.Takes (kind : ρ → Prop) (capacity : Nat) : Prop :=
  ∀ (d : Disk) (rs : List ρ), d.size = sb.totalBlocks →
    rs.length ≤ capacity → (∀ r ∈ rs, kind r) → (rs.map F.key).Nodup →
      ∃ d', F.store sb start blocks rs d = (.ok (), d')

variable {F sb start blocks} {normal : ρ → ρ} {kind : ρ → Prop}
  {capacity recordBytes : Nat}

/-- A region that is large enough takes every list below `2 ^ 32`. -/
theorem TableFormat.takes_of_lt (law : F.Lawful normal)
    (hencode : ∀ r, kind r →
      ∃ bytes, F.encode r = .ok bytes ∧ bytes.length ≤ recordBytes)
    (hregion : blocks ≠ 0 ∧ start + blocks ≤ sb.totalBlocks)
    (hfit : 32 + capacity * recordBytes ≤ blocks * BLOCK_SIZE)
    (hlt : blocks * BLOCK_SIZE < U64_LIMIT) (hcapacity : capacity < 2 ^ 32) :
    F.Takes sb start blocks kind capacity := by
  intro d rs hsize hlen hkind hnodup
  have hbytes : (rs.map fun _ => recordBytes).sum ≤ capacity * recordBytes := by
    rw [List.map_const', List.sum_replicate_nat]
    exact Nat.mul_le_mul_right recordBytes hlen
  have himage : ∃ image, F.encodeImage blocks rs = .ok image :=
    exists_encodeImage (fun r hr => hencode r (hkind r hr)) hnodup (by omega)
      hlt (by omega)
  obtain ⟨image, himage⟩ := himage
  exact ⟨_, (store_eq_ok law).mpr
    ⟨hsize.symm, hregion.1, hregion.2, image, himage, rfl⟩⟩

/-- No region takes every list of `2 ^ 32` records, if there is one. -/
theorem TableFormat.lt_of_takes (law : F.Lawful normal) (record : Nat → ρ)
    (hkind : ∀ i < 2 ^ 32, kind (record i))
    (hkey : ∀ i < 2 ^ 32, ∀ j < 2 ^ 32,
      F.key (record i) = F.key (record j) → i = j)
    (h : F.Takes sb start blocks kind capacity) : capacity < 2 ^ 32 := by
  by_contra hge
  have hlen : ((List.range (2 ^ 32)).map record).length = 2 ^ 32 := by
    rw [List.length_map, List.length_range]
  have hkinds : ∀ r ∈ (List.range (2 ^ 32)).map record, kind r := by
    intro r hr
    obtain ⟨i, hi, rfl⟩ := List.mem_map.mp hr
    exact hkind i (List.mem_range.mp hi)
  have hnodup : (((List.range (2 ^ 32)).map record).map F.key).Nodup := by
    rw [List.map_map]
    refine List.Nodup.map_on ?_ List.nodup_range
    intro i hi j hj heq
    exact hkey i (List.mem_range.mp hi) j (List.mem_range.mp hj) heq
  obtain ⟨d', hstore⟩ := h (Disk.boot sb.totalBlocks fun _ => Block.zero) _ rfl
    (by omega) hkinds hnodup
  obtain ⟨_, _, _, image, himage, _⟩ := (store_eq_ok law).mp hstore
  obtain ⟨_, _, _, _, hcount, _⟩ := encodeImage_eq_ok.mp himage
  omega

end Takes

/-! ## The promises -/

/-- The inode table takes every list of at most `capacity` valid inodes without
blocks. -/
def HoldsInodes (sb : Superblock) (capacity : Nat) : Prop :=
  ∀ (d : Disk) (inodes : List PersistedInode), d.size = sb.totalBlocks →
    inodes.length ≤ capacity →
    (∀ inode ∈ inodes, inode.validateForPersistence = .ok () ∧
      inode.blocks = []) →
    (inodes.map PersistedInode.id).Nodup →
      ∃ d', storeInodeTable sb inodes d = (.ok (), d')

/-- The directory table takes every list of at most `capacity` valid entries
with names of at most `maxNameBytes` bytes. -/
def HoldsEntries (sb : Superblock) (capacity maxNameBytes : Nat) : Prop :=
  ∀ (d : Disk) (entries : List PersistedDirectoryEntry),
    d.size = sb.totalBlocks → entries.length ≤ capacity →
    (∀ entry ∈ entries, entry.Valid ∧
      (nameBytes entry.name).length ≤ maxNameBytes) →
    (entries.map fun entry => (entry.parent, entry.name)).Nodup →
      ∃ d', storeDirectoryTable sb entries d = (.ok (), d')

/-- File `i + 1`, without blocks. -/
def numberedFile (i : Nat) : PersistedInode :=
  ⟨UInt64.ofNat (i + 1), .file, [], 0⟩

/-- The entry `a` in directory `i + 1`. -/
def numberedEntry (i : Nat) : PersistedDirectoryEntry :=
  ⟨UInt64.ofNat (i + 1), 1, "a"⟩

theorem toNat_ofNat_succ {i : Nat} (h : i < 2 ^ 32) :
    (UInt64.ofNat (i + 1)).toNat = i + 1 :=
  UInt64.toNat_ofNat_of_lt' (show i + 1 < U64_LIMIT by
    unfold U64_LIMIT
    omega)

theorem ofNat_succ_ne_zero {i : Nat} (h : i < 2 ^ 32) :
    UInt64.ofNat (i + 1) ≠ 0 := by
  intro hzero
  have hnat := congrArg UInt64.toNat hzero
  rw [toNat_ofNat_succ h] at hnat
  cases hnat

theorem ofNat_succ_inj {i j : Nat} (hi : i < 2 ^ 32) (hj : j < 2 ^ 32)
    (h : UInt64.ofNat (i + 1) = UInt64.ofNat (j + 1)) : i = j := by
  have hnat := congrArg UInt64.toNat h
  rw [toNat_ofNat_succ hi, toNat_ofNat_succ hj] at hnat
  omega

theorem validate_numberedFile {i : Nat} (h : i < 2 ^ 32) :
    (numberedFile i).validateForPersistence = .ok () := by
  have hid : (numberedFile i).id ≠ 0 := ofNat_succ_ne_zero h
  have hfields : validateInodeFields (numberedFile i).id .file [] 0 true =
      .ok 0 := by
    rw [validateInodeFields, rejectIf_of_not hid]
    rfl
  exact Except.map_eq_ok.mpr ⟨0, liftMessage_eq_ok.mpr hfields, rfl⟩

/-- An inode table of the planned size holds its capacity below `2 ^ 32`. -/
theorem holdsInodes_iff {sb : Superblock} {capacity : Nat}
    (hfit : 32 + capacity * 40 ≤ sb.inodeBlocks * BLOCK_SIZE)
    (hlt : sb.inodeBlocks * BLOCK_SIZE < U64_LIMIT) :
    HoldsInodes sb capacity ↔ capacity < 2 ^ 32 := by
  have hlayout := sb.layout
  constructor
  · intro h
    refine TableFormat.lt_of_takes inodeFormat_lawful numberedFile ?_ ?_ h
    · exact fun i hi => ⟨validate_numberedFile hi, rfl⟩
    · exact fun i hi j hj heq => ofNat_succ_inj hi hj heq
  · intro hcapacity
    refine TableFormat.takes_of_lt inodeFormat_lawful ?_
      ⟨by omega, by omega⟩ hfit hlt hcapacity
    intro inode hkind
    obtain ⟨hvalid, hnil⟩ := hkind
    obtain ⟨byteLen, hlen, _⟩ := Except.map_eq_ok.mp hvalid
    refine ⟨_, encodeInode_eq_ok.mpr ⟨byteLen, hlen, ?_, rfl⟩, ?_⟩
    · rw [hnil]
      decide
    · simp [hnil]

/-- A directory table of the planned size holds its capacity below
`2 ^ 32`. -/
theorem holdsEntries_iff {sb : Superblock} {capacity maxNameBytes : Nat}
    (hname : maxNameBytes ≠ 0)
    (hfit : 32 + capacity * (40 + maxNameBytes) ≤
      sb.directoryBlocks * BLOCK_SIZE)
    (hlt : sb.directoryBlocks * BLOCK_SIZE < U64_LIMIT) :
    HoldsEntries sb capacity maxNameBytes ↔ capacity < 2 ^ 32 := by
  have hlayout := sb.layout
  constructor
  · intro h
    refine TableFormat.lt_of_takes directoryFormat_lawful numberedEntry ?_ ?_ h
    · intro i hi
      have htarget : (1 : UInt64) ≠ 0 := by decide
      have hvalid : ¬ InvalidName "a" := by decide
      refine ⟨⟨ofNat_succ_ne_zero hi, htarget, hvalid⟩, ?_⟩
      show 1 ≤ maxNameBytes
      omega
    · intro i hi j hj heq
      exact ofNat_succ_inj hi hj (Prod.mk.inj heq).1
  · intro hcapacity
    refine TableFormat.takes_of_lt directoryFormat_lawful ?_
      ⟨by omega, by omega⟩ hfit hlt hcapacity
    intro entry hkind
    obtain ⟨hvalid, hlen⟩ := hkind
    refine ⟨_, encodeDirectoryEntry_eq_ok.mpr ⟨hvalid, rfl⟩, ?_⟩
    simp
    omega

/-- A capacity formatter keeps its promise exactly if the capacity fits the
record count of a table. -/
theorem capacityFormatters_iff (d : Disk) (journalBlocks : Nat) :
    (∀ inodeCapacity sb d',
      formatDeviceForBlocklessInodeCapacity journalBlocks inodeCapacity d =
        (.ok sb, d') →
      (HoldsInodes sb inodeCapacity ↔ inodeCapacity < 2 ^ 32)) ∧
    ∀ entryCapacity maxNameBytes sb d',
      formatDeviceForDirectoryCapacity journalBlocks entryCapacity maxNameBytes
        d = (.ok sb, d') →
      (HoldsEntries sb entryCapacity maxNameBytes ↔
        entryCapacity < 2 ^ 32) := by
  constructor
  · intro inodeCapacity sb d' h
    obtain ⟨hfit, hlt⟩ := tableBlocks_eq_ok (inodeBlocks_of_format h)
    exact holdsInodes_iff hfit hlt
  · intro entryCapacity maxNameBytes sb d' h
    obtain ⟨hname, hplan⟩ := directoryBlocks_of_format h
    obtain ⟨hfit, hlt⟩ := tableBlocks_eq_ok hplan
    exact holdsEntries_iff hname.1 hfit hlt

/-- A device of sixteen blocks is formatted for three inodes, and for three
entries with names of at most ten bytes. -/
theorem capacityFormatters_iff_sample :
    (∃ sb d', formatDeviceForBlocklessInodeCapacity 3 3
        (Disk.boot 16 fun _ => Block.zero) = (.ok sb, d') ∧
      HoldsInodes sb 3) ∧
    ∃ sb d', formatDeviceForDirectoryCapacity 3 3 10
        (Disk.boot 16 fun _ => Block.zero) = (.ok sb, d') ∧
      HoldsEntries sb 3 10 := by
  have hformats := @capacityFormatters_formats
    (Disk.boot 16 fun _ => Block.zero) (by decide) 3
  have hpromises := capacityFormatters_iff (Disk.boot 16 fun _ => Block.zero) 3
  have hinodes : ∃ sb, inodeCapacityGeometry 16 3 3 = .ok sb := ⟨_, rfl⟩
  have hentries : ∃ sb, directoryCapacityGeometry 16 3 3 10 = .ok sb :=
    ⟨_, rfl⟩
  constructor
  · obtain ⟨sb, hgeometry⟩ := hinodes
    obtain ⟨d', hrun, _⟩ := (hformats.1 3).accepted sb hgeometry
    exact ⟨sb, d', hrun, (hpromises.1 3 sb d' hrun).mpr (by decide)⟩
  · obtain ⟨sb, hgeometry⟩ := hentries
    obtain ⟨d', hrun, _⟩ := (hformats.2 3 10).accepted sb hgeometry
    exact ⟨sb, d', hrun, (hpromises.2 3 10 sb d' hrun).mpr (by decide)⟩

/-- The geometry of a request for `2 ^ 32` inodes on `2 ^ 26` blocks. -/
def crowdedSuperblock : Superblock :=
  .ofSizes (2 ^ 26) 1 2049 41943041 2 ⟨rfl, by decide⟩

/-- A device of `2 ^ 26` blocks is formatted for `2 ^ 32` inodes, and its inode
table does not hold them. -/
theorem inodeCapacity_breaks :
    ∃ d', formatDeviceForBlocklessInodeCapacity 1 (2 ^ 32)
        (Disk.boot (2 ^ 26) fun _ => Block.zero) = (.ok crowdedSuperblock, d') ∧
      ¬ HoldsInodes crowdedSuperblock (2 ^ 32) := by
  have hbytes : (Disk.boot (2 ^ 26) fun _ => Block.zero).size * BLOCK_SIZE <
      U64_LIMIT := by decide
  have hgeometry : inodeCapacityGeometry (2 ^ 26) 1 (2 ^ 32) =
      .ok crowdedSuperblock := rfl
  obtain ⟨d', hrun, _⟩ := ((capacityFormatters_formats hbytes 1).1
    (2 ^ 32)).accepted crowdedSuperblock hgeometry
  refine ⟨d', hrun, ?_⟩
  rw [holdsInodes_iff (by decide) (by decide)]
  decide

end FilesystemLab
