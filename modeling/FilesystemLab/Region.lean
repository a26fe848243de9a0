import FilesystemLab.Format

/-!
# Metadata regions

The reading and writing of a reserved region as one image, which
`src/allocation_disk.rs`, `src/inode_table.rs` and `src/directory_table.rs`
each spell out for their own reservation.  The tail blocks are written before
the first block, which bears the header.
-/

namespace FilesystemLab

open Bytes WriteLog

/-- `region_len`. -/
def regionLen (blocks : Nat) (overflow : String) : Result Nat :=
  okOr (checkedMul blocks BLOCK_SIZE) (invalidInput overflow)

/-- `read_region`. -/
def readRegion {σ : Type} [BlockDevice σ] (device : σ) (start blocks : Nat)
    (overflow : String) : Result (List UInt8) := do
  let _ ← regionLen blocks overflow
  readImage device start blocks

/-- The writes of `write_region`, in order. -/
def regionWrites (start blocks : Nat) (image : List UInt8) :
    List (Nat × Block) :=
  ((List.range' 1 (blocks - 1)).reverse ++ if blocks = 0 then [] else [0]).map
    fun index => (start + index, Block.ofImage image index)

/-- `write_region`. -/
def writeRegion {σ : Type} [BlockDevice σ] (start blocks : Nat)
    (overflow mismatch : String) (image : List UInt8) : DevM σ Unit := do
  let len ← regionLen blocks overflow
  rejectIf (image.length ≠ len) (invalidInput mismatch)
  writeBlocks (regionWrites start blocks image)

theorem regionLen_eq_ok {blocks len : Nat} {overflow : String} :
    regionLen blocks overflow = .ok len ↔
      blocks * BLOCK_SIZE < U64_LIMIT ∧ blocks * BLOCK_SIZE = len := by
  rw [regionLen, okOr_eq_ok, checkedMul_eq_some]

theorem mem_regionWrites {start blocks : Nat} {image : List UInt8}
    {w : Nat × Block} :
    w ∈ regionWrites start blocks image ↔
      ∃ i, i < blocks ∧ w = (start + i, Block.ofImage image i) := by
  simp only [regionWrites, List.mem_map, List.mem_append, List.mem_reverse,
    List.mem_range'_1]
  constructor
  · intro hfacts
    rcases hfacts with ⟨i, hi, rfl⟩
    refine ⟨i, ?_, rfl⟩
    rcases hi with hi | hi
    · omega
    · split at hi
      · simp at hi
      · simp only [List.mem_singleton] at hi
        omega
  · intro hfacts
    rcases hfacts with ⟨i, hi, rfl⟩
    refine ⟨i, ?_, rfl⟩
    by_cases hzero : i = 0
    · right
      rw [if_neg (by omega)]
      simpa using hzero
    · left
      omega

theorem nodup_regionWrites (start blocks : Nat) (image : List UInt8) :
    ((regionWrites start blocks image).map Prod.fst).Nodup := by
  have hindices : ((List.range' 1 (blocks - 1)).reverse ++
      if blocks = 0 then [] else [0]).Nodup := by
    rw [List.nodup_append]
    refine ⟨List.nodup_reverse.mpr List.nodup_range', ?_, ?_⟩
    · split <;> simp
    · intro i hi j hj
      rw [List.mem_reverse, List.mem_range'_1] at hi
      split at hj
      · simp at hj
      · rw [List.mem_singleton.mp hj]
        omega
  simp only [regionWrites, List.map_map]
  refine (List.nodup_map_iff_inj_on hindices).mpr ?_
  intro i _ j _ hij
  simp only [Function.comp] at hij
  omega

/-- The region of a device, read as one image. -/
theorem readRegion_eq_ok {σ : Type} [BlockDevice σ] {device : σ}
    {start blocks : Nat} {overflow : String} {image : List UInt8} :
    readRegion device start blocks overflow = .ok image ↔
      blocks * BLOCK_SIZE < U64_LIMIT ∧
        readImage device start blocks = .ok image := by
  simp only [readRegion, Except.bind_eq_ok, regionLen_eq_ok]
  constructor
  · intro hfacts
    rcases hfacts with ⟨_, ⟨hlt, _⟩, himage⟩
    exact ⟨hlt, himage⟩
  · intro hfacts
    rcases hfacts with ⟨hlt, himage⟩
    exact ⟨_, ⟨hlt, rfl⟩, himage⟩

theorem readRegion_congr {σ τ : Type} [BlockDevice σ] [BlockDevice τ]
    {device : σ} {other : τ} {start blocks : Nat} {overflow : String}
    (h : ∀ b, start ≤ b → b < start + blocks →
      readBlock device b = readBlock other b) :
    readRegion device start blocks overflow =
      readRegion other start blocks overflow := by
  unfold readRegion
  rw [readImage_congr h]

/-! ## The header of an image -/

/-- The header of an image up to its last word: a magic, a version, cleared
flags, the length of the payload, and a word that the formats use
differently. -/
def regionFront (magic : List UInt8) (version length a : Nat) : List UInt8 :=
  magic ++ leBytes 4 version ++ leBytes 4 0 ++ leBytes 8 length ++ leBytes 4 a

/-- The thirty-two bytes in front of the allocation image and of both
tables. -/
def regionHeader (magic : List UInt8) (version length a b : Nat) :
    List UInt8 :=
  regionFront magic version length a ++ leBytes 4 b

theorem length_regionFront {magic : List UInt8} (h : magic.length = 8)
    (version length a : Nat) :
    (regionFront magic version length a).length = 28 := by
  simp [regionFront, h]

theorem length_regionHeader {magic : List UInt8} (h : magic.length = 8)
    (version length a b : Nat) :
    (regionHeader magic version length a b).length = 32 := by
  simp [regionHeader, length_regionFront h]

/-- The fields of a header, as a decoder reads them. -/
theorem regionHeader_reads (magic : List UInt8) (version length a b : Nat)
    (hmagic : magic.length = 8) (hversion : version < 2 ^ 32)
    (hlength : length < U64_LIMIT) (ha : a < 2 ^ 32) (hb : b < 2 ^ 32)
    (rest : List UInt8) :
    let image := regionHeader magic version length a b ++ rest
    slice image 0 8 = magic ∧ readLe image 8 4 = version ∧
      readLe image 12 4 = 0 ∧ readLe image 16 8 = length ∧
      readLe image 24 4 = a ∧ readLe image 28 4 = b := by
  have h4 : ofLeBytes (leBytes 4 version) = version :=
    ofLeBytes_leBytes 4 _ (by simpa using hversion)
  have h0 : ofLeBytes (leBytes 4 0) = 0 := ofLeBytes_leBytes 4 _ (by decide)
  have h8 : ofLeBytes (leBytes 8 length) = length :=
    ofLeBytes_leBytes 8 _ (by simpa [U64_LIMIT] using hlength)
  have h4a : ofLeBytes (leBytes 4 a) = a :=
    ofLeBytes_leBytes 4 _ (by simpa using ha)
  have h4b : ofLeBytes (leBytes 4 b) = b :=
    ofLeBytes_leBytes 4 _ (by simpa using hb)
  refine ⟨?_, ?_, ?_, ?_, ?_, ?_⟩
  · simp [regionHeader, regionFront, hmagic]
  · simp [regionHeader, regionFront, readLe, hmagic, h4]
  · simp [regionHeader, regionFront, readLe, hmagic, h0]
  · simp [regionHeader, regionFront, readLe, hmagic, h8]
  · simp [regionHeader, regionFront, readLe, hmagic, h4a]
  · simp [regionHeader, regionFront, readLe, hmagic, h4b]

/-- The header of an image that a decoder accepts. -/
theorem take_eq_regionHeader {image magic : List UInt8} {version : Nat}
    (hlen : 32 ≤ image.length) (hmagic : slice image 0 8 = magic)
    (hversion : readLe image 8 4 = version) (hflags : readLe image 12 4 = 0) :
    image.take 32 = regionHeader magic version (readLe image 16 8)
      (readLe image 24 4) (readLe image 28 4) := by
  have hzero : leBytes 4 0 = slice image 12 (12 + 4) := by
    rw [slice_eq_leBytes image 12 4 (by omega), hflags]
  unfold regionHeader regionFront
  rw [hzero, ← hmagic, ← hversion, ← slice_eq_leBytes image 8 4 (by omega),
    ← slice_eq_leBytes image 16 8 (by omega),
    ← slice_eq_leBytes image 24 4 (by omega),
    ← slice_eq_leBytes image 28 4 (by omega)]
  simp only [slice_append_slice, Nat.zero_le, Nat.reduceLeDiff, Nat.reduceAdd]
  rfl

end FilesystemLab
