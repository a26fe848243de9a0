import FilesystemLab.Format

/-!
# What the superblock decoder accepts

`Superblock::with_all_metadata_blocks` and `Superblock::decode` of
`src/format.rs` repeat one chain of checks.  Here the two chains are shown to
accept the same geometry:

* `withAllMetadataBlocks_eq_ok`: the constructor gives the superblock of its
  four sizes, if there is one;
* `encode_of_decode`: a block that is decoded is the encoded superblock;
* `superblock_exact`: the two together, and the geometry of what is accepted.
-/

namespace FilesystemLab

open Bytes

namespace Superblock

/-! ## The constructor -/

/-- A superblock is determined by its sizes. -/
theorem ext_sizes {s t : Superblock} (htotal : s.totalBlocks = t.totalBlocks)
    (hjournal : s.journalBlocks = t.journalBlocks)
    (hinode : s.inodeBlocks = t.inodeBlocks)
    (hdirectory : s.directoryBlocks = t.directoryBlocks) : s = t := by
  have hs := s.layout
  have ht := t.layout
  have hblocks : s.allocationBlocks = t.allocationBlocks := by
    have h := s.allocationBlocks_eq
    rw [htotal, t.allocationBlocks_eq, Except.ok.injEq] at h
    exact h.symm
  have h1 : s.journalStart = t.journalStart := by omega
  have h2 : s.allocationStart = t.allocationStart := by omega
  have h3 : s.inodeStart = t.inodeStart := by omega
  have h4 : s.directoryStart = t.directoryStart := by omega
  cases s
  cases t
  simp only at htotal hjournal hinode hdirectory hblocks h1 h2 h3 h4
  subst htotal hjournal hinode hdirectory hblocks h1 h2 h3 h4
  rfl

/-- The sizes of a superblock are accepted. -/
theorem exists_withAllMetadataBlocks (sb : Superblock) :
    ∃ s, withAllMetadataBlocks sb.totalBlocks sb.journalBlocks sb.inodeBlocks
      sb.directoryBlocks = .ok s := by
  have hlayout := sb.layout
  have hend := sb.metadataEnd_le
  have hstart : SUPERBLOCK_BLOCK + 1 = 1 := rfl
  have hadd : ∀ a b, a + b < U64_LIMIT → checkedAdd a b = some (a + b) := by
    intro a b h
    rw [checkedAdd_eq_some]
    exact ⟨h, rfl⟩
  unfold withAllMetadataBlocks
  rw [dif_neg sb.journalBlocks_ne, dif_neg sb.inodeBlocks_ne,
    dif_neg sb.directoryBlocks_ne]
  dsimp only
  rw [hadd _ _ (by omega)]
  dsimp only
  split
  · rename_i e he
    rw [sb.allocationBlocks_eq] at he
    cases he
  · rename_i blocks hblocks
    rw [sb.allocationBlocks_eq, Except.ok.injEq] at hblocks
    subst hblocks
    rw [hadd _ _ (by omega)]
    dsimp only
    rw [hadd _ _ (by omega)]
    dsimp only
    rw [hadd _ _ (by omega)]
    dsimp only
    rw [dif_neg (by omega)]
    exact ⟨_, rfl⟩

/-- What the constructor gives has the sizes it was given. -/
theorem sizes_of_withAllMetadataBlocks {t j i d : Nat} {sb : Superblock}
    (h : withAllMetadataBlocks t j i d = .ok sb) :
    sb.totalBlocks = t ∧ sb.journalBlocks = j ∧ sb.inodeBlocks = i ∧
      sb.directoryBlocks = d := by
  unfold withAllMetadataBlocks at h
  obtain ⟨_, h⟩ := Except.dite_eq_ok.mp h
  obtain ⟨_, h⟩ := Except.dite_eq_ok.mp h
  obtain ⟨_, h⟩ := Except.dite_eq_ok.mp h
  dsimp only at h
  -- one branch for each range, of which only the last succeeds
  split at h
  · cases h
  split at h
  · cases h
  split at h
  · cases h
  split at h
  · cases h
  split at h
  · cases h
  obtain ⟨_, h⟩ := Except.dite_eq_ok.mp h
  cases h
  exact ⟨rfl, rfl, rfl, rfl⟩

/-- The constructor gives the superblock of its sizes, if there is one. -/
theorem withAllMetadataBlocks_eq_ok {t j i d : Nat} {sb : Superblock} :
    withAllMetadataBlocks t j i d = .ok sb ↔
      sb.totalBlocks = t ∧ sb.journalBlocks = j ∧ sb.inodeBlocks = i ∧
        sb.directoryBlocks = d := by
  constructor
  · exact sizes_of_withAllMetadataBlocks
  · intro hfacts
    rcases hfacts with ⟨rfl, rfl, rfl, rfl⟩
    obtain ⟨s, hs⟩ := exists_withAllMetadataBlocks sb
    obtain ⟨h1, h2, h3, h4⟩ := sizes_of_withAllMetadataBlocks hs
    rw [hs, ext_sizes h1 h2 h3 h4]

/-! ## The decoder -/

/-- The checks that a decoded block has passed, as far as the image depends on
them. -/
theorem reads_of_decode {b : Block} {sb : Superblock} (h : decode b = .ok sb) :
    slice b.bytes 0 8 = SUPERBLOCK_MAGIC ∧
      readLe b.bytes 8 4 = FORMAT_VERSION ∧
      readLe b.bytes 12 4 = FORMAT_BLOCK_SIZE ∧
      readLe b.bytes 16 8 = sb.totalBlocks ∧
      readLe b.bytes 24 8 = sb.journalStart ∧
      readLe b.bytes 32 8 = sb.journalBlocks ∧
      readLe b.bytes 40 8 = sb.allocationStart ∧
      readLe b.bytes 48 8 = sb.allocationBlocks ∧
      readLe b.bytes 56 8 = sb.inodeStart ∧
      readLe b.bytes 64 8 = sb.inodeBlocks ∧
      readLe b.bytes 72 8 = sb.directoryStart ∧
      readLe b.bytes 80 8 = sb.directoryBlocks ∧
      allZero (b.bytes.drop 88) = true := by
  simp only [decode, Except.bind_eq_ok, rejectIf_eq_ok, not_ne_iff, not_or] at h
  obtain ⟨_, hmagic, _, hversion, _, ⟨hsize, _⟩, h⟩ := h
  obtain ⟨_, h⟩ := Except.dite_eq_ok.mp h
  obtain ⟨_, h⟩ := Except.dite_eq_ok.mp h
  obtain ⟨_, h⟩ := Except.dite_eq_ok.mp h
  obtain ⟨_, _, h⟩ := Except.bind_eq_ok.mp h
  obtain ⟨_, h⟩ := Except.dite_eq_ok.mp h
  split at h
  · cases h
  obtain ⟨_, h⟩ := Except.dite_eq_ok.mp h
  obtain ⟨_, _, h⟩ := Except.bind_eq_ok.mp h
  obtain ⟨_, h⟩ := Except.dite_eq_ok.mp h
  obtain ⟨_, _, h⟩ := Except.bind_eq_ok.mp h
  obtain ⟨_, h⟩ := Except.dite_eq_ok.mp h
  obtain ⟨_, _, h⟩ := Except.bind_eq_ok.mp h
  obtain ⟨_, h⟩ := Except.dite_eq_ok.mp h
  simp only [Except.bind_eq_ok, rejectIf_eq_ok, Bool.not_eq_false,
    Except.pure_eq_ok, Except.ok.injEq] at h
  obtain ⟨_, hpadding, rfl⟩ := h
  exact ⟨hmagic, hversion, hsize, rfl, rfl, rfl, rfl, rfl, rfl, rfl, rfl, rfl,
    hpadding⟩

/-- A block that is decoded is the image of its superblock. -/
theorem encode_of_decode {b : Block} {sb : Superblock}
    (h : decode b = .ok sb) : b = sb.encode := by
  obtain ⟨h1, h2, h3, h4, h5, h6, h7, h8, h9, h10, h11, h12, hpadding⟩ :=
    reads_of_decode h
  have hb := blockSize_eq
  have hlen := b.length_eq
  have hheader : b.bytes.take 88 = sb.header := by
    unfold header
    rw [← h1, ← h2, ← h3, ← h4, ← h5, ← h6, ← h7, ← h8, ← h9, ← h10, ← h11,
      ← h12, ← slice_eq_leBytes b.bytes 8 4 (by omega),
      ← slice_eq_leBytes b.bytes 12 4 (by omega),
      ← slice_eq_leBytes b.bytes 16 8 (by omega),
      ← slice_eq_leBytes b.bytes 24 8 (by omega),
      ← slice_eq_leBytes b.bytes 32 8 (by omega),
      ← slice_eq_leBytes b.bytes 40 8 (by omega),
      ← slice_eq_leBytes b.bytes 48 8 (by omega),
      ← slice_eq_leBytes b.bytes 56 8 (by omega),
      ← slice_eq_leBytes b.bytes 64 8 (by omega),
      ← slice_eq_leBytes b.bytes 72 8 (by omega),
      ← slice_eq_leBytes b.bytes 80 8 (by omega)]
    simp only [slice_append_slice, Nat.zero_le, Nat.reduceLeDiff,
      Nat.reduceAdd]
    rfl
  have hrest := eq_zeros_of_allZero hpadding
  rw [List.length_drop, hlen] at hrest
  apply Block.ext
  unfold encode
  rw [Block.bytes_ofBytes_of_le (by rw [length_header]; omega), length_header,
    ← hheader, ← hrest, List.take_append_drop]

/-! ## The geometry of what is accepted -/

/-- The superblock and the four reservations tile the metadata prefix, and the
allocation image has as many blocks as it needs. -/
structure Tiled (sb : Superblock) : Prop where
  no_overflow : sb.journalStart + sb.journalBlocks < U64_LIMIT ∧
    sb.allocationStart + sb.allocationBlocks < U64_LIMIT ∧
    sb.inodeStart + sb.inodeBlocks < U64_LIMIT ∧
    sb.directoryStart + sb.directoryBlocks < U64_LIMIT
  nonempty : 0 < sb.journalBlocks ∧ 0 < sb.allocationBlocks ∧
    0 < sb.inodeBlocks ∧ 0 < sb.directoryBlocks
  contiguous : sb.journalStart = SUPERBLOCK_BLOCK + 1 ∧
    sb.allocationStart = sb.journalStart + sb.journalBlocks ∧
    sb.inodeStart = sb.allocationStart + sb.allocationBlocks ∧
    sb.directoryStart = sb.inodeStart + sb.inodeBlocks ∧
    sb.reservedBlocks = sb.directoryStart + sb.directoryBlocks
  cover : ∀ block, block < sb.reservedBlocks ↔
    block = SUPERBLOCK_BLOCK ∨ sb.journalRange block ∨
      sb.allocationRange block ∨ sb.inodeRange block ∨ sb.directoryRange block
  disjoint : [(· = SUPERBLOCK_BLOCK), sb.journalRange, sb.allocationRange,
    sb.inodeRange, sb.directoryRange].Pairwise fun r s => ∀ b, r b → ¬ s b
  reserved_le : sb.reservedBlocks ≤ sb.totalBlocks
  /-- One bit for each block behind the header, with less than one block to
  spare. -/
  bits : 8 * ALLOCATION_IMAGE_HEADER_LEN + sb.totalBlocks ≤
      8 * (sb.allocationBlocks * BLOCK_SIZE) ∧
    8 * (sb.allocationBlocks * BLOCK_SIZE) <
      8 * ALLOCATION_IMAGE_HEADER_LEN + sb.totalBlocks + 8 * BLOCK_SIZE

/-- The size of the allocation reservation. -/
theorem allocationBlocks_eq_div (sb : Superblock) :
    sb.allocationBlocks =
      (32 + (sb.totalBlocks + 7) / 8 + 4095) / BLOCK_SIZE := by
  have h := sb.allocationBlocks_eq
  simp only [requiredAllocationBlocks, allocationBitmapBytes,
    Except.bind_eq_ok, okOr_eq_ok, checkedAdd_eq_some,
    Option.map_eq_some_iff] at h
  obtain ⟨_, ⟨_, ⟨_, rfl⟩, rfl⟩, _, ⟨_, rfl⟩, _, ⟨_, rfl⟩, hblocks⟩ := h
  exact hblocks.symm

theorem tiled (sb : Superblock) : sb.Tiled := by
  have hlayout := sb.layout
  have hblocks := sb.allocationBlocks_eq_div
  have hb := blockSize_eq
  have hzero : SUPERBLOCK_BLOCK = 0 := rfl
  have hheader : ALLOCATION_IMAGE_HEADER_LEN = 32 := rfl
  rw [hb] at hblocks
  constructor
  case no_overflow => omega
  case nonempty => omega
  case contiguous => omega
  case cover =>
    intro block
    unfold journalRange allocationRange inodeRange directoryRange
    omega
  case disjoint =>
    simp only [List.pairwise_cons, List.forall_mem_cons, List.not_mem_nil,
      IsEmpty.forall_iff, implies_true, and_true, List.Pairwise.nil,
      journalRange, allocationRange, inodeRange, directoryRange]
    refine ⟨⟨?_, ?_, ?_, ?_⟩, ⟨?_, ?_, ?_⟩, ⟨?_, ?_⟩, ?_⟩ <;>
      (intro b; omega)
  case reserved_le => omega
  case bits =>
    rw [hb]
    omega

/-- The decoder accepts exactly the images of what the constructor gives, and
the geometry of that is sound. -/
theorem superblock_exact :
    (∀ (b : Block) (sb : Superblock), decode b = .ok sb ↔
      (∃ t j i d : UInt64, withAllMetadataBlocks t.toNat j.toNat i.toNat
        d.toNat = .ok sb) ∧ b = sb.encode) ∧
    ∀ (t j i d : UInt64) (sb : Superblock),
      withAllMetadataBlocks t.toNat j.toNat i.toNat d.toNat = .ok sb →
        sb.Tiled := by
  constructor
  · intro b sb
    constructor
    · intro h
      have hlayout := sb.layout
      have hword : ∀ n, n < U64_LIMIT → (UInt64.ofNat n).toNat = n := by
        intro n hn
        rw [UInt64.toNat_ofNat']
        exact Nat.mod_eq_of_lt hn
      refine ⟨⟨.ofNat sb.totalBlocks, .ofNat sb.journalBlocks,
        .ofNat sb.inodeBlocks, .ofNat sb.directoryBlocks, ?_⟩,
        encode_of_decode h⟩
      rw [withAllMetadataBlocks_eq_ok, hword _ (by omega), hword _ (by omega),
        hword _ (by omega), hword _ (by omega)]
      exact ⟨rfl, rfl, rfl, rfl⟩
    · intro hfacts
      rcases hfacts with ⟨_, rfl⟩
      exact decode_encode sb
  · intro _ _ _ _ sb _
    exact sb.tiled

end Superblock

end FilesystemLab
