import FilesystemLab.JournalRegion

/-!
# The journal that a device holds

`journalOf sb f` is the stream that contents `f` hold in the reservation of
`sb`.  The loader reads nothing else (`loadJournalImage_eq`), so statements
about crashed or rebooted devices are statements about contents.

The lemmas say what each format makes the loader return and which blocks it
looks at: only the first block behind an empty anchor, the first block and one
bank behind a version-3 anchor, and the whole reservation otherwise.
-/

namespace FilesystemLab

open Bytes JournalCodec WriteLog

/-- The stream that the contents `f` hold. -/
def journalOf (sb : Superblock) (f : Nat → Block) :
    Result (List JournalEntry) :=
  loadJournalImage (Disk.boot sb.totalBlocks f) sb

/-! ## Which blocks the loader reads -/

section Congr

variable {σ τ : Type} [BlockDevice σ] [BlockDevice τ]

theorem validateRegion_eq (device : σ) (sb : Superblock) :
    validateRegion device sb =
      rejectIf (sb.totalBlocks ≠ blockCount device)
        (invalidInput
          "superblock block count does not match journal device") := by
  have h := sb.layout
  have hreserved : ¬ (sb.journalStart ≠ SUPERBLOCK_BLOCK + 1 ∨
      sb.journalBlocks = 0) := by
    simp only [SUPERBLOCK_BLOCK]
    omega
  have hadd : checkedAdd sb.journalStart sb.journalBlocks =
      some (sb.journalStart + sb.journalBlocks) := by
    rw [checkedAdd_eq_some]
    omega
  have hend : ¬ (sb.journalStart + sb.journalBlocks > sb.totalBlocks) := by
    omega
  rw [validateRegion, rejectIf_of_not hreserved, hadd, okOr_some]
  simp only [Except.ok_bind]
  rw [rejectIf_of_not hend]
  cases rejectIf (sb.totalBlocks ≠ blockCount device)
    (invalidInput "superblock block count does not match journal device") with
  | error e => rfl
  | ok u => rfl

theorem validateRegion_of_size {device : σ} {sb : Superblock}
    (h : sb.totalBlocks = blockCount device) :
    validateRegion device sb = .ok () := by
  rw [validateRegion_eq, rejectIf_of_not (not_not.mpr h)]

theorem validateRegion_eq_ok {device : σ} {sb : Superblock} {u : Unit} :
    validateRegion device sb = .ok u ↔
      sb.totalBlocks = blockCount device := by
  rw [validateRegion_eq, rejectIf_eq_ok, not_not]

/-- The banks are the two halves of the blocks behind the anchor. -/
theorem v3BankLayout_eq_ok {sb : Superblock} {layout : V3BankLayout} :
    v3BankLayout sb = .ok layout ↔
      layout.blocksPerBank = (sb.journalBlocks - 1) / 2 ∧
        layout.blocksPerBank ≠ 0 ∧
        layout.capacity = layout.blocksPerBank * BLOCK_SIZE ∧
        layout.capacity < U64_LIMIT := by
  simp only [v3BankLayout, Except.bind_eq_ok, rejectIf_eq_ok, okOr_eq_ok,
    checkedMul_eq_some, Except.pure_eq_ok, Except.ok.injEq]
  constructor
  · intro hfacts
    rcases hfacts with ⟨_, hne, capacity, ⟨hlt, rfl⟩, rfl⟩
    exact ⟨rfl, hne, rfl, hlt⟩
  · obtain ⟨blocks, capacity⟩ := layout
    simp only
    intro hfacts
    rcases hfacts with ⟨rfl, hne, rfl, hlt⟩
    exact ⟨(), hne, _, ⟨hlt, rfl⟩, rfl⟩

/-- The blocks of a bank are in the reservation, behind the anchor. -/
theorem bank_range {sb : Superblock} {layout : V3BankLayout} {bank start : Nat}
    (hlayout : v3BankLayout sb = .ok layout)
    (hstart : v3BankStart sb layout bank = .ok start) :
    sb.journalStart < start ∧
      start + layout.blocksPerBank ≤ sb.journalStart + sb.journalBlocks ∧
      start = sb.journalStart + 1 + bank * layout.blocksPerBank ∧ bank ≤ 1 ∧
      0 < layout.blocksPerBank ∧
      layout.capacity = layout.blocksPerBank * BLOCK_SIZE ∧
      layout.capacity < U64_LIMIT := by
  obtain ⟨hblocks, hne, hcap, hlt⟩ := v3BankLayout_eq_ok.mp hlayout
  simp only [v3BankStart, Except.bind_eq_ok, rejectIf_eq_ok,
    Except.pure_eq_ok, Except.ok.injEq] at hstart
  obtain ⟨_, hbank, rfl⟩ := hstart
  rcases Nat.le_one_iff_eq_zero_or_eq_one.mp (Nat.le_of_not_lt hbank) with
    rfl | rfl
  · omega
  · omega

theorem readV3Entries_congr {device : σ} {other : τ} {sb : Superblock}
    {layout : V3BankLayout} {anchor : V3Anchor}
    (h : ∀ start, v3BankStart sb layout anchor.bank = .ok start →
      ∀ b, start ≤ b → b < start + layout.blocksPerBank →
        readBlock device b = readBlock other b) :
    readV3Entries device sb layout anchor =
      readV3Entries other sb layout anchor := by
  unfold readV3Entries
  cases hstart : v3BankStart sb layout anchor.bank with
  | error e => rfl
  | ok start =>
    simp only [Except.mapErr_ok, Except.ok_bind]
    rw [readImage_congr (h start hstart)]

/-- The loader reads the reservation only. -/
theorem loadJournalImage_congr {device : σ} {other : τ} {sb : Superblock}
    (hcount : blockCount device = blockCount other)
    (hread : ∀ b, sb.journalRange b →
      readBlock device b = readBlock other b) :
    loadJournalImage device sb = loadJournalImage other sb := by
  have hlayout := sb.layout
  have hfirst : readBlock device sb.journalStart =
      readBlock other sb.journalStart :=
    hread _ ⟨Nat.le_refl _, by omega⟩
  have hactive : ∀ first, loadActiveImage device sb first =
      loadActiveImage other sb first := by
    intro first
    unfold loadActiveImage
    cases decodeV3Anchor first with
    | error e => rfl
    | ok anchor =>
      simp only [Except.ok_bind]
      cases anchor with
      | none =>
        simp only [readCompleteJournalRegion]
        rw [readImage_congr fun b h1 h2 =>
          hread b ⟨by omega, by omega⟩]
      | some anchor =>
        simp only
        cases hv : v3BankLayout sb with
        | error e => rfl
        | ok layout =>
          simp only [Except.ok_bind]
          refine readV3Entries_congr fun start hs b h1 h2 => ?_
          have hb := bank_range hv hs
          exact hread b ⟨by omega, by omega⟩
  rw [loadJournalImage, loadJournalImage, validateRegion_eq, validateRegion_eq,
    hfirst, hcount]
  simp only [hactive]

theorem loadJournalImage_size {device : σ} {sb : Superblock}
    {entries : List JournalEntry}
    (h : loadJournalImage device sb = .ok entries) :
    sb.totalBlocks = blockCount device := by
  simp only [loadJournalImage, Except.bind_eq_ok] at h
  obtain ⟨_, hregion, _⟩ := h
  exact validateRegion_eq_ok.mp hregion

/-- The loader is `journalOf` of the contents that the device shows. -/
theorem loadJournalImage_eq {device : σ} {sb : Superblock} {f : Nat → Block}
    (hsize : sb.totalBlocks = blockCount device) (hshows : Shows device f) :
    loadJournalImage device sb = journalOf sb f := by
  have hlayout := sb.layout
  refine loadJournalImage_congr hsize.symm fun b hb => ?_
  have hlt : b < sb.totalBlocks := by
    have := hb.2
    omega
  rw [hshows b (by omega), Disk.readBlock_of_lt (by exact hlt),
    Disk.boot_blocks]

theorem journalOf_congr {sb : Superblock} {f g : Nat → Block}
    (h : ∀ b, sb.journalRange b → f b = g b) :
    journalOf sb f = journalOf sb g := by
  have hlayout := sb.layout
  refine loadJournalImage_congr rfl fun b hb => ?_
  have hlt : b < sb.totalBlocks := by
    have := hb.2
    omega
  rw [Disk.readBlock_of_lt (by exact hlt), Disk.readBlock_of_lt (by exact hlt),
    Disk.boot_blocks, Disk.boot_blocks, h b hb]

end Congr

theorem loadJournalImage_disk {d : Disk} {sb : Superblock}
    (hsize : sb.totalBlocks = d.size) :
    loadJournalImage d sb = journalOf sb d.blocks :=
  loadJournalImage_eq hsize d.shows

/-! ## What each format holds -/

/-- The loader on contents, without the device. -/
theorem journalOf_eq (sb : Superblock) (f : Nat → Block) :
    journalOf sb f = (isV2EmptyAnchor (f sb.journalStart) >>= fun empty =>
      if empty then pure []
      else loadActiveImage (Disk.boot sb.totalBlocks f) sb
        (f sb.journalStart)) := by
  have hlayout := sb.layout
  have hread : readBlock (Disk.boot sb.totalBlocks f) sb.journalStart =
      .ok (f sb.journalStart) :=
    Disk.readBlock_of_lt (by rw [Disk.boot_size]; omega)
  rw [journalOf, loadJournalImage, validateRegion_of_size rfl, hread]
  rfl

theorem journalOf_emptyAnchor {sb : Superblock} {f : Nat → Block}
    (h : f sb.journalStart = emptyAnchorBlock) : journalOf sb f = .ok [] := by
  rw [journalOf_eq, h, isV2EmptyAnchor_emptyAnchorBlock]
  rfl

/-- The blocks of the reservation as one image. -/
theorem readCompleteJournalRegion_boot {sb : Superblock} {f : Nat → Block}
    {capacity : Nat} (hcap : regionCapacity sb = .ok capacity) :
    readCompleteJournalRegion (Disk.boot sb.totalBlocks f) sb
        (f sb.journalStart) =
      .ok (imageOf f sb.journalStart sb.journalBlocks) := by
  have hlayout := sb.layout
  have htail : readImage (Disk.boot sb.totalBlocks f) (sb.journalStart + 1)
      (sb.journalBlocks - 1) =
        .ok (imageOf f (sb.journalStart + 1) (sb.journalBlocks - 1)) := by
    refine readImage_eq fun b h1 h2 => ?_
    exact Disk.readBlock_of_lt (by rw [Disk.boot_size]; omega)
  have hcons := imageOf_succ_head f sb.journalStart (sb.journalBlocks - 1)
  rw [show sb.journalBlocks - 1 + 1 = sb.journalBlocks by omega] at hcons
  rw [readCompleteJournalRegion, hcap, htail, hcons]
  rfl

/-- The loader on a first block that is no anchor. -/
theorem journalOf_region {sb : Superblock} {f : Nat → Block} {capacity : Nat}
    (hempty : isV2EmptyAnchor (f sb.journalStart) = .ok false)
    (hanchor : decodeV3Anchor (f sb.journalStart) = .ok none)
    (hcap : regionCapacity sb = .ok capacity) :
    journalOf sb f =
      decodeJournalRegion sb (imageOf f sb.journalStart sb.journalBlocks) := by
  rw [journalOf_eq, hempty]
  simp only [Except.ok_bind, Bool.false_eq_true, if_false]
  rw [loadActiveImage, hanchor, Except.ok_bind,
    readCompleteJournalRegion_boot hcap, Except.ok_bind]

theorem regionCapacity_eq_ok {sb : Superblock} {capacity : Nat} :
    regionCapacity sb = .ok capacity ↔
      sb.journalBlocks * BLOCK_SIZE < U64_LIMIT ∧
        sb.journalBlocks * BLOCK_SIZE = capacity := by
  rw [regionCapacity, okOr_eq_ok, checkedMul_eq_some]

/-- A zeroed reservation is an empty journal. -/
theorem journalOf_zero {sb : Superblock} {f : Nat → Block} {capacity : Nat}
    (hcap : regionCapacity sb = .ok capacity)
    (h : ∀ b, sb.journalRange b → f b = Block.zero) :
    journalOf sb f = .ok [] := by
  have hlayout := sb.layout
  have hb := blockSize_eq
  have hfirst : f sb.journalStart = Block.zero :=
    h _ ⟨Nat.le_refl _, by omega⟩
  have hmagic : slice Block.zero.bytes 0 4 = zeros 4 := by
    rw [Block.zero, slice_zeros, Nat.min_eq_left (by omega)]
  have hempty : isV2EmptyAnchor (f sb.journalStart) = .ok false := by
    simp only [hfirst, isV2EmptyAnchor]
    rw [if_pos]
    · rfl
    · exact .inl (by rw [hmagic]; decide)
  have hanchor : decodeV3Anchor (f sb.journalStart) = .ok none :=
    decodeV3Anchor_of_magic (by rw [hfirst, hmagic]; decide)
  have hzero : allZero (imageOf f sb.journalStart sb.journalBlocks) = true := by
    rw [allZero, imageOf, List.all_flatMap, List.all_eq_true]
    intro i hi
    have hi' := List.mem_range.mp hi
    rw [h (sb.journalStart + i) ⟨by omega, by omega⟩]
    exact allZero_zeros _
  rw [journalOf_region hempty hanchor hcap, decodeJournalRegion, if_pos hzero]
  rfl

/-- A published version-2 image is loaded back. -/
theorem journalOf_activeRegion {sb : Superblock} {f : Nat → Block}
    {capacity : Nat} {entries : List JournalEntry} (hne : entries ≠ [])
    (hvalid : validateEntries sb entries = .ok ())
    (hcap : regionCapacity sb = .ok capacity)
    (hfit : 32 + (stream entries).length ≤ capacity)
    (h : ∀ i, i < sb.journalBlocks → f (sb.journalStart + i) =
      Block.ofImage (activeRegion capacity (stream entries)) i) :
    journalOf sb f = .ok entries := by
  have hlayout := sb.layout
  obtain ⟨hlt, rfl⟩ := regionCapacity_eq_ok.mp hcap
  obtain ⟨hempty, hanchor⟩ := first_activeRegion (by omega) hfit hlt
    (h 0 (by omega))
  rw [Nat.add_zero] at hempty hanchor
  rw [journalOf_region hempty hanchor hcap,
    imageOf_ofImage (length_activeRegion hfit) h,
    decodeJournalRegion_activeRegion hne hvalid hfit hlt]

/-- The loader on a version-3 anchor. -/
theorem journalOf_v3 {sb : Superblock} {f : Nat → Block} {anchor : V3Anchor}
    {layout : V3BankLayout}
    (hanchor : decodeV3Anchor (f sb.journalStart) = .ok (some anchor))
    (hlayout : v3BankLayout sb = .ok layout) :
    journalOf sb f =
      readV3Entries (Disk.boot sb.totalBlocks f) sb layout anchor := by
  have hempty : isV2EmptyAnchor (f sb.journalStart) = .ok false := by
    have hmagic : slice (f sb.journalStart).bytes 0 4 = REGION_MAGIC_V3 := by
      by_contra hne
      rw [decodeV3Anchor_of_magic hne] at hanchor
      simp at hanchor
    simp only [isV2EmptyAnchor]
    rw [if_pos]
    · rfl
    · exact .inl (by rw [hmagic]; decide)
  rw [journalOf_eq, hempty]
  simp only [Except.ok_bind, Bool.false_eq_true, if_false]
  rw [loadActiveImage, hanchor, Except.ok_bind]
  simp only
  rw [hlayout, Except.ok_bind]

theorem length_bankImage {layout : V3BankLayout} {payload : List UInt8}
    (h : payload.length ≤ layout.capacity) :
    (bankImage layout payload).length = layout.capacity := by
  rw [bankImage, List.length_append, length_zeros]
  omega

/-- A published version-3 snapshot is loaded back. -/
theorem readV3Entries_bank {sb : Superblock} {f : Nat → Block}
    {layout : V3BankLayout} {anchor : V3Anchor} {start : Nat}
    {entries : List JournalEntry} (hne : entries ≠ [])
    (hvalid : validateEntries sb entries = .ok ())
    (hlayout : v3BankLayout sb = .ok layout)
    (hstart : v3BankStart sb layout anchor.bank = .ok start)
    (hlen : anchor.payloadLen = (stream entries).length)
    (hcrc : anchor.payloadCrc = crc32 (stream entries))
    (hfit : (stream entries).length ≤ layout.capacity)
    (h : ∀ i, i < layout.blocksPerBank → f (start + i) =
      Block.ofImage (bankImage layout (stream entries)) i) :
    readV3Entries (Disk.boot sb.totalBlocks f) sb layout anchor =
      .ok entries := by
  have hgeom := sb.layout
  have hrange := bank_range hlayout hstart
  have hpos := List.length_pos_of_ne_nil (stream_ne_nil hne)
  have himage : readImage (Disk.boot sb.totalBlocks f) start
      layout.blocksPerBank = .ok (bankImage layout (stream entries)) := by
    rw [readImage_eq (f := f) fun b h1 h2 => ?_]
    · rw [imageOf_ofImage ?_ h]
      rw [length_bankImage hfit]
      omega
    · exact Disk.readBlock_of_lt (by rw [Disk.boot_size]; omega)
  have hdecode := decodeEntries_stream entries
  rw [readV3Entries, hstart, hlen, hcrc]
  generalize stream entries = payload at *
  have htake : (bankImage layout payload).take payload.length = payload := by
    rw [bankImage, List.take_left]
  have hdrop : allZero ((bankImage layout payload).drop payload.length) =
      true := by
    rw [bankImage, List.drop_left]
    exact allZero_zeros _
  rw [rejectIf_of_not (by omega)]
  simp only [Except.mapErr_ok, Except.ok_bind, himage, htake, hdecode, hvalid]
  simp [rejectIf, hdrop]

/-! ## What a loaded stream satisfies -/

theorem validate_of_readV3Entries {σ : Type} [BlockDevice σ] {device : σ}
    {sb : Superblock} {layout : V3BankLayout} {anchor : V3Anchor}
    {entries : List JournalEntry} (hlayout : v3BankLayout sb = .ok layout)
    (h : readV3Entries device sb layout anchor = .ok entries) :
    validateEntries sb entries = .ok () ∧ entries ≠ [] ∧
      (stream entries).length ≤ layout.capacity := by
  simp only [readV3Entries, Except.bind_eq_ok, rejectIf_eq_ok,
    Except.mapErr_eq_ok, Except.pure_eq_ok, Except.ok.injEq] at h
  obtain ⟨_, hlen, start, hstart, image, himage, _, _, _, _, entries, hdecode,
    _, hvalid, rfl⟩ := h
  have hrange := bank_range hlayout hstart
  have himageLen := length_readImage himage
  have hpayload : (image.take anchor.payloadLen).length =
      min anchor.payloadLen layout.capacity := by
    rw [List.length_take, himageLen]
    omega
  have hpos : 0 < layout.capacity := by
    have := blockSize_pos
    have := Nat.mul_pos hrange.2.2.2.2.1 this
    omega
  refine ⟨hvalid, ne_nil_of_decodeEntries hdecode ?_, ?_⟩
  · refine List.ne_nil_of_length_pos ?_
    rw [hpayload]
    omega
  · rw [stream_of_decodeEntries hdecode, hpayload]
    omega

theorem validate_of_decodeJournalRegion {sb : Superblock}
    {region : List UInt8} {entries : List JournalEntry}
    (h : decodeJournalRegion sb region = .ok entries) :
    validateEntries sb entries = .ok () := by
  unfold decodeJournalRegion at h
  split at h
  · simp only [Except.pure_eq_ok, Except.ok.injEq] at h
    rw [← h]
    rfl
  · simp only [Except.bind_eq_ok, Except.pure_eq_ok, Except.ok.injEq] at h
    obtain ⟨_, _, _, _, _, _, _, _, _, _, _, _, entries, _, _, hvalid, rfl⟩ := h
    exact hvalid

/-- Every stream that the loader returns is validated. -/
theorem validate_of_loadJournalImage {σ : Type} [BlockDevice σ] {device : σ}
    {sb : Superblock} {entries : List JournalEntry}
    (h : loadJournalImage device sb = .ok entries) :
    validateEntries sb entries = .ok () := by
  simp only [loadJournalImage, Except.bind_eq_ok] at h
  obtain ⟨_, _, firstBlock, _, empty, _, h⟩ := h
  split at h
  · simp only [Except.pure_eq_ok, Except.ok.injEq] at h
    rw [← h]
    rfl
  · simp only [loadActiveImage, Except.bind_eq_ok] at h
    obtain ⟨anchor, _, h⟩ := h
    split at h
    · simp only [Except.bind_eq_ok] at h
      obtain ⟨layout, hlayout, h⟩ := h
      exact (validate_of_readV3Entries hlayout h).1
    · simp only [Except.bind_eq_ok] at h
      obtain ⟨region, _, h⟩ := h
      exact validate_of_decodeJournalRegion h

theorem validate_of_journalOf {sb : Superblock} {f : Nat → Block}
    {entries : List JournalEntry} (h : journalOf sb f = .ok entries) :
    validateEntries sb entries = .ok () :=
  validate_of_loadJournalImage h

end FilesystemLab
