import FilesystemLab.JournalPublish

/-!
# Atomicity of journal publication on a disk

`storeJournalImage` and `appendRetainedJournalEntries` as operations of a disk
whose power may fail at any point.  Each either leaves the disk alone or runs
the epochs of one publication; the crash images of those epochs are `Published`
images of the contents before.
-/

namespace FilesystemLab

open Bytes JournalCodec WriteLog

/-! ## Bounded images -/

/-- A power failure inside an accepted `store_journal_image`. -/
theorem StoreAccepts.published {sb : Superblock} {d : Disk}
    {entries : List JournalEntry} (h : StoreAccepts sb d entries)
    {img : Nat → Block}
    (hc : CrashImage d.blocks (barriers (storeEpochs sb entries)) img) :
    Published sb d.blocks [] entries img := by
  rw [storeEpochs] at hc
  split at hc
  · have himg : img = d.blocks ∨ img = Function.update d.blocks
        sb.journalStart emptyAnchorBlock := by
      rcases crashImage_barriers_cons hc with hmix | hc
      · exact hmix.single
      · exact .inr (crashImage_barriers_nil hc)
    rcases himg with rfl | rfl
    · exact Published.refl h.vacant
    · refine .emptyAnchor (fun b hb => ?_) (Function.update_self _ _ _)
      refine Function.update_of_ne ?_ _ _
      intro heq
      subst heq
      exact hb (journalStart_mem sb)
  · rename_i hne
    exact published_of_crash_region hne h.valid (h.fits hne) h.vacant rfl hc

/-- The contents after an accepted `store_journal_image`. -/
theorem StoreAccepts.journalOf_settle {sb : Superblock} {d : Disk}
    {entries : List JournalEntry} (h : StoreAccepts sb d entries) :
    journalOf sb (settle d.blocks (storeEpochs sb entries)) = .ok entries ∧
      (entries = [] → settle d.blocks (storeEpochs sb entries)
        sb.journalStart = emptyAnchorBlock) := by
  rw [storeEpochs]
  split
  · rename_i hnil
    have hfirst : settle d.blocks [[(sb.journalStart, emptyAnchorBlock)]]
        sb.journalStart = emptyAnchorBlock := by
      simp [settle]
    exact ⟨by rw [journalOf_emptyAnchor hfirst, hnil], fun _ => hfirst⟩
  · rename_i hne
    refine ⟨?_, fun hnil => absurd hnil hne⟩
    rw [settle_publishEpochs]
    exact journalOf_staged hne h.valid (h.fits hne) rfl

/-- What a reboot loads, as a statement about contents. -/
theorem loadJournalImage_boot {sb : Superblock} {n : Nat}
    (h : sb.totalBlocks = n) (f : Nat → Block) :
    loadJournalImage (Disk.boot n f) sb = journalOf sb f := by
  subst h
  rfl

/-- **Publication of a bounded image is atomic.**  A power failure inside
`store_journal_image` over an empty journal leaves it empty or with exactly the
new stream, and nothing else changes.  A rejected call changes nothing, and a
journal in use is never replaced. -/
theorem storeJournalImage_crash_atomic {sb : Superblock} {d : Disk}
    (hd : d.Settled) (entries : List JournalEntry) :
    (loadJournalImage d sb = .ok [] → validateEntries sb entries = .ok () →
      ∀ img, d.CrashDuring (storeJournalImage sb entries) img →
        (loadJournalImage img sb = .ok [] ∨
          loadJournalImage img sb = .ok entries) ∧
        ∀ b, ¬ sb.journalRange b → img.blocks b = d.blocks b) ∧
    ((storeJournalImage sb entries d).1 = .ok () →
      loadJournalImage (storeJournalImage sb entries d).2 sb = .ok entries) ∧
    (∀ e, (storeJournalImage sb entries d).1 = .error e →
      (storeJournalImage sb entries d).2 = d) ∧
    (validateEntries sb entries = .ok () → ∀ current,
      loadJournalImage d sb = .ok current → current ≠ [] →
        ∃ e, storeJournalImage sb entries d = (.error e, d) ∧
          e.kind = .wouldBlock) := by
  refine ⟨?_, ?_, ?_, ?_⟩
  · intro hload _ img hcrash
    have hsize : sb.totalBlocks = d.size := loadJournalImage_size hload
    rw [loadJournalImage_disk hsize] at hload
    rcases storeJournalImage_cases sb d entries with ⟨_, e, herr⟩ | ⟨hacc, hrun⟩
    · have hsame : (storeJournalImage sb entries d).2 = d := by rw [herr]
      rw [Disk.crashDuring_of_unchanged hsame hd hcrash,
        loadJournalImage_boot hsize]
      exact ⟨.inl hload, fun b _ => rfl⟩
    · have hext : (storeJournalImage sb entries d).2 =
          d.extend (barriers (storeEpochs sb entries)) := by
        rw [hrun]
        rfl
      obtain ⟨contents, hc, rfl⟩ := (Disk.crashDuring_iff hext hd).mp hcrash
      have hpub := hacc.published hc
      rw [loadJournalImage_boot hsize]
      refine ⟨?_, fun b hb => hpub.home b hb⟩
      rcases hpub.stream with ⟨_, hold⟩ | hnew
      · exact .inl hold
      · exact .inr hnew
  · intro hok
    rcases storeJournalImage_cases sb d entries with ⟨_, e, herr⟩ | ⟨hacc, hrun⟩
    · rw [herr] at hok
      simp at hok
    · rw [hrun, loadJournalImage_disk (by exact hacc.size),
        Disk.blocks_commit]
      exact hacc.journalOf_settle.1
  · intro e he
    rcases storeJournalImage_cases sb d entries with ⟨_, e', herr⟩ | ⟨_, hrun⟩
    · rw [herr]
    · rw [hrun] at he
      simp at he
  · intro hvalid current hload hne
    refine ⟨journalOccupied, ?_, rfl⟩
    simp only [storeJournalImage, Effect.query_bind, Effect.lift_bind,
      validateRegion_of_size (loadJournalImage_size hload), hvalid, hload,
      rejectIf_of hne]

/-- A disk of the sample geometry whose journal is the empty anchor. -/
def emptyDisk : Disk :=
  Disk.boot sampleSuperblock.totalBlocks fun b =>
    if b = sampleSuperblock.journalStart then emptyAnchorBlock else Block.zero

theorem emptyDisk_settled : emptyDisk.Settled := Disk.boot_settled _ _

theorem storeJournalImage_crash_atomic_sample :
    loadJournalImage (storeJournalImage sampleSuperblock [.begin 0, .commit 0]
      emptyDisk).2 sampleSuperblock = .ok [.begin 0, .commit 0] := by
  have hacc : StoreAccepts sampleSuperblock emptyDisk
      [.begin 0, .commit 0] := by
    refine ⟨rfl, rfl, journalOf_emptyAnchor rfl, fun _ => ?_⟩
    constructor <;> decide
  refine (storeJournalImage_crash_atomic emptyDisk_settled
    [.begin 0, .commit 0]).2.1 ?_
  rcases storeJournalImage_cases sampleSuperblock emptyDisk
    [.begin 0, .commit 0] with ⟨hno, _⟩ | ⟨_, hrun⟩
  · exact absurd hacc hno
  · exact congrArg Prod.fst hrun

/-! ## Retained journals -/

theorem readBlock_journalStart {sb : Superblock} {d : Disk}
    (hsize : sb.totalBlocks = d.size) :
    readBlock d sb.journalStart = .ok (d.blocks sb.journalStart) := by
  have hlayout := sb.layout
  exact Disk.readBlock_of_lt (by omega)

/-- The entries of a version-3 anchor are the journal. -/
theorem readV3Entries_disk {sb : Superblock} {d : Disk} {anchor : V3Anchor}
    {layout : V3BankLayout} (hsize : sb.totalBlocks = d.size)
    (hanchor : decodeV3Anchor (d.blocks sb.journalStart) = .ok (some anchor))
    (hlayout : v3BankLayout sb = .ok layout) :
    readV3Entries d sb layout anchor = journalOf sb d.blocks := by
  have hgeom := sb.layout
  rw [journalOf_v3 hanchor hlayout]
  refine readV3Entries_congr fun start hstart b h1 h2 => ?_
  have hrange := bank_range hlayout hstart
  rw [Disk.readBlock_of_lt (by omega),
    Disk.readBlock_of_lt (by rw [Disk.boot_size]; omega), Disk.boot_blocks]

/-- What an accepted append publishes: the entries so far with the new ones,
into a bank that the current anchor does not name. -/
structure AppendPlan (sb : Superblock) (d : Disk) (entries old : List JournalEntry)
    (layout : V3BankLayout) (bank start : Nat) (anchorBlock : Block) :
    Prop where
  size : sb.totalBlocks = d.size
  load : journalOf sb d.blocks = .ok old
  base : decodeV3Anchor (d.blocks sb.journalStart) = .ok none ∧ old = [] ∧
      bank = 0 ∨
    (∃ anchor, decodeV3Anchor (d.blocks sb.journalStart) = .ok (some anchor) ∧
      anchor.bank ≠ bank) ∧ validateCompleteEntries sb old = .ok ()
  complete : validateCompleteEntries sb entries = .ok ()
  snapshot : Snapshot sb (old ++ entries) layout bank start anchorBlock

/-- The base of an append, read from a disk. -/
theorem retainedBase_cases {sb : Superblock} {d : Disk}
    {layout : V3BankLayout} (hsize : sb.totalBlocks = d.size)
    (hlayout : v3BankLayout sb = .ok layout)
    {base : List JournalEntry × Nat × Nat}
    (h : retainedBase d sb layout = .ok base) :
    journalOf sb d.blocks = .ok base.1 ∧ base.2.1 ≤ 1 ∧ base.2.2 ≠ 0 ∧
      base.2.2 < U64_LIMIT ∧
      (decodeV3Anchor (d.blocks sb.journalStart) = .ok none ∧ base.1 = [] ∧
          base.2.1 = 0 ∨
        (∃ anchor, decodeV3Anchor (d.blocks sb.journalStart) =
          .ok (some anchor) ∧ anchor.bank ≠ base.2.1) ∧
          validateCompleteEntries sb base.1 = .ok ()) := by
  rw [retainedBase, readBlock_journalStart hsize, Except.ok_bind,
    Except.bind_eq_ok] at h
  obtain ⟨anchor, hanchor, h⟩ := h
  cases anchor with
  | none =>
    simp only [Except.bind_eq_ok, rejectIf_eq_ok, not_not, Except.pure_eq_ok,
      Except.ok.injEq, loadJournalImage_disk hsize] at h
    obtain ⟨current, hload, _, rfl, rfl⟩ := h
    exact ⟨hload, by simp, by simp, by simp [U64_LIMIT],
      .inl ⟨hanchor, rfl, rfl⟩⟩
  | some anchor =>
    simp only [Except.bind_eq_ok, Except.pure_eq_ok, Except.ok.injEq,
      nextGeneration, okOr_eq_ok, checkedAdd_eq_some,
      readV3Entries_disk hsize hanchor hlayout] at h
    obtain ⟨current, hload, _, hcomplete, generation, ⟨hlt, rfl⟩, rfl⟩ := h
    have hvalid := valid_of_decodeV3Anchor hanchor
    refine ⟨hload, ?_, by simp, hlt, .inr ⟨⟨anchor, hanchor, ?_⟩, hcomplete⟩⟩
    · simp only [otherBank]
      split <;> omega
    · simp only [otherBank]
      split <;> omega

/-- `append_retained_journal_entries` leaves the device alone or publishes the
plan of the append. -/
theorem appendRetainedJournalEntries_cases (sb : Superblock) (d : Disk)
    (entries : List JournalEntry) :
    (∃ e, appendRetainedJournalEntries sb entries d = (.error e, d)) ∨
      ∃ old layout bank start anchorBlock,
        AppendPlan sb d entries old layout bank start anchorBlock ∧
        appendRetainedJournalEntries sb entries d =
          (.ok (), d.commit (snapshotEpochs sb layout start
            (stream (old ++ entries)) anchorBlock)) := by
  simp only [appendRetainedJournalEntries, Effect.query_bind, Effect.lift_bind]
  split
  case h_2 => exact .inl ⟨_, rfl⟩
  rename_i hregion
  have hsize : sb.totalBlocks = d.size := validateRegion_eq_ok.mp hregion
  split
  case h_2 => exact .inl ⟨_, rfl⟩
  split
  case h_2 => exact .inl ⟨_, rfl⟩
  rename_i hcomplete
  split
  case h_2 => exact .inl ⟨_, rfl⟩
  rename_i layout hlayout
  split
  case h_2 => exact .inl ⟨_, rfl⟩
  rename_i base hbase
  obtain ⟨hload, hbank, hgen, hlt, hfrom⟩ :=
    retainedBase_cases hsize hlayout hbase
  rcases publishV3Snapshot_cases hsize hlayout hbank hgen hlt
    (base.1 ++ entries) with ⟨_, herr⟩ | ⟨hfits, start, block, hstart, hanchor,
      hrun⟩
  · exact .inl herr
  · exact .inr ⟨base.1, layout, base.2.1, start, block,
      ⟨hsize, hload, hfrom, hcomplete,
        ⟨hlayout, hstart, hfits, _, hanchor⟩⟩, hrun⟩

/-- A power failure inside an accepted append, from a journal whose first block
is an anchor. -/
theorem AppendPlan.published {sb : Superblock} {d : Disk}
    {entries old : List JournalEntry} {layout : V3BankLayout}
    {bank start : Nat} {anchorBlock : Block}
    (h : AppendPlan sb d entries old layout bank start anchorBlock)
    (hanchored : d.blocks sb.journalStart = emptyAnchorBlock ∨
      ∃ anchor, decodeV3Anchor (d.blocks sb.journalStart) = .ok (some anchor))
    {img : Nat → Block}
    (hc : CrashImage d.blocks (barriers (snapshotEpochs sb layout start
      (stream (old ++ entries)) anchorBlock)) img) :
    Published sb d.blocks old (old ++ entries) img := by
  refine h.snapshot.published_of_crash h.load ?_ hc
  rcases hanchored with hempty | ⟨anchor, hanchor⟩
  · exact .inl hempty
  · rcases h.base with ⟨hnone, _⟩ | ⟨hsome, _⟩
    · rw [hnone] at hanchor
      simp at hanchor
    · exact .inr hsome

/-- The new entries are complete transactions, and there are two banks that are
large enough for them. -/
def AppendFits (sb : Superblock) (entries : List JournalEntry) : Prop :=
  ∃ layout, v3BankLayout sb = .ok layout ∧ SnapshotFits sb layout entries

/-- The first block of the journal is an anchor: the empty one, or one that
names a bank. -/
def Anchored (sb : Superblock) (f : Nat → Block) : Prop :=
  f sb.journalStart = emptyAnchorBlock ∨
    ∃ anchor, decodeV3Anchor (f sb.journalStart) = .ok (some anchor)

/-- An empty journal without an anchor is a region without records. -/
theorem region_of_not_anchored {sb : Superblock} {f : Nat → Block}
    (hload : journalOf sb f = .ok []) (hno : ¬ Anchored sb f) :
    isV2EmptyAnchor (f sb.journalStart) = .ok false ∧
      decodeV3Anchor (f sb.journalStart) = .ok none ∧
      (∃ capacity, regionCapacity sb = .ok capacity) ∧
      decodeJournalRegion sb (imageOf f sb.journalStart sb.journalBlocks) =
        .ok [] := by
  simp only [Anchored, not_or, not_exists] at hno
  have hload' := hload
  rw [journalOf_eq, Except.bind_eq_ok] at hload'
  obtain ⟨empty, hempty, hrest⟩ := hload'
  cases empty with
  | true => exact absurd (isV2EmptyAnchor_iff.mp hempty) hno.1
  | false =>
    simp only [Bool.false_eq_true, if_false, loadActiveImage,
      Except.bind_eq_ok] at hrest
    obtain ⟨anchor, hanchor, hrest⟩ := hrest
    cases anchor with
    | some anchor => exact absurd hanchor (hno.2 anchor)
    | none =>
      simp only [Except.bind_eq_ok, readCompleteJournalRegion] at hrest
      obtain ⟨region, ⟨capacity, hcap, _⟩, _⟩ := hrest
      refine ⟨hempty, hanchor, ⟨capacity, hcap⟩, ?_⟩
      rw [← journalOf_region hempty hanchor hcap, hload]

/-- A first bank block behind a region without records makes the region
unreadable: it is neither zero nor padding. -/
theorem journalOf_bank_without_anchor {sb : Superblock} {f : Nat → Block}
    (hload : journalOf sb f = .ok []) (hno : ¬ Anchored sb f)
    (hblocks : 3 ≤ sb.journalBlocks) {v : Block}
    (hv : v.bytes.head? = some 0x4a) (entries : List JournalEntry) :
    journalOf sb (Function.update f (sb.journalStart + 1) v) ≠
      .ok entries := by
  obtain ⟨hempty, hanchor, ⟨capacity, hcap⟩, hdecode⟩ :=
    region_of_not_anchored hload hno
  have hb := blockSize_eq
  set g := Function.update f (sb.journalStart + 1) v with hg
  have hfirst : g sb.journalStart = f sb.journalStart :=
    Function.update_of_ne (by omega) _ _
  have himage : ∀ h : Nat → Block,
      imageOf h sb.journalStart sb.journalBlocks =
        (h sb.journalStart).bytes ++ ((h (sb.journalStart + 1)).bytes ++
          imageOf h (sb.journalStart + 1 + 1) (sb.journalBlocks - 2)) := by
    intro h
    rw [← imageOf_succ_head, ← imageOf_succ_head]
    congr 1
    omega
  intro hok
  rw [journalOf_region (by rw [hfirst, hempty]) (by rw [hfirst, hanchor]) hcap,
    himage g, hfirst, hg, Function.update_self] at hok
  rw [himage f] at hdecode
  have hlen := (f sb.journalStart).length_eq
  -- both images have the header of the same first block
  have hheader : readLe ((f sb.journalStart).bytes ++ (v.bytes ++
      imageOf g (sb.journalStart + 1 + 1) (sb.journalBlocks - 2))) 8 8 = 0 := by
    rw [← payloadLen_of_decodeJournalRegion_nil (by simp; omega) hdecode,
      readLe, readLe, slice_append_left (by omega),
      slice_append_left (by omega)]
  have hzero := allZero_drop_of_decodeJournalRegion hok hheader
  rw [List.drop_append_of_le_length (by omega), allZero_append, allZero_append,
    Bool.and_eq_true, Bool.and_eq_true] at hzero
  rw [eq_zeros_of_allZero hzero.2.1, v.length_eq, hb] at hv
  exact absurd hv (by decide)

/-- An append to an empty journal without a snapshot publishes the first one, in
the first bank. -/
theorem append_of_no_snapshot {sb : Superblock} {d : Disk}
    {entries : List JournalEntry} (hsize : sb.totalBlocks = d.size)
    (hload : journalOf sb d.blocks = .ok [])
    (hanchor : decodeV3Anchor (d.blocks sb.journalStart) = .ok none)
    (hfits : AppendFits sb entries) :
    ∃ layout anchorBlock,
      Snapshot sb entries layout 0 (sb.journalStart + 1) anchorBlock ∧
      decodeV3Anchor anchorBlock = .ok (some ⟨0, 1, (stream entries).length,
        crc32 (stream entries)⟩) ∧
      appendRetainedJournalEntries sb entries d =
        (.ok (), d.commit (snapshotEpochs sb layout (sb.journalStart + 1)
          (stream entries) anchorBlock)) := by
  obtain ⟨layout, hlayout, hsnapshot⟩ := hfits
  have hbase : retainedBase d sb layout = .ok ([], 0, 1) := by
    rw [retainedBase, readBlock_journalStart hsize, Except.ok_bind, hanchor,
      Except.ok_bind]
    simp only [loadJournalImage_disk hsize, hload, Except.ok_bind]
    rfl
  have hregion : validateRegion d sb = .ok () := validateRegion_of_size hsize
  have hne := (validate_of_complete hsnapshot.1).2
  have hstart : v3BankStart sb layout 0 = .ok (sb.journalStart + 1) := by
    rw [v3BankStart_of_le sb layout (Nat.zero_le 1), Nat.zero_mul,
      Nat.zero_add]
  have hbank : 0 ≤ 1 := Nat.zero_le 1
  have hgen : 1 < U64_LIMIT := by decide
  rcases publishV3Snapshot_cases hsize hlayout hbank Nat.one_ne_zero hgen
    entries with ⟨hnot, _⟩ | ⟨_, start, anchorBlock, hstart', hblock, hrun⟩
  · exact absurd hsnapshot hnot
  · rw [hstart, Except.ok.injEq] at hstart'
    subst hstart'
    refine ⟨layout, anchorBlock, ⟨hlayout, hstart, hsnapshot, 1, hblock⟩,
      hblock, ?_⟩
    simp only [appendRetainedJournalEntries, Effect.query_bind,
      Effect.lift_bind, hregion, rejectIf_of_not hne, hsnapshot.1, hlayout,
      hbase, List.nil_append]
    exact hrun

/-- Without an anchor, an append has a crash image that no longer loads: the
bank is written in the open. -/
theorem append_not_anchored_crash {sb : Superblock} {d : Disk}
    {entries : List JournalEntry} (hd : d.Settled)
    (hsize : sb.totalBlocks = d.size)
    (hload : journalOf sb d.blocks = .ok []) (hno : ¬ Anchored sb d.blocks)
    (hfits : AppendFits sb entries) :
    ∃ img, d.CrashDuring (appendRetainedJournalEntries sb entries) img ∧
      ∀ es, loadJournalImage img sb ≠ .ok es := by
  obtain ⟨layout, anchorBlock, ⟨hlayout, _, hsnapshot, _⟩, _, hrun⟩ :=
    append_of_no_snapshot hsize hload
      (region_of_not_anchored hload hno).2.1 hfits
  have hrange := bank_range hlayout
    (v3BankStart_of_le sb layout (Nat.zero_le 1))
  have hext : (appendRetainedJournalEntries sb entries d).2 =
      d.extend (barriers (snapshotEpochs sb layout (sb.journalStart + 1)
        (stream entries) anchorBlock)) := by
    rw [hrun]
    rfl
  have hne := (validate_of_complete hsnapshot.1).2
  set v := Block.ofImage (bankImage layout (stream entries)) 0 with hv
  -- the first write of the bank, alone
  obtain ⟨rest, hrest⟩ : ∃ rest, bankWrites (sb.journalStart + 1) layout
      (stream entries) = (sb.journalStart + 1, v) :: rest := by
    rw [bankWrites, show layout.blocksPerBank =
      layout.blocksPerBank - 1 + 1 by omega, List.range_succ_eq_map,
      List.map_cons, Nat.add_zero]
    exact ⟨_, rfl⟩
  refine ⟨Disk.boot d.size (Function.update d.blocks (sb.journalStart + 1) v),
    (Disk.crashDuring_iff hext hd).mpr ⟨_, ?_, rfl⟩, fun es => ?_⟩
  · rw [snapshotEpochs, barriers_cons, epoch, hrest]
    exact crashImage_first_write
  · rw [loadJournalImage_boot hsize]
    have hhead : v.bytes.head? = some 0x4a := by
      have hpos := hrange.2.2.2.2.1
      rw [hv, Block.bytes_ofImage (n := layout.blocksPerBank)
        (by rw [length_bankImage hsnapshot.2]; omega) hpos, chunk,
        Nat.zero_mul, List.drop_zero, bankImage]
      rw [List.head?_take, if_neg (by decide), List.head?_append,
        head?_stream hne]
      rfl
    have hblocks : 3 ≤ sb.journalBlocks := by
      obtain ⟨hhalf, hpos, _⟩ := v3BankLayout_eq_ok.mp hlayout
      omega
    exact journalOf_bank_without_anchor hload hno hblocks hhead es

/-- **When a retained append is atomic.**  From an empty journal or an active
snapshot, every crash image of an append loads as the old stream or as the old
stream with the new one, exactly if the first block of the journal is an anchor
or the call rejects the new entries before it writes. -/
theorem append_crash_atomic_iff {sb : Superblock} {d : Disk}
    {old : List JournalEntry} (hd : d.Settled)
    (hload : loadJournalImage d sb = .ok old)
    (hstart : old = [] ∨ ∃ anchor,
      decodeV3Anchor (d.blocks sb.journalStart) = .ok (some anchor))
    (new : List JournalEntry) :
    (∀ img, d.CrashDuring (appendRetainedJournalEntries sb new) img →
      loadJournalImage img sb = .ok old ∨
        loadJournalImage img sb = .ok (old ++ new)) ↔
      Anchored sb d.blocks ∨ ¬ AppendFits sb new := by
  have hsize : sb.totalBlocks = d.size := loadJournalImage_size hload
  rw [loadJournalImage_disk hsize] at hload
  constructor
  · intro hall
    by_contra hnot
    simp only [not_or, not_not] at hnot
    have hnil : old = [] := by
      rcases hstart with hnil | hanchor
      · exact hnil
      · exact absurd (.inr hanchor) hnot.1
    subst hnil
    obtain ⟨img, hcrash, hbad⟩ :=
      append_not_anchored_crash hd hsize hload hnot.1 hnot.2
    rcases hall img hcrash with h | h
    · exact hbad _ h
    · exact hbad _ h
  · intro hcond img hcrash
    rcases appendRetainedJournalEntries_cases sb d new with ⟨e, herr⟩ |
      ⟨old', layout, bank, start, anchorBlock, hplan, hrun⟩
    · have hsame : (appendRetainedJournalEntries sb new d).2 = d := by rw [herr]
      rw [Disk.crashDuring_of_unchanged hsame hd hcrash,
        loadJournalImage_boot hsize]
      exact .inl hload
    · have hold : old' = old := by
        have := hplan.load
        rw [hload, Except.ok.injEq] at this
        exact this.symm
      subst hold
      have hext : (appendRetainedJournalEntries sb new d).2 =
          d.extend (barriers (snapshotEpochs sb layout start
            (stream (old' ++ new)) anchorBlock)) := by
        rw [hrun]
        rfl
      have hanchored : Anchored sb d.blocks := by
        rcases hcond with h | hnofit
        · exact h
        · rcases hplan.base with ⟨_, rfl, _⟩ | ⟨⟨anchor, hanchor, _⟩, _⟩
          · exact absurd ⟨layout, hplan.snapshot.layout_eq,
              hplan.snapshot.fits⟩ hnofit
          · exact .inr ⟨anchor, hanchor⟩
      obtain ⟨contents, hc, rfl⟩ := (Disk.crashDuring_iff hext hd).mp hcrash
      rw [loadJournalImage_boot hsize]
      rcases (hplan.published hanchored hc).stream with ⟨_, h⟩ | h
      · exact .inl h
      · exact .inr h

/-- A disk of the sample geometry without any anchor. -/
def zeroDisk : Disk :=
  Disk.boot sampleSuperblock.totalBlocks fun _ => Block.zero

theorem load_zeroDisk :
    journalOf sampleSuperblock zeroDisk.blocks = .ok [] := by
  have hcap : regionCapacity sampleSuperblock =
      .ok (sampleSuperblock.journalBlocks * BLOCK_SIZE) :=
    regionCapacity_eq_ok.mpr ⟨by decide, rfl⟩
  refine journalOf_zero hcap fun b _ => ?_
  rw [zeroDisk, Disk.boot_blocks]

theorem appendFits_sample :
    AppendFits sampleSuperblock [.begin 0, .commit 0] := by
  have hlayout : v3BankLayout sampleSuperblock = .ok ⟨1, BLOCK_SIZE⟩ :=
    v3BankLayout_eq_ok.mpr ⟨rfl, by decide, by simp, by decide⟩
  exact ⟨_, hlayout, rfl, by decide⟩

theorem not_anchored_zeroDisk :
    ¬ Anchored sampleSuperblock zeroDisk.blocks := by
  have hb := blockSize_eq
  have hmagic : slice Block.zero.bytes 0 4 = zeros 4 := by
    rw [Block.zero, slice_zeros, Nat.min_eq_left (by omega)]
  intro hcases
  rcases hcases with hempty | ⟨anchor, hanchor⟩
  · have hmagic' := (header_reads bytes_emptyAnchorBlock (by decide) (by decide)
      (toNat_crc32_lt _)).1
    rw [← hempty] at hmagic'
    exact absurd (hmagic.symm.trans hmagic') (by decide)
  · have hnone : decodeV3Anchor Block.zero = .ok none :=
      decodeV3Anchor_of_magic (by rw [hmagic]; decide)
    exact absurd (hnone.symm.trans hanchor) (by simp)

/-- The zeroed journal of a fresh device is empty, and an append of one
transaction to it can crash into a journal that does not load. -/
theorem append_zeroed_journal_crash :
    loadJournalImage zeroDisk sampleSuperblock = .ok [] ∧
      ∃ img, zeroDisk.CrashDuring (appendRetainedJournalEntries
        sampleSuperblock [.begin 0, .commit 0]) img ∧
        ∀ es, loadJournalImage img sampleSuperblock ≠ .ok es :=
  ⟨load_zeroDisk, append_not_anchored_crash (Disk.boot_settled _ _) rfl
    load_zeroDisk not_anchored_zeroDisk appendFits_sample⟩

theorem load_emptyDisk :
    loadJournalImage emptyDisk sampleSuperblock = .ok [] :=
  journalOf_emptyAnchor rfl

theorem append_crash_atomic_emptyDisk :
    Anchored sampleSuperblock emptyDisk.blocks ∧
      ∀ img, emptyDisk.CrashDuring (appendRetainedJournalEntries
        sampleSuperblock [.begin 0, .commit 0]) img →
        loadJournalImage img sampleSuperblock = .ok [] ∨
          loadJournalImage img sampleSuperblock =
            .ok [.begin 0, .commit 0] :=
  ⟨.inl rfl, (append_crash_atomic_iff emptyDisk_settled load_emptyDisk
    (.inl rfl) [.begin 0, .commit 0]).mpr (.inl (.inl rfl))⟩

end FilesystemLab
