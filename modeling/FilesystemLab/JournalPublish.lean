import FilesystemLab.JournalContents

/-!
# Publication of a journal stream

What the two publication protocols write, and what a power failure inside them
leaves.

A version-2 publication makes an empty anchor durable, then the tail of the
image, then the first block.  A version-3 publication makes a bank durable that
no anchor names, then flips the anchor.  In both, the last epoch is one write to
the first block of the journal, and everything before it is invisible to the
loader; `Published` is the resulting relation between the contents before and
after.
-/

namespace FilesystemLab

open Bytes JournalCodec WriteLog

/-! ## The writes of a publication -/

/-- The epochs of a version-2 publication. -/
def publishEpochs (sb : Superblock) (region : List UInt8) :
    List (List (Nat × Block)) :=
  [[(sb.journalStart, emptyAnchorBlock)]] ++
    (if sb.journalBlocks > 1 then [regionTail sb region] else []) ++
      [[regionBlock sb region 0]]

theorem mem_regionTail {sb : Superblock} {region : List UInt8}
    {w : Nat × Block} :
    w ∈ regionTail sb region ↔
      ∃ i, 1 ≤ i ∧ i < sb.journalBlocks ∧ w = regionBlock sb region i := by
  have hlayout := sb.layout
  simp only [regionTail, List.mem_map, List.mem_reverse, List.mem_range'_1]
  constructor
  · intro hfacts
    rcases hfacts with ⟨i, ⟨h1, h2⟩, rfl⟩
    exact ⟨i, h1, by omega, rfl⟩
  · intro hfacts
    rcases hfacts with ⟨i, h1, h2, rfl⟩
    exact ⟨i, ⟨h1, by omega⟩, rfl⟩

section Run

variable {d : Disk} {sb : Superblock}

theorem initializeJournalRegion_apply (hsize : sb.totalBlocks = d.size) :
    initializeJournalRegion sb d =
      (.ok (), d.extend [.write sb.journalStart emptyAnchorBlock]) := by
  have hlayout := sb.layout
  rw [initializeJournalRegion, Effect.query_bind, validateRegion_of_size hsize]
  exact Disk.writeBlock_of_lt (by omega)

theorem storeEmptyJournalAnchor_apply (hsize : sb.totalBlocks = d.size) :
    storeEmptyJournalAnchor sb d =
      (.ok (), d.commit [[(sb.journalStart, emptyAnchorBlock)]]) := by
  rw [storeEmptyJournalAnchor,
    Effect.bind_of_ok (initializeJournalRegion_apply hsize), Disk.flush_apply,
    Disk.extend_extend]
  rfl

theorem publishRegion_apply {region : List UInt8}
    (hsize : sb.totalBlocks = d.size) :
    publishRegion sb region d =
      (.ok (), d.commit (publishEpochs sb region)) := by
  have hlayout := sb.layout
  have htail : ∀ (e : Disk), e.size = d.size → ∀ w ∈ regionTail sb region,
      w.1 < e.size := by
    intro e he w hw
    obtain ⟨i, _, hi, rfl⟩ := mem_regionTail.mp hw
    simp only [regionBlock]
    omega
  have hfirst : ∀ (e : Disk), e.size = d.size →
      ∀ w ∈ [regionBlock sb region 0], w.1 < e.size := by
    intro e he w hw
    rw [List.mem_singleton.mp hw]
    simp only [regionBlock]
    omega
  rw [publishRegion, Effect.bind_of_ok (storeEmptyJournalAnchor_apply hsize)]
  by_cases hone : sb.journalBlocks > 1
  · have hflush : ∀ e : Disk, flushIf (sb.journalBlocks > 1) e =
        (.ok (), e.extend [.flush]) := by
      intro e
      rw [flushIf, if_pos hone]
      rfl
    rw [Effect.bind_of_ok (Disk.writeBlocks_apply (htail _ (by rfl))),
      Effect.bind_of_ok (hflush _),
      Disk.writeBlocks_flush_apply (hfirst _ (by rfl)),
      Disk.extend_extend, publishEpochs, if_pos hone]
    simp [Disk.commit, barriers, epoch]
  · have hflush : ∀ e : Disk, flushIf (sb.journalBlocks > 1) e =
        (.ok (), e) := by
      intro e
      rw [flushIf, if_neg hone]
      rfl
    have hnil : regionTail sb region = [] := by
      rw [regionTail, show sb.journalBlocks - 1 = 0 by omega]
      rfl
    rw [Effect.bind_of_ok (Disk.writeBlocks_apply (htail _ (by rfl))),
      Effect.bind_of_ok (hflush _),
      Disk.writeBlocks_flush_apply (hfirst _ (by rfl)), hnil, publishEpochs, if_neg hone]
    simp [Disk.commit, barriers, epoch]

/-- The epochs of `store_journal_image` on a stream that passes its checks. -/
def storeEpochs (sb : Superblock) (entries : List JournalEntry) :
    List (List (Nat × Block)) :=
  if entries = [] then [[(sb.journalStart, emptyAnchorBlock)]]
  else publishEpochs sb
    (activeRegion (sb.journalBlocks * BLOCK_SIZE) (stream entries))

/-- The stream fits a version-2 image of the reservation. -/
def RegionFits (sb : Superblock) (entries : List JournalEntry) : Prop :=
  sb.journalBlocks * BLOCK_SIZE < U64_LIMIT ∧
    32 + (stream entries).length ≤ sb.journalBlocks * BLOCK_SIZE

/-- `store_journal_image` accepts the stream on this disk. -/
structure StoreAccepts (sb : Superblock) (d : Disk)
    (entries : List JournalEntry) : Prop where
  size : sb.totalBlocks = d.size
  valid : validateEntries sb entries = .ok ()
  vacant : journalOf sb d.blocks = .ok []
  fits : entries ≠ [] → RegionFits sb entries

/-- `store_journal_image` publishes a stream that it accepts, and leaves the
device alone otherwise. -/
theorem storeJournalImage_cases (sb : Superblock) (d : Disk)
    (entries : List JournalEntry) :
    (¬ StoreAccepts sb d entries ∧
      ∃ e, storeJournalImage sb entries d = (.error e, d)) ∨
      StoreAccepts sb d entries ∧ storeJournalImage sb entries d =
        (.ok (), d.commit (storeEpochs sb entries)) := by
  simp only [storeJournalImage, Effect.query_bind, Effect.lift_bind]
  split
  case h_2 he =>
    refine .inl ⟨fun h => ?_, _, rfl⟩
    rw [validateRegion_of_size h.size] at he
    simp at he
  rename_i hregion
  have hsize : sb.totalBlocks = d.size := validateRegion_eq_ok.mp hregion
  split
  case h_2 he =>
    refine .inl ⟨fun h => ?_, _, rfl⟩
    rw [h.valid] at he
    simp at he
  rename_i hvalid
  rw [loadJournalImage_disk hsize]
  split
  case h_2 he =>
    refine .inl ⟨fun h => ?_, _, rfl⟩
    rw [h.vacant] at he
    simp at he
  rename_i current hload
  split
  case h_2 he =>
    refine .inl ⟨fun h => ?_, _, rfl⟩
    rw [h.vacant, Except.ok.injEq] at hload
    simp [← hload, rejectIf] at he
  rename_i hcurrent
  rw [rejectIf_eq_ok, not_not] at hcurrent
  subst hcurrent
  by_cases hempty : entries = []
  · refine .inr ⟨⟨hsize, hvalid, hload, fun h => absurd hempty h⟩, ?_⟩
    rw [if_pos hempty, storeEmptyJournalAnchor_apply hsize, storeEpochs,
      if_pos hempty]
  rw [if_neg hempty]
  simp only [encodeEntries_eq, Effect.lift_bind]
  split
  case h_2 he =>
    refine .inl ⟨fun h => ?_, _, rfl⟩
    rw [regionCapacity_eq_ok.mpr ⟨(h.fits hempty).1, rfl⟩] at he
    simp at he
  rename_i capacity hcap
  obtain ⟨hlt, rfl⟩ := regionCapacity_eq_ok.mp hcap
  split
  case h_2 he =>
    refine .inl ⟨fun h => ?_, _, rfl⟩
    have hfits := (h.fits hempty).2
    rw [checkedAdd, if_pos (by omega)] at he
    simp at he
  rename_i used hused
  rw [okOr_eq_ok, checkedAdd_eq_some] at hused
  obtain ⟨_, rfl⟩ := hused
  split
  case h_2 he =>
    refine .inl ⟨fun h => ?_, _, rfl⟩
    have hfits := (h.fits hempty).2
    rw [rejectIf_of_not (by omega)] at he
    simp at he
  rename_i hfit
  rw [rejectIf_eq_ok] at hfit
  refine .inr ⟨⟨hsize, hvalid, hload, fun _ => ⟨hlt, by omega⟩⟩, ?_⟩
  rw [publishRegion_apply hsize, storeEpochs, if_neg hempty]

/-! ## Version-3 snapshots -/

/-- The epochs of a version-3 publication. -/
def snapshotEpochs (sb : Superblock) (layout : V3BankLayout) (start : Nat)
    (payload : List UInt8) (anchorBlock : Block) :
    List (List (Nat × Block)) :=
  [bankWrites start layout payload, [(sb.journalStart, anchorBlock)]]

/-- The stream is complete and fits a bank. -/
def SnapshotFits (sb : Superblock) (layout : V3BankLayout)
    (entries : List JournalEntry) : Prop :=
  validateCompleteEntries sb entries = .ok () ∧
    (stream entries).length ≤ layout.capacity

instance (sb : Superblock) (layout : V3BankLayout)
    (entries : List JournalEntry) :
    Decidable (SnapshotFits sb layout entries) :=
  inferInstanceAs (Decidable (_ ∧ _))

theorem v3BankStart_of_le (sb : Superblock) (layout : V3BankLayout)
    {bank : Nat} (h : bank ≤ 1) :
    v3BankStart sb layout bank =
      .ok (sb.journalStart + (bank * layout.blocksPerBank + 1)) := by
  rw [v3BankStart, rejectIf_of_not (by omega)]
  rfl

/-- `publish_v3_snapshot` rejects a stream that does not fit before its first
write, and publishes every other one. -/
theorem publishV3Snapshot_cases {layout : V3BankLayout} {bank generation : Nat}
    (hsize : sb.totalBlocks = d.size) (hlayout : v3BankLayout sb = .ok layout)
    (hbank : bank ≤ 1) (hgen : generation ≠ 0) (hlt : generation < U64_LIMIT)
    (entries : List JournalEntry) :
    (¬ SnapshotFits sb layout entries ∧
      ∃ e, publishV3Snapshot sb layout bank generation entries d =
        (.error e, d)) ∨
      SnapshotFits sb layout entries ∧
        ∃ start anchorBlock, v3BankStart sb layout bank = .ok start ∧
          decodeV3Anchor anchorBlock =
            .ok (some ⟨bank, generation, (stream entries).length,
              crc32 (stream entries)⟩) ∧
          publishV3Snapshot sb layout bank generation entries d =
            (.ok (), d.commit (snapshotEpochs sb layout start (stream entries)
              anchorBlock)) := by
  simp only [publishV3Snapshot, Effect.lift_bind, encodeEntries_eq]
  split
  case h_2 e he =>
    refine .inl ⟨fun h => ?_, _, rfl⟩
    rw [h.1] at he
    simp at he
  rename_i hvalid
  split
  case h_2 e he =>
    refine .inl ⟨fun h => ?_, _, rfl⟩
    rw [rejectIf_of_not (by have := h.2; omega)] at he
    simp at he
  rename_i hfit
  rw [rejectIf_eq_ok] at hfit
  have hstart := v3BankStart_of_le sb layout hbank
  have hgeom := sb.layout
  have hrange := bank_range hlayout hstart
  generalize sb.journalStart + (bank * layout.blocksPerBank + 1) = start at *
  have hvalidAnchor : V3Anchor.Valid ⟨bank, generation,
      (stream entries).length, crc32 (stream entries)⟩ :=
    ⟨hbank, hgen, hlt, by simp only; omega⟩
  obtain ⟨anchorBlock, hencode, _, hdecode⟩ := encodeV3Anchor_spec hvalidAnchor
  simp only at hencode
  refine .inr ⟨⟨hvalid, by omega⟩, start, anchorBlock, hstart, hdecode, ?_⟩
  have hbankWrites : ∀ w ∈ bankWrites start layout (stream entries),
      w.1 < d.size := by
    intro w hw
    simp only [bankWrites, List.mem_map, List.mem_range] at hw
    obtain ⟨i, hi, rfl⟩ := hw
    simp only
    omega
  have hwrite : writeV3Bank sb layout bank (stream entries) d =
      writeBlocks (bankWrites start layout (stream entries)) d := by
    simp only [writeV3Bank, Effect.lift_bind, rejectIf_of_not hfit, hstart]
  rw [Disk.writeBlocks_apply hbankWrites] at hwrite
  have hanchor : ∀ w ∈ [(sb.journalStart, anchorBlock)], w.1 < d.size := by
    intro w hw
    rw [List.mem_singleton.mp hw]
    simp only
    omega
  rw [Effect.bind_of_ok hwrite, Effect.bind_of_ok (Disk.flush_apply _),
    Effect.lift_bind, hencode]
  simp only
  rw [Disk.writeBlocks_flush_apply (by exact hanchor), Disk.extend_extend, snapshotEpochs]
  simp [Disk.commit, barriers, epoch]

end Run

/-- The loader does not read bank `bank` of the contents `f`: the first block
is the empty anchor, or it names the other bank. -/
def Unreferenced (sb : Superblock) (f : Nat → Block) (bank : Nat) : Prop :=
  f sb.journalStart = emptyAnchorBlock ∨
    ∃ anchor, decodeV3Anchor (f sb.journalStart) = .ok (some anchor) ∧
      anchor.bank ≠ bank

/-- A bank that is not referenced may hold anything. -/
theorem journalOf_of_unreferenced {sb : Superblock} {f g : Nat → Block}
    {layout : V3BankLayout} {bank start : Nat} (h : Unreferenced sb f bank)
    (hlayout : v3BankLayout sb = .ok layout)
    (hstart : v3BankStart sb layout bank = .ok start)
    (hfirst : g sb.journalStart = f sb.journalStart)
    (hrest : ∀ b, b < start ∨ start + layout.blocksPerBank ≤ b → g b = f b) :
    journalOf sb g = journalOf sb f := by
  rcases h with hempty | ⟨anchor, hanchor, hne⟩
  · rw [journalOf_emptyAnchor hempty,
      journalOf_emptyAnchor (hfirst.trans hempty)]
  · have hanchor' : decodeV3Anchor (g sb.journalStart) = .ok (some anchor) := by
      rw [hfirst, hanchor]
    rw [journalOf_v3 hanchor hlayout, journalOf_v3 hanchor' hlayout]
    refine readV3Entries_congr fun start' hstart' b h1 h2 => ?_
    have hrange := bank_range hlayout hstart
    have hrange' := bank_range hlayout hstart'
    have hgeom := sb.layout
    have hout : b < start ∨ start + layout.blocksPerBank ≤ b := by
      -- the two banks are the two halves of the reservation behind the anchor
      obtain ⟨_, _, hs, hb, _⟩ := hrange
      obtain ⟨_, _, hs', hb', _⟩ := hrange'
      rcases Nat.le_one_iff_eq_zero_or_eq_one.mp hb with rfl | rfl
      · have hone : anchor.bank = 1 := by omega
        rw [hone] at hs'
        omega
      · have hzero : anchor.bank = 0 := by omega
        rw [hzero] at hs'
        omega
    rw [Disk.readBlock_of_lt (by rw [Disk.boot_size]; omega),
      Disk.readBlock_of_lt (by rw [Disk.boot_size]; omega), Disk.boot_blocks,
      Disk.boot_blocks, hrest b hout]

/-! ## What a power failure leaves -/

/-- The contents `img` after an attempt to replace the stream `old` of `f` by
`new`: nothing outside the reservation has changed, and the journal holds
either stream.  While it holds the old one, the first block is the old one or
the empty anchor. -/
structure Published (sb : Superblock) (f : Nat → Block)
    (old new : List JournalEntry) (img : Nat → Block) : Prop where
  home : ∀ b, ¬ sb.journalRange b → img b = f b
  stream : (img sb.journalStart = f sb.journalStart ∨
      img sb.journalStart = emptyAnchorBlock) ∧ journalOf sb img = .ok old ∨
    journalOf sb img = .ok new

theorem journalStart_mem (sb : Superblock) :
    sb.journalRange sb.journalStart := by
  have hlayout := sb.layout
  exact ⟨Nat.le_refl _, by omega⟩

theorem Published.refl {sb : Superblock} {f : Nat → Block}
    {old new : List JournalEntry} (h : journalOf sb f = .ok old) :
    Published sb f old new f :=
  ⟨fun _ _ => rfl, .inl ⟨.inl rfl, h⟩⟩

/-- An empty anchor over an empty journal. -/
theorem Published.emptyAnchor {sb : Superblock} {f img : Nat → Block}
    {new : List JournalEntry}
    (hhome : ∀ b, ¬ sb.journalRange b → img b = f b)
    (hfirst : img sb.journalStart = emptyAnchorBlock) :
    Published sb f [] new img :=
  ⟨hhome, .inl ⟨.inr hfirst, journalOf_emptyAnchor hfirst⟩⟩

theorem regionBlock_journalRange {sb : Superblock} {region : List UInt8}
    {i : Nat} (hi : i < sb.journalBlocks) :
    sb.journalRange (regionBlock sb region i).1 :=
  ⟨Nat.le_add_right _ _, Nat.add_lt_add_left hi _⟩

theorem nodup_regionTail (sb : Superblock) (region : List UInt8) :
    ((regionTail sb region).map Prod.fst).Nodup := by
  simp only [regionTail, List.map_map]
  refine (List.nodup_map_iff_inj_on ?_).mpr ?_
  · exact List.nodup_reverse.mpr List.nodup_range'
  · intro i _ j _ hij
    simp only [Function.comp, regionBlock] at hij
    omega

/-- The contents after the tail of an image was written. -/
theorem overlay_regionTail {sb : Superblock} {region : List UInt8}
    {f : Nat → Block} {i : Nat} (h1 : 1 ≤ i) (h2 : i < sb.journalBlocks) :
    overlay f (regionTail sb region) (sb.journalStart + i) =
      Block.ofImage region i :=
  overlay_of_nodup (nodup_regionTail sb region)
    (mem_regionTail.mpr ⟨i, h1, h2, rfl⟩)

theorem journalStart_notMem_regionTail {sb : Superblock}
    {region : List UInt8} :
    sb.journalStart ∉ (regionTail sb region).map Prod.fst := by
  intro hmem
  obtain ⟨w, hw, heq⟩ := List.mem_map.mp hmem
  obtain ⟨i, h1, _, rfl⟩ := mem_regionTail.mp hw
  simp only [regionBlock] at heq
  omega

/-- Every epoch of a version-2 publication writes the reservation. -/
theorem journalRange_of_mem_publishEpochs {sb : Superblock}
    {region : List UInt8} {ws : List (Nat × Block)}
    (hws : ws ∈ publishEpochs sb region) {w : Nat × Block} (hw : w ∈ ws) :
    sb.journalRange w.1 := by
  have hlayout := sb.layout
  simp only [publishEpochs, List.cons_append, List.nil_append,
    List.mem_cons, List.mem_append, List.not_mem_nil, or_false] at hws
  rcases hws with rfl | hws | rfl
  · rw [List.mem_singleton.mp hw]
    exact journalStart_mem sb
  · split at hws
    · rw [List.mem_singleton.mp hws] at hw
      obtain ⟨i, _, hi, rfl⟩ := mem_regionTail.mp hw
      exact regionBlock_journalRange hi
    · simp at hws
  · rw [List.mem_singleton.mp hw]
    exact regionBlock_journalRange (by omega)

theorem home_of_crash {sb : Superblock} {f img : Nat → Block}
    {eps : List (List (Nat × Block))}
    (hrange : ∀ ws ∈ eps, ∀ w ∈ ws, sb.journalRange w.1)
    (h : CrashImage f (barriers eps) img) {b : Nat}
    (hb : ¬ sb.journalRange b) : img b = f b := by
  refine crashImage_of_notMem h fun ws hws hmem => hb ?_
  obtain ⟨w, hw, rfl⟩ := List.mem_map.mp hmem
  exact hrange ws hws w hw

/-- The contents while a version-2 image waits for its first block. -/
def staged (sb : Superblock) (f : Nat → Block) (region : List UInt8) :
    Nat → Block :=
  overlay (Function.update f sb.journalStart emptyAnchorBlock)
    (regionTail sb region)

theorem staged_journalStart (sb : Superblock) (f : Nat → Block)
    (region : List UInt8) :
    staged sb f region sb.journalStart = emptyAnchorBlock := by
  rw [staged, overlay_of_notMem journalStart_notMem_regionTail,
    Function.update_self]

/-- The first block publishes the staged image. -/
theorem journalOf_staged {sb : Superblock} {f : Nat → Block}
    {entries : List JournalEntry} (hne : entries ≠ [])
    (hvalid : validateEntries sb entries = .ok ())
    (hfits : RegionFits sb entries) {region : List UInt8}
    (hregion : region =
      activeRegion (sb.journalBlocks * BLOCK_SIZE) (stream entries)) :
    journalOf sb (Function.update (staged sb f region) sb.journalStart
      (Block.ofImage region 0)) = .ok entries := by
  subst hregion
  refine journalOf_activeRegion hne hvalid
    (regionCapacity_eq_ok.mpr ⟨hfits.1, rfl⟩) hfits.2 fun i hi => ?_
  by_cases hzero : i = 0
  · rw [hzero, Nat.add_zero, Function.update_self]
  · rw [Function.update_of_ne (by omega), staged,
      overlay_regionTail (by omega) hi]

/-- A one-block reservation has no tail. -/
theorem regionTail_eq_nil {sb : Superblock} (h : ¬ sb.journalBlocks > 1)
    (region : List UInt8) : regionTail sb region = [] := by
  rw [regionTail, show sb.journalBlocks - 1 = 0 by omega]
  rfl

theorem settle_publishEpochs (sb : Superblock) (f : Nat → Block)
    (region : List UInt8) :
    settle f (publishEpochs sb region) =
      Function.update (staged sb f region) sb.journalStart
        (Block.ofImage region 0) := by
  rw [publishEpochs]
  split
  · rw [settle]
    simp only [List.flatten_append, List.flatten_cons, List.flatten_nil,
      List.append_nil, overlay_append]
    rfl
  · rename_i hone
    rw [staged, regionTail_eq_nil hone]
    rfl

/-- **Version-2 publication is atomic.**  The empty anchor hides the tail while
it is written, and the first block publishes the whole image at once. -/
theorem published_of_crash_region {sb : Superblock} {f img : Nat → Block}
    {entries : List JournalEntry} (hne : entries ≠ [])
    (hvalid : validateEntries sb entries = .ok ())
    (hfits : RegionFits sb entries) (hold : journalOf sb f = .ok [])
    {region : List UInt8} (hregion : region =
      activeRegion (sb.journalBlocks * BLOCK_SIZE) (stream entries))
    (h : CrashImage f (barriers (publishEpochs sb region)) img) :
    Published sb f [] entries img := by
  have hhome : ∀ b, ¬ sb.journalRange b → img b = f b := fun b hb =>
    home_of_crash (fun ws hws w hw =>
      journalRange_of_mem_publishEpochs hws hw) h hb
  -- the last epoch flips the first block of the staged image
  have hlast : CrashImage (staged sb f region)
      (barriers [[regionBlock sb region 0]]) img →
      Published sb f [] entries img := by
    intro h
    have himg : img = staged sb f region ∨ img = Function.update
        (staged sb f region) sb.journalStart (Block.ofImage region 0) := by
      rcases crashImage_barriers_cons h with hmix | h
      · exact hmix.single
      · exact .inr (crashImage_barriers_nil h)
    rcases himg with rfl | himg
    · exact .emptyAnchor hhome (staged_journalStart sb f region)
    · refine ⟨hhome, .inr ?_⟩
      rw [himg, journalOf_staged hne hvalid hfits hregion]
  rw [publishEpochs] at h
  rcases crashImage_barriers_cons h with hmix | h
  · rcases hmix.single with rfl | himg
    · exact Published.refl hold
    · exact .emptyAnchor hhome (by rw [himg, Function.update_self])
  split at h
  · rcases crashImage_barriers_cons h with hmix | h
    · refine .emptyAnchor hhome ?_
      rw [hmix.eq_of_notMem journalStart_notMem_regionTail]
      simp
    · exact hlast h
  · rename_i hone
    refine hlast ?_
    rw [staged, regionTail_eq_nil hone]
    exact h

/-! ## Version-3 snapshots under a power failure -/

theorem mem_bankWrites {start : Nat} {layout : V3BankLayout}
    {payload : List UInt8} {w : Nat × Block} :
    w ∈ bankWrites start layout payload ↔
      ∃ i, i < layout.blocksPerBank ∧
        w = (start + i, Block.ofImage (bankImage layout payload) i) := by
  simp only [bankWrites, List.mem_map, List.mem_range]
  constructor
  · intro hfacts
    rcases hfacts with ⟨i, hi, rfl⟩
    exact ⟨i, hi, rfl⟩
  · intro hfacts
    rcases hfacts with ⟨i, hi, rfl⟩
    exact ⟨i, hi, rfl⟩

theorem notMem_bankWrites {start b : Nat} {layout : V3BankLayout}
    {payload : List UInt8} (h : b < start ∨ start + layout.blocksPerBank ≤ b) :
    b ∉ (bankWrites start layout payload).map Prod.fst := by
  intro hmem
  obtain ⟨w, hw, rfl⟩ := List.mem_map.mp hmem
  obtain ⟨i, hi, rfl⟩ := mem_bankWrites.mp hw
  simp only at h
  omega

theorem overlay_bankWrites {f : Nat → Block} {start i : Nat}
    {layout : V3BankLayout} {payload : List UInt8}
    (hi : i < layout.blocksPerBank) :
    overlay f (bankWrites start layout payload) (start + i) =
      Block.ofImage (bankImage layout payload) i := by
  refine overlay_of_nodup ?_ (mem_bankWrites.mpr ⟨i, hi, rfl⟩)
  simp only [bankWrites, List.map_map]
  refine (List.nodup_map_iff_inj_on List.nodup_range).mpr ?_
  intro i _ j _ hij
  simp only [Function.comp] at hij
  omega

theorem validate_of_complete {sb : Superblock} {entries : List JournalEntry}
    (h : validateCompleteEntries sb entries = .ok ()) :
    validateEntries sb entries = .ok () ∧ entries ≠ [] := by
  simp only [validateCompleteEntries, Except.bind_eq_ok, rejectIf_eq_ok] at h
  obtain ⟨_, hvalid, _, _, hcommits⟩ := h
  refine ⟨hvalid, ?_⟩
  intro heq
  subst heq
  exact hcommits rfl

/-- The parameters of a version-3 publication that passed its checks. -/
structure Snapshot (sb : Superblock) (entries : List JournalEntry)
    (layout : V3BankLayout) (bank start : Nat) (anchorBlock : Block) :
    Prop where
  layout_eq : v3BankLayout sb = .ok layout
  start_eq : v3BankStart sb layout bank = .ok start
  fits : SnapshotFits sb layout entries
  anchor_eq : ∃ generation, decodeV3Anchor anchorBlock = .ok (some ⟨bank,
    generation, (stream entries).length, crc32 (stream entries)⟩)

namespace Snapshot

variable {sb : Superblock} {entries : List JournalEntry}
  {layout : V3BankLayout} {bank start : Nat} {anchorBlock : Block}

/-- The anchor publishes the bank. -/
theorem journalOf_flip (h : Snapshot sb entries layout bank start anchorBlock)
    (f : Nat → Block) :
    journalOf sb (Function.update
      (overlay f (bankWrites start layout (stream entries))) sb.journalStart
        anchorBlock) = .ok entries := by
  obtain ⟨generation, hanchor⟩ := h.anchor_eq
  obtain ⟨hvalid, hne⟩ := validate_of_complete h.fits.1
  have hrange := bank_range h.layout_eq h.start_eq
  rw [journalOf_v3 (by rw [Function.update_self]; exact hanchor) h.layout_eq]
  refine readV3Entries_bank hne hvalid h.layout_eq h.start_eq rfl rfl h.fits.2
    fun i hi => ?_
  rw [Function.update_of_ne (by omega), overlay_bankWrites hi]

theorem journalRange_of_mem
    (h : Snapshot sb entries layout bank start anchorBlock)
    {ws : List (Nat × Block)} (hws : ws ∈ snapshotEpochs sb layout start
      (stream entries) anchorBlock) {w : Nat × Block} (hw : w ∈ ws) :
    sb.journalRange w.1 := by
  have hrange := bank_range h.layout_eq h.start_eq
  simp only [snapshotEpochs, List.mem_cons, List.not_mem_nil, or_false] at hws
  rcases hws with rfl | rfl
  · obtain ⟨i, hi, rfl⟩ := mem_bankWrites.mp hw
    constructor
    · simp only
      omega
    · simp only
      omega
  · rw [List.mem_singleton.mp hw]
    exact journalStart_mem sb

/-- **Version-3 publication is atomic** over contents whose loader does not
read the bank that is written. -/
theorem published_of_crash
    (h : Snapshot sb entries layout bank start anchorBlock)
    {f img : Nat → Block} {old : List JournalEntry}
    (hold : journalOf sb f = .ok old) (hfree : Unreferenced sb f bank)
    (hc : CrashImage f (barriers (snapshotEpochs sb layout start
      (stream entries) anchorBlock)) img) :
    Published sb f old entries img := by
  have hhome : ∀ b, ¬ sb.journalRange b → img b = f b := fun b hb =>
    home_of_crash (fun ws hws w hw => h.journalRange_of_mem hws hw) hc hb
  have hrange := bank_range h.layout_eq h.start_eq
  have hfirst : sb.journalStart ∉
      (bankWrites start layout (stream entries)).map Prod.fst :=
    notMem_bankWrites (.inl hrange.1)
  -- while only the bank is written, the old stream stays in place
  have hstay : ∀ g, Mixed f (bankWrites start layout (stream entries)) g →
      g sb.journalStart = f sb.journalStart ∧ journalOf sb g = .ok old := by
    intro g hg
    have hg' := hg.eq_of_notMem hfirst
    refine ⟨hg', ?_⟩
    rw [← hold]
    exact journalOf_of_unreferenced hfree h.layout_eq h.start_eq hg'
      fun b hb => hg.eq_of_notMem (notMem_bankWrites hb)
  rw [snapshotEpochs] at hc
  rcases crashImage_barriers_cons hc with hmix | hc
  · obtain ⟨heq, hload⟩ := hstay img hmix
    exact ⟨hhome, .inl ⟨.inl heq, hload⟩⟩
  have hflip : img = overlay f (bankWrites start layout (stream entries)) ∨
      img = Function.update
        (overlay f (bankWrites start layout (stream entries))) sb.journalStart
          anchorBlock := by
    rcases crashImage_barriers_cons hc with hmix | hc
    · exact hmix.single
    · exact .inr (crashImage_barriers_nil hc)
  rcases hflip with himg | himg
  · obtain ⟨heq, hload⟩ := hstay img (by rw [himg]; exact mixed_overlay _ _)
    exact ⟨hhome, .inl ⟨.inl heq, hload⟩⟩
  · exact ⟨hhome, .inr (by rw [himg, h.journalOf_flip])⟩

end Snapshot

end FilesystemLab
