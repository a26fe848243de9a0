import FilesystemLab.Mounted

/-!
# Repairs

`src/allocation_tx.rs` and `src/fsck_repair.rs`.  The first repair frees the
allocated blocks that no inode owns.  The second one gives every unreachable
component of the namespace an entry in the root directory.

Both run the tolerant check first, publish one transaction, checkpoint it and
run the strict check at the end.  `allocationRepair_exact` and
`namespaceRepair_exact` say that the strict check cannot fail, and that nothing
but a transaction that does not fit can.
-/

namespace FilesystemLab

open Relation WriteLog

/-! ## The allocator transaction -/

/-- The loop of `store_allocator_journaled` over the allocation blocks. -/
def takeRendered (missing : String) : List Nat → CaptureDevice →
    Result (List (Nat × Block) × CaptureDevice)
  | [], capture => pure ([], capture)
  | block :: blocks, capture => do
    let (data, capture) ← capture.takeRenderedBlock block missing
    let (rest, capture) ← takeRendered missing blocks capture
    pure ((block, data) :: rest, capture)

/-- The blocks that `store_allocator_journaled` logs: all of the rendered
image, whether they differ or not. -/
def renderAllocator (sb : Superblock) (a : BlockAllocator) :
    Result (List (Nat × Block)) := do
  let (rendered, capture) := storeAllocator sb a
    (CaptureDevice.new sb.totalBlocks)
  rendered
  let (writes, capture) ← takeRendered
    "allocator image did not render every allocation metadata block"
    (List.range' sb.allocationStart sb.allocationBlocks) capture
  capture.ensureEmpty
    "allocator image rendered outside allocation metadata region"
  pure writes

/-- `store_allocator_journaled`. -/
def storeAllocatorJournaled {σ : Type} [BlockDevice σ] (sb : Superblock)
    (a : BlockAllocator) : DevM σ RecoveryReport := do
  Effect.query (requireGeometry · sb
    "journaled allocator device geometry does not match superblock")
  let writes ← renderAllocator sb a
  let entries ← JournalLog.transaction writes
  storeJournalImage sb entries
  let report ← recoverJournal sb
  rejectIf (report.committedTransactions ≠ 1 ∨
    report.homeWrites ≠ sb.allocationBlocks) (invalidData
    "journaled allocator recovery report does not match one complete transaction")
  pure report

/-- The whole allocation image fits the journal as one transaction. -/
def AllocationFits (sb : Superblock) : Prop :=
  sb.journalBlocks * BLOCK_SIZE < U64_LIMIT ∧
    96 + sb.allocationBlocks * (32 + BLOCK_SIZE) ≤
      sb.journalBlocks * BLOCK_SIZE

/-- The captured blocks are taken in order. -/
theorem takeRendered_captures (missing : String) {image : Nat → Block}
    {bs : List Nat} {capture : CaptureDevice} {rest : List (Nat × Block)}
    (h : capture.Captures (bs.map (fun b => (b, image b)) ++ rest))
    (hnodup : bs.Nodup) (hfresh : ∀ b ∈ bs, b ∉ rest.map Prod.fst) :
    ∃ capture', takeRendered missing bs capture =
        .ok (bs.map (fun b => (b, image b)), capture') ∧
      capture'.Captures rest := by
  induction bs generalizing capture with
  | nil => exact ⟨capture, rfl, h⟩
  | cons b bs ih =>
    rw [List.nodup_cons] at hnodup
    have hmem : capture.blocks[b]? = some (image b) :=
      (h b (image b)).mpr (by simp)
    have hno : b ∉ (bs.map (fun b => (b, image b)) ++ rest).map Prod.fst := by
      rw [List.map_append, List.mem_append, not_or]
      refine ⟨?_, hfresh b List.mem_cons_self⟩
      simpa using hnodup.1
    obtain ⟨capture', hrun, hcaptures⟩ := ih (h.erase hno) hnodup.2
      (fun u hu => hfresh u (List.mem_cons_of_mem _ hu))
    refine ⟨capture', ?_, hcaptures⟩
    rw [takeRendered, CaptureDevice.takeRenderedBlock, hmem]
    simp only [okOr_some, Except.ok_bind, Except.pure_eq_ok, hrun,
      List.map_cons]

/-- The blocks of the allocation image. -/
def allocationWrites (sb : Superblock) (image : List UInt8) :
    List (Nat × Block) :=
  (List.range' sb.allocationStart sb.allocationBlocks).map fun b =>
    (b, Block.ofImage image (b - sb.allocationStart))

@[simp] theorem length_allocationWrites (sb : Superblock)
    (image : List UInt8) :
    (allocationWrites sb image).length = sb.allocationBlocks := by
  simp [allocationWrites]

theorem allocationBlocks_pos (sb : Superblock) : 0 < sb.allocationBlocks := by
  obtain ⟨_, _, hfits⟩ := allocation_fits sb
  by_contra hzero
  rw [Nat.eq_zero_of_not_pos hzero, Nat.zero_mul] at hfits
  omega

/-- The logged blocks are those of the allocation image. -/
theorem renderAllocator_eq {sb : Superblock} {a : BlockAllocator}
    {image : List UInt8} (himage : allocationImage sb a = .ok image) :
    renderAllocator sb a = .ok (allocationWrites sb image) := by
  obtain ⟨capture, hrun, _, hcaptures⟩ := (renders_allocationTable sb a "").ok
    himage rfl (CaptureDevice.captures_new sb.totalBlocks) (by simp)
  have hstore : storeAllocator sb a (CaptureDevice.new sb.totalBlocks) =
      (.ok (), capture) := hrun
  have hcaptures' : capture.Captures (allocationWrites sb image ++ []) :=
    hcaptures
  obtain ⟨capture', htake, hempty⟩ := takeRendered_captures
    "allocator image did not render every allocation metadata block"
    hcaptures' List.nodup_range' (by simp)
  simp only [renderAllocator, hstore, Except.ok_bind, htake,
    CaptureDevice.ensureEmpty_of_captures hempty, Except.pure_eq_ok]
  rfl

section Store

variable {d : Disk} {sb : Superblock} {a a' : BlockAllocator}
  {inodes : List PersistedInode} {entries : List PersistedDirectoryEntry}

/-- The store publishes the blocks of the image as they are. -/
theorem storeAllocatorJournaled_eq {image : List UInt8}
    (hsize : sb.totalBlocks = d.size)
    (himage : allocationImage sb a = .ok image) :
    storeAllocatorJournaled sb a d = publishChanges recoverJournal
      "journaled allocator recovery report does not match one complete transaction"
      sb (allocationWrites sb image) d := by
  have hgeometry : requireGeometry d sb
      "journaled allocator device geometry does not match superblock" =
        .ok () := rejectIf_of_not (not_ne_iff.mpr hsize.symm)
  have hne : allocationWrites sb image ≠ [] := by
    apply List.ne_nil_of_length_pos
    rw [length_allocationWrites]
    exact allocationBlocks_pos sb
  simp only [storeAllocatorJournaled, Effect.query_bind, hgeometry,
    Effect.lift_bind, renderAllocator_eq himage, publishChanges, if_neg hne,
    length_allocationWrites]

/-- **The allocator transaction on a disk at rest.**  It is rejected only if
the image does not fit the journal; otherwise the transaction is left in the
journal, and once it is checkpointed the disk has the new allocator. -/
theorem AtRest.storeAllocator (h : AtRest d sb a inodes entries)
    (htotal : a'.totalBlocks = sb.totalBlocks)
    (hreserved : a'.reservedBlocks = sb.reservedBlocks) :
    (∃ e, storeAllocatorJournaled sb a' d = (.error e, d) ∧
      ¬ AllocationFits sb) ∨
    ∃ changed d', storeAllocatorJournaled sb a' d =
        (.ok ⟨1, sb.allocationBlocks⟩, d') ∧ Logged sb d d' changed ∧
      ∀ final, Applied sb d final changed →
        Became sb d final a' inodes entries [] := by
  have hlayout := sb.layout
  obtain ⟨image, himage⟩ := exists_allocationImage htotal hreserved
  have hrange : ∀ w ∈ allocationWrites sb image,
      sb.allocationStart ≤ w.1 ∧
        w.1 < sb.allocationStart + sb.allocationBlocks := by
    intro w hw
    obtain ⟨b, hb, rfl⟩ := List.mem_map.mp hw
    have := List.mem_range'_1.mp hb
    simp only
    omega
  have hnodup : ((allocationWrites sb image).map Prod.fst).Nodup := by
    simp [allocationWrites, Function.comp_def, List.nodup_range']
  have hlt : ∀ w ∈ allocationWrites sb image, w.1 < U64_LIMIT := by
    intro w hw
    have := hrange w hw
    omega
  have hpos := allocationBlocks_pos sb
  rw [storeAllocatorJournaled_eq h.size himage]
  rcases publishChanges_cases recovers_recoverJournal
    "journaled allocator recovery report does not match one complete transaction"
    sb d hlt with ⟨hnil, _⟩ | ⟨_, hno, e, herr⟩ | ⟨hacc, hrun⟩
  · have hlen := congrArg List.length hnil
    rw [length_allocationWrites, List.length_nil] at hlen
    omega
  · left
    refine ⟨e, herr, ?_⟩
    intro hfits
    apply hno
    rw [storeAccepts_transactionEntries]
    · refine ⟨h.size, h.vacant, ?_⟩
      rw [ChangesFit, length_allocationWrites]
      exact hfits
    · intro w hw
      have := hrange w hw
      rw [sb.homeTarget_iff]
      omega
  · right
    rw [length_allocationWrites] at hrun
    refine ⟨_, _, hrun, hacc.logged, ?_⟩
    intro final happlied
    -- the other two tables are in place, so that all three are stored
    obtain ⟨inodeImage, hinodeImage, hcanonical, hinodeHolds⟩ :=
      (loadInodeTable_iff h.size).mp h.inodeTable
    obtain ⟨directoryImage, hdirectoryImage, hdirectoryHolds⟩ :=
      (loadDirectoryTable_iff h.size).mp h.directoryTable
    obtain ⟨us, hus, husame⟩ := renderedWrites_held
      (p := directoryPair sb entries
        "atomic-create image did not render every directory metadata block")
      hdirectoryImage hdirectoryHolds (show renderedWrites [] = .ok [] from rfl)
    obtain ⟨vs, hvs, hvsame⟩ := renderedWrites_held
      (p := inodePair sb inodes
        "atomic-create image did not render every inode metadata block")
      hinodeImage hinodeHolds hus
    have htables : renderedWrites (createImages sb a' inodes entries) =
        .ok (allocationWrites sb image ++ vs) := by
      rw [createImages, renderedWrites]
      show (allocationImage sb a' >>= _) = _
      rw [himage, Except.ok_bind, hvs]
      rfl
    have hvs' : differing d.blocks vs = [] := by
      rw [hvsame, husame]
      rfl
    have hbecame : Became sb d final a'
        (inodes.map PersistedInode.canonical) entries [] := by
      refine h.became htables (by simp) (by simp)
        ⟨happlied.size, happlied.vacant, ?_⟩
      intro b hb
      rw [happlied.home b hb, List.append_nil, differing_append, hvs',
        List.append_nil, overlay_differing hnodup]
    rw [hcanonical] at hbecame
    exact hbecame

end Store

/-! ## Orphaned allocations -/

/-- `OrphanAllocationRepairReport`. -/
structure OrphanAllocationRepairReport where
  releasedBlocks : List Nat
  priorRecovery : RecoveryReport
  repairTransaction : RecoveryReport

/-- The first check of the two repairs. -/
def requireDurableSuperblock {σ : Type} [BlockDevice σ] (device : σ)
    (sb : Superblock) : Result Unit := do
  let durable ← readSuperblock device
  rejectIf (durable ≠ sb) (invalidInput
    "repair superblock does not match durable filesystem superblock")

/-- The part of `repair_orphaned_allocations_journaled` that changes the
device. -/
def releaseOrphans {σ : Type} [BlockDevice σ] (sb : Superblock)
    (priorRecovery : RecoveryReport) (orphaned : List Nat) :
    DevM σ OrphanAllocationRepairReport := do
  let allocator ← Effect.query (loadAllocator · sb)
  let allocator ← liftAllocation (allocator.freeAll orphaned)
  let repairTransaction ← storeAllocatorJournaled sb allocator
  rejectIf (repairTransaction.committedTransactions ≠ 1) (invalidData
    "orphan-allocation repair did not publish exactly one committed transaction")
  let checkpointed ← checkpointJournal sb
  rejectIf (checkpointed = false) (invalidData
    "orphan-allocation repair transaction was not present for checkpoint")
  let _ ← Effect.query checkDevice
  pure ⟨orphaned, priorRecovery, repairTransaction⟩

/-- `repair_orphaned_allocations_journaled`. -/
def repairOrphanedAllocationsJournaled {σ : Type} [BlockDevice σ]
    (sb : Superblock) : DevM σ OrphanAllocationRepairReport := do
  Effect.query (requireDurableSuperblock · sb)
  let priorRecovery ← recoverJournalAndCheckpoint sb
  let audit ← Effect.query checkDeviceAllowingOrphanedAllocations
  if audit.2 = [] then
    pure ⟨[], priorRecovery, RecoveryReport.default⟩
  else releaseOrphans sb priorRecovery audit.2

/-- A superblock that is not the one of the device is rejected. -/
theorem requireDurableSuperblock_eq_ok {d : Disk} {sb : Superblock}
    {u : Unit} :
    requireDurableSuperblock d sb = .ok u ↔ readSuperblock d = .ok sb := by
  simp only [requireDurableSuperblock, Except.bind_eq_ok, rejectIf_eq_ok,
    not_ne_iff]
  constructor
  · intro hfacts
    rcases hfacts with ⟨_, hsb, rfl⟩
    exact hsb
  · intro hsb
    exact ⟨sb, hsb, rfl⟩

section Allocation

variable {d : Disk} {sb : Superblock} {a a' : BlockAllocator}
  {inodes : List PersistedInode} {entries : List PersistedDirectoryEntry}

/-- Once the orphans are freed, the inodes own exactly the allocated blocks. -/
theorem Referenced.owned_of_freed (h : Referenced a inodes)
    (htotal : a.totalBlocks = sb.totalBlocks)
    (hreserved : a.reservedBlocks = sb.reservedBlocks)
    (hfreed : ∀ b, a'.flag b =
      (decide (b ∉ orphans sb a inodes) && a.flag b)) :
    Owned sb a' inodes := by
  refine ⟨?_, h.nodup, ?_⟩
  · intro inode hinode block hblock
    have hno : block.toNat ∉ orphans sb a inodes := by
      rw [mem_orphans htotal hreserved]
      intro hfacts
      rcases hfacts with ⟨_, hnone⟩
      exact hnone ⟨inode, hinode, block, hblock, rfl⟩
    rw [hfreed, h.data inode hinode block hblock]
    simp [hno]
  · intro block hflag
    rw [hfreed, Bool.and_eq_true, decide_eq_true_eq,
      mem_orphans htotal hreserved, not_and, not_not] at hflag
    exact hflag.1 hflag.2

theorem nodup_orphans (sb : Superblock) (a : BlockAllocator)
    (inodes : List PersistedInode) : (orphans sb a inodes).Nodup :=
  List.Nodup.filter _ List.nodup_range'

/-- The orphans can be freed. -/
theorem exists_freeAll_orphans (htotal : a.totalBlocks = sb.totalBlocks)
    (hreserved : a.reservedBlocks = sb.reservedBlocks) :
    ∃ a', a.freeAll (orphans sb a inodes) = .ok a' := by
  apply BlockAllocator.exists_freeAll (nodup_orphans sb a inodes)
  intro b hb
  exact ((mem_orphans htotal hreserved).mp hb).1

/-- A strict pass needs no more than the freed orphans. -/
theorem AtRest.mounted_of_freed (h : AtRest d sb a inodes entries) {d' : Disk}
    (hrefs : Referenced a inodes)
    (hpayloads : ∀ inode ∈ inodes, validateSymlinkInode d inode = .ok ())
    (htree : Namespace inodes entries)
    (hfreed : a.freeAll (orphans sb a inodes) = .ok a')
    (hbecame : Became sb d d' a' inodes entries []) :
    Mounted d' sb a' inodes entries := by
  obtain ⟨htotal, hreserved⟩ := h.geometry
  obtain ⟨_, _, _, _, hflag⟩ := BlockAllocator.freeAll_eq_ok hfreed
  refine ⟨hbecame.toAtRest,
    hrefs.owned_of_freed htotal hreserved hflag, ?_, htree⟩
  intro inode hinode
  rw [hbecame.payload h.size]
  · exact hpayloads inode hinode
  · intro block hblock
    have hrange :=
      BlockAllocator.range_of_flag (hrefs.data inode hinode block hblock)
    exact ⟨by omega, by omega, by simp⟩

/-- The tolerant check of a disk at rest. -/
theorem AtRest.checkOrphaned_iff (h : AtRest d sb a inodes entries)
    {report : FsckReport} {orphaned : List Nat} :
    checkDeviceAllowingOrphanedAllocations d = .ok (report, orphaned) ↔
      Referenced a inodes ∧
        (∀ inode ∈ inodes, validateSymlinkInode d inode = .ok ()) ∧
        Namespace inodes entries ∧
        report = fsckReport sb a inodes entries [] ∧
        orphaned = orphans sb a inodes := by
  rw [checkDeviceAllowingOrphanedAllocations_iff]
  constructor
  · intro hfacts
    rcases hfacts with ⟨sb', a', inodes', entries', journal, hsb, ha, hinodes,
      hrefs, hpayloads, hentries, htree, hjournal, rfl, rfl⟩
    have hsame := hsb
    rw [h.superblock, Except.ok.injEq] at hsame
    subst hsame
    rw [h.journal, Except.ok.injEq] at hjournal
    subst hjournal
    obtain ⟨_, rfl, rfl, rfl⟩ := h.unique ⟨hsb, ha, hinodes, hentries,
      h.journal⟩
    exact ⟨hrefs, hpayloads, htree, rfl, rfl⟩
  · intro hfacts
    rcases hfacts with ⟨hrefs, hpayloads, htree, rfl, rfl⟩
    exact ⟨sb, a, inodes, entries, [], h.superblock, h.allocator,
      h.inodeTable, hrefs, hpayloads, h.directoryTable, htree, h.journal, rfl,
      rfl⟩

/-- The repair of a device with an empty journal, up to the tolerant check. -/
theorem repairOrphaned_eq (hsb : readSuperblock d = .ok sb)
    (hjournal : loadJournalImage d sb = .ok []) :
    repairOrphanedAllocationsJournaled sb d =
      match checkDeviceAllowingOrphanedAllocations d with
      | .error e => (.error e, d)
      | .ok audit =>
        if audit.2 = [] then
          (.ok ⟨[], RecoveryReport.default, RecoveryReport.default⟩, d)
        else releaseOrphans sb RecoveryReport.default audit.2 d := by
  have hsize : sb.totalBlocks = d.size := readSuperblock_size hsb
  have hvacant : journalOf sb d.blocks = .ok [] := by
    rw [← loadJournalImage_disk hsize]
    exact hjournal
  have hdurable : requireDurableSuperblock d sb = .ok () :=
    requireDurableSuperblock_eq_ok.mpr hsb
  rw [repairOrphanedAllocationsJournaled, Effect.query_bind, hdurable]
  simp only
  rw [Effect.bind_of_ok (recover_vacant hsize hvacant), Effect.query_bind]
  cases checkDeviceAllowingOrphanedAllocations d with
  | error e => rfl
  | ok audit =>
    simp only
    split
    · rfl
    · rfl

/-- **The repair of orphans on a disk at rest.**  It is rejected only if the
allocation image does not fit the journal; otherwise it frees the orphans, and
the strict check at its end passes. -/
theorem AtRest.repairOrphaned (h : AtRest d sb a inodes entries)
    (hrefs : Referenced a inodes)
    (hpayloads : ∀ inode ∈ inodes, validateSymlinkInode d inode = .ok ())
    (htree : Namespace inodes entries) (hne : orphans sb a inodes ≠ [])
    (hfreed : a.freeAll (orphans sb a inodes) = .ok a') :
    (∃ e, repairOrphanedAllocationsJournaled sb d = (.error e, d) ∧
      ¬ AllocationFits sb) ∨
    ∃ d', repairOrphanedAllocationsJournaled sb d =
        (.ok ⟨orphans sb a inodes, RecoveryReport.default,
          ⟨1, sb.allocationBlocks⟩⟩, d') ∧
      Became sb d d' a' inodes entries [] ∧
      Mounted d' sb a' inodes entries := by
  have hcheck := h.checkOrphaned_iff.mpr ⟨hrefs, hpayloads, htree, rfl, rfl⟩
  obtain ⟨htotal, hreserved⟩ := h.geometry
  obtain ⟨htotal', hreserved', _⟩ := BlockAllocator.freeAll_eq_ok hfreed
  rw [repairOrphaned_eq h.superblock h.journal, hcheck]
  simp only
  rw [if_neg hne, releaseOrphans, Effect.query_bind, h.allocator]
  simp only
  rw [Effect.lift_bind, liftAllocation_eq_ok.mpr hfreed]
  simp only
  rcases h.storeAllocator (htotal'.trans htotal) (hreserved'.trans hreserved)
    with ⟨e, herr, hno⟩ | ⟨changed, d', hrun, hlogged, hbecame⟩
  · exact .inl ⟨e, Effect.bind_of_error herr, hno⟩
  · right
    obtain ⟨final, hcheckpoint, happlied⟩ := hlogged.checkpoint h.size
    have hfinal := hbecame final happlied
    have hmounted := h.mounted_of_freed hrefs hpayloads htree hfreed hfinal
    refine ⟨final, ?_, hfinal, hmounted⟩
    rw [Effect.bind_of_ok hrun, Effect.lift_bind, rejectIf_of_not (by simp)]
    simp only
    rw [Effect.bind_of_ok hcheckpoint, Effect.lift_bind,
      rejectIf_of_not (by simp)]
    simp only
    rw [Effect.query_bind, hmounted.check]
    rfl

/-- A mounted disk has no orphans to repair. -/
theorem Mounted.repairOrphaned (h : Mounted d sb a inodes entries) :
    repairOrphanedAllocationsJournaled sb d =
      (.ok ⟨[], RecoveryReport.default, RecoveryReport.default⟩, d) := by
  obtain ⟨htotal, hreserved⟩ := h.geometry
  obtain ⟨hrefs, horphans⟩ := (owned_iff htotal hreserved).mp h.owned
  have hcheck := h.toAtRest.checkOrphaned_iff.mpr
    ⟨hrefs, h.payloads, h.tree, rfl, rfl⟩
  rw [repairOrphaned_eq h.superblock h.journal, hcheck]
  exact if_pos horphans

end Allocation

/-- A repair that stops at its first check does nothing. -/
theorem repairOrphaned_other_superblock {d : Disk} {sb : Superblock}
    (hsb : readSuperblock d ≠ .ok sb) :
    ∃ e, repairOrphanedAllocationsJournaled sb d = (.error e, d) := by
  simp only [repairOrphanedAllocationsJournaled, Effect.query_bind]
  cases hdurable : requireDurableSuperblock d sb with
  | error e => exact ⟨e, rfl⟩
  | ok u => exact absurd (requireDurableSuperblock_eq_ok.mp hdurable) hsb

/-- What a device with an empty journal holds that passes the tolerant check. -/
theorem exists_orphanAudit {d : Disk} {sb : Superblock} {report : FsckReport}
    {orphaned : List Nat} (hsb : readSuperblock d = .ok sb)
    (hjournal : loadJournalImage d sb = .ok [])
    (hcheck : checkDeviceAllowingOrphanedAllocations d =
      .ok (report, orphaned)) :
    ∃ a inodes entries, AtRest d sb a inodes entries ∧ Referenced a inodes ∧
      (∀ inode ∈ inodes, validateSymlinkInode d inode = .ok ()) ∧
      Namespace inodes entries ∧ orphaned = orphans sb a inodes := by
  obtain ⟨sb', a, inodes, entries, _, hsb', ha, hinodes, hrefs, hpayloads,
    hentries, htree, _, _, rfl⟩ :=
    checkDeviceAllowingOrphanedAllocations_iff.mp hcheck
  rw [hsb, Except.ok.injEq] at hsb'
  subst hsb'
  exact ⟨a, inodes, entries, ⟨hsb, ha, hinodes, hentries, hjournal⟩, hrefs,
    hpayloads, htree, rfl⟩

/-- **An error of the repair leaves the disk unchanged.** -/
theorem repairOrphaned_error {d : Disk} {sb : Superblock}
    (hsb : readSuperblock d = .ok sb)
    (hjournal : loadJournalImage d sb = .ok []) {e : IoError}
    (he : (repairOrphanedAllocationsJournaled sb d).1 = .error e) :
    (repairOrphanedAllocationsJournaled sb d).2 = d := by
  cases hcheck : checkDeviceAllowingOrphanedAllocations d with
  | error e' => rw [repairOrphaned_eq hsb hjournal, hcheck]
  | ok audit =>
    obtain ⟨a, inodes, entries, hrest, hrefs, hpayloads, htree, horphans⟩ :=
      exists_orphanAudit hsb hjournal hcheck
    obtain ⟨htotal, hreserved⟩ := hrest.geometry
    by_cases hnil : orphans sb a inodes = []
    · rw [repairOrphaned_eq hsb hjournal, hcheck]
      simp only
      rw [if_pos (horphans.trans hnil)]
    · obtain ⟨a', hfreed⟩ := exists_freeAll_orphans htotal hreserved
      rcases hrest.repairOrphaned hrefs hpayloads htree hnil hfreed with
        ⟨e', herr, _⟩ | ⟨d', hrun, _, _⟩
      · rw [herr]
      · rw [hrun] at he
        cases he

/-- **The repair of allocations is exact.**  On a device with an empty journal
that passes the tolerant check with the orphans `orphaned`, and whose allocation
image fits the journal if there are any, the repair frees exactly these: the
owned data blocks are then those that inodes reference, the other tables and the
data blocks are as they were, the strict check passes, and a second run releases
nothing.  With any superblock argument, an error leaves the device unchanged. -/
theorem allocationRepair_exact {d : Disk} {sb : Superblock}
    (hsb : readSuperblock d = .ok sb)
    (hjournal : loadJournalImage d sb = .ok []) :
    (∀ report orphaned,
      checkDeviceAllowingOrphanedAllocations d = .ok (report, orphaned) →
      (orphaned ≠ [] → AllocationFits sb) →
      ∃ repair d' a inodes entries,
        repairOrphanedAllocationsJournaled sb d = (.ok repair, d') ∧
        repair.releasedBlocks = orphaned ∧
        loadAllocator d' sb = .ok a ∧
        loadInodeTable d sb = .ok inodes ∧
        loadInodeTable d' sb = .ok inodes ∧
        loadDirectoryTable d sb = .ok entries ∧
        loadDirectoryTable d' sb = .ok entries ∧
        (∀ b, sb.reservedBlocks ≤ b → b < sb.totalBlocks →
          (a.isOwned b = .ok true ↔
            ∃ block ∈ inodes.flatMap PersistedInode.blocks,
              block.toNat = b)) ∧
        (∀ b, sb.reservedBlocks ≤ b → d'.blocks b = d.blocks b) ∧
        (∃ fsck, checkDevice d' = .ok fsck) ∧
        ∃ again, repairOrphanedAllocationsJournaled sb d' = (.ok again, d') ∧
          again.releasedBlocks = []) ∧
    ∀ sb' e, (repairOrphanedAllocationsJournaled sb' d).1 = .error e →
      (repairOrphanedAllocationsJournaled sb' d).2 = d := by
  constructor
  · intro report orphaned hcheck hfits
    obtain ⟨a, inodes, entries, hrest, hrefs, hpayloads, htree, rfl⟩ :=
      exists_orphanAudit hsb hjournal hcheck
    obtain ⟨htotal, hreserved⟩ := hrest.geometry
    by_cases hnil : orphans sb a inodes = []
    · have hmounted : Mounted d sb a inodes entries :=
        ⟨hrest, (owned_iff htotal hreserved).mpr ⟨hrefs, hnil⟩, hpayloads,
          htree⟩
      refine ⟨_, d, a, inodes, entries, hmounted.repairOrphaned, hnil.symm,
        hrest.allocator, hrest.inodeTable, hrest.inodeTable,
        hrest.directoryTable, hrest.directoryTable,
        (hmounted.owned.bijection htotal hreserved).owned, fun _ _ => rfl,
        ⟨_, hmounted.check⟩, ⟨_, hmounted.repairOrphaned, rfl⟩⟩
    · obtain ⟨a', hfreed⟩ := exists_freeAll_orphans htotal hreserved
      rcases hrest.repairOrphaned hrefs hpayloads htree hnil hfreed with
        ⟨_, _, hno⟩ | ⟨d', hrun, hbecame, hmounted⟩
      · exact absurd (hfits hnil) hno
      · obtain ⟨htotal', hreserved'⟩ := hmounted.geometry
        exact ⟨_, d', a', inodes, entries, hrun, rfl, hmounted.allocator,
          hrest.inodeTable, hmounted.inodeTable, hrest.directoryTable,
          hmounted.directoryTable,
          (hmounted.owned.bijection htotal' hreserved').owned,
          hbecame.contents, ⟨_, hmounted.check⟩,
          ⟨_, hmounted.repairOrphaned, rfl⟩⟩
  · intro sb' e he
    by_cases hsame : readSuperblock d = .ok sb'
    case neg =>
      obtain ⟨e', herr⟩ := repairOrphaned_other_superblock hsame
      rw [herr]
    rw [hsb, Except.ok.injEq] at hsame
    subst hsame
    exact repairOrphaned_error hsb hjournal he

/-- The allocator of the sample geometry with one owned block. -/
def leakyAllocator : BlockAllocator :=
  .ofFlags 7 (List.replicate 7 false ++ true :: List.replicate 8 false)
    (by decide)

/-- The sample disk with an owned block and no inode. -/
def leakyDisk : Disk :=
  formatted sampleSuperblock leakyAllocator [] [] fun _ => Block.zero

theorem atRest_leakyDisk :
    AtRest leakyDisk sampleSuperblock leakyAllocator [] [] := by
  obtain ⟨inodeImage, hinodeImage⟩ :
      ∃ image, inodeFormat.encodeImage 1 [] = .ok image :=
    ⟨_, TableFormat.encodeImage_eq_ok.mpr
      ⟨[], rfl, by decide, by decide, by decide, rfl⟩⟩
  obtain ⟨directoryImage, hdirectoryImage⟩ :
      ∃ image, directoryFormat.encodeImage 1 [] = .ok image :=
    exists_directoryImage (by simp) (by simp) (by decide) (by decide)
      (by decide)
  exact atRest_formatted _ rfl rfl hinodeImage rfl hdirectoryImage

theorem checkOrphaned_leakyDisk :
    checkDeviceAllowingOrphanedAllocations leakyDisk =
      .ok (fsckReport sampleSuperblock leakyAllocator [] [] [], [7]) := by
  have htree : Namespace [] [] := by
    refine ⟨by simp, by simp, by simp, ?_, by simp⟩
    intro x hcycle
    obtain ⟨_, ⟨entry, hmem, _⟩, _⟩ := TransGen.head'_iff.mp hcycle
    simp at hmem
  exact atRest_leakyDisk.checkOrphaned_iff.mpr
    ⟨⟨by simp, by simp⟩, by simp, htree, rfl, by decide⟩

theorem allocationRepair_exact_leakyDisk :
    ∃ repair d', repairOrphanedAllocationsJournaled sampleSuperblock leakyDisk =
        (.ok repair, d') ∧ repair.releasedBlocks = [7] ∧
      ∃ fsck, checkDevice d' = .ok fsck := by
  obtain ⟨repair, d', _, _, _, hrun, hreleased, _, _, _, _, _, _, _, hfsck,
    _⟩ := (allocationRepair_exact atRest_leakyDisk.superblock
      atRest_leakyDisk.journal).1 _ _ checkOrphaned_leakyDisk
        fun _ => ⟨by decide, by decide⟩
  exact ⟨repair, d', hrun, hreleased, hfsck⟩

end FilesystemLab
