import FilesystemLab.CheckedRecovery
import FilesystemLab.TransactionImage

/-!
# Journaled stores of metadata snapshots

`src/inode_tx.rs`, `src/directory_tx.rs`, `src/metadata_tx.rs` and
`src/create_tx.rs`: the wanted tables become one journal transaction.  All of
them are `storeImagesJournaled` with their own tables and messages.

`storeImagesJournaled_cases` says what such a store does to a disk.  The blocks
that differ are looked for in the home locations only, so a store that finds no
difference returns without a look at the journal: `store_survives_iff` is the
exact condition under which what it acknowledged survives recovery.
-/

namespace FilesystemLab

open Bytes CaptureDevice WriteLog

/-! ## The tables -/

/-- The allocation image as a table of a transaction. -/
def allocationTable (sb : Superblock) (a : BlockAllocator) (missing : String) :
    TableImage :=
  ⟨storeAllocator sb a, sb.allocationStart, sb.allocationBlocks, missing⟩

/-- The inode table as a table of a transaction. -/
def inodeTable (sb : Superblock) (inodes : List PersistedInode)
    (missing : String) : TableImage :=
  ⟨storeInodeTable sb inodes, sb.inodeStart, sb.inodeBlocks, missing⟩

/-- The directory table as a table of a transaction. -/
def directoryTable (sb : Superblock) (entries : List PersistedDirectoryEntry)
    (missing : String) : TableImage :=
  ⟨storeDirectoryTable sb entries, sb.directoryStart, sb.directoryBlocks,
    missing⟩

/-- A table whose rendering writes its image as one region. -/
theorem TableImage.renders_of_region {sb : Superblock} {table : TableImage}
    {image : Result (List UInt8)} (overflow mismatch : String)
    (hfits : table.start + table.blocks ≤ sb.totalBlocks)
    (hrender : ∀ capture, capture.count = sb.totalBlocks →
      table.render capture = match image with
        | .ok bytes => (do
            writeRegion table.start table.blocks overflow mismatch bytes
            flush : DevM CaptureDevice Unit) capture
        | .error e => (.error e, capture))
    (hlen : ∀ bytes, image = .ok bytes →
      bytes.length = table.blocks * BLOCK_SIZE ∧
        table.blocks * BLOCK_SIZE < U64_LIMIT) :
    table.Renders sb image where
  fits := hfits
  ok := by
    intro bytes capture ws himage hcount hcaptures hbelow
    obtain ⟨hbytes, hlt⟩ := hlen bytes himage
    obtain ⟨capture', hrun, hcount', hcaptures'⟩ := writeBlocks_captures
      (regionWrites table.start table.blocks bytes) hcaptures (by
        intro v hv
        obtain ⟨i, hi, rfl⟩ := mem_regionWrites.mp hv
        simp only
        omega) (nodup_regionWrites _ _ _) (by
        intro v hv hmem
        obtain ⟨i, hi, rfl⟩ := mem_regionWrites.mp hv
        obtain ⟨w, hw, heq⟩ := List.mem_map.mp hmem
        have := hbelow w hw
        simp only at heq
        omega)
    refine ⟨capture', ?_, hcount'.trans hcount, ?_⟩
    · have hregion : writeRegion table.start table.blocks overflow mismatch
          bytes capture = (.ok (), capture') := by
        rw [writeRegion, Effect.lift_bind, regionLen_eq_ok.mpr ⟨hlt, rfl⟩]
        simp only
        rw [Effect.lift_bind, rejectIf_of_not (not_ne_iff.mpr hbytes)]
        exact hrun
      rw [hrender capture hcount, himage]
      simp only
      rw [Effect.bind_of_ok hregion]
      rfl
    · apply hcaptures'.of_mem_iff
      intro w
      rw [List.mem_append, List.mem_append, mem_regionWrites,
        TableImage.mem_writes]
  error := by
    intro e capture himage hcount
    rw [hrender capture hcount, himage]
    exact ⟨e, capture, rfl⟩

theorem renders_allocationTable (sb : Superblock) (a : BlockAllocator)
    (missing : String) :
    (allocationTable sb a missing).Renders sb (allocationImage sb a) := by
  have hlayout := sb.layout
  refine TableImage.renders_of_region ALLOCATION_OVERFLOW
    "allocation image has invalid region length" (by
      simp only [allocationTable]
      omega) ?_ ?_
  · intro capture hcount
    have hgeometry : validateDeviceGeometry capture sb = .ok () :=
      rejectIf_of_not (not_ne_iff.mpr hcount)
    simp only [allocationTable, storeAllocator]
    rw [Effect.query_bind, hgeometry]
    simp only
    rw [Effect.lift_bind]
    cases allocationImage sb a <;> rfl
  · intro bytes himage
    exact ⟨length_allocationImage himage, (allocation_fits sb).2.1⟩

theorem TableFormat.renders_store {ρ κ : Type} [DecidableEq κ]
    {F : TableFormat ρ κ} {normal : ρ → ρ} (law : F.Lawful normal)
    {sb : Superblock} {start blocks : Nat} (hne : blocks ≠ 0)
    (hfits : start + blocks ≤ sb.totalBlocks) (rs : List ρ)
    (missing : String) :
    TableImage.Renders sb ⟨F.store sb start blocks rs, start, blocks, missing⟩
      (F.encodeImage blocks rs) := by
  refine TableImage.renders_of_region (F.noun ++ " table byte size overflow")
    (F.noun ++ " table image has invalid region length") hfits ?_ ?_
  · intro capture hcount
    have hgeometry : F.validateGeometry capture sb start blocks = .ok () := by
      unfold validateGeometry
      rw [rejectIf_of_not (show ¬ blockCount capture ≠ sb.totalBlocks from
        not_ne_iff.mpr hcount), Except.ok_bind]
      exact rejectIf_of_not (by omega)
    simp only [store]
    rw [Effect.query_bind, hgeometry]
    simp only
    rw [Effect.lift_bind]
    cases F.encodeImage blocks rs <;> rfl
  · intro bytes himage
    obtain ⟨_, _, hlt, _⟩ := encodeImage_eq_ok.mp himage
    exact ⟨length_encodeImage law himage, hlt⟩

theorem renders_inodeTable (sb : Superblock) (inodes : List PersistedInode)
    (missing : String) :
    (inodeTable sb inodes missing).Renders sb
      (inodeFormat.encodeImage sb.inodeBlocks inodes) := by
  have hlayout := sb.layout
  exact TableFormat.renders_store inodeFormat_lawful (by omega) (by omega) _ _

theorem renders_directoryTable (sb : Superblock)
    (entries : List PersistedDirectoryEntry) (missing : String) :
    (directoryTable sb entries missing).Renders sb
      (directoryFormat.encodeImage sb.directoryBlocks entries) := by
  have hlayout := sb.layout
  exact TableFormat.renders_store directoryFormat_lawful (by omega) (by omega)
    _ _

/-! ## The stores -/

section Device

variable {σ : Type} [BlockDevice σ]

/-- The first check of the journaled stores. -/
def requireGeometry (device : σ) (sb : Superblock) (message : String) :
    Result Unit :=
  rejectIf (blockCount device ≠ sb.totalBlocks) (invalidInput message)

/-- The body of the journaled stores. -/
def storeImagesJournaled (geometry : String) (store : ImageStore)
    (recover : Superblock → DevM σ RecoveryReport) (mismatch : String)
    (sb : Superblock) : DevM σ RecoveryReport := do
  Effect.query (requireGeometry · sb geometry)
  let changed ← Effect.query (store.collect sb)
  publishChanges recover mismatch sb changed

/-- `store_directory_table_journaled`. -/
def storeDirectoryTableJournaled (sb : Superblock)
    (entries : List PersistedDirectoryEntry) : DevM σ RecoveryReport :=
  storeImagesJournaled
    "journaled directory-table device geometry does not match superblock"
    ⟨[directoryTable sb entries
      "directory-table image did not render every directory metadata block"],
      "directory-table image rendered outside directory metadata region"⟩
    recoverJournal
    "journaled directory-table recovery report does not match one complete transaction"
    sb

/-- `store_inode_table_journaled`. -/
def storeInodeTableJournaled (sb : Superblock) (inodes : List PersistedInode) :
    DevM σ RecoveryReport :=
  storeImagesJournaled
    "journaled inode-table device geometry does not match superblock"
    ⟨[inodeTable sb inodes
      "inode-table image did not render every inode metadata block"],
      "inode-table image rendered outside inode metadata region"⟩
    recoverJournal
    "journaled inode-table recovery report does not match one complete transaction"
    sb

/-- `store_inode_directory_tables_journaled`. -/
def storeInodeDirectoryTablesJournaled (sb : Superblock)
    (inodes : List PersistedInode) (entries : List PersistedDirectoryEntry) :
    DevM σ RecoveryReport :=
  storeImagesJournaled
    "journaled metadata device geometry does not match superblock"
    ⟨[inodeTable sb inodes
        "combined metadata image did not render every inode metadata block",
      directoryTable sb entries
        "combined metadata image did not render every directory metadata block"],
      "combined metadata image rendered outside inode and directory regions"⟩
    recoverJournal
    "combined metadata recovery report does not match one complete transaction"
    sb

/-- `store_create_metadata_journaled`. -/
def storeCreateMetadataJournaled (sb : Superblock) (a : BlockAllocator)
    (inodes : List PersistedInode) (entries : List PersistedDirectoryEntry) :
    DevM σ RecoveryReport :=
  storeImagesJournaled
    "atomic-create device geometry does not match superblock"
    ⟨[allocationTable sb a
        "atomic-create image did not render every allocation metadata block",
      inodeTable sb inodes
        "atomic-create image did not render every inode metadata block",
      directoryTable sb entries
        "atomic-create image did not render every directory metadata block"],
      "atomic-create image rendered outside allocation, inode, and directory regions"⟩
    recoverJournalAndCheckpoint
    "atomic-create recovery report does not match one complete transaction"
    sb

end Device

/-! ## What a store does to a disk -/

section Cases

variable {sb : Superblock} {ps : List (TableImage × Result (List UInt8))}
  {recover : Superblock → DevM Disk RecoveryReport}
  {tail : Superblock → List JournalEntry → RecoveryPlan →
    List (List (Nat × Block))}

/-- A store of the right geometry whose tables have an image publishes the
blocks that differ. -/
theorem storeImagesJournaled_eq (h : Renderings sb ps) {d : Disk}
    (hsize : sb.totalBlocks = d.size) {ws : List (Nat × Block)}
    (hws : renderedWrites ps = .ok ws)
    (geometry unexpected mismatch : String) :
    storeImagesJournaled geometry ⟨ps.map Prod.fst, unexpected⟩ recover
      mismatch sb d =
        publishChanges recover mismatch sb (differing d.blocks ws) d := by
  have hgeometry : requireGeometry d sb geometry = .ok () :=
    rejectIf_of_not (not_ne_iff.mpr hsize.symm)
  rw [storeImagesJournaled, Effect.query_bind, hgeometry]
  simp only
  rw [Effect.query_bind, (ImageStore.collect_eq h hsize unexpected).1 ws hws]

/-- A store that finds its tables in place does nothing. -/
theorem storeImagesJournaled_same (h : Renderings sb ps) {d : Disk}
    (hsize : sb.totalBlocks = d.size) {ws : List (Nat × Block)}
    (hws : renderedWrites ps = .ok ws) (hsame : ∀ w ∈ ws, d.blocks w.1 = w.2)
    (geometry unexpected mismatch : String) :
    storeImagesJournaled geometry ⟨ps.map Prod.fst, unexpected⟩ recover
      mismatch sb d = (.ok RecoveryReport.default, d) := by
  rw [storeImagesJournaled_eq h hsize hws, differing_eq_nil.mpr hsame]
  rfl

theorem Renderings.differing_lt (h : Renderings sb ps) {ws : List (Nat × Block)}
    (hws : renderedWrites ps = .ok ws) (f : Nat → Block) :
    ∀ w ∈ differing f ws, w.1 < U64_LIMIT := by
  intro w hw
  have hlayout := sb.layout
  have := h.lt_of_mem hws (List.mem_of_mem_filter hw)
  omega

/-- **What a journaled store does**: it is rejected, it finds its tables in
place, or it commits one transaction with the blocks that differ. -/
theorem storeImagesJournaled_cases (hrec : Recovers recover tail)
    (h : Renderings sb ps) (d : Disk)
    (geometry unexpected mismatch : String) :
    (∃ e, storeImagesJournaled geometry ⟨ps.map Prod.fst, unexpected⟩ recover
      mismatch sb d = (.error e, d)) ∨
    ∃ ws, sb.totalBlocks = d.size ∧ renderedWrites ps = .ok ws ∧
      ((∀ w ∈ ws, d.blocks w.1 = w.2) ∧
        storeImagesJournaled geometry ⟨ps.map Prod.fst, unexpected⟩ recover
          mismatch sb d = (.ok RecoveryReport.default, d) ∨
      Accepted sb d (differing d.blocks ws) ∧
        storeImagesJournaled geometry ⟨ps.map Prod.fst, unexpected⟩ recover
          mismatch sb d = (.ok ⟨1, (differing d.blocks ws).length⟩, d.commit
            (storeEpochs sb (transactionEntries (differing d.blocks ws)) ++
              tail sb (transactionEntries (differing d.blocks ws))
                ⟨differing d.blocks ws,
                  ⟨1, (differing d.blocks ws).length⟩⟩))) := by
  by_cases hsize : sb.totalBlocks = d.size
  case neg =>
    left
    have hgeometry : requireGeometry d sb geometry =
        .error (invalidInput geometry) :=
      rejectIf_of (show blockCount d ≠ sb.totalBlocks from Ne.symm hsize)
    rw [storeImagesJournaled, Effect.query_bind, hgeometry]
    exact ⟨_, rfl⟩
  cases hws : renderedWrites ps with
  | error e =>
    left
    have hgeometry : requireGeometry d sb geometry = .ok () :=
      rejectIf_of_not (not_ne_iff.mpr hsize.symm)
    obtain ⟨e', he'⟩ := (ImageStore.collect_eq h hsize unexpected).2 e hws
    rw [storeImagesJournaled, Effect.query_bind, hgeometry]
    simp only
    rw [Effect.query_bind, he']
    exact ⟨_, rfl⟩
  | ok ws =>
    rw [storeImagesJournaled_eq h hsize hws]
    rcases publishChanges_cases hrec mismatch sb d
      (h.differing_lt hws d.blocks) with ⟨hnil, hdone⟩ | ⟨_, _, herr⟩ | hacc
    · exact .inr ⟨ws, hsize, rfl, .inl ⟨differing_eq_nil.mp hnil, hdone⟩⟩
    · exact .inl herr
    · exact .inr ⟨ws, hsize, rfl, .inr hacc⟩

/-- A store whose changes the journal takes is not rejected. -/
theorem storeImagesJournaled_ok (hrec : Recovers recover tail)
    (h : Renderings sb ps) {d : Disk} (hsize : sb.totalBlocks = d.size)
    {ws : List (Nat × Block)} (hws : renderedWrites ps = .ok ws)
    (hfits : StoreAccepts sb d
      (transactionEntries (differing d.blocks ws)))
    (geometry unexpected mismatch : String) :
    ∃ report d', storeImagesJournaled geometry ⟨ps.map Prod.fst, unexpected⟩
      recover mismatch sb d = (.ok report, d') := by
  rw [storeImagesJournaled_eq h hsize hws]
  rcases publishChanges_cases hrec mismatch sb d
    (h.differing_lt hws d.blocks) with ⟨_, hdone⟩ | ⟨_, hno, _⟩ | ⟨_, hrun⟩
  · exact ⟨_, _, hdone⟩
  · exact absurd hfits hno
  · exact ⟨_, _, hrun⟩

/-- If the home blocks are the wanted ones already, the committed writes of the
journal keep them. -/
def PendingKeeps (ps : List (TableImage × Result (List UInt8)))
    (f : Nat → Block) (journal : List JournalEntry) : Prop :=
  ∀ ws, renderedWrites ps = .ok ws → (∀ w ∈ ws, f w.1 = w.2) →
    ∀ w ∈ ws, overlay f (committedWrites journal) w.1 = w.2

/-- **When an acknowledged store survives recovery**: exactly if the committed
writes of the journal do not undo what the store found in place. -/
theorem store_survives_iff (hrec : Recovers recover tail)
    (h : Renderings sb ps)
    (hhome : ∀ p ∈ ps, sb.journalStart + sb.journalBlocks ≤ p.1.start)
    {d : Disk} {journal : List JournalEntry}
    (hload : loadJournalImage d sb = .ok journal)
    (geometry unexpected mismatch : String) :
    (∀ report, (storeImagesJournaled geometry ⟨ps.map Prod.fst, unexpected⟩
        recover mismatch sb d).1 = .ok report →
      ∃ report' final, recoverJournalAndCheckpoint sb (storeImagesJournaled
          geometry ⟨ps.map Prod.fst, unexpected⟩ recover mismatch sb d).2 =
            (.ok report', final) ∧ sb.totalBlocks = final.size ∧
        ∃ ws, renderedWrites ps = .ok ws ∧
          ∀ w ∈ ws, final.blocks w.1 = w.2) ↔
      PendingKeeps ps d.blocks journal := by
  have hsize : sb.totalBlocks = d.size := loadJournalImage_size hload
  rw [loadJournalImage_disk hsize] at hload
  -- a rendered block is no journal block
  have hout : ∀ ws, renderedWrites ps = .ok ws → ∀ w ∈ ws,
      ¬ sb.journalRange w.1 := by
    intro ws hws w hw
    obtain ⟨p, hp, hrange⟩ := exists_table_of_mem hws hw
    have := hhome p hp
    unfold Superblock.journalRange
    omega
  have hviews : Views sb d.blocks
      (overlay d.blocks (committedWrites journal)) :=
    ⟨journal, hload, fun _ _ => rfl⟩
  constructor
  · intro hsurvives ws hws hsame
    rw [storeImagesJournaled_same h hsize hws hsame] at hsurvives
    obtain ⟨report', final, hrun, _, ws', hws', hfinal⟩ := hsurvives _ rfl
    rw [hws, Except.ok.injEq] at hws'
    subst hws'
    obtain ⟨report'', final', hrun', _, _, hshow, _⟩ := hviews.recover hsize
    rw [hrun'] at hrun
    cases hrun
    intro w hw
    rw [← hshow w.1 (hout ws hws w hw), hfinal w hw]
  · intro hkeeps report hreport
    rcases storeImagesJournaled_cases hrec h d geometry unexpected mismatch
      with ⟨e, herr⟩ | ⟨ws, _, hws, ⟨hsame, hrun⟩ | ⟨hacc, hrun⟩⟩
    · rw [herr] at hreport
      cases hreport
    · obtain ⟨report', final, hrun', hsize', _, hshow, _⟩ :=
        hviews.recover hsize
      rw [hrun]
      refine ⟨report', final, hrun', hsize', ws, hws, ?_⟩
      intro w hw
      rw [hshow w.1 (hout ws hws w hw), hkeeps ws hws hsame w hw]
    · have hviews' := hacc.views hrec
      rw [overlay_differing (h.nodup hws)] at hviews'
      rw [← Disk.blocks_commit] at hviews'
      obtain ⟨report', final, hrun', hsize', _, hshow, _⟩ :=
        hviews'.recover (by exact hsize)
      rw [hrun]
      refine ⟨report', final, hrun', hsize', ws, hws, ?_⟩
      intro w hw
      rw [hshow w.1 (hout ws hws w hw),
        overlay_of_nodup (h.nodup hws) (by exact hw)]

end Cases

/-! ## The four stores -/

/-- The allocation image of a transaction with its bytes. -/
def allocationPair (sb : Superblock) (a : BlockAllocator) (missing : String) :
    TableImage × Result (List UInt8) :=
  (allocationTable sb a missing, allocationImage sb a)

/-- The inode table of a transaction with its bytes. -/
def inodePair (sb : Superblock) (inodes : List PersistedInode)
    (missing : String) : TableImage × Result (List UInt8) :=
  (inodeTable sb inodes missing, inodeFormat.encodeImage sb.inodeBlocks inodes)

/-- The directory table of a transaction with its bytes. -/
def directoryPair (sb : Superblock) (entries : List PersistedDirectoryEntry)
    (missing : String) : TableImage × Result (List UInt8) :=
  (directoryTable sb entries missing,
    directoryFormat.encodeImage sb.directoryBlocks entries)

/-- The tables of `store_directory_table_journaled`. -/
def directoryImages (sb : Superblock) (entries : List PersistedDirectoryEntry) :
    List (TableImage × Result (List UInt8)) :=
  [directoryPair sb entries
    "directory-table image did not render every directory metadata block"]

/-- The tables of `store_inode_table_journaled`. -/
def inodeImages (sb : Superblock) (inodes : List PersistedInode) :
    List (TableImage × Result (List UInt8)) :=
  [inodePair sb inodes
    "inode-table image did not render every inode metadata block"]

/-- The tables of `store_inode_directory_tables_journaled`. -/
def metadataImages (sb : Superblock) (inodes : List PersistedInode)
    (entries : List PersistedDirectoryEntry) :
    List (TableImage × Result (List UInt8)) :=
  [inodePair sb inodes
      "combined metadata image did not render every inode metadata block",
    directoryPair sb entries
      "combined metadata image did not render every directory metadata block"]

/-- The tables of `store_create_metadata_journaled`. -/
def createImages (sb : Superblock) (a : BlockAllocator)
    (inodes : List PersistedInode) (entries : List PersistedDirectoryEntry) :
    List (TableImage × Result (List UInt8)) :=
  [allocationPair sb a
      "atomic-create image did not render every allocation metadata block",
    inodePair sb inodes
      "atomic-create image did not render every inode metadata block",
    directoryPair sb entries
      "atomic-create image did not render every directory metadata block"]

section Tables

variable (sb : Superblock) (a : BlockAllocator) (inodes : List PersistedInode)
  (entries : List PersistedDirectoryEntry)

theorem renderings_directoryImages :
    Renderings sb (directoryImages sb entries) := by
  refine ⟨?_, by simp [directoryImages]⟩
  intro p hp
  rw [List.mem_singleton.mp hp]
  exact renders_directoryTable sb entries _

theorem renderings_inodeImages : Renderings sb (inodeImages sb inodes) := by
  refine ⟨?_, by simp [inodeImages]⟩
  intro p hp
  rw [List.mem_singleton.mp hp]
  exact renders_inodeTable sb inodes _

theorem renderings_metadataImages :
    Renderings sb (metadataImages sb inodes entries) := by
  have hlayout := sb.layout
  refine ⟨?_, ?_⟩
  · intro p hp
    simp only [metadataImages, List.mem_cons, List.not_mem_nil, or_false] at hp
    rcases hp with rfl | rfl
    · exact renders_inodeTable sb inodes _
    · exact renders_directoryTable sb entries _
  · simp only [metadataImages, inodePair, directoryPair, inodeTable,
      directoryTable, List.pairwise_cons, List.mem_cons, List.not_mem_nil,
      or_false, forall_eq, false_implies, implies_true, List.Pairwise.nil,
      and_true]
    omega

/-- All three tables, whatever their messages are. -/
theorem renderings_threeTables (allocation inode directory : String) :
    Renderings sb [allocationPair sb a allocation, inodePair sb inodes inode,
      directoryPair sb entries directory] := by
  have hlayout := sb.layout
  refine ⟨?_, ?_⟩
  · intro p hp
    simp only [List.mem_cons, List.not_mem_nil, or_false] at hp
    rcases hp with rfl | rfl | rfl
    · exact renders_allocationTable sb a _
    · exact renders_inodeTable sb inodes _
    · exact renders_directoryTable sb entries _
  · simp only [allocationPair, inodePair, directoryPair, allocationTable,
      inodeTable, directoryTable, List.pairwise_cons, List.mem_cons,
      List.not_mem_nil, or_false, forall_eq_or_imp, forall_eq, false_implies,
      implies_true, List.Pairwise.nil, and_true]
    omega

theorem renderings_createImages :
    Renderings sb (createImages sb a inodes entries) :=
  renderings_threeTables sb a inodes entries _ _ _

variable {sb a inodes entries}

/-- Contents that hold every block of some tables hold their images. -/
theorem holds_rendered {ps : List (TableImage × Result (List UInt8))}
    {f : Nat → Block} :
    (∃ ws, renderedWrites ps = .ok ws ∧ ∀ w ∈ ws, f w.1 = w.2) ↔
      ∀ p ∈ ps, ∃ image, p.2 = .ok image ∧
        Holds f p.1.start p.1.blocks image := by
  induction ps with
  | nil => simp [renderedWrites]
  | cons p ps ih =>
    have hone : ∀ image, (∀ w ∈ p.1.writes image, f w.1 = w.2) ↔
        Holds f p.1.start p.1.blocks image := by
      intro image
      constructor
      · intro h i hi
        exact h _ (TableImage.mem_writes.mpr ⟨i, hi, rfl⟩)
      · intro h w hw
        obtain ⟨i, hi, rfl⟩ := TableImage.mem_writes.mp hw
        exact h i hi
    rw [List.forall_mem_cons, ← ih]
    simp only [renderedWrites, Except.bind_eq_ok, Except.pure_eq_ok,
      Except.ok.injEq]
    constructor
    · intro hfacts
      rcases hfacts with ⟨_, ⟨image, himage, vs, hvs, rfl⟩, hall⟩
      rw [List.forall_mem_append] at hall
      exact ⟨⟨image, himage, (hone image).mp hall.1⟩, vs, hvs, hall.2⟩
    · intro hfacts
      rcases hfacts with ⟨⟨image, himage, hholds⟩, vs, hvs, hall⟩
      refine ⟨_, ⟨image, himage, vs, hvs, rfl⟩, ?_⟩
      rw [List.forall_mem_append]
      exact ⟨(hone image).mpr hholds, hall⟩

/-- The image of an allocator is held exactly if the allocator is loaded. -/
theorem holds_allocationPair {d : Disk} (hsize : sb.totalBlocks = d.size)
    (missing : String) :
    (∃ image, (allocationPair sb a missing).2 = .ok image ∧ Holds d.blocks
        (allocationPair sb a missing).1.start
        (allocationPair sb a missing).1.blocks image) ↔
      loadAllocator d sb = .ok a :=
  (loadAllocator_iff hsize).symm

theorem holds_directoryPair {d : Disk} (hsize : sb.totalBlocks = d.size)
    (missing : String) :
    (∃ image, (directoryPair sb entries missing).2 = .ok image ∧ Holds d.blocks
        (directoryPair sb entries missing).1.start
        (directoryPair sb entries missing).1.blocks image) ↔
      loadDirectoryTable d sb = .ok entries :=
  (loadDirectoryTable_iff hsize).symm

/-- Inodes are loaded in their canonical form. -/
theorem holds_inodePair {d : Disk} (hsize : sb.totalBlocks = d.size)
    (missing : String)
    (hencodes : ∃ image, (inodePair sb inodes missing).2 = .ok image) :
    (∃ image, (inodePair sb inodes missing).2 = .ok image ∧ Holds d.blocks
        (inodePair sb inodes missing).1.start
        (inodePair sb inodes missing).1.blocks image) ↔
      loadInodeTable d sb = .ok (inodes.map PersistedInode.canonical) := by
  have hlayout := sb.layout
  have hload : loadInodeTable d sb =
      .ok (inodes.map PersistedInode.canonical) ↔
        ∃ image, inodeFormat.encodeImage sb.inodeBlocks inodes = .ok image ∧
          Holds d.blocks sb.inodeStart sb.inodeBlocks image :=
    TableFormat.load_iff_holds inodeFormat_lawful hsize (by omega) (by omega)
      hencodes
  exact hload.symm

end Tables

/-- What `op` acknowledges on `d` is loaded after recovery. -/
def Survives (sb : Superblock) (op : DevM Disk RecoveryReport) (d : Disk)
    (loaded : Disk → Prop) : Prop :=
  ∀ report, (op d).1 = .ok report →
    ∃ report' final, recoverJournalAndCheckpoint sb (op d).2 =
      (.ok report', final) ∧ loaded final

/-- The condition of `store_survives_iff` in terms of what is loaded. -/
theorem survives_iff {sb : Superblock}
    {ps : List (TableImage × Result (List UInt8))}
    {recover : Superblock → DevM Disk RecoveryReport}
    {tail : Superblock → List JournalEntry → RecoveryPlan →
      List (List (Nat × Block))} (hrec : Recovers recover tail)
    (h : Renderings sb ps)
    (hhome : ∀ p ∈ ps, sb.journalStart + sb.journalBlocks ≤ p.1.start)
    {d : Disk} {journal : List JournalEntry}
    (hload : loadJournalImage d sb = .ok journal)
    (geometry unexpected mismatch : String) {loaded : Disk → Prop}
    (hloaded : ∀ final : Disk, sb.totalBlocks = final.size →
      (∀ p ∈ ps, ∃ image, p.2 = .ok image) →
      ((∀ p ∈ ps, ∃ image, p.2 = .ok image ∧
        Holds final.blocks p.1.start p.1.blocks image) ↔ loaded final)) :
    Survives sb (storeImagesJournaled geometry ⟨ps.map Prod.fst, unexpected⟩
      recover mismatch sb) d loaded ↔ PendingKeeps ps d.blocks journal := by
  rw [← store_survives_iff hrec h hhome hload geometry unexpected mismatch]
  apply forall_congr'
  intro report
  apply imp_congr_right
  intro hreport
  have hencodes : ∀ p ∈ ps, ∃ image, p.2 = .ok image := by
    rcases storeImagesJournaled_cases hrec h d geometry unexpected mismatch
      with ⟨e, herr⟩ | ⟨ws, _, hws, _⟩
    · rw [herr] at hreport
      cases hreport
    · obtain ⟨f, hf⟩ : ∃ f : Nat → Block, ∀ w ∈ ws, f w.1 = w.2 :=
        ⟨overlay d.blocks ws, fun w hw => overlay_of_nodup (h.nodup hws) hw⟩
      intro p hp
      obtain ⟨image, himage, _⟩ := holds_rendered.mp ⟨ws, hws, hf⟩ p hp
      exact ⟨image, himage⟩
  have hopSize : sb.totalBlocks = (storeImagesJournaled geometry
      ⟨ps.map Prod.fst, unexpected⟩ recover mismatch sb d).2.size := by
    have hsize : sb.totalBlocks = d.size := loadJournalImage_size hload
    rcases storeImagesJournaled_cases hrec h d geometry unexpected mismatch
      with ⟨e, hrun⟩ | ⟨ws, _, _, ⟨_, hrun⟩ | ⟨_, hrun⟩⟩
    all_goals
      rw [hrun]
      exact hsize
  constructor
  · intro hfacts
    rcases hfacts with ⟨report', final, hrun, hfinal⟩
    have hfsize : sb.totalBlocks = final.size :=
      recoverJournalAndCheckpoint_size hopSize hrun
    exact ⟨report', final, hrun, hfsize,
      holds_rendered.mpr ((hloaded final hfsize hencodes).mpr hfinal)⟩
  · intro hfacts
    rcases hfacts with ⟨report', final, hrun, hfsize, hfinal⟩
    exact ⟨report', final, hrun,
      (hloaded final hfsize hencodes).mp (holds_rendered.mp hfinal)⟩

/-- **When an acknowledged snapshot survives.**  After an Ok of one of the four
journaled stores, recovery leaves the tables that it stores as requested,
exactly if the committed writes that were pending in the journal keep these
tables whenever their home blocks already were the requested ones. -/
theorem journaledStores_survive_iff {sb : Superblock} {d : Disk}
    {journal : List JournalEntry}
    (hload : loadJournalImage d sb = .ok journal) (a : BlockAllocator)
    (inodes : List PersistedInode) (entries : List PersistedDirectoryEntry) :
    (Survives sb (storeDirectoryTableJournaled sb entries) d (fun final =>
        loadDirectoryTable final sb = .ok entries) ↔
      PendingKeeps (directoryImages sb entries) d.blocks journal) ∧
    (Survives sb (storeInodeTableJournaled sb inodes) d (fun final =>
        loadInodeTable final sb =
          .ok (inodes.map PersistedInode.canonical)) ↔
      PendingKeeps (inodeImages sb inodes) d.blocks journal) ∧
    (Survives sb (storeInodeDirectoryTablesJournaled sb inodes entries) d
        (fun final => loadInodeTable final sb =
            .ok (inodes.map PersistedInode.canonical) ∧
          loadDirectoryTable final sb = .ok entries) ↔
      PendingKeeps (metadataImages sb inodes entries) d.blocks journal) ∧
    (Survives sb (storeCreateMetadataJournaled sb a inodes entries) d
        (fun final => loadAllocator final sb = .ok a ∧
          loadInodeTable final sb =
            .ok (inodes.map PersistedInode.canonical) ∧
          loadDirectoryTable final sb = .ok entries) ↔
      PendingKeeps (createImages sb a inodes entries) d.blocks journal) := by
  have hlayout := sb.layout
  refine ⟨?_, ?_, ?_, ?_⟩
  · refine survives_iff recovers_recoverJournal
      (renderings_directoryImages sb entries) ?_ hload _ _ _ ?_
    · simp only [directoryImages, directoryPair, directoryTable,
        List.forall_mem_singleton]
      omega
    · intro final hsize _
      simp only [directoryImages, List.forall_mem_singleton]
      exact holds_directoryPair hsize _
  · refine survives_iff recovers_recoverJournal
      (renderings_inodeImages sb inodes) ?_ hload _ _ _ ?_
    · simp only [inodeImages, inodePair, inodeTable, List.forall_mem_singleton]
      omega
    · intro final hsize hencodes
      simp only [inodeImages, List.forall_mem_singleton] at hencodes ⊢
      exact holds_inodePair hsize _ hencodes
  · refine survives_iff recovers_recoverJournal
      (renderings_metadataImages sb inodes entries) ?_ hload _ _ _ ?_
    · simp only [metadataImages, inodePair, directoryPair, inodeTable,
        directoryTable, List.forall_mem_cons, List.not_mem_nil, false_implies,
        implies_true, and_true]
      omega
    · intro final hsize hencodes
      simp only [metadataImages, List.forall_mem_cons, List.not_mem_nil,
        false_implies, implies_true, and_true] at hencodes ⊢
      exact and_congr (holds_inodePair hsize _ hencodes.1)
        (holds_directoryPair hsize _)
  · refine survives_iff recovers_recoverJournalAndCheckpoint
      (renderings_createImages sb a inodes entries) ?_ hload _ _ _ ?_
    · simp only [createImages, allocationPair, inodePair, directoryPair,
        allocationTable, inodeTable, directoryTable, List.forall_mem_cons,
        List.not_mem_nil, false_implies, implies_true, and_true]
      omega
    · intro final hsize hencodes
      simp only [createImages, List.forall_mem_cons, List.not_mem_nil,
        false_implies, implies_true, and_true] at hencodes ⊢
      exact and_congr (holds_allocationPair hsize _)
        (and_congr (holds_inodePair hsize _ hencodes.2.1)
          (holds_directoryPair hsize _))

theorem load_sampleDisk (data : Nat → Block) :
    loadJournalImage (sampleDisk data) sampleSuperblock = .ok [] := by
  rw [loadJournalImage_disk (by rfl)]
  exact journalOf_formatted

/-- The home blocks of the sample disk hold its empty directory table. -/
theorem loadDirectoryTable_of_home {d : Disk}
    (hsize : sampleSuperblock.totalBlocks = d.size)
    (hhome : ∀ b, ¬ sampleSuperblock.journalRange b →
      d.blocks b = (sampleDisk fun _ => Block.zero).blocks b) :
    loadDirectoryTable d sampleSuperblock = .ok [] := by
  obtain ⟨image, himage, hholds⟩ := (loadDirectoryTable_iff (by rfl)).mp
    (checked_sampleDisk fun _ => Block.zero).directoryTable
  refine (loadDirectoryTable_iff hsize).mpr ⟨image, himage, ?_⟩
  intro i hi
  have hi' : i = 0 := Nat.lt_one_iff.mp hi
  subst hi'
  rw [hhome _ (by decide)]
  exact hholds 0 Nat.one_pos

/-- A store of the directory table that is in place is acknowledged. -/
theorem storeDirectoryTable_same {d : Disk} {sb : Superblock}
    {entries : List PersistedDirectoryEntry} (hsize : sb.totalBlocks = d.size)
    (hload : loadDirectoryTable d sb = .ok entries) :
    storeDirectoryTableJournaled sb entries d =
      (.ok RecoveryReport.default, d) := by
  obtain ⟨ws, hws, hsame⟩ := holds_rendered.mpr
    (show ∀ p ∈ directoryImages sb entries, ∃ image, p.2 = .ok image ∧
        Holds d.blocks p.1.start p.1.blocks image by
      intro p hp
      rw [List.mem_singleton.mp hp]
      exact (loadDirectoryTable_iff hsize).mp hload)
  exact storeImagesJournaled_same (renderings_directoryImages sb entries) hsize
    hws hsame _ _ _

/-- A store of the empty directory table, with a transaction in the journal that
writes a block outside of the tables. -/
theorem journaledStores_survive_sampleDisk :
    loadJournalImage sampleDiskPending sampleSuperblock =
        .ok sampleTransaction ∧
      (storeDirectoryTableJournaled sampleSuperblock []
        sampleDiskPending).1 = .ok RecoveryReport.default ∧
      Survives sampleSuperblock
        (storeDirectoryTableJournaled sampleSuperblock []) sampleDiskPending
        fun final => loadDirectoryTable final sampleSuperblock = .ok [] := by
  have hempty : loadDirectoryTable sampleDiskPending sampleSuperblock = .ok [] :=
    loadDirectoryTable_of_home (by rfl) fun _ => home_sampleDiskPending
  refine ⟨load_sampleDiskPending, ?_, ?_⟩
  · rw [storeDirectoryTable_same (by rfl) hempty]
  · apply (journaledStores_survive_iff load_sampleDiskPending sampleAllocator []
      []).1.mpr
    intro ws hws hsame w hw
    obtain ⟨p, hp, hrange⟩ := exists_table_of_mem hws hw
    rw [List.mem_singleton.mp hp] at hrange
    have hlt : w.1 < 7 := hrange.2
    have hcommitted : committedWrites sampleTransaction =
        [(7, Block.ofBytes [1])] := rfl
    rw [hcommitted, overlay_of_notMem, hsame w hw]
    simp
    omega

/-! ## A lost snapshot -/

/-- An entry of the root directory. -/
def sampleEntry : PersistedDirectoryEntry where
  parent := 1
  target := 2
  name := "a"

/-- The block of a directory table with the sample entry. -/
def sampleEntryBlock : Block :=
  imageBlock (directoryFormat.encodeImage 1 [sampleEntry]) 0

/-- The sample disk with a committed transaction that adds the sample entry to
its directory table, and has not been replayed. -/
def staleDisk : Disk :=
  (sampleDisk fun _ => Block.zero).commit (storeEpochs sampleSuperblock
    (transactionEntries [(6, sampleEntryBlock)]))

theorem storeAccepts_staleDisk :
    StoreAccepts sampleSuperblock (sampleDisk fun _ => Block.zero)
      (transactionEntries [(6, sampleEntryBlock)]) := by
  refine ⟨rfl, rfl, journalOf_formatted, fun _ => ⟨by decide, ?_⟩⟩
  have hb := blockSize_eq
  have hjournal : sampleSuperblock.journalBlocks = 3 := rfl
  simp [transactionEntries, JournalCodec.stream,
    JournalCodec.length_encodeEntry, JournalCodec.payloadOf,
    JournalCodec.HEADER_SIZE, hb, hjournal]

theorem load_staleDisk :
    loadJournalImage staleDisk sampleSuperblock =
      .ok (transactionEntries [(6, sampleEntryBlock)]) := by
  rw [loadJournalImage_disk (by rfl), staleDisk, Disk.blocks_commit]
  exact storeAccepts_staleDisk.journalOf_settle.1

theorem home_staleDisk {b : Nat} (hb : ¬ sampleSuperblock.journalRange b) :
    staleDisk.blocks b = (sampleDisk fun _ => Block.zero).blocks b := by
  rw [staleDisk, Disk.blocks_commit]
  exact (storeAccepts_staleDisk.published (crashImage_settle _ _)).home b hb

/-- Storing the empty directory table is acknowledged, because the home blocks
hold it, and recovery then replays the entry that the journal still has. -/
theorem journaledStore_lost :
    loadJournalImage staleDisk sampleSuperblock =
        .ok (transactionEntries [(6, sampleEntryBlock)]) ∧
      (storeDirectoryTableJournaled sampleSuperblock [] staleDisk).1 =
        .ok RecoveryReport.default ∧
      ∃ report final, recoverJournalAndCheckpoint sampleSuperblock
          (storeDirectoryTableJournaled sampleSuperblock [] staleDisk).2 =
            (.ok report, final) ∧
        loadDirectoryTable final sampleSuperblock = .ok [sampleEntry] ∧
        ¬ loadDirectoryTable final sampleSuperblock = .ok [] := by
  -- the home blocks hold the empty table
  have hrun : storeDirectoryTableJournaled sampleSuperblock [] staleDisk =
      (.ok RecoveryReport.default, staleDisk) :=
    storeDirectoryTable_same (by rfl)
      (loadDirectoryTable_of_home (by rfl) fun _ => home_staleDisk)
  obtain ⟨named, hnamed⟩ : ∃ image,
      directoryFormat.encodeImage 1 [sampleEntry] = .ok image :=
    exists_directoryImage (by decide) (by decide) (by decide) (by decide)
      (by decide)
  have hload := load_staleDisk
  rw [loadJournalImage_disk (by rfl)] at hload
  have hviews : Views sampleSuperblock staleDisk.blocks
      (overlay staleDisk.blocks [(6, sampleEntryBlock)]) := by
    refine ⟨_, hload, ?_⟩
    intro b _
    rw [committedWrites_of_plan (planRecovery_transactionEntries (by decide))]
  obtain ⟨report, final, hrecover, hsize, _, hshow, _⟩ :=
    hviews.recover (by rfl)
  have hfinal : loadDirectoryTable final sampleSuperblock =
      .ok [sampleEntry] := by
    refine (loadDirectoryTable_iff hsize).mpr ⟨named, hnamed, ?_⟩
    intro i hi
    have hi' : i = 0 := Nat.lt_one_iff.mp hi
    subst hi'
    rw [hshow _ (by decide)]
    have hblock : sampleEntryBlock = Block.ofImage named 0 := by
      rw [sampleEntryBlock, hnamed]
      rfl
    rw [← hblock]
    exact overlay_of_nodup (by simp) (List.mem_singleton.mpr rfl)
  refine ⟨load_staleDisk, by rw [hrun], report, final, ?_, hfinal, ?_⟩
  · rw [hrun]
    exact hrecover
  · rw [hfinal]
    simp

end FilesystemLab
