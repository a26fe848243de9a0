import FilesystemLab.CheckedRecovery
import FilesystemLab.CreateTransaction

/-!
# Disks between operations

The operations of the filesystem start from a disk with an empty journal, load
its tables, and store new ones in one transaction.

* `AtRest` is such a disk with its tables, and `Mounted` one that
  `check_device` accepts.
* `Became` says what a finished transaction leaves: the new tables behind an
  empty journal, and the data blocks of before but for the named writes.
* `TransactionOutcome` says how a transaction on a disk at rest may end.  It is
  rejected without a trace, and only if its tables have no image or do not fit
  the journal, or the disk `Became` what was asked for.
-/

namespace FilesystemLab

open WriteLog

/-- A disk between two operations: its tables behind an empty journal. -/
structure AtRest (d : Disk) (sb : Superblock) (a : BlockAllocator)
    (inodes : List PersistedInode) (entries : List PersistedDirectoryEntry) :
    Prop where
  superblock : readSuperblock d = .ok sb
  allocator : loadAllocator d sb = .ok a
  inodeTable : loadInodeTable d sb = .ok inodes
  directoryTable : loadDirectoryTable d sb = .ok entries
  journal : loadJournalImage d sb = .ok []

/-- A disk at rest that `check_device` accepts. -/
structure Mounted (d : Disk) (sb : Superblock) (a : BlockAllocator)
    (inodes : List PersistedInode) (entries : List PersistedDirectoryEntry) :
    Prop extends AtRest d sb a inodes entries where
  owned : Owned sb a inodes
  payloads : ∀ inode ∈ inodes, validateSymlinkInode d inode = .ok ()
  tree : Namespace inodes entries

/-- The disk `d'` is `d` with new tables behind an empty journal, and with
`data` written to its data blocks. -/
structure Became (sb : Superblock) (d d' : Disk) (a : BlockAllocator)
    (inodes : List PersistedInode) (entries : List PersistedDirectoryEntry)
    (data : List (Nat × Block)) : Prop extends
    AtRest d' sb a inodes entries where
  contents : ∀ b, sb.reservedBlocks ≤ b →
    d'.blocks b = overlay d.blocks data b

/-! ## Tables at rest -/

/-- A table that can be stored can be stored without some of its records. -/
theorem TableFormat.exists_encodeImage_sublist {ρ κ : Type} [DecidableEq κ]
    {F : TableFormat ρ κ} {blocks : Nat} {rs vs : List ρ} {image : List UInt8}
    (h : F.encodeImage blocks rs = .ok image) (hsub : vs.Sublist rs) :
    ∃ image', F.encodeImage blocks vs = .ok image' := by
  have hrecords : ∀ {rs vs : List ρ}, vs.Sublist rs → ∀ {seen seen' : List κ}
      {payload : List UInt8}, (∀ k ∈ seen', k ∈ seen) →
      F.encodeRecords seen rs = .ok payload →
      ∃ payload', F.encodeRecords seen' vs = .ok payload' ∧
        payload'.length ≤ payload.length := by
    intro rs vs hsub
    induction hsub with
    | slnil =>
      intro seen seen' payload _ _
      exact ⟨[], rfl, Nat.zero_le _⟩
    | cons r _ ih =>
      intro seen seen' payload hseen hencode
      simp only [encodeRecords, Except.bind_eq_ok, Except.pure_eq_ok,
        Except.ok.injEq] at hencode
      obtain ⟨_, _, record, _, rest, hrest, rfl⟩ := hencode
      obtain ⟨payload', hpayload, hlen⟩ := ih
        (fun k hk => List.mem_cons_of_mem (F.key r) (hseen k hk)) hrest
      refine ⟨payload', hpayload, ?_⟩
      rw [List.length_append]
      omega
    | cons_cons r _ ih =>
      intro seen seen' payload hseen hencode
      simp only [encodeRecords, Except.bind_eq_ok, rejectIf_eq_ok,
        Except.pure_eq_ok, Except.ok.injEq] at hencode
      obtain ⟨_, hnew, record, hrecord, rest, hrest, rfl⟩ := hencode
      have hnew' : F.key r ∉ seen' := fun hmem => hnew (hseen _ hmem)
      obtain ⟨payload', hpayload, hlen⟩ := @ih _ (F.key r :: seen') _ (by
        intro k hk
        rcases List.mem_cons.mp hk with rfl | hk
        · exact List.mem_cons_self
        · exact List.mem_cons_of_mem _ (hseen k hk)) hrest
      refine ⟨record ++ payload', ?_, ?_⟩
      · rw [encodeRecords, rejectIf_of_not hnew', Except.ok_bind, hrecord,
          Except.ok_bind, hpayload]
        rfl
      · rw [List.length_append, List.length_append]
        omega
  obtain ⟨payload, hpayload, hlt, hfit, hcount, _⟩ := encodeImage_eq_ok.mp h
  obtain ⟨payload', hpayload', hlen⟩ :=
    hrecords hsub (fun _ hk => hk) hpayload
  have hsublen := hsub.length_le
  exact ⟨_, encodeImage_eq_ok.mpr ⟨payload', hpayload', hlt, by omega,
    by omega, rfl⟩⟩

/-- No two entries of a directory table have the same parent and name. -/
theorem nodup_keys_of_load {d : Disk} {sb : Superblock}
    {entries : List PersistedDirectoryEntry} (hsize : sb.totalBlocks = d.size)
    (h : loadDirectoryTable d sb = .ok entries) :
    (entries.map directoryFormat.key).Nodup := by
  obtain ⟨_, himage, _⟩ := (loadDirectoryTable_iff hsize).mp h
  obtain ⟨_, hpayload, _⟩ := TableFormat.encodeImage_eq_ok.mp himage
  exact (TableFormat.nodup_of_encodeRecords hpayload).1

namespace AtRest

variable {d : Disk} {sb : Superblock} {a : BlockAllocator}
  {inodes : List PersistedInode} {entries : List PersistedDirectoryEntry}

theorem size (h : AtRest d sb a inodes entries) : sb.totalBlocks = d.size :=
  readSuperblock_size h.superblock

theorem vacant (h : AtRest d sb a inodes entries) :
    journalOf sb d.blocks = .ok [] := by
  rw [← loadJournalImage_disk h.size]
  exact h.journal

theorem geometry (h : AtRest d sb a inodes entries) :
    a.totalBlocks = sb.totalBlocks ∧ a.reservedBlocks = sb.reservedBlocks :=
  geometry_of_loadAllocator h.allocator

theorem inodeImage (h : AtRest d sb a inodes entries) :
    ∃ image, inodeFormat.encodeImage sb.inodeBlocks inodes = .ok image := by
  obtain ⟨image, himage, _⟩ := (loadInodeTable_iff h.size).mp h.inodeTable
  exact ⟨image, himage⟩

theorem directoryImage (h : AtRest d sb a inodes entries) :
    ∃ image,
      directoryFormat.encodeImage sb.directoryBlocks entries = .ok image := by
  obtain ⟨image, himage, _⟩ :=
    (loadDirectoryTable_iff h.size).mp h.directoryTable
  exact ⟨image, himage⟩

/-- The identifiers of the inodes are distinct. -/
theorem nodup_ids (h : AtRest d sb a inodes entries) :
    (inodes.map PersistedInode.id).Nodup := by
  obtain ⟨_, himage⟩ := h.inodeImage
  obtain ⟨_, hpayload, _⟩ := TableFormat.encodeImage_eq_ok.mp himage
  exact (TableFormat.nodup_of_encodeRecords hpayload).1

/-- No inode has the reserved identifier. -/
theorem id_ne_zero (h : AtRest d sb a inodes entries) {inode : PersistedInode}
    (hmem : inode ∈ inodes) : inode.id ≠ 0 := by
  obtain ⟨_, himage⟩ := h.inodeImage
  obtain ⟨_, hpayload, _⟩ := TableFormat.encodeImage_eq_ok.mp himage
  obtain ⟨_, hbytes⟩ :=
    TableFormat.encode_of_encodeRecords hpayload inode hmem
  obtain ⟨_, hlen, _⟩ := encodeInode_eq_ok.mp hbytes
  have hfields := liftMessage_eq_ok.mp hlen
  simp only [validateInodeFields, Except.bind_eq_ok, rejectIf_eq_ok] at hfields
  exact hfields.choose_spec.1

/-- The inodes are loaded in their canonical form. -/
theorem canonical (h : AtRest d sb a inodes entries) :
    inodes.map PersistedInode.canonical = inodes := by
  obtain ⟨_, _, hcanonical, _⟩ := (loadInodeTable_iff h.size).mp h.inodeTable
  exact hcanonical

theorem canonical_of_mem (h : AtRest d sb a inodes entries)
    {inode : PersistedInode} (hmem : inode ∈ inodes) :
    inode.canonical = inode := by
  have hid : inodes.map PersistedInode.canonical = inodes.map id := by
    rw [h.canonical, List.map_id]
  exact List.map_inj_left.mp hid inode hmem

/-- Some of the inodes are in canonical form. -/
theorem canonical_sublist (h : AtRest d sb a inodes entries)
    {survivors : List PersistedInode} (hsub : survivors.Sublist inodes) :
    survivors.map PersistedInode.canonical = survivors := by
  have hid : ∀ inode ∈ survivors,
      PersistedInode.canonical inode = id inode :=
    fun inode hmem => h.canonical_of_mem (hsub.subset hmem)
  rw [List.map_congr_left hid, List.map_id]

/-- No two entries have the same parent and name. -/
theorem nodup_keys (h : AtRest d sb a inodes entries) :
    (entries.map directoryFormat.key).Nodup :=
  nodup_keys_of_load h.size h.directoryTable

theorem nodup_entries (h : AtRest d sb a inodes entries) : entries.Nodup :=
  h.nodup_keys.of_map _

/-- An entry is determined by its parent and name. -/
theorem entry_unique (h : AtRest d sb a inodes entries)
    {entry other : PersistedDirectoryEntry} (hentry : entry ∈ entries)
    (hother : other ∈ entries) (hparent : entry.parent = other.parent)
    (hname : entry.name = other.name) : entry = other := by
  apply List.inj_on_of_nodup_map h.nodup_keys hentry hother
  show (entry.parent, entry.name) = (other.parent, other.name)
  rw [hparent, hname]

/-- The entries can be encoded. -/
theorem valid (h : AtRest d sb a inodes entries)
    {entry : PersistedDirectoryEntry} (hentry : entry ∈ entries) :
    entry.Valid := by
  obtain ⟨_, himage⟩ := h.directoryImage
  obtain ⟨_, hpayload, _⟩ := TableFormat.encodeImage_eq_ok.mp himage
  obtain ⟨_, hbytes⟩ :=
    TableFormat.encode_of_encodeRecords hpayload entry hentry
  exact (encodeDirectoryEntry_eq_ok.mp hbytes).1

/-- The tables of a disk are what is loaded from it. -/
theorem unique (h : AtRest d sb a inodes entries) {sb' : Superblock}
    {a' : BlockAllocator} {inodes' : List PersistedInode}
    {entries' : List PersistedDirectoryEntry}
    (h' : AtRest d sb' a' inodes' entries') :
    sb = sb' ∧ a = a' ∧ inodes = inodes' ∧ entries = entries' := by
  have hsb := h.superblock
  rw [h'.superblock, Except.ok.injEq] at hsb
  subst hsb
  have ha := h.allocator
  rw [h'.allocator, Except.ok.injEq] at ha
  have hinodes := h.inodeTable
  rw [h'.inodeTable, Except.ok.injEq] at hinodes
  have hentries := h.directoryTable
  rw [h'.directoryTable, Except.ok.injEq] at hentries
  exact ⟨rfl, ha.symm, hinodes.symm, hentries.symm⟩

/-- Recovery has nothing to do. -/
theorem recover (h : AtRest d sb a inodes entries) :
    recoverJournalAndCheckpoint sb d = (.ok RecoveryReport.default, d) :=
  recover_vacant h.size h.vacant

/-- Checked recovery has nothing to do. -/
theorem recoverChecked (h : AtRest d sb a inodes entries) :
    recoverJournalAndCheckpointChecked sb d =
      (.ok RecoveryReport.default, d) := by
  simp only [recoverJournalAndCheckpointChecked, Effect.query_bind,
    h.superblock, Effect.lift_bind, rejectIf_of_not (not_ne_iff.mpr rfl)]
  rw [h.journal]
  rfl

/-- What `check_device` asks of a disk at rest. -/
theorem checkDevice_iff (h : AtRest d sb a inodes entries)
    {report : FsckReport} :
    checkDevice d = .ok report ↔ Mounted d sb a inodes entries ∧
      report = fsckReport sb a inodes entries [] := by
  rw [FilesystemLab.checkDevice_iff]
  constructor
  · intro hfacts
    rcases hfacts with ⟨sb', a', inodes', entries', journal, hc, hjournal, rfl⟩
    have hsb := hc.superblock
    rw [h.superblock, Except.ok.injEq] at hsb
    subst hsb
    have hload := h.journal
    rw [hjournal, Except.ok.injEq] at hload
    subst hload
    obtain ⟨_, rfl, rfl, rfl⟩ := h.unique ⟨hc.superblock, hc.allocator,
      hc.inodeTable, hc.directoryTable, hjournal⟩
    exact ⟨⟨h, hc.owned, hc.payloads, hc.tree⟩, rfl⟩
  · intro hfacts
    rcases hfacts with ⟨hm, rfl⟩
    exact ⟨sb, a, inodes, entries, [], ⟨h.superblock, h.allocator,
      h.inodeTable, hm.owned, hm.payloads, h.directoryTable, hm.tree⟩,
      h.journal, rfl⟩

end AtRest

/-- A device that passes the check with an empty journal. -/
theorem exists_mounted {d : Disk} {sb : Superblock} {report : FsckReport}
    (hsb : readSuperblock d = .ok sb) (hjournal : loadJournalImage d sb = .ok [])
    (hcheck : checkDevice d = .ok report) :
    ∃ a inodes entries, Mounted d sb a inodes entries := by
  obtain ⟨sb', a, inodes, entries, journal, hc, _, _⟩ :=
    checkDevice_iff.mp hcheck
  have hsame := hc.superblock
  rw [hsb, Except.ok.injEq] at hsame
  subst hsame
  exact ⟨a, inodes, entries, ⟨hsb, hc.allocator, hc.inodeTable,
    hc.directoryTable, hjournal⟩, hc.owned, hc.payloads, hc.tree⟩

/-- A mounted disk is consistent. -/
theorem Mounted.checked {d : Disk} {sb : Superblock} {a : BlockAllocator}
    {inodes : List PersistedInode} {entries : List PersistedDirectoryEntry}
    (h : Mounted d sb a inodes entries) : Checked d sb a inodes entries :=
  ⟨h.superblock, h.allocator, h.inodeTable, h.owned, h.payloads,
    h.directoryTable, h.tree⟩

/-- A mounted disk passes the check. -/
theorem Mounted.check {d : Disk} {sb : Superblock} {a : BlockAllocator}
    {inodes : List PersistedInode} {entries : List PersistedDirectoryEntry}
    (h : Mounted d sb a inodes entries) :
    checkDevice d = .ok (fsckReport sb a inodes entries []) :=
  h.toAtRest.checkDevice_iff.mpr ⟨h, rfl⟩

/-! ## What a transaction leaves -/

section Rendered

variable {sb : Superblock} {ps : List (TableImage × Result (List UInt8))}
  {ws : List (Nat × Block)}

/-- The rendered tables are held once they are written. -/
theorem Renderings.holds_overlay (h : Renderings sb ps)
    (hws : renderedWrites ps = .ok ws) (f : Nat → Block)
    {p : TableImage × Result (List UInt8)} (hp : p ∈ ps) :
    ∃ image, p.2 = .ok image ∧
      Holds (overlay f ws) p.1.start p.1.blocks image :=
  holds_rendered.mp
    ⟨ws, hws, fun _ hw => overlay_of_nodup (h.nodup hws) hw⟩ p hp

/-- A table that is held already changes nothing. -/
theorem renderedWrites_held {f : Nat → Block}
    {p : TableImage × Result (List UInt8)} {image : List UInt8}
    (himage : p.2 = .ok image) (hholds : Holds f p.1.start p.1.blocks image)
    (hws : renderedWrites ps = .ok ws) :
    ∃ vs, renderedWrites (p :: ps) = .ok vs ∧
      differing f vs = differing f ws := by
  refine ⟨p.1.writes image ++ ws, ?_, ?_⟩
  · simp only [renderedWrites, himage, hws, Except.ok_bind, Except.pure_eq_ok]
  · have hnone : differing f (p.1.writes image) = [] := by
      rw [differing_eq_nil]
      intro w hw
      obtain ⟨i, hi, rfl⟩ := TableImage.mem_writes.mp hw
      exact hholds i hi
    rw [differing_append, hnone, List.nil_append]

end Rendered

/-- The disk `d'` has the home blocks of `d` with `changed` written, behind an
empty journal. -/
structure Applied (sb : Superblock) (d d' : Disk)
    (changed : List (Nat × Block)) : Prop where
  size : d'.size = d.size
  vacant : journalOf sb d'.blocks = .ok []
  home : ∀ b, ¬ sb.journalRange b → d'.blocks b = overlay d.blocks changed b

/-- The disk `d'` has the home blocks of `d` with `changed` written, and the
transaction that wrote them is still in its journal. -/
structure Logged (sb : Superblock) (d d' : Disk)
    (changed : List (Nat × Block)) : Prop where
  size : d'.size = d.size
  plans : Plans sb (transactionEntries changed)
    ⟨changed, ⟨1, changed.length⟩⟩
  journal : journalOf sb d'.blocks = .ok (transactionEntries changed)
  home : ∀ b, ¬ sb.journalRange b → d'.blocks b = overlay d.blocks changed b

theorem Accepted.applied {sb : Superblock} {d : Disk}
    {changed : List (Nat × Block)} (h : Accepted sb d changed) :
    Applied sb d (d.commit (Accepted.epochs sb changed)) changed :=
  ⟨Disk.commit_size d _, h.committed.1, h.committed.2⟩

theorem Accepted.logged {sb : Superblock} {d : Disk}
    {changed : List (Nat × Block)} (h : Accepted sb d changed) :
    Logged sb d (d.commit (storeEpochs sb (transactionEntries changed) ++
      replayEpochs changed)) changed where
  size := Disk.commit_size d _
  plans := h.plans
  journal := by
    rw [Disk.blocks_commit, settle_append, settle_replayEpochs,
      h.plans.journalOf_mixed (mixed_overlay _ _)]
    exact h.published.1
  home := by
    intro b hb
    rw [Disk.blocks_commit, settle_append, settle_replayEpochs]
    exact h.overlay_published hb

namespace Logged

variable {sb : Superblock} {d d' : Disk} {changed : List (Nat × Block)}

/-- A checkpoint of a logged transaction. -/
theorem checkpoint (h : Logged sb d d' changed)
    (hsize : sb.totalBlocks = d.size) :
    ∃ final, checkpointJournal sb d' = (.ok true, final) ∧
      Applied sb d final changed := by
  have hsize' : sb.totalBlocks = d'.size := by rw [hsize, h.size]
  have hrun := checkpointJournal_apply hsize' h.journal
  rw [if_neg (transactionEntries_ne_nil changed)] at hrun
  refine ⟨_, hrun, ?_, ?_, ?_⟩
  · rw [Disk.commit_size, h.size]
  · rw [Disk.blocks_commit]
    exact journalOf_emptyAnchor (Function.update_self _ _ _)
  · intro b hb
    have hne : b ≠ sb.journalStart := by
      intro heq
      subst heq
      exact hb (journalStart_mem sb)
    rw [Disk.blocks_commit, ← h.home b hb]
    exact Function.update_of_ne hne _ _

/-- Recovery of a logged transaction. -/
theorem recover (h : Logged sb d d' changed)
    (hsize : sb.totalBlocks = d.size) :
    ∃ report final, recoverJournalAndCheckpoint sb d' = (.ok report, final) ∧
      Applied sb d final changed := by
  have hsize' : sb.totalBlocks = d'.size := by rw [hsize, h.size]
  have hblocks : (d'.commit (Plans.epochs sb (transactionEntries changed)
      ⟨changed, ⟨1, changed.length⟩⟩)).blocks = recovered sb d'.blocks
        (transactionEntries changed) ⟨changed, ⟨1, changed.length⟩⟩ :=
    Disk.blocks_commit d' _
  refine ⟨_, _, h.plans.recoverJournalAndCheckpoint_apply hsize' h.journal,
    ?_, ?_, ?_⟩
  · rw [Disk.commit_size, h.size]
  · rw [hblocks]
    exact h.plans.journalOf_recovered h.journal
  · intro b hb
    rw [hblocks, recovered_home h.plans _ hb,
      overlay_congr fun _ => h.home b hb, overlay_overlay_self]

end Logged

/-! ## The tables of a transaction -/

section Tables

variable {d d' : Disk} {sb : Superblock} {a a' : BlockAllocator}
  {inodes inodes' : List PersistedInode}
  {entries entries' : List PersistedDirectoryEntry}
  {tables ws data : List (Nat × Block)}

/-- The blocks of the tables lie between the journal and the data blocks. -/
theorem range_of_tables
    (htables : renderedWrites (createImages sb a inodes entries) = .ok tables)
    {w : Nat × Block} (hw : w ∈ tables) :
    sb.allocationStart ≤ w.1 ∧ w.1 < sb.reservedBlocks := by
  have hlayout := sb.layout
  obtain ⟨p, hp, hrange⟩ := exists_table_of_mem htables hw
  simp only [createImages, List.mem_cons, List.not_mem_nil, or_false] at hp
  rcases hp with rfl | rfl | rfl
  · simp only [allocationPair, allocationTable] at hrange
    omega
  · simp only [inodePair, inodeTable] at hrange
    omega
  · simp only [directoryPair, directoryTable] at hrange
    omega

/-- Distinct data blocks and the blocks of the tables are distinct. -/
theorem nodup_request
    (htables : renderedWrites (createImages sb a inodes entries) = .ok tables)
    (hdata : ∀ w ∈ data, sb.reservedBlocks ≤ w.1)
    (hnodup : (data.map Prod.fst).Nodup) :
    ((tables ++ data).map Prod.fst).Nodup := by
  rw [List.map_append, List.nodup_append]
  refine ⟨(renderings_createImages sb a inodes entries).nodup htables, hnodup,
    ?_⟩
  intro b hb c hc
  obtain ⟨t, ht, rfl⟩ := List.mem_map.mp hb
  obtain ⟨w, hw, rfl⟩ := List.mem_map.mp hc
  have htable := range_of_tables htables ht
  have hle := hdata w hw
  omega

/-- **What an applied transaction leaves**: the tables and the data that it
wrote, and everything else as it was. -/
theorem AtRest.became (h : AtRest d sb a inodes entries)
    (htables : renderedWrites (createImages sb a' inodes' entries') =
      .ok tables)
    (hdata : ∀ w ∈ data, sb.reservedBlocks ≤ w.1)
    (hnodup : (data.map Prod.fst).Nodup)
    (happlied : Applied sb d d' (differing d.blocks (tables ++ data))) :
    Became sb d d' a' (inodes'.map PersistedInode.canonical) entries' data := by
  have hlayout := sb.layout
  have hrender := renderings_createImages sb a' inodes' entries'
  have hsize : sb.totalBlocks = d'.size := by rw [happlied.size, h.size]
  have hhome : ∀ b, ¬ sb.journalRange b →
      d'.blocks b = overlay (overlay d.blocks tables) data b := by
    intro b hb
    rw [happlied.home b hb,
      overlay_differing (nodup_request htables hdata hnodup), overlay_append]
  have hmeta : ∀ b, ¬ sb.journalRange b → b < sb.reservedBlocks →
      d'.blocks b = overlay d.blocks tables b := by
    intro b hb hlt
    rw [hhome b hb]
    apply overlay_of_notMem
    intro hmem
    obtain ⟨w, hw, rfl⟩ := List.mem_map.mp hmem
    have := hdata w hw
    omega
  have hregion : ∀ {start blocks : Nat} {image : List UInt8},
      sb.allocationStart ≤ start → start + blocks ≤ sb.reservedBlocks →
      Holds (overlay d.blocks tables) start blocks image →
      Holds d'.blocks start blocks image := by
    intro start blocks image hlo hhi hholds i hi
    rw [hmeta (start + i) (by unfold Superblock.journalRange; omega)
      (by omega)]
    exact hholds i hi
  refine ⟨⟨?_, ?_, ?_, ?_, ?_⟩, ?_⟩
  · have hzero : d'.blocks SUPERBLOCK_BLOCK = d.blocks SUPERBLOCK_BLOCK := by
      have hb : SUPERBLOCK_BLOCK = 0 := rfl
      rw [hmeta _ (by unfold Superblock.journalRange; omega) (by omega)]
      apply overlay_of_notMem
      intro hmem
      obtain ⟨w, hw, heq⟩ := List.mem_map.mp hmem
      have := range_of_tables htables hw
      omega
    have hpos : SUPERBLOCK_BLOCK < d'.size := by
      simp only [SUPERBLOCK_BLOCK]
      omega
    have hsame : readSuperblock d' = readSuperblock d := by
      apply readSuperblock_congr happlied.size
      rw [Disk.readBlock_of_lt hpos,
        Disk.readBlock_of_lt (by rw [← happlied.size]; exact hpos), hzero]
    rw [hsame]
    exact h.superblock
  · obtain ⟨image, himage, hholds⟩ := hrender.holds_overlay htables d.blocks
      (p := allocationPair sb a' _) List.mem_cons_self
    exact (loadAllocator_iff hsize).mpr
      ⟨image, himage, hregion (Nat.le_refl _) (by omega) hholds⟩
  · obtain ⟨image, himage, hholds⟩ := hrender.holds_overlay htables d.blocks
      (p := inodePair sb inodes' _) (List.mem_cons_of_mem _ List.mem_cons_self)
    exact TableFormat.load_of_holds inodeFormat_lawful hsize (by omega)
      (by omega) himage (hregion (by omega) (by omega) hholds)
  · obtain ⟨image, himage, hholds⟩ := hrender.holds_overlay htables d.blocks
      (p := directoryPair sb entries' _)
      (List.mem_cons_of_mem _ (List.mem_cons_of_mem _ List.mem_cons_self))
    exact (loadDirectoryTable_iff hsize).mpr
      ⟨image, himage, hregion (by omega) (by omega) hholds⟩
  · rw [loadJournalImage_disk hsize]
    exact happlied.vacant
  · intro b hb
    rw [hhome b (by unfold Superblock.journalRange; omega)]
    apply overlay_congr
    intro _
    apply overlay_of_notMem
    intro hmem
    obtain ⟨w, hw, rfl⟩ := List.mem_map.mp hmem
    have := range_of_tables htables hw
    omega

/-- The tables have an image, and what they and the data change fits the
journal. -/
def Storable (sb : Superblock) (d : Disk) (a : BlockAllocator)
    (inodes : List PersistedInode) (entries : List PersistedDirectoryEntry)
    (data : List (Nat × Block)) : Prop :=
  ∃ tables, renderedWrites (createImages sb a inodes entries) = .ok tables ∧
    ChangesFit sb (differing d.blocks (tables ++ data))

/-- What a transaction with these tables and data changes fits the journal. -/
def TransactionFits (sb : Superblock) (d : Disk) (a : BlockAllocator)
    (inodes : List PersistedInode) (entries : List PersistedDirectoryEntry)
    (data : List (Nat × Block)) : Prop :=
  ∀ tables, renderedWrites (createImages sb a inodes entries) = .ok tables →
    ChangesFit sb (differing d.blocks (tables ++ data))

/-- Fewer inodes and entries than on the disk can be stored if they fit. -/
theorem AtRest.storable_of_sublist (h : AtRest d sb a inodes entries)
    (htotal : a'.totalBlocks = sb.totalBlocks)
    (hreserved : a'.reservedBlocks = sb.reservedBlocks)
    (hinodes : inodes'.Sublist inodes) (hentries : entries'.Sublist entries)
    (hfits : TransactionFits sb d a' inodes' entries' data) :
    Storable sb d a' inodes' entries' data := by
  obtain ⟨image, himage⟩ := exists_allocationImage htotal hreserved
  obtain ⟨_, hold⟩ := h.inodeImage
  obtain ⟨inodeImage, hinodeImage⟩ :=
    TableFormat.exists_encodeImage_sublist hold hinodes
  obtain ⟨_, hold⟩ := h.directoryImage
  obtain ⟨directoryImage, hdirectoryImage⟩ :=
    TableFormat.exists_encodeImage_sublist hold hentries
  obtain ⟨tables, htables⟩ : ∃ tables,
      renderedWrites (createImages sb a' inodes' entries') = .ok tables := by
    simp only [createImages, renderedWrites, allocationPair, inodePair,
      directoryPair, himage, hinodeImage, hdirectoryImage, Except.ok_bind,
      Except.pure_eq_ok]
    exact ⟨_, rfl⟩
  exact ⟨tables, htables, hfits tables htables⟩

/-- How a transaction on a disk at rest may end. -/
inductive TransactionOutcome (sb : Superblock) (op : DevM Disk RecoveryReport)
    (d : Disk) (a : BlockAllocator) (inodes : List PersistedInode)
    (entries : List PersistedDirectoryEntry) (data : List (Nat × Block)) :
    Prop where
  | rejected (e : IoError) (h : op d = (.error e, d))
      (hwhy : ¬ Storable sb d a inodes entries data)
  | done (report : RecoveryReport) (d' : Disk) (h : op d = (.ok report, d'))
      (hbecame : Became sb d d' a (inodes.map PersistedInode.canonical) entries
        data)
      (hreport : report.committedTransactions = 1 ∨ d' = d)

/-- What can be stored is stored. -/
theorem TransactionOutcome.of_storable {op : DevM Disk RecoveryReport}
    (h : TransactionOutcome sb op d a inodes entries data)
    (hstorable : Storable sb d a inodes entries data) :
    ∃ report d', op d = (.ok report, d') ∧
      Became sb d d' a (inodes.map PersistedInode.canonical) entries data := by
  cases h with
  | rejected _ _ hwhy => exact absurd hstorable hwhy
  | done report d' hrun hbecame _ => exact ⟨report, d', hrun, hbecame⟩

/-- The blocks of the tables and data blocks may be named by a transaction. -/
theorem homeTarget_of_request
    (htables : renderedWrites (createImages sb a inodes entries) = .ok tables)
    (hdata : ∀ w ∈ data, sb.reservedBlocks ≤ w.1 ∧ w.1 < sb.totalBlocks)
    {w : Nat × Block} (hw : w ∈ differing d.blocks (tables ++ data)) :
    sb.homeTarget w.1 := by
  have hlayout := sb.layout
  rw [sb.homeTarget_iff]
  rcases List.mem_append.mp (List.mem_of_mem_filter hw) with hw | hw
  · have := range_of_tables htables hw
    omega
  · have := hdata w hw
    omega

/-- A transaction that fits is accepted by the journal of a disk at rest. -/
theorem AtRest.storeAccepts (h : AtRest d sb a inodes entries)
    (htables : renderedWrites (createImages sb a' inodes' entries') =
      .ok tables)
    (hdata : ∀ w ∈ data, sb.reservedBlocks ≤ w.1 ∧ w.1 < sb.totalBlocks)
    (hfits : ChangesFit sb (differing d.blocks (tables ++ data))) :
    StoreAccepts sb d
      (transactionEntries (differing d.blocks (tables ++ data))) :=
  (storeAccepts_transactionEntries fun _ hw =>
    homeTarget_of_request htables hdata hw).mpr ⟨h.size, h.vacant, hfits⟩

/-- A disk that already has the tables became what was asked for. -/
theorem AtRest.became_self (h : AtRest d sb a inodes entries)
    (htables : renderedWrites (createImages sb a' inodes' entries') =
      .ok tables)
    (hdata : ∀ w ∈ data, sb.reservedBlocks ≤ w.1)
    (hnodup : (data.map Prod.fst).Nodup)
    (hsame : differing d.blocks (tables ++ data) = []) :
    Became sb d d a' (inodes'.map PersistedInode.canonical) entries' data := by
  apply h.became htables hdata hnodup
  rw [hsame]
  exact ⟨rfl, h.vacant, fun _ _ => rfl⟩

/-- A disk that keeps its tables became itself. -/
theorem AtRest.became_refl (h : AtRest d sb a inodes entries) :
    Became sb d d a inodes entries [] :=
  ⟨h, fun _ _ => rfl⟩

/-- `store_create_metadata_journaled` on a disk at rest. -/
theorem AtRest.storeCreateMetadata (h : AtRest d sb a inodes entries)
    (a' : BlockAllocator) (inodes' : List PersistedInode)
    (entries' : List PersistedDirectoryEntry) :
    TransactionOutcome sb (storeCreateMetadataJournaled sb a' inodes' entries')
      d a' inodes' entries' [] := by
  cases htables : renderedWrites (createImages sb a' inodes' entries') with
  | error e =>
    obtain ⟨e', herr⟩ := createMetadata_rejected htables d
    apply TransactionOutcome.rejected e' herr
    intro hfacts
    rcases hfacts with ⟨tables, htables', _⟩
    rw [htables] at htables'
    cases htables'
  | ok tables =>
    have hempty : tables ++ [] = tables := List.append_nil tables
    cases stores_createMetadata htables d with
    | rejected e herr =>
      apply TransactionOutcome.rejected e herr
      intro hfacts
      rcases hfacts with ⟨tables', htables', hfits⟩
      rw [htables, Except.ok.injEq] at htables'
      subst htables'
      have haccepts := h.storeAccepts htables (by simp) hfits
      rw [hempty] at haccepts
      obtain ⟨report, d', hok⟩ := storeImagesJournaled_ok
        recovers_recoverJournalAndCheckpoint
        (renderings_createImages sb a' inodes' entries') h.size htables
        haccepts
        "atomic-create device geometry does not match superblock"
        "atomic-create image rendered outside allocation, inode, and directory regions"
        "atomic-create recovery report does not match one complete transaction"
      have hboth := herr.symm.trans hok
      cases hboth
    | same hws hrun =>
      apply TransactionOutcome.done _ _ hrun
      · apply h.became_self htables (by simp) (by simp)
        rw [hempty]
        exact differing_eq_nil.mpr hws
      · exact .inr rfl
    | committed hacc hrun =>
      apply TransactionOutcome.done _ _ hrun
      · apply h.became htables (by simp) (by simp)
        rw [hempty]
        exact hacc.applied
      · exact .inl rfl

/-- On a disk at rest, storing another directory table is storing all three
tables. -/
theorem AtRest.directoryTables (h : AtRest d sb a inodes entries)
    (hws : renderedWrites (directoryImages sb entries') = .ok ws) :
    ∃ tables, renderedWrites (createImages sb a inodes entries') =
        .ok tables ∧ differing d.blocks tables = differing d.blocks ws := by
  obtain ⟨image, himage, hholds⟩ := (loadAllocator_iff h.size).mp h.allocator
  obtain ⟨inodeImage, hinodeImage, _, hinodeHolds⟩ :=
    (loadInodeTable_iff h.size).mp h.inodeTable
  have hws' : renderedWrites [directoryPair sb entries'
      "atomic-create image did not render every directory metadata block"] =
        .ok ws := hws
  obtain ⟨vs, hvs, hsame⟩ := renderedWrites_held
    (p := inodePair sb inodes
      "atomic-create image did not render every inode metadata block")
    hinodeImage hinodeHolds hws'
  obtain ⟨tables, htables, hsame'⟩ := renderedWrites_held
    (p := allocationPair sb a
      "atomic-create image did not render every allocation metadata block")
    himage hholds hvs
  exact ⟨tables, htables, hsame'.trans hsame⟩

/-- A directory table that is stored with the other two has an image. -/
theorem renderedWrites_directoryImages
    (htables : renderedWrites (createImages sb a inodes entries) =
      .ok tables) :
    ∃ ws, renderedWrites (directoryImages sb entries) = .ok ws := by
  simp only [createImages, renderedWrites, directoryPair, Except.bind_eq_ok]
    at htables
  obtain ⟨_, _, _, ⟨_, _, _, ⟨image, himage, _⟩, _⟩, _⟩ := htables
  simp only [directoryImages, renderedWrites, directoryPair, himage,
    Except.ok_bind, Except.pure_eq_ok]
  exact ⟨_, rfl⟩

/-- `store_directory_table_journaled` on a disk at rest: it is rejected, it
finds the table in place, or it leaves its transaction in the journal. -/
theorem AtRest.storeDirectoryTable (h : AtRest d sb a inodes entries)
    (entries' : List PersistedDirectoryEntry) :
    (∃ e, storeDirectoryTableJournaled sb entries' d = (.error e, d) ∧
      ¬ Storable sb d a inodes entries' []) ∨
    (storeDirectoryTableJournaled sb entries' d =
        (.ok RecoveryReport.default, d) ∧
      Became sb d d a inodes entries' []) ∨
    ∃ changed d', storeDirectoryTableJournaled sb entries' d =
        (.ok ⟨1, changed.length⟩, d') ∧ Logged sb d d' changed ∧
      ∀ final, Applied sb d final changed →
        Became sb d final a inodes entries' [] := by
  rcases storeImagesJournaled_cases recovers_recoverJournal
    (renderings_directoryImages sb entries') d
    "journaled directory-table device geometry does not match superblock"
    "directory-table image rendered outside directory metadata region"
    "journaled directory-table recovery report does not match one complete transaction"
    with ⟨e, herr⟩ | ⟨ws, hsize, hws, hrun⟩
  · left
    refine ⟨e, herr, ?_⟩
    intro hfacts
    rcases hfacts with ⟨tables, htables, hfits⟩
    obtain ⟨ws, hws⟩ := renderedWrites_directoryImages htables
    obtain ⟨tables', htables', hdiffering⟩ := h.directoryTables hws
    rw [htables, Except.ok.injEq] at htables'
    subst htables'
    have haccepts := h.storeAccepts htables (by simp) hfits
    rw [List.append_nil, hdiffering] at haccepts
    obtain ⟨report, d', hok⟩ := storeImagesJournaled_ok
      recovers_recoverJournal (renderings_directoryImages sb entries') h.size
      hws haccepts
      "journaled directory-table device geometry does not match superblock"
      "directory-table image rendered outside directory metadata region"
      "journaled directory-table recovery report does not match one complete transaction"
    have hboth := herr.symm.trans hok
    cases hboth
  · right
    obtain ⟨tables, htables, hdiffering⟩ := h.directoryTables hws
    have hbecame : ∀ final, Applied sb d final (differing d.blocks ws) →
        Became sb d final a inodes entries' [] := by
      intro final happlied
      rw [← h.canonical]
      apply h.became htables (by simp) (by simp)
      rw [List.append_nil, hdiffering]
      exact happlied
    rcases hrun with ⟨hsame, hrun⟩ | ⟨hacc, hrun⟩
    · left
      refine ⟨hrun, hbecame d ?_⟩
      rw [differing_eq_nil.mpr hsame]
      exact ⟨rfl, h.vacant, fun _ _ => rfl⟩
    · exact .inr ⟨_, _, hrun, hacc.logged, hbecame⟩

/-- A directory table that can be stored is stored, and is in place behind the
next recovery. -/
theorem AtRest.storeDirectoryTable_ok (h : AtRest d sb a inodes entries)
    (hstorable : Storable sb d a inodes entries' []) :
    ∃ report d' report' d'', storeDirectoryTableJournaled sb entries' d =
        (.ok report, d') ∧
      recoverJournalAndCheckpoint sb d' = (.ok report', d'') ∧
      Became sb d d'' a inodes entries' [] := by
  rcases h.storeDirectoryTable entries' with
    ⟨_, _, hwhy⟩ | ⟨hrun, hbecame⟩ | ⟨_, d', hrun, hlogged, hbecame⟩
  · exact absurd hstorable hwhy
  · exact ⟨_, d, _, d, hrun, h.recover, hbecame⟩
  · obtain ⟨_, final, hrecover, happlied⟩ := hlogged.recover h.size
    exact ⟨_, d', _, final, hrun, hrecover, hbecame final happlied⟩

end Tables

/-- The stores of a directory table that checkpoint their own transaction. -/
def storeDirectoryTableAndCheckpoint {σ : Type} [BlockDevice σ]
    (sb : Superblock) (entries : List PersistedDirectoryEntry) :
    DevM σ RecoveryReport := do
  let report ← storeDirectoryTableJournaled sb entries
  let _ ← recoverJournalAndCheckpoint sb
  pure report

/-- A store of a directory table with its checkpoint on a disk at rest. -/
theorem AtRest.storeDirectoryTableAndCheckpoint {d : Disk} {sb : Superblock}
    {a : BlockAllocator} {inodes : List PersistedInode}
    {entries : List PersistedDirectoryEntry}
    (h : AtRest d sb a inodes entries)
    (entries' : List PersistedDirectoryEntry) :
    TransactionOutcome sb
      (FilesystemLab.storeDirectoryTableAndCheckpoint sb entries') d a inodes
      entries' [] := by
  rcases h.storeDirectoryTable entries' with ⟨e, herr, hwhy⟩ |
    ⟨hrun, hbecame⟩ | ⟨changed, d', hrun, hlogged, hbecame⟩
  · apply TransactionOutcome.rejected e _ hwhy
    exact Effect.bind_of_error herr
  · refine TransactionOutcome.done RecoveryReport.default d ?_ ?_ (.inr rfl)
    · rw [FilesystemLab.storeDirectoryTableAndCheckpoint,
        Effect.bind_of_ok hrun, Effect.bind_of_ok h.recover]
      rfl
    · rw [h.canonical]
      exact hbecame
  · obtain ⟨report, final, hrecover, happlied⟩ := hlogged.recover h.size
    refine TransactionOutcome.done ⟨1, changed.length⟩ final ?_ ?_ (.inl rfl)
    · rw [FilesystemLab.storeDirectoryTableAndCheckpoint,
        Effect.bind_of_ok hrun, Effect.bind_of_ok hrecover]
      rfl
    · rw [h.canonical]
      exact hbecame final happlied

/-! ## Formatted disks -/

/-- A freshly formatted disk is at rest. -/
theorem atRest_formatted {sb : Superblock} {a : BlockAllocator}
    {inodes : List PersistedInode} {entries : List PersistedDirectoryEntry}
    {inodeImage directoryImage : List UInt8} (data : Nat → Block)
    (htotal : a.totalBlocks = sb.totalBlocks)
    (hreserved : a.reservedBlocks = sb.reservedBlocks)
    (hinodes : inodeFormat.encodeImage sb.inodeBlocks inodes = .ok inodeImage)
    (hcanonical : inodes.map PersistedInode.canonical = inodes)
    (hentries : directoryFormat.encodeImage sb.directoryBlocks entries =
      .ok directoryImage) :
    AtRest (formatted sb a inodes entries data) sb a inodes entries := by
  obtain ⟨image, himage⟩ := exists_allocationImage htotal hreserved
  obtain ⟨hsb, ha, hloadInodes, hloadEntries⟩ :=
    load_formatted data himage hinodes hcanonical hentries
  refine ⟨hsb, ha, hloadInodes, hloadEntries, ?_⟩
  rw [loadJournalImage_disk (by rfl)]
  exact journalOf_formatted

/-! ## Mounted disks -/

section Mounted

variable {d d' : Disk} {sb : Superblock} {a a' : BlockAllocator}
  {inodes inodes' : List PersistedInode}
  {entries entries' : List PersistedDirectoryEntry}
  {data : List (Nat × Block)}

/-- A block that is not written keeps its contents. -/
theorem Became.readBlock_eq (h : Became sb d d' a' inodes' entries' data)
    (hsize : sb.totalBlocks = d.size) {b : Nat} (hb : sb.reservedBlocks ≤ b)
    (hlt : b < sb.totalBlocks) (hdata : b ∉ data.map Prod.fst) :
    readBlock d' b = readBlock d b := by
  have hsize' := h.size
  rw [Disk.readBlock_of_lt (by omega), Disk.readBlock_of_lt (by omega),
    h.contents b hb, overlay_of_notMem hdata]

/-- The payload of a link whose blocks are data blocks that nothing writes. -/
theorem Became.payload (h : Became sb d d' a' inodes' entries' data)
    (hsize : sb.totalBlocks = d.size) {inode : PersistedInode}
    (hblocks : ∀ block ∈ inode.blocks, sb.reservedBlocks ≤ block.toNat ∧
      block.toNat < sb.totalBlocks ∧ block.toNat ∉ data.map Prod.fst) :
    validateSymlinkInode d' inode = validateSymlinkInode d inode := by
  apply validateSymlinkInode_congr
  intro b hb
  obtain ⟨hlo, hhi, hdata⟩ := hblocks b hb
  exact h.readBlock_eq hsize hlo hhi hdata

end Mounted

end FilesystemLab
