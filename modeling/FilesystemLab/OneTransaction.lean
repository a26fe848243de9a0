import FilesystemLab.CrashSafe
import FilesystemLab.CloneReplace
import FilesystemLab.Defragment
import FilesystemLab.FileOperations
import FilesystemLab.RecursiveRemove
import FilesystemLab.RenamePosix

/-!
# Every call is one transaction

The calls of the library end in one of a few publications.  Each publication is
guarded whatever it publishes, and so is each call, whatever it reads before:
the `simp` lemmas of `CrashSafe` go through its reads and checks and leave the
publication at its end.
-/

namespace FilesystemLab

open WriteLog

variable {sb : Superblock} {d : Disk}

/-! ## The publications -/

/-- A stream that commits no write keeps the effective blocks. -/
theorem StoreAccepts.commits {entries : List JournalEntry}
    (h : StoreAccepts sb d entries) (hnone : committedWrites entries = []) :
    Commits sb d (d.commit (storeEpochs sb entries)) d.blocks d.blocks := by
  have hpublished : ∀ img,
      CrashImage d.blocks (barriers (storeEpochs sb entries)) img →
        Views sb img d.blocks := by
    intro img hc
    have hpub := h.published hc
    rcases hpub.stream with ⟨_, hload⟩ | hload
    · exact ⟨[], hload, hpub.home⟩
    · refine ⟨entries, hload, ?_⟩
      rw [hnone]
      exact hpub.home
  refine ⟨⟨_, rfl, fun img hc => .inl (hpublished img hc)⟩, ?_⟩
  rw [Disk.blocks_commit]
  exact hpublished _ (crashImage_settle _ _)

/-- The publication of a transaction without writes. -/
theorem guarded_publishTransaction_nil (mismatch : String) :
    Guarded sb (publishTransaction mismatch sb []) d := by
  intro view hd
  have hnone : committedWrites (transactionEntries []) = [] :=
    committedWrites_of_plan (planRecovery_transactionEntries (by simp))
  have htransaction : JournalLog.transaction [] =
      .ok (transactionEntries []) := JournalLog.transaction_eq []
  have hrun : ∀ d₀ : Disk, (publishTransaction mismatch sb [] : DevM Disk _) d₀ =
      (storeJournalImage sb (transactionEntries []) >>= fun _ => do
        let report ← recoverJournalAndCheckpoint sb
        rejectIf (report.committedTransactions ≠ 1 ∨
          report.homeWrites ≠ ([] : List (Nat × Block)).length)
          (invalidData mismatch)
        pure report) d₀ := by
    intro d₀
    rw [publishTransaction, htransaction]
    rfl
  rcases storeJournalImage_cases sb d (transactionEntries []) with
    ⟨_, e, herr⟩ | ⟨haccepts, hstore⟩
  · apply guarded_of_unchanged _ view hd
    rw [hrun, Effect.bind_of_error herr]
  · have hquiet := (haccepts.commits hnone).congr
      (fun b hb => hd.views.of_vacant haccepts.vacant hb)
      (fun b hb => hd.views.of_vacant haccepts.vacant hb)
    obtain ⟨report, hrecover, hagain, _⟩ := (hquiet.holding hd).recover
    refine .quiet ?_
    rw [hrun, Effect.bind_of_ok hstore, Effect.bind_of_ok hrecover,
      Effect.lift_bind]
    -- whatever the last check says
    split
    · exact hquiet.trans hagain (.inl rfl)
    · exact hquiet.trans hagain (.inl rfl)

theorem guarded_publishTransaction {changed : List (Nat × Block)}
    (hlt : ∀ w ∈ changed, w.1 < U64_LIMIT) (mismatch : String) :
    Guarded sb (publishTransaction mismatch sb changed) d := by
  by_cases hnil : changed = []
  · subst hnil
    exact guarded_publishTransaction_nil mismatch
  · rw [publishTransaction_eq hnil]
    exact guarded_publishChanges hlt mismatch

theorem dataWrites_lt (data : List (UInt64 × Block)) :
    ∀ w ∈ dataWrites data, w.1 < U64_LIMIT := by
  intro w hw
  obtain ⟨v, _, rfl⟩ := List.mem_map.mp hw
  exact v.1.toNat_lt

theorem lt_of_mem_append {ws vs : List (Nat × Block)}
    (hws : ∀ w ∈ ws, w.1 < U64_LIMIT) (hvs : ∀ w ∈ vs, w.1 < U64_LIMIT) :
    ∀ w ∈ ws ++ vs, w.1 < U64_LIMIT := by
  intro w hw
  rcases List.mem_append.mp hw with hw | hw
  · exact hws w hw
  · exact hvs w hw

/-- Tables that are collected, then published with some data blocks. -/
theorem Renderings.guarded_collect
    {ps : List (TableImage × Result (List UInt8))} (h : Renderings sb ps)
    (unexpected : String) (data : List (UInt64 × Block))
    {publish : List (Nat × Block) → DevM Disk RecoveryReport}
    (hpublish : ∀ changed, (∀ w ∈ changed, w.1 < U64_LIMIT) →
      Guarded sb (publish changed) d) :
    Guarded sb (Effect.query (ImageStore.collect ⟨ps.map Prod.fst, unexpected⟩
      sb) >>= fun tables => publish (tables ++ dataWrites data)) d := by
  intro view hd
  refine guarded_query_bind.mpr (fun tables htables => ?_) view hd
  exact hpublish _ (lt_of_mem_append (h.collect_lt hd.size htables)
    (dataWrites_lt data))

@[simp] theorem guarded_publishFileChanges (label : String) (a : BlockAllocator)
    (inodes : List PersistedInode) (data : List (UInt64 × Block)) :
    Guarded sb (publishFileChanges label sb a inodes data) d :=
  (renderings_fileTables label sb a inodes).guarded_collect _ data
    fun _ hlt => guarded_publishTransaction hlt _

@[simp] theorem guarded_publishExchangeInodes (inodes : List PersistedInode) :
    Guarded sb (publishExchangeInodes sb inodes) d := by
  intro view hd
  refine guarded_query_bind.mpr (fun changes hchanges => ?_) view hd
  exact guarded_publishTransaction
    ((renderings_inodeTable sb inodes _).collect_lt hd.size hchanges) _

@[simp] theorem guarded_publishInodeTableTransfer
    (inodes : List PersistedInode) :
    Guarded sb (publishInodeTableTransfer sb inodes) d := by
  intro view hd
  refine guarded_query_bind.mpr (fun changes hchanges => ?_) view hd
  exact guarded_publishTransaction
    ((renderings_inodeTable sb inodes _).collect_lt hd.size hchanges) _

@[simp] theorem guarded_publishWholeFileExchange
    (inodes : List PersistedInode) :
    Guarded sb (publishWholeFileExchange sb inodes) d := by
  intro view hd
  refine guarded_query_bind.mpr (fun changes hchanges => ?_) view hd
  exact guarded_publishChanges
    ((renderings_inodeTable sb inodes _).collect_lt hd.size hchanges) _

@[simp] theorem guarded_publishWholeFileTransferReplace
    (inodes : List PersistedInode) (a : BlockAllocator) :
    Guarded sb (publishWholeFileTransferReplace sb inodes a) d := by
  intro view hd
  refine guarded_query_bind.mpr (fun changes hchanges => ?_) view hd
  exact guarded_publishChanges ((renderings_transferReplaceTables sb a
    inodes).collect_lt hd.size hchanges) _

@[simp] theorem guarded_storeUnlinkMetadata (a : BlockAllocator)
    (inodes : List PersistedInode) (entries : List PersistedDirectoryEntry) :
    Guarded sb (storeUnlinkMetadataJournaled sb a inodes entries) d := by
  simp [storeUnlinkMetadataJournaled]

/-- Data blocks are collected behind what was collected before. -/
theorem collectData_lt {data : List (UInt64 × Block)}
    {before after : List (Nat × Block)}
    (hcollect : collectData d data before = .ok after)
    (hlt : ∀ w ∈ before, w.1 < U64_LIMIT) : ∀ w ∈ after, w.1 < U64_LIMIT := by
  induction data generalizing before with
  | nil =>
    rw [collectData, Except.pure_eq_ok, Except.ok.injEq] at hcollect
    rw [← hcollect]
    exact hlt
  | cons v vs ih =>
    rw [collectData, Except.bind_eq_ok] at hcollect
    obtain ⟨current, _, hrest⟩ := hcollect
    apply ih hrest
    split
    · refine lt_of_mem_append hlt ?_
      intro w hw
      rw [List.mem_singleton.mp hw]
      exact v.1.toNat_lt
    · exact hlt

@[simp] theorem guarded_storeCreateWithBlocks (a : BlockAllocator)
    (inodes : List PersistedInode) (entries : List PersistedDirectoryEntry)
    (data : List (UInt64 × Block)) :
    Guarded sb (storeCreateWithBlocksJournaled sb a inodes entries data) d := by
  intro view hd
  refine guarded_query_bind.mpr (fun _ _ => ?_) view hd
  rw [guarded_lift_bind]
  intro _ _
  rw [guarded_query_bind]
  intro tables htables
  rw [guarded_query_bind]
  intro changed hchanged
  have hlt := (renderings_createDataImages sb a inodes entries).collect_lt
    hd.size htables
  exact guarded_publishChanges (collectData_lt hchanged hlt) _

/-! ## The edits of the block list -/

@[simp] theorem guarded_spliceBlocks (label : String)
    (take : BlockAllocator → Result (List UInt64 × BlockAllocator))
    (a : BlockAllocator) (inodes : List PersistedInode)
    (inode : PersistedInode) (start stop : Nat) (images : List Block) :
    Guarded sb (spliceBlocks label take sb a inodes inode start stop images)
      d := by
  simp [spliceBlocks]

@[simp] theorem guarded_insertBlocks (label : String)
    (take : BlockAllocator → Result (List UInt64 × BlockAllocator))
    (id : UInt64) (insertIndex : Nat) (images : List Block) :
    Guarded sb (insertBlocks label take sb id insertIndex images) d := by
  simp [insertBlocks]

@[simp] theorem guarded_appendBlocks (label : String)
    (take : BlockAllocator → Result (List UInt64 × BlockAllocator))
    (id : UInt64) (images : List Block) :
    Guarded sb (appendBlocks label take sb id images) d := by
  simp [appendBlocks]

@[simp] theorem guarded_appendFileBlocks (id : UInt64) (data : List Block) :
    Guarded sb (appendFileBlocksJournaled sb id data) d := by
  simp [appendFileBlocksJournaled]

@[simp] theorem guarded_appendFileBlock (id : UInt64) (data : Block) :
    Guarded sb (appendFileBlockJournaled sb id data) d := by
  simp [appendFileBlockJournaled]

@[simp] theorem guarded_appendFileBlocksContiguous (id : UInt64)
    (data : List Block) :
    Guarded sb (appendFileBlocksContiguousJournaled sb id data) d := by
  simp [appendFileBlocksContiguousJournaled]

@[simp] theorem guarded_insertFileBlock (id : UInt64) (insertIndex : Nat)
    (data : Block) :
    Guarded sb (insertFileBlockJournaled sb id insertIndex data) d := by
  simp [insertFileBlockJournaled]

@[simp] theorem guarded_insertFileBlocks (id : UInt64) (insertIndex : Nat)
    (data : List Block) :
    Guarded sb (insertFileBlocksJournaled sb id insertIndex data) d := by
  simp [insertFileBlocksJournaled]

@[simp] theorem guarded_insertFileBlocksContiguous (id : UInt64)
    (insertIndex : Nat) (data : List Block) :
    Guarded sb (insertFileBlocksContiguousJournaled sb id insertIndex data)
      d := by
  simp [insertFileBlocksContiguousJournaled]

@[simp] theorem guarded_collapseFileBlockRange (id : UInt64)
    (start blockCount : Nat) :
    Guarded sb (collapseFileBlockRangeJournaled sb id start blockCount) d := by
  simp [collapseFileBlockRangeJournaled]

@[simp] theorem guarded_removeFileBlock (id : UInt64) (removeIndex : Nat) :
    Guarded sb (removeFileBlockJournaled sb id removeIndex) d := by
  simp [removeFileBlockJournaled]

@[simp] theorem guarded_replaceFileBlocks (id : UInt64)
    (start removeCount : Nat) (replacements : List Block) :
    Guarded sb (replaceFileBlocksJournaled sb id start removeCount replacements)
      d := by
  simp [replaceFileBlocksJournaled]

@[simp] theorem guarded_replaceFileBlocksContiguous (id : UInt64)
    (start removeCount : Nat) (replacements : List Block) :
    Guarded sb (replaceFileBlocksContiguousJournaled sb id start removeCount
      replacements) d := by
  simp [replaceFileBlocksContiguousJournaled]

@[simp] theorem guarded_cloneFileBlocksAppend (sourceInode : UInt64)
    (sourceStart blockCount : Nat) (destinationInode : UInt64) :
    Guarded sb (cloneFileBlocksAppendJournaled sb sourceInode sourceStart
      blockCount destinationInode) d := by
  simp [cloneFileBlocksAppendJournaled]

@[simp] theorem guarded_cloneFileBlocksInsert (sourceInode : UInt64)
    (sourceStart blockCount : Nat) (destinationInode : UInt64)
    (destinationLogicalIndex : Nat) :
    Guarded sb (cloneFileBlocksInsertJournaled sb sourceInode sourceStart
      blockCount destinationInode destinationLogicalIndex) d := by
  simp [cloneFileBlocksInsertJournaled]

@[simp] theorem guarded_cloneFileBlocksReplace (sourceInode : UInt64)
    (sourceStart blockCount : Nat) (destinationInode : UInt64)
    (destinationStart : Nat) :
    Guarded sb (cloneFileBlocksReplaceJournaled sb sourceInode sourceStart
      blockCount destinationInode destinationStart) d := by
  simp [cloneFileBlocksReplaceJournaled]

@[simp] theorem guarded_cloneFileBlocksSplice
    (source destination : FileBlockRange) :
    Guarded sb (cloneFileBlocksSpliceJournaled sb source destination) d := by
  simp [cloneFileBlocksSpliceJournaled]

/-! ## The lengths of files -/

@[simp] theorem guarded_truncateFileToBlocks (id : UInt64)
    (targetBlocks : Nat) :
    Guarded sb (truncateFileToBlocksJournaled sb id targetBlocks) d := by
  simp [truncateFileToBlocksJournaled]

@[simp] theorem guarded_truncateFileToZero (id : UInt64) :
    Guarded sb (truncateFileToZeroJournaled sb id) d := by
  simp [truncateFileToZeroJournaled]

@[simp] theorem guarded_truncateFileLastBlock (id : UInt64) :
    Guarded sb (truncateFileLastBlockJournaled sb id) d := by
  simp [truncateFileLastBlockJournaled]

@[simp] theorem guarded_truncateFileToBytes (id targetBytes : UInt64) :
    Guarded sb (truncateFileToBytesJournaled sb id targetBytes) d := by
  simp [truncateFileToBytesJournaled]

@[simp] theorem guarded_growFileToBytes (id targetBytes : UInt64) :
    Guarded sb (growFileToBytesJournaled sb id targetBytes) d := by
  simp [growFileToBytesJournaled]

/-! ## The writes into files -/

@[simp] theorem guarded_writeFileBlocks (id : UInt64)
    (writes : List (Nat × Block)) :
    Guarded sb (writeFileBlocksJournaled sb id writes) d := by
  simp only [writeFileBlocksJournaled, guarded_lift_bind, guarded_query_bind]
  intros
  exact guarded_publishChanges (dataWrites_lt _) _

@[simp] theorem guarded_writeFileBlock (id : UInt64) (index : Nat)
    (data : Block) : Guarded sb (writeFileBlockJournaled sb id index data) d := by
  simp only [writeFileBlockJournaled, journalBlockImage, guarded_query_bind,
    guarded_ite]
  intro block _ current _
  refine ⟨fun _ => guarded_pure _, fun _ => ?_⟩
  exact guarded_publishChanges (dataWrites_lt [(block, data)]) _

@[simp] theorem guarded_writeFileRange (id : UInt64)
    (firstBlock startOffset : Nat) (data : List UInt8) :
    Guarded sb (writeFileRangeJournaled sb id firstBlock startOffset data)
      d := by
  simp only [writeFileRangeJournaled, guarded_query_bind]
  intro writes _
  exact (guarded_writeFileBlocks id writes).abortable

@[simp] theorem guarded_writeFileBlockRange (id : UInt64)
    (index offset : Nat) (data : List UInt8) :
    Guarded sb (writeFileBlockRangeJournaled sb id index offset data) d := by
  simp [writeFileBlockRangeJournaled]

@[simp] theorem guarded_zeroFileRange (id : UInt64)
    (firstBlock offset len : Nat) :
    Guarded sb (zeroFileRangeJournaled sb id firstBlock offset len) d := by
  simp [zeroFileRangeJournaled]

@[simp] theorem guarded_copyFileRange (source destination : FileRangeEndpoint)
    (len : Nat) :
    Guarded sb (copyFileRangeJournaled sb source destination len) d := by
  rw [copyFileRangeJournaled, guarded_bind_unchanged rfl]
  intros
  exact guarded_writeFileRange _ _ _ _

@[simp] theorem guarded_writeFileRangeExtending (id startOffset : UInt64)
    (data : List UInt8) :
    Guarded sb (writeFileRangeExtendingJournaled sb id startOffset data) d := by
  simp only [writeFileRangeExtendingJournaled, guarded_lift_bind,
    guarded_query_bind]
  intro _ _ _ _ endOffset _ plan _
  cases plan with
  | overwrite firstBlockIndex blockOffset => simp
  | extend plan =>
    exact guarded_map.mpr (guarded_publishFileChanges _ _ _ _).abortable

/-! ## The moves of block references -/

@[simp] theorem guarded_blockMove (move : BlockMove) :
    Guarded sb (move.run sb) d := by
  cases move with
  | exchange => simp [BlockMove.run, exchangeFileBlockRangesJournaled]
  | exchangeVariable =>
    simp [BlockMove.run, exchangeVariableFileBlockRangesJournaled]
  | exchangeSame => simp [BlockMove.run, exchangeSameFileBlockRangesJournaled]
  | exchangeComplete =>
    simp only [BlockMove.run, exchangeCompleteFileBlocksJournaled,
      guarded_lift_bind, guarded_query_bind]
    intro _ _ _ _ _ _ inodes' _
    cases inodes' <;> simp
  | transfer => simp [BlockMove.run, transferFileBlockRangeJournaled]
  | move => simp [BlockMove.run, moveFileBlockRangeJournaled]

@[simp] theorem guarded_transferReplaceComplete
    (sourceInode destinationInode : UInt64) :
    Guarded sb (transferReplaceCompleteFileBlocksJournaled sb sourceInode
      destinationInode) d := by
  simp only [transferReplaceCompleteFileBlocksJournaled, guarded_lift_bind,
    guarded_query_bind]
  intro _ _ _ _ _ _ tables _
  cases tables <;> simp

@[simp] theorem guarded_relocateBlocks (unowned : String) (id : UInt64)
    (a : BlockAllocator) (selected : List UInt64) (start blockCount : Nat) :
    Guarded sb (relocateBlocks unowned sb id a selected start blockCount)
      d := by
  simp [relocateBlocks]

/-! ## The names -/

@[simp] theorem guarded_createSymlink (parent : UInt64) (name target : String) :
    Guarded sb (createSymlinkJournaled sb parent name target) d := by
  simp only [createSymlinkJournaled, guarded_lift_bind, guarded_query_bind]
  intro images _ allocator _ inodes _ entries _ _ _ id _ taken _ inode _ tables
    htables view hd
  have hrendered := renderings_threeTables sb taken.2 (inodes ++ [inode])
    (entries ++ [⟨parent, id, name⟩])
    "symlink image did not render every allocation metadata block"
    "symlink image did not render every inode metadata block"
    "symlink image did not render every directory metadata block"
  have hlt := lt_of_mem_append (hrendered.collect_lt hd.size htables)
    (dataWrites_lt (taken.1.zip images))
  exact guarded_map.mpr (guarded_publishTransaction hlt _) view hd

@[simp] theorem guarded_publishLink (parent : UInt64) (name : String)
    (target : UInt64) : Guarded sb (publishLink sb parent name target) d := by
  simp [publishLink]

@[simp] theorem guarded_hardLinkFile (parent : UInt64) (name : String)
    (target : UInt64) :
    Guarded sb (hardLinkFileJournaled sb parent name target) d := by
  simp [hardLinkFileJournaled]

@[simp] theorem guarded_hardLinkSymlink (parent : UInt64) (name : String)
    (target : UInt64) :
    Guarded sb (hardLinkSymlinkJournaled sb parent name target) d := by
  simp [hardLinkSymlinkJournaled]

@[simp] theorem guarded_publishUnlink (a : BlockAllocator)
    (inodes : List PersistedInode) (entries : List PersistedDirectoryEntry)
    (index : Nat) (inode : PersistedInode) :
    Guarded sb (publishUnlink sb a inodes entries index inode) d := by
  simp [publishUnlink]

@[simp] theorem guarded_unlinkFile (parent : UInt64) (name : String) :
    Guarded sb (unlinkFileJournaled sb parent name) d := by
  simp [unlinkFileJournaled]

@[simp] theorem guarded_removeDirectory (parent : UInt64) (name : String) :
    Guarded sb (removeDirectoryJournaled sb parent name) d := by
  simp [removeDirectoryJournaled]

@[simp] theorem guarded_unlinkSymlink (parent : UInt64) (name : String) :
    Guarded sb (unlinkSymlinkJournaled sb parent name) d := by
  simp [unlinkSymlinkJournaled]

@[simp] theorem guarded_unlinkNonfinalFileLink (parent : UInt64)
    (name : String) :
    Guarded sb (unlinkNonfinalFileLinkJournaled sb parent name) d := by
  simp [unlinkNonfinalFileLinkJournaled, unlinkNonfinalLinkJournaled]

@[simp] theorem guarded_unlinkNonfinalSymlinkLink (parent : UInt64)
    (name : String) :
    Guarded sb (unlinkNonfinalSymlinkLinkJournaled sb parent name) d := by
  simp [unlinkNonfinalSymlinkLinkJournaled, unlinkNonfinalLinkJournaled]

@[simp] theorem guarded_renameEntry (oldParent : UInt64) (oldName : String)
    (newParent : UInt64) (newName : String) :
    Guarded sb (renameEntryJournaled sb oldParent oldName newParent newName)
      d := by
  simp [renameEntryJournaled]

@[simp] theorem guarded_renameOverwriteImpl (oldParent : UInt64)
    (oldName : String) (newParent : UInt64) (newName : String)
    (policy : RenameOverwritePolicy) :
    Guarded sb (renameOverwriteImpl sb oldParent oldName newParent newName
      policy) d := by
  simp [renameOverwriteImpl, publishOverwrite]

@[simp] theorem guarded_renameOverwriteNondirectory (oldParent : UInt64)
    (oldName : String) (newParent : UInt64) (newName : String) :
    Guarded sb (renameOverwriteNondirectoryJournaled sb oldParent oldName
      newParent newName) d := by
  simp [renameOverwriteNondirectoryJournaled, publishOverwrite]

@[simp] theorem guarded_renameOverwriteDirectory (oldParent : UInt64)
    (oldName : String) (newParent : UInt64) (newName : String) :
    Guarded sb (renameOverwriteDirectoryJournaled sb oldParent oldName newParent
      newName) d := by
  simp [renameOverwriteDirectoryJournaled, publishOverwrite]

@[simp] theorem guarded_renameExchangeByKind (firstParent : UInt64)
    (firstName : String) (secondParent : UInt64) (secondName : String)
    (policy : ExchangeTargetPolicy) :
    Guarded sb (renameExchangeByKindJournaled sb firstParent firstName
      secondParent secondName policy) d := by
  simp [renameExchangeByKindJournaled]

end FilesystemLab
