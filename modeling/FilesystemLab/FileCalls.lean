import FilesystemLab.DiskVolume
import FilesystemLab.NamespaceRun
import FilesystemLab.OneTransaction

/-!
# What the file calls do to the volume

`FileCall` has the calls on one file, `FilePairCall` the calls on two.  `Does`
says what a call does to the contents of its files, in terms of their blocks and
bytes only, and `Acts` what it does to a volume: the files are updated, and
nothing else changes.

`Mounted.fileCall` and `Mounted.filePairCall` show that a call on a mounted disk
that succeeds does this to the volume of the disk.
-/

namespace FilesystemLab

open Bytes WriteLog Splice

/-! ## The calls on one file -/

/-- The calls on one file, with their arguments but for the file. -/
inductive FileCall where
  | append (data : Block)
  | appendBatch (data : List Block)
  | appendContiguous (data : List Block)
  | insert (index : Nat) (data : Block)
  | insertBatch (index : Nat) (data : List Block)
  | insertContiguous (index : Nat) (data : List Block)
  | collapse (start blockCount : Nat)
  | remove (index : Nat)
  | replace (start removeCount : Nat) (replacements : List Block)
  | replaceContiguous (start removeCount : Nat) (replacements : List Block)
  | writeBlock (index : Nat) (data : Block)
  | writeBlocks (writes : List (Nat × Block))
  | writeRange (firstBlock offset : Nat) (data : List UInt8)
  | writeBlockRange (index offset : Nat) (data : List UInt8)
  | writeExtending (offset : UInt64) (data : List UInt8)
  | zeroRange (firstBlock offset len : Nat)
  | truncateToBlocks (targetBlocks : Nat)
  | truncateLastBlock
  | truncateToZero
  | truncateToBytes (targetBytes : UInt64)
  | growToBytes (targetBytes : UInt64)
  | exchangeSame (firstStart firstCount secondStart secondCount : Nat)
  | move (sourceIndex blockCount destinationIndex : Nat)

namespace FileCall

/-- The call. -/
def run (sb : Superblock) (id : UInt64) :
    FileCall → Effect (Abort IoError) Disk Unit
  | append data => Effect.ignore (Effect.abortable (appendFileBlockJournaled sb id data))
  | appendBatch data =>
    Effect.ignore (Effect.abortable (appendFileBlocksJournaled sb id data))
  | appendContiguous data =>
    Effect.ignore (Effect.abortable (appendFileBlocksContiguousJournaled sb id data))
  | insert index data =>
    Effect.ignore (Effect.abortable (insertFileBlockJournaled sb id index data))
  | insertBatch index data =>
    Effect.ignore (Effect.abortable (insertFileBlocksJournaled sb id index data))
  | insertContiguous index data =>
    Effect.ignore (Effect.abortable
      (insertFileBlocksContiguousJournaled sb id index data))
  | collapse start blockCount =>
    Effect.ignore (Effect.abortable
      (collapseFileBlockRangeJournaled sb id start blockCount))
  | remove index => Effect.ignore (Effect.abortable (removeFileBlockJournaled sb id index))
  | replace start removeCount replacements =>
    Effect.ignore (Effect.abortable
      (replaceFileBlocksJournaled sb id start removeCount replacements))
  | replaceContiguous start removeCount replacements =>
    Effect.ignore (Effect.abortable
      (replaceFileBlocksContiguousJournaled sb id start removeCount replacements))
  | writeBlock index data =>
    Effect.ignore (Effect.abortable (writeFileBlockJournaled sb id index data))
  | writeBlocks writes =>
    Effect.ignore (Effect.abortable (writeFileBlocksJournaled sb id writes))
  | writeRange firstBlock offset data =>
    Effect.ignore (writeFileRangeJournaled sb id firstBlock offset data)
  | writeBlockRange index offset data =>
    Effect.ignore (writeFileBlockRangeJournaled sb id index offset data)
  | writeExtending offset data =>
    Effect.ignore (writeFileRangeExtendingJournaled sb id offset data)
  | zeroRange firstBlock offset len =>
    Effect.ignore (zeroFileRangeJournaled sb id firstBlock offset len)
  | truncateToBlocks targetBlocks =>
    Effect.ignore (Effect.abortable (truncateFileToBlocksJournaled sb id targetBlocks))
  | truncateLastBlock =>
    Effect.ignore (Effect.abortable (truncateFileLastBlockJournaled sb id))
  | truncateToZero =>
    Effect.ignore (Effect.abortable (truncateFileToZeroJournaled sb id))
  | truncateToBytes targetBytes =>
    Effect.ignore (Effect.abortable (truncateFileToBytesJournaled sb id targetBytes))
  | growToBytes targetBytes =>
    Effect.ignore (Effect.abortable (growFileToBytesJournaled sb id targetBytes))
  | exchangeSame firstStart firstCount secondStart secondCount =>
    Effect.ignore (Effect.abortable (exchangeSameFileBlockRangesJournaled sb
      ⟨id, firstStart, firstCount⟩ ⟨id, secondStart, secondCount⟩))
  | move sourceIndex blockCount destinationIndex =>
    Effect.ignore (Effect.abortable (moveFileBlockRangeJournaled sb id sourceIndex
      blockCount destinationIndex))

/-- What the call does to the contents of the file. -/
def Does (f f' : FileData) : FileCall → Prop
  | append data => f' = f.splice f.images.length f.images.length [data]
  | appendBatch data | appendContiguous data =>
    f' = f.splice f.images.length f.images.length data
  | insert index data =>
    index ≤ f.images.length ∧ f' = f.splice index index [data]
  | insertBatch index data | insertContiguous index data =>
    index ≤ f.images.length ∧ f' = f.splice index index data
  | collapse start blockCount =>
    start + blockCount ≤ f.images.length ∧
      f' = f.splice start (start + blockCount) []
  | remove index =>
    index < f.images.length ∧ f' = f.splice index (index + 1) []
  | replace start removeCount replacements
  | replaceContiguous start removeCount replacements =>
    start + removeCount ≤ f.images.length ∧
      f' = f.splice start (start + removeCount) replacements
  | writeBlock index data =>
    index < f.images.length ∧ f' = f.setBlocks [(index, data)]
  | writeBlocks writes =>
    (writes.map Prod.fst).Nodup ∧ (∀ w ∈ writes, w.1 < f.images.length) ∧
      f' = f.setBlocks writes
  | writeRange firstBlock offset data | writeBlockRange firstBlock offset data =>
    f.Overwritten f' (firstBlock * BLOCK_SIZE + offset) data
  | writeExtending offset data => f.Extended f' offset.toNat data
  | zeroRange firstBlock offset len =>
    f.Overwritten f' (firstBlock * BLOCK_SIZE + offset) (zeros len)
  | truncateToBlocks targetBlocks =>
    targetBlocks ≤ f.images.length ∧
      f' = f.splice targetBlocks f.images.length []
  | truncateLastBlock =>
    f' = f.splice (f.images.length - 1) f.images.length []
  | truncateToZero => f' = f.splice 0 f.images.length []
  | truncateToBytes targetBytes =>
    targetBytes.toNat = f.byteLen ∧ f' = f ∨
      targetBytes.toNat < f.byteLen ∧ f.Resized f' targetBytes.toNat
  | growToBytes targetBytes =>
    f.byteLen < targetBytes.toNat ∧ f.Resized f' targetBytes.toNat
  | exchangeSame firstStart firstCount secondStart secondCount =>
    firstStart + firstCount ≤ secondStart ∧
        secondStart + secondCount ≤ f.images.length ∧
        f' = f.setImages (swapSegments f.images firstStart
          (firstStart + firstCount) secondStart (secondStart + secondCount)) ∨
      secondStart + secondCount ≤ firstStart ∧
        firstStart + firstCount ≤ f.images.length ∧
        f' = f.setImages (swapSegments f.images secondStart
          (secondStart + secondCount) firstStart (firstStart + firstCount))
  | move sourceIndex blockCount destinationIndex =>
    sourceIndex + blockCount ≤ f.images.length ∧
      destinationIndex + blockCount ≤ f.images.length ∧
      f' = f.setImages (Splice.splice (Splice.splice f.images sourceIndex
        (sourceIndex + blockCount) []) destinationIndex destinationIndex
        (segment f.images sourceIndex (sourceIndex + blockCount)))

/-- What the call does to a volume. -/
def Acts (call : FileCall) (id : UInt64) (v v' : Volume) : Prop :=
  ∃ f f', v.node id = some (.file f) ∧ call.Does f f' ∧ v' = v.setFile id f'

theorem guarded_run (call : FileCall) {sb : Superblock} {d : Disk}
    (id : UInt64) : Guarded sb (call.run sb id) d := by
  have hmove := fun m => @guarded_blockMove sb d m
  cases call with
  | exchangeSame firstStart firstCount secondStart secondCount =>
    exact guarded_map.mpr (hmove (.exchangeSame ⟨id, firstStart, firstCount⟩
      ⟨id, secondStart, secondCount⟩)).abortable
  | move sourceIndex blockCount destinationIndex =>
    have h := hmove (.move id sourceIndex blockCount destinationIndex)
    rw [BlockMove.run, guarded_map] at h
    exact guarded_map.mpr h.abortable
  | _ =>
    apply guarded_map.mpr
    first
      | exact Guarded.abortable (by simp)
      | simp

end FileCall

/-! ## From the tables to the volume -/

section Posts

variable {d d' : Disk} {sb : Superblock} {a a' : BlockAllocator}
  {inodes : List PersistedInode} {entries : List PersistedDirectoryEntry}
  {inode inode' : PersistedInode} {start stop : Nat} {fresh : List UInt64}
  {images : List Block}

/-- A splice of the block list is a splice of the contents. -/
theorem Spliced.fileData_eq
    (hs : Spliced sb d d' a a' inodes entries inode inode' start stop fresh
      images) (h : Mounted d sb a inodes entries) (hmem : inode ∈ inodes) :
    fileData d' inode' = (fileData d inode).splice start stop images := by
  have himages : fileImages d' inode' =
      Splice.splice (fileImages d inode) start stop images :=
    hs.fileImages_eq h hmem
  apply FileData.ext himages
  have hlen := length_fileImages d' inode'
  have hnil : fileImages d' inode' = [] ↔ inode'.blocks = [] :=
    List.map_eq_nil_iff
  show inode'.byteLen.toNat = if Splice.splice _ _ _ _ = [] then 0 else
    (Splice.splice _ _ _ _).length * BLOCK_SIZE - (fileData d inode).slack
  rw [fileData_images, ← himages, hlen, fileData_slack, hs.byteLen_eq]
  simp only [hnil]

theorem FileChanged.acts
    (hx : FileChanged sb d d' a' inodes entries inode inode')
    (h : Mounted d sb a inodes entries) (hmem : inode ∈ inodes)
    (hkind : inode.kind = .file) {call : FileCall}
    (hdoes : call.Does (fileData d inode) (fileData d' inode')) :
    Consistent sb d' ∧ call.Acts inode.id (volumeOf sb d) (volumeOf sb d') :=
  ⟨⟨a', _, entries, hx.mounted⟩, _, _, h.node_file hmem hkind, hdoes,
    hx.volumeOf_eq h hmem⟩

theorem Spliced.acts
    (hs : Spliced sb d d' a a' inodes entries inode inode' start stop fresh
      images) (h : Mounted d sb a inodes entries) (hmem : inode ∈ inodes)
    (hkind : inode.kind = .file) {call : FileCall}
    (hdoes : start ≤ stop → stop ≤ (fileData d inode).images.length →
      call.Does (fileData d inode)
        ((fileData d inode).splice start stop images)) :
    Consistent sb d' ∧ call.Acts inode.id (volumeOf sb d) (volumeOf sb d') := by
  apply (hs.fileChanged h).acts h hmem hkind
  rw [hs.fileData_eq h hmem]
  apply hdoes hs.start_le
  rw [fileData_images, length_fileImages]
  exact hs.stop_le

/-- A call that leaves the file as it is. -/
theorem Mounted.acts_self (h : Mounted d sb a inodes entries)
    (hmem : inode ∈ inodes) (hkind : inode.kind = .file) {call : FileCall}
    (hdoes : call.Does (fileData d inode) (fileData d inode)) :
    Consistent sb d ∧ call.Acts inode.id (volumeOf sb d) (volumeOf sb d) :=
  ⟨⟨a, inodes, entries, h⟩, _, _, h.node_file hmem hkind, hdoes,
    (Volume.setFile_of_node (h.node_file hmem hkind)).symm⟩

/-- A file with other blocks of its own. -/
theorem fileData_rearranged {blocks : List UInt64} {images : List Block}
    (hblocks : inode'.blocks = blocks) (hlen : inode'.byteLen = inode.byteLen)
    (himages : blocks.map (fun block => d.blocks block.toNat) = images) :
    fileData d inode' = (fileData d inode).setImages images := by
  apply FileData.ext
  · show inode'.blocks.map _ = images
    rw [hblocks, himages]
  · show inode'.byteLen.toNat = inode.byteLen.toNat
    rw [hlen]

/-- A range write on a mounted disk. -/
theorem Mounted.rangeActs (h : Mounted d sb a inodes entries)
    (call : FileCall) (id : UInt64) (firstBlock offset : Nat) (data : List UInt8)
    (hdoes : ∀ f f' : FileData,
      f.Overwritten f' (firstBlock * BLOCK_SIZE + offset) data →
        call.Does f f') :
    Effect.Atomic (writeFileRangeJournaled sb id firstBlock offset data) d
      fun _ d' => Consistent sb d' ∧
        call.Acts id (volumeOf sb d) (volumeOf sb d') := by
  apply (h.rangeRewritten id firstBlock offset data).mono
  intro report d' hpost
  obtain ⟨inode, hmem, rfl, hkind, hinside, a', hr, hspace⟩ := hpost
  exact hr.toFileChanged.acts h hmem hkind
    (hdoes _ _ ⟨hinside, rfl, hspace⟩)

/-- An extending write on a mounted disk. -/
theorem Mounted.extendingActs (h : Mounted d sb a inodes entries) (id offset : UInt64)
    (data : List UInt8) :
    Effect.Atomic (writeFileRangeExtendingJournaled sb id offset data) d
      fun _ d' => Consistent sb d' ∧ (FileCall.writeExtending offset data).Acts
        id (volumeOf sb d) (volumeOf sb d') := by
  apply Effect.atomic_lift_bind
  intro _ hne
  apply Effect.atomic_lift_bind
  intro _ hlen
  apply Effect.atomic_lift_bind
  intro stop hstop
  cases hplan : prepareWritePlan d sb id offset.toNat stop data with
  | error e =>
    left
    refine ⟨e, ?_⟩
    rw [Effect.query_bind, hplan]
  | ok plan =>
    obtain ⟨inode, hmem, rfl, hkind⟩ := h.of_prepareWritePlan hplan
    have hcall := h.writeFileRangeExtending hmem hkind offset data
    rw [writeFileRangeExtendingJournaled, hne, hlen, hstop] at hcall
    apply hcall.mono
    intro r d' hpost
    obtain ⟨a', inode', hr, hcase⟩ := hpost
    apply hr.toFileChanged.acts h hmem hkind
    have hend := (hr.mounted.fileEnd (hr.toFileChanged.mem_self h hmem)
      hr.kind_eq).1
    have himages := length_fileImages d' inode'
    show (fileData d inode).Extended (fileData d' inode') offset.toNat data
    rcases hcase with ⟨hinside, _, rfl, hspace⟩ | ⟨hpast, _, hbyteLen, hspace⟩
    · refine ⟨(max_eq_left hinside).symm, himages.trans hend.length_eq, ?_⟩
      rw [fileData_byteLen, if_pos hinside]
      exact hspace
    · refine ⟨?_, himages.trans hend.length_eq, ?_⟩
      · rw [fileData_byteLen, fileData_byteLen, hbyteLen]
        omega
      · rw [fileData_byteLen, if_neg (by omega), fileData_images, himages]
        exact hspace

/-- The blocks of a file, read through its inode. -/
theorem map_fileImages (d : Disk) (inode : PersistedInode) :
    inode.blocks.map (fun block => d.blocks block.toNat) =
      (fileData d inode).images := rfl

/-- A file that is cut or padded. -/
theorem Resized.resizes {keep : Nat} {target : UInt64}
    (hr : FilesystemLab.Resized sb d d' a a' inodes entries inode inode' keep
      fresh target) (h : Mounted d sb a inodes entries) (hmem : inode ∈ inodes) :
    (fileData d inode).Resized (fileData d' inode') target.toNat := by
  have hend := (hr.mounted.fileEnd (hr.toFileChanged.mem_self h hmem)
    hr.kind_eq).1
  have himages := length_fileImages d' inode'
  have hlen := hr.byteLen_eq
  refine ⟨congrArg UInt64.toNat hlen, ?_, ?_⟩
  · rw [← hlen]
    exact himages.trans hend.length_eq
  · rw [fileData_images, himages]
    exact hr.space

/-- A rearrangement of the blocks of one file. -/
theorem Mounted.rearrangedActs (h : Mounted d sb a inodes entries)
    (hmem : inode ∈ inodes) (hkind : inode.kind = .file) {blocks : List UInt64}
    (hperm : blocks.Perm inode.blocks)
    (hbecame : Became sb d d' a (setInode inodes { inode with blocks }) entries
      []) {call : FileCall}
    (hdoes : call.Does (fileData d inode) ((fileData d inode).setImages
      (blocks.map fun block => d.blocks block.toNat))) :
    Consistent sb d' ∧ call.Acts inode.id (volumeOf sb d) (volumeOf sb d') := by
  have hnew := reassigned_setInode (y := { inode with blocks }) h.nodup_ids hmem
    (by rfl) hkind hkind hperm
  have hmounted := (h.conserves hnew hbecame).1
  refine ⟨⟨a, _, entries, hmounted⟩, _, _, h.node_file hmem hkind, hdoes, ?_⟩
  rw [hbecame.volumeOf_eq hmounted h, h.volume_eq]
  exact volumeWith_setInode h.nodup_ids hmem (by rfl) hkind

/-- Blocks of a file in their own place. -/
theorem Mounted.splice_segment (h : Mounted d sb a inodes entries)
    (hmem : inode ∈ inodes) (hkind : inode.kind = .file) (hle : start ≤ stop) :
    (fileData d inode).splice start stop
      (segment (fileImages d inode) start stop) = fileData d inode := by
  apply FileData.splice_segment _ hle
  rw [fileData_images, length_fileImages]
  exact (h.fileEnd hmem hkind).1.le_capacity

/-- A file that is left alone has nothing cut from it. -/
theorem Mounted.splice_nothing (h : Mounted d sb a inodes entries)
    (hmem : inode ∈ inodes) (hkind : inode.kind = .file) (i : Nat) :
    (fileData d inode).splice i i [] = fileData d inode := by
  have hsame := h.splice_segment hmem hkind (le_refl i)
  rw [segment_self] at hsame
  exact hsame

/-- **A call on one file.** On a mounted disk it fails without a trace, or the
disk stays consistent and its volume is updated as the call says. -/
theorem Mounted.fileCall (h : Mounted d sb a inodes entries) (call : FileCall)
    (id : UInt64) :
    Effect.Atomic (call.run sb id) d fun _ d' => Consistent sb d' ∧
      call.Acts id (volumeOf sb d) (volumeOf sb d') := by
  have hlen := fun inode => length_fileImages d inode
  cases call with
  | append data =>
    apply (h.appendFileBlock id data).abortable.ignore.mono
    rintro _ d' ⟨r, inode, hmem, rfl, hkind, a', inode', hs⟩
    apply hs.acts h hmem hkind
    simp [FileCall.Does, hlen]
  | appendBatch data =>
    apply (h.appendFileBlocks id data).abortable.ignore.mono
    rintro _ d' ⟨r, inode, hmem, rfl, hkind, a', inode', hs⟩
    apply hs.acts h hmem hkind
    simp [FileCall.Does, hlen]
  | appendContiguous data =>
    apply (h.appendFileBlocksContiguous id data).abortable.ignore.mono
    rintro _ d' ⟨r, _, inode, hmem, rfl, hkind, a', inode', hs⟩
    apply hs.acts h hmem hkind
    simp [FileCall.Does, hlen]
  | insert index data =>
    apply (h.insertFileBlock id index data).abortable.ignore.mono
    rintro _ d' ⟨r, inode, hmem, rfl, hkind, a', inode', hs⟩
    exact hs.acts h hmem hkind fun _ hstop => ⟨hstop, rfl⟩
  | insertBatch index data =>
    apply (h.insertFileBlocks id index data).abortable.ignore.mono
    rintro _ d' ⟨r, inode, hmem, rfl, hkind, a', inode', hs⟩
    exact hs.acts h hmem hkind fun _ hstop => ⟨hstop, rfl⟩
  | insertContiguous index data =>
    apply (h.insertFileBlocksContiguous id index data).abortable.ignore.mono
    rintro _ d' ⟨r, _, inode, hmem, rfl, hkind, a', inode', hs⟩
    exact hs.acts h hmem hkind fun _ hstop => ⟨hstop, rfl⟩
  | collapse start blockCount =>
    apply (h.collapseFileBlockRange id start blockCount).abortable.ignore.mono
    rintro _ d' ⟨r, inode, hmem, rfl, hkind, _, a', inode', hs⟩
    exact hs.acts h hmem hkind fun _ hstop => ⟨hstop, rfl⟩
  | remove index =>
    apply (h.removeFileBlock id index).abortable.ignore.mono
    rintro _ d' ⟨r, inode, hmem, rfl, hkind, _, a', inode', hs⟩
    exact hs.acts h hmem hkind fun _ hstop => ⟨hstop, rfl⟩
  | replace start removeCount replacements =>
    apply (h.replaceFileBlocks id start removeCount
      replacements).abortable.ignore.mono
    rintro _ d' ⟨r, inode, hmem, rfl, hkind, a', inode', hs⟩
    exact hs.acts h hmem hkind fun _ hstop => ⟨hstop, rfl⟩
  | replaceContiguous start removeCount replacements =>
    apply (h.replaceFileBlocksContiguous id start removeCount
      replacements).abortable.ignore.mono
    rintro _ d' ⟨r, _, inode, hmem, rfl, hkind, _, a', inode', hs⟩
    exact hs.acts h hmem hkind fun _ hstop => ⟨hstop, rfl⟩
  | writeBlock index data =>
    apply (h.writeFileBlock id index data).abortable.ignore.mono
    rintro _ d' ⟨r, inode, hmem, rfl, hkind, hindex, hr, himages⟩
    apply hr.toFileChanged.acts h hmem hkind
    refine ⟨?_, FileData.ext himages rfl⟩
    rw [fileData_images, hlen]
    exact hindex
  | writeBlocks writes =>
    apply (h.writeFileBlockBatch id writes).abortable.ignore.mono
    rintro _ d' ⟨r, inode, hmem, rfl, hkind, hnodup, hinside, hr, himages⟩
    apply hr.toFileChanged.acts h hmem hkind
    refine ⟨hnodup, ?_, FileData.ext himages rfl⟩
    rw [fileData_images, hlen]
    exact hinside
  | writeRange firstBlock offset data =>
    apply (h.rangeActs (.writeRange firstBlock offset data) id firstBlock offset
      data fun _ _ hf => hf).ignore.mono
    rintro _ d' ⟨r, hpost⟩
    exact hpost
  | writeBlockRange index offset data =>
    apply (Effect.atomic_lift_bind fun _ _ => h.rangeActs
      (.writeBlockRange index offset data) id index offset data
      fun _ _ hf => hf).ignore.mono
    rintro _ d' ⟨r, hpost⟩
    exact hpost
  | writeExtending offset data =>
    apply (h.extendingActs id offset data).ignore.mono
    rintro _ d' ⟨r, hpost⟩
    exact hpost
  | zeroRange firstBlock offset len =>
    apply (Effect.atomic_lift_bind fun _ _ => h.rangeActs
      (.zeroRange firstBlock offset len) id firstBlock offset (zeros len)
      fun _ _ hf => hf).ignore.mono
    rintro _ d' ⟨r, hpost⟩
    exact hpost
  | truncateToBlocks targetBlocks =>
    apply (h.truncateFileToBlocks id targetBlocks).abortable.ignore.mono
    rintro _ d' ⟨r, inode, hmem, rfl, hkind, hcase⟩
    rcases hcase with ⟨rfl, rfl⟩ | ⟨_, a', inode', hs⟩
    · apply h.acts_self hmem hkind
      show _ ≤ (fileData d' inode).images.length ∧ _
      rw [fileData_images, hlen, h.splice_nothing hmem hkind]
      exact ⟨le_rfl, rfl⟩
    · apply hs.acts h hmem hkind
      intro hle hstop
      show _ ≤ (fileData d inode).images.length ∧ _
      rw [fileData_images, hlen]
      exact ⟨hle, rfl⟩
  | truncateLastBlock =>
    apply (h.truncateFileLastBlock id).abortable.ignore.mono
    rintro _ d' ⟨r, inode, hmem, rfl, hkind, a', inode', hs⟩
    apply hs.acts h hmem hkind
    simp [FileCall.Does, hlen]
  | truncateToZero =>
    apply (h.truncateFileToZero id).abortable.ignore.mono
    rintro _ d' ⟨r, inode, hmem, rfl, hkind, hcase⟩
    rcases hcase with ⟨hempty, rfl⟩ | ⟨a', inode', hs⟩
    · apply h.acts_self hmem hkind
      show _ = (fileData d' inode).splice 0 (fileData d' inode).images.length []
      rw [fileData_images, hlen, hempty, List.length_nil,
        h.splice_nothing hmem hkind]
    · apply hs.acts h hmem hkind
      simp [FileCall.Does, hlen]
  | truncateToBytes targetBytes =>
    apply (h.truncateFileToBytes id targetBytes).abortable.ignore.mono
    rintro _ d' ⟨r, inode, hmem, rfl, hkind, hcase⟩
    rcases hcase with ⟨rfl, rfl⟩ | ⟨hlt, _, a', inode', hr⟩
    · exact h.acts_self hmem hkind (.inl ⟨rfl, rfl⟩)
    · exact hr.toFileChanged.acts h hmem hkind
        (.inr ⟨UInt64.lt_iff_toNat_lt.mp hlt, hr.resizes h hmem⟩)
  | growToBytes targetBytes =>
    apply (h.growFileToBytes id targetBytes).abortable.ignore.mono
    rintro _ d' ⟨r, inode, hmem, rfl, hkind, hlt, a', inode', hr⟩
    exact hr.toFileChanged.acts h hmem hkind
      ⟨UInt64.lt_iff_toNat_lt.mp hlt, hr.resizes h hmem⟩
  | exchangeSame firstStart firstCount secondStart secondCount =>
    apply (h.exchangeSameFileBlockRanges
      _ _).atomic.abortable.ignore.mono
    rintro _ d' ⟨r, inodes', hasks, hbecame, _⟩
    obtain ⟨⟨inode, hmem, hid, _, hkind, _, _, earlier, later, heither, horder,
      hstop, rfl⟩, _⟩ := hasks
    have hid : inode.id = id := hid
    subst hid
    apply h.rearrangedActs hmem hkind (swapSegments_perm (Nat.le_add_right _ _)
      horder (Nat.le_add_right _ _)) hbecame
    rw [map_swapSegments, map_fileImages]
    rw [← hlen, ← fileData_images] at hstop
    rcases heither with ⟨rfl, rfl⟩ | ⟨rfl, rfl⟩
    · exact .inl ⟨horder, hstop, rfl⟩
    · exact .inr ⟨horder, hstop, rfl⟩
  | move sourceIndex blockCount destinationIndex =>
    apply (h.moveFileBlockRange id sourceIndex blockCount
      destinationIndex).atomic.abortable.ignore.mono
    rintro _ d' ⟨r, inodes', hasks, hbecame, _⟩
    obtain ⟨⟨inode, hmem, rfl, hkind, _, hsource, hdestination, _, rfl⟩, _⟩ :=
      hasks
    apply h.rearrangedActs hmem hkind (move_perm _ (Nat.le_add_right _ _) _)
      hbecame
    rw [map_splice, map_splice, map_segment, List.map_nil, map_fileImages]
    rw [← hlen, ← fileData_images] at hsource hdestination
    exact ⟨hsource, hdestination, rfl⟩

end Posts

end FilesystemLab
