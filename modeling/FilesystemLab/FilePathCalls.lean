import FilesystemLab.CloneReplace
import FilesystemLab.Defragment
import FilesystemLab.FilePairCalls
import FilesystemLab.PathReads

/-!
# The calls on the files of paths implement their specifications

`FilePathCall` has the calls on the file of one path.  `Does` says what such a
call does to the contents of the file; the two relocations do nothing to it.  The
calls on two files are those of `FilePairCall`, with paths for inodes.

`implements_filePathCall` and `implements_filePairCall` say that the calls do
this to the file that the path leads to, with all that `Implements` says about
the recovery and about failures of the power.
-/

namespace FilesystemLab

open Bytes Splice

/-! ## The calls on one file -/

/-- The calls on the file of a path, with their arguments but for the path. -/
inductive FilePathCall where
  | append (data : List Block)
  | appendContiguous (data : List Block)
  | appendZeroed (blockCount : UInt64)
  | insert (index : Nat) (data : List Block)
  | insertContiguous (index : Nat) (data : List Block)
  | insertZeroed (index : Nat) (blockCount : UInt64)
  | remove (index : Nat)
  | collapse (start blockCount : Nat)
  | replace (start removeCount : Nat) (replacements : List Block)
  | replaceContiguous (start removeCount : Nat) (replacements : List Block)
  | replaceZeroed (start : Nat) (blockCount : UInt64)
  | replaceWhole (replacement : List Block)
  | move (sourceIndex blockCount destinationIndex : Nat)
  | writeBlocks (writes : List (Nat × Block))
  | writeRange (firstBlock offset : Nat) (data : List UInt8)
  | writeExtending (offset : UInt64) (data : List UInt8)
  | writeWhole (data : List UInt8)
  | zeroRange (firstBlock offset len : Nat)
  | zeroWhole
  | truncateToBytes (targetBytes : UInt64)
  | truncateToBlocks (targetBlocks : Nat)
  | growToBytes (targetBytes : UInt64)
  | growToBlocks (targetBlocks : Nat)
  | resizeToBytes (targetBytes : UInt64)
  | resizeToBlocks (targetBlocks : Nat)
  | defragment
  | defragmentRange (start blockCount : Nat)

namespace FilePathCall

/-- The call. -/
def run (sb : Superblock) (path : String) :
    FilePathCall → Effect (Abort IoError) Disk Unit
  | append data => Effect.ignore (Effect.abortable
      (appendFileBlocksAtPathJournaled sb path data))
  | appendContiguous data => Effect.ignore (Effect.abortable
      (appendFileBlocksContiguousAtPathJournaled sb path data))
  | appendZeroed blockCount => Effect.ignore (Effect.abortable
      (appendZeroedBlocksContiguousAtPathJournaled sb path blockCount))
  | insert index data => Effect.ignore (Effect.abortable
      (insertFileBlocksAtPathJournaled sb path index data))
  | insertContiguous index data => Effect.ignore (Effect.abortable
      (insertFileBlocksContiguousAtPathJournaled sb path index data))
  | insertZeroed index blockCount => Effect.ignore (Effect.abortable
      (insertZeroedBlocksContiguousAtPathJournaled sb path index blockCount))
  | remove index => Effect.ignore (Effect.abortable
      (removeFileBlockAtPathJournaled sb path index))
  | collapse start blockCount => Effect.ignore (Effect.abortable
      (collapseFileBlockRangeAtPathJournaled sb path start blockCount))
  | replace start removeCount replacements => Effect.ignore (Effect.abortable
      (replaceFileBlocksAtPathJournaled sb path start removeCount replacements))
  | replaceContiguous start removeCount replacements =>
    Effect.ignore (Effect.abortable
      (replaceFileBlocksContiguousAtPathJournaled sb path start removeCount
        replacements))
  | replaceZeroed start blockCount => Effect.ignore (Effect.abortable
      (replaceWithZeroedBlocksContiguousAtPathJournaled sb path start
        blockCount))
  | replaceWhole replacement => Effect.ignore (Effect.abortable
      (replaceFileAtPathJournaled sb path replacement))
  | move sourceIndex blockCount destinationIndex =>
    Effect.ignore (Effect.abortable (moveFileBlockRangeAtPathJournaled sb path
      sourceIndex blockCount destinationIndex))
  | writeBlocks writes => Effect.ignore (Effect.abortable
      (writeFileBlockBatchAtPathJournaled sb path writes))
  | writeRange firstBlock offset data =>
    Effect.ignore (writeFileRangeAtPathJournaled sb path firstBlock offset data)
  | writeExtending offset data =>
    Effect.ignore (writeFileRangeExtendingAtPathJournaled sb path offset data)
  | writeWhole data =>
    Effect.ignore (writeFileBlocksAtPathJournaled sb path data)
  | zeroRange firstBlock offset len =>
    Effect.ignore (zeroFileRangeAtPathJournaled sb path firstBlock offset len)
  | zeroWhole => Effect.ignore (zeroFileAtPathJournaled sb path)
  | truncateToBytes targetBytes => Effect.ignore (Effect.abortable
      (truncateFileAtPathToBytesJournaled sb path targetBytes))
  | truncateToBlocks targetBlocks => Effect.ignore (Effect.abortable
      (truncateFileAtPathToBlocksJournaled sb path targetBlocks))
  | growToBytes targetBytes => Effect.ignore (Effect.abortable
      (growFileAtPathToBytesJournaled sb path targetBytes))
  | growToBlocks targetBlocks => Effect.ignore (Effect.abortable
      (growFileAtPathToBlocksJournaled sb path targetBlocks))
  | resizeToBytes targetBytes => Effect.ignore (Effect.abortable
      (resizeFileAtPathToBytesJournaled sb path targetBytes))
  | resizeToBlocks targetBlocks => Effect.ignore (Effect.abortable
      (resizeFileAtPathToBlocksJournaled sb path targetBlocks))
  | defragment => Effect.ignore (Effect.abortable
      (defragmentFileContiguousAtPathJournaled sb path))
  | defragmentRange start blockCount => Effect.ignore (Effect.abortable
      (defragmentFileRangeContiguousAtPathJournaled sb path start blockCount))

/-- What the call does to the contents of the file. -/
def Does (f f' : FileData) : FilePathCall → Prop
  | append data | appendContiguous data =>
    f' = f.splice f.images.length f.images.length data
  | appendZeroed blockCount => f' = f.splice f.images.length f.images.length
      (List.replicate blockCount.toNat Block.zero)
  | insert index data | insertContiguous index data =>
    index ≤ f.images.length ∧ f' = f.splice index index data
  | insertZeroed index blockCount => index ≤ f.images.length ∧
      f' = f.splice index index (List.replicate blockCount.toNat Block.zero)
  | remove index =>
    index < f.images.length ∧ f' = f.splice index (index + 1) []
  | collapse start blockCount => start + blockCount ≤ f.images.length ∧
      f' = f.splice start (start + blockCount) []
  | replace start removeCount replacements
  | replaceContiguous start removeCount replacements =>
    start + removeCount ≤ f.images.length ∧
      f' = f.splice start (start + removeCount) replacements
  | replaceZeroed start blockCount =>
    start + blockCount.toNat ≤ f.images.length ∧
      f' = f.splice start (start + blockCount.toNat)
        (List.replicate blockCount.toNat Block.zero)
  | replaceWhole replacement => f' = f.splice 0 f.images.length replacement
  | move sourceIndex blockCount destinationIndex =>
    (FileCall.move sourceIndex blockCount destinationIndex).Does f f'
  | writeBlocks writes => (FileCall.writeBlocks writes).Does f f'
  | writeRange firstBlock offset data =>
    f.Overwritten f' (firstBlock * BLOCK_SIZE + offset) data
  | writeExtending offset data => f.Extended f' offset.toNat data
  | writeWhole data =>
    data.length = f.images.length * BLOCK_SIZE ∧ f.Overwritten f' 0 data
  | zeroRange firstBlock offset len =>
    f.Overwritten f' (firstBlock * BLOCK_SIZE + offset) (zeros len)
  | zeroWhole => f.Overwritten f' 0 (zeros (f.images.length * BLOCK_SIZE))
  | truncateToBytes targetBytes =>
    (FileCall.truncateToBytes targetBytes).Does f f'
  | truncateToBlocks targetBlocks =>
    targetBlocks ≤ f.images.length ∧
      f' = f.splice targetBlocks f.images.length []
  | growToBytes targetBytes =>
    f.byteLen < targetBytes.toNat ∧ f.Resized f' targetBytes.toNat
  | growToBlocks targetBlocks => f.images.length < targetBlocks ∧
      f' = f.splice f.images.length f.images.length
        (List.replicate (targetBlocks - f.images.length) Block.zero)
  | resizeToBytes targetBytes =>
    targetBytes.toNat ≠ f.byteLen ∧ f.Resized f' targetBytes.toNat
  | resizeToBlocks targetBlocks =>
    f.images.length < targetBlocks ∧
        f' = f.splice f.images.length f.images.length
          (List.replicate (targetBlocks - f.images.length) Block.zero) ∨
      targetBlocks < f.images.length ∧
        f' = f.splice targetBlocks f.images.length []
  | defragment => f' = f
  | defragmentRange start blockCount =>
    start + blockCount ≤ f.images.length ∧ f' = f

/-- What the call does to a volume. -/
def Acts (path : String) (call : FilePathCall) (v v' : Volume) : Prop :=
  ∃ id f f', v.Resolves path true id ∧ v.node id = some (.file f) ∧
    call.Does f f' ∧ v' = v.setFile id f'

end FilePathCall

section Implementations

variable {sb : Superblock} {path : String} {α : Type}

/-- A call on the inode that a path leads to. -/
theorem Entry.fileCall {enter : DevM Disk UInt64}
    (he : Entry sb enter fun v id => v.Resolves path true id) (call : FileCall)
    {op : UInt64 → Effect (Abort IoError) Disk α}
    (hop : ∀ id, call.run sb id = Effect.ignore (op id))
    {pathCall : FilePathCall}
    (hdoes : ∀ f f', call.Does f f' → pathCall.Does f f') :
    Implements sb (Effect.ignore (Effect.abortable enter >>= op))
      fun _ => pathCall.Acts path := by
  rw [Effect.ignore_bind]
  apply he.implements
  · intro id d _ _
    rw [← hop]
    exact call.guarded_run id
  · intro id d a inodes entries h hpath
    rw [← hop]
    apply (h.fileCall call id).mono
    rintro _ d' ⟨hconsistent, f, f', hnode, hcall, hvolume⟩
    exact ⟨hconsistent, id, f, f', hpath, hnode, hdoes f f' hcall, hvolume⟩

/-- The same for a call that does not panic. -/
theorem Entry.fileCall_abortable {enter : DevM Disk UInt64}
    (he : Entry sb enter fun v id => v.Resolves path true id) (call : FileCall)
    {op : UInt64 → DevM Disk α}
    (hop : ∀ id, call.run sb id = Effect.ignore (Effect.abortable (op id)))
    {pathCall : FilePathCall}
    (hdoes : ∀ f f', call.Does f f' → pathCall.Does f f') :
    Implements sb (Effect.ignore (Effect.abortable (enter >>= op)))
      fun _ => pathCall.Acts path := by
  rw [Effect.abortable_bind]
  exact he.fileCall call hop hdoes

/-- Zeroed blocks are staged before anything else. -/
theorem implements_staged {empty staging : String} {blockCount : UInt64}
    {op : List Block → DevM Disk α} {spec : Unit → Volume → Volume → Prop}
    (h : Implements sb (Effect.ignore (Effect.abortable
      (op (List.replicate blockCount.toNat Block.zero)))) spec) :
    Implements sb (Effect.ignore (Effect.abortable
      (liftM (stageZeroed empty staging blockCount) >>= op))) spec := by
  rw [Effect.abortable_lift_bind, Effect.ignore_bind]
  apply Implements.check
  intro data hstaged
  rw [Abort.lift_eq_ok, stageZeroed, Except.bind_eq_ok] at hstaged
  obtain ⟨_, _, hstaged⟩ := hstaged
  rw [Except.bind_eq_ok] at hstaged
  obtain ⟨_, _, hstaged⟩ := hstaged
  obtain rfl : List.replicate _ _ = data := Except.ok.inj hstaged
  exact h

/-- A call on what the metadata of a path describes. -/
theorem Entry.metadataCall {f : PathMetadata → Effect (Abort IoError) Disk α}
    {pathCall : FilePathCall}
    (hguarded : ∀ {m d}, sb.totalBlocks = d.size →
      journalOf sb d.blocks = .ok [] → Guarded sb (f m) d)
    (hatomic : ∀ {m d a inodes entries}, Mounted d sb a inodes entries →
      (volumeOf sb d).Describes path true m → Effect.Atomic (f m) d fun _ d' =>
        Consistent sb d' ∧ pathCall.Acts path (volumeOf sb d) (volumeOf sb d')) :
    Implements sb (Effect.abortable (metadataAtPath sb path) >>= f)
      fun _ => pathCall.Acts path :=
  (entry_metadataAtPath sb path).implements hguarded hatomic

/-- What a call on an inode does to the file of a path that leads to it. -/
theorem FileCall.Acts.atPath {call : FileCall} {id : UInt64} {v v' : Volume}
    (hacts : call.Acts id v v') (hpath : v.Resolves path true id)
    {pathCall : FilePathCall}
    (hdoes : ∀ f f', v.node id = some (.file f) → call.Does f f' →
      pathCall.Does f f') : pathCall.Acts path v v' := by
  obtain ⟨f, f', hnode, hcall, hvolume⟩ := hacts
  exact ⟨id, f, f', hpath, hnode, hdoes f f' hnode hcall, hvolume⟩

/-- A relocation leaves the volume as it is. -/
theorem Mounted.relocateActs {d : Disk} {a : BlockAllocator}
    {inodes : List PersistedInode} {entries : List PersistedDirectoryEntry}
    {inode : PersistedInode} (h : Mounted d sb a inodes entries)
    (hmem : inode ∈ inodes) (hkind : inode.kind = .file) (unowned : String)
    (start blockCount : Nat) :
    Effect.Atomic (FilesystemLab.relocateBlocks unowned sb inode.id a
        ((inode.blocks.drop start).take blockCount) start blockCount) d
      fun _ d' => Consistent sb d' ∧ volumeOf sb d' =
        (volumeOf sb d).setFile inode.id (fileData d inode) := by
  have hnode := h.node_file hmem hkind
  apply Effect.atomic_lift_bind
  intro _ _
  split
  · exact Effect.atomic_pure ⟨⟨a, inodes, entries, h⟩,
      (Volume.setFile_of_node hnode).symm⟩
  · apply Effect.atomic_query_bind
    intro snapshots hread
    rw [h.readBlocks_eq hmem fun block hblock =>
      List.mem_of_mem_drop (List.mem_of_mem_take hblock), map_range_eq,
      Except.ok.injEq] at hread
    subst hread
    apply (h.replaceFileBlocksContiguous inode.id start blockCount _).bind
    intro r d' hpost
    obtain ⟨_, other, hother, hid, _, _, a', inode', hs⟩ := hpost
    obtain rfl : other = inode :=
      List.inj_on_of_nodup_map h.nodup_ids hother hmem hid
    have hx := hs.fileChanged h
    refine ⟨_, _, rfl, ⟨a', _, entries, hx.mounted⟩, ?_⟩
    have hsame := h.splice_segment hmem hkind (Nat.le_add_right start blockCount)
    rw [Splice.segment, Nat.add_sub_cancel_left] at hsame
    rw [hx.volumeOf_eq h hmem, hs.fileData_eq h hmem, hsame]

end Implementations

/-! ### Calls with more than one part -/

theorem implements_growToBytes (sb : Superblock) (path : String)
    (targetBytes : UInt64) : Implements sb
      ((FilePathCall.growToBytes targetBytes).run sb path)
      fun _ => (FilePathCall.growToBytes targetBytes).Acts path := by
  show Implements sb (Effect.ignore (Effect.abortable
    (metadataAtPath sb path >>= _))) _
  rw [Effect.abortable_bind, Effect.ignore_bind]
  apply Entry.metadataCall
  · intro m d _ _
    exact guarded_map.mpr (Guarded.abortable (by simp))
  · intro m d a inodes entries h hm
    rw [Effect.abortable_lift_bind, Effect.ignore_bind]
    apply Effect.atomic_lift_bind
    intro _ _
    rw [Effect.abortable_lift_bind, Effect.ignore_bind]
    apply Effect.atomic_lift_bind
    intro _ _
    apply (h.fileCall (.growToBytes targetBytes) m.inodeId).mono
    intro _ d' hpost
    exact ⟨hpost.1, hpost.2.atPath hm.resolves fun _ _ _ hcall => hcall⟩

theorem implements_growToBlocks (sb : Superblock) (path : String)
    (targetBlocks : Nat) : Implements sb
      ((FilePathCall.growToBlocks targetBlocks).run sb path)
      fun _ => (FilePathCall.growToBlocks targetBlocks).Acts path := by
  show Implements sb (Effect.ignore (Effect.abortable
    (metadataAtPath sb path >>= _))) _
  rw [Effect.abortable_bind, Effect.ignore_bind]
  apply Entry.metadataCall
  · intro m d _ _
    exact guarded_map.mpr (Guarded.abortable (by simp))
  · intro m d a inodes entries h hm
    rw [Effect.abortable_lift_bind, Effect.ignore_bind]
    apply Effect.atomic_lift_bind
    intro _ _
    rw [Effect.abortable_lift_bind, Effect.ignore_bind]
    apply Effect.atomic_lift_bind
    intro _ hlt
    rw [Abort.lift_eq_ok, rejectIf_eq_ok, not_le] at hlt
    dsimp only
    rw [Effect.abortable_lift_bind, Effect.ignore_bind]
    apply Effect.atomic_lift_bind
    intro _ _
    apply (h.fileCall (.appendBatch _) m.inodeId).mono
    intro _ d' hpost
    refine ⟨hpost.1, hpost.2.atPath hm.resolves ?_⟩
    intro f f' hnode hcall
    rw [(hm.file f hnode).1] at hlt hcall
    exact ⟨hlt, hcall⟩

theorem implements_resizeToBytes (sb : Superblock) (path : String)
    (targetBytes : UInt64) : Implements sb
      ((FilePathCall.resizeToBytes targetBytes).run sb path)
      fun _ => (FilePathCall.resizeToBytes targetBytes).Acts path := by
  show Implements sb (Effect.ignore (Effect.abortable
    (metadataAtPath sb path >>= _))) _
  rw [Effect.abortable_bind, Effect.ignore_bind]
  apply Entry.metadataCall
  · intro m d _ _
    exact guarded_map.mpr (Guarded.abortable (by simp))
  · intro m d a inodes entries h hm
    rw [Effect.abortable_lift_bind, Effect.ignore_bind]
    apply Effect.atomic_lift_bind
    intro _ _
    split
    · apply (h.fileCall (.growToBytes targetBytes) m.inodeId).mono
      intro _ d' hpost
      refine ⟨hpost.1, hpost.2.atPath hm.resolves ?_⟩
      intro f f' _ hcall
      exact ⟨hcall.1.ne', hcall.2⟩
    · split
      · rename_i hlt
        apply (h.fileCall (.truncateToBytes targetBytes) m.inodeId).mono
        intro _ d' hpost
        refine ⟨hpost.1, hpost.2.atPath hm.resolves ?_⟩
        intro f f' hnode hcall
        have hlt := UInt64.lt_iff_toNat_lt.mp hlt
        rw [(hm.file f hnode).2] at hlt
        rcases hcall with ⟨heq, _⟩ | ⟨_, hresized⟩
        · omega
        · exact ⟨hlt.ne, hresized⟩
      · exact .inl ⟨_, rfl⟩

theorem implements_resizeToBlocks (sb : Superblock) (path : String)
    (targetBlocks : Nat) : Implements sb
      ((FilePathCall.resizeToBlocks targetBlocks).run sb path)
      fun _ => (FilePathCall.resizeToBlocks targetBlocks).Acts path := by
  have hgrow := implements_growToBlocks sb path targetBlocks
  show Implements sb (Effect.ignore (Effect.abortable
    (metadataAtPath sb path >>= _))) _
  rw [Effect.abortable_bind, Effect.ignore_bind]
  apply Entry.metadataCall
  · intro m d hsize hvacant
    rw [Effect.abortable_lift_bind, Effect.ignore_bind, guarded_lift_bind]
    intro _ _
    split
    · exact hgrow.guarded hsize hvacant
    · exact guarded_map.mpr (Guarded.abortable (by simp))
  · intro m d a inodes entries h hm
    rw [Effect.abortable_lift_bind, Effect.ignore_bind]
    apply Effect.atomic_lift_bind
    intro _ _
    split
    · apply (hgrow.atomic h).mono
      intro _ d' hpost
      obtain ⟨hconsistent, id, f, f', hpath, hnode, hcall, hvolume⟩ := hpost
      exact ⟨hconsistent, id, f, f', hpath, hnode, .inl hcall, hvolume⟩
    · split
      · rename_i hlt
        apply (h.fileCall (.truncateToBlocks targetBlocks) m.inodeId).mono
        intro _ d' hpost
        refine ⟨hpost.1, hpost.2.atPath hm.resolves ?_⟩
        intro f f' hnode hcall
        rw [(hm.file f hnode).1] at hlt
        exact .inr ⟨hlt, hcall.2⟩
      · exact .inl ⟨_, rfl⟩

theorem implements_zeroRange (sb : Superblock) (path : String)
    (firstBlock offset len : Nat) : Implements sb
      ((FilePathCall.zeroRange firstBlock offset len).run sb path)
      fun _ => (FilePathCall.zeroRange firstBlock offset len).Acts path :=
  (entry_enterPath sb path).fileCall (.zeroRange firstBlock offset len)
    (fun _ => rfl) fun _ _ h => h

/-- The whole file is zeroed by a range that starts at its first block. -/
theorem implements_zeroWhole (sb : Superblock) (path : String) :
    Implements sb (FilePathCall.zeroWhole.run sb path)
      fun _ => FilePathCall.zeroWhole.Acts path := by
  show Implements sb (Effect.ignore (Effect.abortable
    (metadataAtPath sb path) >>= _)) _
  rw [Effect.ignore_bind]
  apply Entry.metadataCall
  · intro m d hsize hvacant
    rw [Effect.ignore_bind, guarded_lift_bind]
    intro _ _
    split
    · exact guarded_of_unchanged rfl
    · rw [Effect.ignore_bind, guarded_lift_bind]
      intro len _
      exact (implements_zeroRange sb path 0 0 len).guarded hsize hvacant
  · intro m d a inodes entries h hm
    rw [Effect.ignore_bind]
    apply Effect.atomic_lift_bind
    intro _ hkind
    rw [rejectIf_eq_ok, not_ne_iff] at hkind
    split
    · rename_i hempty
      obtain ⟨f, hnode, hblocks, hlen⟩ := hm.exists_file hkind
      have hnil : f.images = [] :=
        List.length_eq_zero_iff.mp (hblocks.symm.trans hempty)
      refine .inr ⟨(), d, rfl, ⟨a, inodes, entries, h⟩, _, f, f, hm.resolves,
        hnode, ⟨?_, rfl, ?_⟩, (Volume.setFile_of_node hnode).symm⟩
      · rw [hnil]
        exact Nat.zero_le _
      · unfold FileData.space
        rw [hnil]
        rfl
    · rw [Effect.ignore_bind]
      apply Effect.atomic_lift_bind
      intro len hlen
      rw [okOr_eq_ok, checkedMul_eq_some] at hlen
      obtain ⟨_, rfl⟩ := hlen
      apply ((implements_zeroRange sb path 0 0 _).atomic h).mono
      intro _ d' hpost
      obtain ⟨hconsistent, id, f, f', hpath, hnode, hcall, hvolume⟩ := hpost
      have hsame := h.resolves_unique hpath hm.resolves
      subst hsame
      rw [(hm.file f hnode).1] at hcall
      exact ⟨hconsistent, _, f, f', hpath, hnode, hcall, hvolume⟩

/-- The file that a path function selects. -/
theorem Mounted.of_requireFile {d : Disk} {sb : Superblock} {a : BlockAllocator}
    {inodes : List PersistedInode} {entries : List PersistedDirectoryEntry}
    (h : Mounted d sb a inodes entries) {id : UInt64} {inode : PersistedInode}
    (hfile : requireFile inodes id = .ok inode) :
    inode ∈ inodes ∧ inode.kind = .file ∧
      (volumeOf sb d).node id = some (.file (fileData d inode)) ∧
      inode.blocks.length = (fileData d inode).images.length := by
  obtain ⟨hmem, hkind, rfl⟩ := FilesystemLab.of_requireFile hfile
  exact ⟨hmem, hkind, h.node_file hmem hkind, (length_fileImages d inode).symm⟩

theorem implements_writeWhole (sb : Superblock) (path : String)
    (data : List UInt8) : Implements sb
      ((FilePathCall.writeWhole data).run sb path)
      fun _ => (FilePathCall.writeWhole data).Acts path := by
  show Implements sb (Effect.ignore (Effect.abortable
    (enterPathChecked sb path) >>= _)) _
  rw [Effect.ignore_bind]
  apply (entry_enterPathChecked sb path).implements
  · intro id d _ _
    apply guarded_map.mpr
    have hread : ((Effect.query (loadInodeTable · sb) >>= fun inodes =>
        liftM (requireFile inodes id) : DevM Disk PersistedInode) d).2 = d :=
      Effect.bind_snd_of_unchanged rfl fun _ => rfl
    have hread : (Effect.abortable (Effect.query (loadInodeTable · sb) >>=
        fun inodes => liftM (requireFile inodes id)) d).2 = d := hread
    rw [guarded_bind_unchanged hread]
    intro inode _
    simp
  · intro id d a inodes entries h hpath
    rw [Effect.abortable_bind, Effect.ignore_bind, Effect.bind_assoc]
    refine Effect.atomic_bind_of_ok (a := inodes)
      (Prod.ext (congrArg Abort.lift h.inodeTable) rfl) ?_
    apply Effect.atomic_lift_bind
    intro inode hfile
    have hfile : Abort.lift (requireFile inodes id) = .ok inode := hfile
    rw [Abort.lift_eq_ok] at hfile
    obtain ⟨_, _, hnode, hblocks⟩ := h.of_requireFile hfile
    rw [Effect.ignore_bind]
    apply Effect.atomic_lift_bind
    intro len hlen
    rw [okOr_eq_ok, checkedMul_eq_some, hblocks] at hlen
    obtain ⟨_, rfl⟩ := hlen
    rw [Effect.ignore_bind]
    apply Effect.atomic_lift_bind
    intro _ hdata
    rw [rejectIf_eq_ok, not_ne_iff] at hdata
    split
    · rename_i hempty
      refine .inr ⟨(), d, rfl, ⟨a, inodes, entries, h⟩, _, _, _, hpath, hnode,
        ⟨hdata, ?_, rfl, ?_⟩, (Volume.setFile_of_node hnode).symm⟩
      · rw [hempty]
        exact Nat.zero_le _
      · rw [hempty]
        rfl
    · apply (h.fileCall (.writeRange 0 0 data) id).mono
      intro _ d' hpost
      refine ⟨hpost.1, hpost.2.atPath hpath ?_⟩
      intro f f' hfound hcall
      rw [hnode] at hfound
      cases hfound
      exact ⟨hdata, hcall⟩

theorem atomic_of_abortable {α : Type} {x : DevM Disk α} {d : Disk}
    {P : Disk → Prop}
    (h : Effect.Atomic (Effect.ignore (Effect.abortable x)) d fun _ d' => P d') :
    Effect.Atomic x d fun _ d' => P d' := by
  rcases hrun : x d with ⟨e | r, d'⟩
  · have hfail : Effect.ignore (Effect.abortable x) d = (.error (.error e), d') :=
      Effect.bind_of_error (by rw [Effect.abortable, hrun]; rfl)
    have hsame := h.of_error (by rw [hfail])
    rw [hfail] at hsame
    obtain rfl : d' = d := hsame
    exact .inl ⟨e, hrun⟩
  · have hok : Effect.ignore (Effect.abortable x) d = (.ok (), d') :=
      Effect.bind_of_ok (by rw [Effect.abortable, hrun]; rfl)
    exact .inr ⟨r, d', hrun, h.of_ok hok⟩

theorem implements_replaceWhole (sb : Superblock) (path : String)
    (replacement : List Block) : Implements sb
      ((FilePathCall.replaceWhole replacement).run sb path)
      fun _ => (FilePathCall.replaceWhole replacement).Acts path := by
  apply implements_recoverChecked
  · simp
  · intro d a inodes entries h
    apply Effect.atomic_bind_of_ok h.recoverChecked
    apply Effect.atomic_query_bind
    intro id hpath
    have hpath := h.resolvePath_eq_ok.mp hpath
    apply h.atomic_inodes
    apply Effect.atomic_lift_bind
    intro inode hfile
    obtain ⟨hmem, hkind, hnode, hblocks⟩ := h.of_requireFile hfile
    have hself : Consistent sb d := ⟨a, inodes, entries, h⟩
    -- whichever call on the inode it is, it splices all of the file
    have hcall : ∀ call : FileCall, (∀ f', call.Does (fileData d inode) f' →
        f' = (fileData d inode).splice 0 (fileData d inode).images.length
          replacement) →
        Effect.Atomic (call.run sb id) d fun _ d' => Consistent sb d' ∧
          (FilePathCall.replaceWhole replacement).Acts path (volumeOf sb d)
            (volumeOf sb d') := by
      intro call hdoes
      apply (h.fileCall call id).mono
      intro _ d' hpost
      refine ⟨hpost.1, hpost.2.atPath hpath ?_⟩
      intro f f' hfound hcall
      rw [hnode] at hfound
      cases hfound
      exact hdoes f' hcall
    rw [hblocks]
    dsimp only
    split
    · rename_i hempty
      split
      · rename_i hnil
        refine Effect.atomic_pure ⟨hself, id, _, _, hpath, hnode, ?_,
          (Volume.setFile_of_node hnode).symm⟩
        show fileData d inode = (fileData d inode).splice 0 _ replacement
        rw [hnil, hempty, h.splice_nothing hmem hkind]
      · apply (atomic_of_abortable (hcall (.appendBatch replacement) ?_)).bind
        · intro r d' hpost
          exact ⟨_, _, rfl, hpost⟩
        · intro f' hf'
          rw [FileCall.Does, hempty] at hf'
          rw [hempty]
          exact hf'
    · split
      · rename_i hnil
        apply (atomic_of_abortable (hcall (.truncateToBlocks 0) ?_)).bind
        · intro r d' hpost
          exact ⟨_, _, rfl, hpost⟩
        · intro f' hf'
          rw [hnil]
          exact hf'.2
      · apply (atomic_of_abortable (hcall (.replace 0 _ replacement) ?_)).bind
        · intro r d' hpost
          exact ⟨_, _, rfl, hpost⟩
        · intro f' hf'
          have hf' := hf'.2
          rw [Nat.zero_add] at hf'
          exact hf'

/-- A relocation as a call on a path. -/
theorem Mounted.defragActs {d : Disk} {sb : Superblock} {a : BlockAllocator}
    {inodes : List PersistedInode} {entries : List PersistedDirectoryEntry}
    (h : Mounted d sb a inodes entries) (call : DefragCall) (path : String)
    {pathCall : FilePathCall}
    (hdoes : ∀ f : FileData, call.Fits f.images.length → pathCall.Does f f) :
    Effect.Atomic (call.run sb path) d fun _ d' => Consistent sb d' ∧
      pathCall.Acts path (volumeOf sb d) (volumeOf sb d') := by
  apply h.atomic_defragCall
  intro inode hfile hfits
  have hmem := hfile.mem h.toAtRest
  have hpath := h.resolvePath_eq_ok.mp hfile.resolves
  apply (h.relocateActs hmem hfile.kind_eq _ _ _).mono
  intro _ d' hpost
  refine ⟨hpost.1, inode.id, _, _, hpath, h.node_file hmem hfile.kind_eq,
    hdoes _ ?_, hpost.2⟩
  rw [fileData_images, length_fileImages]
  exact hfits

theorem implements_defragment (sb : Superblock) (path : String) :
    Implements sb (FilePathCall.defragment.run sb path)
      fun _ => FilePathCall.defragment.Acts path := by
  apply implements_recover
  · simp
  · intro d a inodes entries h
    exact h.defragActs .whole path fun _ _ => rfl

theorem implements_defragmentRange (sb : Superblock) (path : String)
    (start blockCount : Nat) : Implements sb
      ((FilePathCall.defragmentRange start blockCount).run sb path)
      fun _ => (FilePathCall.defragmentRange start blockCount).Acts path := by
  have hdefrag : ∀ {d a inodes entries}, Mounted d sb a inodes entries →
      Effect.Atomic (DefragCall.run sb path (.range start blockCount)) d
        fun _ d' => Consistent sb d' ∧
          (FilePathCall.defragmentRange start blockCount).Acts path
            (volumeOf sb d) (volumeOf sb d') :=
    fun h => h.defragActs (.range start blockCount) path
      fun f hfits => ⟨hfits.2, rfl⟩
  show Implements sb (Effect.ignore (Effect.abortable (liftM _ >>= _))) _
  rw [Effect.abortable_lift_bind, Effect.ignore_bind]
  apply Implements.check
  intro _ hcount
  rw [Effect.abortable_lift_bind, Effect.ignore_bind]
  apply Implements.check
  intro stop hstop
  rw [Abort.lift_eq_ok] at hcount hstop
  apply implements_recover
  · simp
  · intro d a inodes entries h
    have hatomic := hdefrag h
    unfold Effect.Atomic at hatomic
    rw [DefragCall.run, defragmentFileRangeContiguousAtPathJournaled,
      Effect.lift_bind_of_ok hcount, Effect.lift_bind_of_ok hstop] at hatomic
    exact hatomic

/-- **The calls on one path implement their specifications.** -/
theorem implements_filePathCall (sb : Superblock) (path : String)
    (call : FilePathCall) : Implements sb (call.run sb path) fun _ => call.Acts path := by
  have hplain := entry_enterPath sb path
  have hchecked := entry_enterPathChecked sb path
  cases call with
  | append data =>
    exact hplain.fileCall_abortable (.appendBatch data) (fun _ => rfl)
      fun _ _ h => h
  | appendContiguous data =>
    exact hplain.fileCall_abortable (.appendContiguous data) (fun _ => rfl)
      fun _ _ h => h
  | appendZeroed blockCount =>
    exact implements_staged (hplain.fileCall_abortable (.appendContiguous _)
      (fun _ => rfl) fun _ _ h => h)
  | insert index data =>
    exact hplain.fileCall_abortable (.insertBatch index data) (fun _ => rfl)
      fun _ _ h => h
  | insertContiguous index data =>
    exact hplain.fileCall_abortable (.insertContiguous index data)
      (fun _ => rfl) fun _ _ h => h
  | insertZeroed index blockCount =>
    exact implements_staged (hplain.fileCall_abortable
      (.insertContiguous index _) (fun _ => rfl) fun _ _ h => h)
  | remove index =>
    exact hplain.fileCall_abortable (.remove index) (fun _ => rfl)
      fun _ _ h => h
  | collapse start blockCount =>
    exact hplain.fileCall_abortable (.collapse start blockCount) (fun _ => rfl)
      fun _ _ h => h
  | replace start removeCount replacements =>
    exact hplain.fileCall_abortable (.replace start removeCount replacements)
      (fun _ => rfl) fun _ _ h => h
  | replaceContiguous start removeCount replacements =>
    exact hplain.fileCall_abortable
      (.replaceContiguous start removeCount replacements) (fun _ => rfl)
      fun _ _ h => h
  | replaceZeroed start blockCount =>
    exact implements_staged (hplain.fileCall_abortable
      (.replaceContiguous start blockCount.toNat _) (fun _ => rfl)
      fun _ _ h => h)
  | replaceWhole replacement => exact implements_replaceWhole sb path replacement
  | move sourceIndex blockCount destinationIndex =>
    exact hplain.fileCall_abortable
      (.move sourceIndex blockCount destinationIndex) (fun _ => rfl)
      fun _ _ h => h
  | writeBlocks writes =>
    exact hplain.fileCall_abortable (.writeBlocks writes) (fun _ => rfl)
      fun _ _ h => h
  | writeRange firstBlock offset data =>
    exact hchecked.fileCall (.writeRange firstBlock offset data) (fun _ => rfl)
      fun _ _ h => h
  | writeExtending offset data =>
    exact hchecked.fileCall (.writeExtending offset data) (fun _ => rfl)
      fun _ _ h => h
  | writeWhole data => exact implements_writeWhole sb path data
  | zeroRange firstBlock offset len =>
    exact implements_zeroRange sb path firstBlock offset len
  | zeroWhole => exact implements_zeroWhole sb path
  | truncateToBytes targetBytes =>
    exact hchecked.fileCall_abortable (.truncateToBytes targetBytes)
      (fun _ => rfl) fun _ _ h => h
  | truncateToBlocks targetBlocks =>
    exact hchecked.fileCall_abortable (.truncateToBlocks targetBlocks)
      (fun _ => rfl) fun _ _ h => h
  | growToBytes targetBytes =>
    exact implements_growToBytes sb path targetBytes
  | growToBlocks targetBlocks =>
    exact implements_growToBlocks sb path targetBlocks
  | resizeToBytes targetBytes =>
    exact implements_resizeToBytes sb path targetBytes
  | resizeToBlocks targetBlocks =>
    exact implements_resizeToBlocks sb path targetBlocks
  | defragment => exact implements_defragment sb path
  | defragmentRange start blockCount =>
    exact implements_defragmentRange sb path start blockCount

/-! ## The calls on two files -/

namespace FilePairCall

/-- The call on the files of two paths. -/
def runAtPaths (sb : Superblock) (source destination : String) :
    FilePairCall → Effect (Abort IoError) Disk Unit
  | cloneAppend sourceStart blockCount => Effect.ignore (Effect.abortable
      (cloneFileBlocksAppendAtPathJournaled sb source sourceStart blockCount
        destination))
  | cloneAppendContiguous sourceStart blockCount =>
    Effect.ignore (Effect.abortable
      (cloneFileBlocksContiguousAppendAtPathJournaled sb source sourceStart
        blockCount destination))
  | cloneInsert sourceStart blockCount index =>
    Effect.ignore (Effect.abortable
      (cloneFileBlocksInsertAtPathJournaled sb source sourceStart blockCount
        destination index))
  | cloneInsertContiguous sourceStart blockCount index =>
    Effect.ignore (Effect.abortable
      (cloneFileBlocksContiguousInsertAtPathJournaled sb source sourceStart
        blockCount destination index))
  | cloneReplace sourceStart blockCount start =>
    Effect.ignore (Effect.abortable
      (cloneFileBlocksReplaceAtPathJournaled sb source sourceStart blockCount
        destination start))
  | cloneReplaceContiguous sourceStart blockCount start =>
    Effect.ignore (Effect.abortable
      (cloneFileBlocksContiguousReplaceAtPathJournaled sb source sourceStart
        blockCount destination start))
  | cloneSplice sourceStart blockCount start removeCount =>
    Effect.ignore (Effect.abortable
      (cloneFileBlocksSpliceAtPathJournaled sb source sourceStart blockCount
        destination start removeCount))
  | cloneSpliceContiguous sourceStart blockCount start removeCount =>
    Effect.ignore (Effect.abortable
      (cloneFileBlocksContiguousSpliceAtPathJournaled sb source sourceStart
        blockCount destination start removeCount))
  | copyRange sourceBlock sourceOffset block offset len =>
    Effect.ignore (copyFileRangeAtPathJournaled sb source sourceBlock
      sourceOffset destination block offset len)
  | exchange leftIndex rightIndex blockCount =>
    Effect.ignore (Effect.abortable
      (exchangeFileBlockRangesAtPathJournaled sb source leftIndex destination
        rightIndex blockCount))
  | exchangeVariable leftStart leftCount rightStart rightCount =>
    Effect.ignore (Effect.abortable
      (exchangeVariableFileBlockRangesAtPathJournaled sb source leftStart
        leftCount destination rightStart rightCount))
  | exchangeComplete => Effect.ignore (Effect.abortable
      (exchangeCompleteFilesAtPathJournaled sb source destination))
  | transfer sourceIndex blockCount index => Effect.ignore (Effect.abortable
      (transferFileBlockRangeAtPathJournaled sb source sourceIndex blockCount
        destination index))
  | transferReplaceComplete => Effect.ignore (Effect.abortable
      (transferReplaceCompleteFileAtPathJournaled sb source destination))

/-- What the call does to a volume. -/
def ActsAtPaths (source destination : String) (call : FilePairCall)
    (v v' : Volume) : Prop :=
  ∃ s t, v.Resolves source true s ∧ v.Resolves destination true t ∧
    call.Acts s t v v'

end FilePairCall

section PairImplementations

variable {sb : Superblock} {source destination : String} {α : Type}

/-- A call on the two inodes that two paths lead to. -/
theorem implements_onPaths (call : FilePairCall)
    {op : UInt64 × UInt64 → Effect (Abort IoError) Disk α}
    (hop : ∀ ids, call.run sb ids.1 ids.2 = Effect.ignore (op ids)) :
    Implements sb (Effect.ignore
      (Effect.abortable (enterPaths sb source destination) >>= op))
      fun _ => call.ActsAtPaths source destination := by
  rw [Effect.ignore_bind]
  apply (entry_enterPaths sb source destination).implements
  · intro ids d _ _
    rw [← hop]
    exact call.guarded_run _ _
  · intro ids d a inodes entries h hpaths
    rw [← hop]
    apply (h.filePairCall call _ _).mono
    intro _ d' hpost
    exact ⟨hpost.1, ids.1, ids.2, hpaths.1, hpaths.2, hpost.2⟩

/-- The same for a call that does not panic. -/
theorem implements_onPaths_abortable (call : FilePairCall)
    {op : UInt64 × UInt64 → DevM Disk α}
    (hop : ∀ ids, call.run sb ids.1 ids.2 =
      Effect.ignore (Effect.abortable (op ids))) :
    Implements sb (Effect.ignore
      (Effect.abortable (enterPaths sb source destination >>= op)))
      fun _ => call.ActsAtPaths source destination := by
  rw [Effect.abortable_bind]
  exact implements_onPaths call hop

/-- The same behind a check. -/
theorem implements_onPaths_checked {r : Result Unit} (call : FilePairCall)
    {op : UInt64 × UInt64 → DevM Disk α}
    (hop : ∀ ids, call.run sb ids.1 ids.2 =
      Effect.ignore (Effect.abortable (op ids))) :
    Implements sb (Effect.ignore (Effect.abortable (liftM r >>= fun _ =>
      enterPaths sb source destination >>= op)))
      fun _ => call.ActsAtPaths source destination := by
  rw [Effect.abortable_lift_bind, Effect.ignore_bind]
  apply Implements.check
  intro _ _
  exact implements_onPaths_abortable call hop

end PairImplementations

/-- **The calls on two paths implement their specifications.** -/
theorem implements_filePairCall (sb : Superblock) (source destination : String)
    (call : FilePairCall) : Implements sb (call.runAtPaths sb source destination)
      fun _ => call.ActsAtPaths source destination := by
  cases call with
  | copyRange sourceBlock sourceOffset block offset len =>
    exact implements_onPaths (.copyRange sourceBlock sourceOffset block offset
      len) fun _ => rfl
  | cloneAppendContiguous sourceStart blockCount =>
    exact implements_onPaths_checked
      (.cloneAppendContiguous sourceStart blockCount) fun _ => rfl
  | cloneInsertContiguous sourceStart blockCount index =>
    exact implements_onPaths_checked
      (.cloneInsertContiguous sourceStart blockCount index) fun _ => rfl
  | cloneReplaceContiguous sourceStart blockCount start =>
    exact implements_onPaths_checked
      (.cloneReplaceContiguous sourceStart blockCount start) fun _ => rfl
  | cloneSpliceContiguous sourceStart blockCount start removeCount =>
    exact implements_onPaths_checked
      (.cloneSpliceContiguous sourceStart blockCount start removeCount)
      fun _ => rfl
  | cloneAppend sourceStart blockCount =>
    exact implements_onPaths_abortable (.cloneAppend sourceStart blockCount)
      fun _ => rfl
  | cloneInsert sourceStart blockCount index =>
    exact implements_onPaths_abortable
      (.cloneInsert sourceStart blockCount index) fun _ => rfl
  | cloneReplace sourceStart blockCount start =>
    exact implements_onPaths_abortable
      (.cloneReplace sourceStart blockCount start) fun _ => rfl
  | cloneSplice sourceStart blockCount start removeCount =>
    exact implements_onPaths_abortable
      (.cloneSplice sourceStart blockCount start removeCount) fun _ => rfl
  | exchange leftIndex rightIndex blockCount =>
    exact implements_onPaths_abortable
      (.exchange leftIndex rightIndex blockCount) fun _ => rfl
  | exchangeVariable leftStart leftCount rightStart rightCount =>
    exact implements_onPaths_abortable
      (.exchangeVariable leftStart leftCount rightStart rightCount) fun _ => rfl
  | exchangeComplete =>
    exact implements_onPaths_abortable .exchangeComplete fun _ => rfl
  | transfer sourceIndex blockCount index =>
    exact implements_onPaths_abortable
      (.transfer sourceIndex blockCount index) fun _ => rfl
  | transferReplaceComplete =>
    exact implements_onPaths_abortable .transferReplaceComplete fun _ => rfl

/-! ## The exchange in one file -/

/-- What an exchange of two ranges of one file does, with a path for each. -/
def ExchangesSame (first : String) (firstStart firstCount : Nat)
    (second : String) (secondStart secondCount : Nat) (v v' : Volume) : Prop :=
  ∃ id, v.Resolves first true id ∧ v.Resolves second true id ∧
    (FileCall.exchangeSame firstStart firstCount secondStart secondCount).Acts id
      v v'

theorem implements_exchangeSame (sb : Superblock) (first : String)
    (firstStart firstCount : Nat) (second : String)
    (secondStart secondCount : Nat) :
    Implements sb (Effect.ignore (Effect.abortable
      (exchangeSameFileBlockRangesAtPathJournaled sb first firstStart firstCount
        second secondStart secondCount)))
      fun _ => ExchangesSame first firstStart firstCount second secondStart
        secondCount := by
  show Implements sb (Effect.ignore (Effect.abortable
    (enterPaths sb first second >>= _))) _
  rw [Effect.abortable_bind, Effect.ignore_bind]
  apply (entry_enterPaths sb first second).implements
  · intro ids d _ _
    have hmove := @guarded_blockMove sb d (.exchangeSame
      ⟨ids.1, firstStart, firstCount⟩ ⟨ids.2, secondStart, secondCount⟩)
    exact guarded_map.mpr hmove.abortable
  · intro ids d a inodes entries h hpaths
    by_cases hsame : ids.1 = ids.2
    · rw [← hsame] at hpaths ⊢
      apply (h.fileCall (.exchangeSame firstStart firstCount secondStart
        secondCount) ids.1).mono
      intro _ d' hpost
      exact ⟨hpost.1, ids.1, hpaths.1, hpaths.2, hpost.2⟩
    · -- the call rejects two inodes
      apply Effect.Atomic.ignored
      apply Effect.Atomic.abortable
      apply (h.exchangeSameFileBlockRanges _ _).atomic.mono
      intro r d' hpost
      obtain ⟨inodes', ⟨⟨inode, _, hid, hid', _⟩, _⟩, _⟩ := hpost
      exact absurd (hid.symm.trans hid') hsame

/-! ## The clone over a file -/

/-- What a clone of a whole file over another one does: its complete blocks take
the place of those of the destination. -/
def ClonesOver (source destination : String) (v v' : Volume) : Prop :=
  ∃ s t f g, s ≠ t ∧ v.Resolves source true s ∧ v.Resolves destination true t ∧
    v.node s = some (.file f) ∧ v.node t = some (.file g) ∧
    v' = v.setFile t (g.splice 0 g.images.length (chunksExact f.bytes))

/-- The snapshot is taken before the destination is replaced. -/
theorem implements_cloneOver (sb : Superblock) (source destination : String) :
    Implements sb (Effect.ignore (Effect.abortable
      (cloneFileToExistingPathJournaled sb source destination)))
      fun _ => ClonesOver source destination := by
  have hread := @entry_readFileBlocksAtPath sb source
  apply implements_recover
  · intro d hsize hvacant
    rw [guarded_query_bind]
    intro s _
    rw [guarded_query_bind]
    intro t _
    rw [guarded_lift_bind]
    intro _ _
    rw [guarded_bind_unchanged (hread.unchanged hsize hvacant)]
    intro snapshot _
    rw [replaceFileAtPathJournaled,
      guarded_bind_unchanged (recoverChecked_unchanged hvacant)]
    simp
  · intro d a inodes entries h
    apply Effect.atomic_bind_of_ok h.recover
    apply Effect.atomic_query_bind
    intro s hs
    have hs := h.resolvePath_eq_ok.mp hs
    apply Effect.atomic_query_bind
    intro t ht
    have ht := h.resolvePath_eq_ok.mp ht
    apply Effect.atomic_lift_bind
    intro _ hne
    rw [rejectIf_eq_ok] at hne
    apply (hread.finds h).bind_unchanged
    intro snapshot hsnapshot
    obtain ⟨f, ⟨id, hid, hf⟩, rfl⟩ := hsnapshot
    obtain rfl := h.resolves_unique hid hs
    apply (atomic_of_abortable
      ((implements_replaceWhole sb destination _).atomic h)).mono
    intro _ d' hpost
    obtain ⟨hconsistent, id', g, g', ht', hg, rfl, hvolume⟩ := hpost
    obtain rfl := h.resolves_unique ht' ht
    exact ⟨hconsistent, _, _, f, g, hne, hs, ht, hf, hg, hvolume⟩

end FilesystemLab
