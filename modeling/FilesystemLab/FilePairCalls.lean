import FilesystemLab.BlockMoveRun
import FilesystemLab.ContiguousClone
import FilesystemLab.FileCalls

/-!
# What the calls on two files do to the volume

`FilePairCall` has the calls that read one file and change another, and those
that change both.  As for one file, `Does` says what a call does to the contents
of its files, and `Mounted.filePairCall` that a call that succeeds does this to
the volume of the disk, and nothing else.
-/

namespace FilesystemLab

open Bytes WriteLog Splice

/-- The calls on two files, with their arguments but for the files. -/
inductive FilePairCall where
  | cloneAppend (sourceStart blockCount : Nat)
  | cloneAppendContiguous (sourceStart blockCount : Nat)
  | cloneInsert (sourceStart blockCount index : Nat)
  | cloneInsertContiguous (sourceStart blockCount index : Nat)
  | cloneReplace (sourceStart blockCount start : Nat)
  | cloneReplaceContiguous (sourceStart blockCount start : Nat)
  | cloneSplice (sourceStart blockCount start removeCount : Nat)
  | cloneSpliceContiguous (sourceStart blockCount start removeCount : Nat)
  | copyRange (sourceBlock sourceOffset block offset len : Nat)
  | exchange (leftIndex rightIndex blockCount : Nat)
  | exchangeVariable (leftStart leftCount rightStart rightCount : Nat)
  | exchangeComplete
  | transfer (sourceIndex blockCount index : Nat)
  | transferReplaceComplete

namespace FilePairCall

/-- The call. -/
def run (sb : Superblock) (source destination : UInt64) :
    FilePairCall → Effect (Abort IoError) Disk Unit
  | cloneAppend sourceStart blockCount =>
    Effect.ignore (Effect.abortable (cloneFileBlocksAppendJournaled sb source
      sourceStart blockCount destination))
  | cloneAppendContiguous sourceStart blockCount =>
    Effect.ignore (Effect.abortable (cloneFileBlocksContiguousAppend sb source
      sourceStart blockCount destination))
  | cloneInsert sourceStart blockCount index =>
    Effect.ignore (Effect.abortable (cloneFileBlocksInsertJournaled sb source
      sourceStart blockCount destination index))
  | cloneInsertContiguous sourceStart blockCount index =>
    Effect.ignore (Effect.abortable (cloneFileBlocksContiguousInsert sb source
      sourceStart blockCount destination index))
  | cloneReplace sourceStart blockCount start =>
    Effect.ignore (Effect.abortable (cloneFileBlocksReplaceJournaled sb source
      sourceStart blockCount destination start))
  | cloneReplaceContiguous sourceStart blockCount start =>
    Effect.ignore (Effect.abortable (cloneFileBlocksContiguousReplace sb source
      sourceStart blockCount destination start))
  | cloneSplice sourceStart blockCount start removeCount =>
    Effect.ignore (Effect.abortable (cloneFileBlocksSpliceJournaled sb
      ⟨source, sourceStart, blockCount⟩ ⟨destination, start, removeCount⟩))
  | cloneSpliceContiguous sourceStart blockCount start removeCount =>
    Effect.ignore (Effect.abortable (cloneFileBlocksContiguousSplice sb
      ⟨source, sourceStart, blockCount⟩ ⟨destination, start, removeCount⟩))
  | copyRange sourceBlock sourceOffset block offset len =>
    Effect.ignore (copyFileRangeJournaled sb ⟨source, sourceBlock, sourceOffset⟩
      ⟨destination, block, offset⟩ len)
  | exchange leftIndex rightIndex blockCount =>
    Effect.ignore (Effect.abortable (exchangeFileBlockRangesJournaled sb source
      leftIndex destination rightIndex blockCount))
  | exchangeVariable leftStart leftCount rightStart rightCount =>
    Effect.ignore (Effect.abortable (exchangeVariableFileBlockRangesJournaled sb
      ⟨source, leftStart, leftCount⟩ ⟨destination, rightStart, rightCount⟩))
  | exchangeComplete =>
    Effect.ignore (Effect.abortable
      (exchangeCompleteFileBlocksJournaled sb source destination))
  | transfer sourceIndex blockCount index =>
    Effect.ignore (Effect.abortable (transferFileBlockRangeJournaled sb source
      sourceIndex blockCount destination index))
  | transferReplaceComplete =>
    Effect.ignore (Effect.abortable
      (transferReplaceCompleteFileBlocksJournaled sb source destination))

/-- The call needs two different files. -/
def Distinct : FilePairCall → Prop
  | cloneAppend .. | cloneAppendContiguous .. | cloneInsert ..
  | cloneInsertContiguous .. | copyRange .. => False
  | _ => True

/-- What the call does to the contents `f` and `g` of the files. -/
def Does (f g f' g' : FileData) : FilePairCall → Prop
  | cloneAppend sourceStart blockCount =>
    sourceStart + blockCount ≤ f.images.length ∧ f' = f ∧
      g' = g.splice g.images.length g.images.length
        (segment f.images sourceStart (sourceStart + blockCount))
  | cloneAppendContiguous sourceStart blockCount =>
    (sourceStart + blockCount) * BLOCK_SIZE ≤ f.byteLen ∧ f' = f ∧
      g' = g.splice g.images.length g.images.length
        (segment f.images sourceStart (sourceStart + blockCount))
  | cloneInsert sourceStart blockCount index =>
    sourceStart + blockCount ≤ f.images.length ∧ f' = f ∧
      index ≤ g.images.length ∧ g' = g.splice index index
        (segment f.images sourceStart (sourceStart + blockCount))
  | cloneInsertContiguous sourceStart blockCount index =>
    (sourceStart + blockCount) * BLOCK_SIZE ≤ f.byteLen ∧ f' = f ∧
      index ≤ g.images.length ∧ g' = g.splice index index
        (segment f.images sourceStart (sourceStart + blockCount))
  | cloneReplace sourceStart blockCount start =>
    sourceStart + blockCount ≤ f.images.length ∧ f' = f ∧
      start + blockCount ≤ g.images.length ∧
      g' = g.splice start (start + blockCount)
        (segment f.images sourceStart (sourceStart + blockCount))
  | cloneReplaceContiguous sourceStart blockCount start =>
    (sourceStart + blockCount) * BLOCK_SIZE ≤ f.byteLen ∧ f' = f ∧
      start + blockCount ≤ g.images.length ∧
      g' = g.splice start (start + blockCount)
        (segment f.images sourceStart (sourceStart + blockCount))
  | cloneSplice sourceStart blockCount start removeCount =>
    sourceStart + blockCount ≤ f.images.length ∧ f' = f ∧
      start + removeCount ≤ g.images.length ∧
      g' = g.splice start (start + removeCount)
        (segment f.images sourceStart (sourceStart + blockCount))
  | cloneSpliceContiguous sourceStart blockCount start removeCount =>
    (sourceStart + blockCount) * BLOCK_SIZE ≤ f.byteLen ∧ f' = f ∧
      start + removeCount ≤ g.images.length ∧
      g' = g.splice start (start + removeCount)
        (segment f.images sourceStart (sourceStart + blockCount))
  | copyRange sourceBlock sourceOffset block offset len =>
    sourceBlock * BLOCK_SIZE + sourceOffset + len ≤ f.bytes.length ∧ f' = f ∧
      g.Overwritten g' (block * BLOCK_SIZE + offset)
        ((f.bytes.drop (sourceBlock * BLOCK_SIZE + sourceOffset)).take len)
  | exchange leftIndex rightIndex blockCount =>
    leftIndex + blockCount ≤ f.images.length ∧
      rightIndex + blockCount ≤ g.images.length ∧
      f' = f.setImages (Splice.splice f.images leftIndex (leftIndex + blockCount)
        (segment g.images rightIndex (rightIndex + blockCount))) ∧
      g' = g.setImages (Splice.splice g.images rightIndex
        (rightIndex + blockCount)
        (segment f.images leftIndex (leftIndex + blockCount)))
  | exchangeVariable leftStart leftCount rightStart rightCount =>
    leftStart + leftCount ≤ f.images.length ∧
      rightStart + rightCount ≤ g.images.length ∧
      f' = f.splice leftStart (leftStart + leftCount)
        (segment g.images rightStart (rightStart + rightCount)) ∧
      g' = g.splice rightStart (rightStart + rightCount)
        (segment f.images leftStart (leftStart + leftCount))
  | exchangeComplete => f' = g ∧ g' = f
  | transfer sourceIndex blockCount index =>
    sourceIndex + blockCount ≤ f.images.length ∧ index ≤ g.images.length ∧
      f' = f.splice sourceIndex (sourceIndex + blockCount) [] ∧
      g' = g.splice index index
        (segment f.images sourceIndex (sourceIndex + blockCount))
  | transferReplaceComplete => f' = ⟨[], 0⟩ ∧ g' = f

/-- What the call does to a volume. -/
def Acts (call : FilePairCall) (source destination : UInt64) (v v' : Volume) :
    Prop :=
  (call.Distinct → source ≠ destination) ∧ ∃ f g f' g',
    v.node source = some (.file f) ∧ v.node destination = some (.file g) ∧
    call.Does f g f' g' ∧ v' = (v.setFile source f').setFile destination g'

theorem guarded_run (call : FilePairCall) {sb : Superblock} {d : Disk}
    (source destination : UInt64) :
    Guarded sb (call.run sb source destination) d := by
  have hmove := fun m => @guarded_blockMove sb d m
  cases call with
  | exchange leftIndex rightIndex blockCount =>
    exact guarded_map.mpr (hmove (.exchange source leftIndex destination
      rightIndex blockCount)).abortable
  | exchangeVariable leftStart leftCount rightStart rightCount =>
    exact guarded_map.mpr (hmove (.exchangeVariable
      ⟨source, leftStart, leftCount⟩
      ⟨destination, rightStart, rightCount⟩)).abortable
  | exchangeComplete =>
    exact guarded_map.mpr (hmove (.exchangeComplete source destination)).abortable
  | transfer sourceIndex blockCount index =>
    have h := hmove (.transfer source sourceIndex blockCount destination index)
    rw [BlockMove.run, guarded_map] at h
    exact guarded_map.mpr h.abortable
  | copyRange => exact guarded_map.mpr (by simp)
  | cloneAppendContiguous | cloneInsertContiguous | cloneReplaceContiguous
  | cloneSpliceContiguous =>
    apply guarded_map.mpr
    apply Guarded.abortable
    simp [cloneFileBlocksContiguousAppend, cloneFileBlocksContiguousInsert,
      cloneFileBlocksContiguousReplace, cloneFileBlocksContiguousSplice]
  | _ => exact guarded_map.mpr (Guarded.abortable (by simp))

end FilePairCall

section Posts

variable {d d' : Disk} {sb : Superblock} {a a' : BlockAllocator}
  {inodes : List PersistedInode} {entries : List PersistedDirectoryEntry}
  {source inode inode' : PersistedInode} {start stop : Nat}
  {fresh : List UInt64} {images : List Block}

/-- Blocks of one file are spliced into a file. -/
theorem Spliced.pairActs
    (hs : Spliced sb d d' a a' inodes entries inode inode' start stop fresh
      images) (h : Mounted d sb a inodes entries) (hsource : source ∈ inodes)
    (hskind : source.kind = .file) (hmem : inode ∈ inodes)
    (hkind : inode.kind = .file) {call : FilePairCall}
    (hne : call.Distinct → source.id ≠ inode.id)
    (hdoes : start ≤ stop → stop ≤ (fileData d inode).images.length →
      call.Does (fileData d source) (fileData d inode) (fileData d source)
        ((fileData d inode).splice start stop images)) :
    Consistent sb d' ∧
      call.Acts source.id inode.id (volumeOf sb d) (volumeOf sb d') := by
  have hx := hs.fileChanged h
  have hnode := h.node_file hsource hskind
  have hdoes := hdoes hs.start_le (by
    rw [fileData_images, length_fileImages]
    exact hs.stop_le)
  refine ⟨⟨a', _, entries, hx.mounted⟩, hne, _, _, _, _, hnode,
    h.node_file hmem hkind, hdoes, ?_⟩
  rw [Volume.setFile_of_node hnode, ← hs.fileData_eq h hmem]
  exact hx.volumeOf_eq h hmem

/-- The contents of a file with other blocks, and an end that follows them. -/
theorem fileData_withBlocks {blocks : List UInt64}
    (hvalid : (inode.withBlocks blocks).Valid) (hkind : inode.kind = .file) :
    fileData d (inode.withBlocks blocks) = (fileData d inode).withImages
      (blocks.map fun block => d.blocks block.toNat) := by
  obtain ⟨_, _, _, hcapacity⟩ :=
    (PersistedInode.valid_iff (by exact hkind)).mp hvalid
  have hcapacity : blocks.length * BLOCK_SIZE < U64_LIMIT := hcapacity
  apply FileData.ext (by rfl)
  show (UInt64.ofNat _).toNat = if blocks.map _ = [] then 0 else _
  rw [UInt64.toNat_ofNat_of_lt' (show _ < U64_LIMIT by split <;> omega),
    List.length_map, fileData_slack]
  simp only [List.map_eq_nil_iff]

/-- The volume of a table with two other files. -/
theorem FilePair.volumeWith_setPair {left right left' right' : PersistedInode}
    {leftInode rightInode : UInt64}
    (hpair : FilePair inodes leftInode rightInode left right)
    (hids : (inodes.map PersistedInode.id).Nodup) (hlid : left'.id = left.id)
    (hrid : right'.id = right.id) (hlkind : left'.kind = .file)
    (hrkind : right'.kind = .file) :
    volumeWith d (setPair inodes left' right') entries =
      ((volumeWith d inodes entries).setFile leftInode
        (fileData d left')).setFile rightInode (fileData d right') := by
  have hids' : ((setInode inodes left').map PersistedInode.id).Nodup := by
    rw [map_id_setInode hids]
    exact hids
  have hmid : right ∈ setInode inodes left' :=
    (mem_setInode hids hpair.left_mem hlid).mpr
      (.inr ⟨hpair.right_mem, by rw [hlid]; exact hpair.ids_ne.symm⟩)
  rw [setPair, volumeWith_setInode hids' hmid hrid hrkind,
    volumeWith_setInode hids hpair.left_mem hlid hlkind, hpair.left_id,
    hpair.right_id]

/-- Two files trade blocks. -/
theorem FilePair.acts {left right left' right' : PersistedInode}
    {leftInode rightInode : UInt64}
    (hpair : FilePair inodes leftInode rightInode left right)
    (h : Mounted d sb a inodes entries)
    (hmounted : Mounted d' sb a' (setPair inodes left' right') entries)
    (hbecame : Became sb d d' a' (setPair inodes left' right') entries [])
    (hlid : left'.id = left.id) (hrid : right'.id = right.id)
    (hlkind : left'.kind = .file) (hrkind : right'.kind = .file)
    {call : FilePairCall} (hdoes : call.Does (fileData d left) (fileData d right)
      (fileData d left') (fileData d right')) :
    Consistent sb d' ∧
      call.Acts leftInode rightInode (volumeOf sb d) (volumeOf sb d') := by
  have hleft := h.node_file hpair.left_mem hpair.left_kind
  have hright := h.node_file hpair.right_mem hpair.right_kind
  rw [hpair.left_id] at hleft
  rw [hpair.right_id] at hright
  refine ⟨⟨a', _, entries, hmounted⟩, fun _ => hpair.ne, _, _, _, _, hleft,
    hright, hdoes, ?_⟩
  rw [hbecame.volumeOf_eq hmounted h, h.volume_eq]
  exact hpair.volumeWith_setPair h.nodup_ids hlid hrid hlkind hrkind

/-- A call that moves block references between two files. -/
theorem Mounted.blockMoveActs (h : Mounted d sb a inodes entries)
    (m : BlockMove) {x : DevM Disk RecoveryReport} (hx : x = m.run sb)
    {P : Disk → Prop}
    (hacts : ∀ inodes' d', m.Asks inodes inodes' →
      Mounted d' sb a inodes' entries →
      Became sb d d' a inodes' entries [] → P d') :
    Effect.Atomic x d fun _ d' => P d' := by
  rw [hx]
  apply (h.blockMove m).atomic.mono
  intro r d' hpost
  obtain ⟨inodes', hasks, hbecame, _⟩ := hpost
  exact hacts inodes' d' hasks
    (h.conserves (hasks.1.reassigned h.toAtRest) hbecame).1 hbecame

/-- A copy of bytes on a mounted disk. -/
theorem Mounted.copyActs (h : Mounted d sb a inodes entries)
    (source destination : UInt64)
    (sourceBlock sourceOffset block offset len : Nat) :
    Effect.Atomic (copyFileRangeJournaled sb ⟨source, sourceBlock, sourceOffset⟩
        ⟨destination, block, offset⟩ len) d
      fun _ d' => Consistent sb d' ∧
        (FilePairCall.copyRange sourceBlock sourceOffset block offset len).Acts
          source destination (volumeOf sb d) (volumeOf sb d') := by
  have hquery : ∀ read, Effect.abortable (Effect.query
      (readFileRange · sb source sourceBlock sourceOffset len)) d = (read, d) ↔
        Abort.lift (readFileRange d sb source sourceBlock sourceOffset len) =
          read := by
    intro read
    rw [Effect.abortable, Effect.query_apply, Prod.mk.injEq, and_iff_left rfl]
  cases hread : readFileRange d sb source sourceBlock sourceOffset len with
  | error e =>
    left
    exact ⟨.error e, Effect.bind_of_error ((hquery _).mpr (by rw [hread]; rfl))⟩
  | ok snapshot =>
    obtain ⟨src, hsrc, rfl, hkind⟩ := h.of_readFileRange hread
    apply Effect.atomic_bind_of_ok ((hquery _).mpr (by rw [hread]; rfl))
    rw [h.readFileRange_slice hsrc hkind] at hread
    obtain ⟨_, _, _, hinside, hbytes⟩ := hread
    have hnode := h.node_file hsrc hkind
    apply (h.rangeActs (.writeRange block offset snapshot) destination block
      offset snapshot fun _ _ hf => hf).mono
    intro report d' hpost
    obtain ⟨hconsistent, g, g', hg, hdoes, hvolume⟩ := hpost
    refine ⟨hconsistent, False.elim, _, g, _, g', hnode, hg,
      ⟨hinside, rfl, ?_⟩, ?_⟩
    · rw [fileData_bytes, ← hbytes]
      exact hdoes
    · rw [Volume.setFile_of_node hnode]
      exact hvolume

/-- **A call on two files.** On a mounted disk it fails without a trace, or the
disk stays consistent and its volume is updated as the call says. -/
theorem Mounted.filePairCall (h : Mounted d sb a inodes entries)
    (call : FilePairCall) (source destination : UInt64) :
    Effect.Atomic (call.run sb source destination) d fun _ d' =>
      Consistent sb d' ∧
        call.Acts source destination (volumeOf sb d) (volumeOf sb d') := by
  have hlen := fun inode => length_fileImages d inode
  have hsegment : ∀ (xs : List Block) (i count : Nat),
      (xs.drop i).take count = segment xs i (i + count) := by
    intro xs i count
    rw [Splice.segment, Nat.add_sub_cancel_left]
  cases call with
  | cloneAppend sourceStart blockCount =>
    apply (h.cloneFileBlocksAppend _ _ _ _).abortable.ignore.mono
    rintro _ d' ⟨r, src, hsrc, rfl, hskind, hinside, inode, hmem, rfl, hkind, a',
      inode', hs⟩
    apply hs.pairActs h hsrc hskind hmem hkind False.elim
    intro _ _
    rw [hsegment]
    simpa [FilePairCall.Does, hlen] using hinside
  | cloneAppendContiguous sourceStart blockCount =>
    apply Effect.Atomic.ignored
    apply Effect.Atomic.abortable
    apply h.atomic_snapshot
    rintro src hsrc rfl hskind _ hinside
    apply (h.appendFileBlocksContiguous _ _).mono
    rintro r d' ⟨_, inode, hmem, rfl, hkind, a', inode', hs⟩
    apply hs.pairActs h hsrc hskind hmem hkind False.elim
    intro _ _
    simpa [FilePairCall.Does, hlen] using hinside
  | cloneInsert sourceStart blockCount index =>
    apply (h.cloneFileBlocksInsert _ _ _ _ _).abortable.ignore.mono
    rintro _ d' ⟨r, src, hsrc, rfl, hskind, hinside, inode, hmem, rfl, hkind, a',
      inode', hs⟩
    apply hs.pairActs h hsrc hskind hmem hkind False.elim
    intro _ hstop
    rw [hsegment]
    exact ⟨by rw [fileData_images, hlen]; exact hinside, rfl, hstop, rfl⟩
  | cloneInsertContiguous sourceStart blockCount index =>
    apply Effect.Atomic.ignored
    apply Effect.Atomic.abortable
    apply h.atomic_snapshot
    rintro src hsrc rfl hskind _ hinside
    apply (h.insertFileBlocksContiguous _ _ _).mono
    rintro r d' ⟨_, inode, hmem, rfl, hkind, a', inode', hs⟩
    apply hs.pairActs h hsrc hskind hmem hkind False.elim
    exact fun _ hstop => ⟨hinside, rfl, hstop, rfl⟩
  | cloneReplace sourceStart blockCount start =>
    apply (h.cloneFileBlocksReplace _ _ _ _ _).abortable.ignore.mono
    rintro _ d' ⟨r, hne, src, hsrc, rfl, hskind, hinside, inode, hmem, rfl,
      hkind, _, a', inode', hs⟩
    apply hs.pairActs h hsrc hskind hmem hkind fun _ => hne
    intro _ hstop
    rw [hsegment]
    exact ⟨by rw [fileData_images, hlen]; exact hinside, rfl, hstop, rfl⟩
  | cloneReplaceContiguous sourceStart blockCount start =>
    apply Effect.Atomic.ignored
    apply Effect.Atomic.abortable
    apply Effect.atomic_lift_bind
    intro _ hne
    rw [rejectIf_eq_ok] at hne
    apply h.atomic_snapshot
    rintro src hsrc rfl hskind _ hinside
    apply (h.replaceFileBlocksContiguous _ _ _ _).mono
    rintro r d' ⟨_, inode, hmem, rfl, hkind, _, a', inode', hs⟩
    apply hs.pairActs h hsrc hskind hmem hkind fun _ => hne
    exact fun _ hstop => ⟨hinside, rfl, hstop, rfl⟩
  | cloneSplice sourceStart blockCount start removeCount =>
    apply (h.cloneFileBlocksSplice _ _).abortable.ignore.mono
    rintro _ d' ⟨r, hne, src, hsrc, hsid, hskind, hinside, inode, hmem, hid,
      hkind, _, a', inode', hs⟩
    obtain rfl : src.id = source := hsid
    obtain rfl : inode.id = destination := hid
    apply hs.pairActs h hsrc hskind hmem hkind fun _ => hne
    intro _ hstop
    rw [hsegment]
    exact ⟨by rw [fileData_images, hlen]; exact hinside, rfl, hstop, rfl⟩
  | cloneSpliceContiguous sourceStart blockCount start removeCount =>
    apply Effect.Atomic.ignored
    apply Effect.Atomic.abortable
    apply Effect.atomic_lift_bind
    intro _ hne
    rw [rejectIf_eq_ok] at hne
    apply h.atomic_snapshot
    rintro src hsrc hsid hskind _ hinside
    obtain rfl : src.id = source := hsid
    apply (h.replaceFileBlocksContiguous _ _ _ _).mono
    rintro r d' ⟨_, inode, hmem, rfl, hkind, _, a', inode', hs⟩
    apply hs.pairActs h hsrc hskind hmem hkind fun _ => hne
    exact fun _ hstop => ⟨hinside, rfl, hstop, rfl⟩
  | copyRange sourceBlock sourceOffset block offset len =>
    exact (h.copyActs source destination sourceBlock sourceOffset block offset
      len).ignored
  | exchange leftIndex rightIndex blockCount =>
    apply Effect.Atomic.ignored
    apply Effect.Atomic.abortable
    apply h.blockMoveActs (.exchange source leftIndex destination rightIndex
      blockCount) rfl
    rintro inodes' d' ⟨⟨left, right, hpair, _, hi, hk, rfl⟩, _⟩ hmounted hbecame
    rw [← hlen] at hi hk
    apply hpair.acts h hmounted hbecame (by rfl) (by rfl) hpair.left_kind
      hpair.right_kind
    refine ⟨hi, hk, ?_, ?_⟩
    · apply fileData_rearranged (by rfl) (by rfl)
      rw [map_splice, map_segment]
      rfl
    · apply fileData_rearranged (by rfl) (by rfl)
      rw [map_splice, map_segment]
      rfl
  | exchangeVariable leftStart leftCount rightStart rightCount =>
    apply Effect.Atomic.ignored
    apply Effect.Atomic.abortable
    apply h.blockMoveActs (.exchangeVariable ⟨source, leftStart, leftCount⟩
      ⟨destination, rightStart, rightCount⟩) rfl
    rintro inodes' d' ⟨⟨left, right, hpair, _, _, hi, hk, rfl⟩, hvalid⟩ hmounted
      hbecame
    rw [hpair.valid_setPair h.nodup_ids (by rfl) (by rfl) h.validTable] at hvalid
    rw [← hlen] at hi hk
    apply hpair.acts h hmounted hbecame (by rfl) (by rfl) hpair.left_kind
      hpair.right_kind
    refine ⟨hi, hk, ?_, ?_⟩
    · rw [fileData_withBlocks hvalid.1 hpair.left_kind, map_splice, map_segment]
      rfl
    · rw [fileData_withBlocks hvalid.2 hpair.right_kind, map_splice, map_segment]
      rfl
  | exchangeComplete =>
    apply Effect.Atomic.ignored
    apply Effect.Atomic.abortable
    apply h.blockMoveActs (.exchangeComplete source destination) rfl
    rintro inodes' d' ⟨⟨left, right, hpair, rfl⟩, _⟩ hmounted hbecame
    exact hpair.acts h hmounted hbecame (by rfl) (by rfl) hpair.left_kind
      hpair.right_kind ⟨rfl, rfl⟩
  | transfer sourceIndex blockCount index =>
    apply (h.transferFileBlockRange _ _ _ _ _).atomic.abortable.ignore.mono
    rintro _ d' ⟨r, inodes', hasks, hbecame, _⟩
    have hmounted := (h.conserves (hasks.1.reassigned h.toAtRest) hbecame).1
    obtain ⟨⟨left, right, hpair, _, hi, hk, rfl⟩, hvalid⟩ := hasks
    rw [hpair.valid_setPair h.nodup_ids (by rfl) (by rfl) h.validTable] at hvalid
    rw [← hlen] at hi hk
    apply hpair.acts h hmounted hbecame (by rfl) (by rfl) hpair.left_kind
      hpair.right_kind
    refine ⟨hi, hk, ?_, ?_⟩
    · rw [fileData_withBlocks hvalid.1 hpair.left_kind, map_splice]
      rfl
    · rw [fileData_withBlocks hvalid.2 hpair.right_kind, map_splice, map_segment]
      rfl
  | transferReplaceComplete =>
    apply (h.transferReplaceCompleteFileBlocks _ _).abortable.ignore.mono
    rintro _ d' ⟨r, src, dst, a', hpair, hflag, hbecame⟩
    have hmounted := h.reassigned (hpair.reassigned_transferred h.toAtRest) hflag
      hbecame
    exact hpair.acts h hmounted hbecame (by rfl) (by rfl) hpair.left_kind
      hpair.right_kind ⟨rfl, rfl⟩

end Posts

end FilesystemLab
