import FilesystemLab.FileClone
import FilesystemLab.FileWrite

/-!
# Defragmentation

`path_contiguous_defrag.rs`: the blocks of a file, or a range of them, are moved
to one contiguous run.

Blocks that are a run already are left alone, so a second call does nothing:
`allAdjacent_iff` says that the test for this is exact for blocks of a device.
Other blocks are read, and replaced by a fresh run with what was read.

`Relocated` is what both functions leave, and `defragment_relocates` that they
leave it.
-/

namespace FilesystemLab

/-! ## The operations -/

/-- `blocks.windows(2).all(|pair| pair[1] == pair[0] + 1)`. -/
def allAdjacent (blocks : List UInt64) : Bool :=
  (blocks.zip blocks.tail).all fun pair => pair.2 == pair.1 + 1

section Device

variable {σ : Type} [BlockDevice σ]

/-- What both functions do with the selected blocks; `unowned` is the message of
the function. -/
def relocateBlocks (unowned : String) (sb : Superblock) (id : UInt64)
    (a : BlockAllocator) (selected : List UInt64) (start blockCount : Nat) :
    DevM σ (List UInt64 × RecoveryReport) := do
  requireAllocatorOwned unowned a selected
  if allAdjacent selected = true then pure (selected, RecoveryReport.default)
  else do
    let snapshots ← Effect.query (readBlocks · selected)
    let r ← replaceFileBlocksContiguousJournaled sb id start blockCount snapshots
    pure (r.1, r.2.2)

/-- `defragment_file_contiguous_at_path_journaled`. -/
def defragmentFileContiguousAtPathJournaled (sb : Superblock) (path : String) :
    DevM σ (List UInt64 × RecoveryReport) := do
  let _ ← recoverJournalAndCheckpoint sb
  let id ← Effect.query (resolvePathFollowingSymlinks · sb path)
  let allocator ← Effect.query (loadAllocator · sb)
  let inodes ← Effect.query (loadInodeTable · sb)
  let inode ← okOr (findInode inodes id)
    (invalidInput "defragment target inode is missing")
  rejectIf (inode.kind ≠ .file)
    (invalidInput "defragment target must be a regular file")
  rejectIf (inode.blocks = []) (invalidInput
    "defragment target must contain at least one logical block")
  relocateBlocks "defragment target block is not allocator-owned" sb id
    allocator inode.blocks 0 inode.blocks.length

/-- `defragment_file_range_contiguous_at_path_journaled`. -/
def defragmentFileRangeContiguousAtPathJournaled (sb : Superblock)
    (path : String) (start blockCount : Nat) :
    DevM σ (List UInt64 × RecoveryReport) := do
  rejectIf (blockCount = 0) (invalidInput
    "defragment range must contain at least one logical block")
  let stop ← okOr (checkedAdd start blockCount)
    (invalidInput "defragment range overflows usize")
  let _ ← recoverJournalAndCheckpoint sb
  let id ← Effect.query (resolvePathFollowingSymlinks · sb path)
  let allocator ← Effect.query (loadAllocator · sb)
  let inodes ← Effect.query (loadInodeTable · sb)
  let inode ← okOr (findInode inodes id)
    (invalidInput "defragment range target inode is missing")
  rejectIf (inode.kind ≠ .file)
    (invalidInput "defragment range target must be a regular file")
  rejectIf (stop > inode.blocks.length)
    (invalidInput "defragment range exceeds existing logical blocks")
  relocateBlocks "defragment range block is not allocator-owned" sb id allocator
    ((inode.blocks.drop start).take (stop - start)) start blockCount

end Device

/-! ## Runs -/

theorem allAdjacent_cons_cons (first second : UInt64) (rest : List UInt64) :
    allAdjacent (first :: second :: rest) =
      (second == first + 1 && allAdjacent (second :: rest)) := rfl

theorem consecutive_cons_cons {first second : UInt64} {rest : List UInt64} :
    Consecutive (first :: second :: rest) ↔
      second.toNat = first.toNat + 1 ∧ Consecutive (second :: rest) := by
  unfold Consecutive
  simp only [List.map_cons, List.length_cons, List.range'_succ, List.cons.injEq]
  constructor
  · intro hfacts
    rcases hfacts with ⟨start, rfl, hnext, hrest⟩
    exact ⟨hnext, _, hnext, hrest⟩
  · intro hfacts
    rcases hfacts with ⟨hnext, start, rfl, hrest⟩
    exact ⟨first.toNat, rfl, hnext, by rw [← hnext]; exact hrest⟩

/-- **The test for a run is exact** where the numbers do not wrap around. -/
theorem allAdjacent_iff {blocks : List UInt64}
    (hlt : ∀ block ∈ blocks, block.toNat + 1 < U64_LIMIT) :
    allAdjacent blocks = true ↔ Consecutive blocks := by
  induction blocks with
  | nil =>
    constructor
    · intro _
      exact ⟨0, rfl⟩
    · intro _
      rfl
  | cons first rest ih =>
    cases rest with
    | nil =>
      constructor
      · intro _
        exact ⟨first.toNat, rfl⟩
      · intro _
        rfl
    | cons second rest =>
      rw [List.forall_mem_cons] at hlt
      have hnext : (first + 1).toNat = first.toNat + 1 := by
        rw [UInt64.toNat_add]
        exact Nat.mod_eq_of_lt hlt.1
      rw [allAdjacent_cons_cons, Bool.and_eq_true, beq_iff_eq, ih hlt.2,
        consecutive_cons_cons, ← UInt64.toNat_inj, hnext]

/-! ## What a relocation leaves -/

/-- The disk `d'` is `d` with the blocks `start..start + blockCount` of the file
at a path moved to `blocks`: the images and the end of the file, its other
blocks and everything else are those of before. -/
structure Relocated (sb : Superblock) (d d' : Disk) (path : String)
    (inode inode' : PersistedInode) (start blockCount : Nat)
    (blocks : List UInt64) : Prop extends OnlyFile sb d d' inode inode' where
  file : FileAt d' sb path inode'
  id_eq : inode'.id = inode.id
  in_range : 0 < blockCount ∧ start + blockCount ≤ inode.blocks.length
  blocks_eq : inode'.blocks = inode.blocks.take start ++ blocks ++
    inode.blocks.drop (start + blockCount)
  length_eq : blocks.length = blockCount
  consecutive : Consecutive blocks
  images_eq : fileImages d' inode' = fileImages d inode
  byteLen_eq : inode'.byteLen = inode.byteLen
  owned_eq : ∃ a a', loadAllocator d sb = .ok a ∧ loadAllocator d' sb = .ok a' ∧
    a'.allocatedBlocks = a.allocatedBlocks
  released : d' = d ∨ ∀ block,
    MarkedOwned d sb block true ∧ MarkedOwned d' sb block false ↔
      block ∈ (inode.blocks.drop start).take blockCount
  kept : ∀ b, sb.reservedBlocks ≤ b → b ∉ blocks.map UInt64.toNat →
    d'.blocks b = d.blocks b

section Mounted

variable {d d' : Disk} {sb : Superblock} {a a' : BlockAllocator}
  {inodes : List PersistedInode} {entries : List PersistedDirectoryEntry}
  {inode inode' : PersistedInode} {start stop blockCount : Nat}
  {fresh : List UInt64} {images : List Block} {path : String}

/-- A range of a list in its place. -/
theorem take_append_range_append_drop {α : Type} (xs : List α)
    (start count : Nat) :
    xs.take start ++ (xs.drop start).take count ++ xs.drop (start + count) =
      xs := by
  rw [List.append_assoc, ← List.drop_drop, List.take_append_drop,
    List.take_append_drop]

/-- The blocks of a file are blocks of the device. -/
theorem Mounted.block_lt (h : Mounted d sb a inodes entries)
    (hmem : inode ∈ inodes) {block : UInt64} (hblock : block ∈ inode.blocks) :
    block.toNat < d.size ∧ block.toNat + 1 < U64_LIMIT := by
  have hrange := BlockAllocator.range_of_flag
    (h.owned.data inode hmem block hblock)
  have htotal := h.geometry.1
  have hsize := h.size
  have hlayout := sb.layout
  omega

/-- As many blocks are owned as the files have. -/
theorem Owned.allocatedBlocks_eq (h : Owned sb a inodes) :
    a.allocatedBlocks = (inodes.map fun inode => inode.blocks.length).sum := by
  rw [← h.length_references, ← List.length_map Prod.fst, references_fst,
    List.length_flatMap]

/-- A file that keeps the number of its blocks keeps the number of owned ones. -/
theorem FileChanged.allocatedBlocks_eq
    (hx : FileChanged sb d d' a' inodes entries inode inode')
    (h : Mounted d sb a inodes entries) (hmem : inode ∈ inodes)
    (hlen : inode'.blocks.length = inode.blocks.length) :
    a'.allocatedBlocks = a.allocatedBlocks := by
  rw [h.owned.allocatedBlocks_eq, hx.mounted.owned.allocatedBlocks_eq,
    setInode_eq_map h.nodup_ids, List.map_map]
  congr 1
  apply List.map_congr_left
  intro other hother
  show (if other.id = inode'.id then inode' else other).blocks.length = _
  split
  · rename_i heq
    rw [List.inj_on_of_nodup_map h.nodup_ids hother hmem (heq.trans hx.id_eq)]
    exact hlen
  · rfl

/-- A range that is replaced by as many fresh blocks with the same images is
moved. -/
theorem Spliced.relocated
    (hs : Spliced sb d d' a a' inodes entries inode inode' start
      (start + blockCount) fresh
      (((fileImages d inode).drop start).take blockCount))
    (h : Mounted d sb a inodes entries) (hfile : FileAt d sb path inode)
    (hcount : 0 < blockCount) (hrun : Consecutive fresh) :
    Relocated sb d d' path inode inode' start blockCount fresh := by
  have hmem := hfile.mem h.toAtRest
  have hx := hs.fileChanged h
  have hstop := hs.stop_le
  have hlen : fresh.length = blockCount := by
    have hwritten := congrArg List.length hs.written
    rw [List.length_map, List.length_take, List.length_drop,
      length_fileImages] at hwritten
    omega
  have hblocks : inode'.blocks.length = inode.blocks.length := by
    rw [hs.blocks_eq, List.length_append, List.length_append, List.length_take,
      List.length_drop, hlen]
    omega
  refine ⟨hs.onlyFile h, hx.fileAt h hfile, hs.id_eq, ⟨hcount, hstop⟩,
    hs.blocks_eq, hlen, hrun, ?_, ?_, ⟨a, a', h.allocator,
      hs.mounted.allocator, hx.allocatedBlocks_eq h hmem hblocks⟩, .inr ?_,
    hs.kept⟩
  · rw [hs.fileImages_eq h hmem, take_append_range_append_drop]
  · have hend := (h.fileEnd hmem hfile.kind_eq).1.le_capacity
    have hnew : inode'.blocks ≠ [] := by
      rw [← List.length_pos_iff]
      omega
    have hbyteLen := hs.byteLen_eq
    rw [if_neg hnew, hblocks, PersistedInode.tailSlack,
      Nat.sub_sub_self hend] at hbyteLen
    exact UInt64.toNat_inj.mp hbyteLen
  · intro block
    have hold : block.toNat ∈
        ((inode.blocks.drop start).take blockCount).map UInt64.toNat ↔
          block ∈ (inode.blocks.drop start).take blockCount :=
      List.mem_map_of_injective fun _ _ => UInt64.toNat_inj.mp
    rw [h.toAtRest.markedOwned_iff, hs.mounted.toAtRest.markedOwned_iff, hs.flag,
      Nat.add_sub_cancel_left, ← hold]
    constructor
    · intro hfacts
      rcases hfacts with ⟨hset, hclear⟩
      rw [hset, Bool.or_true, Bool.and_true, decide_eq_false_iff_not,
        not_not] at hclear
      exact hclear
    · intro hin
      refine ⟨h.owned.data inode hmem block
        (List.mem_of_mem_drop (List.mem_of_mem_take (hold.mp hin))), ?_⟩
      rw [decide_eq_false (not_not.mpr hin), Bool.false_and]

/-- A range that is a run is left alone. -/
theorem Mounted.relocated_self (h : Mounted d sb a inodes entries)
    (hfile : FileAt d sb path inode) (hcount : 0 < blockCount)
    (hstop : start + blockCount ≤ inode.blocks.length)
    (hrun : Consecutive ((inode.blocks.drop start).take blockCount)) :
    Relocated sb d d path inode inode start blockCount
      ((inode.blocks.drop start).take blockCount) := by
  have hmem := hfile.mem h.toAtRest
  have hself : (inodes.map fun other =>
      if other.id = inode.id then inode else other) = inodes := by
    rw [← setInode_eq_map h.nodup_ids, setInode_self h.nodup_ids hmem]
  refine ⟨⟨h.superblock, h.journal, ⟨_, h.check⟩,
      ⟨inodes, h.inodeTable, by rw [hself]; exact h.inodeTable⟩, rfl,
      fun _ _ _ _ => Iff.rfl, fun _ _ _ => rfl⟩, hfile, rfl, ⟨hcount, hstop⟩,
    (take_append_range_append_drop _ _ _).symm, ?_, hrun, rfl, rfl,
    ⟨a, a, h.allocator, h.allocator, rfl⟩, .inl rfl, fun _ _ _ => rfl⟩
  rw [List.length_take, List.length_drop]
  omega

/-- The blocks of a file are read. -/
theorem Mounted.readBlocks_eq (h : Mounted d sb a inodes entries)
    (hmem : inode ∈ inodes) {blocks : List UInt64}
    (hblocks : ∀ block ∈ blocks, block ∈ inode.blocks) :
    readBlocks d blocks = .ok (blocks.map fun block => d.blocks block.toNat) := by
  induction blocks with
  | nil => rfl
  | cons block rest ih =>
    rw [List.forall_mem_cons] at hblocks
    rw [readBlocks, Disk.readBlock_of_lt (h.block_lt hmem hblocks.1).1,
      Except.ok_bind, ih hblocks.2]
    rfl

/-- The images of a range of a file. -/
theorem map_range_eq (d : Disk) (inode : PersistedInode)
    (start blockCount : Nat) :
    ((inode.blocks.drop start).take blockCount).map
        (fun block => d.blocks block.toNat) =
      ((fileImages d inode).drop start).take blockCount := by
  rw [fileImages, List.map_take, List.map_drop]

/-- A run is left alone. -/
theorem Mounted.relocateBlocks_run (h : Mounted d sb a inodes entries)
    (hmem : inode ∈ inodes) {selected : List UInt64}
    (hselected : ∀ block ∈ selected, block ∈ inode.blocks)
    (hrun : Consecutive selected) (unowned : String) (id : UInt64)
    (start blockCount : Nat) :
    relocateBlocks unowned sb id a selected start blockCount d =
      (.ok (selected, RecoveryReport.default), d) := by
  have hadjacent : allAdjacent selected = true :=
    (allAdjacent_iff fun block hblock =>
      (h.block_lt hmem (hselected block hblock)).2).mpr hrun
  rw [relocateBlocks, Effect.lift_bind_of_ok (a := ())
    (requireAllocatorOwned_of_owned fun block hblock =>
      h.owned.data inode hmem block (hselected block hblock)), if_pos hadjacent]
  rfl

/-- **One relocation**: the range is moved to a run, or it is one already. -/
theorem Mounted.relocateBlocks (h : Mounted d sb a inodes entries)
    (hfile : FileAt d sb path inode) (hcount : 0 < blockCount)
    (hstop : start + blockCount ≤ inode.blocks.length) (unowned : String) :
    Effect.Atomic (FilesystemLab.relocateBlocks unowned sb inode.id a
        ((inode.blocks.drop start).take blockCount) start blockCount) d
      fun r d' => ∃ inode',
        Relocated sb d d' path inode inode' start blockCount r.1 := by
  have hmem := hfile.mem h.toAtRest
  have hselected : ∀ block ∈ (inode.blocks.drop start).take blockCount,
      block ∈ inode.blocks :=
    fun block hblock => List.mem_of_mem_drop (List.mem_of_mem_take hblock)
  apply Effect.atomic_lift_bind
  intro _ _
  split
  · rename_i hadjacent
    have hrun := (allAdjacent_iff fun block hblock =>
      (h.block_lt hmem (hselected block hblock)).2).mp hadjacent
    exact Effect.atomic_pure
      ⟨inode, h.relocated_self hfile hcount hstop hrun⟩
  · apply Effect.atomic_query_bind
    intro snapshots hread
    rw [h.readBlocks_eq hmem hselected, map_range_eq, Except.ok.injEq] at hread
    subst hread
    apply (h.replaceFileBlocksContiguous inode.id start blockCount _).bind
    intro r d' hpost
    rcases hpost with ⟨hrun, other, hother, hid, _, _, a', inode', hs⟩
    have hsame : other = inode :=
      List.inj_on_of_nodup_map h.nodup_ids hother hmem hid
    subst hsame
    exact ⟨_, _, rfl, inode', hs.relocated h hfile hcount hrun⟩

end Mounted

/-! ## The two calls -/

/-- A call of one of the two functions. -/
inductive DefragCall where
  | whole
  | range (start blockCount : Nat)

namespace DefragCall

def run {σ : Type} [BlockDevice σ] (sb : Superblock) (path : String) :
    DefragCall → DevM σ (List UInt64 × RecoveryReport)
  | whole => defragmentFileContiguousAtPathJournaled sb path
  | range start blockCount =>
    defragmentFileRangeContiguousAtPathJournaled sb path start blockCount

/-- Where the range starts and how many blocks it has, in a file of `blocks`. -/
def selection (blocks : Nat) : DefragCall → Nat × Nat
  | whole => (0, blocks)
  | range start blockCount => (start, blockCount)

/-- The message for a block that is not owned. -/
def unowned : DefragCall → String
  | whole => "defragment target block is not allocator-owned"
  | range _ _ => "defragment range block is not allocator-owned"

/-- The range is in a file of `blocks`. -/
def Fits (call : DefragCall) (blocks : Nat) : Prop :=
  0 < (call.selection blocks).2 ∧
    (call.selection blocks).1 + (call.selection blocks).2 ≤ blocks

end DefragCall

section Calls

variable {d : Disk} {sb : Superblock} {a : BlockAllocator}
  {inodes : List PersistedInode} {entries : List PersistedDirectoryEntry}
  {inode : PersistedInode} {path : String} {call : DefragCall}

/-- The relocation that a call makes of a file. -/
def DefragCall.relocate (call : DefragCall) (sb : Superblock) (a : BlockAllocator)
    (inode : PersistedInode) : DevM Disk (List UInt64 × RecoveryReport) :=
  relocateBlocks call.unowned sb inode.id a
    ((inode.blocks.drop (call.selection inode.blocks.length).1).take
      (call.selection inode.blocks.length).2)
    (call.selection inode.blocks.length).1 (call.selection inode.blocks.length).2

/-- A call on a file that the range is in. -/
theorem Mounted.defragCall_eq (h : Mounted d sb a inodes entries)
    (hfile : FileAt d sb path inode) (hfits : call.Fits inode.blocks.length) :
    call.run sb path d = call.relocate sb a inode d := by
  have hmem := hfile.mem h.toAtRest
  have hfind : findInode inodes inode.id = some inode :=
    findInode_of_mem h.nodup_ids hmem
  have hkind : ¬ inode.kind ≠ .file := not_ne_iff.mpr hfile.kind_eq
  rcases hfits with ⟨hcount, hstop⟩
  cases call with
  | whole =>
    have hsome : inode.blocks ≠ [] := List.length_pos_iff.mp hcount
    rw [DefragCall.run, defragmentFileContiguousAtPathJournaled,
      Effect.bind_of_ok h.recover,
      Effect.query_bind_of_ok
        (q := fun d : Disk => resolvePathFollowingSymlinks d sb path)
        hfile.resolves, h.allocator_bind, h.inodes_bind,
      Effect.lift_bind_of_ok (okOr_eq_ok.mpr hfind),
      Effect.lift_bind_of_ok (a := ()) (rejectIf_of_not hkind),
      Effect.lift_bind_of_ok (a := ()) (rejectIf_of_not hsome),
      DefragCall.relocate, DefragCall.selection, List.drop_zero,
      List.take_length]
    rfl
  | range start blockCount =>
    replace hcount : 0 < blockCount := hcount
    replace hstop : start + blockCount ≤ inode.blocks.length := hstop
    have hadd : checkedAdd start blockCount = some (start + blockCount) := by
      have hblock : 0 < BLOCK_SIZE := by decide
      have hcapacity := (h.fileEnd hmem hfile.kind_eq).2
      have hle := Nat.le_mul_of_pos_right inode.blocks.length hblock
      rw [checkedAdd_eq_some]
      exact ⟨by omega, rfl⟩
    rw [DefragCall.run, defragmentFileRangeContiguousAtPathJournaled,
      Effect.lift_bind_of_ok (a := ()) (rejectIf_of_not (by omega)),
      Effect.lift_bind_of_ok (okOr_eq_ok.mpr hadd),
      Effect.bind_of_ok h.recover,
      Effect.query_bind_of_ok
        (q := fun d : Disk => resolvePathFollowingSymlinks d sb path)
        hfile.resolves, h.allocator_bind, h.inodes_bind,
      Effect.lift_bind_of_ok (okOr_eq_ok.mpr hfind),
      Effect.lift_bind_of_ok (a := ()) (rejectIf_of_not hkind),
      Effect.lift_bind_of_ok (a := ()) (rejectIf_of_not (by omega)),
      Nat.add_sub_cancel_left]
    rfl

/-- A call that gets through its checks relocates a file. -/
theorem Mounted.atomic_defragCall (h : Mounted d sb a inodes entries)
    {post : List UInt64 × RecoveryReport → Disk → Prop}
    (hpost : ∀ inode, FileAt d sb path inode → call.Fits inode.blocks.length →
      Effect.Atomic (call.relocate sb a inode) d post) :
    Effect.Atomic (call.run sb path) d post := by
  cases call with
  | whole =>
    apply Effect.atomic_bind_of_ok h.recover
    apply Effect.atomic_query_bind
    intro id hpath
    apply h.atomic_allocator
    apply h.atomic_inodes
    apply atomic_findFile
    rintro inode hmem rfl hkind
    apply Effect.atomic_lift_bind
    intro _ hsome
    rw [rejectIf_eq_ok, ← ne_eq, ← List.length_pos_iff] at hsome
    have hresult := hpost inode ⟨hpath, ⟨inodes, h.inodeTable, hmem⟩, hkind⟩
      ⟨hsome, le_of_eq (Nat.zero_add _)⟩
    rw [DefragCall.relocate, DefragCall.selection, List.drop_zero,
      List.take_length] at hresult
    exact hresult
  | range start blockCount =>
    apply Effect.atomic_lift_bind
    intro _ hcount
    rw [rejectIf_eq_ok] at hcount
    apply Effect.atomic_lift_bind
    intro stop hstop
    rw [okOr_eq_ok, checkedAdd_eq_some] at hstop
    obtain ⟨_, rfl⟩ := hstop
    apply Effect.atomic_bind_of_ok h.recover
    apply Effect.atomic_query_bind
    intro id hpath
    apply h.atomic_allocator
    apply h.atomic_inodes
    apply atomic_findFile
    rintro inode hmem rfl hkind
    apply Effect.atomic_lift_bind
    intro _ hinside
    rw [rejectIf_eq_ok, not_lt] at hinside
    rw [Nat.add_sub_cancel_left]
    exact hpost inode ⟨hpath, ⟨inodes, h.inodeTable, hmem⟩, hkind⟩
      ⟨Nat.pos_of_ne_zero hcount, hinside⟩

/-- The range of a file that was moved. -/
theorem Relocated.selected_eq {d d' : Disk} {inode inode' : PersistedInode}
    {start blockCount : Nat} {blocks : List UInt64}
    (hr : Relocated sb d d' path inode inode' start blockCount blocks) :
    (inode'.blocks.drop start).take blockCount = blocks := by
  have hstart : (inode.blocks.take start).length = start := by
    have hrange := hr.in_range
    rw [List.length_take]
    omega
  rw [hr.blocks_eq, List.append_assoc, List.drop_left' hstart,
    List.take_left' hr.length_eq]

theorem Relocated.length_blocks {d d' : Disk} {inode inode' : PersistedInode}
    {start blockCount : Nat} {blocks : List UInt64}
    (hr : Relocated sb d d' path inode inode' start blockCount blocks) :
    inode'.blocks.length = inode.blocks.length := by
  have hrange := hr.in_range
  rw [hr.blocks_eq, List.length_append, List.length_append, List.length_take,
    List.length_drop, hr.length_eq]
  omega

/-- **Defragmentation changes only where blocks are, and a second call does
nothing.**  On a device that the check accepts with an empty journal, a call that
fails changes nothing; one that succeeds moves the range of the file to the run
that it returns, and the same call then returns it again. -/
theorem defragment_relocates {d d' : Disk} {sb : Superblock}
    {report : FsckReport} {path : String} {call : DefragCall}
    {result : Result (List UInt64 × RecoveryReport)}
    (hsb : readSuperblock d = .ok sb)
    (hjournal : loadJournalImage d sb = .ok [])
    (hcheck : checkDevice d = .ok report)
    (hrun : call.run sb path d = (result, d')) :
    match result with
    | .error _ => d' = d
    | .ok r => ∃ inode inode', FileAt d sb path inode ∧
        Relocated sb d d' path inode inode'
          (call.selection inode.blocks.length).1
          (call.selection inode.blocks.length).2 r.1 ∧
        call.run sb path d' = (.ok (r.1, RecoveryReport.default), d') := by
  obtain ⟨a, inodes, entries, h⟩ := exists_mounted hsb hjournal hcheck
  have hatomic : Effect.Atomic (call.run sb path) d fun r d' =>
      ∃ inode inode', FileAt d sb path inode ∧
        Relocated sb d d' path inode inode'
          (call.selection inode.blocks.length).1
          (call.selection inode.blocks.length).2 r.1 := by
    apply h.atomic_defragCall
    intro inode hfile hfits
    apply (h.relocateBlocks hfile hfits.1 hfits.2 call.unowned).mono
    intro r d' hpost
    obtain ⟨inode', hr⟩ := hpost
    exact ⟨inode, inode', hfile, hr⟩
  cases result with
  | error error =>
    have hsame := hatomic.of_error (congrArg Prod.fst hrun)
    rw [hrun] at hsame
    exact hsame
  | ok r =>
    obtain ⟨inode, inode', hfile, hr⟩ := hatomic.of_ok hrun
    refine ⟨inode, inode', hfile, hr, ?_⟩
    -- the file is a file of the new disk, and its range a run
    obtain ⟨report', hcheck'⟩ := hr.checked
    obtain ⟨a', inodes', entries', h'⟩ :=
      exists_mounted hr.superblock hr.journal hcheck'
    have hmem' := hr.file.mem h'.toAtRest
    have hselected := hr.selected_eq
    rw [h'.defragCall_eq hr.file (by rw [hr.length_blocks]; exact hr.in_range),
      DefragCall.relocate, hr.length_blocks, hselected]
    refine h'.relocateBlocks_run hmem' ?_ hr.consecutive _ _ _ _
    intro block hblock
    rw [← hselected] at hblock
    exact List.mem_of_mem_drop (List.mem_of_mem_take hblock)

end Calls

/-! ## A sample relocation -/

/-- Which inode owns a block, and in which order, does not matter. -/
theorem Owned.of_perm {sb : Superblock} {a : BlockAllocator}
    {inodes inodes' : List PersistedInode} (h : Owned sb a inodes)
    (hperm : (inodes'.flatMap PersistedInode.blocks).Perm
      (inodes.flatMap PersistedInode.blocks)) : Owned sb a inodes' := by
  have howner : ∀ block : UInt64, (∃ inode ∈ inodes', block ∈ inode.blocks) ↔
      ∃ inode ∈ inodes, block ∈ inode.blocks := by
    intro block
    rw [← List.mem_flatMap, ← List.mem_flatMap, hperm.mem_iff]
  refine ⟨?_, hperm.nodup_iff.mpr h.nodup, ?_⟩
  · intro inode hinode block hblock
    obtain ⟨other, hother, howned⟩ := (howner block).mp ⟨inode, hinode, hblock⟩
    exact h.data other hother block howned
  · intro b hflag
    obtain ⟨inode, hinode, block, hblock, rfl⟩ := h.owner b hflag
    obtain ⟨other, hother, howned⟩ := (howner block).mpr ⟨inode, hinode, hblock⟩
    exact ⟨other, hother, block, howned, rfl⟩

/-- A file whose two blocks are in the wrong order. -/
def scatteredInodes : List PersistedInode :=
  [⟨1, .directory, [], 0⟩, ⟨3, .file, [11, 10], 4106⟩]

/-- The sample disk with this file at `/t`. -/
def scatteredDisk (data : Nat → Block) : Disk :=
  formatted treeSuperblock filesAllocator scatteredInodes [⟨1, 3, "t"⟩] data

theorem mounted_scatteredDisk (data : Nat → Block) :
    Mounted (scatteredDisk data) treeSuperblock filesAllocator scatteredInodes
      [⟨1, 3, "t"⟩] := by
  obtain ⟨inodeImage, hinodeImage⟩ :
      ∃ image, inodeFormat.encodeImage 1 scatteredInodes = .ok image :=
    exists_inodeImage (by decide) (by decide) (by decide) (by decide)
      (by decide)
  obtain ⟨directoryImage, hdirectoryImage⟩ :
      ∃ image, directoryFormat.encodeImage 1 [⟨1, 3, "t"⟩] = .ok image :=
    exists_directoryImage (by decide) (by decide) (by decide) (by decide)
      (by decide)
  have howned : Owned treeSuperblock filesAllocator scatteredInodes :=
    (@owned_filesAllocator filesInodes rfl).of_perm (by decide)
  refine ⟨atRest_formatted _ rfl rfl hinodeImage (by decide) hdirectoryImage,
    howned, ?_, ?_⟩
  · rw [scatteredInodes, List.forall_mem_cons, List.forall_mem_singleton]
    exact ⟨rfl, rfl⟩
  · exact namespace_of_targeted (by decide) (by decide) (by decide)
      (acyclic_of_lt (by decide)) (by decide)

theorem fileAt_scatteredDisk (data : Nat → Block) :
    FileAt (scatteredDisk data) treeSuperblock "/t"
      ⟨3, .file, [11, 10], 4106⟩ := by
  have h := mounted_scatteredDisk data
  refine ⟨?_, ⟨_, h.inodeTable, by decide⟩, rfl⟩
  exact @AtRest.resolve_rootName _ _ _ _ _ h.toAtRest "t" "/t" ⟨1, 3, "t"⟩
    ⟨1, .directory, [], 0⟩ ⟨3, .file, [11, 10], 4106⟩ (by decide) (by decide)
    (by decide) (by decide) rfl rfl (by decide) rfl rfl rfl

/-- The two blocks are replaced by a run. -/
theorem replaceContiguous_scatteredDisk (contents : Nat → Block)
    (first second : Block) :
    ∃ r d', replaceFileBlocksContiguousJournaled treeSuperblock 3 0 2
      [first, second] (scatteredDisk contents) = (.ok r, d') := by
  have h := mounted_scatteredDisk contents
  obtain ⟨mid, freed, hloop, hfreed⟩ : ∃ mid freed, allocateRun
      "contiguous replacement run overflowed block address space"
      filesAllocator 2 = .ok ([12, 13], mid) ∧
      liftAllocation (mid.freeAll [11, 10]) = .ok freed := by
    have hboth : (do
        let taken ← allocateRun
          "contiguous replacement run overflowed block address space"
          filesAllocator 2
        let _ ← liftAllocation (taken.2.freeAll [11, 10])
        pure taken.1 : Result (List UInt64)) = .ok [12, 13] := rfl
    simp only [Except.bind_eq_ok, Except.pure_eq_ok, Except.ok.injEq] at hboth
    obtain ⟨⟨_, mid⟩, htaken, freed, hfreed, rfl⟩ := hboth
    exact ⟨mid, freed, htaken, hfreed⟩
  obtain ⟨htakes, _, _⟩ := allocateRun_eq_ok hloop
  obtain ⟨htotal, hreserved, _⟩ :=
    BlockAllocator.freeAll_eq_ok (liftAllocation_eq_ok.mp hfreed)
  have hset : setInode scatteredInodes ⟨3, .file, [12, 13], 4106⟩ =
      [⟨1, .directory, [], 0⟩, ⟨3, .file, [12, 13], 4106⟩] := by decide
  obtain ⟨image, himage⟩ : ∃ image,
      inodeFormat.encodeImage treeSuperblock.inodeBlocks
        (setInode scatteredInodes ⟨3, .file, [12, 13], 4106⟩) = .ok image := by
    rw [hset]
    exact exists_inodeImage (by decide) (by decide) (by decide) (by decide)
      (by decide)
  have hdata : ∀ w ∈ [((12 : UInt64), first), (13, second)],
      treeSuperblock.reservedBlocks ≤ w.1.toNat ∧
        w.1.toNat < treeSuperblock.totalBlocks := by
    rw [List.forall_mem_cons, List.forall_mem_singleton]
    show (treeSuperblock.reservedBlocks ≤ 12 ∧
        12 < treeSuperblock.totalBlocks) ∧
      (treeSuperblock.reservedBlocks ≤ 13 ∧ 13 < treeSuperblock.totalBlocks)
    decide
  obtain ⟨report, d', hrun⟩ := @AtRest.publishFileChanges_tree _ _ freed _ _ _
    "contiguous block replacement" [(12, first), (13, second)] image h.toAtRest
    (htotal.trans htakes.totalBlocks) (hreserved.trans htakes.reservedBlocks)
    himage hdata (Nat.le_succ 2) (.inl (by simp))
  have hfind : okOr (findInode scatteredInodes 3)
      (invalidInput "contiguous replacement inode is missing") =
        .ok ⟨3, .file, [11, 10], 4106⟩ := rfl
  have hend : okOr (checkedAdd 0 2) (invalidInput
      "contiguous block replacement destination range overflows usize") =
        .ok 2 := rfl
  have howned : requireAllocatorOwned
      "contiguous replacement displaced block is not allocator-owned"
      filesAllocator (List.take (2 - 0) (List.drop 0
        (⟨3, .file, [11, 10], 4106⟩ : PersistedInode).blocks)) = .ok () := rfl
  have hedit : PersistedInode.replaceBlockRange ⟨3, .file, [11, 10], 4106⟩ 0 2
      [12, 13] = .ok ([11, 10], ⟨3, .file, [12, 13], 4106⟩) := by decide
  have hsplice : spliceBlocks "contiguous block replacement" (allocateRun
      "contiguous replacement run overflowed block address space" · 2)
      treeSuperblock filesAllocator scatteredInodes
      ⟨3, .file, [11, 10], 4106⟩ 0 2 [first, second] (scatteredDisk contents) =
        (.ok ([12, 13], [11, 10], report), d') := by
    have hdisplaced : liftAllocation (mid.freeAll ((List.take (2 - 0)
        (List.drop 0 [(11 : UInt64), 10])).map UInt64.toNat)) = .ok freed :=
      hfreed
    have hpublish : publishFileChanges "contiguous block replacement"
        treeSuperblock freed
        (setInode scatteredInodes ⟨3, .file, [12, 13], 4106⟩)
        ([12, 13].zip [first, second]) (scatteredDisk contents) =
          (.ok report, d') := hrun
    rw [spliceBlocks, Effect.lift_bind_of_ok hloop,
      Effect.lift_bind_of_ok hdisplaced, Effect.lift_bind_of_ok hedit,
      Effect.bind_of_ok hpublish]
    rfl
  refine ⟨([12, 13], [11, 10], report), d', ?_⟩
  rw [replaceFileBlocksContiguousJournaled,
    Effect.lift_bind_of_ok (a := ()) (rejectIf_of_not (by simp)),
    Effect.lift_bind_of_ok hend, h.allocator_bind, h.inodes_bind,
    Effect.lift_bind_of_ok hfind,
    Effect.lift_bind_of_ok (a := ()) (rejectIf_of_not (by decide)),
    Effect.lift_bind_of_ok (a := ()) (rejectIf_of_not (by decide)),
    Effect.lift_bind_of_ok howned]
  exact hsplice

/-- The sample file is put in order. -/
theorem defragment_scatteredDisk (contents : Nat → Block) :
    ∃ r d', DefragCall.whole.run treeSuperblock "/t" (scatteredDisk contents) =
      (.ok r, d') := by
  have h := mounted_scatteredDisk contents
  have hfile := fileAt_scatteredDisk contents
  have hmem := hfile.mem h.toAtRest
  have hread : readBlocks (scatteredDisk contents) [11, 10] =
      .ok [(scatteredDisk contents).blocks (11 : UInt64).toNat,
        (scatteredDisk contents).blocks (10 : UInt64).toNat] :=
    h.readBlocks_eq hmem fun _ => id
  obtain ⟨r, d', hrun⟩ := replaceContiguous_scatteredDisk contents
    ((scatteredDisk contents).blocks (11 : UInt64).toNat)
    ((scatteredDisk contents).blocks (10 : UInt64).toNat)
  have howned : requireAllocatorOwned DefragCall.whole.unowned filesAllocator
      [11, 10] = .ok () := rfl
  have hscattered : ¬ allAdjacent [11, 10] = true := by decide
  refine ⟨(r.1, r.2.2), d', ?_⟩
  rw [h.defragCall_eq hfile ⟨by decide, by decide⟩]
  show relocateBlocks DefragCall.whole.unowned treeSuperblock 3 filesAllocator
    [11, 10] 0 2 (scatteredDisk contents) = _
  rw [relocateBlocks, Effect.lift_bind_of_ok howned, if_neg hscattered,
    Effect.query_bind_of_ok (q := fun d : Disk => readBlocks d [11, 10]) hread,
    Effect.bind_of_ok hrun]
  rfl

theorem defragment_relocates_scatteredDisk :
    ∃ (r : List UInt64 × RecoveryReport) (d' : Disk) (inode' : PersistedInode),
      DefragCall.whole.run treeSuperblock "/t" (scatteredDisk sevens) =
        (.ok r, d') ∧
      Relocated treeSuperblock (scatteredDisk sevens) d' "/t"
        ⟨3, .file, [11, 10], 4106⟩ inode' 0 2 r.1 ∧
      DefragCall.whole.run treeSuperblock "/t" d' =
        (.ok (r.1, RecoveryReport.default), d') := by
  have h := mounted_scatteredDisk sevens
  have hfile := fileAt_scatteredDisk sevens
  obtain ⟨r, d', hrun⟩ := defragment_scatteredDisk sevens
  obtain ⟨inode, inode', hfile', hr, hagain⟩ :=
    defragment_relocates h.superblock h.journal h.check hrun
  have hid : inode.id = 3 := by
    have hresolves := hfile'.resolves
    rw [hfile.resolves, Except.ok.injEq] at hresolves
    exact hresolves.symm
  have hsame := List.inj_on_of_nodup_map h.nodup_ids (hfile'.mem h.toAtRest)
    (hfile.mem h.toAtRest) hid
  subst hsame
  exact ⟨r, d', inode', hrun, hr, hagain⟩

end FilesystemLab
