import FilesystemLab.FileResize
import FilesystemLab.Lib.Abort

/-!
# Writing over a file

`write_file_range_journaled` of `file_data.rs` and `write_file_blocks_journaled`
of `file_overwrite_batch.rs`, which writes the blocks that change.

A write that indexes or slices may panic, so it is modelled with `Abort`.
`Patches` says that a list of block writes leaves a byte string in the blocks of
a file, whether a block is written or holds its part already; the extending
write uses it too.
-/

namespace FilesystemLab

open Bytes WriteLog

/-! ## The operations -/

/-- `image[start..stop].copy_from_slice(&data[first..last])`. -/
def copyFromSlice (image : Block) (start stop : Nat) (data : List UInt8)
    (first last : Nat) : Except (Abort IoError) Block :=
  if start ≤ stop ∧ stop ≤ BLOCK_SIZE ∧ first ≤ last ∧ last ≤ data.length ∧
      stop - start = last - first then
    .ok (Block.ofBytes
      (overwrite image.bytes start ((data.drop first).take (last - first))))
  else .error .panic

section Device

variable {σ : Type} [BlockDevice σ]

/-- The loop of `write_file_blocks_journaled`: the blocks that change. -/
def changedBlocks (device : σ) (a : BlockAllocator) (inode : PersistedInode) :
    (seen : List Nat) → List (Nat × Block) → Result (List (UInt64 × Block))
  | _, [] => pure []
  | seen, (index, image) :: writes => do
    rejectIf (index ∈ seen) (invalidInput
      "file-data overwrite batch contains a duplicate logical block index")
    let block ← okOr inode.blocks[index]?
      (invalidInput "file-data logical block index is out of range")
    let owned ← liftAllocation (a.isOwned block.toNat)
    rejectIf (owned = false)
      (invalidData "file-data inode references an unowned block")
    let current ← readBlock device block.toNat
    let rest ← changedBlocks device a inode (index :: seen) writes
    pure (if current ≠ image then (block, image) :: rest else rest)

/-- `write_file_blocks_journaled`. -/
def writeFileBlocksJournaled (sb : Superblock) (id : UInt64)
    (writes : List (Nat × Block)) : DevM σ RecoveryReport := do
  rejectIf (writes = [])
    (invalidInput "file-data overwrite batch must not be empty")
  let inodes ← Effect.query (loadInodeTable · sb)
  let inode ← okOr (findInode inodes id)
    (invalidInput "file-data target inode is missing")
  rejectIf (inode.kind ≠ .file)
    (invalidInput "file-data target must be a regular file")
  let allocator ← Effect.query (loadAllocator · sb)
  let changed ← Effect.query (changedBlocks · allocator inode [] writes)
  publishChanges recoverJournalAndCheckpoint
    "multi-block file-data transaction recovery report is inconsistent" sb
    (dataWrites changed)

/-- The loop of `write_file_range_journaled` over `count` more blocks, from the
relative index `relative` on, with `consumed` bytes of the data written. -/
def writeRangeBlocks (device : σ) (sb : Superblock) (id : UInt64)
    (firstBlock startOffset : Nat) (data : List UInt8) :
    (count relative consumed : Nat) →
      Except (Abort IoError) (List (Nat × Block))
  | 0, _, _ => pure []
  | count + 1, relative, consumed => do
    let index ← okOr (checkedAdd firstBlock relative)
      (.error (invalidInput "file-data logical index overflow"))
    let current ← Abort.lift (readFileBlock device sb id index)
    let first := if relative = 0 then startOffset else 0
    let taken := min (BLOCK_SIZE - first) (data.length - consumed)
    let image ← copyFromSlice current first (first + taken) data consumed
      (consumed + taken)
    let rest ← writeRangeBlocks device sb id firstBlock startOffset data count
      (relative + 1) (consumed + taken)
    pure ((index, image) :: rest)

/-- The checks and the loop of `write_file_range_journaled`. -/
def rangeWrites (device : σ) (sb : Superblock) (id : UInt64)
    (firstBlock startOffset : Nat) (data : List UInt8) :
    Except (Abort IoError) (List (Nat × Block)) := do
  rejectIf (data = [] ∨ startOffset ≥ BLOCK_SIZE) (.error (invalidInput
    "file-data range must be non-empty and start within a block"))
  let absoluteStart ← okOr ((checkedMul firstBlock BLOCK_SIZE).bind
      (checkedAdd · startOffset))
    (.error (invalidInput "file-data absolute byte offset overflow"))
  let absoluteEnd ← okOr (checkedAdd absoluteStart data.length)
    (.error (invalidInput "file-data range length overflow"))
  let inodes ← Abort.lift (loadInodeTable device sb)
  let inode ← okOr (findInode inodes id)
    (.error (invalidInput "file-data target inode is missing"))
  rejectIf (inode.kind ≠ .file)
    (.error (invalidInput "file-data target must be a regular file"))
  rejectIf (absoluteEnd > inode.byteLen.toNat)
    (.error (invalidInput "file-data write range extends beyond EOF"))
  let lastByte ← okOr (checkedAdd startOffset data.length)
    (.error (invalidInput "file-data range length overflow"))
  writeRangeBlocks device sb id firstBlock startOffset data
    ((lastByte + BLOCK_SIZE - 1) / BLOCK_SIZE) 0 0

/-- `write_file_range_journaled`. -/
def writeFileRangeJournaled (sb : Superblock) (id : UInt64)
    (firstBlock startOffset : Nat) (data : List UInt8) :
    Effect (Abort IoError) σ RecoveryReport := do
  let writes ←
    Effect.query (rangeWrites · sb id firstBlock startOffset data)
  Effect.abortable (writeFileBlocksJournaled sb id writes)

/-- A range that is written is not empty, and starts inside a block. -/
theorem writeFileRange_range {device device' : σ} {sb : Superblock}
    {id : UInt64} {firstBlock startOffset : Nat} {data : List UInt8}
    {r : RecoveryReport}
    (h : writeFileRangeJournaled sb id firstBlock startOffset data device =
      (.ok r, device')) : data ≠ [] ∧ startOffset < BLOCK_SIZE := by
  obtain ⟨writes, _, hwrites, _⟩ := Effect.bind_eq_ok_iff.mp h
  have hchecks : rangeWrites device sb id firstBlock startOffset data =
      .ok writes := congrArg Prod.fst hwrites
  obtain ⟨_, hrange, _⟩ := Except.bind_eq_ok.mp hchecks
  rw [rejectIf_eq_ok, not_or, not_le] at hrange
  exact hrange

end Device

/-! ## Blocks that are patched -/

/-- A slice is copied if the ranges are in bounds and of one length. -/
theorem copyFromSlice_ok {image : Block} {start stop first last : Nat}
    {data : List UInt8} (hstart : start ≤ stop) (hstop : stop ≤ BLOCK_SIZE)
    (hlast : last ≤ data.length) (hfirst : first ≤ last)
    (hlen : stop - start = last - first) :
    ∃ image', copyFromSlice image start stop data first last = .ok image' ∧
      ∀ j : Nat, image'.bytes[j]? =
        if start ≤ j ∧ j < stop then data[first + (j - start)]?
        else image.bytes[j]? := by
  have hslice : ((data.drop first).take (last - first)).length =
      stop - start := by
    rw [List.length_take, List.length_drop]
    omega
  have hroom : start + ((data.drop first).take (last - first)).length ≤
      image.bytes.length := by
    rw [hslice, image.length_eq]
    omega
  refine ⟨_, if_pos ⟨hstart, hstop, hfirst, hlast, hlen⟩, ?_⟩
  intro j
  rw [Block.bytes_ofBytes (by rw [length_overwrite hroom, image.length_eq]),
    getElem?_overwrite hroom, hslice, Nat.add_sub_cancel' hstart]
  by_cases hinside : start ≤ j ∧ j < stop
  · rw [if_pos hinside, if_pos hinside, List.getElem?_take_of_lt (by omega),
      List.getElem?_drop]
  · rw [if_neg hinside, if_neg hinside]

/-- Written over the disk, the writes leave `bytes` in the blocks: they name
blocks of the list, each once, and carry what belongs there, and a block that
is not named holds it. -/
structure Patches (d : Disk) (blocks : List UInt64)
    (writes : List (UInt64 × Block)) (bytes : List UInt8) : Prop where
  named : ∀ w ∈ writes, ∃ i : Nat, blocks[i]? = some w.1 ∧
    ∀ j, j < BLOCK_SIZE → w.2.bytes[j]? = bytes[i * BLOCK_SIZE + j]?
  nodup : (writes.map Prod.fst).Nodup
  held : ∀ (i : Nat) (block : UInt64), blocks[i]? = some block →
    block ∉ writes.map Prod.fst → ∀ j, j < BLOCK_SIZE →
      (d.blocks block.toNat).bytes[j]? = bytes[i * BLOCK_SIZE + j]?

/-- The blocks of a file hold what the writes leave there. -/
theorem Patches.fileSpace_eq {d d' : Disk} {inode : PersistedInode}
    {writes : List (UInt64 × Block)} {bytes : List UInt8}
    (h : Patches d inode.blocks writes bytes)
    (hlen : bytes.length = inode.blocks.length * BLOCK_SIZE)
    (hnodup : inode.blocks.Nodup)
    (hcontents : ∀ block ∈ inode.blocks, d'.blocks block.toNat =
      overlay d.blocks (dataWrites writes) block.toNat) :
    fileSpace d' inode = bytes := by
  apply FilesystemLab.fileSpace_eq hlen
  intro i block hblock j hj
  have hnames : (dataWrites writes).map Prod.fst =
      (writes.map Prod.fst).map UInt64.toNat := by
    simp [dataWrites, Function.comp_def]
  rw [hcontents block (List.mem_of_getElem? hblock)]
  by_cases hmem : block ∈ writes.map Prod.fst
  · obtain ⟨w, hw, rfl⟩ := List.mem_map.mp hmem
    obtain ⟨k, hk, hbytes⟩ := h.named w hw
    -- no other position of the file is the block
    have hsame : k = i := by
      obtain ⟨hlt, _⟩ := List.getElem?_eq_some_iff.mp hk
      exact (List.getElem?_inj hlt hnodup).mp (hk.trans hblock.symm)
    rw [← hsame, ← hbytes j hj, overlay_of_nodup (v := w.2)]
    · rw [hnames]
      exact h.nodup.map fun _ _ heq => UInt64.toNat_inj.mp heq
    · exact List.mem_map_of_mem (f := fun w => (w.1.toNat, w.2)) hw
  · rw [overlay_of_notMem, h.held i block hblock hmem j hj]
    rw [hnames, List.mem_map_of_injective fun _ _ => UInt64.toNat_inj.mp]
    exact hmem

/-! ## The loops -/

section Loops

variable {d : Disk} {sb : Superblock} {a : BlockAllocator}
  {inode : PersistedInode} {id : UInt64} {firstBlock startOffset start : Nat}
  {data space bytes : List UInt8}

/-- **What the overwrite of blocks changes**, by induction over the writes. -/
theorem changedBlocks_eq_ok {seen : List Nat} {writes : List (Nat × Block)}
    {changed : List (UInt64 × Block)}
    (h : changedBlocks d a inode seen writes = .ok changed)
    (hrange : ∀ block ∈ inode.blocks, block.toNat < d.size)
    (hdistinct : (writes.map Prod.fst).Nodup) (hnodup : inode.blocks.Nodup) :
    (∀ w ∈ changed, ∃ i, (i, w.2) ∈ writes ∧ inode.blocks[i]? = some w.1) ∧
      (changed.map Prod.fst).Nodup ∧
      ∀ w ∈ writes, ∃ block, inode.blocks[w.1]? = some block ∧
        (block ∉ changed.map Prod.fst → d.blocks block.toNat = w.2) := by
  induction writes generalizing seen changed with
  | nil =>
    cases h
    exact ⟨by simp, List.nodup_nil, by simp⟩
  | cons w writes ih =>
    obtain ⟨index, image⟩ := w
    rw [List.map_cons, List.nodup_cons] at hdistinct
    simp only [changedBlocks, Except.bind_eq_ok, okOr_eq_ok] at h
    obtain ⟨_, _, block, hblock, _, _, _, _, current, hread, rest, hrest, h⟩ := h
    rw [Disk.readBlock_of_lt (hrange block (List.mem_of_getElem? hblock)),
      Except.ok.injEq] at hread
    obtain ⟨hnamed, hrestNodup, hheld⟩ := ih hrest hdistinct.2
    -- the rest names other blocks
    have hfresh : block ∉ rest.map Prod.fst := by
      intro hmem
      obtain ⟨w, hw, heq⟩ := List.mem_map.mp hmem
      obtain ⟨i, hi, hsome⟩ := hnamed w hw
      obtain ⟨hlt, _⟩ := List.getElem?_eq_some_iff.mp hblock
      have hsame : index = i := (List.getElem?_inj hlt hnodup).mp
        (hblock.trans (by rw [hsome, heq]))
      apply hdistinct.1
      rw [hsame]
      exact List.mem_map.mpr ⟨_, hi, rfl⟩
    by_cases hsame : current = image
    · rw [if_neg (not_not.mpr hsame), Except.pure_eq_ok, Except.ok.injEq] at h
      subst h
      refine ⟨?_, hrestNodup, ?_⟩
      · intro w hw
        obtain ⟨i, hi, hsome⟩ := hnamed w hw
        exact ⟨i, List.mem_cons_of_mem _ hi, hsome⟩
      · rw [List.forall_mem_cons]
        exact ⟨⟨block, hblock, fun _ => hread.trans hsame⟩, hheld⟩
    · rw [if_pos hsame, Except.pure_eq_ok, Except.ok.injEq] at h
      subst h
      refine ⟨?_, List.nodup_cons.mpr ⟨hfresh, hrestNodup⟩, ?_⟩
      · rw [List.forall_mem_cons]
        refine ⟨⟨index, List.mem_cons_self, hblock⟩, ?_⟩
        intro w hw
        obtain ⟨i, hi, hsome⟩ := hnamed w hw
        exact ⟨i, List.mem_cons_of_mem _ hi, hsome⟩
      · rw [List.forall_mem_cons]
        refine ⟨⟨block, hblock, fun hnot => absurd List.mem_cons_self hnot⟩, ?_⟩
        intro w hw
        obtain ⟨other, hother, hkeeps⟩ := hheld w hw
        exact ⟨other, hother, fun hnot =>
          hkeeps fun hmem => hnot (List.mem_cons_of_mem _ hmem)⟩

/-- **What the loop over a range renders**, by induction over the blocks: the
data is consumed as far as the blocks before reach. -/
theorem writeRangeBlocks_eq_ok
    (hread : ∀ index image, readFileBlock d sb id index = .ok image → ∀ j,
      j < BLOCK_SIZE → image.bytes[j]? = space[index * BLOCK_SIZE + j]?)
    (hbytes : ∀ p : Nat, bytes[p]? =
      if start ≤ p ∧ p < start + data.length then data[p - start]?
      else space[p]?)
    {count relative consumed first : Nat} {writes : List (Nat × Block)}
    (h : writeRangeBlocks d sb id firstBlock startOffset data count relative
      consumed = .ok writes)
    (hfirst : first = if relative = 0 then startOffset else 0)
    (hoffset : first < BLOCK_SIZE) (hconsumed : consumed ≤ data.length)
    (hposition : (firstBlock + relative) * BLOCK_SIZE + first = start + consumed)
    (hbegin : first = 0 ∨ consumed = 0)
    (hlt : count * BLOCK_SIZE < first + (data.length - consumed) + BLOCK_SIZE) :
    writes.map Prod.fst = List.range' (firstBlock + relative) count ∧
      ∀ w ∈ writes, ∀ j, j < BLOCK_SIZE →
        w.2.bytes[j]? = bytes[w.1 * BLOCK_SIZE + j]? := by
  induction count generalizing relative consumed first writes with
  | zero =>
    cases h
    exact ⟨rfl, by simp⟩
  | succ count ih =>
    simp only [writeRangeBlocks, Except.bind_eq_ok, okOr_eq_ok,
      checkedAdd_eq_some, Abort.lift_eq_ok, ← hfirst] at h
    obtain ⟨_, ⟨_, rfl⟩, current, hcurrent, image, himage, rest, hrest, h⟩ := h
    rw [Except.pure_eq_ok, Except.ok.injEq] at h
    subst h
    obtain ⟨taken, htaken⟩ : ∃ taken,
        taken = min (BLOCK_SIZE - first) (data.length - consumed) := ⟨_, rfl⟩
    rw [← htaken] at himage hrest
    have hsucc : (firstBlock + (relative + 1)) * BLOCK_SIZE =
        (firstBlock + relative) * BLOCK_SIZE + BLOCK_SIZE := by
      rw [← Nat.add_assoc, Nat.succ_mul]
    rw [Nat.succ_mul] at hlt
    -- what this block holds
    obtain ⟨image', himage', hpoint⟩ := @copyFromSlice_ok current first
      (first + taken) consumed (consumed + taken) data (by omega) (by omega)
      (by omega) (by omega) (by omega)
    rw [himage', Except.ok.injEq] at himage
    subst himage
    have hhere : ∀ j, j < BLOCK_SIZE → image'.bytes[j]? =
        bytes[(firstBlock + relative) * BLOCK_SIZE + j]? := by
      intro j hj
      rw [hpoint, hbytes]
      by_cases hinside : first ≤ j ∧ j < first + taken
      · rw [if_pos hinside, if_pos (by omega)]
        congr 1
        omega
      · rw [if_neg hinside, if_neg (by omega), hread _ _ hcurrent j hj]
    -- the blocks that follow
    obtain ⟨hindices, himages⟩ : rest.map Prod.fst =
        List.range' (firstBlock + (relative + 1)) count ∧
          ∀ w ∈ rest, ∀ j, j < BLOCK_SIZE →
            w.2.bytes[j]? = bytes[w.1 * BLOCK_SIZE + j]? := by
      by_cases hmore : first + taken = BLOCK_SIZE
      · apply @ih (relative + 1) (consumed + taken) 0 rest hrest
        · rw [if_neg (Nat.succ_ne_zero relative)]
        · exact blockSize_pos
        · omega
        · omega
        · exact .inl rfl
        · omega
      · have hdone : count = 0 := by
          by_contra hne
          have hone := Nat.mul_le_mul_right BLOCK_SIZE (Nat.pos_of_ne_zero hne)
          omega
        subst hdone
        cases hrest
        exact ⟨rfl, by simp⟩
    rw [List.map_cons, hindices, List.range'_succ, List.forall_mem_cons]
    exact ⟨rfl, hhere, himages⟩

/-- The loop over a range stays in bounds. -/
theorem noPanic_writeRangeBlocks (hoffset : startOffset < BLOCK_SIZE)
    (count relative : Nat) {consumed : Nat} (hconsumed : consumed ≤ data.length) :
    NoPanic (writeRangeBlocks d sb id firstBlock startOffset data count relative
      consumed) := by
  induction count generalizing relative consumed with
  | zero => exact noPanic_ok _
  | succ count ih =>
    obtain ⟨first, hfirst⟩ : ∃ first,
        first = if relative = 0 then startOffset else 0 := ⟨_, rfl⟩
    have hlt : first < BLOCK_SIZE := by
      rw [hfirst]
      split
      · exact hoffset
      · exact blockSize_pos
    obtain ⟨taken, htaken⟩ : ∃ taken,
        taken = min (BLOCK_SIZE - first) (data.length - consumed) := ⟨_, rfl⟩
    rw [writeRangeBlocks, ← hfirst]
    apply (noPanic_okOr _ _).bind
    intro index _
    apply (noPanic_lift _).bind
    intro current _
    dsimp only
    rw [← htaken]
    obtain ⟨image, himage, _⟩ := @copyFromSlice_ok current first
      (first + taken) consumed (consumed + taken) data (by omega) (by omega)
      (by omega) (by omega) (by omega)
    rw [himage, Except.ok_bind]
    exact (ih _ (by omega)).bind fun _ _ => noPanic_ok _

end Loops

/-! ## Writes on a mounted disk -/

section Mounted

variable {d : Disk} {sb : Superblock} {a : BlockAllocator}
  {inodes : List PersistedInode} {entries : List PersistedDirectoryEntry}
  {inode : PersistedInode}

/-- The tables of a disk at rest are on it already. -/
theorem AtRest.tables_held (h : AtRest d sb a inodes entries) :
    ∃ tables, renderedWrites (createImages sb a inodes entries) = .ok tables ∧
      differing d.blocks tables = [] := by
  obtain ⟨image, himage, hholds⟩ :=
    (loadDirectoryTable_iff h.size).mp h.directoryTable
  have hnil : renderedWrites [] = .ok [] := rfl
  obtain ⟨ws, hws, hnone⟩ := renderedWrites_held (p := directoryPair sb entries
    "atomic-create image did not render every directory metadata block")
    himage hholds hnil
  obtain ⟨tables, htables, hsame⟩ := h.directoryTables hws
  exact ⟨tables, htables, hsame.trans hnone⟩

/-- **A transaction of data blocks only** leaves the tables. -/
theorem AtRest.publishData (h : AtRest d sb a inodes entries)
    {data : List (UInt64 × Block)}
    (hdata : ∀ w ∈ data, sb.reservedBlocks ≤ w.1.toNat)
    (hnodup : (data.map Prod.fst).Nodup) (mismatch : String) :
    Effect.Atomic (publishChanges recoverJournalAndCheckpoint mismatch sb
        (dataWrites data)) d
      fun _ d' => Became sb d d' a inodes entries (dataWrites data) := by
  obtain ⟨tables, htables, hnone⟩ := h.tables_held
  have hcanonical := h.canonical
  by_cases hempty : dataWrites data = []
  · rw [hempty, publishChanges, if_pos rfl]
    exact Effect.atomic_pure h.became_refl
  · have hpublish := h.publishTransaction htables hdata hnodup (by
      rw [hnone]
      exact hempty) mismatch
    rw [hnone, List.nil_append, publishTransaction_eq hempty, hcanonical]
      at hpublish
    exact hpublish

/-- An inode that is stored again is no change. -/
theorem setInode_self (hnodup : (inodes.map PersistedInode.id).Nodup)
    (hmem : inode ∈ inodes) : setInode inodes inode = inodes := by
  rw [setInode_eq_map hnodup]
  conv_rhs => rw [← List.map_id inodes]
  apply List.map_congr_left
  intro other hother
  split
  · rename_i heq
    exact (List.inj_on_of_nodup_map hnodup hother hmem heq).symm
  · rfl

/-- `write_file_blocks_journaled` on a mounted disk, for the blocks of a range
that belong to `bytes`. -/
theorem Mounted.writeFileBlocks (h : Mounted d sb a inodes entries)
    (hmem : inode ∈ inodes) (hkind : inode.kind = .file)
    {writes : List (Nat × Block)} {bytes : List UInt8} {first count : Nat}
    (hlen : bytes.length = inode.blocks.length * BLOCK_SIZE)
    (hindices : writes.map Prod.fst = List.range' first count)
    (himages : ∀ w ∈ writes, ∀ j, j < BLOCK_SIZE →
      w.2.bytes[j]? = bytes[w.1 * BLOCK_SIZE + j]?)
    (hsame : ∀ i, i < first ∨ first + count ≤ i → ∀ j, j < BLOCK_SIZE →
      bytes[i * BLOCK_SIZE + j]? =
        (fileSpace d inode)[i * BLOCK_SIZE + j]?) :
    Effect.Atomic (writeFileBlocksJournaled sb inode.id writes) d fun _ d' =>
      ∃ a', Rewritten sb d d' a a' inodes entries inode inode
        inode.blocks.length [] ∧ fileSpace d' inode = bytes := by
  have hnodup := PersistedInode.nodup_of_validate (h.validate hmem)
  have hvalid := h.validate hmem
  have hsize := h.size
  obtain ⟨htotal, hreserved⟩ := h.geometry
  have hflag : ∀ block ∈ inode.blocks, sb.reservedBlocks ≤ block.toNat ∧
      block.toNat < d.size := by
    intro block hblock
    have := BlockAllocator.range_of_flag (h.owned.data inode hmem block hblock)
    omega
  apply Effect.atomic_lift_bind
  intro _ _
  apply h.atomic_inodes
  apply Effect.atomic_lift_bind
  intro found hfind
  rw [okOr_eq_ok, findInode_of_mem h.nodup_ids hmem, Option.some.injEq] at hfind
  subst hfind
  apply Effect.atomic_lift_bind
  intro _ _
  apply h.atomic_allocator
  apply Effect.atomic_query_bind
  intro changed hchanged
  obtain ⟨hnamed, hdistinct, hheld⟩ := changedBlocks_eq_ok hchanged
    (fun block hblock => (hflag block hblock).2)
    (by rw [hindices]; exact List.nodup_range') hnodup
  -- the blocks of the range carry `bytes`, and the others hold it
  have hpatches : Patches d inode.blocks changed bytes := by
    refine ⟨?_, hdistinct, ?_⟩
    · intro w hw
      obtain ⟨i, hi, hsome⟩ := hnamed w hw
      exact ⟨i, hsome, himages _ hi⟩
    · intro i block hblock hnot j hj
      by_cases hin : first ≤ i ∧ i < first + count
      · have hindex : i ∈ writes.map Prod.fst := by
          rw [hindices, List.mem_range'_1]
          exact hin
        obtain ⟨w, hw, rfl⟩ := List.mem_map.mp hindex
        obtain ⟨other, hother, hkeeps⟩ := hheld w hw
        rw [hblock, Option.some.injEq] at hother
        subst hother
        rw [hkeeps hnot, himages w hw j hj]
      · rw [hsame i (by omega) j hj, getElem?_fileSpace hblock hj]
  have hnames : ∀ w ∈ changed, w.1 ∈ inode.blocks := by
    intro w hw
    obtain ⟨i, _, hsome⟩ := hnamed w hw
    exact List.mem_of_getElem? hsome
  apply (h.publishData (fun w hw => (hflag _ (hnames w hw)).1) hdistinct _).mono
  intro report d' hbecame
  have htables : Became sb d d' a
      ((setInode inodes inode).map PersistedInode.canonical) entries
      (dataWrites changed) := by
    rw [setInode_self h.nodup_ids hmem, h.canonical]
    exact hbecame
  have hrewritten := h.rewritten hmem hkind rfl hkind le_rfl
    (by rw [List.take_length, List.append_nil])
    (validateInodeFields_canonical hvalid false) (takes_nil a)
    (by rw [List.drop_length]; rfl) hnames htables
  exact ⟨a, hrewritten, hpatches.fileSpace_eq hlen hnodup fun block hblock =>
    hbecame.contents _ (hflag block hblock).1⟩

/-- A block of a file that is read is a part of its bytes. -/
theorem Mounted.getElem?_readFileBlock (h : Mounted d sb a inodes entries)
    (hmem : inode ∈ inodes) {index : Nat} {image : Block}
    (hread : FilesystemLab.readFileBlock d sb inode.id index = .ok image) {j : Nat}
    (hj : j < BLOCK_SIZE) :
    image.bytes[j]? = (fileSpace d inode)[index * BLOCK_SIZE + j]? := by
  simp only [FilesystemLab.readFileBlock, resolveOwnedFileBlock, h.inodeTable,
    Except.bind_eq_ok, okOr_eq_ok, Except.ok.injEq, Except.pure_eq_ok] at hread
  obtain ⟨block, ⟨_, rfl, found, hfind, _, _, other, hblock, _, _, _, _, _, _,
    rfl⟩, hread⟩ := hread
  rw [findInode_of_mem h.nodup_ids hmem, Option.some.injEq] at hfind
  subst hfind
  have hset := h.owned.data inode hmem other (List.mem_of_getElem? hblock)
  have hrange := BlockAllocator.range_of_flag hset
  have hsize := h.size
  have htotal := h.geometry.1
  rw [Disk.readBlock_of_lt (by omega), Except.ok.injEq] at hread
  rw [getElem?_fileSpace hblock hj, hread]

/-- `write_file_range_journaled` on a mounted disk. -/
theorem Mounted.writeFileRange (h : Mounted d sb a inodes entries)
    (hmem : inode ∈ inodes) (hkind : inode.kind = .file)
    (firstBlock startOffset : Nat) (data : List UInt8) :
    Effect.Atomic (writeFileRangeJournaled sb inode.id firstBlock startOffset
        data) d
      fun _ d' => firstBlock * BLOCK_SIZE + startOffset + data.length ≤
          inode.byteLen.toNat ∧ ∃ a',
        Rewritten sb d d' a a' inodes entries inode inode inode.blocks.length
          [] ∧ fileSpace d' inode = overwrite (fileSpace d inode)
            (firstBlock * BLOCK_SIZE + startOffset) data := by
  have hend := (h.fileEnd hmem hkind).1.le_capacity
  have hspace := length_fileSpace d inode
  apply Effect.atomic_query_bind
  intro writes hwrites
  simp only [rangeWrites, h.inodeTable, Except.bind_eq_ok, rejectIf_eq_ok,
    okOr_eq_ok, Abort.lift_eq_ok, Except.ok.injEq, Option.bind_eq_some_iff,
    checkedMul_eq_some, checkedAdd_eq_some] at hwrites
  obtain ⟨_, hoffset, _, ⟨_, ⟨_, rfl⟩, _, rfl⟩, _, ⟨_, rfl⟩, _, rfl, found,
    hfind, _, _, _, hinside, _, ⟨_, rfl⟩, hloop⟩ := hwrites
  rw [findInode_of_mem h.nodup_ids hmem, Option.some.injEq] at hfind
  subst hfind
  rw [not_or, not_le] at hoffset
  have hle : firstBlock * BLOCK_SIZE + startOffset + data.length ≤
      (fileSpace d inode).length := by omega
  -- the blocks of the range cover it
  obtain ⟨count, hcount⟩ : ∃ count, count =
      (startOffset + data.length + BLOCK_SIZE - 1) / BLOCK_SIZE := ⟨_, rfl⟩
  have hcover : startOffset + data.length ≤ count * BLOCK_SIZE ∧
      count * BLOCK_SIZE < startOffset + data.length + BLOCK_SIZE := by
    have hpos : 0 < data.length := List.length_pos_iff.mpr hoffset.1
    rw [hcount, blockSize_eq]
    omega
  rw [← hcount] at hloop
  have hfirst : startOffset = if 0 = 0 then startOffset else 0 := rfl
  obtain ⟨hindices, himages⟩ := writeRangeBlocks_eq_ok
    (fun index image hread j hj => h.getElem?_readFileBlock hmem hread hj)
    (fun p => getElem?_overwrite hle p) hloop hfirst hoffset.2 (Nat.zero_le _)
    (by rw [Nat.add_zero, Nat.add_zero]) (.inr rfl) hcover.2
  apply ((h.writeFileBlocks hmem hkind (by rw [length_overwrite hle, hspace])
    hindices himages ?_).mono fun _ _ hpost => ?_).abortable
  · intro i hout j hj
    rw [getElem?_overwrite hle, if_neg]
    rw [Nat.add_zero] at hout
    intro hfacts
    rcases hfacts with ⟨hfrom, hto⟩
    rcases hout with hbefore | hafter
    · have hrow := Nat.mul_le_mul_right BLOCK_SIZE (Nat.succ_le_of_lt hbefore)
      rw [Nat.succ_mul] at hrow
      omega
    · have hrow := Nat.mul_le_mul_right BLOCK_SIZE hafter
      rw [Nat.add_mul] at hrow
      omega
  · exact ⟨not_lt.mp hinside, hpost⟩

end Mounted

/-- A range that is written stays in bounds on every device. -/
theorem noPanic_writeFileRange (sb : Superblock) (id : UInt64)
    (firstBlock startOffset : Nat) (data : List UInt8) :
    Effect.NoPanic (writeFileRangeJournaled (σ := Disk) sb id firstBlock
      startOffset data) := by
  apply (Effect.noPanic_query fun d => ?_).bind
  · intro _
    exact Effect.noPanic_abortable _
  · apply NoPanic.bind (noPanic_rejectIf _ _)
    intro _ hoffset
    rw [rejectIf_eq_ok, not_or, not_le] at hoffset
    apply NoPanic.bind (noPanic_okOr _ _)
    intro _ _
    apply NoPanic.bind (noPanic_okOr _ _)
    intro _ _
    apply NoPanic.bind (noPanic_lift _)
    intro _ _
    apply NoPanic.bind (noPanic_okOr _ _)
    intro _ _
    apply NoPanic.bind (noPanic_rejectIf _ _)
    intro _ _
    apply NoPanic.bind (noPanic_rejectIf _ _)
    intro _ _
    apply NoPanic.bind (noPanic_okOr _ _)
    intro _ _
    exact noPanic_writeRangeBlocks hoffset.2 _ _ (Nat.zero_le _)

end FilesystemLab
