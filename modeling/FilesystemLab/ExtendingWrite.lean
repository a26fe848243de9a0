import FilesystemLab.FileWrite

/-!
# Writing past the end of a file

`write_file_range_extending_journaled` of `file_extending_write.rs`.

A write inside the file is a write over it.  A write past the end renders every
block from the old end or the start of the write on, whichever comes first: what
the block holds, the gap cleared, the data copied, and the bytes behind the new
end cleared.  In every position of a block this is one of three cases, whichever
way the ends are aligned (`renderCandidate_eq_ok`), and it makes the blocks of
the file the old contents, zeros to the new end, and the data over them:
`writeFileRangeExtending_pwrite`.
-/

namespace FilesystemLab

open Bytes WriteLog

/-! ## The operation -/

/-- `image[start..stop].fill(0)`. -/
def fillSlice (image : Block) (start stop : Nat) :
    Except (Abort IoError) Block :=
  if start ≤ stop ∧ stop ≤ BLOCK_SIZE then .ok (image.zeroFill start stop)
  else .error .panic

/-- `zero_intersection`. -/
def zeroIntersection (image : Block)
    (blockStart blockEnd rangeStart rangeEnd : Nat) :
    Except (Abort IoError) Block :=
  let start := max blockStart rangeStart
  let stop := min blockEnd rangeEnd
  if start ≥ stop then pure image
  else fillSlice image (start - blockStart) (stop - blockStart)

/-- `copy_intersection`. -/
def copyIntersection (image : Block)
    (blockStart blockEnd writeStart writeEnd : Nat) (data : List UInt8) :
    Except (Abort IoError) Block :=
  let start := max blockStart writeStart
  let stop := min blockEnd writeEnd
  if start ≥ stop then pure image
  else copyFromSlice image (start - blockStart) (stop - blockStart) data
    (start - writeStart) (stop - writeStart)

/-- `WriteGeometry`. -/
structure WriteGeometry where
  currentBlocks : Nat
  currentEof : Nat
  startOffset : Nat
  endOffset : Nat

/-- The image of one block in the loop of `prepare_data_writes`. -/
def renderCandidate (image : Block) (index : Nat) (geometry : WriteGeometry)
    (data : List UInt8) : Except (Abort IoError) Block := do
  let blockStart ← okOr (checkedMul index BLOCK_SIZE)
    (.error (invalidInput "extending write block byte offset overflow"))
  let blockEnd ← okOr (checkedAdd blockStart BLOCK_SIZE)
    (.error (invalidInput "extending write block end overflow"))
  let cleared ← (if geometry.startOffset > geometry.currentEof then
      zeroIntersection image blockStart blockEnd geometry.currentEof
        geometry.startOffset
    else pure image)
  let copied ← copyIntersection cleared blockStart blockEnd
    geometry.startOffset geometry.endOffset data
  if geometry.endOffset < blockEnd then
    zeroIntersection copied blockStart blockEnd geometry.endOffset blockEnd
  else pure copied

/-- `ExtendingWritePlan`. -/
structure ExtendingWritePlan where
  allocator : BlockAllocator
  inodes : List PersistedInode
  allocated : List UInt64
  dataWrites : List (UInt64 × Block)

/-- `WritePlan`. -/
inductive WritePlan where
  | overwrite (firstBlockIndex blockOffset : Nat)
  | extend (plan : ExtendingWritePlan)

section Device

variable {σ : Type} [BlockDevice σ]

/-- `load_candidate_block`. -/
def loadCandidateBlock (device : σ) (a : BlockAllocator)
    (physicalBlock : UInt64) (index currentBlocks : Nat) :
    Result (Block × Option Block) :=
  if index ≥ currentBlocks then pure (Block.zero, none)
  else do
    let owned ← liftAllocation (a.isOwned physicalBlock.toNat)
    rejectIf (owned = false)
      (invalidData "extending write existing block is not allocator-owned")
    let current ← readBlock device physicalBlock.toNat
    pure (current, some current)

/-- The loop of `prepare_data_writes` over `count` more blocks from `index`
on. -/
def candidateWrites (device : σ) (a : BlockAllocator) (blocks : List UInt64)
    (geometry : WriteGeometry) (data : List UInt8) :
    (count index : Nat) → Except (Abort IoError) (List (UInt64 × Block))
  | 0, _ => pure []
  | count + 1, index => do
    let physicalBlock ← indexOrPanic blocks index
    let candidate ← Abort.lift (loadCandidateBlock device a physicalBlock index
      geometry.currentBlocks)
    let image ← renderCandidate candidate.1 index geometry data
    let rest ← candidateWrites device a blocks geometry data count (index + 1)
    pure (if candidate.2 ≠ some image then (physicalBlock, image) :: rest
      else rest)

/-- `prepare_data_writes`. -/
def prepareDataWrites (device : σ) (a : BlockAllocator)
    (inode : PersistedInode) (geometry : WriteGeometry) (data : List UInt8) :
    Except (Abort IoError) (List (UInt64 × Block)) :=
  let firstChangedByte := min geometry.currentEof geometry.startOffset
  let firstChangedBlock := firstChangedByte / BLOCK_SIZE
  let endBlock := byteLenToBlockCount geometry.endOffset
  candidateWrites device a inode.blocks geometry data
    (endBlock - firstChangedBlock) firstChangedBlock

/-- `prepare_write_plan`. -/
def prepareWritePlan (device : σ) (sb : Superblock) (id : UInt64)
    (startOffset endOffset : Nat) (data : List UInt8) :
    Except (Abort IoError) WritePlan := do
  let allocator ← Abort.lift (loadAllocator device sb)
  let inodes ← Abort.lift (loadInodeTable device sb)
  let inode ← okOr (findInode inodes id)
    (.error (invalidInput "extending write target inode is missing"))
  rejectIf (inode.kind ≠ .file)
    (.error (invalidInput "extending write target must be a regular file"))
  let currentEof ← Abort.lift (currentByteLen inode)
  if endOffset ≤ currentEof.toNat then
    pure (.overwrite (startOffset / BLOCK_SIZE) (startOffset % BLOCK_SIZE))
  else do
    let targetBlocks := byteLenToBlockCount endOffset
    let currentBlocks := inode.blocks.length
    rejectIf (targetBlocks < currentBlocks) (.error (invalidData
      "extending write target requires fewer blocks than current inode mapping"))
    let taken ←
      Abort.lift (allocateEach allocator (targetBlocks - currentBlocks))
    let edited ← Abort.lift (appendAllocated inode taken.1)
    let extended ← Abort.lift (edited.setFileByteLen (UInt64.ofNat endOffset))
    let dataWrites ← prepareDataWrites device taken.2 extended
      { currentBlocks, currentEof := currentEof.toNat, startOffset, endOffset }
      data
    pure (.extend { allocator := taken.2, inodes := setInode inodes extended
                    allocated := taken.1, dataWrites })

/-- `write_file_range_extending_journaled`. -/
def writeFileRangeExtendingJournaled (sb : Superblock) (id : UInt64)
    (startOffset : UInt64) (data : List UInt8) :
    Effect (Abort IoError) σ (List UInt64 × RecoveryReport) := do
  rejectIf (data = [])
    (Abort.error (invalidInput "extending write requires non-empty data"))
  rejectIf (data.length ≥ U64_LIMIT)
    (Abort.error (invalidInput "extending write length exceeds u64"))
  let endOffset ← okOr (checkedAdd startOffset.toNat data.length)
    (Abort.error (invalidInput "extending write end offset overflow"))
  let plan ← Effect.query
    (prepareWritePlan · sb id startOffset.toNat endOffset data)
  match plan with
  | .overwrite firstBlockIndex blockOffset => do
    let report ← writeFileRangeJournaled sb id firstBlockIndex blockOffset data
    pure ([], report)
  | .extend plan => do
    let report ← Effect.abortable (publishFileChanges "extending write" sb
      plan.allocator plan.inodes plan.dataWrites)
    pure (plan.allocated, report)

end Device

/-! ## One block -/

section Candidate

variable {image image' : Block} {index : Nat} {geometry : WriteGeometry}
  {data : List UInt8} {blockStart blockEnd rangeStart rangeEnd : Nat}

/-- The part of a block that lies in a range is cleared. -/
theorem zeroIntersection_ok (hblock : blockEnd = blockStart + BLOCK_SIZE) :
    ∃ image', zeroIntersection image blockStart blockEnd rangeStart rangeEnd =
        .ok image' ∧ ∀ j, j < BLOCK_SIZE → image'.bytes[j]? =
          if rangeStart ≤ blockStart + j ∧ blockStart + j < rangeEnd then some 0
          else image.bytes[j]? := by
  unfold zeroIntersection
  dsimp only
  by_cases hnone : max blockStart rangeStart ≥ min blockEnd rangeEnd
  · rw [if_pos hnone]
    refine ⟨image, rfl, ?_⟩
    intro j hj
    rw [if_neg (by omega)]
  · rw [if_neg hnone, fillSlice, if_pos (by omega)]
    refine ⟨_, rfl, ?_⟩
    intro j hj
    rw [getElem?_zeroFill_bytes (by omega) (by omega)]
    by_cases hinside : rangeStart ≤ blockStart + j ∧ blockStart + j < rangeEnd
    · rw [if_pos hinside, if_pos (by omega)]
    · rw [if_neg hinside, if_neg (by omega)]

/-- The part of a block that lies in the written range gets its data. -/
theorem copyIntersection_ok (hblock : blockEnd = blockStart + BLOCK_SIZE)
    (hrange : rangeEnd = rangeStart + data.length) :
    ∃ image', copyIntersection image blockStart blockEnd rangeStart rangeEnd
        data = .ok image' ∧ ∀ j, j < BLOCK_SIZE → image'.bytes[j]? =
          if rangeStart ≤ blockStart + j ∧ blockStart + j < rangeEnd then
            data[blockStart + j - rangeStart]?
          else image.bytes[j]? := by
  unfold copyIntersection
  dsimp only
  by_cases hnone : max blockStart rangeStart ≥ min blockEnd rangeEnd
  · rw [if_pos hnone]
    refine ⟨image, rfl, ?_⟩
    intro j hj
    rw [if_neg (by omega)]
  · rw [if_neg hnone]
    obtain ⟨image', himage', hpoint⟩ := @copyFromSlice_ok image
      (max blockStart rangeStart - blockStart)
      (min blockEnd rangeEnd - blockStart)
      (max blockStart rangeStart - rangeStart)
      (min blockEnd rangeEnd - rangeStart) data (by omega) (by omega) (by omega)
      (by omega) (by omega)
    refine ⟨image', himage', ?_⟩
    intro j hj
    rw [hpoint]
    by_cases hinside : rangeStart ≤ blockStart + j ∧ blockStart + j < rangeEnd
    · rw [if_pos hinside, if_pos (by omega)]
      congr 1
      omega
    · rw [if_neg hinside, if_neg (by omega)]

/-- **What a block becomes**: data in the written range, zeros behind the old
end, and before it what it was. -/
theorem renderCandidate_eq_ok
    (h : renderCandidate image index geometry data = .ok image')
    (hend : geometry.endOffset = geometry.startOffset + data.length)
    (heof : geometry.currentEof < geometry.endOffset) {j : Nat}
    (hj : j < BLOCK_SIZE) :
    image'.bytes[j]? =
      if geometry.startOffset ≤ index * BLOCK_SIZE + j ∧
          index * BLOCK_SIZE + j < geometry.endOffset then
        data[index * BLOCK_SIZE + j - geometry.startOffset]?
      else if geometry.currentEof ≤ index * BLOCK_SIZE + j then some 0
      else image.bytes[j]? := by
  simp only [renderCandidate, Except.bind_eq_ok, okOr_eq_ok,
    checkedMul_eq_some, checkedAdd_eq_some] at h
  obtain ⟨_, ⟨_, rfl⟩, _, ⟨_, rfl⟩, cleared, hcleared, copied, hcopied, h⟩ := h
  -- the gap between the old end and the written range
  have hgap : cleared.bytes[j]? =
      if geometry.currentEof ≤ index * BLOCK_SIZE + j ∧
          index * BLOCK_SIZE + j < geometry.startOffset then some 0
      else image.bytes[j]? := by
    by_cases hbehind : geometry.startOffset > geometry.currentEof
    · rw [if_pos hbehind] at hcleared
      obtain ⟨other, hother, hpoint⟩ := @zeroIntersection_ok image
        (index * BLOCK_SIZE) _ geometry.currentEof geometry.startOffset rfl
      rw [hother, Except.ok.injEq] at hcleared
      rw [← hcleared, hpoint j hj]
    · rw [if_neg hbehind, Except.pure_eq_ok, Except.ok.injEq] at hcleared
      rw [hcleared, if_neg (by omega)]
  obtain ⟨other, hother, hpoint⟩ := @copyIntersection_ok cleared data
    (index * BLOCK_SIZE) _ geometry.startOffset geometry.endOffset rfl hend
  rw [hother, Except.ok.injEq] at hcopied
  subst hcopied
  -- the bytes behind the new end
  have htail : image'.bytes[j]? =
      if geometry.endOffset ≤ index * BLOCK_SIZE + j then some 0
      else other.bytes[j]? := by
    by_cases hinside : geometry.endOffset < index * BLOCK_SIZE + BLOCK_SIZE
    · rw [if_pos hinside] at h
      obtain ⟨last, hlast, hclear⟩ := @zeroIntersection_ok other
        (index * BLOCK_SIZE) _ geometry.endOffset
        (index * BLOCK_SIZE + BLOCK_SIZE) rfl
      rw [hlast, Except.ok.injEq] at h
      rw [← h, hclear j hj, if_congr (and_iff_left (by omega)) rfl rfl]
    · rw [if_neg hinside, Except.pure_eq_ok, Except.ok.injEq] at h
      rw [h, if_neg (by omega)]
  rw [htail, hpoint j hj, hgap]
  by_cases hin : geometry.startOffset ≤ index * BLOCK_SIZE + j ∧
      index * BLOCK_SIZE + j < geometry.endOffset
  · rw [if_neg (by omega), if_pos hin, if_pos hin]
  rw [if_neg hin, if_neg hin]
  by_cases hpast : geometry.currentEof ≤ index * BLOCK_SIZE + j
  · rw [if_pos hpast]
    by_cases hlast : geometry.endOffset ≤ index * BLOCK_SIZE + j
    · rw [if_pos hlast]
    · rw [if_neg hlast, if_pos (by omega)]
  · rw [if_neg hpast, if_neg (by omega), if_neg (by omega)]

/-- A block whose positions fit in a word is rendered. -/
theorem exists_renderCandidate (image : Block)
    (hend : geometry.endOffset = geometry.startOffset + data.length)
    (hfit : index * BLOCK_SIZE + BLOCK_SIZE < U64_LIMIT) :
    ∃ image', renderCandidate image index geometry data = .ok image' := by
  have hstart : checkedMul index BLOCK_SIZE = some (index * BLOCK_SIZE) :=
    checkedMul_eq_some.mpr ⟨by omega, rfl⟩
  have hstop : checkedAdd (index * BLOCK_SIZE) BLOCK_SIZE =
      some (index * BLOCK_SIZE + BLOCK_SIZE) :=
    checkedAdd_eq_some.mpr ⟨hfit, rfl⟩
  have hclear : ∀ (image : Block) (rangeStart rangeEnd : Nat),
      ∃ image', zeroIntersection image (index * BLOCK_SIZE)
        (index * BLOCK_SIZE + BLOCK_SIZE) rangeStart rangeEnd = .ok image' := by
    intro image rangeStart rangeEnd
    obtain ⟨image', hok, _⟩ := zeroIntersection_ok rfl
    exact ⟨image', hok⟩
  simp only [renderCandidate, hstart, hstop, okOr_some, Except.ok_bind]
  obtain ⟨cleared, hcleared⟩ : ∃ cleared,
      (if geometry.startOffset > geometry.currentEof then
        zeroIntersection image (index * BLOCK_SIZE)
          (index * BLOCK_SIZE + BLOCK_SIZE) geometry.currentEof
          geometry.startOffset
      else pure image) = .ok cleared := by
    split
    · exact hclear _ _ _
    · exact ⟨image, rfl⟩
  obtain ⟨copied, hcopied, _⟩ := @copyIntersection_ok cleared data
    (index * BLOCK_SIZE) _ geometry.startOffset geometry.endOffset rfl hend
  rw [hcleared, Except.ok_bind, hcopied, Except.ok_bind]
  split
  · exact hclear _ _ _
  · exact ⟨copied, rfl⟩

theorem noPanic_renderCandidate (image : Block) (index : Nat)
    (hend : geometry.endOffset = geometry.startOffset + data.length) :
    NoPanic (renderCandidate image index geometry data) := by
  apply NoPanic.bind (noPanic_okOr _ _)
  intro blockStart _
  apply NoPanic.bind (noPanic_okOr _ _)
  intro blockEnd hblockEnd
  rw [okOr_eq_ok, checkedAdd_eq_some] at hblockEnd
  have hclear : ∀ (image : Block) (rangeStart rangeEnd : Nat), NoPanic
      (zeroIntersection image blockStart blockEnd rangeStart rangeEnd) := by
    intro image rangeStart rangeEnd
    obtain ⟨_, hok, _⟩ := @zeroIntersection_ok image blockStart blockEnd
      rangeStart rangeEnd hblockEnd.2.symm
    rw [hok]
    exact noPanic_ok _
  refine NoPanic.bind ?_ fun cleared _ => NoPanic.bind ?_ fun copied _ => ?_
  · split
    · exact hclear _ _ _
    · exact noPanic_ok _
  · obtain ⟨_, hok, _⟩ := @copyIntersection_ok cleared data blockStart blockEnd
      geometry.startOffset geometry.endOffset hblockEnd.2.symm hend
    rw [hok]
    exact noPanic_ok _
  · split
    · exact hclear _ _ _
    · exact noPanic_ok _

end Candidate

/-! ## The loop over the blocks -/

section Loop

variable {d : Disk} {sb : Superblock} {a : BlockAllocator}
  {blocks : List UInt64} {geometry : WriteGeometry} {data bytes : List UInt8}

/-- What the loop starts from: the block of before, or zeros. -/
theorem loadCandidateBlock_eq_ok {block : UInt64} {index currentBlocks : Nat}
    {candidate : Block × Option Block}
    (h : loadCandidateBlock d a block index currentBlocks = .ok candidate)
    (hrange : index < currentBlocks → block.toNat < d.size) :
    currentBlocks ≤ index ∧ candidate = (Block.zero, none) ∨
      index < currentBlocks ∧
        candidate = (d.blocks block.toNat, some (d.blocks block.toNat)) := by
  unfold loadCandidateBlock at h
  by_cases hnew : index ≥ currentBlocks
  · rw [if_pos hnew, Except.pure_eq_ok, Except.ok.injEq] at h
    exact .inl ⟨hnew, h.symm⟩
  · rw [if_neg hnew] at h
    simp only [Except.bind_eq_ok, Except.pure_eq_ok, Except.ok.injEq,
      Disk.readBlock_of_lt (hrange (by omega))] at h
    obtain ⟨_, _, _, _, _, rfl, rfl⟩ := h
    exact .inr ⟨by omega, rfl⟩

/-- **What the loop writes**, by induction over the blocks that are left. -/
theorem candidateWrites_eq_ok
    (hend : geometry.endOffset = geometry.startOffset + data.length)
    (heof : geometry.currentEof < geometry.endOffset)
    (hold : geometry.currentEof ≤ geometry.currentBlocks * BLOCK_SIZE)
    (hrange : ∀ (i : Nat) (block : UInt64), i < geometry.currentBlocks →
      blocks[i]? = some block → block.toNat < d.size) (hnodup : blocks.Nodup)
    (hbytes : ∀ (i : Nat) (block : UInt64), blocks[i]? = some block → ∀ j,
      j < BLOCK_SIZE → bytes[i * BLOCK_SIZE + j]? =
        if geometry.startOffset ≤ i * BLOCK_SIZE + j ∧
            i * BLOCK_SIZE + j < geometry.endOffset then
          data[i * BLOCK_SIZE + j - geometry.startOffset]?
        else if geometry.currentEof ≤ i * BLOCK_SIZE + j then some 0
        else (d.blocks block.toNat).bytes[j]?)
    {count index : Nat} {writes : List (UInt64 × Block)}
    (h : candidateWrites d a blocks geometry data count index = .ok writes) :
    (∀ w ∈ writes, ∃ i : Nat, index ≤ i ∧ blocks[i]? = some w.1 ∧
        ∀ j, j < BLOCK_SIZE → w.2.bytes[j]? = bytes[i * BLOCK_SIZE + j]?) ∧
      (writes.map Prod.fst).Nodup ∧
      ∀ (i : Nat) (block : UInt64), index ≤ i → i < index + count →
        blocks[i]? = some block → block ∉ writes.map Prod.fst →
        ∀ j, j < BLOCK_SIZE →
          (d.blocks block.toNat).bytes[j]? = bytes[i * BLOCK_SIZE + j]? := by
  induction count generalizing index writes with
  | zero =>
    cases h
    refine ⟨by simp, List.nodup_nil, ?_⟩
    intro i block hle hlt
    omega
  | succ count ih =>
    simp only [candidateWrites, indexOrPanic, Except.bind_eq_ok, okOr_eq_ok,
      Abort.lift_eq_ok] at h
    obtain ⟨block, hblock, candidate, hcandidate, image, himage, rest, hrest,
      h⟩ := h
    have hload := loadCandidateBlock_eq_ok hcandidate
      fun hlt => hrange index block hlt hblock
    -- the image is what belongs in this block
    have hhere : ∀ j, j < BLOCK_SIZE →
        image.bytes[j]? = bytes[index * BLOCK_SIZE + j]? := by
      intro j hj
      rw [renderCandidate_eq_ok himage hend heof hj, hbytes index block hblock j
        hj]
      rcases hload with ⟨hnew, rfl⟩ | ⟨_, rfl⟩
      · have hrow := Nat.mul_le_mul_right BLOCK_SIZE hnew
        have hpast : geometry.currentEof ≤ index * BLOCK_SIZE + j := by omega
        rw [if_pos hpast, if_pos hpast]
      · rfl
    obtain ⟨hnamed, hdistinct, hheld⟩ := ih hrest
    have hfresh : block ∉ rest.map Prod.fst := by
      intro hmem
      obtain ⟨w, hw, heq⟩ := List.mem_map.mp hmem
      obtain ⟨i, hle, hsome, _⟩ := hnamed w hw
      obtain ⟨hlt, _⟩ := List.getElem?_eq_some_iff.mp hblock
      have hsame : index = i := (List.getElem?_inj hlt hnodup).mp
        (hblock.trans (by rw [hsome, heq]))
      omega
    have hlater : ∀ w ∈ rest, ∃ i : Nat, index ≤ i ∧ blocks[i]? = some w.1 ∧
        ∀ j, j < BLOCK_SIZE → w.2.bytes[j]? = bytes[i * BLOCK_SIZE + j]? := by
      intro w hw
      obtain ⟨i, hle, hsome, himages⟩ := hnamed w hw
      exact ⟨i, by omega, hsome, himages⟩
    by_cases hsame : candidate.2 ≠ some image
    · rw [if_pos hsame, Except.pure_eq_ok, Except.ok.injEq] at h
      subst h
      refine ⟨?_, List.nodup_cons.mpr ⟨hfresh, hdistinct⟩, ?_⟩
      · rw [List.forall_mem_cons]
        exact ⟨⟨index, le_rfl, hblock, hhere⟩, hlater⟩
      · intro i other hle hlt hother hnot
        by_cases hfirst : i = index
        · rw [hfirst, hblock, Option.some.injEq] at hother
          rw [← hother] at hnot
          exact absurd List.mem_cons_self hnot
        · exact hheld i other (by omega) (by omega) hother
            fun hmem => hnot (List.mem_cons_of_mem _ hmem)
    · rw [if_neg hsame, Except.pure_eq_ok, Except.ok.injEq] at h
      subst h
      refine ⟨hlater, hdistinct, ?_⟩
      intro i other hle hlt hother hnot j hj
      by_cases hfirst : i = index
      · subst hfirst
        rw [hblock, Option.some.injEq] at hother
        rcases hload with ⟨_, rfl⟩ | ⟨_, rfl⟩
        · cases not_not.mp hsame
        · rw [not_not, Option.some.injEq] at hsame
          rw [← hother, hsame]
          exact hhere j hj
      · exact hheld i other (by omega) (by omega) hother hnot j hj

/-- **What `prepare_data_writes` writes**: the blocks of the file get `bytes`.  The
blocks before both ends are not rendered, and hold theirs already. -/
theorem prepareDataWrites_eq_ok {inode : PersistedInode}
    (hend : geometry.endOffset = geometry.startOffset + data.length)
    (heof : geometry.currentEof < geometry.endOffset)
    (hold : geometry.currentEof ≤ geometry.currentBlocks * BLOCK_SIZE)
    (hrange : ∀ (i : Nat) (block : UInt64), i < geometry.currentBlocks →
      inode.blocks[i]? = some block → block.toNat < d.size)
    (hnodup : inode.blocks.Nodup)
    (hlast : inode.blocks.length ≤ byteLenToBlockCount geometry.endOffset)
    (hbytes : ∀ (i : Nat) (block : UInt64), inode.blocks[i]? = some block → ∀ j,
      j < BLOCK_SIZE → bytes[i * BLOCK_SIZE + j]? =
        if geometry.startOffset ≤ i * BLOCK_SIZE + j ∧
            i * BLOCK_SIZE + j < geometry.endOffset then
          data[i * BLOCK_SIZE + j - geometry.startOffset]?
        else if geometry.currentEof ≤ i * BLOCK_SIZE + j then some 0
        else (d.blocks block.toNat).bytes[j]?)
    {writes : List (UInt64 × Block)}
    (h : prepareDataWrites d a inode geometry data = .ok writes) :
    Patches d inode.blocks writes bytes := by
  obtain ⟨hnamed, hdistinct, hheld⟩ :=
    candidateWrites_eq_ok hend heof hold hrange hnodup hbytes h
  refine ⟨?_, hdistinct, ?_⟩
  · intro w hw
    obtain ⟨i, _, hsome, himages⟩ := hnamed w hw
    exact ⟨i, hsome, himages⟩
  · intro i block hblock hnot j hj
    obtain ⟨hi, _⟩ := List.getElem?_eq_some_iff.mp hblock
    by_cases hbefore :
        i < min geometry.currentEof geometry.startOffset / BLOCK_SIZE
    · have hrow : (i + 1) * BLOCK_SIZE ≤
          min geometry.currentEof geometry.startOffset :=
        (Nat.le_div_iff_mul_le blockSize_pos).mp hbefore
      rw [Nat.succ_mul] at hrow
      rw [hbytes i block hblock j hj, if_neg (by omega), if_neg (by omega)]
    · apply hheld i block (not_lt.mp hbefore) _ hblock hnot j hj
      omega

/-- The loop goes through when every block can be loaded. -/
theorem exists_candidateWrites
    (hend : geometry.endOffset = geometry.startOffset + data.length)
    (hload : ∀ (i : Nat) (block : UInt64), blocks[i]? = some block →
      ∃ candidate, loadCandidateBlock d a block i geometry.currentBlocks =
        .ok candidate) {count index : Nat}
    (hle : index + count ≤ blocks.length)
    (hfit : blocks.length * BLOCK_SIZE < U64_LIMIT) :
    ∃ writes, candidateWrites d a blocks geometry data count index =
      .ok writes ∧ writes.length ≤ count := by
  induction count generalizing index with
  | zero => exact ⟨[], rfl, le_rfl⟩
  | succ count ih =>
    have hblock := List.getElem?_eq_getElem
      (show index < blocks.length by omega)
    obtain ⟨candidate, hcandidate⟩ := hload index _ hblock
    have hrow := Nat.mul_le_mul_right BLOCK_SIZE
      (show index + 1 ≤ blocks.length by omega)
    rw [Nat.succ_mul] at hrow
    obtain ⟨image, himage⟩ :=
      @exists_renderCandidate index geometry data candidate.1 hend (by omega)
    obtain ⟨rest, hrest, hlen⟩ := @ih (index + 1) (by omega)
    simp only [candidateWrites, indexOrPanic, hblock, okOr_some, hcandidate,
      Abort.lift, Except.mapError, Except.ok_bind, himage, hrest,
      Except.pure_eq_ok]
    refine ⟨_, rfl, ?_⟩
    split
    · exact Nat.succ_le_succ hlen
    · omega

theorem noPanic_candidateWrites
    (hend : geometry.endOffset = geometry.startOffset + data.length)
    {count index : Nat} (hle : index + count ≤ blocks.length) :
    NoPanic (candidateWrites d a blocks geometry data count index) := by
  induction count generalizing index with
  | zero => exact noPanic_ok _
  | succ count ih =>
    apply NoPanic.bind (noPanic_index (by omega))
    intro _ _
    apply NoPanic.bind (noPanic_lift _)
    intro _ _
    apply NoPanic.bind (noPanic_renderCandidate _ _ hend)
    intro _ _
    apply NoPanic.bind (ih (by omega))
    intro _ _
    exact noPanic_ok _

/-- The blocks of a growth are those of before and the new ones. -/
theorem blocks_appendAllocated {inode edited : PersistedInode}
    {allocated : List UInt64} (h : appendAllocated inode allocated = .ok edited) :
    edited.blocks = inode.blocks ++ allocated := by
  unfold appendAllocated at h
  split at h
  · rename_i hnil
    cases h
    rw [hnil, List.append_nil]
  · simp only [PersistedInode.replaceBlockRange, Except.bind_eq_ok,
      Except.pure_eq_ok, Except.ok.injEq] at h
    obtain ⟨_, ⟨_, _, _, _, _, _, _, _, _, _, _, _, rfl⟩, rfl⟩ := h
    rw [List.take_length, List.drop_length, List.append_nil]

/-- **No index is out of bounds**: the loop ends at the last block. -/
theorem noPanic_prepareWritePlan (d : Disk) (sb : Superblock) (id : UInt64)
    (startOffset : Nat) (data : List UInt8) :
    NoPanic (prepareWritePlan d sb id startOffset (startOffset + data.length)
      data) := by
  apply NoPanic.bind (noPanic_lift _)
  intro allocator hallocator
  rw [Abort.lift_eq_ok] at hallocator
  apply NoPanic.bind (noPanic_lift _)
  intro inodes _
  apply NoPanic.bind (noPanic_okOr _ _)
  intro inode _
  apply NoPanic.bind (noPanic_rejectIf _ _)
  intro _ _
  apply NoPanic.bind (noPanic_lift _)
  intro currentEof _
  split
  · exact noPanic_ok _
  apply NoPanic.bind (noPanic_rejectIf _ _)
  intro _ hcount
  rw [rejectIf_eq_ok, not_lt] at hcount
  apply NoPanic.bind (noPanic_lift _)
  intro taken htaken
  apply NoPanic.bind (noPanic_lift _)
  intro edited hedited
  apply NoPanic.bind (noPanic_lift _)
  intro extended hextended
  apply NoPanic.bind
  · apply noPanic_candidateWrites rfl
    rw [Abort.lift_eq_ok] at htaken hedited hextended
    have hlayout := sb.layout
    have htotal := (geometry_of_loadAllocator hallocator).1
    have hlen := (allocateEach_eq_ok htaken (by omega)).2
    have hset := (PersistedInode.setFileByteLen_eq_ok.mp hextended).1
    have hblocks : extended.blocks = edited.blocks := by rw [hset]
    show min currentEof.toNat startOffset / BLOCK_SIZE +
      (byteLenToBlockCount (startOffset + data.length) -
        min currentEof.toNat startOffset / BLOCK_SIZE) ≤ _
    rw [hblocks, blocks_appendAllocated hedited, List.length_append, hlen]
    have hfirst : min currentEof.toNat startOffset / BLOCK_SIZE ≤
        byteLenToBlockCount (startOffset + data.length) := by
      unfold byteLenToBlockCount
      rw [blockSize_eq]
      omega
    omega
  · intro _ _
    exact noPanic_ok _

end Loop

/-! ## The write on a mounted disk -/

/-- The inode that a write past the end leaves, and the writes to its blocks:
they hold the contents, zeros from the old end on, and the data over them. -/
structure ExtendsFile (d : Disk) (a mid : BlockAllocator)
    (inode inode' : PersistedInode) (start : Nat) (data : List UInt8)
    (fresh : List UInt64) (writes : List (UInt64 × Block)) : Prop where
  takes : Takes a mid fresh
  length_eq : fresh.length =
    byteLenToBlockCount (start + data.length) - inode.blocks.length
  id_eq : inode'.id = inode.id
  kind_eq : inode'.kind = .file
  blocks_eq : inode'.blocks = inode.blocks ++ fresh
  byteLen_eq : inode'.byteLen.toNat = start + data.length
  valid : validateInodeFields inode'.id inode'.kind inode'.blocks inode'.byteLen
    false = .ok inode'.byteLen
  patches : Patches d inode'.blocks writes
    (overwrite (fileBytes d inode ++
      zeros (inode'.blocks.length * BLOCK_SIZE - inode.byteLen.toNat)) start
      data)

section Write

variable {d d' : Disk} {sb : Superblock} {a a' mid : BlockAllocator}
  {inodes : List PersistedInode} {entries : List PersistedDirectoryEntry}
  {inode inode' : PersistedInode} {start : Nat} {data : List UInt8}
  {fresh : List UInt64} {writes : List (UInt64 × Block)}

/-- The room for the contents and the zeros behind them. -/
theorem length_padded (h : inode.FileEnd) {room : Nat}
    (hroom : inode.byteLen.toNat ≤ room) :
    (fileBytes d inode ++ zeros (room - inode.byteLen.toNat)).length = room := by
  rw [List.length_append, length_fileBytes d h, length_zeros]
  omega

/-- A position of the contents and the zeros behind them. -/
theorem getElem?_padded (h : inode.FileEnd) (hblocks : inode'.blocks =
      inode.blocks ++ fresh) {i j : Nat} {block : UInt64}
    (hblock : inode'.blocks[i]? = some block) (hj : j < BLOCK_SIZE) :
    (fileBytes d inode ++
      zeros (inode'.blocks.length * BLOCK_SIZE - inode.byteLen.toNat))[
        i * BLOCK_SIZE + j]? =
      if inode.byteLen.toNat ≤ i * BLOCK_SIZE + j then some 0
      else (d.blocks block.toNat).bytes[j]? := by
  have hlen := length_fileBytes d h
  have hle := h.le_capacity
  obtain ⟨hi, _⟩ := List.getElem?_eq_some_iff.mp hblock
  have hrow := Nat.mul_le_mul_right BLOCK_SIZE (Nat.succ_le_of_lt hi)
  rw [Nat.succ_mul] at hrow
  by_cases hpast : inode.byteLen.toNat ≤ i * BLOCK_SIZE + j
  · rw [if_pos hpast, List.getElem?_append_right (by omega), hlen,
      getElem?_zeros, if_pos (by omega)]
  · -- before the old end, the block is one of the old ones
    have hold : i < inode.blocks.length := by
      by_contra hge
      have := Nat.mul_le_mul_right BLOCK_SIZE (not_lt.mp hge)
      omega
    rw [hblocks, List.getElem?_append_left hold] at hblock
    rw [if_neg hpast, List.getElem?_append_left (by omega), fileBytes_eq_take,
      List.getElem?_take_of_lt (by omega), getElem?_fileSpace hblock hj]

/-- **What `prepare_write_plan` plans** on a mounted disk. -/
theorem Mounted.prepareWritePlan_eq_ok (h : Mounted d sb a inodes entries)
    (hmem : inode ∈ inodes) (hkind : inode.kind = .file)
    (hlimit : start + data.length < U64_LIMIT) {plan : WritePlan}
    (hplan : prepareWritePlan d sb inode.id start (start + data.length) data =
      .ok plan) :
    start + data.length ≤ inode.byteLen.toNat ∧
        plan = .overwrite (start / BLOCK_SIZE) (start % BLOCK_SIZE) ∨
      inode.byteLen.toNat < start + data.length ∧
        ∃ mid inode' fresh writes,
          plan = .extend ⟨mid, setInode inodes inode', fresh, writes⟩ ∧
            ExtendsFile d a mid inode inode' start data fresh writes := by
  have hend := (h.fileEnd hmem hkind).1
  have hsize := h.size
  have htotal := h.geometry.1
  simp only [prepareWritePlan, h.allocator, h.inodeTable, Except.bind_eq_ok,
    Abort.lift_eq_ok, okOr_eq_ok, rejectIf_eq_ok, Except.ok.injEq] at hplan
  obtain ⟨_, rfl, _, rfl, found, hfind, _, _, currentEof, hcurrent, hplan⟩ :=
    hplan
  rw [findInode_of_mem h.nodup_ids hmem, Option.some.injEq] at hfind
  subst hfind
  rw [h.currentByteLen_eq hmem, Except.ok.injEq] at hcurrent
  subst hcurrent
  by_cases hinside : start + data.length ≤ inode.byteLen.toNat
  · rw [if_pos hinside, Except.pure_eq_ok, Except.ok.injEq] at hplan
    exact .inl ⟨hinside, hplan.symm⟩
  rw [if_neg hinside] at hplan
  simp only [Except.bind_eq_ok, Abort.lift_eq_ok, rejectIf_eq_ok, not_lt,
    Except.pure_eq_ok, Except.ok.injEq] at hplan
  obtain ⟨_, hcount, ⟨fresh, mid⟩, htaken, edited, hedited, inode', hinode',
    writes, hwrites, rfl⟩ := hplan
  obtain ⟨htakes, hlen, _⟩ := h.takes_of_allocateEach htaken
  obtain ⟨hid, _, hblocks⟩ :=
    appendAllocated_eq_ok hkind (h.validate hmem) hedited
  obtain ⟨hset, hkind', hvalid⟩ :=
    PersistedInode.setFileByteLen_eq_ok.mp hinode'
  have hid' : inode'.id = inode.id := by rw [hset]; exact hid
  have hblocks' : inode'.blocks = inode.blocks ++ fresh := by
    rw [hset]
    exact hblocks
  have hbyteLen : inode'.byteLen.toNat = start + data.length := by
    rw [hset]
    exact UInt64.toNat_ofNat_of_lt' hlimit
  -- the blocks of the file end with the block of the new end
  have hlast : inode'.blocks.length =
      byteLenToBlockCount (start + data.length) := by
    rw [hblocks', List.length_append, hlen]
    omega
  have hcover : start + data.length ≤ inode'.blocks.length * BLOCK_SIZE := by
    rw [hlast]
    exact byteLenToBlockCount_le_iff.mp le_rfl
  have hpadded := @length_padded d inode hend
    (inode'.blocks.length * BLOCK_SIZE) (by omega)
  have hbytes : ∀ (i : Nat) (block : UInt64), inode'.blocks[i]? = some block →
      ∀ j, j < BLOCK_SIZE → (overwrite (fileBytes d inode ++
        zeros (inode'.blocks.length * BLOCK_SIZE - inode.byteLen.toNat)) start
          data)[i * BLOCK_SIZE + j]? =
        if start ≤ i * BLOCK_SIZE + j ∧
            i * BLOCK_SIZE + j < start + data.length then
          data[i * BLOCK_SIZE + j - start]?
        else if inode.byteLen.toNat ≤ i * BLOCK_SIZE + j then some 0
        else (d.blocks block.toNat).bytes[j]? := by
    intro i block hblock j hj
    rw [getElem?_overwrite (by omega),
      getElem?_padded hend hblocks' hblock hj]
  refine .inr ⟨not_le.mp hinside, mid, inode', fresh, writes, rfl, htakes, hlen,
    hid', hkind', hblocks', hbyteLen, hvalid, ?_⟩
  apply prepareDataWrites_eq_ok rfl (not_le.mp hinside) hend.le_capacity _
    (PersistedInode.nodup_of_validate hvalid) hlast.le hbytes hwrites
  intro i block hi hblock
  rw [hblocks', List.getElem?_append_left hi] at hblock
  have := BlockAllocator.range_of_flag
    (h.owned.data inode hmem block (List.mem_of_getElem? hblock))
  omega

/-- The writes of a plan go to blocks of the file. -/
theorem ExtendsFile.mem
    (hx : ExtendsFile d a mid inode inode' start data fresh writes)
    {w : UInt64 × Block} (hw : w ∈ writes) : w.1 ∈ inode'.blocks := by
  obtain ⟨i, hsome, _⟩ := hx.patches.named w hw
  exact List.mem_of_getElem? hsome

/-- **A plan that is published** rewrites the file. -/
theorem Mounted.publishExtends (h : Mounted d sb a inodes entries)
    (hmem : inode ∈ inodes) (hkind : inode.kind = .file)
    (hx : ExtendsFile d a mid inode inode' start data fresh writes)
    (hpast : inode.byteLen.toNat < start + data.length) (label : String) :
    Effect.Atomic (publishFileChanges label sb mid (setInode inodes inode')
        writes) d
      fun _ d' => Rewritten sb d d' a mid inodes entries inode inode'
          inode.blocks.length fresh ∧
        fileSpace d' inode' = overwrite (fileBytes d inode ++
          zeros (inode'.blocks.length * BLOCK_SIZE - inode.byteLen.toNat)) start
          data := by
  have hend := (h.fileEnd hmem hkind).1
  have hsize := h.size
  obtain ⟨htotal, hreserved⟩ := h.geometry
  have hrange : ∀ block ∈ inode'.blocks, sb.reservedBlocks ≤ block.toNat := by
    intro block hblock
    rw [hx.blocks_eq, List.mem_append] at hblock
    rcases hblock with hold | hnew
    · have := BlockAllocator.range_of_flag (h.owned.data inode hmem block hold)
      omega
    · have := hx.takes.range hnew
      omega
  have hne : inode'.byteLen ≠ inode.byteLen := by
    intro heq
    have hbyteLen := hx.byteLen_eq
    rw [heq] at hbyteLen
    omega
  have hkept : inode'.blocks =
      inode.blocks.take inode.blocks.length ++ fresh := by
    rw [List.take_length]
    exact hx.blocks_eq
  apply (h.publishFileChanges (fun w hw => hrange _ (hx.mem hw))
    hx.patches.nodup (h.editWrites hmem hx.id_eq hx.valid hne)).mono
  intro report d' hbecame
  have hr := h.rewritten hmem hkind hx.id_eq hx.kind_eq le_rfl hkept hx.valid
    hx.takes (by rw [List.drop_length]; rfl) (fun w hw => hx.mem hw) hbecame
  have hnew := (hr.mounted.fileEnd (hr.toFileChanged.mem_self h hmem)
    hx.kind_eq).1.le_capacity
  have hbyteLen := hx.byteLen_eq
  have hpadded := @length_padded d inode hend
    (inode'.blocks.length * BLOCK_SIZE) (by omega)
  refine ⟨hr, hx.patches.fileSpace_eq ?_
    (PersistedInode.nodup_of_validate hx.valid) fun block hblock =>
      hbecame.contents _ (hrange block hblock)⟩
  rw [length_overwrite (by omega), hpadded]

/-- An extending write that can be planned has found its file. -/
theorem Mounted.of_prepareWritePlan (h : Mounted d sb a inodes entries)
    {id : UInt64} {offset stop : Nat} {data : List UInt8} {plan : WritePlan}
    (hplan : prepareWritePlan d sb id offset stop data = .ok plan) :
    ∃ inode ∈ inodes, inode.id = id ∧ inode.kind = .file := by
  simp only [prepareWritePlan, h.allocator, h.inodeTable, Except.bind_eq_ok,
    rejectIf_eq_ok, okOr_eq_ok, Abort.lift_eq_ok, Except.ok.injEq,
    not_ne_iff] at hplan
  obtain ⟨_, rfl, _, rfl, inode, hfind, _, hkind, _⟩ := hplan
  obtain ⟨hmem, hid⟩ := findInode_eq_some hfind
  exact ⟨inode, hmem, hid, hkind⟩

/-- `write_file_range_extending_journaled` on a mounted disk. -/
theorem Mounted.writeFileRangeExtending (h : Mounted d sb a inodes entries)
    (hmem : inode ∈ inodes) (hkind : inode.kind = .file) (offset : UInt64)
    (data : List UInt8) :
    Effect.Atomic (writeFileRangeExtendingJournaled sb inode.id offset data) d
      fun r d' => ∃ a' inode',
        Rewritten sb d d' a a' inodes entries inode inode' inode.blocks.length
            r.1 ∧
          (offset.toNat + data.length ≤ inode.byteLen.toNat ∧ r.1 = [] ∧
              inode' = inode ∧ fileSpace d' inode' =
                overwrite (fileSpace d inode) offset.toNat data ∨
            inode.byteLen.toNat < offset.toNat + data.length ∧
              r.1.length = byteLenToBlockCount (offset.toNat + data.length) -
                inode.blocks.length ∧
              inode'.byteLen.toNat = offset.toNat + data.length ∧
              fileSpace d' inode' = overwrite (fileBytes d inode ++
                zeros (inode'.blocks.length * BLOCK_SIZE -
                  inode.byteLen.toNat)) offset.toNat data) := by
  apply Effect.atomic_lift_bind
  intro _ _
  apply Effect.atomic_lift_bind
  intro _ _
  apply Effect.atomic_lift_bind
  intro stop hstop
  rw [okOr_eq_ok, checkedAdd_eq_some] at hstop
  obtain ⟨hlimit, rfl⟩ := hstop
  apply Effect.atomic_query_bind
  intro plan hplan
  rcases h.prepareWritePlan_eq_ok hmem hkind hlimit hplan with
    ⟨hinside, rfl⟩ | ⟨hpast, mid, inode', fresh, writes, rfl, hx⟩
  · apply (h.writeFileRange hmem hkind _ _ data).bind
    intro report d' hpost
    rcases hpost with ⟨_, a', hr, hspace⟩
    rw [Nat.div_add_mod' offset.toNat BLOCK_SIZE] at hspace
    exact ⟨_, _, rfl, a', inode, hr, .inl ⟨hinside, rfl, rfl, hspace⟩⟩
  · apply (h.publishExtends hmem hkind hx hpast "extending write").abortable.bind
    intro report d' hpost
    rcases hpost with ⟨hr, hspace⟩
    exact ⟨_, _, rfl, mid, inode', hr,
      .inr ⟨hpast, hx.length_eq, hx.byteLen_eq, hspace⟩⟩

end Write

/-- The whole call stays in bounds. -/
theorem noPanic_writeFileRangeExtending (sb : Superblock) (id offset : UInt64)
    (data : List UInt8) :
    Effect.NoPanic (writeFileRangeExtendingJournaled (σ := Disk) sb id offset
      data) := by
  apply Effect.noPanic_lift_bind (noPanic_rejectIf _ _)
  intro _ _
  apply Effect.noPanic_lift_bind (noPanic_rejectIf _ _)
  intro _ _
  apply Effect.noPanic_lift_bind (noPanic_okOr _ _)
  intro stop hstop
  rw [okOr_eq_ok, checkedAdd_eq_some] at hstop
  obtain ⟨_, rfl⟩ := hstop
  apply (Effect.noPanic_query fun d =>
    noPanic_prepareWritePlan d sb id offset.toNat data).bind
  intro plan
  cases plan with
  | overwrite firstBlockIndex blockOffset =>
    apply (noPanic_writeFileRange sb id _ _ data).bind
    intro _
    exact Effect.noPanic_pure _
  | extend plan =>
    apply (Effect.noPanic_abortable _).bind
    intro _
    exact Effect.noPanic_pure _

/-! ## What a write leaves -/

/-- What a write of `bytes` at `offset` of a file returns and leaves. -/
structure WrittenAt (sb : Superblock) (d d' : Disk)
    (inode inode' : PersistedInode) (offset : Nat) (bytes : List UInt8)
    (allocated : List UInt64) : Prop
    extends OnlyFile sb d d' inode inode' where
  id_eq : inode'.id = inode.id
  kind_eq : inode'.kind = .file
  length_eq : (fileBytes d' inode').length =
    max (fileBytes d inode).length (offset + bytes.length)
  contents : fileBytes d' inode' = overwrite (fileBytes d inode ++
    zeros (offset + bytes.length - (fileBytes d inode).length)) offset bytes
  blocks_eq : inode'.blocks = inode.blocks ++ allocated
  allocated_length : allocated.length =
    byteLenToBlockCount (offset + bytes.length) - inode.blocks.length
  allocated_fresh : ∀ block ∈ allocated,
    MarkedOwned d sb block false ∧ MarkedOwned d' sb block true
  cleared : (fileBytes d inode).length < offset + bytes.length →
    ∀ byte ∈ fileTail d' inode', byte = 0

section Public

variable {d d' : Disk} {sb : Superblock} {a a' : BlockAllocator}
  {inodes : List PersistedInode} {entries : List PersistedDirectoryEntry}
  {inode inode' : PersistedInode} {offset : Nat} {data : List UInt8}
  {allocated : List UInt64}

/-- A write inside the file, as a caller sees it. -/
theorem Rewritten.writtenInside
    (hr : Rewritten sb d d' a a' inodes entries inode inode
      inode.blocks.length []) (h : Mounted d sb a inodes entries)
    (hmem : inode ∈ inodes) (hkind : inode.kind = .file)
    (hinside : offset + data.length ≤ inode.byteLen.toNat)
    (hspace : fileSpace d' inode = overwrite (fileSpace d inode) offset data) :
    WrittenAt sb d d' inode inode offset data [] := by
  have hend := (h.fileEnd hmem hkind).1
  have hcapacity := hend.le_capacity
  have hlen := length_fileBytes d hend
  have hcontents : fileBytes d' inode =
      overwrite (fileBytes d inode) offset data := by
    rw [fileBytes_eq_take, hspace, take_overwrite hinside]
    · rfl
    · rw [length_fileSpace]
      exact hcapacity
  have hcount : byteLenToBlockCount (offset + data.length) ≤
      inode.blocks.length := byteLenToBlockCount_le_iff.mpr (by omega)
  refine ⟨hr.onlyFile h, rfl, hkind, ?_, ?_, (List.append_nil _).symm, ?_,
    nofun, ?_⟩
  · rw [length_fileBytes d' hend, hlen]
    exact (Nat.max_eq_left hinside).symm
  · rw [hcontents, hlen, Nat.sub_eq_zero_of_le hinside]
    exact congrArg (overwrite · offset data) (List.append_nil _).symm
  · exact (Nat.sub_eq_zero_of_le hcount).symm
  · intro hpast
    rw [hlen] at hpast
    exact absurd hpast (not_lt.mpr hinside)

/-- A write past the end, as a caller sees it. -/
theorem Rewritten.writtenPast
    (hr : Rewritten sb d d' a a' inodes entries inode inode'
      inode.blocks.length allocated) (h : Mounted d sb a inodes entries)
    (hmem : inode ∈ inodes) (hkind : inode.kind = .file)
    (hpast : inode.byteLen.toNat < offset + data.length)
    (hcount : allocated.length =
      byteLenToBlockCount (offset + data.length) - inode.blocks.length)
    (hbyteLen : inode'.byteLen.toNat = offset + data.length)
    (hspace : fileSpace d' inode' = overwrite (fileBytes d inode ++
      zeros (inode'.blocks.length * BLOCK_SIZE - inode.byteLen.toNat)) offset
      data) :
    WrittenAt sb d d' inode inode' offset data allocated := by
  have hend := (h.fileEnd hmem hkind).1
  have hend' :=
    (hr.mounted.fileEnd (hr.toFileChanged.mem_self h hmem) hr.kind_eq).1
  have hcapacity := hend'.le_capacity
  have hlen := length_fileBytes d hend
  have hpadded := @length_padded d inode hend
    (inode'.blocks.length * BLOCK_SIZE) (by omega)
  rw [hbyteLen] at hcapacity
  have hcontents : fileBytes d' inode' = overwrite (fileBytes d inode ++
      zeros (offset + data.length - inode.byteLen.toNat)) offset data := by
    rw [fileBytes_eq_take, hspace, hbyteLen, take_overwrite le_rfl (by omega),
      List.take_append, List.take_of_length_le (by omega), hlen, take_zeros,
      Nat.min_eq_left (by omega)]
  refine ⟨hr.onlyFile h, hr.id_eq, hr.kind_eq, ?_, ?_, ?_, hcount, ?_, ?_⟩
  · rw [length_fileBytes d' hend', hlen, hbyteLen]
    exact (Nat.max_eq_right hpast.le).symm
  · rw [hcontents, hlen]
  · rw [hr.blocks_eq, List.take_length]
  · exact fun block hblock => hr.taken h hmem hblock
  · intro _ byte hbyte
    rw [fileTail, hbyteLen, hspace, drop_overwrite le_rfl (by omega),
      List.drop_append, List.drop_eq_nil_of_le (by omega), List.nil_append,
      drop_zeros] at hbyte
    exact List.eq_of_mem_replicate hbyte

/-- A write on a mounted disk, as a caller sees it. -/
theorem Mounted.writtenAt (h : Mounted d sb a inodes entries)
    (hmem : inode ∈ inodes) (hkind : inode.kind = .file) (offset : UInt64)
    (data : List UInt8) :
    Effect.Atomic (writeFileRangeExtendingJournaled sb inode.id offset data) d
      fun r d' =>
        ∃ inode', WrittenAt sb d d' inode inode' offset.toNat data r.1 := by
  apply (h.writeFileRangeExtending hmem hkind offset data).mono
  intro r d' hpost
  rcases hpost with ⟨a', inode', hr, ⟨hinside, hnone, rfl, hspace⟩ | ⟨hpast,
    hcount, hbyteLen, hspace⟩⟩
  · rw [hnone] at hr ⊢
    exact ⟨_, hr.writtenInside h hmem hkind hinside hspace⟩
  · exact ⟨inode',
      hr.writtenPast h hmem hkind hpast hcount hbyteLen hspace⟩

end Public

/-- **A write that may extend the file is `pwrite` on a file without holes.**
On a device that the check accepts with an empty journal, a write that fails
changes nothing, and one that succeeds leaves the contents, with zeros up to the
new end, and the data over them; on no device is an index out of bounds. -/
theorem writeFileRangeExtending_pwrite {d d' : Disk} {sb : Superblock}
    {report : FsckReport} {inodes : List PersistedInode}
    {inode : PersistedInode} {offset : UInt64} {data : List UInt8}
    {result : Except (Abort IoError) (List UInt64 × RecoveryReport)}
    (hsb : readSuperblock d = .ok sb)
    (hjournal : loadJournalImage d sb = .ok [])
    (hcheck : checkDevice d = .ok report)
    (hload : loadInodeTable d sb = .ok inodes) (hmem : inode ∈ inodes)
    (hkind : inode.kind = .file)
    (hrun : writeFileRangeExtendingJournaled sb inode.id offset data d =
      (result, d')) :
    (match result with
      | .ok r => ∃ inode', WrittenAt sb d d' inode inode' offset.toNat data r.1
      | .error _ => d' = d) ∧
    ∀ (device : Disk) (sb : Superblock) (id offset : UInt64)
      (data : List UInt8), (writeFileRangeExtendingJournaled sb id offset data
        device).1 ≠ .error .panic := by
  refine ⟨?_, fun device sb id offset data =>
    noPanic_writeFileRangeExtending sb id offset data device⟩
  obtain ⟨a, inodes', entries, h⟩ := exists_mounted hsb hjournal hcheck
  rw [h.inodeTable, Except.ok.injEq] at hload
  rw [← hload] at hmem
  have hatomic := h.writtenAt hmem hkind offset data
  cases result with
  | error error =>
    have hsame := hatomic.of_error (congrArg Prod.fst hrun)
    rw [hrun] at hsame
    exact hsame
  | ok r => exact hatomic.of_ok hrun

/-! ## A sample write -/

/-- A write past the end of the second file of the sample: it leaves a gap, and
takes a block. -/
theorem prepareWritePlan_filesDisk (contents : Nat → Block) :
    ∃ mid writes, prepareWritePlan (filesDisk contents) treeSuperblock 3 4095
        4097 [1, 2] = .ok (.extend
          ⟨mid, setInode filesInodes ⟨3, .file, [11, 12], 4097⟩, [12], writes⟩) ∧
      writes.length ≤ 2 := by
  have h := mounted_filesDisk contents
  obtain ⟨mid, hloop⟩ : ∃ mid, allocateEach filesAllocator 1 =
      .ok ([12], mid) := by
    have hfirst : (allocateEach filesAllocator 1).map Prod.fst = .ok [12] := rfl
    obtain ⟨⟨_, mid⟩, htaken, rfl⟩ := Except.map_eq_ok.mp hfirst
    exact ⟨mid, htaken⟩
  obtain ⟨htakes, _, _⟩ := h.takes_of_allocateEach hloop
  have howned : mid.isOwned 11 = .ok true := by
    rw [BlockAllocator.isOwned_of_data, htakes.flag]
    · rfl
    · rw [htakes.reservedBlocks]
      decide
    · rw [htakes.totalBlocks]
      decide
  have hload : ∀ (i : Nat) (block : UInt64), [11, 12][i]? = some block →
      ∃ candidate, loadCandidateBlock (filesDisk contents) mid block i 1 =
        .ok candidate := by
    intro i block hblock
    by_cases hnew : i ≥ 1
    · exact ⟨_, if_pos hnew⟩
    · rw [show i = 0 by omega, List.getElem?_cons_zero,
        Option.some.injEq] at hblock
      subst hblock
      refine ⟨((filesDisk contents).blocks 11,
        some ((filesDisk contents).blocks 11)), ?_⟩
      rw [loadCandidateBlock, if_neg hnew,
        show (11 : UInt64).toNat = 11 from rfl, howned,
        Disk.readBlock_of_lt (show 11 < 16 by decide)]
      rfl
  obtain ⟨writes, hwrites, hlen⟩ := @exists_candidateWrites (filesDisk contents)
    mid [11, 12] ⟨1, 10, 4095, 4097⟩ [1, 2] rfl hload 2 0 le_rfl (by decide)
  refine ⟨mid, writes, ?_, hlen⟩
  have hfind : okOr (findInode filesInodes 3) (Abort.error
      (invalidInput "extending write target inode is missing")) =
        .ok ⟨3, .file, [11], 10⟩ := rfl
  have hcurrent : currentByteLen ⟨3, .file, [11], 10⟩ = .ok 10 :=
    h.currentByteLen_eq (by decide)
  have hcount : byteLenToBlockCount 4097 = 2 := by decide
  have hedit : appendAllocated ⟨3, .file, [11], 10⟩ [12] =
      .ok ⟨3, .file, [11, 12], 4106⟩ := by decide
  have hset : PersistedInode.setFileByteLen ⟨3, .file, [11, 12], 4106⟩
      (UInt64.ofNat 4097) = .ok ⟨3, .file, [11, 12], 4097⟩ := by decide
  rw [prepareWritePlan, h.allocator, h.inodeTable]
  simp only [Abort.lift, Except.mapError, Except.ok_bind, hfind, hcurrent]
  rw [rejectIf_of_not (by decide), Except.ok_bind, if_neg (by decide), hcount,
    rejectIf_of_not (by decide)]
  simp only [List.length_singleton, Nat.add_one_sub_one, Except.ok_bind, hloop,
    hedit, hset]
  rw [prepareDataWrites, hcount]
  show (do
    let dataWrites ← candidateWrites (filesDisk contents) mid [11, 12]
      ⟨1, 10, 4095, 4097⟩ [1, 2] 2 0
    pure (WritePlan.extend ⟨mid, setInode filesInodes
      ⟨3, .file, [11, 12], 4097⟩, [12], dataWrites⟩)) = _
  rw [hwrites]
  rfl

/-- The write goes through. -/
theorem writeFileRangeExtending_filesDisk (contents : Nat → Block) :
    ∃ r d', writeFileRangeExtendingJournaled treeSuperblock 3 4095 [1, 2]
      (filesDisk contents) = (.ok r, d') := by
  have h := mounted_filesDisk contents
  have hmem : ⟨3, .file, [11], 10⟩ ∈ filesInodes := by decide
  obtain ⟨mid, writes, hplan, hlen⟩ := prepareWritePlan_filesDisk contents
  -- what is planned goes to the blocks of the file
  obtain ⟨htakes, hdata⟩ : Takes filesAllocator mid [12] ∧
      ∀ w ∈ writes, w.1 ∈ [(11 : UInt64), 12] := by
    have hstop : 4097 = 4095 + [(1 : UInt8), 2].length := rfl
    have hsame := hplan
    rw [hstop] at hsame
    rcases h.prepareWritePlan_eq_ok hmem rfl (by decide) hsame with
      ⟨hinside, _⟩ | ⟨_, other, inode', fresh, found, heq, hx⟩
    · exact absurd hinside (by decide)
    · injection heq with heq
      injection heq with hmid _ hfresh hfound
      subst hmid hfresh hfound
      refine ⟨hx.takes, ?_⟩
      intro w hw
      have hblock := hx.mem hw
      rw [hx.blocks_eq] at hblock
      exact hblock
  have hset : setInode filesInodes ⟨3, .file, [11, 12], 4097⟩ =
      [⟨1, .directory, [], 0⟩, ⟨2, .file, [10], 4096⟩,
        ⟨3, .file, [11, 12], 4097⟩] := by decide
  obtain ⟨image, himage⟩ : ∃ image,
      inodeFormat.encodeImage treeSuperblock.inodeBlocks
        (setInode filesInodes ⟨3, .file, [11, 12], 4097⟩) = .ok image := by
    rw [hset]
    exact exists_inodeImage (by decide) (by decide) (by decide) (by decide)
      (by decide)
  obtain ⟨report, d', hrun⟩ := @AtRest.publishFileChanges_tree _ _ mid _ _ _
    "extending write" writes image h.toAtRest htakes.totalBlocks
    htakes.reservedBlocks himage (by
      intro w hw
      have hblock := hdata w hw
      rw [List.mem_cons, List.mem_singleton] at hblock
      rcases hblock with heq | heq
      · rw [heq]
        decide
      · rw [heq]
        decide) (by omega) (.inr (by decide))
  refine ⟨([12], report), d', ?_⟩
  have hend : okOr (checkedAdd (4095 : UInt64).toNat [(1 : UInt8), 2].length)
      (Abort.error (invalidInput "extending write end offset overflow")) =
        .ok 4097 := rfl
  have hpublish : Effect.abortable (publishFileChanges "extending write"
      treeSuperblock mid (setInode filesInodes ⟨3, .file, [11, 12], 4097⟩)
      writes) (filesDisk contents) = (.ok report, d') := by
    rw [Effect.abortable, hrun]
    rfl
  rw [writeFileRangeExtendingJournaled,
    Effect.lift_bind_of_ok (a := ()) (rejectIf_of_not (by decide)),
    Effect.lift_bind_of_ok (a := ()) (rejectIf_of_not (by decide)),
    Effect.lift_bind_of_ok hend]
  rw [Effect.query_bind_of_ok (q := fun d : Disk => prepareWritePlan d
    treeSuperblock 3 (4095 : UInt64).toNat 4097 [1, 2]) hplan]
  dsimp only
  rw [Effect.bind_of_ok hpublish]
  rfl

theorem writeFileRangeExtending_pwrite_filesDisk :
    ∃ (r : List UInt64 × RecoveryReport) (d' : Disk),
      writeFileRangeExtendingJournaled treeSuperblock 3 4095 [1, 2]
        (filesDisk fun _ => Block.zero) = (.ok r, d') ∧
      ∃ inode', WrittenAt treeSuperblock (filesDisk fun _ => Block.zero) d'
        ⟨3, .file, [11], 10⟩ inode' 4095 [1, 2] r.1 := by
  have h := mounted_filesDisk fun _ => Block.zero
  obtain ⟨r, d', hrun⟩ := writeFileRangeExtending_filesDisk fun _ => Block.zero
  have hmem : ⟨3, .file, [11], 10⟩ ∈ filesInodes := by decide
  exact ⟨r, d', hrun, (writeFileRangeExtending_pwrite h.superblock h.journal
    h.check h.inodeTable hmem rfl hrun).1⟩

end FilesystemLab
