import FilesystemLab.FileData
import FilesystemLab.ExtentPaging
import FilesystemLab.Lib.Intervals
import Mathlib.Data.Bool.Count

/-!
# Free space

`filesystem_space.rs`: the free data blocks as runs, the first run that is long
enough, and pages of runs.

The queries look at the allocator of a device that has passed the check.
`FreeScan.Holds` is the invariant of the scan over the data blocks, and
`FreeRuns` what it gives: all free blocks in maximal runs.  The first run that is
long enough is where the allocator puts a contiguous allocation
(`firstFit_allocates`), and pages cut the runs at any cursor
(`freeSpacePages_cover`).
-/

namespace FilesystemLab

open Pages

/-! ## The functions -/

/-- `FreeSpaceExtent`. -/
structure FreeSpaceExtent where
  startBlock : Nat
  blockCount : Nat
deriving DecidableEq, Repr

/-- `FilesystemFreeSpace`. -/
structure FilesystemFreeSpace where
  totalFreeBlocks : Nat
  largestExtentBlocks : Nat
  extents : List FreeSpaceExtent
deriving DecidableEq, Repr

/-- `FilesystemFreeSpacePage`. -/
structure FilesystemFreeSpacePage where
  totalFreeBlocks : Nat
  largestExtentBlocks : Nat
  extents : List FreeSpaceExtent
  nextAfter : Option Nat
deriving DecidableEq, Repr

/-- `validate_geometry`. -/
def validateSpaceGeometry (sb : Superblock) (totalBlocks reservedBlocks : Nat) :
    Result Unit :=
  rejectIf (totalBlocks ≠ sb.totalBlocks ∨ reservedBlocks ≠ sb.reservedBlocks)
    (invalidData
      "durable superblock geometry changed during filesystem-space query")

/-- The variables of the scan in `filesystem_free_space_extents`. -/
structure FreeScan where
  extents : List FreeSpaceExtent
  runStart : Option Nat
  totalFreeBlocks : Nat
  largestExtentBlocks : Nat

/-- `push_extent`. -/
def FreeScan.pushExtent (scan : FreeScan) (startBlock endBlock : Nat) :
    Result FreeScan := do
  let blockCount ← okOr ((checkedSub endBlock startBlock).filter (0 < ·))
    (invalidData "invalid free-space extent bounds")
  pure { scan with
    extents := scan.extents ++ [⟨startBlock, blockCount⟩]
    largestExtentBlocks := max scan.largestExtentBlocks blockCount }

/-- One iteration of the scan. -/
def FreeScan.step (a : BlockAllocator) (scan : FreeScan) (block : Nat) :
    Result FreeScan := do
  let owned ← liftAllocation (a.isOwned block)
  if owned = false then do
    let total ← okOr (checkedAdd scan.totalFreeBlocks 1)
      (invalidData "free-space extent accounting overflow")
    pure { scan with
      totalFreeBlocks := total
      runStart := scan.runStart.or (some block) }
  else
    match scan.runStart with
    | some startBlock =>
      FreeScan.pushExtent { scan with runStart := none } startBlock block
    | none => pure scan

/-- The scan over blocks. -/
def scanFreeBlocks (a : BlockAllocator) : List Nat → FreeScan → Result FreeScan
  | [], scan => pure scan
  | block :: blocks, scan => do
    let scan ← scan.step a block
    scanFreeBlocks a blocks scan

/-- The scan over the data blocks, with the run that ends at the end. -/
def freeSpaceScan (sb : Superblock) (a : BlockAllocator) : Result FreeScan := do
  let scan ← scanFreeBlocks a
    (List.range' sb.reservedBlocks (sb.totalBlocks - sb.reservedBlocks))
    ⟨[], none, 0, 0⟩
  match scan.runStart with
  | some startBlock => scan.pushExtent startBlock sb.totalBlocks
  | none => pure scan

/-- What `paginate_free_space_extents` does with one extent. -/
def freeExtentKind : ExtentKind FreeSpaceExtent where
  start := FreeSpaceExtent.startBlock
  count := FreeSpaceExtent.blockCount
  clip firstBlock extent :=
    pure ⟨firstBlock, extent.startBlock + extent.blockCount - firstBlock⟩
  limitZero := "free-space extent page limit must be greater than zero"
  endOverflow := "free-space extent end overflow"
  lostFinal := "free-space pagination lost its final extent"

/-- The first block of a page, in `paginate_free_space_extents`. -/
def firstFreeBlock (sb : Superblock) (afterBlock : Option Nat) : Nat :=
  max (match afterBlock with
    | some cursor => (checkedAdd cursor 1).getD sb.totalBlocks
    | none => sb.reservedBlocks) sb.reservedBlocks

/-- `paginate_free_space_extents`. -/
def paginateFreeSpaceExtents (freeSpace : FilesystemFreeSpace) (sb : Superblock)
    (afterBlock : Option Nat) (limit : Nat) : Result FilesystemFreeSpacePage := do
  let page ← freeExtentKind.page freeSpace.extents
    (firstFreeBlock sb afterBlock) limit
  pure ⟨freeSpace.totalFreeBlocks, freeSpace.largestExtentBlocks, page.1, page.2⟩

section Device

variable {σ : Type} [BlockDevice σ]

/-- `filesystem_free_space_extents`. -/
def filesystemFreeSpaceExtents (sb : Superblock) : DevM σ FilesystemFreeSpace := do
  let _ ← recoverJournalAndCheckpoint sb
  let report ← Effect.query checkDevice
  validateSpaceGeometry sb report.totalBlocks report.reservedBlocks
  let allocator ← Effect.query (loadAllocator · sb)
  let scan ← freeSpaceScan sb allocator
  rejectIf (scan.totalFreeBlocks ≠ report.freeBlocks)
    (invalidData "free-space extents disagree with fsck free-block accounting")
  pure ⟨scan.totalFreeBlocks, scan.largestExtentBlocks, scan.extents⟩

/-- `filesystem_first_fit_free_extent`. -/
def filesystemFirstFitFreeExtent (sb : Superblock) (blockCount : Nat) :
    DevM σ (Option FreeSpaceExtent) := do
  rejectIf (blockCount = 0) (invalidInput
    "first-fit free-space request must contain at least one block")
  let freeSpace ← filesystemFreeSpaceExtents sb
  pure ((freeSpace.extents.find? fun extent =>
    blockCount ≤ extent.blockCount).map fun extent =>
      ⟨extent.startBlock, blockCount⟩)

/-- `filesystem_free_space_extents_page`. -/
def filesystemFreeSpaceExtentsPage (sb : Superblock) (afterBlock : Option Nat)
    (limit : Nat) : DevM σ FilesystemFreeSpacePage := do
  rejectIf (limit = 0) (invalidInput
    "free-space extent page limit must be greater than zero")
  let freeSpace ← filesystemFreeSpaceExtents sb
  paginateFreeSpaceExtents freeSpace sb afterBlock limit

end Device

/-! ## Free blocks and their runs -/

/-- The free data blocks of an allocator, in order. -/
def BlockAllocator.freeData (a : BlockAllocator) : List Nat :=
  (List.range' a.reservedBlocks (a.totalBlocks - a.reservedBlocks)).filter
    fun block => a.flag block = false

/-- The blocks of a run. -/
def FreeSpaceExtent.cells (extent : FreeSpaceExtent) : List Nat :=
  List.range' extent.startBlock extent.blockCount

/-- The report has exactly the free data blocks, in runs that cannot be longer,
and counts them. -/
structure FreeRuns (a : BlockAllocator) (space : FilesystemFreeSpace) :
    Prop where
  cells_eq : space.extents.flatMap FreeSpaceExtent.cells = a.freeData
  separated : Intervals.Separated FreeSpaceExtent.startBlock
    FreeSpaceExtent.blockCount space.extents
  total_eq : space.totalFreeBlocks = a.freeData.length
  largest_eq : space.largestExtentBlocks =
    (space.extents.map FreeSpaceExtent.blockCount).foldl max 0

/-- The blocks before `block` of a run that has not ended. -/
def openRun (runStart : Option Nat) (block : Nat) : List Nat :=
  match runStart with
  | some startBlock => List.range' startBlock (block - startBlock)
  | none => []

/-- What the scan has found before `block`: the runs, and the run that it is
in. -/
structure FreeScan.Holds (a : BlockAllocator) (block : Nat) (scan : FreeScan) :
    Prop where
  cells_eq : scan.extents.flatMap FreeSpaceExtent.cells ++
      openRun scan.runStart block =
    (List.range' a.reservedBlocks (block - a.reservedBlocks)).filter
      fun b => a.flag b = false
  separated : Intervals.Separated FreeSpaceExtent.startBlock
    FreeSpaceExtent.blockCount scan.extents
  run_lt : ∀ startBlock ∈ scan.runStart, startBlock < block
  behind : ∀ extent ∈ scan.extents,
    extent.startBlock + extent.blockCount < scan.runStart.getD block
  total_eq : scan.totalFreeBlocks =
    ((List.range' a.reservedBlocks (block - a.reservedBlocks)).filter
      fun b => a.flag b = false).length
  largest_eq : scan.largestExtentBlocks =
    (scan.extents.map FreeSpaceExtent.blockCount).foldl max 0

section Scan

variable {a : BlockAllocator} {block startBlock endBlock : Nat}
  {scan : FreeScan} {sb : Superblock}

/-- The free blocks before the next block. -/
theorem filter_range_succ (hle : a.reservedBlocks ≤ block) :
    ((List.range' a.reservedBlocks (block + 1 - a.reservedBlocks)).filter
        fun b => a.flag b = false) =
      (List.range' a.reservedBlocks (block - a.reservedBlocks)).filter
          (fun b => a.flag b = false) ++
        if a.flag block = false then [block] else [] := by
  rw [Nat.succ_sub hle, List.range'_1_concat, List.filter_append,
    Nat.add_sub_cancel' hle, List.filter_singleton]
  congr 1
  cases a.flag block <;> rfl

theorem pushExtent_eq (scan : FreeScan) (h : startBlock < endBlock) :
    scan.pushExtent startBlock endBlock = .ok { scan with
      extents := scan.extents ++ [⟨startBlock, endBlock - startBlock⟩]
      largestExtentBlocks :=
        max scan.largestExtentBlocks (endBlock - startBlock) } := by
  have hfilter : (checkedSub endBlock startBlock).filter (0 < ·) =
      some (endBlock - startBlock) := by
    rw [checkedSub, if_pos h.le, Option.filter_some,
      if_pos (by rw [decide_eq_true_eq]; omega)]
  rw [FreeScan.pushExtent, hfilter]
  rfl

/-- A run that ends at `block` becomes an extent. -/
theorem FreeScan.Holds.push (h : scan.Holds a block)
    (hrun : scan.runStart = some startBlock) (rest : Option Nat) :
    ∃ scan', FreeScan.pushExtent { scan with runStart := rest } startBlock
        block = .ok scan' ∧
      scan'.runStart = rest ∧
      scan'.totalFreeBlocks = scan.totalFreeBlocks ∧
      scan'.extents.flatMap FreeSpaceExtent.cells =
        (List.range' a.reservedBlocks (block - a.reservedBlocks)).filter
          (fun b => a.flag b = false) ∧
      Intervals.Separated FreeSpaceExtent.startBlock
        FreeSpaceExtent.blockCount scan'.extents ∧
      (∀ extent ∈ scan'.extents,
        extent.startBlock + extent.blockCount ≤ block) ∧
      scan'.largestExtentBlocks =
        (scan'.extents.map FreeSpaceExtent.blockCount).foldl max 0 := by
  have hlt := h.run_lt startBlock hrun
  have hcells := h.cells_eq
  have hbehind := h.behind
  rw [hrun] at hcells hbehind
  refine ⟨_, pushExtent_eq _ hlt, rfl, rfl, ?_, ?_, ?_, ?_⟩
  · rw [← hcells, List.flatMap_append, List.flatMap_singleton]
    rfl
  · exact h.separated.concat (Nat.sub_pos_of_lt hlt) hbehind
  · intro extent hextent
    cases List.mem_append.mp hextent with
    | inl hmem =>
      have hend := hbehind extent hmem
      rw [Option.getD_some] at hend
      omega
    | inr hmem =>
      rw [List.mem_singleton.mp hmem]
      exact (Nat.add_sub_cancel' hlt.le).le
  · rw [List.map_append, List.foldl_append, ← h.largest_eq]
    rfl

/-- **One iteration of the scan keeps the invariant.** -/
theorem FreeScan.Holds.step (h : scan.Holds a block)
    (hle : a.reservedBlocks ≤ block) (hlt : block < a.totalBlocks)
    (htotal : a.totalBlocks < U64_LIMIT) :
    ∃ scan', scan.step a block = .ok scan' ∧ scan'.Holds a (block + 1) := by
  have hcount : scan.totalFreeBlocks ≤ block := by
    rw [h.total_eq]
    have hlength := List.length_filter_le (fun b => decide (a.flag b = false))
      (List.range' a.reservedBlocks (block - a.reservedBlocks))
    rw [List.length_range'] at hlength
    omega
  rw [FreeScan.step, liftAllocation_eq_ok.mpr (a.isOwned_of_data hle hlt),
    Except.ok_bind]
  by_cases hfree : a.flag block = false
  · have hadd : checkedAdd scan.totalFreeBlocks 1 =
        some (scan.totalFreeBlocks + 1) := by
      rw [checkedAdd_eq_some]
      exact ⟨by omega, rfl⟩
    rw [if_pos hfree, hadd]
    refine ⟨_, rfl, ?_, h.separated, ?_, ?_, ?_, h.largest_eq⟩
    · -- the block goes on with the run, or starts one
      rw [filter_range_succ hle, if_pos hfree, ← h.cells_eq, List.append_assoc]
      congr 1
      cases hrun : scan.runStart with
      | none =>
        show List.range' block (block + 1 - block) = [block]
        rw [Nat.add_sub_cancel_left]
        rfl
      | some startBlock =>
        have hstart := h.run_lt startBlock hrun
        show List.range' startBlock (block + 1 - startBlock) =
          List.range' startBlock (block - startBlock) ++ [block]
        rw [Nat.succ_sub hstart.le, List.range'_1_concat,
          Nat.add_sub_cancel' hstart.le]
    · intro startBlock hstart
      cases hrun : scan.runStart with
      | none =>
        simp only [hrun, Option.none_or, Option.mem_def,
          Option.some.injEq] at hstart
        omega
      | some other =>
        simp only [hrun, Option.some_or, Option.mem_def,
          Option.some.injEq] at hstart
        have hlt := h.run_lt other hrun
        omega
    · intro extent hextent
      have hend := h.behind extent hextent
      cases hrun : scan.runStart with
      | none =>
        rw [hrun] at hend
        exact hend
      | some other =>
        rw [hrun] at hend
        exact hend
    · show scan.totalFreeBlocks + 1 = _
      rw [filter_range_succ hle, if_pos hfree, List.length_append, h.total_eq]
      rfl
  · rw [if_neg hfree]
    have hsame := filter_range_succ hle
    rw [if_neg hfree, List.append_nil] at hsame
    cases hrun : scan.runStart with
    | none =>
      refine ⟨scan, rfl, ?_, h.separated, ?_, ?_, ?_, h.largest_eq⟩
      · rw [hsame, ← h.cells_eq, hrun]
        rfl
      · intro startBlock hstart
        rw [hrun] at hstart
        cases hstart
      · intro extent hextent
        have hend := h.behind extent hextent
        rw [hrun, Option.getD_none] at hend ⊢
        omega
      · rw [hsame]
        exact h.total_eq
    | some startBlock =>
      obtain ⟨scan', hok, hnone, htotal', hcells, hseparated, hbehind,
        hlargest⟩ := h.push hrun none
      refine ⟨scan', hok, ?_, hseparated, ?_, ?_, ?_, hlargest⟩
      · rw [hsame, ← hcells, hnone]
        exact List.append_nil _
      · intro other hother
        rw [hnone] at hother
        cases hother
      · intro extent hextent
        have hend := hbehind extent hextent
        rw [hnone, Option.getD_none]
        omega
      · rw [htotal', hsame]
        exact h.total_eq

/-- The scan over consecutive blocks. -/
theorem FreeScan.Holds.run (h : scan.Holds a block) (count : Nat)
    (hle : a.reservedBlocks ≤ block)
    (hstop : block + count ≤ a.totalBlocks)
    (htotal : a.totalBlocks < U64_LIMIT) :
    ∃ scan', scanFreeBlocks a (List.range' block count) scan = .ok scan' ∧
      scan'.Holds a (block + count) := by
  induction count generalizing block scan with
  | zero => exact ⟨scan, rfl, h⟩
  | succ count ih =>
    obtain ⟨mid, hstep, hmid⟩ := h.step hle (by omega) htotal
    obtain ⟨scan', hrest, hholds⟩ := ih hmid (by omega) (by omega)
    refine ⟨scan', ?_, ?_⟩
    · rw [List.range'_succ, scanFreeBlocks, hstep]
      exact hrest
    · rw [show block + (count + 1) = block + 1 + count by omega]
      exact hholds

/-- **The scan of the data area finds all runs.** -/
theorem freeSpaceScan_eq_ok (htotal : a.totalBlocks = sb.totalBlocks)
    (hreserved : a.reservedBlocks = sb.reservedBlocks) :
    ∃ scan, freeSpaceScan sb a = .ok scan ∧
      FreeRuns a ⟨scan.totalFreeBlocks, scan.largestExtentBlocks,
        scan.extents⟩ := by
  have hlayout := sb.layout
  have hstart : FreeScan.Holds a a.reservedBlocks ⟨[], none, 0, 0⟩ := by
    refine ⟨?_, ⟨List.forall_mem_nil _, List.Pairwise.nil⟩, ?_,
      List.forall_mem_nil _, ?_, rfl⟩
    · rw [Nat.sub_self]
      rfl
    · intro startBlock hmem
      cases hmem
    · rw [Nat.sub_self]
      rfl
  obtain ⟨scan, hscan, hholds⟩ := hstart.run
    (a.totalBlocks - a.reservedBlocks) (le_refl _) (by omega) (by omega)
  rw [Nat.add_sub_cancel' a.reserved_le] at hholds
  rw [freeSpaceScan, ← htotal, ← hreserved, hscan, Except.ok_bind]
  cases hrun : scan.runStart with
  | none =>
    refine ⟨scan, rfl, ?_, hholds.separated, hholds.total_eq,
      hholds.largest_eq⟩
    have hcells := hholds.cells_eq
    rw [hrun] at hcells
    exact (List.append_nil _).symm.trans hcells
  | some startBlock =>
    obtain ⟨scan', hok, _, htotal', hcells, hseparated, _, hlargest⟩ :=
      hholds.push hrun scan.runStart
    exact ⟨scan', hok, hcells, hseparated, htotal'.trans hholds.total_eq,
      hlargest⟩

end Scan

/-! ## The allocator -/

namespace BlockAllocator

variable {a : BlockAllocator} {block s n : Nat}

theorem mem_freeData : block ∈ a.freeData ↔
    a.reservedBlocks ≤ block ∧ block < a.totalBlocks ∧
      a.flag block = false := by
  have hle := a.reserved_le
  rw [freeData, List.mem_filter, List.mem_range'_1, decide_eq_true_eq]
  constructor
  · intro hfacts
    rcases hfacts with ⟨⟨hreserved, hlt⟩, hfree⟩
    exact ⟨hreserved, by omega, hfree⟩
  · intro hfacts
    rcases hfacts with ⟨hreserved, hlt, hfree⟩
    exact ⟨⟨hreserved, by omega⟩, hfree⟩

/-- The flags of the data area. -/
theorem map_flag (a : BlockAllocator) :
    (List.range' a.reservedBlocks (a.totalBlocks - a.reservedBlocks)).map
      a.flag = a.allocated.drop a.reservedBlocks := by
  apply List.ext_getElem
  · rw [List.length_map, List.length_range', List.length_drop, a.length_eq]
  · intro i hi hi'
    rw [List.length_drop] at hi'
    rw [List.getElem_map, List.getElem_range', List.getElem_drop, flag,
      Nat.one_mul, List.getElem?_eq_getElem (by omega), Option.getD_some]

/-- The counter of the allocator is right. -/
theorem length_freeData (a : BlockAllocator) :
    a.freeData.length = a.freeBlocks := by
  have hcount : a.freeData.length =
      (a.allocated.drop a.reservedBlocks).count false := by
    rw [freeData, ← List.countP_eq_length_filter, ← map_flag, List.count,
      List.countP_map]
    apply List.countP_congr
    intro b _
    show decide (a.flag b = false) = true ↔ (a.flag b == false) = true
    rw [decide_eq_true_eq, beq_iff_eq]
  have hlength : (a.allocated.drop a.reservedBlocks).count true +
      (a.allocated.drop a.reservedBlocks).count false =
        (a.allocated.drop a.reservedBlocks).length :=
    List.count_true_add_count_false _
  rw [List.length_drop, a.length_eq, ← a.count_eq] at hlength
  rw [hcount, freeBlocks]
  omega

end BlockAllocator

/-! ## Runs and windows -/

section Runs

variable {a : BlockAllocator} {space : FilesystemFreeSpace} {sb : Superblock}
  {s n limit : Nat} {cursor : Option Nat}

/-- A window of the runs is a window of free blocks. -/
theorem FreeRuns.window_iff (h : FreeRuns a space) :
    Intervals.Window FreeSpaceExtent.startBlock FreeSpaceExtent.blockCount
        space.extents s n ↔
      ∀ b, s ≤ b → b < s + n → b ∈ a.freeData := by
  have hmem : ∀ b, b ∈ a.freeData ↔ ∃ extent ∈ space.extents,
      extent.startBlock ≤ b ∧ b < extent.startBlock + extent.blockCount := by
    intro b
    rw [← h.cells_eq, List.mem_flatMap]
    simp only [FreeSpaceExtent.cells, List.mem_range'_1]
  constructor
  · intro hwindow b hle hlt
    exact (hmem b).mpr (hwindow b hle hlt)
  · intro hfree b hle hlt
    exact (hmem b).mp (hfree b hle hlt)

/-- **The first run that is long enough is where the allocator allocates.** -/
theorem FreeRuns.firstFit (h : FreeRuns a space) (hn : 0 < n) :
    (space.extents.find? fun extent => n ≤ extent.blockCount).map
        FreeSpaceExtent.startBlock =
      match a.allocateContiguous n with
      | .ok run => some run.1
      | .error _ => none := by
  cases hrun : a.allocateContiguous n with
  | error e =>
    cases hfind : space.extents.find? fun extent => n ≤ extent.blockCount with
    | none => rfl
    | some extent =>
      -- the run could be allocated
      have hwindow := h.window_iff.mp (Intervals.window_of_find hfind)
      have hfirst := BlockAllocator.mem_freeData.mp
        (hwindow extent.startBlock le_rfl (by omega))
      have hlast := BlockAllocator.mem_freeData.mp
        (hwindow (extent.startBlock + n - 1) (by omega) (by omega))
      obtain ⟨_, _, hok, _⟩ := BlockAllocator.exists_allocateContiguous hn
        hfirst.1 (by omega) fun b hle hlt =>
          (BlockAllocator.mem_freeData.mp (hwindow b hle hlt)).2.2
      rw [hrun] at hok
      cases hok
  | ok run =>
    obtain ⟨first, a'⟩ := run
    obtain ⟨_, _, hreserved, hstop, hclear, _⟩ :=
      BlockAllocator.allocateContiguous_eq_ok hrun
    obtain ⟨extent, hfind, hle⟩ := Intervals.exists_find_of_window h.separated
      hn (h.window_iff.mpr fun b hb hlt => BlockAllocator.mem_freeData.mpr
        ⟨by omega, by omega, hclear b hb hlt⟩)
    -- the run is a window too, so the allocator does not go behind it
    have hwindow := h.window_iff.mp (Intervals.window_of_find hfind)
    have hstart := BlockAllocator.mem_freeData.mp
      (hwindow extent.startBlock le_rfl (by omega))
    have hlast := BlockAllocator.mem_freeData.mp
      (hwindow (extent.startBlock + n - 1) (by omega) (by omega))
    obtain ⟨other, _, hok, hother⟩ := BlockAllocator.exists_allocateContiguous
      hn hstart.1 (by omega) fun b hb hlt =>
        (BlockAllocator.mem_freeData.mp (hwindow b hb hlt)).2.2
    rw [hrun, Except.ok.injEq, Prod.mk.injEq] at hok
    rw [hfind, Option.map_some, Option.some.injEq]
    omega

/-- The free blocks are in order. -/
theorem BlockAllocator.freeData_sorted (a : BlockAllocator) :
    a.freeData.Pairwise fun b c => b < c :=
  List.Pairwise.filter _ List.pairwise_lt_range'

/-- The code finds the first block behind any cursor. -/
theorem after_freeData (htotal : a.totalBlocks = sb.totalBlocks)
    (hreserved : a.reservedBlocks = sb.reservedBlocks)
    (hcursor : ∀ n ∈ cursor, n < U64_LIMIT) :
    after id a.freeData cursor =
      a.freeData.filter fun b => firstFreeBlock sb cursor ≤ b := by
  have hlayout := sb.layout
  cases cursor with
  | none =>
    rw [after_none, List.filter_eq_self.mpr]
    intro b hb
    have hrange := BlockAllocator.mem_freeData.mp hb
    rw [decide_eq_true_eq, firstFreeBlock, max_self]
    omega
  | some n =>
    rw [after_some]
    apply List.filter_congr
    intro b hb
    have hrange := BlockAllocator.mem_freeData.mp hb
    have hn := hcursor n rfl
    rw [decide_eq_decide, firstFreeBlock, id]
    by_cases hlast : n + 1 < U64_LIMIT
    · rw [checkedAdd_eq_some.mpr ⟨hlast, rfl⟩, Option.getD_some]
      omega
    · rw [checkedAdd, if_neg hlast, Option.getD_none]
      omega

/-- A run can be clipped. -/
theorem FreeSpaceExtent.lawful {extent : FreeSpaceExtent}
    (hcount : 0 < extent.blockCount)
    (hstop : extent.startBlock + extent.blockCount < U64_LIMIT) :
    freeExtentKind.Lawful FreeSpaceExtent.cells id extent := by
  refine ⟨⟨List.map_id _, hcount, hstop⟩, ?_⟩
  intro first hstart hend
  have hstart : extent.startBlock < first := hstart
  refine ⟨_, rfl, rfl, rfl, ?_⟩
  show List.range' first (extent.startBlock + extent.blockCount - first) =
    (List.range' extent.startBlock extent.blockCount).drop
      (first - extent.startBlock)
  rw [List.drop_range', Nat.mul_one, Nat.add_sub_cancel' hstart.le]
  congr 1
  omega

/-- One page of free space. -/
theorem FreeRuns.isPage (h : FreeRuns a space)
    (htotal : a.totalBlocks = sb.totalBlocks)
    (hreserved : a.reservedBlocks = sb.reservedBlocks) (hlimit : 0 < limit)
    (hcursor : ∀ n ∈ cursor, n < U64_LIMIT) :
    ∃ items next, paginateFreeSpaceExtents space sb cursor limit =
        .ok ⟨space.totalFreeBlocks, space.largestExtentBlocks, items, next⟩ ∧
      IsPage id FreeSpaceExtent.cells a.freeData cursor items next := by
  have hlayout := sb.layout
  have hlawful : ∀ extent ∈ space.extents,
      freeExtentKind.Lawful FreeSpaceExtent.cells id extent := by
    intro extent hextent
    have hcount := h.separated.count_pos extent hextent
    -- the last block of a run is a block of the device
    have hlast : extent.startBlock + extent.blockCount - 1 ∈ a.freeData := by
      rw [← h.cells_eq, List.mem_flatMap]
      refine ⟨extent, hextent, ?_⟩
      rw [FreeSpaceExtent.cells, List.mem_range'_1]
      omega
    have hrange := BlockAllocator.mem_freeData.mp hlast
    exact FreeSpaceExtent.lawful hcount (by omega)
  have hafter := after_freeData htotal hreserved hcursor
  rw [← h.cells_eq] at hafter
  obtain ⟨items, next, hpage, his⟩ := ExtentKind.isPage hlawful hlimit hafter
  rw [h.cells_eq] at his
  refine ⟨items, next, ?_, his⟩
  rw [paginateFreeSpaceExtents, hpage]
  rfl

end Runs

/-! ## The queries on a mounted disk -/

section Mounted

variable {d : Disk} {sb : Superblock} {a : BlockAllocator}
  {inodes : List PersistedInode} {entries : List PersistedDirectoryEntry}
  {limit : Nat} {cursor : Option Nat}

/-- `filesystem_free_space_extents` on a mounted disk. -/
theorem Mounted.freeSpace (h : Mounted d sb a inodes entries) :
    ∃ space, filesystemFreeSpaceExtents sb d = (.ok space, d) ∧
      FreeRuns a space := by
  obtain ⟨htotal, hreserved⟩ := h.geometry
  obtain ⟨scan, hscan, hruns⟩ := freeSpaceScan_eq_ok htotal hreserved
  have hgeometry : validateSpaceGeometry sb sb.totalBlocks sb.reservedBlocks =
      .ok () := rejectIf_of_not (by simp)
  have hcount : ¬ scan.totalFreeBlocks ≠ a.freeBlocks := by
    rw [not_ne_iff, ← a.length_freeData]
    exact hruns.total_eq
  refine ⟨_, ?_, hruns⟩
  rw [filesystemFreeSpaceExtents, Effect.bind_of_ok h.recover,
    Effect.query_bind_of_ok h.check, fsckReport,
    Effect.lift_bind_of_ok hgeometry, h.allocator_bind,
    Effect.lift_bind_of_ok hscan,
    Effect.lift_bind_of_ok (a := ()) (rejectIf_of_not hcount)]
  rfl

/-- The pages of free space, as pairs of runs and the next cursor. -/
def freeSpacePages (sb : Superblock) (d : Disk) (limit : Nat)
    (cursor : Option Nat) : Result (List FreeSpaceExtent × Option Nat) :=
  (filesystemFreeSpaceExtentsPage sb cursor limit d).1.map fun page =>
    (page.extents, page.nextAfter)

/-- One page of free space of a mounted disk. -/
theorem Mounted.freeSpacePage (h : Mounted d sb a inodes entries)
    (hlimit : 0 < limit) (hcursor : ∀ n ∈ cursor, n < U64_LIMIT) :
    ∃ page, filesystemFreeSpaceExtentsPage sb cursor limit d = (.ok page, d) ∧
      IsPage id FreeSpaceExtent.cells a.freeData cursor page.extents
        page.nextAfter := by
  obtain ⟨htotal, hreserved⟩ := h.geometry
  obtain ⟨space, hok, hruns⟩ := h.freeSpace
  obtain ⟨items, next, hpage, his⟩ :=
    hruns.isPage htotal hreserved hlimit hcursor
  refine ⟨⟨space.totalFreeBlocks, space.largestExtentBlocks, items, next⟩, ?_,
    his⟩
  rw [filesystemFreeSpaceExtentsPage,
    Effect.lift_bind_of_ok (a := ()) (rejectIf_of_not (by omega)),
    Effect.bind_of_ok hok]
  exact congrArg (·, d) hpage

/-- The pages of a mounted disk are the free blocks behind the cursor. -/
theorem Mounted.freeSpacePages (h : Mounted d sb a inodes entries)
    (hlimit : 0 < limit) (hcursor : ∀ n ∈ cursor, n < U64_LIMIT) :
    ∃ all, Follows (FilesystemLab.freeSpacePages sb d limit) cursor all ∧
      all.flatMap FreeSpaceExtent.cells = after id a.freeData cursor := by
  have hlayout := sb.layout
  have hgeometry := h.geometry
  refine @follows_of_isPage _ _ _ _ _ id a.freeData _ _ _
    (fun c => ∀ n ∈ c, n < U64_LIMIT) a.freeData_sorted ?_ hcursor
  intro c hc
  obtain ⟨page, hok, his⟩ := h.freeSpacePage hlimit hc
  refine ⟨page.extents, page.nextAfter, ?_, his, ?_⟩
  · rw [FilesystemLab.freeSpacePages, hok]
    rfl
  · -- the next cursor is a block of the device
    intro n hn m hm
    rw [Option.mem_def, Option.some.injEq] at hm
    obtain ⟨b, hlast, hb⟩ := his.last n hn
    obtain ⟨rest, hfront, _⟩ := his.front
    have hmem : b ∈ a.freeData := by
      apply (after_sublist id a.freeData c).subset
      rw [← hfront]
      exact List.mem_append_left _ (List.mem_of_getLast? hlast)
    have hrange := BlockAllocator.mem_freeData.mp hmem
    rw [id] at hb
    omega

/-- **The free-space queries agree with the allocator.**  On a device that the
check accepts with an empty journal, the extents are the runs of free blocks of
the allocator; the first fit for any count is where it allocates, and there is
none if the allocation fails; and the pages from any cursor end and are the free
blocks behind it.  Nothing is changed. -/
theorem freeSpaceQueries_agree {report : FsckReport}
    (hsb : readSuperblock d = .ok sb)
    (hjournal : loadJournalImage d sb = .ok [])
    (hcheck : checkDevice d = .ok report) :
    ∃ a, loadAllocator d sb = .ok a ∧
      (∃ space, filesystemFreeSpaceExtents sb d = (.ok space, d) ∧
        FreeRuns a space) ∧
      (∀ blockCount, 0 < blockCount →
        filesystemFirstFitFreeExtent sb blockCount d =
          (.ok (match a.allocateContiguous blockCount with
            | .ok run => some ⟨run.1, blockCount⟩
            | .error _ => none), d)) ∧
      ∀ limit cursor, 0 < limit → (∀ n ∈ cursor, n < U64_LIMIT) →
        (filesystemFreeSpaceExtentsPage sb cursor limit d).2 = d ∧
        ∃ all, Follows (freeSpacePages sb d limit) cursor all ∧
          all.flatMap FreeSpaceExtent.cells = after id a.freeData cursor := by
  obtain ⟨a, inodes, entries, h⟩ := exists_mounted hsb hjournal hcheck
  refine ⟨a, h.allocator, h.freeSpace, ?_, ?_⟩
  · intro blockCount hcount
    obtain ⟨space, hok, hruns⟩ := h.freeSpace
    have hfit := hruns.firstFit hcount
    rw [filesystemFirstFitFreeExtent,
      Effect.lift_bind_of_ok (a := ()) (rejectIf_of_not (by omega)),
      Effect.bind_of_ok hok]
    show (Except.ok _, d) = _
    cases hrun : a.allocateContiguous blockCount with
    | error e =>
      rw [hrun] at hfit
      rw [Option.map_eq_none_iff.mp hfit]
      rfl
    | ok run =>
      rw [hrun] at hfit
      obtain ⟨extent, hfind, hstart⟩ := Option.map_eq_some_iff.mp hfit
      rw [hfind, Option.map_some, hstart]
  · intro limit cursor hlimit hcursor
    obtain ⟨page, hok, _⟩ := h.freeSpacePage hlimit hcursor
    rw [hok]
    exact ⟨rfl, h.freeSpacePages hlimit hcursor⟩

end Mounted

/-- The sample disk has four free blocks, and no five in a row. -/
theorem freeSpaceQueries_agree_filesDisk :
    (∃ space, filesystemFreeSpaceExtents treeSuperblock
        (filesDisk fun _ => Block.zero) =
          (.ok space, filesDisk fun _ => Block.zero) ∧
      FreeRuns filesAllocator space) ∧
    filesystemFirstFitFreeExtent treeSuperblock 4
        (filesDisk fun _ => Block.zero) =
      (.ok (some ⟨12, 4⟩), filesDisk fun _ => Block.zero) ∧
    filesystemFirstFitFreeExtent treeSuperblock 5
        (filesDisk fun _ => Block.zero) =
      (.ok none, filesDisk fun _ => Block.zero) ∧
    ∃ all, Follows (freeSpacePages treeSuperblock
        (filesDisk fun _ => Block.zero) 1) (some 13) all ∧
      all.flatMap FreeSpaceExtent.cells = [14, 15] := by
  have h := mounted_filesDisk fun _ => Block.zero
  obtain ⟨a, hload, hspace, hfit, hpages⟩ :=
    freeSpaceQueries_agree h.superblock h.journal h.check
  rw [h.allocator, Except.ok.injEq] at hload
  subst hload
  refine ⟨hspace, ?_, ?_, ?_⟩
  · rw [hfit 4 (by decide)]
    rfl
  · rw [hfit 5 (by decide)]
    rfl
  · exact (hpages 1 (some 13) (by decide) (by
      intro n hn
      rw [Option.mem_def, Option.some.injEq] at hn
      rw [← hn]
      decide)).2

end FilesystemLab
