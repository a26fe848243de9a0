import FilesystemLab.ExtentPaging
import Mathlib.Data.List.Infix

/-!
# The extents of a file

`path_file_extents.rs`: the block vector of a file as runs of neighbouring
blocks, and pages of them.

`coalesceExtents_eq_ok` says that the runs are the block vector, in order, and
that none of them could be longer.  Pages lose and repeat nothing for almost all
cursors: the last `usize` has no successor, and the page of this cursor starts at
the front again (`paginateExtents_exact_iff`).
-/

namespace FilesystemLab

open Pages

/-! ## The functions -/

/-- `FileExtent`. -/
structure FileExtent where
  logicalStart : Nat
  physicalStart : Nat
  blockCount : Nat
deriving DecidableEq, Repr

/-- `FileExtentPage`. -/
structure FileExtentPage where
  extents : List FileExtent
  nextAfterLogical : Option Nat
deriving DecidableEq, Repr

/-- `push_extent`: the extent that it pushes. -/
def pushFileExtent (logicalStart physicalStart logicalEnd : Nat) :
    Result FileExtent := do
  let blockCount ← okOr
    ((checkedSub logicalEnd logicalStart).filter (0 < ·))
    (invalidData "invalid file extent bounds")
  pure ⟨logicalStart, physicalStart, blockCount⟩

/-- The loop of `coalesce_extents`, at the logical index `index`. -/
def coalesceFrom (logicalStart physicalStart previous index : Nat) :
    List UInt64 → Result (List FileExtent)
  | [] => do
    let extent ← pushFileExtent logicalStart physicalStart index
    pure [extent]
  | block :: blocks =>
    if checkedAdd previous 1 = some block.toNat then
      coalesceFrom logicalStart physicalStart block.toNat (index + 1) blocks
    else do
      let extent ← pushFileExtent logicalStart physicalStart index
      let extents ← coalesceFrom index block.toNat block.toNat (index + 1) blocks
      pure (extent :: extents)

/-- `coalesce_extents`. -/
def coalesceExtents : List UInt64 → Result (List FileExtent)
  | [] => pure []
  | block :: blocks => coalesceFrom 0 block.toNat block.toNat 1 blocks

/-- What `paginate_extents` does with one extent. -/
def fileExtentKind : ExtentKind FileExtent where
  start := FileExtent.logicalStart
  count := FileExtent.blockCount
  clip firstLogical extent := do
    -- `u64::try_from(skipped)` does not fail: a `usize` has 64 bits
    let skipped := firstLogical - extent.logicalStart
    let physicalStart ← okOr (checkedAdd extent.physicalStart skipped)
      (invalidData "file extent physical cursor overflow")
    pure ⟨firstLogical, physicalStart, extent.blockCount - skipped⟩
  limitZero := "pathname extent page limit must be greater than zero"
  endOverflow := "file extent logical end overflow"
  lostFinal := "extent pagination lost its final entry"

/-- `paginate_extents`. -/
def paginateExtents (extents : List FileExtent) (afterLogical : Option Nat)
    (limit : Nat) : Result FileExtentPage := do
  let page ← fileExtentKind.page extents
    ((afterLogical.bind (checkedAdd · 1)).getD 0) limit
  pure ⟨page.1, page.2⟩

/-! ## What extents stand for -/

/-- The blocks of an extent, with their logical indices. -/
def FileExtent.cells (extent : FileExtent) : List (Nat × Nat) :=
  (List.range' extent.logicalStart extent.blockCount).zip
    (List.range' extent.physicalStart extent.blockCount)

/-- The blocks of a block vector, with their logical indices from `start` on. -/
def logicalBlocks (start : Nat) (blocks : List UInt64) : List (Nat × Nat) :=
  (List.range' start blocks.length).zip (blocks.map UInt64.toNat)

/-- The extents are the block vector in logical order, and no two neighbours
could be one extent. -/
structure Coalesces (blocks : List UInt64) (extents : List FileExtent) :
    Prop where
  cells_eq : extents.flatMap FileExtent.cells = logicalBlocks 0 blocks
  count_pos : ∀ extent ∈ extents, 0 < extent.blockCount
  apart : extents.IsChain fun left right =>
    right.physicalStart ≠ left.physicalStart + left.blockCount

/-- The extent is inside the first `stop` logical blocks, and its blocks are
`u64`s. -/
structure FileExtent.Within (stop : Nat) (extent : FileExtent) : Prop where
  count_pos : 0 < extent.blockCount
  logical_le : extent.logicalStart + extent.blockCount ≤ stop
  physical_le : extent.physicalStart + extent.blockCount ≤ U64_LIMIT

/-! ## Coalescing -/

section Coalesce

variable {logicalStart physicalStart previous index stop : Nat}
  {blocks : List UInt64}

theorem logicalBlocks_cons (start : Nat) (block : UInt64)
    (blocks : List UInt64) :
    logicalBlocks start (block :: blocks) =
      (start, block.toNat) :: logicalBlocks (start + 1) blocks := by
  rw [logicalBlocks, List.length_cons, List.range'_succ, List.map_cons,
    List.zip_cons_cons]
  rfl

theorem map_fst_logicalBlocks (start : Nat) (blocks : List UInt64) :
    (logicalBlocks start blocks).map Prod.fst =
      List.range' start blocks.length := by
  apply List.map_fst_zip
  rw [List.length_range', List.length_map]

theorem length_logicalBlocks (start : Nat) (blocks : List UInt64) :
    (logicalBlocks start blocks).length = blocks.length := by
  rw [← List.length_map Prod.fst, map_fst_logicalBlocks, List.length_range']

theorem FileExtent.map_fst_cells (extent : FileExtent) :
    extent.cells.map Prod.fst =
      List.range' extent.logicalStart extent.blockCount := by
  apply List.map_fst_zip
  rw [List.length_range', List.length_range']

/-- An extent that is longer by one block. -/
theorem FileExtent.cells_succ (logicalStart physicalStart count : Nat) :
    FileExtent.cells ⟨logicalStart, physicalStart, count + 1⟩ =
      FileExtent.cells ⟨logicalStart, physicalStart, count⟩ ++
        [(logicalStart + count, physicalStart + count)] := by
  rw [FileExtent.cells, List.range'_1_concat, List.range'_1_concat,
    List.zip_append (by rw [List.length_range', List.length_range'])]
  rfl

theorem pushFileExtent_eq (h : logicalStart < index) :
    pushFileExtent logicalStart physicalStart index =
      .ok ⟨logicalStart, physicalStart, index - logicalStart⟩ := by
  have hfilter : (checkedSub index logicalStart).filter (0 < ·) =
      some (index - logicalStart) := by
    rw [checkedSub, if_pos h.le, Option.filter_some,
      if_pos (by rw [decide_eq_true_eq]; omega)]
  rw [pushFileExtent, hfilter]
  rfl

/-- The test of `coalesce_extents` for a neighbour. -/
theorem checkedAdd_eq_block {block : UInt64} :
    checkedAdd previous 1 = some block.toNat ↔
      previous + 1 = block.toNat := by
  have hlt : block.toNat < U64_LIMIT := block.toNat_lt
  rw [checkedAdd_eq_some]
  omega

/-- The loop inside the run that starts at `logicalStart`. -/
theorem coalesceFrom_eq_ok (blocks : List UInt64)
    (logicalStart physicalStart previous index : Nat)
    (hindex : logicalStart < index)
    (hprevious : previous + 1 = physicalStart + (index - logicalStart))
    (hlt : previous < U64_LIMIT) :
    ∃ count extents, coalesceFrom logicalStart physicalStart previous index
        blocks = .ok (⟨logicalStart, physicalStart, count⟩ :: extents) ∧
      (∀ extent ∈ ⟨logicalStart, physicalStart, count⟩ :: extents,
        extent.Within (index + blocks.length)) ∧
      (⟨logicalStart, physicalStart, count⟩ :: extents).flatMap
          FileExtent.cells =
        FileExtent.cells
          ⟨logicalStart, physicalStart, index - logicalStart⟩ ++
            logicalBlocks index blocks ∧
      List.IsChain (fun left right : FileExtent =>
          right.physicalStart ≠ left.physicalStart + left.blockCount)
        (⟨logicalStart, physicalStart, count⟩ :: extents) := by
  induction blocks generalizing logicalStart physicalStart previous index with
  | nil =>
    refine ⟨index - logicalStart, [], ?_, ?_, ?_, List.isChain_singleton _⟩
    · rw [coalesceFrom, pushFileExtent_eq hindex]
      rfl
    · rw [List.forall_mem_singleton]
      refine ⟨?_, ?_, ?_⟩
      · show 0 < index - logicalStart
        omega
      · show logicalStart + (index - logicalStart) ≤ index
        omega
      · show physicalStart + (index - logicalStart) ≤ U64_LIMIT
        omega
    · rw [List.flatMap_singleton]
      exact (List.append_nil _).symm
  | cons block blocks ih =>
    have hblock : block.toNat < U64_LIMIT := block.toNat_lt
    rw [coalesceFrom]
    by_cases hnext : previous + 1 = block.toNat
    · -- the block is in the run
      rw [if_pos (checkedAdd_eq_block.mpr hnext)]
      obtain ⟨count, extents, hok, hwithin, hcells, hchain⟩ :=
        ih logicalStart physicalStart block.toNat (index + 1) (by omega)
          (by omega) hblock
      refine ⟨count, extents, hok, ?_, ?_, hchain⟩
      · rw [List.length_cons, Nat.add_comm blocks.length, ← Nat.add_assoc]
        exact hwithin
      · rw [hcells, logicalBlocks_cons,
          show index + 1 - logicalStart = index - logicalStart + 1 by omega,
          FileExtent.cells_succ, List.append_assoc, List.singleton_append,
          Nat.add_sub_cancel' hindex.le, ← hnext, hprevious]
    · -- the run ends, and the block starts the next
      rw [if_neg (fun heq => hnext (checkedAdd_eq_block.mp heq)),
        pushFileExtent_eq hindex, Except.ok_bind]
      obtain ⟨count, extents, hok, hwithin, hcells, hchain⟩ :=
        ih index block.toNat block.toNat (index + 1) (by omega) (by omega)
          hblock
      refine ⟨index - logicalStart, ⟨index, block.toNat, count⟩ :: extents, ?_,
        ?_, ?_, ?_⟩
      · rw [hok]
        rfl
      · rw [List.forall_mem_cons]
        refine ⟨⟨?_, ?_, ?_⟩, ?_⟩
        · show 0 < index - logicalStart
          omega
        · show logicalStart + (index - logicalStart) ≤ _
          omega
        · show physicalStart + (index - logicalStart) ≤ U64_LIMIT
          omega
        · rw [List.length_cons, Nat.add_comm blocks.length, ← Nat.add_assoc]
          exact hwithin
      · rw [List.flatMap_cons, hcells, logicalBlocks_cons,
          Nat.add_sub_cancel_left]
        rfl
      · rw [List.isChain_cons_cons]
        refine ⟨?_, hchain⟩
        show block.toNat ≠ physicalStart + (index - logicalStart)
        omega

/-- **The extents of a block vector are the block vector**, and none of them
could be longer. -/
theorem coalesceExtents_eq_ok (blocks : List UInt64) :
    ∃ extents, coalesceExtents blocks = .ok extents ∧
      Coalesces blocks extents ∧
      ∀ extent ∈ extents, extent.Within blocks.length := by
  cases blocks with
  | nil =>
    exact ⟨[], rfl, ⟨rfl, List.forall_mem_nil _, List.isChain_nil⟩,
      List.forall_mem_nil _⟩
  | cons block blocks =>
    obtain ⟨count, extents, hok, hwithin, hcells, hchain⟩ :=
      coalesceFrom_eq_ok blocks 0 block.toNat block.toNat 1 (by omega) rfl
        block.toNat_lt
    rw [Nat.add_comm] at hwithin
    refine ⟨_, hok, ⟨?_, fun extent hextent => (hwithin extent hextent).count_pos,
      hchain⟩, hwithin⟩
    rw [hcells, logicalBlocks_cons]
    rfl

end Coalesce

/-! ## Pages -/

/-- The pages of a file's extents, as pairs of extents and the next cursor. -/
def fileExtentPages (extents : List FileExtent) (limit : Nat)
    (cursor : Option Nat) : Result (List FileExtent × Option Nat) :=
  (paginateExtents extents cursor limit).map fun page =>
    (page.extents, page.nextAfterLogical)

/-- From the cursor on, the pages lose and repeat nothing: the first is a front
of the blocks behind the cursor, and all of them together are these blocks. -/
structure PagesExact (blocks : List UInt64) (extents : List FileExtent)
    (limit : Nat) (cursor : Option Nat) : Prop where
  page : ∃ page, paginateExtents extents cursor limit = .ok page ∧
    page.extents.flatMap FileExtent.cells <+:
      after Prod.fst (logicalBlocks 0 blocks) cursor ∧
    (page.nextAfterLogical = none ↔
      page.extents.flatMap FileExtent.cells =
        after Prod.fst (logicalBlocks 0 blocks) cursor)
  follows : ∃ all, Follows (fileExtentPages extents limit) cursor all ∧
    all.flatMap FileExtent.cells =
      after Prod.fst (logicalBlocks 0 blocks) cursor

section Paging

variable {blocks : List UInt64} {extents : List FileExtent}
  {extent : FileExtent} {stop limit : Nat} {cursor : Option Nat}

/-- The extents of a file can be clipped. -/
theorem FileExtent.Within.lawful (h : extent.Within stop)
    (hstop : stop < U64_LIMIT) :
    fileExtentKind.Lawful FileExtent.cells Prod.fst extent := by
  have hlogical := h.logical_le
  refine ⟨⟨extent.map_fst_cells, h.count_pos, hlogical.trans_lt hstop⟩, ?_⟩
  intro first hstart hend
  have hstart : extent.logicalStart < first := hstart
  have hend : first < extent.logicalStart + extent.blockCount := hend
  have hphysical := h.physical_le
  have hadd : checkedAdd extent.physicalStart (first - extent.logicalStart) =
      some (extent.physicalStart + (first - extent.logicalStart)) := by
    rw [checkedAdd_eq_some]
    omega
  refine ⟨⟨first, extent.physicalStart + (first - extent.logicalStart),
    extent.blockCount - (first - extent.logicalStart)⟩, ?_, rfl, ?_, ?_⟩
  · show (okOr (checkedAdd _ (first - extent.logicalStart)) _ >>= _) = _
    rw [hadd]
    rfl
  · show extent.blockCount - (first - extent.logicalStart) =
      extent.logicalStart + extent.blockCount - first
    omega
  · show (List.range' first _).zip (List.range' _ _) =
      ((List.range' _ _).zip (List.range' _ _)).drop _
    rw [List.zip_eq_zipWith, List.zip_eq_zipWith, List.drop_zipWith,
      List.drop_range', List.drop_range', Nat.mul_one,
      show extent.logicalStart + (first - fileExtentKind.start extent) = first
        from Nat.add_sub_cancel' hstart.le]
    rfl

/-- The logical blocks are in order. -/
theorem logicalBlocks_sorted (blocks : List UInt64) :
    (logicalBlocks 0 blocks).Pairwise fun left right => left.1 < right.1 := by
  rw [← List.pairwise_map, map_fst_logicalBlocks]
  exact List.pairwise_lt_range'

theorem lt_of_mem_logicalBlocks {cell : Nat × Nat}
    (h : cell ∈ logicalBlocks 0 blocks) : cell.1 < blocks.length := by
  have hmem : cell.1 ∈ List.range' 0 blocks.length := by
    rw [← map_fst_logicalBlocks]
    exact List.mem_map_of_mem h
  rw [List.mem_range'_1] at hmem
  omega

/-- The page from the first logical index that the code computes. -/
theorem Coalesces.isPage (h : Coalesces blocks extents)
    (hwithin : ∀ extent ∈ extents, extent.Within blocks.length)
    (hlen : blocks.length < U64_LIMIT) (hlimit : 0 < limit)
    (cursor c : Option Nat) (hc : after Prod.fst (logicalBlocks 0 blocks) c =
      (logicalBlocks 0 blocks).filter fun cell =>
        (cursor.bind (checkedAdd · 1)).getD 0 ≤ cell.1) :
    ∃ items next, paginateExtents extents cursor limit = .ok ⟨items, next⟩ ∧
      IsPage Prod.fst FileExtent.cells (logicalBlocks 0 blocks) c items next := by
  rw [← h.cells_eq] at hc
  obtain ⟨items, next, hpage, his⟩ := ExtentKind.isPage
    (fun extent hextent => (hwithin extent hextent).lawful hlen) hlimit hc
  rw [h.cells_eq] at his
  refine ⟨items, next, ?_, his⟩
  rw [paginateExtents, hpage]
  rfl

/-- The cursor has a successor, or there is nothing to read. -/
def CursorFits (blocks : List UInt64) (cursor : Option Nat) : Prop :=
  cursor ≠ some (U64_LIMIT - 1) ∨ blocks = []

/-- The code finds the first index behind such a cursor. -/
theorem CursorFits.after_eq (h : CursorFits blocks cursor)
    (hcursor : ∀ n ∈ cursor, n < U64_LIMIT) :
    after Prod.fst (logicalBlocks 0 blocks) cursor =
      (logicalBlocks 0 blocks).filter fun cell =>
        (cursor.bind (checkedAdd · 1)).getD 0 ≤ cell.1 := by
  rcases h with hnot | rfl
  · cases cursor with
    | none =>
      show logicalBlocks 0 blocks = _
      rw [List.filter_eq_self.mpr]
      intro cell _
      rw [decide_eq_true_eq]
      exact Nat.zero_le _
    | some n =>
      have hn := hcursor n rfl
      have hlast : n ≠ U64_LIMIT - 1 := fun heq => hnot (congrArg some heq)
      rw [Option.bind_some, checkedAdd_eq_some.mpr ⟨by omega, rfl⟩,
        Option.getD_some, after_some]
      rfl
  · cases cursor with
    | none => rfl
    | some n => rfl

/-- Such cursors give exact pages. -/
theorem Coalesces.pagesExact (h : Coalesces blocks extents)
    (hwithin : ∀ extent ∈ extents, extent.Within blocks.length)
    (hlen : blocks.length < U64_LIMIT) (hlimit : 0 < limit)
    (hcursor : ∀ n ∈ cursor, n < U64_LIMIT) (hfits : CursorFits blocks cursor) :
    PagesExact blocks extents limit cursor := by
  constructor
  · obtain ⟨items, next, hpage, his⟩ :=
      h.isPage hwithin hlen hlimit _ _ (hfits.after_eq hcursor)
    obtain ⟨rest, hfront, hnone⟩ := his.front
    refine ⟨_, hpage, ⟨rest, hfront⟩, ?_⟩
    rw [hnone, ← hfront, List.self_eq_append_right]
  · have hgood : CursorFits blocks cursor ∧ ∀ n ∈ cursor, n < U64_LIMIT :=
      ⟨hfits, hcursor⟩
    refine @follows_of_isPage _ _ _ _ _ Prod.fst (logicalBlocks 0 blocks) _ _ _
      (fun c => CursorFits blocks c ∧ ∀ n ∈ c, n < U64_LIMIT)
      (logicalBlocks_sorted blocks) ?_ hgood
    intro c hgood
    obtain ⟨items, next, hpage, his⟩ :=
      h.isPage hwithin hlen hlimit _ _ (hgood.1.after_eq hgood.2)
    refine ⟨items, next, ?_, his, ?_⟩
    · rw [fileExtentPages, hpage]
      rfl
    · -- the next cursor is the index of a block
      intro n hn
      obtain ⟨cell, hlast, rfl⟩ := his.last n hn
      obtain ⟨rest, hfront, _⟩ := his.front
      have hmem : cell ∈ logicalBlocks 0 blocks := by
        apply (after_sublist Prod.fst (logicalBlocks 0 blocks) c).subset
        rw [← hfront]
        exact List.mem_append_left _ (List.mem_of_getLast? hlast)
      have hlt := lt_of_mem_logicalBlocks hmem
      constructor
      · left
        intro heq
        rw [Option.some.injEq] at heq
        omega
      · intro m hm
        rw [Option.mem_def, Option.some.injEq] at hm
        omega

/-- The last `usize` is behind every block, but its page is not empty. -/
theorem Coalesces.not_pagesExact (h : Coalesces blocks extents)
    (hwithin : ∀ extent ∈ extents, extent.Within blocks.length)
    (hlen : blocks.length < U64_LIMIT) (hlimit : 0 < limit)
    (hsome : blocks ≠ []) :
    ¬ PagesExact blocks extents limit (some (U64_LIMIT - 1)) := by
  intro hexact
  have hnone : after Prod.fst (logicalBlocks 0 blocks) (some (U64_LIMIT - 1)) =
      [] := by
    rw [after_some, List.filter_eq_nil_iff]
    intro cell hcell
    have hlt := lt_of_mem_logicalBlocks hcell
    rw [decide_eq_true_eq]
    omega
  -- the code restarts at the front
  have hfirst : ((some (U64_LIMIT - 1)).bind (checkedAdd · 1)).getD 0 = 0 := by
    decide
  have hfront : CursorFits blocks none := .inl (Option.some_ne_none _).symm
  obtain ⟨items, next, hpage, his⟩ := h.isPage hwithin hlen hlimit
    (some (U64_LIMIT - 1)) none (by
      rw [hfirst]
      exact hfront.after_eq fun _ hn => nomatch hn)
  obtain ⟨page, hok, hstart, _⟩ := hexact.page
  rw [hpage, Except.ok.injEq] at hok
  subst hok
  rw [hnone, List.prefix_nil] at hstart
  obtain ⟨rest, hfront, hnext⟩ := his.front
  have hrest : rest ≠ [] := by
    intro hnil
    rw [hstart, hnil] at hfront
    have hlength := congrArg List.length hfront
    rw [after_none, length_logicalBlocks] at hlength
    exact hsome (List.length_eq_zero_iff.mp hlength.symm)
  cases next with
  | none => exact hrest (hnext.mp rfl)
  | some n =>
    obtain ⟨cell, hlast, _⟩ := his.last n rfl
    rw [hstart] at hlast
    cases hlast

end Paging

/-- **The extents of a file are exact, and so are their pages for every cursor
but one.**  The cursor `usize::MAX` has no successor, and its page starts at the
front of the file again. -/
theorem paginateExtents_exact_iff {blocks : List UInt64} {limit : Nat}
    {cursor : Option Nat} (hlen : blocks.length < U64_LIMIT)
    (hlimit : 0 < limit) (hcursor : ∀ n ∈ cursor, n < U64_LIMIT) :
    ∃ extents, coalesceExtents blocks = .ok extents ∧
      Coalesces blocks extents ∧
      (PagesExact blocks extents limit cursor ↔
        cursor ≠ some (U64_LIMIT - 1) ∨ blocks = []) := by
  obtain ⟨extents, hok, h, hwithin⟩ := coalesceExtents_eq_ok blocks
  refine ⟨extents, hok, h, ?_, h.pagesExact hwithin hlen hlimit hcursor⟩
  intro hexact
  by_contra hcontra
  rw [not_or, not_ne_iff] at hcontra
  rcases hcontra with ⟨rfl, hsome⟩
  exact h.not_pagesExact hwithin hlen hlimit hsome hexact

theorem paginateExtents_exact_iff_sample :
    ∃ extents, coalesceExtents [20, 21, 40] = .ok extents ∧
      Coalesces [20, 21, 40] extents ∧
      PagesExact [20, 21, 40] extents 1 (some 0) := by
  obtain ⟨extents, hok, h, hiff⟩ := @paginateExtents_exact_iff [20, 21, 40] 1
    (some 0) (by decide) (by decide) (by
      intro n hn
      rw [Option.mem_def, Option.some.injEq] at hn
      rw [← hn]
      decide)
  refine ⟨extents, hok, h, hiff.mpr (.inl ?_)⟩
  intro heq
  rw [Option.some.injEq] at heq
  exact absurd heq (by decide)

/-- The page behind the last `usize` holds the first extent of the file. -/
theorem paginateExtents_restarts :
    ∃ extents, coalesceExtents [20, 21, 40] = .ok extents ∧
      paginateExtents extents (some (U64_LIMIT - 1)) 1 =
        .ok ⟨[⟨0, 20, 2⟩], some 1⟩ ∧
      ¬ PagesExact [20, 21, 40] extents 1 (some (U64_LIMIT - 1)) := by
  obtain ⟨extents, hok, h, hwithin⟩ := coalesceExtents_eq_ok [20, 21, 40]
  refine ⟨extents, hok, ?_, h.not_pagesExact hwithin (by decide) (by decide)
    (List.cons_ne_nil _ _)⟩
  have hextents : coalesceExtents [20, 21, 40] =
      .ok [⟨0, 20, 2⟩, ⟨2, 40, 1⟩] := by decide
  rw [hok, Except.ok.injEq] at hextents
  rw [hextents]
  decide

end FilesystemLab
