import FilesystemLab.Block
import FilesystemLab.Lib.Pages
import Mathlib.Data.List.Range

/-!
# Pages of extents

The extents of a file and the extents of free space are read in pages by two
functions that differ in where an extent starts, in how it is clipped, and in
their messages.  An `ExtentKind` has these, and `ExtentKind.page` is what the two
functions have in common: the extents that end behind the cursor, cut to the
limit.

`ExtentKind.isPage` says that the result is a page of the cells of the extents,
if the extents are `Lawful`.
-/

namespace FilesystemLab

open Pages

/-- What a page function knows of its extents. -/
structure ExtentKind (E : Type) where
  start : E → Nat
  count : E → Nat
  /-- The part of an extent from a position inside it on. -/
  clip : Nat → E → Result E
  limitZero : String
  endOverflow : String
  lostFinal : String

namespace ExtentKind

section Page

variable {E : Type} (k : ExtentKind E)

/-- The loop over the extents: those that end behind `first`, the first of them
clipped. -/
def eligible (first : Nat) : List E → Result (List E)
  | [] => pure []
  | extent :: extents => do
    let stop ← okOr (checkedAdd (k.start extent) (k.count extent))
      (invalidData k.endOverflow)
    if stop ≤ first then eligible first extents
    else do
      let kept ← if k.start extent < first then k.clip first extent
        else pure extent
      let rest ← eligible first extents
      pure (kept :: rest)

/-- The first `limit` extents behind `first`, and the last position in them if
there are more. -/
def page (extents : List E) (first limit : Nat) :
    Result (List E × Option Nat) := do
  rejectIf (limit = 0) (invalidInput k.limitZero)
  let eligible ← k.eligible first extents
  if eligible.length > limit then do
    let last ← okOr (eligible.take limit).getLast? (invalidData k.lostFinal)
    pure (eligible.take limit,
      (checkedAdd (k.start last) (k.count last)).bind (checkedSub · 1))
  else pure (eligible.take limit, none)

end Page

/-! ## Extents and their cells -/

section Lawful

variable {E β : Type} {k : ExtentKind E} {cells : E → List β} {pos : β → Nat}
  {extent : E} {extents : List E} {first limit : Nat} {c : Option Nat}

/-- The cells of an extent are at its positions. -/
structure Spans (k : ExtentKind E) (cells : E → List β) (pos : β → Nat)
    (extent : E) : Prop where
  positions : (cells extent).map pos =
    List.range' (k.start extent) (k.count extent)
  count_pos : 0 < k.count extent
  stop_lt : k.start extent + k.count extent < U64_LIMIT

/-- An extent with its cells, also where it is clipped. -/
structure Lawful (k : ExtentKind E) (cells : E → List β) (pos : β → Nat)
    (extent : E) : Prop extends Spans k cells pos extent where
  clip_eq : ∀ first, k.start extent < first →
    first < k.start extent + k.count extent →
    ∃ kept, k.clip first extent = .ok kept ∧ k.start kept = first ∧
      k.count kept = k.start extent + k.count extent - first ∧
      cells kept = (cells extent).drop (first - k.start extent)

theorem Spans.cells_ne_nil (h : k.Spans cells pos extent) :
    cells extent ≠ [] := by
  intro hnil
  have hlength := congrArg List.length h.positions
  have hcount := h.count_pos
  rw [hnil, List.length_map, List.length_range', List.length_nil] at hlength
  omega

/-- Where the last cell of an extent is. -/
theorem Spans.last (h : k.Spans cells pos extent) :
    ∃ x, (cells extent).getLast? = some x ∧
      pos x = k.start extent + k.count extent - 1 := by
  have hcount := h.count_pos
  have hlast := List.getLast?_eq_some_getLast h.cells_ne_nil
  refine ⟨_, hlast, ?_⟩
  have hmap := congrArg (Option.map pos) hlast
  rw [← List.getLast?_map, h.positions, List.getLast?_range',
    if_neg (by omega), Option.map_some, Option.some.injEq] at hmap
  exact hmap.symm

/-- In cells at consecutive positions, those from a position on are the last. -/
theorem filter_positions {xs : List β} {start count : Nat}
    (hpos : xs.map pos = List.range' start count) (first : Nat) :
    xs.filter (fun x => first ≤ pos x) = xs.drop (first - start) := by
  induction xs generalizing start count with
  | nil => rw [List.drop_nil, List.filter_nil]
  | cons x xs ih =>
    cases count with
    | zero => cases hpos
    | succ count =>
      rw [List.map_cons, List.range'_succ, List.cons.injEq] at hpos
      rcases hpos with ⟨rfl, hrest⟩
      by_cases hle : first ≤ pos x
      · rw [List.filter_cons_of_pos (by rw [decide_eq_true_eq]; exact hle),
          ih hrest, Nat.sub_eq_zero_of_le hle,
          Nat.sub_eq_zero_of_le (by omega), List.drop_zero, List.drop_zero]
      · rw [List.filter_cons_of_neg (by rw [decide_eq_true_eq]; exact hle),
          ih hrest, show first - pos x = first - (pos x + 1) + 1 by omega,
          List.drop_succ_cons]

/-- What the loop does with one extent. -/
theorem Lawful.eligible_cons (h : k.Lawful cells pos extent) (first : Nat)
    {kept : List E} (hkept : k.eligible first extents = .ok kept) :
    ∃ head, k.eligible first (extent :: extents) = .ok (head ++ kept) ∧
      (∀ other ∈ head, k.Spans cells pos other) ∧
      head.flatMap cells = (cells extent).filter fun x => first ≤ pos x := by
  have hcount := h.count_pos
  have hadd : checkedAdd (k.start extent) (k.count extent) =
      some (k.start extent + k.count extent) := by
    rw [checkedAdd_eq_some]
    exact ⟨h.stop_lt, rfl⟩
  rw [eligible, hadd, okOr_some, Except.ok_bind, filter_positions h.positions]
  have hlength : (cells extent).length = k.count extent := by
    rw [← List.length_map (f := pos), h.positions, List.length_range']
  split
  · refine ⟨[], hkept, List.forall_mem_nil _, ?_⟩
    rw [List.flatMap_nil, List.drop_of_length_le (by omega)]
  · rename_i hstop
    by_cases hclip : k.start extent < first
    · obtain ⟨part, hpart, hstart, hpartCount, hcells⟩ :=
        h.clip_eq first hclip (not_le.mp hstop)
      refine ⟨[part], ?_, ?_, ?_⟩
      · rw [if_pos hclip, hpart, Except.ok_bind, hkept]
        rfl
      · rw [List.forall_mem_singleton]
        refine ⟨?_, by omega, ?_⟩
        · rw [hcells, List.map_drop, h.positions, List.drop_range', hstart,
            hpartCount]
          congr 1
          · omega
          · omega
        · have hlt := h.stop_lt
          omega
      · rw [List.flatMap_singleton, hcells]
    · refine ⟨[extent], ?_, ?_, ?_⟩
      · rw [if_neg hclip, Except.pure_eq_ok, Except.ok_bind, hkept]
        rfl
      · rw [List.forall_mem_singleton]
        exact h.toSpans
      · rw [List.flatMap_singleton, Nat.sub_eq_zero_of_le (not_lt.mp hclip),
          List.drop_zero]

/-- The loop keeps the cells behind the cursor. -/
theorem eligible_eq_ok (h : ∀ extent ∈ extents, k.Lawful cells pos extent)
    (first : Nat) :
    ∃ kept, k.eligible first extents = .ok kept ∧
      (∀ extent ∈ kept, k.Spans cells pos extent) ∧
      kept.flatMap cells =
        (extents.flatMap cells).filter fun x => first ≤ pos x := by
  induction extents with
  | nil => exact ⟨[], rfl, List.forall_mem_nil _, rfl⟩
  | cons extent extents ih =>
    rw [List.forall_mem_cons] at h
    obtain ⟨kept, hkept, hspans, hcells⟩ := ih h.2
    obtain ⟨head, hok, hheadSpans, hheadCells⟩ := h.1.eligible_cons first hkept
    refine ⟨head ++ kept, hok, ?_, ?_⟩
    · intro other hother
      cases List.mem_append.mp hother with
      | inl hmem => exact hheadSpans other hmem
      | inr hmem => exact hspans other hmem
    · rw [List.flatMap_append, List.flatMap_cons, List.filter_append,
        hheadCells, hcells]

/-- **The common part of the two page functions gives a page** of the cells of
the extents. -/
theorem isPage (h : ∀ extent ∈ extents, k.Lawful cells pos extent)
    (hlimit : 0 < limit)
    (hfirst : after pos (extents.flatMap cells) c =
      (extents.flatMap cells).filter fun x => first ≤ pos x) :
    ∃ items next, k.page extents first limit = .ok (items, next) ∧
      IsPage pos cells (extents.flatMap cells) c items next := by
  obtain ⟨kept, hkept, hspans, hcells⟩ := eligible_eq_ok h first
  have hfront : (kept.take limit).flatMap cells ++
      (kept.drop limit).flatMap cells = after pos (extents.flatMap cells) c := by
    rw [← List.flatMap_append, List.take_append_drop, hcells, hfirst]
  rw [page, rejectIf_of_not (by omega), Except.ok_bind, hkept, Except.ok_bind]
  by_cases hmore : kept.length > limit
  · have hnonempty : kept.take limit ≠ [] := by
      rw [← List.length_pos_iff, List.length_take]
      omega
    have hlast := List.getLast?_eq_some_getLast hnonempty
    have hspan := hspans _ (List.mem_of_mem_take (List.getLast_mem hnonempty))
    obtain ⟨x, hx, hposition⟩ := hspan.last
    have hnext : (checkedAdd (k.start ((kept.take limit).getLast hnonempty))
        (k.count ((kept.take limit).getLast hnonempty))).bind (checkedSub · 1) =
          some (pos x) := by
      have hcount := hspan.count_pos
      rw [checkedAdd_eq_some.mpr ⟨hspan.stop_lt, rfl⟩, Option.bind_some,
        checkedSub, if_pos (by omega), hposition]
    rw [if_pos hmore, hlast, okOr_some, Except.ok_bind, Except.pure_eq_ok, hnext]
    refine ⟨_, _, rfl, ⟨_, hfront, ?_⟩, ?_⟩
    · -- the next extent has a cell
      have hleft : kept.drop limit ≠ [] := by
        rw [← List.length_pos_iff, List.length_drop]
        omega
      obtain ⟨extent, hextent⟩ := List.exists_mem_of_ne_nil _ hleft
      have hcells := (hspans extent (List.mem_of_mem_drop hextent)).cells_ne_nil
      constructor
      · intro hnone
        cases hnone
      · intro hnil
        exact absurd (List.flatMap_eq_nil_iff.mp hnil extent hextent) hcells
    · intro n hn
      rw [Option.mem_def, Option.some.injEq] at hn
      refine ⟨x, ?_, hn⟩
      rw [← List.dropLast_append_getLast hnonempty, List.flatMap_append,
        List.flatMap_singleton, List.getLast?_append_of_ne_nil _
          hspan.cells_ne_nil]
      exact hx
  · rw [if_neg hmore]
    refine ⟨_, _, rfl, ⟨_, hfront, ?_⟩, ?_⟩
    · rw [List.drop_of_length_le (not_lt.mp hmore)]
      exact ⟨fun _ => rfl, fun _ => rfl⟩
    · intro n hn
      cases hn

end Lawful

end ExtentKind

end FilesystemLab
