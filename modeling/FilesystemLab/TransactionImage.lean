import FilesystemLab.Recovery
import FilesystemLab.Region
import FilesystemLab.Transaction

/-!
# Images of a transaction

`src/transaction_image.rs` and the body that the journaled stores of the crate
share.  The wanted tables are rendered into an in-memory device; the blocks that
differ from the home blocks become one journal transaction, which is published,
replayed and, in some of the stores, checkpointed.

`ImageStore.collect_eq` says what is collected: the rendered blocks that differ.
`publishChanges_cases` says what publishing them does to a disk.
-/

namespace FilesystemLab

open Bytes WriteLog

/-! ## The capture device -/

/-- `CaptureDevice`. -/
structure CaptureDevice where
  count : Nat
  blocks : Std.TreeMap Nat Block

instance : BlockDevice CaptureDevice where
  blockCount capture := capture.count
  readBlock capture block :=
    if block ≥ capture.count then
      .error ⟨.unexpectedEof, "capture-device read is out of range"⟩
    else .ok (capture.blocks[block]?.getD Block.zero)
  writeBlock block data := fun capture =>
    if block ≥ capture.count then
      (.error ⟨.unexpectedEof, "capture-device write is out of range"⟩, capture)
    else
      (.ok (), { capture with blocks := capture.blocks.insert block data })
  flush := pure ()

namespace CaptureDevice

/-- `CaptureDevice::new`. -/
def new (count : Nat) : CaptureDevice := ⟨count, ∅⟩

/-- `take_rendered_block`. -/
def takeRenderedBlock (capture : CaptureDevice) (block : Nat)
    (missing : String) : Result (Block × CaptureDevice) := do
  let data ← okOr capture.blocks[block]? (invalidData missing)
  pure (data, { capture with blocks := capture.blocks.erase block })

/-- The loop of `collect_changed_range`, over the blocks that are left. -/
def collectChanged {σ : Type} [BlockDevice σ] (device : σ) (missing : String) :
    List Nat → CaptureDevice × List (Nat × Block) →
    Result (CaptureDevice × List (Nat × Block))
  | [], state => pure state
  | block :: blocks, (capture, changed) => do
    let (desired, capture) ← capture.takeRenderedBlock block missing
    let current ← readBlock device block
    collectChanged device missing blocks (capture,
      if current ≠ desired then changed ++ [(block, desired)] else changed)

/-- `collect_changed_range`. -/
def collectChangedRange {σ : Type} [BlockDevice σ] (device : σ)
    (start blocks : Nat) (missing : String)
    (state : CaptureDevice × List (Nat × Block)) :
    Result (CaptureDevice × List (Nat × Block)) :=
  collectChanged device missing (List.range' start blocks) state

/-- `ensure_empty`. -/
def ensureEmpty (capture : CaptureDevice) (unexpected : String) :
    Result Unit :=
  rejectIf (¬ capture.blocks.isEmpty = true) (invalidData unexpected)

/-- The blocks of the capture are those of a list of writes. -/
def Captures (capture : CaptureDevice) (ws : List (Nat × Block)) : Prop :=
  ∀ b v, capture.blocks[b]? = some v ↔ (b, v) ∈ ws

theorem captures_new (count : Nat) : Captures (new count) [] := by
  intro b v
  simp [new]

theorem Captures.of_mem_iff {capture : CaptureDevice}
    {ws vs : List (Nat × Block)} (h : Captures capture ws)
    (hmem : ∀ w, w ∈ ws ↔ w ∈ vs) : Captures capture vs :=
  fun b v => (h b v).trans (hmem (b, v))

theorem Captures.insert {capture : CaptureDevice} {ws : List (Nat × Block)}
    (h : Captures capture ws) {block : Nat} (data : Block)
    (hno : block ∉ ws.map Prod.fst) :
    Captures { capture with blocks := capture.blocks.insert block data }
      ((block, data) :: ws) := by
  intro b v
  simp only [Std.TreeMap.getElem?_insert, Std.LawfulEqCmp.compare_eq_iff_eq,
    List.mem_cons, Prod.mk.injEq]
  by_cases heq : block = b
  · subst heq
    rw [if_pos rfl, Option.some.injEq]
    constructor
    · intro heq
      subst heq
      exact .inl ⟨rfl, rfl⟩
    · intro hcases
      rcases hcases with ⟨_, rfl⟩ | hmem
      · rfl
      · exact absurd (List.mem_map_of_mem hmem) hno
  · rw [if_neg heq, h b v]
    constructor
    · exact .inr
    · intro hcases
      rcases hcases with ⟨rfl, _⟩ | hmem
      · exact absurd rfl heq
      · exact hmem

theorem Captures.erase {capture : CaptureDevice} {ws : List (Nat × Block)}
    {block : Nat} {data : Block}
    (h : Captures capture ((block, data) :: ws))
    (hno : block ∉ ws.map Prod.fst) :
    Captures { capture with blocks := capture.blocks.erase block } ws := by
  intro b v
  simp only [Std.TreeMap.getElem?_erase, Std.LawfulEqCmp.compare_eq_iff_eq]
  by_cases heq : block = b
  · subst heq
    rw [if_pos rfl]
    constructor
    · intro hnone
      cases hnone
    · intro hmem
      exact absurd (List.mem_map_of_mem hmem) hno
  · rw [if_neg heq, h b v, List.mem_cons, Prod.mk.injEq]
    constructor
    · intro hcases
      rcases hcases with ⟨rfl, _⟩ | hmem
      · exact absurd rfl heq
      · exact hmem
    · exact .inr

theorem ensureEmpty_of_captures {capture : CaptureDevice}
    (h : Captures capture []) (unexpected : String) :
    capture.ensureEmpty unexpected = .ok () := by
  apply rejectIf_of_not
  rw [not_not, Std.TreeMap.isEmpty_iff_forall_not_mem]
  intro b hb
  rw [Std.TreeMap.mem_iff_isSome_getElem?, Option.isSome_iff_exists] at hb
  obtain ⟨v, hv⟩ := hb
  have := (h b v).mp hv
  simp at this

/-- Writes to fresh blocks are captured. -/
theorem writeBlocks_captures (vs : List (Nat × Block))
    {capture : CaptureDevice} {ws : List (Nat × Block)}
    (h : Captures capture ws)
    (hrange : ∀ v ∈ vs, v.1 < capture.count)
    (hnodup : (vs.map Prod.fst).Nodup)
    (hfresh : ∀ v ∈ vs, v.1 ∉ ws.map Prod.fst) :
    ∃ capture', writeBlocks vs capture = (.ok (), capture') ∧
      capture'.count = capture.count ∧ Captures capture' (vs ++ ws) := by
  induction vs generalizing capture ws with
  | nil => exact ⟨capture, rfl, rfl, h⟩
  | cons v vs ih =>
    have hv : v.1 < capture.count := hrange v List.mem_cons_self
    have hwrite : writeBlock v.1 v.2 capture = (.ok (),
        { capture with blocks := capture.blocks.insert v.1 v.2 }) :=
      if_neg (by omega)
    rw [List.map_cons, List.nodup_cons] at hnodup
    obtain ⟨capture', hrun, hcount, hcaptures⟩ := ih
      (h.insert v.2 (hfresh v List.mem_cons_self))
      (fun u hu => hrange u (List.mem_cons_of_mem _ hu)) hnodup.2 (by
        intro u hu
        rw [List.map_cons, List.mem_cons, not_or]
        refine ⟨?_, hfresh u (List.mem_cons_of_mem _ hu)⟩
        intro heq
        exact hnodup.1 (heq ▸ List.mem_map_of_mem hu))
    refine ⟨capture', ?_, hcount, ?_⟩
    · rw [writeBlocks, Effect.forEach_cons, Effect.bind_of_ok hwrite]
      exact hrun
    · apply hcaptures.of_mem_iff
      intro w
      simp only [List.mem_append, List.mem_cons]
      tauto

/-- The rendered blocks that differ from a disk are collected in order. -/
theorem collectChanged_captures {d : Disk} {missing : String}
    {image : Nat → Block} {bs : List Nat} {capture : CaptureDevice}
    {rest changed : List (Nat × Block)}
    (h : Captures capture (bs.map (fun b => (b, image b)) ++ rest))
    (hnodup : bs.Nodup) (hrange : ∀ b ∈ bs, b < d.size)
    (hfresh : ∀ b ∈ bs, b ∉ rest.map Prod.fst) :
    ∃ capture', collectChanged d missing bs (capture, changed) =
        .ok (capture', changed ++
          differing d.blocks (bs.map fun b => (b, image b))) ∧
      Captures capture' rest := by
  induction bs generalizing capture changed with
  | nil => exact ⟨capture, by simp [collectChanged, differing], h⟩
  | cons b bs ih =>
    rw [List.nodup_cons] at hnodup
    have hmem : capture.blocks[b]? = some (image b) :=
      (h b (image b)).mpr (by simp)
    have hno : b ∉ (bs.map (fun b => (b, image b)) ++ rest).map Prod.fst := by
      rw [List.map_append, List.mem_append, not_or]
      refine ⟨?_, hfresh b List.mem_cons_self⟩
      simpa using hnodup.1
    obtain ⟨capture', hrun, hcaptures⟩ := @ih _
      (if d.blocks b ≠ image b then changed ++ [(b, image b)] else changed)
      (h.erase hno) hnodup.2
      (fun u hu => hrange u (List.mem_cons_of_mem _ hu))
      (fun u hu => hfresh u (List.mem_cons_of_mem _ hu))
    refine ⟨capture', ?_, hcaptures⟩
    rw [collectChanged, takeRenderedBlock, hmem]
    simp only [okOr_some, Except.ok_bind, Except.pure_eq_ok,
      Disk.readBlock_of_lt (hrange b List.mem_cons_self), hrun]
    by_cases hsame : d.blocks b = image b
    · simp [differing, hsame]
    · simp [differing, hsame]

end CaptureDevice

/-! ## Rendered tables -/

open CaptureDevice

/-- One table of a transaction: how it is rendered, its region, and the error
for a block of the region that was not rendered. -/
structure TableImage where
  render : DevM CaptureDevice Unit
  start : Nat
  blocks : Nat
  missing : String

/-- The tables of a transaction, and the error for blocks that were rendered
outside of their regions. -/
structure ImageStore where
  tables : List TableImage
  unexpected : String

/-- Rendering the tables of a transaction and collecting the blocks that
differ from the device. -/
def ImageStore.collect {σ : Type} [BlockDevice σ] (store : ImageStore)
    (sb : Superblock) (device : σ) : Result (List (Nat × Block)) := do
  let (rendered, capture) := Effect.forEach TableImage.render store.tables
    (CaptureDevice.new sb.totalBlocks)
  rendered
  let (capture, changed) ← store.tables.foldlM (fun state table =>
    collectChangedRange device table.start table.blocks table.missing state)
    (capture, [])
  capture.ensureEmpty store.unexpected
  pure changed

namespace TableImage

/-- The blocks of a rendered table, in order. -/
def writes (table : TableImage) (image : List UInt8) : List (Nat × Block) :=
  (List.range' table.start table.blocks).map fun b =>
    (b, Block.ofImage image (b - table.start))

theorem mem_writes {table : TableImage} {image : List UInt8}
    {w : Nat × Block} :
    w ∈ table.writes image ↔ ∃ i, i < table.blocks ∧
      w = (table.start + i, Block.ofImage image i) := by
  simp only [writes, List.mem_map, List.mem_range'_1]
  constructor
  · intro hfacts
    rcases hfacts with ⟨b, ⟨h1, h2⟩, rfl⟩
    refine ⟨b - table.start, by omega, ?_⟩
    rw [Nat.add_sub_cancel' h1]
  · intro hfacts
    rcases hfacts with ⟨i, hi, rfl⟩
    refine ⟨table.start + i, ⟨by omega, by omega⟩, ?_⟩
    rw [Nat.add_sub_cancel_left]

/-- The blocks of one table. -/
theorem map_fst_writes (table : TableImage) (image : List UInt8) :
    (table.writes image).map Prod.fst =
      List.range' table.start table.blocks := by
  simp [writes, Function.comp_def]

theorem range_of_mem_writes {table : TableImage} {image : List UInt8}
    {w : Nat × Block} (h : w ∈ table.writes image) :
    table.start ≤ w.1 ∧ w.1 < table.start + table.blocks := by
  obtain ⟨i, hi, rfl⟩ := mem_writes.mp h
  simp only
  omega

/-- `render` writes `image` to the region of the table. -/
structure Renders (sb : Superblock) (table : TableImage)
    (image : Result (List UInt8)) : Prop where
  fits : table.start + table.blocks ≤ sb.totalBlocks
  ok : ∀ {bytes : List UInt8} {capture : CaptureDevice}
    {ws : List (Nat × Block)}, image = .ok bytes →
    capture.count = sb.totalBlocks → Captures capture ws →
    (∀ w ∈ ws, w.1 < table.start) →
    ∃ capture', table.render capture = (.ok (), capture') ∧
      capture'.count = sb.totalBlocks ∧
      Captures capture' (table.writes bytes ++ ws)
  error : ∀ {e : IoError} {capture : CaptureDevice}, image = .error e →
    capture.count = sb.totalBlocks →
    ∃ e' capture', table.render capture = (.error e', capture')

end TableImage

/-- The blocks that a list of tables with their images renders. -/
def renderedWrites :
    List (TableImage × Result (List UInt8)) → Result (List (Nat × Block))
  | [] => pure []
  | p :: ps => do
    let image ← p.2
    let ws ← renderedWrites ps
    pure (p.1.writes image ++ ws)

theorem renderedWrites_cons_eq_ok {p : TableImage × Result (List UInt8)}
    {ps : List (TableImage × Result (List UInt8))} {ws : List (Nat × Block)} :
    renderedWrites (p :: ps) = .ok ws ↔ ∃ image, p.2 = .ok image ∧
      ∃ vs, renderedWrites ps = .ok vs ∧ p.1.writes image ++ vs = ws := by
  simp only [renderedWrites, Except.bind_eq_ok, Except.pure_eq_ok,
    Except.ok.injEq]

/-- The blocks of some tables, and then of others. -/
theorem renderedWrites_append {ps qs : List (TableImage × Result (List UInt8))}
    {ws vs : List (Nat × Block)} (hws : renderedWrites ps = .ok ws)
    (hvs : renderedWrites qs = .ok vs) :
    renderedWrites (ps ++ qs) = .ok (ws ++ vs) := by
  induction ps generalizing ws with
  | nil =>
    cases hws
    exact hvs
  | cons p ps ih =>
    obtain ⟨image, himage, rest, hrest, rfl⟩ := renderedWrites_cons_eq_ok.mp hws
    rw [List.cons_append, renderedWrites, himage, Except.ok_bind, ih hrest,
      Except.ok_bind, List.append_assoc]
    rfl

/-- Every block of every table is written once. -/
theorem length_renderedWrites {ps : List (TableImage × Result (List UInt8))}
    {ws : List (Nat × Block)} (hws : renderedWrites ps = .ok ws) :
    ws.length = (ps.map fun p => p.1.blocks).sum := by
  induction ps generalizing ws with
  | nil =>
    cases hws
    rfl
  | cons p ps ih =>
    obtain ⟨image, _, rest, hrest, rfl⟩ := renderedWrites_cons_eq_ok.mp hws
    rw [List.length_append, ih hrest]
    simp [TableImage.writes]

/-- The tables render their images, and their regions follow one another. -/
structure Renderings (sb : Superblock)
    (ps : List (TableImage × Result (List UInt8))) : Prop where
  renders : ∀ p ∈ ps, p.1.Renders sb p.2
  ordered : ps.Pairwise fun p q => p.1.start + p.1.blocks ≤ q.1.start

theorem Renderings.tail {sb : Superblock}
    {p : TableImage × Result (List UInt8)}
    {ps : List (TableImage × Result (List UInt8))}
    (h : Renderings sb (p :: ps)) : Renderings sb ps :=
  ⟨fun q hq => h.renders q (List.mem_cons_of_mem _ hq),
    (List.pairwise_cons.mp h.ordered).2⟩

/-- A rendered block lies in the region of some table. -/
theorem exists_table_of_mem {ps : List (TableImage × Result (List UInt8))}
    {ws : List (Nat × Block)} (hws : renderedWrites ps = .ok ws)
    {w : Nat × Block} (hw : w ∈ ws) :
    ∃ p ∈ ps, p.1.start ≤ w.1 ∧ w.1 < p.1.start + p.1.blocks := by
  induction ps generalizing ws with
  | nil =>
    cases hws
    simp at hw
  | cons p ps ih =>
    obtain ⟨image, _, vs, hvs, rfl⟩ := renderedWrites_cons_eq_ok.mp hws
    rcases List.mem_append.mp hw with hw | hw
    · exact ⟨p, List.mem_cons_self, TableImage.range_of_mem_writes hw⟩
    · obtain ⟨q, hq, hrange⟩ := ih hvs hw
      exact ⟨q, List.mem_cons_of_mem _ hq, hrange⟩

/-- The blocks of the tables are distinct. -/
theorem Renderings.nodup {sb : Superblock}
    {ps : List (TableImage × Result (List UInt8))} (h : Renderings sb ps)
    {ws : List (Nat × Block)} (hws : renderedWrites ps = .ok ws) :
    (ws.map Prod.fst).Nodup := by
  induction ps generalizing ws with
  | nil =>
    cases hws
    exact List.nodup_nil
  | cons p ps ih =>
    obtain ⟨image, _, vs, hvs, rfl⟩ := renderedWrites_cons_eq_ok.mp hws
    have hordered := (List.pairwise_cons.mp h.ordered).1
    rw [List.map_append, List.nodup_append, TableImage.map_fst_writes]
    refine ⟨List.nodup_range', ih h.tail hvs, ?_⟩
    intro a ha b hb
    obtain ⟨v, hv, rfl⟩ := List.mem_map.mp hb
    obtain ⟨q, hq, hrange⟩ := exists_table_of_mem hvs hv
    have ha' := List.mem_range'_1.mp ha
    have := hordered q hq
    omega

theorem Renderings.lt_of_mem {sb : Superblock}
    {ps : List (TableImage × Result (List UInt8))} (h : Renderings sb ps)
    {ws : List (Nat × Block)} (hws : renderedWrites ps = .ok ws)
    {w : Nat × Block} (hw : w ∈ ws) : w.1 < sb.totalBlocks := by
  obtain ⟨p, hp, hrange⟩ := exists_table_of_mem hws hw
  have := (h.renders p hp).fits
  omega

section Rendered

variable {sb : Superblock} {ps : List (TableImage × Result (List UInt8))}

/-- The tables are rendered one behind the other. -/
theorem Renderings.render (h : Renderings sb ps) {ws : List (Nat × Block)}
    (hws : renderedWrites ps = .ok ws) {capture : CaptureDevice}
    {vs : List (Nat × Block)} (hcount : capture.count = sb.totalBlocks)
    (hcaptures : Captures capture vs)
    (hbelow : ∀ v ∈ vs, ∀ p ∈ ps, v.1 < p.1.start) :
    ∃ capture', Effect.forEach TableImage.render (ps.map Prod.fst) capture =
        (.ok (), capture') ∧ Captures capture' (ws ++ vs) := by
  induction ps generalizing ws capture vs with
  | nil =>
    cases hws
    exact ⟨capture, rfl, hcaptures⟩
  | cons p ps ih =>
    obtain ⟨image, himage, us, hus, rfl⟩ := renderedWrites_cons_eq_ok.mp hws
    have hp := h.renders p List.mem_cons_self
    have hordered := (List.pairwise_cons.mp h.ordered).1
    obtain ⟨mid, hrun, hmidCount, hmid⟩ := hp.ok himage hcount hcaptures
      fun v hv => hbelow v hv p List.mem_cons_self
    obtain ⟨capture', hrest, hcaptures'⟩ := ih h.tail hus hmidCount hmid (by
      intro v hv q hq
      have hq' := hordered q hq
      rcases List.mem_append.mp hv with hv | hv
      · have := TableImage.range_of_mem_writes hv
        omega
      · have := hbelow v hv q (List.mem_cons_of_mem _ hq)
        omega)
    refine ⟨capture', ?_, ?_⟩
    · rw [List.map_cons, Effect.forEach_cons, Effect.bind_of_ok hrun, hrest]
    · apply hcaptures'.of_mem_iff
      intro w
      simp only [List.mem_append]
      tauto

/-- A table without an image fails the rendering. -/
theorem Renderings.render_error (h : Renderings sb ps) {e : IoError}
    (hws : renderedWrites ps = .error e) {capture : CaptureDevice}
    {vs : List (Nat × Block)} (hcount : capture.count = sb.totalBlocks)
    (hcaptures : Captures capture vs)
    (hbelow : ∀ v ∈ vs, ∀ p ∈ ps, v.1 < p.1.start) :
    ∃ e' capture', Effect.forEach TableImage.render (ps.map Prod.fst) capture =
      (.error e', capture') := by
  induction ps generalizing capture vs with
  | nil => cases hws
  | cons p ps ih =>
    have hp := h.renders p List.mem_cons_self
    have hordered := (List.pairwise_cons.mp h.ordered).1
    rw [List.map_cons, Effect.forEach_cons]
    cases himage : p.2 with
    | error e' =>
      obtain ⟨e'', capture', hrun⟩ := hp.error himage hcount
      exact ⟨e'', capture', Effect.bind_of_error hrun⟩
    | ok image =>
      obtain ⟨mid, hrun, hmidCount, hmid⟩ := hp.ok himage hcount hcaptures
        fun v hv => hbelow v hv p List.mem_cons_self
      rw [Effect.bind_of_ok hrun]
      refine ih h.tail ?_ hmidCount hmid ?_
      · rw [renderedWrites, himage, Except.ok_bind] at hws
        cases hrest : renderedWrites ps with
        | error e' =>
          rw [hrest] at hws
          exact hws
        | ok us =>
          rw [hrest] at hws
          cases hws
      · intro v hv q hq
        have hq' := hordered q hq
        rcases List.mem_append.mp hv with hv | hv
        · have := TableImage.range_of_mem_writes hv
          omega
        · have := hbelow v hv q (List.mem_cons_of_mem _ hq)
          omega

/-- The collection takes every rendered block out of the capture. -/
theorem Renderings.collect (h : Renderings sb ps) {d : Disk}
    (hsize : sb.totalBlocks = d.size) {ws : List (Nat × Block)}
    (hws : renderedWrites ps = .ok ws) {capture : CaptureDevice}
    (hcaptures : Captures capture ws) (changed : List (Nat × Block)) :
    ∃ capture', (ps.map Prod.fst).foldlM (fun state table =>
        collectChangedRange d table.start table.blocks table.missing state)
        (capture, changed) =
        .ok (capture', changed ++ differing d.blocks ws) ∧
      Captures capture' [] := by
  induction ps generalizing ws capture changed with
  | nil =>
    cases hws
    exact ⟨capture, by simp [differing], hcaptures⟩
  | cons p ps ih =>
    obtain ⟨image, himage, us, hus, rfl⟩ := renderedWrites_cons_eq_ok.mp hws
    have hfits := (h.renders p List.mem_cons_self).fits
    have hordered := (List.pairwise_cons.mp h.ordered).1
    obtain ⟨mid, hrun, hmid⟩ := collectChanged_captures (d := d) hcaptures
      List.nodup_range' (by
        intro b hb
        have := List.mem_range'_1.mp hb
        omega) (by
        intro b hb hmem
        have hb' := List.mem_range'_1.mp hb
        obtain ⟨u, hu, rfl⟩ := List.mem_map.mp hmem
        obtain ⟨q, hq, hrange⟩ := exists_table_of_mem hus hu
        have := hordered q hq
        omega)
    obtain ⟨capture', hrest, hcaptures'⟩ := ih h.tail hus hmid
      (changed ++ differing d.blocks (p.1.writes image))
    refine ⟨capture', ?_, hcaptures'⟩
    rw [List.map_cons, List.foldlM_cons, collectChangedRange, hrun,
      Except.ok_bind, differing_append, ← List.append_assoc]
    exact hrest

/-- **What a transaction collects**: the rendered blocks that differ from the
home blocks, or nothing if some table has no image. -/
theorem ImageStore.collect_eq (h : Renderings sb ps) {d : Disk}
    (hsize : sb.totalBlocks = d.size) (unexpected : String) :
    (∀ ws, renderedWrites ps = .ok ws →
      (ImageStore.mk (ps.map Prod.fst) unexpected).collect sb d =
        .ok (differing d.blocks ws)) ∧
    ∀ e, renderedWrites ps = .error e → ∃ e',
      (ImageStore.mk (ps.map Prod.fst) unexpected).collect sb d =
        .error e' := by
  have hnew := captures_new sb.totalBlocks
  constructor
  · intro ws hws
    obtain ⟨capture, hrun, hcaptures⟩ := h.render hws rfl hnew (by simp)
    rw [List.append_nil] at hcaptures
    obtain ⟨capture', hcollect, hempty⟩ := h.collect hsize hws hcaptures []
    simp only [ImageStore.collect, hrun, Except.ok_bind, hcollect,
      ensureEmpty_of_captures hempty, List.nil_append, Except.pure_eq_ok]
  · intro e hws
    obtain ⟨e', capture, hrun⟩ := h.render_error hws rfl hnew (by simp)
    refine ⟨e', ?_⟩
    simp only [ImageStore.collect, hrun, Except.error_bind]

end Rendered

/-! ## Publishing the changes -/

/-- The last part of the journaled stores: one transaction with the changed
blocks, its publication, and its recovery by `recover`. -/
def publishChanges {σ : Type} [BlockDevice σ]
    (recover : Superblock → DevM σ RecoveryReport) (mismatch : String)
    (sb : Superblock) (changed : List (Nat × Block)) :
    DevM σ RecoveryReport := do
  if changed = [] then pure RecoveryReport.default
  else do
    let entries ← JournalLog.transaction changed
    storeJournalImage sb entries
    let report ← recover sb
    rejectIf (report.committedTransactions ≠ 1 ∨
      report.homeWrites ≠ changed.length) (invalidData mismatch)
    pure report

/-- The entries of the transaction of a list of changes. -/
def transactionEntries (changed : List (Nat × Block)) : List JournalEntry :=
  .begin 0 :: (changed.map fun w => .write 0 (UInt64.ofNat w.1) w.2) ++
    [.commit 0]

theorem transactionEntries_ne_nil (changed : List (Nat × Block)) :
    transactionEntries changed ≠ [] := by
  simp [transactionEntries]

/-- The length of the stream of one transaction. -/
theorem length_stream_transactionEntries (changed : List (Nat × Block)) :
    (JournalCodec.stream (transactionEntries changed)).length =
      64 + changed.length * (32 + BLOCK_SIZE) := by
  have hwrites : (JournalCodec.stream (changed.map fun w =>
      JournalEntry.write 0 (UInt64.ofNat w.1) w.2)).length =
        changed.length * (32 + BLOCK_SIZE) := by
    induction changed with
    | nil => rfl
    | cons w ws ih =>
      rw [List.map_cons, JournalCodec.stream_cons, List.length_append, ih,
        JournalCodec.length_encodeEntry, List.length_cons, Nat.succ_mul]
      simp only [JournalCodec.payloadOf, JournalCodec.HEADER_SIZE,
        w.2.length_eq]
      omega
  have hcontrol : ∀ e : JournalEntry, JournalCodec.payloadOf e = [] →
      (JournalCodec.encodeEntry e).length = 32 := by
    intro e he
    rw [JournalCodec.length_encodeEntry, he]
    rfl
  have hcommit : (JournalCodec.stream [.commit 0]).length = 32 := by
    rw [JournalCodec.stream, List.flatMap_singleton, hcontrol _ rfl]
  rw [transactionEntries, List.cons_append, JournalCodec.stream_cons,
    JournalCodec.stream_append, List.length_append, List.length_append,
    hwrites, hcontrol _ rfl, hcommit]
  omega

/-- The transaction of a list of changes fits the journal. -/
def ChangesFit (sb : Superblock) (changed : List (Nat × Block)) : Prop :=
  sb.journalBlocks * BLOCK_SIZE < U64_LIMIT ∧
    96 + changed.length * (32 + BLOCK_SIZE) ≤ sb.journalBlocks * BLOCK_SIZE

/-- The plan of the transaction of a list of changes. -/
theorem planRecovery_transactionEntries {changed : List (Nat × Block)}
    (h : ∀ w ∈ changed, w.1 < U64_LIMIT) :
    planRecovery (transactionEntries changed) =
      .ok ⟨changed, ⟨1, changed.length⟩⟩ := by
  have hlog : transactionEntries changed = Transaction.log
      [⟨0, changed.map fun w => (UInt64.ofNat w.1, w.2)⟩] := by
    simp [transactionEntries, Transaction.entries, Transaction.writeEntries,
      Function.comp_def]
  have hwrites : Transaction.logWrites
      [⟨0, changed.map fun w => (UInt64.ofNat w.1, w.2)⟩] = changed := by
    simp only [Transaction.logWrites_cons, Transaction.logWrites_nil,
      Transaction.homeWrites, List.append_nil, List.map_map]
    have hid : ∀ w ∈ changed, (((fun w => (w.1.toNat, w.2)) ∘
        fun w : Nat × Block => (UInt64.ofNat w.1, w.2)) w :
          Nat × Block) = id w := by
      intro w hw
      have hw' : (UInt64.ofNat w.1).toNat = w.1 :=
        UInt64.toNat_ofNat_of_lt' (h w hw)
      simp only [Function.comp, hw', id]
    rw [List.map_congr_left hid, List.map_id]
  rw [hlog, Transaction.planRecovery_log, hwrites]
  rfl

/-- When the store takes the transaction of a list of changes. -/
theorem storeAccepts_transactionEntries {sb : Superblock} {d : Disk}
    {changed : List (Nat × Block)} (h : ∀ w ∈ changed, sb.homeTarget w.1) :
    StoreAccepts sb d (transactionEntries changed) ↔
      sb.totalBlocks = d.size ∧ journalOf sb d.blocks = .ok [] ∧
        ChangesFit sb changed := by
  have hfits : RegionFits sb (transactionEntries changed) ↔
      ChangesFit sb changed := by
    rw [RegionFits, ChangesFit, length_stream_transactionEntries,
      ← Nat.add_assoc]
  constructor
  · intro haccepts
    exact ⟨haccepts.size, haccepts.vacant,
      hfits.mp (haccepts.fits (transactionEntries_ne_nil changed))⟩
  · intro hfacts
    rcases hfacts with ⟨hsize, hvacant, hchanges⟩
    refine ⟨hsize, ?_, hvacant, fun _ => hfits.mpr hchanges⟩
    have hlog : transactionEntries changed = Transaction.log
        [⟨0, changed.map fun w => (UInt64.ofNat w.1, w.2)⟩] := by
      simp [transactionEntries, Transaction.entries, Transaction.writeEntries,
        Function.comp_def]
    rw [hlog]
    apply Transaction.validateEntries_log
    rw [Transaction.targets_cons]
    refine ⟨?_, by simp [Transaction.Targets]⟩
    intro w hw
    obtain ⟨v, hv, rfl⟩ := List.mem_map.mp hw
    have htarget := h v hv
    have hlt : v.1 < U64_LIMIT := by
      have := (sb.homeTarget_iff v.1).mp htarget
      have hlayout := sb.layout
      omega
    rw [show (UInt64.ofNat v.1).toNat = v.1 from UInt64.toNat_ofNat_of_lt' hlt]
    exact htarget

/-- `recover` replays the plan of the journal in the epochs `tail`. -/
structure Recovers (recover : Superblock → DevM Disk RecoveryReport)
    (tail : Superblock → List JournalEntry → RecoveryPlan →
      List (List (Nat × Block))) : Prop where
  apply : ∀ {sb : Superblock} {d : Disk} {entries : List JournalEntry}
    {plan : RecoveryPlan}, Plans sb entries plan → sb.totalBlocks = d.size →
    journalOf sb d.blocks = .ok entries →
    recover sb d = (.ok plan.report, d.commit (tail sb entries plan))
  views : ∀ {sb : Superblock} {f : Nat → Block} {entries : List JournalEntry}
    {plan : RecoveryPlan}, Plans sb entries plan →
    journalOf sb f = .ok entries →
    Views sb (settle f (tail sb entries plan)) (overlay f plan.writes)

theorem recovers_recoverJournal :
    Recovers recoverJournal fun _ _ plan => replayEpochs plan.writes where
  apply := fun h hsize hload => h.recoverJournal_apply hsize hload
  views := by
    intro sb f entries plan h hload
    refine ⟨entries, ?_, ?_⟩
    · rw [settle_replayEpochs, h.journalOf_mixed (mixed_overlay _ _), hload]
    · intro b _
      rw [settle_replayEpochs, committedWrites_of_plan h.plan_eq,
        overlay_overlay_self]

theorem recovers_recoverJournalAndCheckpoint :
    Recovers recoverJournalAndCheckpoint Plans.epochs where
  apply := fun h hsize hload => h.recoverJournalAndCheckpoint_apply hsize hload
  views := fun h hload =>
    ⟨[], h.journalOf_recovered hload, fun _ hb => recovered_home h _ hb⟩

/-- An accepted transaction: the store takes its entries, and its plan is the
list of changes. -/
structure Accepted (sb : Superblock) (d : Disk)
    (changed : List (Nat × Block)) : Prop where
  nonempty : changed ≠ []
  store : StoreAccepts sb d (transactionEntries changed)
  plans : Plans sb (transactionEntries changed)
    ⟨changed, ⟨1, changed.length⟩⟩

/-- What publishing a list of changes does to a disk. -/
theorem publishChanges_cases {recover : Superblock → DevM Disk RecoveryReport}
    {tail : Superblock → List JournalEntry → RecoveryPlan →
      List (List (Nat × Block))} (hrec : Recovers recover tail)
    (mismatch : String) (sb : Superblock) (d : Disk)
    {changed : List (Nat × Block)} (hlt : ∀ w ∈ changed, w.1 < U64_LIMIT) :
    (changed = [] ∧ publishChanges recover mismatch sb changed d =
      (.ok RecoveryReport.default, d)) ∨
    (changed ≠ [] ∧ ¬ StoreAccepts sb d (transactionEntries changed) ∧
      ∃ e, publishChanges recover mismatch sb changed d = (.error e, d)) ∨
    Accepted sb d changed ∧ publishChanges recover mismatch sb changed d =
      (.ok ⟨1, changed.length⟩, d.commit
        (storeEpochs sb (transactionEntries changed) ++
          tail sb (transactionEntries changed)
            ⟨changed, ⟨1, changed.length⟩⟩)) := by
  unfold publishChanges
  by_cases hnil : changed = []
  · left
    rw [if_pos hnil]
    exact ⟨hnil, rfl⟩
  have htransaction : JournalLog.transaction changed =
      .ok (transactionEntries changed) := JournalLog.transaction_eq changed
  rw [if_neg hnil, htransaction, Effect.lift_bind]
  simp only
  right
  rcases storeJournalImage_cases sb d (transactionEntries changed) with
    ⟨hno, e, herr⟩ | ⟨hacc, hrun⟩
  · exact .inl ⟨hnil, hno, e, Effect.bind_of_error herr⟩
  right
  have hplan := planRecovery_transactionEntries hlt
  have hplans : Plans sb (transactionEntries changed)
      ⟨changed, ⟨1, changed.length⟩⟩ := by
    obtain ⟨plan, hp⟩ := plans_of_journalOf hacc.journalOf_settle.1
    have hp' := hp.plan_eq
    rw [hplan, Except.ok.injEq] at hp'
    rw [hp']
    exact hp
  refine ⟨⟨hnil, hacc, hplans⟩, ?_⟩
  have hrecover := hrec.apply hplans (d := d.commit (storeEpochs sb
    (transactionEntries changed))) hacc.size (by
      rw [Disk.blocks_commit]
      exact hacc.journalOf_settle.1)
  have hmatch : rejectIf ((1 : Nat) ≠ 1 ∨ changed.length ≠ changed.length)
      (invalidData mismatch) = .ok () := rejectIf_of_not (by simp)
  rw [Effect.bind_of_ok hrun, Effect.bind_of_ok hrecover, Effect.lift_bind,
    hmatch, Disk.commit_commit]
  rfl

namespace Accepted

variable {sb : Superblock} {d : Disk} {changed : List (Nat × Block)}

/-- The contents once the transaction is published. -/
theorem published (h : Accepted sb d changed) :
    journalOf sb (settle d.blocks (storeEpochs sb
        (transactionEntries changed))) = .ok (transactionEntries changed) ∧
      ∀ b, ¬ sb.journalRange b → settle d.blocks (storeEpochs sb
        (transactionEntries changed)) b = d.blocks b :=
  ⟨h.store.journalOf_settle.1,
    (h.store.published (crashImage_settle _ _)).home⟩

/-- The home blocks after a replay of the transaction. -/
theorem overlay_published (h : Accepted sb d changed) {b : Nat}
    (hb : ¬ sb.journalRange b) :
    overlay (settle d.blocks (storeEpochs sb (transactionEntries changed)))
      changed b = overlay d.blocks changed b :=
  overlay_congr fun _ => h.published.2 b hb

/-- The effective view after the transaction. -/
theorem views (h : Accepted sb d changed)
    {recover : Superblock → DevM Disk RecoveryReport}
    {tail : Superblock → List JournalEntry → RecoveryPlan →
      List (List (Nat × Block))} (hrec : Recovers recover tail) :
    Views sb (settle d.blocks (storeEpochs sb (transactionEntries changed) ++
      tail sb (transactionEntries changed) ⟨changed, ⟨1, changed.length⟩⟩))
      (overlay d.blocks changed) := by
  rw [settle_append]
  exact (hrec.views h.plans h.published.1).congr
    fun b hb => h.overlay_published hb

/-- A power failure inside the transaction shows the home blocks of before or
of after. -/
theorem views_of_crash (h : Accepted sb d changed) {img : Nat → Block}
    (hc : CrashImage d.blocks (barriers
      (storeEpochs sb (transactionEntries changed) ++
        Plans.epochs sb (transactionEntries changed)
          ⟨changed, ⟨1, changed.length⟩⟩)) img) :
    Views sb img d.blocks ∨ Views sb img (overlay d.blocks changed) := by
  have hwrites : committedWrites (transactionEntries changed) = changed :=
    committedWrites_of_plan h.plans.plan_eq
  rw [barriers_append] at hc
  rcases crashImage_append (run_barriers _ _) hc with hc | hc
  · have hpub := h.store.published hc
    rcases hpub.stream with ⟨_, hload⟩ | hload
    · exact .inl ⟨[], hload, hpub.home⟩
    · right
      refine ⟨_, hload, ?_⟩
      intro b hb
      rw [hwrites]
      exact overlay_congr fun _ => hpub.home b hb
  · right
    rcases h.plans.replaying_of_crash (Mixed.refl _ _) hc with hmix | rfl
    · refine ⟨transactionEntries changed, ?_, ?_⟩
      · rw [h.plans.journalOf_mixed hmix]
        exact h.published.1
      · intro b hb
        rw [hwrites, hmix.overlay_eq, h.overlay_published hb]
    · refine ⟨[], h.plans.journalOf_recovered h.published.1, ?_⟩
      intro b hb
      show recovered sb _ _ _ b = _
      rw [recovered_home h.plans _ hb, h.overlay_published hb]

end Accepted

end FilesystemLab
