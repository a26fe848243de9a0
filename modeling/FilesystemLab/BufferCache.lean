import FilesystemLab.Block
import FilesystemLab.Lib.Triple

/-!
# The buffer cache

`src/cache.rs`: a write-back cache over a block device, with an entry for each
cached block that is clean, dirty or in write-back.

The cache is generic in its device.  `FaultyDevice` is a device every call of
which may fail: it has current and durable contents, and a list of faults that
says for each call in turn whether it fails and what it does then.  What holds
for every list of faults holds whichever calls fail.

`Coherent` relates a cache over such a device to the last data written to each
block.  Every call of the cache keeps it (`coherent_readBlock` and its
siblings), so it holds after every run, and `bufferCache_coherent` reads the
guarantees of the cache off it.
-/

namespace FilesystemLab

/-! ## The cache -/

/-- The `BlockDevice` trait as the cache uses it: `read_block` takes
`&mut self`, so a read may change the device here. -/
class CachedDevice (σ : Type) where
  blockCount : σ → Nat
  readBlock : Nat → DevM σ Block
  writeBlock : Nat → Block → DevM σ Unit
  flush : DevM σ Unit

/-- `BufferState`. -/
inductive BufferState where
  | clean
  | dirty
  | writeback
  deriving DecidableEq, Repr

/-- `CacheEntry`. -/
structure CacheEntry where
  data : Block
  state : BufferState
  deriving DecidableEq

/-- An entry after a successful device flush. -/
def CacheEntry.settle (entry : CacheEntry) : CacheEntry :=
  if entry.state = .writeback then { entry with state := .clean } else entry

/-- `BufferCache`. -/
structure BufferCache (σ : Type) where
  device : σ
  entries : Std.TreeMap Nat CacheEntry

namespace BufferCache

variable {σ : Type} [CachedDevice σ]

/-- `BufferCache::new`. -/
def new (device : σ) : BufferCache σ := ⟨device, ∅⟩

/-- A call of the device below the cache. -/
def onDevice {α : Type} (call : DevM σ α) : DevM (BufferCache σ) α := fun c =>
  let (result, device) := call c.device
  (result, { c with device })

/-- A change of the entries. -/
def modifyEntries
    (f : Std.TreeMap Nat CacheEntry → Std.TreeMap Nat CacheEntry) :
    DevM (BufferCache σ) Unit := fun c =>
  (.ok (), { c with entries := f c.entries })

/-- `validate_block`. -/
def validateBlock (c : BufferCache σ) (block : Nat) : Result Unit :=
  rejectIf (block ≥ CachedDevice.blockCount c.device)
    ⟨.unexpectedEof, "block index is outside the device"⟩

/-- The part of `BufferCache::read_block` that fills a miss. -/
def ensureCached (block : Nat) : DevM (BufferCache σ) Unit := do
  let cached ← Effect.query fun c => pure (c.entries.contains block)
  if cached = true then pure ()
  else do
    let data ← onDevice (CachedDevice.readBlock block)
    modifyEntries (·.insert block ⟨data, .clean⟩)

/-- `BufferCache::read_block`. -/
def readBlock (block : Nat) : DevM (BufferCache σ) Block := do
  Effect.query (validateBlock · block)
  ensureCached block
  Effect.query fun c => okOr (c.entries[block]?.map CacheEntry.data)
    ⟨.other, "cache entry disappeared after insertion"⟩

/-- `BufferCache::write_block`. -/
def writeBlock (block : Nat) (data : Block) : DevM (BufferCache σ) Unit := do
  Effect.query (validateBlock · block)
  modifyEntries (·.insert block ⟨data, .dirty⟩)

/-- `BufferCache::write_back`. -/
def writeBack (block : Nat) : DevM (BufferCache σ) Unit := do
  let entry ← Effect.query fun c => okOr c.entries[block]?
    ⟨.notFound, "cannot write back an uncached block"⟩
  if entry.state ≠ .dirty then pure ()
  else do
    onDevice (CachedDevice.writeBlock block entry.data)
    modifyEntries (·.modify block ({ · with state := .writeback }))

/-- The dirty blocks, in ascending order. -/
def dirtyBlocks (c : BufferCache σ) : List Nat :=
  (c.entries.toList.filter fun kv => kv.2.state = .dirty).map Prod.fst

/-- Some entry is in write-back. -/
def hasWriteback (c : BufferCache σ) : Bool :=
  c.entries.toList.any fun kv => kv.2.state = .writeback

/-- `BufferCache::flush`. -/
def flush : DevM (BufferCache σ) Unit := do
  let dirty ← Effect.query fun c => pure c.dirtyBlocks
  Effect.forEach writeBack dirty
  let pending ← Effect.query fun c => pure c.hasWriteback
  if pending = true then do
    onDevice CachedDevice.flush
    modifyEntries (·.map fun _ entry => CacheEntry.settle entry)
  else pure ()

/-- `BufferCache::evict`. -/
def evict (block : Nat) : DevM (BufferCache σ) Unit := do
  let entry ← Effect.query fun c => okOr c.entries[block]?
    ⟨.notFound, "cannot evict an uncached block"⟩
  Effect.lift (rejectIf (entry.state ≠ .clean)
    ⟨.wouldBlock, "cannot evict a block that is not durable"⟩)
  modifyEntries (·.erase block)

end BufferCache

/-! ## A device whose calls may fail -/

/-- How a call of the device fails. -/
structure Fault where
  error : IoError
  /-- A failed write has reached the current contents. -/
  applied : Bool
  /-- The pending write of a block that a failed flush has made durable, if
  any. -/
  settled : Nat → Option Nat

/-- A device with current and durable contents.  `pending` has the writes of a
block since the last successful flush, and `faults` what happens to the next
calls, which succeed once it is empty. -/
structure FaultyDevice where
  size : Nat
  current : Nat → Block
  durable : Nat → Block
  pending : Nat → List Block
  faults : List (Option Fault)

namespace FaultyDevice

/-- A device as it is opened. -/
def boot (size : Nat) (contents : Nat → Block)
    (faults : List (Option Fault)) : FaultyDevice :=
  ⟨size, contents, contents, fun _ => [], faults⟩

/-- The device with the faults of the later calls. -/
def advance (d : FaultyDevice) : FaultyDevice :=
  { d with faults := d.faults.tail }

/-- A write reaches the current contents. -/
def put (d : FaultyDevice) (block : Nat) (data : Block) : FaultyDevice :=
  { d with
    current := Function.update d.current block data
    pending := Function.update d.pending block (d.pending block ++ [data]) }

/-- A failed flush makes one pending write of some blocks durable. -/
def settleSome (d : FaultyDevice) (settled : Nat → Option Nat) :
    FaultyDevice :=
  { d with
    durable := fun block =>
      match settled block with
      | none => d.durable block
      | some i => ((d.pending block)[i]?).getD (d.durable block) }

/-- A successful flush makes the current contents durable. -/
def settleAll (d : FaultyDevice) : FaultyDevice :=
  { d with durable := d.current, pending := fun _ => [] }

instance : CachedDevice FaultyDevice where
  blockCount d := d.size
  readBlock block := fun d =>
    match d.faults.head?.join with
    | some fault => (.error fault.error, d.advance)
    | none =>
      if block < d.size then (.ok (d.current block), d.advance)
      else (.error ⟨.unexpectedEof, "block index is outside the device"⟩,
        d.advance)
  writeBlock block data := fun d =>
    match d.faults.head?.join with
    | some fault => (.error fault.error,
        if fault.applied = true ∧ block < d.size then (d.put block data).advance
        else d.advance)
    | none =>
      if block < d.size then (.ok (), (d.put block data).advance)
      else (.error ⟨.unexpectedEof, "block index is outside the device"⟩,
        d.advance)
  flush := fun d =>
    match d.faults.head?.join with
    | some fault => (.error fault.error, (d.settleSome fault.settled).advance)
    | none => (.ok (), d.settleAll.advance)

/-! What each call can do, whatever the faults are. -/

theorem readBlock_cases (block : Nat) (d : FaultyDevice) :
    CachedDevice.readBlock block d = (.ok (d.current block), d.advance) ∨
      ∃ e, CachedDevice.readBlock block d = (.error e, d.advance) := by
  simp only [CachedDevice.readBlock]
  split
  · exact .inr ⟨_, rfl⟩
  · split
    · exact .inl rfl
    · exact .inr ⟨_, rfl⟩

theorem writeBlock_cases (block : Nat) (data : Block) (d : FaultyDevice) :
    CachedDevice.writeBlock block data d =
        (.ok (), (d.put block data).advance) ∨
      ∃ e, CachedDevice.writeBlock block data d = (.error e, d.advance) ∨
        CachedDevice.writeBlock block data d =
          (.error e, (d.put block data).advance) := by
  simp only [CachedDevice.writeBlock]
  split
  · rename_i fault _
    refine .inr ⟨fault.error, ?_⟩
    split
    · exact .inr rfl
    · exact .inl rfl
  · split
    · exact .inl rfl
    · exact .inr ⟨_, .inl rfl⟩

theorem flush_cases (d : FaultyDevice) :
    CachedDevice.flush d = (.ok (), d.settleAll.advance) ∨
      ∃ e settled,
        CachedDevice.flush d = (.error e, (d.settleSome settled).advance) := by
  simp only [CachedDevice.flush]
  split
  · exact .inr ⟨_, _, rfl⟩
  · exact .inl rfl

/-- A block without pending writes is out of reach of a failed flush. -/
theorem durable_settleSome {d : FaultyDevice} {settled : Nat → Option Nat}
    {block : Nat} (h : d.pending block = []) :
    (d.settleSome settled).durable block = d.durable block := by
  simp only [settleSome, h]
  split <;> rfl

end FaultyDevice

/-! ## What the states promise -/

/-- What the entry of a block promises about the block, where `last` is the
data last written to it: a cached block has that data, a block in write-back
shows it, and a block that is clean or not cached has it durably. -/
def Promise (last current durable : Block) (pending : List Block) :
    Option CacheEntry → Prop
  | none => current = last ∧ durable = last ∧ pending = []
  | some ⟨data, .clean⟩ =>
    data = last ∧ current = last ∧ durable = last ∧ pending = []
  | some ⟨data, .dirty⟩ => data = last
  | some ⟨data, .writeback⟩ => data = last ∧ current = last

theorem Promise.data {last current durable : Block} {pending : List Block}
    {entry : CacheEntry} (h : Promise last current durable pending (some entry)) :
    entry.data = last := by
  obtain ⟨data, state⟩ := entry
  cases state with
  | clean => exact h.1
  | dirty => exact h
  | writeback => exact h.1

/-- A successful device flush. -/
theorem Promise.settleAll {last current durable : Block} {pending : List Block}
    {entry : Option CacheEntry}
    (h : Promise last current durable pending entry) :
    Promise last current current [] entry := by
  match entry, h with
  | none, h => exact ⟨h.1, h.1, rfl⟩
  | some ⟨_, .clean⟩, h => exact ⟨h.1, h.2.1, h.2.1, rfl⟩
  | some ⟨_, .dirty⟩, h => exact h
  | some ⟨_, .writeback⟩, h => exact h

/-- A failed device flush, which changes no block without pending writes. -/
theorem Promise.settleSome {last current durable durable' : Block}
    {pending : List Block} {entry : Option CacheEntry}
    (h : Promise last current durable pending entry)
    (hdurable : pending = [] → durable' = durable) :
    Promise last current durable' pending entry := by
  match entry, h with
  | none, h => exact ⟨h.1, (hdurable h.2.2).trans h.2.1, h.2.2⟩
  | some ⟨_, .clean⟩, h =>
    exact ⟨h.1, h.2.1, (hdurable h.2.2.2).trans h.2.2.1, h.2.2.2⟩
  | some ⟨_, .dirty⟩, h => exact h
  | some ⟨_, .writeback⟩, h => exact h

/-- An entry in write-back may become clean once its block is durable. -/
theorem Promise.settle {last current : Block} {entry : Option CacheEntry}
    (h : Promise last current current [] entry) :
    Promise last current current [] (entry.map CacheEntry.settle) := by
  match entry, h with
  | none, h => exact h
  | some ⟨_, .clean⟩, h => exact h
  | some ⟨_, .dirty⟩, h => exact h
  | some ⟨_, .writeback⟩, h => exact ⟨h.1, h.2, h.2, rfl⟩

namespace BufferCache

open Effect

/-- Every entry keeps its promise. -/
def Coherent (last : Nat → Block) (c : BufferCache FaultyDevice) : Prop :=
  ∀ b, Promise (last b) (c.device.current b) (c.device.durable b)
    (c.device.pending b) c.entries[b]?

variable {last : Nat → Block}

theorem getElem?_insert (entries : Std.TreeMap Nat CacheEntry)
    (block b : Nat) (entry : CacheEntry) :
    (entries.insert block entry)[b]? =
      if block = b then some entry else entries[b]? := by
  rw [Std.TreeMap.getElem?_insert]
  simp only [Std.LawfulEqCmp.compare_eq_iff_eq]

/-- A change of one entry, and of the device at its block only. -/
theorem Coherent.update {c c' : BufferCache FaultyDevice} {block : Nat}
    (h : Coherent last c)
    (hblock : Promise (last block) (c'.device.current block)
      (c'.device.durable block) (c'.device.pending block) c'.entries[block]?)
    (hcurrent : ∀ b, b ≠ block → c'.device.current b = c.device.current b)
    (hdurable : ∀ b, b ≠ block → c'.device.durable b = c.device.durable b)
    (hpending : ∀ b, b ≠ block → c'.device.pending b = c.device.pending b)
    (hentry : ∀ b, b ≠ block → c'.entries[b]? = c.entries[b]?) :
    Coherent last c' := by
  intro b
  by_cases heq : b = block
  · rw [heq]
    exact hblock
  · rw [hcurrent b heq, hdurable b heq, hpending b heq, hentry b heq]
    exact h b

/-! ## Every call keeps the promises -/

/-- A cache over a device that was just opened. -/
theorem coherent_new (size : Nat) (contents : Nat → Block)
    (faults : List (Option Fault)) :
    Coherent contents (new (FaultyDevice.boot size contents faults)) := by
  intro b
  show Promise _ _ _ _ (∅ : Std.TreeMap Nat CacheEntry)[b]?
  rw [Std.TreeMap.getElem?_emptyc]
  exact ⟨rfl, rfl, rfl⟩

/-- A miss installs what the device shows, which is the data last written. -/
theorem coherent_ensureCached (block : Nat) :
    Triple (Coherent last) (ensureCached block) (fun _ => Coherent last)
      (Coherent last) := by
  refine Triple.bind (fun cached c => Coherent last c ∧
    (cached = false → c.entries[block]? = none)) ?_ ?_
  · refine Triple.query ?_ fun _ h => h
    intro c h cached hcached
    refine ⟨h, ?_⟩
    intro hfalse
    cases hcached
    rw [Std.TreeMap.contains_eq_isSome_getElem?] at hfalse
    exact Option.not_isSome_iff_eq_none.mp (by rw [hfalse]; decide)
  · intro cached
    cases cached with
    | true => exact Triple.pure fun _ h => h.1
    | false =>
      refine Triple.bind (fun data c => Coherent last c ∧
        c.entries[block]? = none ∧ data = last block) ?_ ?_
      · apply Triple.of_apply
        intro c h
        have hnone := h.2 rfl
        have hblock := h.1 block
        rw [hnone] at hblock
        rcases c.device.readBlock_cases block with hread | ⟨e, hread⟩
        · refine .inl ⟨c.device.current block, ⟨c.device.advance, c.entries⟩,
            ?_, h.1, hnone, hblock.1⟩
          simp only [onDevice, hread]
        · refine .inr ⟨e, ⟨c.device.advance, c.entries⟩, ?_, h.1⟩
          simp only [onDevice, hread]
      · intro data
        apply Triple.of_apply
        intro c hpost
        rcases hpost with ⟨h, hnone, rfl⟩
        refine .inl ⟨(), _, rfl, ?_⟩
        have hblock := h block
        rw [hnone] at hblock
        apply Coherent.update h
        · show Promise _ _ _ _ (c.entries.insert block _)[block]?
          rw [Std.TreeMap.getElem?_insert_self]
          exact ⟨rfl, hblock⟩
        · exact fun _ _ => rfl
        · exact fun _ _ => rfl
        · exact fun _ _ => rfl
        · intro b hb
          show (c.entries.insert block _)[b]? = _
          rw [getElem?_insert, if_neg (Ne.symm hb)]

/-- A read gives the data last written. -/
theorem coherent_readBlock (block : Nat) :
    Triple (Coherent last) (readBlock block)
      (fun data c => Coherent last c ∧ data = last block) (Coherent last) := by
  refine Triple.bind (fun _ => Coherent last)
    (Triple.query (fun _ h _ _ => h) fun _ h => h) ?_
  intro _
  refine Triple.bind _ (coherent_ensureCached block) ?_
  intro _
  refine Triple.query ?_ fun _ h => h
  intro c h data hdata
  obtain ⟨entry, hentry, rfl⟩ := Option.map_eq_some_iff.mp (okOr_eq_ok.mp hdata)
  have hblock := h block
  rw [hentry] at hblock
  exact ⟨h, hblock.data⟩

/-- A write makes its data the data last written. -/
theorem coherent_writeBlock (block : Nat) (data : Block) :
    Triple (Coherent last) (writeBlock block data)
      (fun _ => Coherent (Function.update last block data))
      (Coherent last) := by
  refine Triple.bind (fun _ => Coherent last)
    (Triple.query (fun _ h _ _ => h) fun _ h => h) ?_
  intro _
  apply Triple.of_apply
  intro c h
  refine .inl ⟨(), _, rfl, ?_⟩
  intro b
  show Promise _ _ _ _ (c.entries.insert block _)[b]?
  rw [getElem?_insert]
  by_cases hb : block = b
  · rw [if_pos hb, hb, Function.update_self]
    exact rfl
  · rw [if_neg hb, Function.update_of_ne (Ne.symm hb)]
    exact h b

/-- Only the given blocks are dirty. -/
def DirtyIn (blocks : List Nat) (c : BufferCache FaultyDevice) : Prop :=
  ∀ b entry, c.entries[b]? = some entry → entry.state = .dirty → b ∈ blocks

theorem dirtyIn_dirtyBlocks (c : BufferCache FaultyDevice) :
    DirtyIn c.dirtyBlocks c := by
  intro b entry hentry hdirty
  refine List.mem_map.mpr ⟨(b, entry), List.mem_filter.mpr ⟨?_, ?_⟩, rfl⟩
  · exact Std.TreeMap.mem_toList_iff_getElem?_eq_some.mpr hentry
  · exact decide_eq_true hdirty

/-- A write that reaches the device, of a dirty block. -/
theorem Coherent.put {c : BufferCache FaultyDevice} {block : Nat}
    {entry : CacheEntry} (h : Coherent last c)
    (hentry : c.entries[block]? = some entry) (hdirty : entry.state = .dirty) :
    Coherent last
      { c with device := (c.device.put block entry.data).advance } := by
  have hblock := h block
  rw [hentry] at hblock
  apply Coherent.update h
  · show Promise _ _ _ _ c.entries[block]?
    rw [hentry]
    obtain ⟨data, state⟩ := entry
    cases hdirty
    exact hblock
  · exact fun b hb => Function.update_of_ne hb _ _
  · exact fun _ _ => rfl
  · exact fun b hb => Function.update_of_ne hb _ _
  · exact fun _ _ => rfl

/-- A write-back of one block takes it off the dirty blocks. -/
theorem coherent_writeBack_dirtyIn (block : Nat) (blocks : List Nat) :
    Triple (fun c => Coherent last c ∧ DirtyIn (block :: blocks) c)
      (writeBack block) (fun _ c => Coherent last c ∧ DirtyIn blocks c)
      (Coherent last) := by
  refine Triple.bind (fun entry c => (Coherent last c ∧
    DirtyIn (block :: blocks) c) ∧ c.entries[block]? = some entry) ?_ ?_
  · refine Triple.query ?_ fun _ h => h.1
    exact fun c h entry hentry => ⟨h, okOr_eq_ok.mp hentry⟩
  intro entry
  by_cases hstate : entry.state = .dirty
  · rw [if_neg (not_not.mpr hstate)]
    refine Triple.bind (fun _ c => (Coherent last c ∧
      DirtyIn (block :: blocks) c ∧ c.entries[block]? = some entry) ∧
      c.device.current block = last block) ?_ ?_
    · apply Triple.of_apply
      intro c hpost
      rcases hpost with ⟨⟨h, hin⟩, hentry⟩
      have hput := h.put hentry hstate
      have hblock := h block
      rw [hentry] at hblock
      rcases c.device.writeBlock_cases block entry.data with
        hwrite | ⟨e, hwrite | hwrite⟩
      · refine .inl ⟨(), _, by simp only [onDevice, hwrite],
          ⟨hput, hin, hentry⟩, ?_⟩
        show Function.update c.device.current block entry.data block = _
        rw [Function.update_self, hblock.data]
      · exact .inr ⟨e, ⟨c.device.advance, c.entries⟩,
          by simp only [onDevice, hwrite], h⟩
      · exact .inr ⟨e, _, by simp only [onDevice, hwrite], hput⟩
    · intro _
      apply Triple.of_apply
      intro c hpost
      rcases hpost with ⟨⟨h, hin, hentry⟩, hcurrent⟩
      have hmodify : ∀ b, (c.entries.modify block
          ({ · with state := .writeback }))[b]? =
          if b = block then some { entry with state := .writeback }
          else c.entries[b]? := by
        intro b
        rw [Std.TreeMap.getElem?_modify]
        simp only [Std.LawfulEqCmp.compare_eq_iff_eq]
        by_cases hb : b = block
        · rw [if_pos hb, if_pos hb.symm, hentry]
          rfl
        · rw [if_neg hb, if_neg (Ne.symm hb)]
      have hblock := h block
      rw [hentry] at hblock
      refine .inl ⟨(), _, rfl, ?_, ?_⟩
      · apply Coherent.update h
        · show Promise _ _ _ _ (c.entries.modify block _)[block]?
          rw [hmodify, if_pos rfl]
          exact ⟨hblock.data, hcurrent⟩
        · exact fun _ _ => rfl
        · exact fun _ _ => rfl
        · exact fun _ _ => rfl
        · intro b hb
          show (c.entries.modify block _)[b]? = _
          rw [hmodify, if_neg hb]
      · intro b other hother hdirty
        have hother' : (c.entries.modify block
          ({ · with state := .writeback }))[b]? = some other := hother
        rw [hmodify] at hother'
        split at hother'
        · cases hother'
          cases hdirty
        · rename_i hne
          exact (List.mem_cons.mp (hin b other hother' hdirty)).resolve_left hne
  · rw [if_pos hstate]
    refine Triple.pure ?_
    intro c hpost
    rcases hpost with ⟨⟨h, hin⟩, hentry⟩
    refine ⟨h, ?_⟩
    intro b other hother hdirty
    refine (List.mem_cons.mp (hin b other hother hdirty)).resolve_left ?_
    intro heq
    subst heq
    rw [hentry, Option.some.injEq] at hother
    rw [hother] at hstate
    exact hstate hdirty

theorem coherent_writeBack (block : Nat) :
    Triple (Coherent last) (writeBack block) (fun _ => Coherent last)
      (Coherent last) := by
  intro c h
  have hin : DirtyIn (block :: c.dirtyBlocks) c := fun b entry hentry hdirty =>
    List.mem_cons_of_mem _ (dirtyIn_dirtyBlocks c b entry hentry hdirty)
  obtain ⟨hok, herr⟩ :=
    coherent_writeBack_dirtyIn block c.dirtyBlocks c ⟨h, hin⟩
  exact ⟨fun a c' ha => (hok a c' ha).1, herr⟩

/-- Every entry is clean. -/
def AllClean (c : BufferCache FaultyDevice) : Prop :=
  ∀ (b : Nat) (entry : CacheEntry), c.entries[b]? = some entry → entry.state = .clean

/-- A flush that succeeds leaves every entry clean. -/
theorem coherent_flush :
    Triple (Coherent last) flush (fun _ c => Coherent last c ∧ AllClean c)
      (Coherent last) := by
  refine Triple.bind (fun dirty c => Coherent last c ∧ DirtyIn dirty c)
    ?_ ?_
  · refine Triple.query ?_ fun _ h => h
    intro c h dirty hdirty
    cases hdirty
    exact ⟨h, dirtyIn_dirtyBlocks c⟩
  intro dirty
  -- the loop takes the dirty blocks off one by one
  refine Triple.bind _ (Triple.forEach
    (fun blocks c => Coherent last c ∧ DirtyIn blocks c)
    coherent_writeBack_dirtyIn dirty) ?_
  intro _
  refine Triple.bind (fun pending c => (Coherent last c ∧
    DirtyIn [] c) ∧ c.hasWriteback = pending) ?_ ?_
  · refine Triple.query ?_ fun _ h => h.1
    intro c h pending hpending
    cases hpending
    exact ⟨h, rfl⟩
  intro pending
  cases pending with
  | false =>
    refine Triple.pure ?_
    intro c hpost
    rcases hpost with ⟨⟨h, hin⟩, hnone⟩
    refine ⟨h, ?_⟩
    intro b entry hentry
    cases hstate : entry.state with
    | clean => rfl
    | dirty => exact absurd (hin b entry hentry hstate) List.not_mem_nil
    | writeback =>
      have hmem : (b, entry) ∈ c.entries.toList :=
        Std.TreeMap.mem_toList_iff_getElem?_eq_some.mpr hentry
      have hany := List.any_eq_false.mp hnone _ hmem
      exact absurd (decide_eq_true hstate) hany
  | true =>
    refine Triple.bind (fun _ c => (Coherent last c ∧ DirtyIn [] c) ∧
      ∀ b, c.device.durable b = c.device.current b ∧
        c.device.pending b = []) ?_ ?_
    · apply Triple.of_apply
      intro c hpost
      rcases hpost with ⟨⟨h, hin⟩, _⟩
      rcases c.device.flush_cases with hflush | ⟨e, settled, hflush⟩
      · exact .inl ⟨(), ⟨c.device.settleAll.advance, c.entries⟩,
          by simp only [onDevice, hflush],
          ⟨fun b => (h b).settleAll, hin⟩, fun b => ⟨rfl, rfl⟩⟩
      · exact .inr ⟨e, ⟨(c.device.settleSome settled).advance, c.entries⟩,
          by simp only [onDevice, hflush],
          fun b => (h b).settleSome FaultyDevice.durable_settleSome⟩
    · intro _
      apply Triple.of_apply
      intro c hpost
      rcases hpost with ⟨⟨h, hin⟩, hdurable⟩
      have hmap : ∀ b : Nat, (c.entries.map fun _ entry => entry.settle)[b]? =
          c.entries[b]?.map CacheEntry.settle := by
        intro b
        rw [Std.TreeMap.getElem?_map]
      refine .inl ⟨(), _, rfl, ?_, ?_⟩
      · intro b
        have hblock := h b
        rw [(hdurable b).1, (hdurable b).2] at hblock
        show Promise _ (c.device.current b) (c.device.durable b)
          (c.device.pending b) (c.entries.map _)[b]?
        rw [hmap, (hdurable b).1, (hdurable b).2]
        exact hblock.settle
      · intro b entry hentry
        have hentry' : (c.entries.map fun _ entry => entry.settle)[b]? =
          some entry := hentry
        rw [hmap] at hentry'
        obtain ⟨before, hbefore, rfl⟩ := Option.map_eq_some_iff.mp hentry'
        unfold CacheEntry.settle
        split
        · rfl
        · rename_i hstate
          cases hcase : before.state with
          | clean => rfl
          | dirty => exact absurd (hin b before hbefore hcase) List.not_mem_nil
          | writeback => exact absurd hcase hstate

/-- Only a clean entry is evicted. -/
theorem coherent_evict (block : Nat) :
    Triple (Coherent last) (evict block) (fun _ => Coherent last)
      (Coherent last) := by
  refine Triple.bind (fun entry c => Coherent last c ∧
    c.entries[block]? = some entry) ?_ ?_
  · refine Triple.query ?_ fun _ h => h
    exact fun c h entry hentry => ⟨h, okOr_eq_ok.mp hentry⟩
  intro entry
  refine Triple.bind (fun _ c => (Coherent last c ∧
    c.entries[block]? = some entry) ∧ entry.state = .clean) ?_ ?_
  · refine Triple.lift ?_ fun _ h => h.1
    exact fun c h _ hclean => ⟨h, not_not.mp (rejectIf_eq_ok.mp hclean)⟩
  intro _
  apply Triple.of_apply
  intro c hpost
  rcases hpost with ⟨⟨h, hentry⟩, hclean⟩
  refine .inl ⟨(), _, rfl, ?_⟩
  have hblock := h block
  rw [hentry] at hblock
  obtain ⟨data, state⟩ := entry
  cases hclean
  apply Coherent.update h
  · show Promise _ _ _ _ (c.entries.erase block)[block]?
    rw [Std.TreeMap.getElem?_erase_self]
    exact hblock.2
  · exact fun _ _ => rfl
  · exact fun _ _ => rfl
  · exact fun _ _ => rfl
  · intro b hb
    show (c.entries.erase block)[b]? = _
    rw [Std.TreeMap.getElem?_erase]
    simp only [Std.LawfulEqCmp.compare_eq_iff_eq, if_neg (Ne.symm hb)]

end BufferCache

/-! ## Runs -/

/-- The calls of the cache. -/
inductive CacheCall where
  | readBlock (block : Nat)
  | writeBlock (block : Nat) (data : Block)
  | writeBack (block : Nat)
  | flush
  | evict (block : Nat)

/-- A cache in use, with the data last written to each block. -/
structure CacheRun where
  cache : BufferCache FaultyDevice
  last : Nat → Block

namespace CacheRun

/-- A run that has not begun, on a device with the given contents. -/
def start (size : Nat) (contents : Nat → Block)
    (faults : List (Option Fault)) : CacheRun :=
  ⟨.new (.boot size contents faults), contents⟩

/-- A call, whether it succeeds or fails. -/
def step (r : CacheRun) : CacheCall → CacheRun
  | .readBlock block => ⟨(BufferCache.readBlock block r.cache).2, r.last⟩
  | .writeBlock block data =>
    match BufferCache.writeBlock block data r.cache with
    | (.ok (), cache) => ⟨cache, Function.update r.last block data⟩
    | (.error _, cache) => ⟨cache, r.last⟩
  | .writeBack block => ⟨(BufferCache.writeBack block r.cache).2, r.last⟩
  | .flush => ⟨(BufferCache.flush r.cache).2, r.last⟩
  | .evict block => ⟨(BufferCache.evict block r.cache).2, r.last⟩

/-- A list of calls, in order. -/
def run (r : CacheRun) (calls : List CacheCall) : CacheRun :=
  calls.foldl step r

/-- One call keeps the promises, and the data last written with them. -/
theorem coherent_step {r : CacheRun} (h : r.cache.Coherent r.last)
    (call : CacheCall) : (r.step call).cache.Coherent (r.step call).last := by
  cases call with
  | readBlock block =>
    have hread := @BufferCache.coherent_readBlock r.last block
    exact (hread.mono (fun _ h => h) fun _ _ h => h.1).keeps h
  | writeBlock block data =>
    obtain ⟨hok, herr⟩ := BufferCache.coherent_writeBlock block data r.cache h
    simp only [step]
    split
    · rename_i cache hwrite
      exact hok () cache hwrite
    · rename_i e cache hwrite
      exact herr e cache hwrite
  | writeBack block => exact (BufferCache.coherent_writeBack block).keeps h
  | flush =>
    exact (BufferCache.coherent_flush.mono (fun _ h => h)
      fun _ _ h => h.1).keeps h
  | evict block => exact (BufferCache.coherent_evict block).keeps h

theorem coherent_run {r : CacheRun} (h : r.cache.Coherent r.last)
    (calls : List CacheCall) :
    (r.run calls).cache.Coherent (r.run calls).last := by
  unfold run
  induction calls generalizing r with
  | nil => exact h
  | cons call calls ih => exact ih (coherent_step h call)

end CacheRun

/-- The cache never loses or invents data: after every run, whichever device
calls failed in it, a read gives the data last written, a clean entry and an
uncached block are durable, and a flush that succeeds makes every write
durable. -/
theorem bufferCache_coherent (size : Nat) (contents : Nat → Block)
    (faults : List (Option Fault)) (calls : List CacheCall) :
    let r := (CacheRun.start size contents faults).run calls
    (∀ block data, (BufferCache.readBlock block r.cache).1 = .ok data →
      data = r.last block) ∧
    (∀ block entry, r.cache.entries[block]? = some entry →
      entry.state = .clean → entry.data = r.cache.device.durable block) ∧
    (∀ block, r.cache.entries[block]? = none →
      r.cache.device.current block = r.last block ∧
        r.cache.device.durable block = r.last block) ∧
    ((BufferCache.flush r.cache).1 = .ok () →
      (∀ (block : Nat) (entry : CacheEntry),
        (BufferCache.flush r.cache).2.entries[block]? = some entry →
          entry.state = .clean) ∧
      ∀ block, (BufferCache.flush r.cache).2.device.durable block =
        r.last block) := by
  intro r
  have h : r.cache.Coherent r.last :=
    CacheRun.coherent_run (BufferCache.coherent_new size contents faults) calls
  refine ⟨?_, ?_, ?_, ?_⟩
  · intro block data hread
    obtain ⟨hok, _⟩ := BufferCache.coherent_readBlock block r.cache h
    exact (hok data _ (Prod.ext hread rfl)).2
  · intro block entry hentry hclean
    have hblock := h block
    rw [hentry] at hblock
    obtain ⟨data, state⟩ := entry
    cases hclean
    exact hblock.1.trans hblock.2.2.1.symm
  · intro block hentry
    have hblock := h block
    rw [hentry] at hblock
    exact ⟨hblock.1, hblock.2.1⟩
  · intro hflush
    obtain ⟨hok, _⟩ := BufferCache.coherent_flush r.cache h
    obtain ⟨hcoherent, hclean⟩ := hok () _ (Prod.ext hflush rfl)
    refine ⟨hclean, ?_⟩
    intro block
    have hblock := hcoherent block
    rcases hentry : (BufferCache.flush r.cache).2.entries[block]? with
      _ | ⟨data, state⟩
    · rw [hentry] at hblock
      exact hblock.2.1
    · have hstate := hclean block _ hentry
      rw [hentry] at hblock
      cases hstate
      exact hblock.2.2.1

end FilesystemLab
