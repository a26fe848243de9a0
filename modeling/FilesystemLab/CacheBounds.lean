import FilesystemLab.BufferCache
import Mathlib.Data.List.Perm.Subperm

/-!
# What a cache holds

`state`, `cached_blocks` and `validate_invariants` of `src/cache.rs`.

The device is any whose calls do not change its size; what they answer is up to
it.  `Inside` is the invariant of the cache over it: no entry is outside the
device.  So `validate_invariants` accepts after every run, and the cache never
has more entries than the device has blocks (`validateInvariants_run`).
-/

namespace FilesystemLab

open Effect

namespace BufferCache

section Inside

variable {σ : Type} [CachedDevice σ] {n : Nat}

/-- `BufferCache::cached_blocks`. -/
def cachedBlocks (c : BufferCache σ) : Nat := c.entries.size

/-- `BufferCache::state`. -/
def state (c : BufferCache σ) (block : Nat) : Option BufferState :=
  c.entries[block]?.map CacheEntry.state

/-- `BufferCache::validate_invariants`. -/
def validateInvariants (c : BufferCache σ) : Result Unit :=
  match c.entries.toList.find? fun entry =>
    CachedDevice.blockCount c.device ≤ entry.1 with
  | some (block, _) =>
    .error (invalidData s!"cached block {block} is outside the device")
  | none => pure ()

/-- No call of the device changes its size. -/
structure FixedSize (σ : Type) [CachedDevice σ] : Prop where
  readBlock : ∀ (block : Nat) (d : σ),
    CachedDevice.blockCount (CachedDevice.readBlock block d).2 =
      CachedDevice.blockCount d
  writeBlock : ∀ (block : Nat) (data : Block) (d : σ),
    CachedDevice.blockCount (CachedDevice.writeBlock block data d).2 =
      CachedDevice.blockCount d
  flush : ∀ d : σ, CachedDevice.blockCount (CachedDevice.flush d).2 =
    CachedDevice.blockCount d

/-- The device has `n` blocks, and no entry is outside them. -/
def Inside (n : Nat) (c : BufferCache σ) : Prop :=
  CachedDevice.blockCount c.device = n ∧
    ∀ (block : Nat) (entry : CacheEntry), c.entries[block]? = some entry →
      block < n

theorem inside_new (device : σ) :
    (new device).Inside (CachedDevice.blockCount device) := by
  refine ⟨rfl, ?_⟩
  intro block entry hentry
  have hnone : (∅ : Std.TreeMap Nat CacheEntry)[block]? = some entry := hentry
  rw [Std.TreeMap.getElem?_emptyc] at hnone
  cases hnone

theorem inside_onDevice {α : Type} {call : DevM σ α}
    (hcall : ∀ d, CachedDevice.blockCount (call d).2 =
      CachedDevice.blockCount d) :
    Triple (Inside n) (onDevice call) (fun _ => Inside n) (Inside n) := by
  intro c h
  have hkeeps : Inside n (onDevice call c).2 := ⟨(hcall c.device).trans h.1, h.2⟩
  constructor
  · intro a c' hrun
    rw [hrun] at hkeeps
    exact hkeeps
  · intro e c' hrun
    rw [hrun] at hkeeps
    exact hkeeps

theorem inside_modifyEntries
    {f : Std.TreeMap Nat CacheEntry → Std.TreeMap Nat CacheEntry}
    (hf : ∀ (entries : Std.TreeMap Nat CacheEntry) (b : Nat)
      (entry : CacheEntry), (f entries)[b]? = some entry →
        b < n ∨ ∃ before, entries[b]? = some before) :
    Triple (Inside n) (modifyEntries f) (fun _ => Inside n)
      (Inside (σ := σ) n) := by
  apply Triple.of_apply
  intro c h
  refine .inl ⟨(), _, rfl, h.1, ?_⟩
  intro b entry hentry
  rcases hf c.entries b entry hentry with hlt | ⟨before, hbefore⟩
  · exact hlt
  · exact h.2 b before hbefore

/-- A query keeps what does not depend on its answer. -/
theorem inside_query {α : Type} (q : BufferCache σ → Result α) :
    Triple (Inside n) (Effect.query q) (fun _ => Inside n) (Inside n) :=
  Triple.query (fun _ h _ _ => h) fun _ h => h

theorem inside_insert {block : Nat} (hlt : block < n) (entry : CacheEntry) :
    Triple (Inside n) (modifyEntries (·.insert block entry))
      (fun _ => Inside n) (Inside (σ := σ) n) := by
  apply inside_modifyEntries
  intro entries b other hother
  rw [getElem?_insert] at hother
  split at hother
  · rename_i heq
    rw [← heq]
    exact .inl hlt
  · exact .inr ⟨other, hother⟩

/-- Only a block of the device passes `validate_block`. -/
theorem inside_validateBlock (block : Nat) :
    Triple (Inside n) (Effect.query (validateBlock (σ := σ) · block))
      (fun _ c => Inside n c ∧ block < n) (Inside n) := by
  refine Triple.query ?_ fun _ h => h
  intro c h _ hvalid
  rw [validateBlock, rejectIf_eq_ok, h.1] at hvalid
  exact ⟨h, Nat.lt_of_not_le hvalid⟩

theorem inside_ensureCached (hd : FixedSize σ) {block : Nat} (hlt : block < n) :
    Triple (Inside n) (ensureCached (σ := σ) block) (fun _ => Inside n)
      (Inside n) := by
  refine Triple.bind _ (inside_query _) ?_
  intro cached
  cases cached with
  | true => exact Triple.pure fun _ h => h
  | false =>
    refine Triple.bind _ (inside_onDevice (hd.readBlock block)) ?_
    intro data
    exact inside_insert hlt _

theorem inside_readBlock (hd : FixedSize σ) (block : Nat) :
    Triple (Inside n) (readBlock (σ := σ) block) (fun _ => Inside n)
      (Inside n) := by
  refine Triple.bind _ (inside_validateBlock block) ?_
  intro _ c h
  refine (Triple.bind _ (inside_ensureCached hd h.2) ?_) c h.1
  intro _
  exact inside_query _

theorem inside_writeBlock (block : Nat) (data : Block) :
    Triple (Inside n) (writeBlock (σ := σ) block data) (fun _ => Inside n)
      (Inside n) := by
  refine Triple.bind _ (inside_validateBlock block) ?_
  intro _ c h
  exact inside_insert h.2 _ c h.1

theorem inside_writeBack (hd : FixedSize σ) (block : Nat) :
    Triple (Inside n) (writeBack (σ := σ) block) (fun _ => Inside n)
      (Inside n) := by
  refine Triple.bind _ (inside_query _) ?_
  intro entry
  by_cases hstate : entry.state ≠ .dirty
  · rw [if_pos hstate]
    exact Triple.pure fun _ h => h
  · rw [if_neg hstate]
    refine Triple.bind _ (inside_onDevice (hd.writeBlock block _)) ?_
    intro _
    apply inside_modifyEntries
    intro entries b other hother
    rw [Std.TreeMap.getElem?_modify] at hother
    split at hother
    · rename_i heq
      obtain ⟨before, hbefore, _⟩ := Option.map_eq_some_iff.mp hother
      rw [Std.LawfulEqCmp.compare_eq_iff_eq] at heq
      rw [← heq]
      exact .inr ⟨before, hbefore⟩
    · exact .inr ⟨other, hother⟩

theorem inside_flush (hd : FixedSize σ) :
    Triple (Inside n) (flush (σ := σ)) (fun _ => Inside n) (Inside n) := by
  refine Triple.bind _ (inside_query _) ?_
  intro dirty
  refine Triple.bind _ (Triple.forEach (fun _ => Inside n)
    (fun block _ => inside_writeBack hd block) dirty) ?_
  intro _
  refine Triple.bind _ (inside_query _) ?_
  intro pending
  cases pending with
  | false => exact Triple.pure fun _ h => h
  | true =>
    refine Triple.bind _ (inside_onDevice hd.flush) ?_
    intro _
    apply inside_modifyEntries
    intro entries b other hother
    rw [Std.TreeMap.getElem?_map] at hother
    obtain ⟨before, hbefore, _⟩ := Option.map_eq_some_iff.mp hother
    exact .inr ⟨before, hbefore⟩

theorem inside_evict (block : Nat) :
    Triple (Inside n) (evict (σ := σ) block) (fun _ => Inside n)
      (Inside n) := by
  refine Triple.bind _ (inside_query _) ?_
  intro entry
  refine Triple.bind _ (Triple.lift (fun _ h _ _ => h) fun _ h => h) ?_
  intro _
  apply inside_modifyEntries
  intro entries b other hother
  rw [Std.TreeMap.getElem?_erase] at hother
  split at hother
  · cases hother
  · exact .inr ⟨other, hother⟩

end Inside

end BufferCache

/-! ## Runs -/

section Runs

variable {σ : Type} [CachedDevice σ]

/-- The call, without its answer. -/
def CacheCall.run : CacheCall → DevM (BufferCache σ) Unit
  | .readBlock block => do
    let _ ← BufferCache.readBlock block
  | .writeBlock block data => BufferCache.writeBlock block data
  | .writeBack block => BufferCache.writeBack block
  | .flush => BufferCache.flush
  | .evict block => BufferCache.evict block

/-- The cache after some calls, of which any may fail. -/
def BufferCache.afterCalls (c : BufferCache σ) (calls : List CacheCall) :
    BufferCache σ :=
  calls.foldl (fun c call => (call.run c).2) c

/-- One call, whether it succeeds or fails. -/
theorem BufferCache.Inside.step (hd : BufferCache.FixedSize σ) {n : Nat}
    {c : BufferCache σ} (h : c.Inside n) (call : CacheCall) :
    (call.run c).2.Inside n := by
  cases call with
  | readBlock block =>
    refine (Triple.bind _ (BufferCache.inside_readBlock hd block) ?_).keeps h
    intro _
    exact Triple.pure fun _ h => h
  | writeBlock block data =>
    exact (BufferCache.inside_writeBlock block data).keeps h
  | writeBack block => exact (BufferCache.inside_writeBack hd block).keeps h
  | flush => exact (BufferCache.inside_flush hd).keeps h
  | evict block => exact (BufferCache.inside_evict block).keeps h

theorem BufferCache.Inside.run (hd : BufferCache.FixedSize σ) {n : Nat}
    {c : BufferCache σ} (h : c.Inside n) (calls : List CacheCall) :
    (c.afterCalls calls).Inside n := by
  unfold BufferCache.afterCalls
  induction calls generalizing c with
  | nil => exact h
  | cons call calls ih => exact ih (h.step hd call)

/-- The entries of such a cache are blocks of the device, each once. -/
theorem BufferCache.Inside.cachedBlocks_le {n : Nat} {c : BufferCache σ}
    (h : c.Inside n) : c.cachedBlocks ≤ n := by
  have hnodup : c.entries.keys.Nodup := by
    refine Std.TreeMap.distinct_keys.imp ?_
    intro a b hab heq
    exact hab (Std.compare_eq_iff_eq.mpr heq)
  have hsubset : c.entries.keys ⊆ List.range n := by
    intro block hblock
    rw [Std.TreeMap.mem_keys, Std.TreeMap.mem_iff_isSome_getElem?,
      Option.isSome_iff_exists] at hblock
    obtain ⟨entry, hentry⟩ := hblock
    exact List.mem_range.mpr (h.2 block entry hentry)
  have hle := (List.subperm_of_subset hnodup hsubset).length_le
  rw [Std.TreeMap.length_keys, List.length_range] at hle
  exact hle

/-- **A cache holds blocks of its device only.**  After any calls on a new cache,
whatever the device answers, `validate_invariants` accepts, there are at most as
many entries as the device has blocks, and no block outside it has a state. -/
theorem validateInvariants_run (hd : BufferCache.FixedSize σ) (device : σ)
    (calls : List CacheCall) :
    let c := (BufferCache.new device).afterCalls calls
    c.validateInvariants = .ok () ∧
      c.cachedBlocks ≤ CachedDevice.blockCount device ∧
      ∀ block, CachedDevice.blockCount device ≤ block → c.state block = none := by
  intro c
  have h : c.Inside (CachedDevice.blockCount device) :=
    (BufferCache.inside_new device).run hd calls
  refine ⟨?_, h.cachedBlocks_le, ?_⟩
  · have hnone : c.entries.toList.find? (fun entry =>
        CachedDevice.blockCount c.device ≤ entry.1) = none := by
      rw [List.find?_eq_none]
      intro entry hentry
      have hlt := h.2 entry.1 entry.2
        (Std.TreeMap.mem_toList_iff_getElem?_eq_some.mp hentry)
      rw [decide_eq_true_eq, h.1]
      omega
    rw [BufferCache.validateInvariants, hnone]
    rfl
  · intro block hblock
    rw [BufferCache.state, Option.map_eq_none_iff]
    cases hentry : c.entries[block]? with
    | none => rfl
    | some entry => exact absurd (h.2 block entry hentry) (Nat.not_lt.mpr hblock)

end Runs

theorem FaultyDevice.fixedSize : BufferCache.FixedSize FaultyDevice where
  readBlock := by
    intro block d
    rcases d.readBlock_cases block with hread | ⟨e, hread⟩
    · rw [hread]
      rfl
    · rw [hread]
      rfl
  writeBlock := by
    intro block data d
    rcases d.writeBlock_cases block data with hwrite | ⟨e, hwrite | hwrite⟩
    · rw [hwrite]
      rfl
    · rw [hwrite]
      rfl
    · rw [hwrite]
      rfl
  flush := by
    intro d
    rcases d.flush_cases with hflush | ⟨e, settled, hflush⟩
    · rw [hflush]
      rfl
    · rw [hflush]
      rfl

/-- On two blocks, with a write to a third and a flush that fails. -/
theorem validateInvariants_run_sample :
    ((BufferCache.new (FaultyDevice.boot 2 (fun _ => Block.zero)
      [none, some ⟨⟨.other, "flush"⟩, false, fun _ => none⟩])).afterCalls
        [.writeBlock 0 Block.zero, .writeBlock 2 Block.zero, .writeBack 0,
          .flush]).validateInvariants = .ok () :=
  (validateInvariants_run FaultyDevice.fixedSize _ _).1

end FilesystemLab
