import Mathlib.Data.List.Flatten
import Mathlib.Data.List.Pairwise
import FilesystemLab.Lib.Rooted
import FilesystemLab.Mounted

/-!
# Edits of the tables

What the operations on the namespace have in common: they select entries by
parent and name, change a few of them, and add or remove inodes.

* `selectEntry`, `findInode` and `referenceCount` are the searches that the
  operations make, with what they find in the tables of a disk.
* `Owned.release` and `Namespace.remove` say that a file system stays consistent
  when some inodes go, with their blocks and the entries for them, and
  `Owned.take` and `Namespace.addEntry` that it does when an inode or an entry
  comes.
* `namespace_of_targeted` reduces reachability to a count: in a namespace
  without cycles, the root reaches every inode as soon as each of the others is
  the target of some entry.
-/

namespace FilesystemLab

open Relation Digraph

/-! ## Searches in the tables -/

/-- `map_err(|error| io::Error::new(io::ErrorKind::InvalidInput, error))` on an
allocator error. -/
def liftInput {α : Type} (x : Except AllocationError α) : Result α :=
  x.mapError fun e => invalidInput e.message

@[simp] theorem liftInput_eq_ok {α : Type} {x : Except AllocationError α}
    {a : α} : liftInput x = .ok a ↔ x = .ok a := by
  cases x <;> simp [liftInput, Except.mapError]

/-- `entries.iter().position(..)` for a parent and a name, with the entry at
this position. -/
def selectEntry (entries : List PersistedDirectoryEntry) (parent : UInt64)
    (name : String) : Option (Nat × PersistedDirectoryEntry) :=
  (entries.findIdx? fun entry => entry.parent = parent ∧ entry.name = name).bind
    fun index => entries[index]?.map fun entry => (index, entry)

/-- `entries.iter().find(..)` for a parent and a name. -/
def lookupEntry (entries : List PersistedDirectoryEntry) (parent : UInt64)
    (name : String) : Option PersistedDirectoryEntry :=
  entries.find? fun entry => entry.parent = parent ∧ entry.name = name

/-- `inodes.iter().find(..)` for an identifier. -/
def findInode (inodes : List PersistedInode) (id : UInt64) :
    Option PersistedInode :=
  inodes.find? fun inode => inode.id = id

/-- `entries.iter().filter(|entry| entry.target == target).count()`. -/
def referenceCount (entries : List PersistedDirectoryEntry) (target : UInt64) :
    Nat :=
  (entries.filter fun entry => entry.target = target).length

/-- An entry at its position, with its parent and name. -/
structure Selects (entries : List PersistedDirectoryEntry) (parent : UInt64)
    (name : String) (index : Nat) (entry : PersistedDirectoryEntry) : Prop where
  get : entries[index]? = some entry
  parent_eq : entry.parent = parent
  name_eq : entry.name = name

theorem Selects.mem {entries : List PersistedDirectoryEntry} {parent : UInt64}
    {name : String} {index : Nat} {entry : PersistedDirectoryEntry}
    (h : Selects entries parent name index entry) : entry ∈ entries :=
  List.mem_of_getElem? h.get

theorem selects_of_selectEntry {entries : List PersistedDirectoryEntry}
    {parent : UInt64} {name : String} {index : Nat}
    {entry : PersistedDirectoryEntry}
    (h : selectEntry entries parent name = some (index, entry)) :
    Selects entries parent name index entry := by
  unfold selectEntry at h
  obtain ⟨i, hi, h⟩ := Option.bind_eq_some_iff.mp h
  obtain ⟨e, he, h⟩ := Option.map_eq_some_iff.mp h
  cases h
  obtain ⟨hlt, hkey, _⟩ := List.findIdx?_eq_some_iff_getElem.mp hi
  rw [List.getElem?_eq_getElem hlt, Option.some.injEq] at he
  rw [he, decide_eq_true_eq] at hkey
  refine ⟨?_, hkey.1, hkey.2⟩
  rw [List.getElem?_eq_getElem hlt, he]

/-- The search fails only if there is no such entry. -/
theorem selectEntry_eq_none {entries : List PersistedDirectoryEntry}
    {parent : UInt64} {name : String} :
    selectEntry entries parent name = none ↔
      ∀ entry ∈ entries, ¬ (entry.parent = parent ∧ entry.name = name) := by
  unfold selectEntry
  constructor
  · intro h
    cases hi : entries.findIdx? fun entry =>
      entry.parent = parent ∧ entry.name = name with
    | none =>
      intro entry hentry
      have := List.findIdx?_eq_none_iff.mp hi entry hentry
      simpa using this
    | some i =>
      obtain ⟨hlt, _⟩ := List.findIdx?_eq_some_iff_getElem.mp hi
      rw [hi] at h
      simp [List.getElem?_eq_getElem hlt] at h
  · intro h
    have hnone : (entries.findIdx? fun entry =>
        entry.parent = parent ∧ entry.name = name) = none := by
      rw [List.findIdx?_eq_none_iff]
      intro entry hentry
      simpa using h entry hentry
    rw [hnone]
    rfl

theorem lookupEntry_eq_some {entries : List PersistedDirectoryEntry}
    {parent : UInt64} {name : String} {entry : PersistedDirectoryEntry}
    (h : lookupEntry entries parent name = some entry) :
    entry ∈ entries ∧ entry.parent = parent ∧ entry.name = name := by
  have hkey := List.find?_some h
  rw [decide_eq_true_eq] at hkey
  exact ⟨List.mem_of_find?_eq_some h, hkey⟩

theorem lookupEntry_eq_none {entries : List PersistedDirectoryEntry}
    {parent : UInt64} {name : String} :
    lookupEntry entries parent name = none ↔
      ∀ entry ∈ entries, ¬ (entry.parent = parent ∧ entry.name = name) := by
  simp [lookupEntry]

theorem findInode_eq_some {inodes : List PersistedInode} {id : UInt64}
    {inode : PersistedInode} (h : findInode inodes id = some inode) :
    inode ∈ inodes ∧ inode.id = id := by
  have hid := List.find?_some h
  rw [decide_eq_true_eq] at hid
  exact ⟨List.mem_of_find?_eq_some h, hid⟩

theorem findInode_eq_none {inodes : List PersistedInode} {id : UInt64} :
    findInode inodes id = none ↔ ∀ inode ∈ inodes, inode.id ≠ id := by
  simp [findInode]

section Keys

variable {entries : List PersistedDirectoryEntry} {parent : UInt64}
  {name : String} {index : Nat} {entry : PersistedDirectoryEntry}

/-- In a table without repetitions, `entries.remove(index)` removes one entry
for good. -/
theorem eraseIdx_eq_filter (hnodup : entries.Nodup)
    (hget : entries[index]? = some entry) :
    entries.eraseIdx index = entries.filter fun other => other ≠ entry := by
  induction entries generalizing index with
  | nil => rfl
  | cons head rest ih =>
    rw [List.nodup_cons] at hnodup
    cases index with
    | zero =>
      rw [List.getElem?_cons_zero, Option.some.injEq] at hget
      subst hget
      rw [List.eraseIdx_cons_zero, List.filter_cons_of_neg (by simp)]
      symm
      rw [List.filter_eq_self]
      intro other hother
      rw [decide_eq_true_eq]
      intro heq
      subst heq
      exact hnodup.1 hother
    | succ index =>
      rw [List.getElem?_cons_succ] at hget
      have hne : head ≠ entry := by
        intro heq
        subst heq
        exact hnodup.1 (List.mem_of_getElem? hget)
      rw [List.eraseIdx_cons_succ, List.filter_cons_of_pos (by simpa using hne),
        ih hnodup.2 hget]

theorem mem_eraseIdx (hnodup : entries.Nodup)
    (hget : entries[index]? = some entry) {other : PersistedDirectoryEntry} :
    other ∈ entries.eraseIdx index ↔ other ∈ entries ∧ other ≠ entry := by
  rw [eraseIdx_eq_filter hnodup hget, List.mem_filter, decide_eq_true_eq]

/-- In a table without repetitions, `entries[index] = replacement` exchanges one
entry. -/
theorem mem_set_entry (hnodup : entries.Nodup)
    (hget : entries[index]? = some entry)
    {replacement other : PersistedDirectoryEntry} :
    other ∈ entries.set index replacement ↔
      other = replacement ∨ other ∈ entries ∧ other ≠ entry := by
  obtain ⟨hlt, _⟩ := List.getElem?_eq_some_iff.mp hget
  rw [← mem_eraseIdx hnodup hget, List.mem_eraseIdx_iff_getElem?,
    List.mem_iff_getElem?]
  constructor
  · intro hfacts
    rcases hfacts with ⟨i, hi⟩
    by_cases hsame : index = i
    · subst hsame
      rw [List.getElem?_set_self hlt, Option.some.injEq] at hi
      exact .inl hi.symm
    · rw [List.getElem?_set_ne hsame] at hi
      exact .inr ⟨i, Ne.symm hsame, hi⟩
  · intro hcases
    rcases hcases with rfl | ⟨i, hne, hi⟩
    · exact ⟨index, List.getElem?_set_self hlt⟩
    · exact ⟨i, by rw [List.getElem?_set_ne (Ne.symm hne), hi]⟩

/-- An inode with one reference has no entry besides the selected one. -/
theorem referenceCount_eq_one (hnodup : entries.Nodup) (hmem : entry ∈ entries) :
    referenceCount entries entry.target = 1 ↔
      ∀ other ∈ entries, other.target = entry.target → other = entry := by
  have hself : entry ∈ entries.filter fun other =>
      other.target = entry.target := by
    rw [List.mem_filter]
    exact ⟨hmem, by simp⟩
  constructor
  · intro hcount other hother htarget
    obtain ⟨only, honly⟩ := List.length_eq_one_iff.mp hcount
    have hother' : other ∈ entries.filter fun other =>
        other.target = entry.target := by
      rw [List.mem_filter]
      exact ⟨hother, by simpa using htarget⟩
    rw [honly, List.mem_singleton] at hself hother'
    rw [hself, hother']
  · intro hall
    have hsub : entries.filter (fun other => other.target = entry.target) ⊆
        [entry] := by
      intro other hother
      rw [List.mem_filter, decide_eq_true_eq] at hother
      rw [List.mem_singleton]
      exact hall other hother.1 hother.2
    have hle := ((hnodup.filter _).subperm hsub).length_le
    have hpos := List.length_pos_of_mem hself
    show (entries.filter _).length = 1
    rw [List.length_singleton] at hle
    omega

/-- An inode with more references has another entry. -/
theorem exists_other_reference (hnodup : entries.Nodup)
    (hmem : entry ∈ entries) (hcount : referenceCount entries entry.target ≠ 1) :
    ∃ other ∈ entries, other ≠ entry ∧ other.target = entry.target := by
  by_contra hnone
  apply hcount
  rw [referenceCount_eq_one hnodup hmem]
  intro other hother htarget
  by_contra hne
  exact hnone ⟨other, hother, hne, htarget⟩

end Keys

section Inodes

variable {inodes : List PersistedInode} {id : UInt64} {inode : PersistedInode}

/-- In a table with distinct identifiers an inode is found by its own. -/
theorem findInode_of_mem (hnodup : (inodes.map PersistedInode.id).Nodup)
    (hmem : inode ∈ inodes) : findInode inodes inode.id = some inode := by
  cases hfind : findInode inodes inode.id with
  | none => exact absurd rfl (findInode_eq_none.mp hfind inode hmem)
  | some other =>
    obtain ⟨hother, hid⟩ := findInode_eq_some hfind
    rw [List.inj_on_of_nodup_map hnodup hother hmem hid]

theorem kindOf_of_findInode (hnodup : (inodes.map PersistedInode.id).Nodup)
    (hfind : findInode inodes id = some inode) :
    kindOf inodes id = some inode.kind := by
  obtain ⟨hmem, rfl⟩ := findInode_eq_some hfind
  exact kindOf_of_mem hnodup hmem

/-- `inodes.remove(index)` at the position of an identifier. -/
theorem eraseP_id (hnodup : (inodes.map PersistedInode.id).Nodup) :
    inodes.eraseP (fun inode => inode.id = id) =
      inodes.filter fun inode => inode.id ∉ [id] := by
  induction inodes with
  | nil => rfl
  | cons head rest ih =>
    rw [List.map_cons, List.nodup_cons] at hnodup
    by_cases hid : head.id = id
    · rw [List.eraseP_cons_of_pos (by simpa using hid),
        List.filter_cons_of_neg (by simpa using hid)]
      symm
      rw [List.filter_eq_self]
      intro other hother
      simp only [List.mem_singleton, decide_eq_true_eq]
      intro heq
      subst heq
      exact hnodup.1 (hid ▸ List.mem_map_of_mem hother)
    · rw [List.eraseP_cons_of_neg (by simpa using hid),
        List.filter_cons_of_pos (by simpa using hid), ih hnodup.2]

/-- The kinds of the inodes that stay. -/
theorem kindOf_filter {removed : List UInt64} (hid : id ∉ removed) :
    kindOf (inodes.filter fun inode => inode.id ∉ removed) id =
      kindOf inodes id := by
  unfold kindOf
  rw [← List.filter_reverse, List.find?_filter]
  congr 2
  funext other
  by_cases hother : other.id = id
  · simp [hother, hid]
  · simp [hother]

end Inodes

/-! ## Ownership -/

/-- The blocks of the inodes that go. -/
def releasedBlocks (inodes : List PersistedInode) (removed : List UInt64) :
    List UInt64 :=
  (inodes.filter fun inode => inode.id ∈ removed).flatMap PersistedInode.blocks

section Ownership

variable {sb : Superblock} {a a' : BlockAllocator}
  {inodes : List PersistedInode} {removed : List UInt64}

theorem mem_releasedBlocks {block : UInt64} :
    block ∈ releasedBlocks inodes removed ↔
      ∃ inode ∈ inodes, inode.id ∈ removed ∧ block ∈ inode.blocks := by
  simp only [releasedBlocks, List.mem_flatMap, List.mem_filter,
    decide_eq_true_eq, and_assoc]

/-- The blocks of one inode that goes. -/
theorem releasedBlocks_singleton (hnodup : (inodes.map PersistedInode.id).Nodup)
    {inode : PersistedInode} (hmem : inode ∈ inodes) :
    releasedBlocks inodes [inode.id] = inode.blocks := by
  have hfilter : inodes.filter (fun other => other.id ∈ [inode.id]) =
      [inode] := by
    apply List.perm_singleton.mp
    rw [List.perm_ext_iff_of_nodup (hnodup.of_map.filter _)
      (List.nodup_singleton inode)]
    intro other
    rw [List.mem_filter, decide_eq_true_eq, List.mem_singleton,
      List.mem_singleton]
    constructor
    · intro hfacts
      rcases hfacts with ⟨hother, hid⟩
      exact List.inj_on_of_nodup_map hnodup hother hmem hid
    · intro heq
      subst heq
      exact ⟨hmem, rfl⟩
  rw [releasedBlocks, hfilter, List.flatMap_singleton]

/-- No two inodes share a block. -/
theorem Owned.eq_of_shared (h : Owned sb a inodes)
    {inode other : PersistedInode} (hinode : inode ∈ inodes)
    (hother : other ∈ inodes) {block : UInt64} (hblock : block ∈ inode.blocks)
    (hshared : block ∈ other.blocks) : inode = other := by
  by_contra hne
  have hpairwise := (List.nodup_flatMap.mp h.nodup).2
  have hsymm : Std.Symm
      (Function.onFun List.Disjoint PersistedInode.blocks) :=
    ⟨fun _ _ hdisjoint => hdisjoint.symm⟩
  exact hpairwise.forall hinode hother hne hblock hshared

/-- The blocks of the inodes that go can be freed. -/
theorem Owned.exists_freeAll (h : Owned sb a inodes) (removed : List UInt64) :
    ∃ a', a.freeAll ((releasedBlocks inodes removed).map UInt64.toNat) =
      .ok a' := by
  apply BlockAllocator.exists_freeAll
  · rw [List.nodup_map_iff fun _ _ => UInt64.toNat_inj.mp]
    exact (List.filter_sublist.flatMap _).nodup h.nodup
  · intro b hb
    obtain ⟨block, hblock, rfl⟩ := List.mem_map.mp hb
    obtain ⟨inode, hinode, _, hmem⟩ := mem_releasedBlocks.mp hblock
    exact h.data inode hinode block hmem

/-- **Inodes that go with their blocks leave the others as owners.** -/
theorem Owned.release (h : Owned sb a inodes)
    (hfreed : a.freeAll ((releasedBlocks inodes removed).map UInt64.toNat) =
      .ok a') :
    Owned sb a' (inodes.filter fun inode => inode.id ∉ removed) := by
  obtain ⟨_, _, _, _, hflag⟩ := BlockAllocator.freeAll_eq_ok hfreed
  have hreleased : ∀ block : UInt64, block.toNat ∈
      (releasedBlocks inodes removed).map UInt64.toNat ↔
        ∃ inode ∈ inodes, inode.id ∈ removed ∧ block ∈ inode.blocks := by
    intro block
    rw [← mem_releasedBlocks,
      List.mem_map_of_injective fun _ _ => UInt64.toNat_inj.mp]
  refine ⟨?_, (List.filter_sublist.flatMap _).nodup h.nodup, ?_⟩
  · intro inode hinode block hblock
    rw [List.mem_filter, decide_eq_true_eq] at hinode
    have hno : block.toNat ∉
        (releasedBlocks inodes removed).map UInt64.toNat := by
      rw [hreleased]
      intro hfacts
      rcases hfacts with ⟨other, hother, hgone, hshared⟩
      have hsame := h.eq_of_shared hinode.1 hother hblock hshared
      rw [hsame] at hinode
      exact hinode.2 hgone
    rw [hflag, h.data inode hinode.1 block hblock, decide_eq_true hno]
    rfl
  · intro block hset
    rw [hflag, Bool.and_eq_true, decide_eq_true_eq] at hset
    obtain ⟨inode, hinode, b, hb, rfl⟩ := h.owner block hset.2
    rw [hreleased] at hset
    refine ⟨inode, ?_, b, hb, rfl⟩
    rw [List.mem_filter, decide_eq_true_eq]
    refine ⟨hinode, ?_⟩
    intro hgone
    exact hset.1 ⟨inode, hinode, hgone, hb⟩

/-- The allocator `a'` is `a` with the free data blocks `blocks` taken. -/
structure Takes (a a' : BlockAllocator) (blocks : List UInt64) : Prop where
  totalBlocks : a'.totalBlocks = a.totalBlocks
  reservedBlocks : a'.reservedBlocks = a.reservedBlocks
  nodup : blocks.Nodup
  free : ∀ block ∈ blocks, a.flag block.toNat = false
  flag : ∀ b, a'.flag b =
    (decide (b ∈ blocks.map UInt64.toNat) || a.flag b)

/-- An allocator as it was has taken nothing. -/
theorem takes_nil (a : BlockAllocator) : Takes a a [] :=
  ⟨rfl, rfl, List.nodup_nil, by simp, by simp⟩

/-- A block that is taken is a data block. -/
theorem Takes.range {blocks : List UInt64} (h : Takes a a' blocks)
    {block : UInt64} (hblock : block ∈ blocks) :
    a.reservedBlocks ≤ block.toNat ∧ block.toNat < a.totalBlocks := by
  have hset : a'.flag block.toNat = true := by
    rw [h.flag, decide_eq_true (List.mem_map_of_mem hblock)]
    rfl
  have hrange := BlockAllocator.range_of_flag hset
  rw [h.totalBlocks, h.reservedBlocks] at hrange
  exact hrange

/-- **A new inode owns the blocks that were taken for it.** -/
theorem Owned.take (h : Owned sb a inodes) {inode : PersistedInode}
    (htakes : Takes a a' inode.blocks) : Owned sb a' (inodes ++ [inode]) := by
  refine ⟨?_, ?_, ?_⟩
  · intro other hother block hblock
    rw [htakes.flag]
    rcases List.mem_append.mp hother with hold | hnew
    · rw [h.data other hold block hblock, Bool.or_true]
    · rw [List.mem_singleton.mp hnew] at hblock
      rw [decide_eq_true (List.mem_map_of_mem hblock), Bool.true_or]
  · rw [List.flatMap_append, List.flatMap_singleton, List.nodup_append]
    refine ⟨h.nodup, htakes.nodup, ?_⟩
    intro block hold _ hnew heq
    subst heq
    obtain ⟨other, hother, hblock⟩ := List.mem_flatMap.mp hold
    have hset := h.data other hother block hblock
    rw [htakes.free block hnew] at hset
    cases hset
  · intro b hset
    rw [htakes.flag, Bool.or_eq_true, decide_eq_true_eq] at hset
    rcases hset with hnew | hold
    · obtain ⟨block, hblock, rfl⟩ := List.mem_map.mp hnew
      exact ⟨inode, by simp, block, hblock, rfl⟩
    · obtain ⟨other, hother, hblocks⟩ := h.owner b hold
      exact ⟨other, List.mem_append_left _ hother, hblocks⟩

end Ownership

/-! ## Consistency of the namespace -/

section Tree

variable {inodes inodes' : List PersistedInode}
  {entries entries' rest : List PersistedDirectoryEntry}
  {target parent : UInt64} {name : String}

/-- **Reachability by counting.**  Without cycles, the root reaches every inode
as soon as each of the others is the target of an entry. -/
theorem namespace_of_targeted
    (hparent : ∀ entry ∈ entries,
      kindOf inodes entry.parent = some .directory)
    (htarget : ∀ entry ∈ entries, kindOf inodes entry.target ≠ none)
    (hroot : inodes ≠ [] → kindOf inodes ROOT_INODE_ID = some .directory)
    (hacyclic : Acyclic (Links entries))
    (htargeted : ∀ inode ∈ inodes, inode.id ≠ ROOT_INODE_ID →
      ∃ entry ∈ entries, entry.target = inode.id) :
    Namespace inodes entries := by
  refine ⟨hparent, htarget, hroot, hacyclic, ?_⟩
  intro inode hinode
  have hsources : ∀ x y, Links entries x y →
      x ∈ entries.map PersistedDirectoryEntry.parent := by
    intro x y hfacts
    rcases hfacts with ⟨entry, hmem, rfl, _⟩
    exact List.mem_map_of_mem hmem
  refine @reach_of_predecessors _ _ _
    (fun id => ∃ inode ∈ inodes, inode.id = id) _
    (acc_of_acyclic_sources hsources hacyclic inode.id) ?_ ⟨inode, hinode, rfl⟩
  rintro _ ⟨other, hother, rfl⟩ hne
  obtain ⟨entry, hentry, htarget'⟩ := htargeted other hother hne
  obtain ⟨above, habove, hid, _⟩ := exists_of_kindOf (hparent entry hentry)
  exact ⟨entry.parent, ⟨above, habove, hid⟩, entry, hentry, rfl, htarget'⟩

/-- Every inode but the root is the target of an entry. -/
theorem Namespace.targeted (h : Namespace inodes entries)
    {inode : PersistedInode} (hinode : inode ∈ inodes)
    (hne : inode.id ≠ ROOT_INODE_ID) :
    ∃ entry ∈ entries, entry.target = inode.id := by
  rcases ReflTransGen.cases_tail (h.reachable inode hinode) with heq | ⟨_, _, hlast⟩
  · exact absurd heq hne
  · obtain ⟨entry, hentry, _, htarget⟩ := hlast
    exact ⟨entry, hentry, htarget⟩

/-- No entry targets the root. -/
theorem Namespace.target_ne_root (h : Namespace inodes entries)
    {entry : PersistedDirectoryEntry} (hentry : entry ∈ entries) :
    entry.target ≠ ROOT_INODE_ID := by
  intro hroot
  obtain ⟨above, habove, hid, _⟩ := exists_of_kindOf (h.parent entry hentry)
  have hreach := h.reachable above habove
  rw [hid] at hreach
  exact h.acyclic ROOT_INODE_ID
    (TransGen.tail' hreach ⟨entry, hentry, rfl, hroot⟩)

/-- An inode that is no directory is the parent of nothing. -/
theorem Namespace.parent_ne (h : Namespace inodes entries) {id : UInt64}
    (hkind : kindOf inodes id ≠ some .directory)
    {entry : PersistedDirectoryEntry} (hentry : entry ∈ entries) :
    entry.parent ≠ id := by
  intro heq
  subst heq
  exact hkind (h.parent entry hentry)

/-- One more entry is one more edge. -/
theorem links_eq_withEdge
    (hiff : ∀ entry, entry ∈ entries' ↔
      entry = ⟨parent, target, name⟩ ∨ entry ∈ rest) :
    Links entries' = WithEdge (Links rest) parent target := by
  funext x y
  apply propext
  constructor
  · intro hfacts
    rcases hfacts with ⟨entry, hentry, rfl, rfl⟩
    rcases (hiff entry).mp hentry with rfl | hold
    · exact .inr ⟨rfl, rfl⟩
    · exact .inl ⟨entry, hold, rfl, rfl⟩
  · intro hcases
    rcases hcases with ⟨entry, hentry, rfl, rfl⟩ | ⟨rfl, rfl⟩
    · exact ⟨entry, (hiff entry).mpr (.inr hentry), rfl, rfl⟩
    · exact ⟨_, (hiff _).mpr (.inl rfl), rfl, rfl⟩

theorem links_mono (hsub : ∀ entry ∈ entries', entry ∈ entries) :
    ∀ x y, Links entries' x y → Links entries x y := by
  intro x y hfacts
  rcases hfacts with ⟨entry, hentry, hx, hy⟩
  exact ⟨entry, hsub entry hentry, hx, hy⟩

/-- An inode that is no directory leads to no directory. -/
theorem Namespace.no_way_out (h : Namespace inodes entries)
    (hkind : kindOf inodes target ≠ some .directory)
    (hparent : kindOf inodes parent = some .directory)
    (hsub : ∀ entry ∈ rest, entry ∈ entries) :
    ¬ ReflTransGen (Links rest) target parent := by
  intro hpath
  rcases ReflTransGen.cases_head hpath with rfl | ⟨_, hedge, _⟩
  · exact hkind hparent
  · obtain ⟨entry, hentry, hsame, _⟩ := hedge
    exact h.parent_ne hkind (hsub entry hentry) hsame

/-- **Inodes that go with the entries for them leave a consistent namespace**,
if every other inode keeps an entry. -/
theorem Namespace.remove (h : Namespace inodes entries) {removed : List UInt64}
    (hsub : ∀ entry ∈ entries', entry ∈ entries)
    (hroot : ROOT_INODE_ID ∉ removed)
    (hclosed : ∀ entry ∈ entries',
      entry.parent ∉ removed ∧ entry.target ∉ removed)
    (hkept : ∀ inode ∈ inodes, inode.id ∉ removed →
      inode.id ≠ ROOT_INODE_ID → ∃ entry ∈ entries', entry.target = inode.id) :
    Namespace (inodes.filter fun inode => inode.id ∉ removed) entries' := by
  apply namespace_of_targeted
  · intro entry hentry
    rw [kindOf_filter (hclosed entry hentry).1]
    exact h.parent entry (hsub entry hentry)
  · intro entry hentry
    rw [kindOf_filter (hclosed entry hentry).2]
    exact h.target entry (hsub entry hentry)
  · intro hne
    rw [kindOf_filter hroot]
    apply h.root
    intro heq
    subst heq
    exact hne rfl
  · exact Acyclic.mono h.acyclic (links_mono hsub)
  · intro inode hinode hne
    rw [List.mem_filter, decide_eq_true_eq] at hinode
    exact hkept inode hinode.1 hinode.2 hne

/-- **One more entry keeps the namespace consistent** if it leads from a
directory to an inode that is no directory yet, and to the only new inode. -/
theorem Namespace.addEntry (h : Namespace inodes entries)
    (hkinds : ∀ id kind, kindOf inodes id = some kind →
      kindOf inodes' id = some kind)
    (hparent : kindOf inodes parent = some .directory)
    (htarget : kindOf inodes' target ≠ none)
    (hleaf : kindOf inodes target ≠ some .directory)
    (hnew : ∀ inode ∈ inodes', inode ∈ inodes ∨ inode.id = target) :
    Namespace inodes' (entries ++ [⟨parent, target, name⟩]) := by
  have hiff : ∀ entry, entry ∈ entries ++ [⟨parent, target, name⟩] ↔
      entry = ⟨parent, target, name⟩ ∨ entry ∈ entries := by
    intro entry
    rw [List.mem_append, List.mem_singleton]
    exact Or.comm
  apply namespace_of_targeted
  · intro entry hentry
    rcases (hiff entry).mp hentry with rfl | hold
    · exact hkinds _ _ hparent
    · exact hkinds _ _ (h.parent entry hold)
  · intro entry hentry
    rcases (hiff entry).mp hentry with rfl | hold
    · exact htarget
    · obtain ⟨kind, hkind⟩ := Option.ne_none_iff_exists'.mp
        (h.target entry hold)
      rw [hkinds _ _ hkind]
      exact Option.some_ne_none kind
  · intro _
    obtain ⟨above, habove, _⟩ := exists_of_kindOf hparent
    exact hkinds _ _ (h.root (List.ne_nil_of_mem habove))
  · rw [links_eq_withEdge hiff, acyclic_withEdge_iff]
    exact ⟨h.acyclic, h.no_way_out hleaf hparent fun _ hentry => hentry⟩
  · intro inode hinode hroot
    rcases hnew inode hinode with hold | rfl
    · obtain ⟨entry, hentry, hid⟩ := h.targeted hold hroot
      exact ⟨entry, (hiff entry).mpr (.inr hentry), hid⟩
    · exact ⟨_, (hiff _).mpr (.inl rfl), rfl⟩

end Tree

/-! ## Mounted disks -/

section Mounted

variable {d d' : Disk} {sb : Superblock} {a a' : BlockAllocator}
  {inodes inodes' : List PersistedInode}
  {entries entries' : List PersistedDirectoryEntry}
  {data : List (Nat × Block)}

/-- A transaction that keeps the tables consistent keeps the disk mounted. -/
theorem Mounted.of_became (h : Mounted d sb a inodes entries)
    (hbecame : Became sb d d' a' inodes' entries' data)
    (howned : Owned sb a' inodes') (htree : Namespace inodes' entries')
    (hpayloads : ∀ inode ∈ inodes',
      (inode ∈ inodes ∧ ∀ block ∈ inode.blocks,
        block.toNat ∉ data.map Prod.fst) ∨
      validateSymlinkInode d' inode = .ok ()) :
    Mounted d' sb a' inodes' entries' := by
  refine ⟨hbecame.toAtRest, howned, ?_, htree⟩
  intro inode hinode
  rcases hpayloads inode hinode with ⟨hold, hblocks⟩ | hnew
  · rw [hbecame.payload h.size]
    · exact h.payloads inode hold
    · intro block hblock
      obtain ⟨htotal, hreserved⟩ := h.geometry
      have hrange :=
        BlockAllocator.range_of_flag (h.owned.data inode hold block hblock)
      exact ⟨by omega, by omega, hblocks block hblock⟩
  · exact hnew

/-- A transaction on the tables of a mounted disk that keeps some of its
inodes. -/
theorem Mounted.of_became_sublist (h : Mounted d sb a inodes entries)
    (hsub : inodes'.Sublist inodes)
    (hbecame : Became sb d d' a' (inodes'.map PersistedInode.canonical)
      entries' [])
    (howned : Owned sb a' inodes') (htree : Namespace inodes' entries') :
    Became sb d d' a' inodes' entries' [] ∧
      Mounted d' sb a' inodes' entries' := by
  rw [h.canonical_sublist hsub] at hbecame
  refine ⟨hbecame, h.of_became hbecame howned htree ?_⟩
  intro inode hinode
  exact .inl ⟨hsub.subset hinode, by simp⟩

/-- A transaction is atomic. -/
theorem TransactionOutcome.atomic {op : DevM Disk RecoveryReport}
    (h : TransactionOutcome sb op d a inodes entries data) :
    Effect.Atomic op d fun _ d' =>
      Became sb d d' a (inodes.map PersistedInode.canonical) entries data := by
  cases h with
  | rejected e h _ => exact .inl ⟨e, h⟩
  | done report d' h hbecame _ => exact .inr ⟨report, d', h, hbecame⟩

/-- On a disk at rest, an entry with a key is the one that the search finds. -/
theorem AtRest.selectEntry_of_mem (h : AtRest d sb a inodes entries)
    {entry : PersistedDirectoryEntry} (hmem : entry ∈ entries)
    {parent : UInt64} {name : String} (hparent : entry.parent = parent)
    (hname : entry.name = name) :
    ∃ index, selectEntry entries parent name = some (index, entry) := by
  cases hfind : selectEntry entries parent name with
  | none =>
    exact absurd ⟨hparent, hname⟩ (selectEntry_eq_none.mp hfind entry hmem)
  | some found =>
    obtain ⟨index, other⟩ := found
    have hsel := selects_of_selectEntry hfind
    have hsame := h.entry_unique hsel.mem hmem
      (hsel.parent_eq.trans hparent.symm) (hsel.name_eq.trans hname.symm)
    rw [hsame]
    exact ⟨index, rfl⟩

/-! ## Loads -/

section Loads

variable {α : Type} {post : α → Disk → Prop}

/-- A load of the allocator in an atomic operation. -/
theorem AtRest.atomic_allocator (h : AtRest d sb a inodes entries)
    {f : BlockAllocator → DevM Disk α} (hf : Effect.Atomic (f a) d post) :
    Effect.Atomic (Effect.query (loadAllocator · sb) >>= f) d post :=
  Effect.atomic_query_bind_of_ok h.allocator hf

/-- A load of the inode table in an atomic operation. -/
theorem AtRest.atomic_inodes (h : AtRest d sb a inodes entries)
    {f : List PersistedInode → DevM Disk α}
    (hf : Effect.Atomic (f inodes) d post) :
    Effect.Atomic (Effect.query (loadInodeTable · sb) >>= f) d post :=
  Effect.atomic_query_bind_of_ok h.inodeTable hf

/-- A load of the directory table in an atomic operation. -/
theorem AtRest.atomic_entries (h : AtRest d sb a inodes entries)
    {f : List PersistedDirectoryEntry → DevM Disk α}
    (hf : Effect.Atomic (f entries) d post) :
    Effect.Atomic (Effect.query (loadDirectoryTable · sb) >>= f) d post :=
  Effect.atomic_query_bind_of_ok h.directoryTable hf

/-- The search for an entry in an atomic operation. -/
theorem atomic_selectEntry {parent : UInt64} {name : String} {missing : IoError}
    {f : Nat × PersistedDirectoryEntry → DevM Disk α}
    (hf : ∀ index entry, Selects entries parent name index entry →
      Effect.Atomic (f (index, entry)) d post) :
    Effect.Atomic (liftM (okOr (selectEntry entries parent name) missing) >>= f)
      d post := by
  apply Effect.atomic_lift_bind
  rintro ⟨index, entry⟩ hselected
  exact hf index entry (selects_of_selectEntry (okOr_eq_ok.mp hselected))

/-- A load of the allocator, then the rest. -/
theorem AtRest.allocator_bind (h : AtRest d sb a inodes entries)
    (f : BlockAllocator → DevM Disk α) :
    (Effect.query (loadAllocator · sb) >>= f) d = f a d :=
  Effect.query_bind_of_ok h.allocator

/-- A load of the inode table, then the rest. -/
theorem AtRest.inodes_bind (h : AtRest d sb a inodes entries)
    (f : List PersistedInode → DevM Disk α) :
    (Effect.query (loadInodeTable · sb) >>= f) d = f inodes d :=
  Effect.query_bind_of_ok h.inodeTable

/-- A load of the directory table, then the rest. -/
theorem AtRest.entries_bind (h : AtRest d sb a inodes entries)
    (f : List PersistedDirectoryEntry → DevM Disk α) :
    (Effect.query (loadDirectoryTable · sb) >>= f) d = f entries d :=
  Effect.query_bind_of_ok h.directoryTable

end Loads

end Mounted

/-! ## A sample tree -/

/-- Entries that lead to larger identifiers make no cycle. -/
theorem acyclic_of_lt {entries : List PersistedDirectoryEntry}
    (h : ∀ entry ∈ entries, entry.parent < entry.target) :
    Acyclic (Links entries) := by
  have hstep : ∀ x y, TransGen (Links entries) x y → x < y := by
    intro x y hpath
    induction hpath with
    | single hxy =>
      obtain ⟨entry, hentry, rfl, rfl⟩ := hxy
      exact h entry hentry
    | tail _ hyz ih =>
      obtain ⟨entry, hentry, rfl, rfl⟩ := hyz
      exact UInt64.lt_trans ih (h entry hentry)
  intro x hcycle
  exact UInt64.lt_irrefl x (hstep x x hcycle)

/-- An allocator without owned blocks belongs to inodes without blocks. -/
theorem owned_of_blockless {sb : Superblock} {a : BlockAllocator}
    {inodes : List PersistedInode} (hfree : ∀ b, a.flag b = false)
    (h : ∀ inode ∈ inodes, inode.blocks = []) : Owned sb a inodes := by
  refine ⟨?_, ?_, ?_⟩
  · intro inode hinode block hblock
    rw [h inode hinode] at hblock
    cases hblock
  · rw [List.flatMap_eq_nil_iff.mpr h]
    exact List.nodup_nil
  · intro block hflag
    rw [hfree block] at hflag
    cases hflag

/-- Sixteen blocks, of which six are journal. -/
def treeSuperblock : Superblock :=
  .ofSizes 16 6 1 1 1 ⟨rfl, by decide⟩

def treeAllocator : BlockAllocator :=
  .ofFlags 10 (List.replicate 16 false) (by decide)

/-- A root directory with a directory that holds an empty file. -/
def treeInodes : List PersistedInode :=
  [⟨1, .directory, [], 0⟩, ⟨2, .directory, [], 0⟩, ⟨3, .file, [], 0⟩]

def treeEntries : List PersistedDirectoryEntry := [⟨1, 2, "d"⟩, ⟨2, 3, "f"⟩]

/-- The sample disk with this tree. -/
def treeDisk : Disk :=
  formatted treeSuperblock treeAllocator treeInodes treeEntries
    fun _ => Block.zero

/-- A formatted disk with this superblock and an empty allocator. -/
theorem atRest_tree {inodes : List PersistedInode}
    {entries : List PersistedDirectoryEntry}
    (hinodes : ∃ image, inodeFormat.encodeImage 1 inodes = .ok image)
    (hcanonical : inodes.map PersistedInode.canonical = inodes)
    (hentries : ∃ image, directoryFormat.encodeImage 1 entries = .ok image) :
    AtRest (formatted treeSuperblock treeAllocator inodes entries
        fun _ => Block.zero)
      treeSuperblock treeAllocator inodes entries := by
  obtain ⟨inodeImage, hinodeImage⟩ := hinodes
  obtain ⟨directoryImage, hdirectoryImage⟩ := hentries
  exact atRest_formatted _ rfl rfl hinodeImage hcanonical hdirectoryImage

theorem atRest_treeDisk :
    AtRest treeDisk treeSuperblock treeAllocator treeInodes treeEntries := by
  apply atRest_tree _ (by decide)
  · exact exists_directoryImage (by decide) (by decide) (by decide) (by decide)
      (by decide)
  · exact exists_inodeImage (by decide) (by decide) (by decide) (by decide)
      (by decide)

theorem flag_treeAllocator (b : Nat) : treeAllocator.flag b = false := by
  cases hflag : treeAllocator.flag b with
  | false => rfl
  | true =>
    have hrange := BlockAllocator.range_of_flag hflag
    have hnone : ∀ b < 16, treeAllocator.flag b = false := by decide
    rw [hnone b hrange.2] at hflag
    cases hflag

/-- A disk at rest with directories and empty files is mounted if they make a
tree. -/
theorem AtRest.mounted_tree {d : Disk} {inodes : List PersistedInode}
    {entries : List PersistedDirectoryEntry}
    (h : AtRest d treeSuperblock treeAllocator inodes entries)
    (hplain : ∀ inode ∈ inodes, inode.blocks = [] ∧ inode.kind ≠ .symlink)
    (htree : Namespace inodes entries) :
    Mounted d treeSuperblock treeAllocator inodes entries where
  toAtRest := h
  owned := owned_of_blockless flag_treeAllocator fun inode hinode =>
    (hplain inode hinode).1
  payloads := by
    intro inode hinode
    rw [validateSymlinkInode, if_pos (hplain inode hinode).2]
    rfl
  tree := htree

theorem mounted_treeDisk :
    Mounted treeDisk treeSuperblock treeAllocator treeInodes treeEntries :=
  atRest_treeDisk.mounted_tree (by decide)
    (namespace_of_targeted (by decide) (by decide) (by decide)
      (acyclic_of_lt (by decide)) (by decide))

/-- The sample tree with an empty directory, and with a second name for the
file. -/
def forestInodes : List PersistedInode := treeInodes ++ [⟨4, .directory, [], 0⟩]

def forestEntries : List PersistedDirectoryEntry :=
  treeEntries ++ [⟨1, 3, "g"⟩, ⟨1, 4, "e"⟩]

/-- The sample disk with this tree. -/
def forestDisk : Disk :=
  formatted treeSuperblock treeAllocator forestInodes forestEntries
    fun _ => Block.zero

theorem mounted_forestDisk :
    Mounted forestDisk treeSuperblock treeAllocator forestInodes
      forestEntries := by
  apply AtRest.mounted_tree _ (by decide)
  · exact namespace_of_targeted (by decide) (by decide) (by decide)
      (acyclic_of_lt (by decide)) (by decide)
  · apply atRest_tree _ (by decide)
    · exact exists_directoryImage (by decide) (by decide) (by decide)
        (by decide) (by decide)
    · exact exists_inodeImage (by decide) (by decide) (by decide) (by decide)
        (by decide)

/-- Tables with an image are rendered with this superblock. -/
theorem exists_treeTables {a : BlockAllocator} {inodes : List PersistedInode}
    {entries : List PersistedDirectoryEntry}
    (htotal : a.totalBlocks = treeSuperblock.totalBlocks)
    (hreserved : a.reservedBlocks = treeSuperblock.reservedBlocks)
    (hinodes : ∃ image, inodeFormat.encodeImage 1 inodes = .ok image)
    (hentries : ∃ image, directoryFormat.encodeImage 1 entries = .ok image) :
    ∃ tables, renderedWrites (createImages treeSuperblock a inodes entries) =
      .ok tables := by
  obtain ⟨image, himage⟩ := exists_allocationImage htotal hreserved
  obtain ⟨inodeImage, hinodeImage⟩ := hinodes
  obtain ⟨directoryImage, hdirectoryImage⟩ := hentries
  have hinodeImage' : inodeFormat.encodeImage treeSuperblock.inodeBlocks inodes =
      .ok inodeImage := hinodeImage
  have hdirectoryImage' : directoryFormat.encodeImage
      treeSuperblock.directoryBlocks entries = .ok directoryImage :=
    hdirectoryImage
  simp only [createImages, renderedWrites, allocationPair, inodePair,
    directoryPair, himage, hinodeImage', hdirectoryImage', Except.ok_bind,
    Except.pure_eq_ok]
  exact ⟨_, rfl⟩

/-- The journal of the sample holds five blocks. -/
theorem changesFit_tree {changed : List (Nat × Block)}
    (hlen : changed.length ≤ 5) : ChangesFit treeSuperblock changed := by
  have hblocks : treeSuperblock.journalBlocks = 6 := rfl
  refine ⟨by decide, ?_⟩
  rw [hblocks, blockSize_eq]
  omega

/-- The journal of the sample holds the three tables and two data blocks. -/
theorem fits_tree {d : Disk} {a : BlockAllocator}
    {inodes : List PersistedInode} {entries : List PersistedDirectoryEntry}
    {data : List (Nat × Block)} (hdata : data.length ≤ 2) :
    TransactionFits treeSuperblock d a inodes entries data := by
  intro tables htables
  apply changesFit_tree
  have hlen : (WriteLog.differing d.blocks (tables ++ data)).length ≤
      (tables ++ data).length := List.length_filter_le _ _
  have hthree : tables.length = 3 := length_renderedWrites htables
  rw [List.length_append] at hlen
  omega

/-- Tables with an image can be stored with this superblock. -/
theorem storable_tree {d : Disk} {inodes : List PersistedInode}
    {entries : List PersistedDirectoryEntry}
    (hinodes : ∃ image, inodeFormat.encodeImage 1 inodes = .ok image)
    (hentries : ∃ image, directoryFormat.encodeImage 1 entries = .ok image) :
    Storable treeSuperblock d treeAllocator inodes entries [] := by
  obtain ⟨tables, htables⟩ := exists_treeTables (a := treeAllocator) rfl rfl
    hinodes hentries
  exact ⟨tables, htables, fits_tree (by simp) tables htables⟩

end FilesystemLab
