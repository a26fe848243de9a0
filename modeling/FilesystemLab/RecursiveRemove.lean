import FilesystemLab.Unlink

/-!
# Recursive removal

`recursive_remove_tx.rs`: the removal of a directory with everything below it.

The plan is made from the tables: the directories below the target, the entries
in them, and the inodes that no other entry targets.  `Closed` says when the
removed directories have no entry from outside, which is the one condition of the
operation on the shape of the namespace.
-/

namespace FilesystemLab

open Relation Digraph

/-! ## The plan -/

/-- `RecursiveRemoveReport`. -/
structure RecursiveRemoveReport where
  removedEntries : Nat
  removedInodes : List UInt64
  releasedBlocks : List UInt64
  transaction : RecoveryReport

/-- `RecursiveRemovePlan`. -/
structure RecursiveRemovePlan where
  allocator : BlockAllocator
  desiredInodes : List PersistedInode
  desiredEntries : List PersistedDirectoryEntry
  removedEntries : Nat
  removedInodes : List UInt64
  releasedBlocks : List UInt64

/-- The entries for directories, as edges. -/
def directoryEdges (inodes : List PersistedInode)
    (entries : List PersistedDirectoryEntry) : List (UInt64 × UInt64) :=
  edgesOf (entries.filter fun entry =>
    kindOf inodes entry.target = some .directory)

/-- `collect_subtree_directories`. -/
def collectSubtreeDirectories (target : UInt64) (inodes : List PersistedInode)
    (entries : List PersistedDirectoryEntry) : List UInt64 :=
  explore (directoryEdges inodes entries) [target] [target]

/-- `collect_removed_entry_indices`. -/
def collectRemovedEntryIndices (selected : Nat) (subtree : List UInt64)
    (entries : List PersistedDirectoryEntry) : List Nat :=
  (entries.zipIdx.filter fun p =>
    p.2 = selected ∨ p.1.parent ∈ subtree).map Prod.snd

/-- The desired entries of the plan. -/
def keptEntries (removed : List Nat) (entries : List PersistedDirectoryEntry) :
    List PersistedDirectoryEntry :=
  (entries.zipIdx.filter fun p => p.2 ∉ removed).map Prod.fst

/-- `reject_external_directory_references`. -/
def rejectExternalDirectoryReferences (subtree : List UInt64)
    (removed : List Nat) (entries : List PersistedDirectoryEntry) :
    Result Unit :=
  rejectIf (∃ directory ∈ subtree, ∃ p ∈ entries.zipIdx,
      p.1.target = directory ∧ p.2 ∉ removed)
    (invalidInput
      "recursive-remove subtree directory has an external namespace reference")

/-- `collect_removed_inodes`. -/
def collectRemovedInodes (subtree : List UInt64) (removed : List Nat)
    (entries desired : List PersistedDirectoryEntry) : List UInt64 :=
  ((removed.filterMap fun index =>
      entries[index]?.map PersistedDirectoryEntry.target) ++
    subtree).dedup.filter (fun id =>
      id ∈ subtree ∨ ¬ ∃ entry ∈ desired, entry.target = id) |>.mergeSort

/-- The loops of `release_removed_inode_blocks` over the blocks. -/
def releaseRemovedInodeBlocks (a : BlockAllocator) :
    List UInt64 → Result BlockAllocator
  | [] => pure a
  | block :: blocks => do
    let owned ← liftAllocation (a.isOwned block.toNat)
    rejectIf (owned = false)
      (invalidData "recursive-remove inode block is not allocator-owned")
    let a ← liftAllocation (a.free block.toNat)
    releaseRemovedInodeBlocks a blocks

/-- The part of `build_recursive_remove_plan` behind the selected entry. -/
def planSubtree (a : BlockAllocator) (inodes : List PersistedInode)
    (entries : List PersistedDirectoryEntry) (selected : Nat)
    (target : UInt64) : Result RecursiveRemovePlan := do
  let subtree := collectSubtreeDirectories target inodes entries
  let removed := collectRemovedEntryIndices selected subtree entries
  rejectExternalDirectoryReferences subtree removed entries
  let desired := keptEntries removed entries
  let removedInodes := collectRemovedInodes subtree removed entries desired
  let released := releasedBlocks inodes removedInodes
  let allocator ← releaseRemovedInodeBlocks a released
  pure
    { allocator
      desiredInodes := inodes.filter fun inode => inode.id ∉ removedInodes
      desiredEntries := desired
      removedEntries := removed.length
      removedInodes
      releasedBlocks := released.mergeSort }

/-- `build_recursive_remove_plan`. -/
def buildRecursiveRemovePlan (a : BlockAllocator) (inodes : List PersistedInode)
    (entries : List PersistedDirectoryEntry) (parent : UInt64)
    (name : String) : Result RecursiveRemovePlan := do
  let selected ← okOr (selectEntry entries parent name)
    (invalidInput "recursive-remove directory entry is missing")
  rejectIf (selected.2.target = ROOT_INODE_ID)
    (invalidInput "recursive-remove cannot remove the root inode")
  rejectIf (kindOf inodes selected.2.target ≠ some .directory)
    (invalidInput "recursive-remove target must be a directory inode")
  planSubtree a inodes entries selected.1 selected.2.target

section Device

variable {σ : Type} [BlockDevice σ]

/-- `publish_recursive_remove`. -/
def publishRecursiveRemove (sb : Superblock) (plan : RecursiveRemovePlan) :
    DevM σ RecursiveRemoveReport := do
  auditNamespace plan.desiredInodes plan.desiredEntries
  let transaction ← storeCreateMetadataJournaled sb plan.allocator
    plan.desiredInodes plan.desiredEntries
  rejectIf (transaction.committedTransactions ≠ 1) (invalidData
    "recursive-remove did not publish exactly one committed transaction")
  let _ ← Effect.query checkDevice
  pure ⟨plan.removedEntries, plan.removedInodes, plan.releasedBlocks,
    transaction⟩

/-- `remove_directory_tree_journaled`. -/
def removeDirectoryTreeJournaled (sb : Superblock) (parent : UInt64)
    (name : String) : DevM σ RecursiveRemoveReport := do
  let _ ← recoverJournalAndCheckpointChecked sb
  let _ ← Effect.query checkDevice
  let allocator ← Effect.query (loadAllocator · sb)
  let inodes ← Effect.query (loadInodeTable · sb)
  let entries ← Effect.query (loadDirectoryTable · sb)
  let plan ← buildRecursiveRemovePlan allocator inodes entries parent name
  publishRecursiveRemove sb plan

end Device

/-! ## What is below a directory -/

/-- An entry goes if it is the selected one, or if it is in a directory that the
target reaches. -/
def Removed (entries : List PersistedDirectoryEntry)
    (selected entry : PersistedDirectoryEntry) : Prop :=
  entry = selected ∨ ReflTransGen (Links entries) selected.target entry.parent

/-- No entry that stays is for a directory that the target reaches. -/
def Closed (inodes : List PersistedInode)
    (entries : List PersistedDirectoryEntry)
    (selected : PersistedDirectoryEntry) : Prop :=
  ∀ entry ∈ entries, ¬ Removed entries selected entry →
    kindOf inodes entry.target = some .directory →
    ¬ ReflTransGen (Links entries) selected.target entry.target

section Subtree

variable {inodes : List PersistedInode} {entries : List PersistedDirectoryEntry}
  {target id : UInt64} {index : Nat} {selected : PersistedDirectoryEntry}

theorem edge_directoryEdges {x y : UInt64} :
    Edge (directoryEdges inodes entries) x y ↔
      Links entries x y ∧ kindOf inodes y = some .directory := by
  rw [directoryEdges, edge_edgesOf]
  constructor
  · intro hfacts
    rcases hfacts with ⟨entry, hmem, rfl, rfl⟩
    rw [List.mem_filter, decide_eq_true_eq] at hmem
    exact ⟨⟨entry, hmem.1, rfl, rfl⟩, hmem.2⟩
  · intro hfacts
    rcases hfacts with ⟨⟨entry, hmem, rfl, rfl⟩, hkind⟩
    refine ⟨entry, ?_, rfl, rfl⟩
    rw [List.mem_filter, decide_eq_true_eq]
    exact ⟨hmem, hkind⟩

/-- The collected directories are those that the target reaches. -/
theorem mem_collectSubtreeDirectories
    (hparent : ∀ entry ∈ entries,
      kindOf inodes entry.parent = some .directory)
    (htarget : kindOf inodes target = some .directory) :
    id ∈ collectSubtreeDirectories target inodes entries ↔
      ReflTransGen (Links entries) target id ∧
        kindOf inodes id = some .directory := by
  rw [collectSubtreeDirectories, mem_explore_iff]
  constructor
  · intro hpath
    induction hpath with
    | refl => exact ⟨.refl, htarget⟩
    | tail _ hedge ih =>
      rw [edge_directoryEdges] at hedge
      exact ⟨ih.1.tail hedge.1, hedge.2⟩
  · intro hfacts
    rcases hfacts with ⟨hpath, hkind⟩
    induction hpath with
    | refl => exact .refl
    | @tail x y _ hlink ih =>
      have hx : kindOf inodes x = some .directory := by
        obtain ⟨entry, hmem, rfl, _⟩ := hlink
        exact hparent entry hmem
      exact (ih hx).tail (edge_directoryEdges.mpr ⟨hlink, hkind⟩)

/-- The entries below a directory are in directories that it reaches. -/
theorem parent_mem_subtree
    (hparent : ∀ entry ∈ entries,
      kindOf inodes entry.parent = some .directory)
    (htarget : kindOf inodes target = some .directory)
    {entry : PersistedDirectoryEntry} (hmem : entry ∈ entries) :
    entry.parent ∈ collectSubtreeDirectories target inodes entries ↔
      ReflTransGen (Links entries) target entry.parent := by
  rw [mem_collectSubtreeDirectories hparent htarget]
  exact ⟨And.left, fun hpath => ⟨hpath, hparent entry hmem⟩⟩

/-- An index determines whether its entry goes. -/
theorem mem_collectRemovedEntryIndices {subtree : List UInt64} {i : Nat} :
    i ∈ collectRemovedEntryIndices index subtree entries ↔
      ∃ entry, entries[i]? = some entry ∧
        (i = index ∨ entry.parent ∈ subtree) := by
  unfold collectRemovedEntryIndices
  rw [List.mem_map]
  constructor
  · intro hfacts
    rcases hfacts with ⟨⟨entry, i⟩, hp, rfl⟩
    rw [List.mem_filter, List.mem_zipIdx_iff_getElem?, decide_eq_true_eq] at hp
    exact ⟨entry, hp⟩
  · intro hfacts
    rcases hfacts with ⟨entry, hget, hremoved⟩
    refine ⟨(entry, i), ?_, rfl⟩
    rw [List.mem_filter, List.mem_zipIdx_iff_getElem?, decide_eq_true_eq]
    exact ⟨hget, hremoved⟩

theorem keptEntries_sublist (removed : List Nat) :
    (keptEntries removed entries).Sublist entries := by
  have hsub : (keptEntries removed entries).Sublist
      (entries.zipIdx.map Prod.fst) :=
    List.filter_sublist.map Prod.fst
  rwa [List.zipIdx_map_fst] at hsub

/-- The entries that stay. -/
theorem mem_keptEntries (hnodup : entries.Nodup)
    (hget : entries[index]? = some selected) {subtree : List UInt64}
    {entry : PersistedDirectoryEntry} :
    entry ∈ keptEntries (collectRemovedEntryIndices index subtree entries)
        entries ↔
      entry ∈ entries ∧ ¬ (entry = selected ∨ entry.parent ∈ subtree) := by
  unfold keptEntries
  rw [List.mem_map]
  constructor
  · intro hfacts
    rcases hfacts with ⟨⟨entry, i⟩, hp, rfl⟩
    rw [List.mem_filter, List.mem_zipIdx_iff_getElem?, decide_eq_true_eq,
      mem_collectRemovedEntryIndices] at hp
    obtain ⟨hi, hno⟩ := hp
    refine ⟨List.mem_of_getElem? hi, ?_⟩
    intro hcases
    rcases hcases with rfl | hparent
    · have hlt := (List.getElem?_eq_some_iff.mp hi).1
      have hsame := (List.getElem?_inj hlt hnodup).mp (hi.trans hget.symm)
      exact hno ⟨_, hi, .inl hsame⟩
    · exact hno ⟨_, hi, .inr hparent⟩
  · intro hfacts
    rcases hfacts with ⟨hmem, hno⟩
    obtain ⟨i, hi⟩ := List.mem_iff_getElem?.mp hmem
    refine ⟨(entry, i), ?_, rfl⟩
    rw [List.mem_filter, List.mem_zipIdx_iff_getElem?, decide_eq_true_eq,
      mem_collectRemovedEntryIndices]
    refine ⟨hi, ?_⟩
    intro hfacts
    rcases hfacts with ⟨other, hother, rfl | hparent⟩
    · rw [hget, Option.some.injEq] at hi
      exact hno (.inl hi.symm)
    · rw [show entries[i]? = some entry from hi, Option.some.injEq] at hother
      rw [← hother] at hparent
      exact hno (.inr hparent)

/-- Every entry either goes or stays. -/
theorem length_keptEntries (subtree : List UInt64) :
    (collectRemovedEntryIndices index subtree entries).length +
      (keptEntries (collectRemovedEntryIndices index subtree entries)
        entries).length = entries.length := by
  have hcount : ∀ p ∈ entries.zipIdx,
      (decide (p.2 ∉ collectRemovedEntryIndices index subtree entries) : Bool) =
        !decide (p.2 = index ∨ p.1.parent ∈ subtree) := by
    rintro ⟨entry, i⟩ hp
    rw [List.mem_zipIdx_iff_getElem?] at hp
    rw [← decide_not, decide_eq_decide, not_iff_not,
      mem_collectRemovedEntryIndices]
    constructor
    · intro hfacts
      rcases hfacts with ⟨other, hother, h⟩
      rw [show entries[i]? = some entry from hp, Option.some.injEq] at hother
      rwa [hother]
    · exact fun h => ⟨entry, hp, h⟩
  have hsum := List.length_eq_length_filter_add (l := entries.zipIdx)
    fun p => decide (p.2 = index ∨ p.1.parent ∈ subtree)
  rw [List.length_zipIdx] at hsum
  rw [keptEntries, List.length_map, List.filter_congr hcount,
    collectRemovedEntryIndices, List.length_map, hsum]

end Subtree

/-! ## The plan on a consistent namespace -/

section Plan

variable {inodes : List PersistedInode} {entries : List PersistedDirectoryEntry}
  {index : Nat} {selected : PersistedDirectoryEntry}

/-- The directories that go. -/
def subtreeOf (inodes : List PersistedInode)
    (entries : List PersistedDirectoryEntry)
    (selected : PersistedDirectoryEntry) : List UInt64 :=
  collectSubtreeDirectories selected.target inodes entries

/-- The entries that stay. -/
def desiredEntriesOf (inodes : List PersistedInode)
    (entries : List PersistedDirectoryEntry) (index : Nat)
    (selected : PersistedDirectoryEntry) : List PersistedDirectoryEntry :=
  keptEntries (collectRemovedEntryIndices index
    (subtreeOf inodes entries selected) entries) entries

/-- The inodes that go. -/
def removedInodesOf (inodes : List PersistedInode)
    (entries : List PersistedDirectoryEntry) (index : Nat)
    (selected : PersistedDirectoryEntry) : List UInt64 :=
  collectRemovedInodes (subtreeOf inodes entries selected)
    (collectRemovedEntryIndices index (subtreeOf inodes entries selected)
      entries) entries (desiredEntriesOf inodes entries index selected)

/-- A namespace with the position of an entry for a directory. -/
structure Target (inodes : List PersistedInode)
    (entries : List PersistedDirectoryEntry) (index : Nat)
    (selected : PersistedDirectoryEntry) : Prop where
  tree : Namespace inodes entries
  nodup : entries.Nodup
  get : entries[index]? = some selected
  directory : kindOf inodes selected.target = some .directory

namespace Target

theorem mem (h : Target inodes entries index selected) : selected ∈ entries :=
  List.mem_of_getElem? h.get

theorem mem_subtree (h : Target inodes entries index selected) {id : UInt64} :
    id ∈ subtreeOf inodes entries selected ↔
      ReflTransGen (Links entries) selected.target id ∧
        kindOf inodes id = some .directory :=
  mem_collectSubtreeDirectories h.tree.parent h.directory

theorem mem_desired (h : Target inodes entries index selected)
    {entry : PersistedDirectoryEntry} :
    entry ∈ desiredEntriesOf inodes entries index selected ↔
      entry ∈ entries ∧ ¬ Removed entries selected entry := by
  rw [desiredEntriesOf, mem_keptEntries h.nodup h.get]
  apply and_congr_right
  intro hmem
  rw [Removed, subtreeOf, parent_mem_subtree h.tree.parent h.directory hmem]

/-- The one condition on the shape of the namespace. -/
theorem rejectExternal_eq_ok (h : Target inodes entries index selected)
    {u : Unit} :
    rejectExternalDirectoryReferences (subtreeOf inodes entries selected)
        (collectRemovedEntryIndices index (subtreeOf inodes entries selected)
          entries) entries = .ok u ↔ Closed inodes entries selected := by
  rw [rejectExternalDirectoryReferences, rejectIf_eq_ok]
  have hkept : ∀ entry, entry ∈ desiredEntriesOf inodes entries index selected ↔
      ∃ p ∈ entries.zipIdx, p.1 = entry ∧ p.2 ∉ collectRemovedEntryIndices index
        (subtreeOf inodes entries selected) entries := by
    intro entry
    simp only [desiredEntriesOf, keptEntries, List.mem_map, List.mem_filter,
      decide_eq_true_eq]
    constructor
    · intro hfacts
      rcases hfacts with ⟨p, ⟨hp, hno⟩, rfl⟩
      exact ⟨p, hp, rfl, hno⟩
    · intro hfacts
      rcases hfacts with ⟨p, hp, rfl, hno⟩
      exact ⟨p, ⟨hp, hno⟩, rfl⟩
  constructor
  · intro hno entry hmem hstays hkind hpath
    obtain ⟨p, hp, rfl, hindex⟩ :=
      (hkept entry).mp (h.mem_desired.mpr ⟨hmem, hstays⟩)
    exact hno ⟨p.1.target, h.mem_subtree.mpr ⟨hpath, hkind⟩, p, hp, rfl,
      hindex⟩
  · intro hclosed hfacts
    rcases hfacts with ⟨directory, hsub, p, hp, rfl, hindex⟩
    obtain ⟨hpath, hkind⟩ := h.mem_subtree.mp hsub
    obtain ⟨hmem, hstays⟩ :=
      h.mem_desired.mp ((hkept p.1).mpr ⟨p, hp, rfl, hindex⟩)
    exact hclosed p.1 hmem hstays hkind hpath

/-- A directory that goes has an entry that goes. -/
theorem exists_removed_entry (h : Target inodes entries index selected)
    {id : UInt64}
    (hpath : ReflTransGen (Links entries) selected.target id) :
    ∃ entry ∈ entries, Removed entries selected entry ∧ entry.target = id := by
  rcases ReflTransGen.cases_tail hpath with rfl | ⟨x, hx, entry, hmem, rfl, htarget⟩
  · exact ⟨selected, h.mem, .inl rfl, rfl⟩
  · exact ⟨entry, hmem, .inr hx, htarget⟩

/-- The inodes that go have entries, and all of them go. -/
theorem mem_removedInodes (h : Target inodes entries index selected)
    (hclosed : Closed inodes entries selected) {id : UInt64} :
    id ∈ removedInodesOf inodes entries index selected ↔
      (∃ entry ∈ entries, Removed entries selected entry ∧ entry.target = id) ∧
        ∀ entry ∈ entries, entry.target = id →
          Removed entries selected entry := by
  have hlast : (¬ ∃ entry ∈ desiredEntriesOf inodes entries index selected,
      entry.target = id) ↔ ∀ entry ∈ entries, entry.target = id →
        Removed entries selected entry := by
    constructor
    · intro hno entry hmem htarget
      by_contra hstays
      exact hno ⟨entry, h.mem_desired.mpr ⟨hmem, hstays⟩, htarget⟩
    · intro hall hfacts
      rcases hfacts with ⟨entry, hentry, htarget⟩
      obtain ⟨hmem, hstays⟩ := h.mem_desired.mp hentry
      exact hstays (hall entry hmem htarget)
  have hindices : (∃ i ∈ collectRemovedEntryIndices index
      (subtreeOf inodes entries selected) entries,
        (entries[i]?.map PersistedDirectoryEntry.target) = some id) ↔
      ∃ entry ∈ entries, Removed entries selected entry ∧
        entry.target = id := by
    simp only [mem_collectRemovedEntryIndices, Option.map_eq_some_iff]
    constructor
    · intro hfacts
      rcases hfacts with ⟨i, ⟨entry, hi, hgone⟩, other, hother, rfl⟩
      rw [hi, Option.some.injEq] at hother
      subst hother
      have hmem := List.mem_of_getElem? hi
      refine ⟨entry, hmem, ?_, rfl⟩
      rcases hgone with rfl | hgone
      · rw [h.get, Option.some.injEq] at hi
        exact .inl hi.symm
      · exact .inr ((parent_mem_subtree h.tree.parent h.directory hmem).mp
          hgone)
    · intro hfacts
      rcases hfacts with ⟨entry, hmem, hgone, rfl⟩
      rcases hgone with rfl | hgone
      · exact ⟨index, ⟨entry, h.get, .inl rfl⟩, entry, h.get, rfl⟩
      · obtain ⟨i, hi⟩ := List.mem_iff_getElem?.mp hmem
        exact ⟨i, ⟨entry, hi, .inr ((parent_mem_subtree h.tree.parent
          h.directory hmem).mpr hgone)⟩, entry, hi, rfl⟩
  unfold removedInodesOf collectRemovedInodes
  rw [List.mem_mergeSort, List.mem_filter, decide_eq_true_eq, List.mem_dedup,
    List.mem_append, List.mem_filterMap, hindices, hlast]
  constructor
  · intro hfacts
    rcases hfacts with ⟨hcandidate, hgone⟩
    have hsub : id ∈ subtreeOf inodes entries selected →
        (∃ entry ∈ entries, Removed entries selected entry ∧
          entry.target = id) ∧ ∀ entry ∈ entries, entry.target = id →
            Removed entries selected entry := by
      intro hid
      obtain ⟨hpath, hkind⟩ := h.mem_subtree.mp hid
      refine ⟨h.exists_removed_entry hpath, ?_⟩
      intro entry hmem heq
      subst heq
      by_contra hstays
      exact hclosed entry hmem hstays hkind hpath
    rcases hgone with hid | hall
    · exact hsub hid
    · rcases hcandidate with hentry | hid
      · exact ⟨hentry, hall⟩
      · exact hsub hid
  · intro hfacts
    rcases hfacts with ⟨hentry, hall⟩
    exact ⟨.inl hentry, .inr hall⟩

/-- What goes is no directory of an entry that stays. -/
theorem closed_desired (h : Target inodes entries index selected)
    (hclosed : Closed inodes entries selected)
    {entry : PersistedDirectoryEntry}
    (hmem : entry ∈ desiredEntriesOf inodes entries index selected) :
    entry.parent ∉ removedInodesOf inodes entries index selected ∧
      entry.target ∉ removedInodesOf inodes entries index selected := by
  obtain ⟨hentry, hstays⟩ := h.mem_desired.mp hmem
  rw [h.mem_removedInodes hclosed, h.mem_removedInodes hclosed]
  constructor
  · intro hfacts
    rcases hfacts with ⟨⟨above, habove, hgone, htarget⟩, _⟩
    apply hstays
    rcases hgone with rfl | hgone
    · right
      rw [htarget]
    · exact .inr (hgone.tail ⟨above, habove, rfl, htarget⟩)
  · intro hfacts
    rcases hfacts with ⟨_, hall⟩
    exact hstays (hall entry hentry rfl)

/-- **The survivors form a consistent namespace.** -/
theorem namespace_desired (h : Target inodes entries index selected)
    (hclosed : Closed inodes entries selected) :
    Namespace (inodes.filter fun inode =>
        inode.id ∉ removedInodesOf inodes entries index selected)
      (desiredEntriesOf inodes entries index selected) := by
  apply h.tree.remove
  · exact fun entry hentry => (h.mem_desired.mp hentry).1
  · rw [h.mem_removedInodes hclosed]
    intro hfacts
    rcases hfacts with ⟨⟨entry, hmem, _, htarget⟩, _⟩
    exact h.tree.target_ne_root hmem htarget
  · exact fun entry hentry => h.closed_desired hclosed hentry
  · intro inode hinode hstays hroot
    obtain ⟨entry, hentry, htarget⟩ := h.tree.targeted hinode hroot
    by_contra hnone
    have hall : ∀ other ∈ entries, other.target = inode.id →
        Removed entries selected other := by
      intro other hother hid
      by_contra hkept
      exact hnone ⟨other, h.mem_desired.mpr ⟨hother, hkept⟩, hid⟩
    exact hstays ((h.mem_removedInodes hclosed).mpr
      ⟨⟨entry, hentry, hall entry hentry htarget, htarget⟩, hall⟩)

end Target

end Plan

/-! ## The removal -/

/-- The loops over the blocks free them all. -/
theorem releaseRemovedInodeBlocks_of_freeAll {a a' : BlockAllocator}
    {blocks : List UInt64}
    (h : a.freeAll (blocks.map UInt64.toNat) = .ok a') :
    releaseRemovedInodeBlocks a blocks = .ok a' := by
  induction blocks generalizing a with
  | nil =>
    simp only [List.map_nil, BlockAllocator.freeAll, Except.pure_eq_ok,
      Except.ok.injEq] at h
    rw [h]
    rfl
  | cons block blocks ih =>
    simp only [List.map_cons, BlockAllocator.freeAll, Except.bind_eq_ok] at h
    obtain ⟨mid, hfree, h⟩ := h
    obtain ⟨_, _, hset, _⟩ := BlockAllocator.free_eq_ok hfree
    have hrange := BlockAllocator.range_of_flag hset
    have howned := BlockAllocator.isOwned_of_data hrange.1 hrange.2
    rw [hset] at howned
    rw [releaseRemovedInodeBlocks, liftAllocation_eq_ok.mpr howned,
      Except.ok_bind, rejectIf_of_not (by simp), Except.ok_bind,
      liftAllocation_eq_ok.mpr hfree, Except.ok_bind]
    exact ih h

section Removal

variable {d : Disk} {sb : Superblock} {a a' : BlockAllocator}
  {inodes : List PersistedInode} {entries : List PersistedDirectoryEntry}
  {parent : UInt64} {name : String} {index : Nat}
  {selected : PersistedDirectoryEntry}

/-- The plan of a removal that is not rejected. -/
def planOf (a' : BlockAllocator) (inodes : List PersistedInode)
    (entries : List PersistedDirectoryEntry) (index : Nat)
    (selected : PersistedDirectoryEntry) : RecursiveRemovePlan where
  allocator := a'
  desiredInodes := inodes.filter fun inode =>
    inode.id ∉ removedInodesOf inodes entries index selected
  desiredEntries := desiredEntriesOf inodes entries index selected
  removedEntries := (collectRemovedEntryIndices index
    (subtreeOf inodes entries selected) entries).length
  removedInodes := removedInodesOf inodes entries index selected
  releasedBlocks := (releasedBlocks inodes
    (removedInodesOf inodes entries index selected)).mergeSort

/-- The blocks that are given up are those of the inodes that go. -/
theorem mem_releasedBlocks_planOf {block : UInt64} :
    block ∈ releasedBlocks inodes
        (removedInodesOf inodes entries index selected) ↔
      ∃ inode ∈ inodes,
        inode ∉ (planOf a' inodes entries index selected).desiredInodes ∧
          block ∈ inode.blocks := by
  rw [mem_releasedBlocks]
  constructor
  · intro hfacts
    rcases hfacts with ⟨inode, hinode, hgone, hblock⟩
    refine ⟨inode, hinode, ?_, hblock⟩
    intro hstays
    exact (of_decide_eq_true (List.mem_filter.mp hstays).2) hgone
  · intro hfacts
    rcases hfacts with ⟨inode, hinode, hgone, hblock⟩
    refine ⟨inode, hinode, ?_, hblock⟩
    by_contra hstays
    exact hgone (List.mem_filter.mpr ⟨hinode, decide_eq_true hstays⟩)

/-- The plan is made exactly if the removed directories are closed. -/
theorem Target.planSubtree_eq (h : Target inodes entries index selected)
    (hfreed : a.freeAll ((releasedBlocks inodes
      (removedInodesOf inodes entries index selected)).map UInt64.toNat) =
        .ok a') :
    (Closed inodes entries selected →
      planSubtree a inodes entries index selected.target =
        .ok (planOf a' inodes entries index selected)) ∧
    (¬ Closed inodes entries selected →
      ∃ e, planSubtree a inodes entries index selected.target = .error e) := by
  have hplan : planSubtree a inodes entries index selected.target = (do
      rejectExternalDirectoryReferences (subtreeOf inodes entries selected)
        (collectRemovedEntryIndices index (subtreeOf inodes entries selected)
          entries) entries
      let allocator ← releaseRemovedInodeBlocks a (releasedBlocks inodes
        (removedInodesOf inodes entries index selected))
      pure (planOf allocator inodes entries index selected)) := rfl
  rw [hplan]
  constructor
  · intro hclosed
    rw [(@rejectExternal_eq_ok _ _ _ _ h ()).mpr hclosed, Except.ok_bind,
      releaseRemovedInodeBlocks_of_freeAll hfreed]
    rfl
  · intro hopen
    cases hreject : rejectExternalDirectoryReferences
      (subtreeOf inodes entries selected)
      (collectRemovedEntryIndices index (subtreeOf inodes entries selected)
        entries) entries with
    | ok u => exact absurd (h.rejectExternal_eq_ok.mp hreject) hopen
    | error e => exact ⟨e, rfl⟩

/-- The removal on a mounted disk, up to its plan. -/
theorem Mounted.removeDirectoryTree_eq (h : Mounted d sb a inodes entries) :
    removeDirectoryTreeJournaled sb parent name d =
      match buildRecursiveRemovePlan a inodes entries parent name with
      | .error e => (.error e, d)
      | .ok plan => publishRecursiveRemove sb plan d := by
  rw [removeDirectoryTreeJournaled, Effect.bind_of_ok h.recoverChecked,
    Effect.query_bind, h.check]
  simp only
  rw [Effect.query_bind, h.allocator]
  simp only
  rw [Effect.query_bind, h.inodeTable]
  simp only
  rw [Effect.query_bind, h.directoryTable]
  simp only
  rw [Effect.lift_bind]
  cases buildRecursiveRemovePlan a inodes entries parent name with
  | error e => rfl
  | ok plan => rfl

/-- **The publication of a plan on a mounted disk.**  It is rejected without a
trace, and only if its tables cannot be stored; otherwise the check at its end
passes. -/
theorem Mounted.publishRecursiveRemove (h : Mounted d sb a inodes entries)
    (ht : Target inodes entries index selected)
    (hclosed : Closed inodes entries selected)
    (hfreed : a.freeAll ((releasedBlocks inodes
      (removedInodesOf inodes entries index selected)).map UInt64.toNat) =
        .ok a') :
    (∃ e, FilesystemLab.publishRecursiveRemove sb
        (planOf a' inodes entries index selected) d = (.error e, d) ∧
      ¬ Storable sb d a' (planOf a' inodes entries index selected).desiredInodes
        (planOf a' inodes entries index selected).desiredEntries []) ∨
    ∃ transaction d', FilesystemLab.publishRecursiveRemove sb
        (planOf a' inodes entries index selected) d =
        (.ok ⟨(planOf a' inodes entries index selected).removedEntries,
          (planOf a' inodes entries index selected).removedInodes,
          (planOf a' inodes entries index selected).releasedBlocks,
          transaction⟩, d') ∧
      Became sb d d' a' (planOf a' inodes entries index selected).desiredInodes
        (planOf a' inodes entries index selected).desiredEntries [] ∧
      ∃ fsck, checkDevice d' = .ok fsck := by
  have htree := ht.namespace_desired hclosed
  have haudit := (@auditNamespace_eq_ok _ _ ()).mpr htree
  unfold FilesystemLab.publishRecursiveRemove
  rw [Effect.lift_bind, show auditNamespace
    (planOf a' inodes entries index selected).desiredInodes
    (planOf a' inodes entries index selected).desiredEntries = .ok () from
      haudit]
  simp only
  cases h.storeCreateMetadata (planOf a' inodes entries index selected).allocator
    (planOf a' inodes entries index selected).desiredInodes
    (planOf a' inodes entries index selected).desiredEntries with
  | rejected e herr hno => exact .inl ⟨e, Effect.bind_of_error herr, hno⟩
  | done transaction d' hrun hbecame hreport =>
    obtain ⟨hbecame, hmounted⟩ := h.of_became_sublist List.filter_sublist
      hbecame (h.owned.release hfreed) htree
    -- the selected entry is gone, so the tables have changed
    have hcommitted : transaction.committedTransactions = 1 := by
      rcases hreport with hreport | rfl
      · exact hreport
      · obtain ⟨_, _, _, hsame⟩ := h.unique hbecame.toAtRest
        have hmem := ht.mem
        rw [hsame] at hmem
        exact absurd (.inl rfl) (ht.mem_desired.mp hmem).2
    refine .inr ⟨transaction, d', ?_, hbecame, _, hmounted.check⟩
    rw [Effect.bind_of_ok hrun, Effect.lift_bind,
      rejectIf_of_not (not_ne_iff.mpr hcommitted)]
    simp only
    rw [Effect.query_bind, hmounted.check]
    rfl

/-- The inodes that stay are the root and those with an entry that stays. -/
theorem Target.mem_desiredInodes (h : Target inodes entries index selected)
    (hclosed : Closed inodes entries selected) {inode : PersistedInode} :
    inode ∈ (planOf a' inodes entries index selected).desiredInodes ↔
      inode ∈ inodes ∧ (inode.id = ROOT_INODE_ID ∨
        ∃ entry ∈ desiredEntriesOf inodes entries index selected,
          entry.target = inode.id) := by
  show inode ∈ inodes.filter _ ↔ _
  rw [List.mem_filter, decide_eq_true_eq]
  apply and_congr_right
  intro hinode
  constructor
  · intro hstays
    by_cases hroot : inode.id = ROOT_INODE_ID
    · exact .inl hroot
    · right
      have hin : inode ∈ inodes.filter fun inode =>
          inode.id ∉ removedInodesOf inodes entries index selected := by
        rw [List.mem_filter, decide_eq_true_eq]
        exact ⟨hinode, hstays⟩
      exact (h.namespace_desired hclosed).targeted hin hroot
  · rw [h.mem_removedInodes hclosed]
    rintro (hroot | ⟨entry, hentry, htarget⟩) ⟨⟨other, hother, _, hid⟩, hall⟩
    · exact h.tree.target_ne_root hother (hid.trans hroot)
    · obtain ⟨hmem, hstays⟩ := h.mem_desired.mp hentry
      exact hstays (hall entry hmem htarget)

/-- The removed identifiers are those of the inodes that do not stay. -/
theorem Target.mem_removedInodes_iff (h : Target inodes entries index selected)
    (hclosed : Closed inodes entries selected) {id : UInt64} :
    id ∈ removedInodesOf inodes entries index selected ↔
      ∃ inode ∈ inodes, inode.id = id ∧
        inode ∉ (planOf a' inodes entries index selected).desiredInodes := by
  have hstays : ∀ inode ∈ inodes,
      (inode ∉ (planOf a' inodes entries index selected).desiredInodes ↔
        inode.id ∈ removedInodesOf inodes entries index selected) := by
    intro inode hinode
    show inode ∉ inodes.filter _ ↔ _
    rw [List.mem_filter, decide_eq_true_eq, not_and, not_not]
    exact ⟨fun hgone => hgone hinode, fun hgone _ => hgone⟩
  constructor
  · intro hid
    obtain ⟨⟨entry, hentry, _, rfl⟩, _⟩ := (h.mem_removedInodes hclosed).mp hid
    obtain ⟨inode, hinode, heq⟩ := kindOf_ne_none.mp (h.tree.target entry hentry)
    refine ⟨inode, hinode, heq, (hstays inode hinode).mpr ?_⟩
    rw [heq]
    exact hid
  · intro hfacts
    rcases hfacts with ⟨inode, hinode, rfl, hgone⟩
    exact (hstays inode hinode).mp hgone

/-- A removal without an entry of the key. -/
theorem Mounted.removeDirectoryTree_missing (h : Mounted d sb a inodes entries)
    (hnone : selectEntry entries parent name = none) :
    ∃ e, removeDirectoryTreeJournaled sb parent name d = (.error e, d) := by
  have hplan : buildRecursiveRemovePlan a inodes entries parent name =
      .error (invalidInput "recursive-remove directory entry is missing") := by
    rw [buildRecursiveRemovePlan, hnone]
    rfl
  rw [h.removeDirectoryTree_eq, hplan]
  exact ⟨_, rfl⟩

/-- A removal that the shape of the namespace forbids. -/
theorem Mounted.removeDirectoryTree_rejected (h : Mounted d sb a inodes entries)
    (hsel : selectEntry entries parent name = some (index, selected))
    (hbad : selected.target = ROOT_INODE_ID ∨
      kindOf inodes selected.target ≠ some .directory ∨
      ¬ Closed inodes entries selected) :
    ∃ e, removeDirectoryTreeJournaled sb parent name d = (.error e, d) := by
  obtain ⟨e, hplan⟩ : ∃ e,
      buildRecursiveRemovePlan a inodes entries parent name = .error e := by
    rw [buildRecursiveRemovePlan, hsel, okOr_some, Except.ok_bind]
    by_cases hroot : selected.target = ROOT_INODE_ID
    · rw [rejectIf_of hroot]
      exact ⟨_, rfl⟩
    rw [rejectIf_of_not hroot, Except.ok_bind]
    by_cases hkind : kindOf inodes selected.target = some .directory
    case neg =>
      rw [rejectIf_of hkind]
      exact ⟨_, rfl⟩
    rw [rejectIf_of_not (not_ne_iff.mpr hkind), Except.ok_bind]
    have ht : Target inodes entries index selected :=
      ⟨h.tree, h.nodup_entries, (selects_of_selectEntry hsel).get, hkind⟩
    obtain ⟨a', hfreed⟩ :=
      h.owned.exists_freeAll (removedInodesOf inodes entries index selected)
    apply (ht.planSubtree_eq hfreed).2
    rcases hbad with hbad | hbad | hbad
    · exact absurd hbad hroot
    · exact absurd hkind hbad
    · exact hbad
  rw [h.removeDirectoryTree_eq, hplan]
  exact ⟨e, rfl⟩

/-- A removal that the shape of the namespace allows carries out its plan. -/
theorem Mounted.removeDirectoryTree_planned (h : Mounted d sb a inodes entries)
    (hsel : selectEntry entries parent name = some (index, selected))
    (hkind : kindOf inodes selected.target = some .directory)
    (hclosed : Closed inodes entries selected)
    (hfreed : a.freeAll ((releasedBlocks inodes
      (removedInodesOf inodes entries index selected)).map UInt64.toNat) =
        .ok a') :
    removeDirectoryTreeJournaled sb parent name d =
      FilesystemLab.publishRecursiveRemove sb
        (planOf a' inodes entries index selected) d := by
  have hmem := (selects_of_selectEntry hsel)
  have ht : Target inodes entries index selected :=
    ⟨h.tree, h.nodup_entries, hmem.get, hkind⟩
  have hplan : buildRecursiveRemovePlan a inodes entries parent name =
      .ok (planOf a' inodes entries index selected) := by
    rw [buildRecursiveRemovePlan, hsel, okOr_some, Except.ok_bind,
      rejectIf_of_not (h.tree.target_ne_root hmem.mem), Except.ok_bind,
      rejectIf_of_not (not_ne_iff.mpr hkind), Except.ok_bind]
    exact (ht.planSubtree_eq hfreed).1 hclosed
  rw [h.removeDirectoryTree_eq, hplan]

/-- **An error of the removal leaves the disk unchanged.** -/
theorem Mounted.removeDirectoryTree_error (h : Mounted d sb a inodes entries)
    {e : IoError}
    (he : (removeDirectoryTreeJournaled sb parent name d).1 = .error e) :
    (removeDirectoryTreeJournaled sb parent name d).2 = d := by
  cases hsel : selectEntry entries parent name with
  | none =>
    obtain ⟨e', herr⟩ := h.removeDirectoryTree_missing hsel
    rw [herr]
  | some found =>
    obtain ⟨index, selected⟩ := found
    by_cases hbad : selected.target = ROOT_INODE_ID ∨
      kindOf inodes selected.target ≠ some .directory ∨
      ¬ Closed inodes entries selected
    · obtain ⟨e', herr⟩ := h.removeDirectoryTree_rejected hsel hbad
      rw [herr]
    · rw [not_or, not_or, not_ne_iff, not_not] at hbad
      obtain ⟨_, hkind, hclosed⟩ := hbad
      obtain ⟨a', hfreed⟩ :=
        h.owned.exists_freeAll (removedInodesOf inodes entries index selected)
      have ht : Target inodes entries index selected :=
        ⟨h.tree, h.nodup_entries, (selects_of_selectEntry hsel).get, hkind⟩
      rw [h.removeDirectoryTree_planned hsel hkind hclosed hfreed] at he ⊢
      rcases h.publishRecursiveRemove ht hclosed hfreed with
        ⟨e', herr, _⟩ | ⟨_, _, hrun, _⟩
      · rw [herr]
      · rw [hrun] at he
        cases he

end Removal

/-- **Recursive removal is exact.**  On a device that the check accepts, with an
empty journal, the removal is rejected if the entry is missing, if its target is
the root or no directory, or if a directory below it has an entry from outside.
Otherwise it has a plan: the entries that go are the selected one and those in
the directories that the target reaches; the inodes that go are those that no
other entry targets, with exactly their blocks.  If the transaction fits the
journal the removal carries out this plan, and the check at its end passes.  An
error leaves the device unchanged. -/
theorem recursiveRemove_exact {d : Disk} {sb : Superblock} {report : FsckReport}
    (hsb : readSuperblock d = .ok sb) (hjournal : loadJournalImage d sb = .ok [])
    (hcheck : checkDevice d = .ok report) (parent : UInt64) (name : String) :
    ∃ a inodes entries, AtRest d sb a inodes entries ∧
      ((∀ entry ∈ entries, ¬ (entry.parent = parent ∧ entry.name = name)) →
        ∃ e, removeDirectoryTreeJournaled sb parent name d = (.error e, d)) ∧
      (∀ e, (removeDirectoryTreeJournaled sb parent name d).1 = .error e →
        (removeDirectoryTreeJournaled sb parent name d).2 = d) ∧
      ∀ selected ∈ entries, selected.parent = parent → selected.name = name →
        (selected.target = ROOT_INODE_ID ∨
            kindOf inodes selected.target ≠ some .directory ∨
            ¬ Closed inodes entries selected →
          ∃ e, removeDirectoryTreeJournaled sb parent name d = (.error e, d)) ∧
        (selected.target ≠ ROOT_INODE_ID →
          kindOf inodes selected.target = some .directory →
          Closed inodes entries selected →
          ∃ a' inodes' entries',
            entries'.Sublist entries ∧
            (∀ entry, entry ∈ entries' ↔
              entry ∈ entries ∧ ¬ Removed entries selected entry) ∧
            inodes'.Sublist inodes ∧
            (∀ inode, inode ∈ inodes' ↔ inode ∈ inodes ∧
              (inode.id = ROOT_INODE_ID ∨
                ∃ entry ∈ entries', entry.target = inode.id)) ∧
            (∀ b, a'.flag b = true ↔ a.flag b = true ∧
              ¬ ∃ inode ∈ inodes, inode ∉ inodes' ∧
                b ∈ inode.blocks.map UInt64.toNat) ∧
            (TransactionFits sb d a' inodes' entries' [] →
              ∃ r d',
                removeDirectoryTreeJournaled sb parent name d = (.ok r, d') ∧
                Became sb d d' a' inodes' entries' [] ∧
                (∃ fsck, checkDevice d' = .ok fsck) ∧
                r.removedEntries + entries'.length = entries.length ∧
                (∀ id, id ∈ r.removedInodes ↔
                  ∃ inode ∈ inodes, inode.id = id ∧ inode ∉ inodes') ∧
                ∀ block, block ∈ r.releasedBlocks ↔
                  ∃ inode ∈ inodes, inode ∉ inodes' ∧
                    block ∈ inode.blocks)) := by
  obtain ⟨a, inodes, entries, h⟩ := exists_mounted hsb hjournal hcheck
  refine ⟨a, inodes, entries, h.toAtRest, ?_, ?_, ?_⟩
  · intro hnone
    exact h.removeDirectoryTree_missing (selectEntry_eq_none.mpr hnone)
  · intro e he
    exact h.removeDirectoryTree_error he
  · intro selected hmem hparent hname
    obtain ⟨index, hsel⟩ := h.selectEntry_of_mem hmem hparent hname
    refine ⟨h.removeDirectoryTree_rejected hsel, ?_⟩
    intro _ hkind hclosed
    have ht : Target inodes entries index selected :=
      ⟨h.tree, h.nodup_entries, (selects_of_selectEntry hsel).get, hkind⟩
    obtain ⟨a', hfreed⟩ :=
      h.owned.exists_freeAll (removedInodesOf inodes entries index selected)
    obtain ⟨htotal, hreserved, _, _, hflag⟩ :=
      BlockAllocator.freeAll_eq_ok hfreed
    have hreleased := fun block =>
      @mem_releasedBlocks_planOf a' inodes entries index selected block
    refine ⟨a', (planOf a' inodes entries index selected).desiredInodes,
      (planOf a' inodes entries index selected).desiredEntries,
      keptEntries_sublist _, fun _ => ht.mem_desired, List.filter_sublist,
      fun _ => ht.mem_desiredInodes hclosed, ?_, ?_⟩
    · intro b
      rw [hflag, Bool.and_eq_true, decide_eq_true_eq, and_comm]
      apply and_congr_right
      intro _
      rw [not_iff_not, List.mem_map]
      constructor
      · intro hfacts
        rcases hfacts with ⟨block, hblock, rfl⟩
        obtain ⟨inode, hinode, hgone, hmem⟩ := (hreleased block).mp hblock
        exact ⟨inode, hinode, hgone, List.mem_map_of_mem hmem⟩
      · intro hfacts
        rcases hfacts with ⟨inode, hinode, hgone, hmem⟩
        obtain ⟨block, hblock, rfl⟩ := List.mem_map.mp hmem
        exact ⟨block, (hreleased block).mpr ⟨inode, hinode, hgone, hblock⟩,
          rfl⟩
    · intro hfits
      obtain ⟨hgeometry, hgeometry'⟩ := h.geometry
      have hstorable := h.storable_of_sublist (htotal.trans hgeometry)
        (hreserved.trans hgeometry') List.filter_sublist
        (keptEntries_sublist _) hfits
      rw [h.removeDirectoryTree_planned hsel hkind hclosed hfreed]
      rcases h.publishRecursiveRemove ht hclosed hfreed with
        ⟨_, _, hno⟩ | ⟨transaction, d', hrun, hbecame, hfsck⟩
      · exact absurd hstorable hno
      · refine ⟨_, d', hrun, hbecame, hfsck, length_keptEntries _,
          fun _ => ht.mem_removedInodes_iff hclosed, ?_⟩
        intro block
        exact List.mem_mergeSort.trans (hreleased block)

theorem recursiveRemove_exact_treeDisk :
    ∃ r d', removeDirectoryTreeJournaled treeSuperblock 1 "d" treeDisk =
        (.ok r, d') ∧ r.removedEntries = 2 ∧
      loadDirectoryTable d' treeSuperblock = .ok [] := by
  obtain ⟨a, inodes, entries, h, _, _, hselected⟩ := recursiveRemove_exact
    mounted_treeDisk.superblock mounted_treeDisk.journal mounted_treeDisk.check
    1 "d"
  obtain ⟨_, rfl, rfl, rfl⟩ := mounted_treeDisk.unique h
  obtain ⟨_, hgood⟩ := hselected ⟨1, 2, "d"⟩ (by decide) rfl rfl
  -- both entries go
  have hall : ∀ entry ∈ treeEntries,
      Removed treeEntries ⟨1, 2, "d"⟩ entry := by
    rw [treeEntries, List.forall_mem_cons, List.forall_mem_singleton]
    exact ⟨.inl rfl, .inr .refl⟩
  have hclosed : Closed treeInodes treeEntries ⟨1, 2, "d"⟩ :=
    fun entry hentry hstays => absurd (hall entry hentry) hstays
  obtain ⟨a', inodes', entries', _, hentries, _, _, _, hrun⟩ :=
    hgood (by decide) (by decide) hclosed
  have hnil : entries' = [] := by
    rw [List.eq_nil_iff_forall_not_mem]
    intro entry hentry
    obtain ⟨hmem, hstays⟩ := (hentries entry).mp hentry
    exact hstays (hall entry hmem)
  subst hnil
  obtain ⟨r, d', hok, hbecame, _, hcount, _, _⟩ := hrun (fits_tree (by simp))
  exact ⟨r, d', hok, hcount, hbecame.directoryTable⟩

end FilesystemLab
