import FilesystemLab.Create
import FilesystemLab.FileData

/-!
# Edits of the blocks of a file

`append_file_blocks_journaled` of `file_append_batch.rs`, `file_replace.rs`, and
`truncate_file_to_blocks_journaled` of `truncate_tx.rs`.

Each of them replaces a range of the blocks of one regular file by fresh blocks
and publishes the new allocator and inode table with the contents of the fresh
blocks in one transaction.  `Spliced` is what they leave: the disk with this
range replaced and everything else as it was.
-/

namespace FilesystemLab

open WriteLog

/-! ## The operations -/

/-- The inode table after a change through `inodes.iter_mut().find(..)`. -/
def setInode (inodes : List PersistedInode) (inode : PersistedInode) :
    List PersistedInode :=
  inodes.set (inodes.findIdx fun other => other.id = inode.id) inode

/-- The loops that check that blocks are owned before they are freed. -/
def requireAllocatorOwned (unowned : String) (a : BlockAllocator) :
    List UInt64 → Result Unit
  | [] => pure ()
  | block :: blocks => do
    let owned ← liftAllocation (a.isOwned block.toNat)
    rejectIf (owned = false) (invalidData unowned)
    requireAllocatorOwned unowned a blocks

/-- The tables that an edit stores; `label` names it in the messages. -/
def fileTables (label : String) (sb : Superblock) (a : BlockAllocator)
    (inodes : List PersistedInode) :
    List (TableImage × Result (List UInt8)) :=
  [allocationPair sb a
      (label ++ " image did not render every allocation metadata block"),
    inodePair sb inodes
      (label ++ " image did not render every inode metadata block")]

section Device

variable {σ : Type} [BlockDevice σ]

/-- The ends of the edits: the changed blocks of the two tables and the data
blocks in one transaction. -/
def publishFileChanges (label : String) (sb : Superblock) (a : BlockAllocator)
    (inodes : List PersistedInode) (data : List (UInt64 × Block)) :
    DevM σ RecoveryReport := do
  let tables ← Effect.query (ImageStore.collect
    ⟨(fileTables label sb a inodes).map Prod.fst,
      label ++ " image rendered outside allocation and inode regions"⟩ sb)
  publishTransaction (label ++ " recovery report is inconsistent") sb
    (tables ++ dataWrites data)

/-- `append_file_blocks_journaled`. -/
def appendFileBlocksJournaled (sb : Superblock) (id : UInt64)
    (data : List Block) : DevM σ (List UInt64 × RecoveryReport) := do
  rejectIf (data = [])
    (invalidInput "multi-block append requires at least one data block")
  let allocator ← Effect.query (loadAllocator · sb)
  let inodes ← Effect.query (loadInodeTable · sb)
  let inode ← okOr (findInode inodes id)
    (invalidInput "file-data target inode is missing")
  rejectIf (inode.kind ≠ .file)
    (invalidInput "file-data target must be a regular file")
  let taken ← allocateEach allocator data.length
  let edited ← inode.replaceBlockRange inode.blocks.length inode.blocks.length
    taken.1
  let report ← publishFileChanges "multi-block append" sb taken.2
    (setInode inodes edited.2) (taken.1.zip data)
  pure (taken.1, report)

/-- `replace_file_blocks_journaled`. -/
def replaceFileBlocksJournaled (sb : Superblock) (id : UInt64)
    (start removeCount : Nat) (replacements : List Block) :
    DevM σ (List UInt64 × List UInt64 × RecoveryReport) := do
  rejectIf (removeCount = 0 ∨ replacements = []) (invalidInput
    "block replacement requires non-empty removed and replacement ranges")
  let stop ← okOr (checkedAdd start removeCount) (invalidInput
    "block replacement destination range overflows usize")
  let allocator ← Effect.query (loadAllocator · sb)
  let inodes ← Effect.query (loadInodeTable · sb)
  let inode ← okOr (findInode inodes id)
    (invalidInput "replacement inode is missing")
  rejectIf (inode.kind ≠ .file)
    (invalidInput "block replacement target must be a regular file")
  rejectIf (stop > inode.blocks.length)
    (invalidInput "block replacement range exceeds existing logical blocks")
  let displaced := (inode.blocks.drop start).take (stop - start)
  requireAllocatorOwned "replacement displaced block is not allocator-owned" allocator
    displaced
  let taken ← allocateEach allocator replacements.length
  let freed ← liftAllocation (taken.2.freeAll (displaced.map UInt64.toNat))
  let edited ← inode.replaceBlockRange start stop taken.1
  let report ← publishFileChanges "block replacement" sb freed
    (setInode inodes edited.2) (taken.1.zip replacements)
  pure (taken.1, displaced, report)

/-- `truncate_file_to_blocks_journaled`. -/
def truncateFileToBlocksJournaled (sb : Superblock) (id : UInt64)
    (targetBlocks : Nat) : DevM σ (List UInt64 × RecoveryReport) := do
  let allocator ← Effect.query (loadAllocator · sb)
  let inodes ← Effect.query (loadInodeTable · sb)
  let entries ← Effect.query (loadDirectoryTable · sb)
  let inode ← okOr (findInode inodes id)
    (invalidInput "truncate target inode is missing")
  rejectIf (inode.kind ≠ .file)
    (invalidInput "truncate target must be a regular file")
  rejectIf (targetBlocks > inode.blocks.length)
    (invalidInput "truncate target block count exceeds current file blocks")
  if targetBlocks = inode.blocks.length then pure ([], RecoveryReport.default)
  else do
    let edited ← inode.replaceBlockRange targetBlocks inode.blocks.length []
    let freed ← liftAllocation (allocator.freeAll (edited.1.map UInt64.toNat))
    let report ← storeCreateMetadataJournaled sb freed
      (setInode inodes edited.2) entries
    pure (edited.1, report)

end Device

/-! ## One inode of a table -/

section SetInode

variable {inodes : List PersistedInode} {inode inode' : PersistedInode}

/-- With distinct identifiers, one inode is exchanged. -/
theorem setInode_eq_map (hnodup : (inodes.map PersistedInode.id).Nodup) :
    setInode inodes inode' = inodes.map fun other =>
      if other.id = inode'.id then inode' else other := by
  unfold setInode
  induction inodes with
  | nil => rfl
  | cons head rest ih =>
    rw [List.map_cons, List.nodup_cons] at hnodup
    by_cases hid : head.id = inode'.id
    · have hrest : ∀ other ∈ rest,
          (if other.id = inode'.id then inode' else other) = id other := by
        intro other hother
        apply if_neg
        intro hsame
        apply hnodup.1
        rw [hid, ← hsame]
        exact List.mem_map_of_mem hother
      rw [List.findIdx_cons, decide_eq_true hid, cond_true, List.set_cons_zero,
        List.map_cons, if_pos hid, List.map_congr_left hrest, List.map_id]
    · rw [List.findIdx_cons, decide_eq_false hid, cond_false,
        List.set_cons_succ, List.map_cons, if_neg hid, ih hnodup.2]

theorem map_id_setInode (hnodup : (inodes.map PersistedInode.id).Nodup) :
    (setInode inodes inode').map PersistedInode.id =
      inodes.map PersistedInode.id := by
  rw [setInode_eq_map hnodup, List.map_map]
  apply List.map_congr_left
  intro other _
  show (if other.id = inode'.id then inode' else other).id = other.id
  split
  · rename_i hid
    exact hid.symm
  · rfl

/-- The inodes after the exchange. -/
theorem mem_setInode (hnodup : (inodes.map PersistedInode.id).Nodup)
    (hmem : inode ∈ inodes) (hid : inode'.id = inode.id)
    {other : PersistedInode} :
    other ∈ setInode inodes inode' ↔
      other = inode' ∨ other ∈ inodes ∧ other.id ≠ inode'.id := by
  rw [setInode_eq_map hnodup, List.mem_map]
  constructor
  · intro hfacts
    rcases hfacts with ⟨old, hold, rfl⟩
    split
    · exact .inl rfl
    · rename_i hne
      exact .inr ⟨hold, hne⟩
  · intro hcases
    rcases hcases with rfl | ⟨hold, hne⟩
    · exact ⟨inode, hmem, if_pos hid.symm⟩
    · exact ⟨other, hold, if_neg hne⟩

theorem findInode_setInode_self (hnodup : (inodes.map PersistedInode.id).Nodup)
    (hmem : inode ∈ inodes) (hid : inode'.id = inode.id) :
    findInode (setInode inodes inode') inode.id = some inode' := by
  have hnew : inode' ∈ setInode inodes inode' :=
    (mem_setInode hnodup hmem hid).mpr (.inl rfl)
  rw [← hid]
  exact findInode_of_mem (by rw [map_id_setInode hnodup]; exact hnodup) hnew

/-- The other inodes are found as before. -/
theorem findInode_setInode_of_ne
    (hnodup : (inodes.map PersistedInode.id).Nodup) (hmem : inode ∈ inodes)
    (hid : inode'.id = inode.id) {other : PersistedInode}
    (hother : other ∈ inodes) (hne : other.id ≠ inode.id) :
    findInode (setInode inodes inode') other.id = some other := by
  apply findInode_of_mem
  · rw [map_id_setInode hnodup]
    exact hnodup
  · exact (mem_setInode hnodup hmem hid).mpr
      (.inr ⟨hother, by rw [hid]; exact hne⟩)

/-- An inode of the same kind is found in the place of the old one. -/
theorem kindOf_setInode (hnodup : (inodes.map PersistedInode.id).Nodup)
    (hmem : inode ∈ inodes) (hid : inode'.id = inode.id)
    (hkind : inode'.kind = inode.kind) {id : UInt64} {kind : InodeKind}
    (h : kindOf inodes id = some kind) :
    kindOf (setInode inodes inode') id = some kind := by
  have hnodup' : ((setInode inodes inode').map PersistedInode.id).Nodup := by
    rw [map_id_setInode hnodup]
    exact hnodup
  rw [kindOf_eq_some hnodup']
  obtain ⟨other, hother, rfl, rfl⟩ := exists_of_kindOf h
  by_cases hsame : other.id = inode.id
  · have heq := List.inj_on_of_nodup_map hnodup hother hmem hsame
    subst heq
    exact ⟨inode', (mem_setInode hnodup hmem hid).mpr (.inl rfl), hid, hkind⟩
  · exact ⟨other, (mem_setInode hnodup hmem hid).mpr
      (.inr ⟨hother, by rw [hid]; exact hsame⟩), rfl, rfl⟩

/-- **An inode with other blocks keeps the namespace consistent.** -/
theorem Namespace.setInode {entries : List PersistedDirectoryEntry}
    (h : Namespace inodes entries)
    (hnodup : (inodes.map PersistedInode.id).Nodup) (hmem : inode ∈ inodes)
    (hid : inode'.id = inode.id) (hkind : inode'.kind = inode.kind) :
    Namespace (setInode inodes inode') entries := by
  have hkinds : ∀ {id kind}, kindOf inodes id = some kind →
      kindOf (FilesystemLab.setInode inodes inode') id = some kind :=
    kindOf_setInode hnodup hmem hid hkind
  refine ⟨fun entry hentry => hkinds (h.parent entry hentry), ?_, ?_,
    h.acyclic, ?_⟩
  · intro entry hentry
    obtain ⟨kind, hkind⟩ :=
      Option.ne_none_iff_exists'.mp (h.target entry hentry)
    rw [hkinds hkind]
    exact Option.some_ne_none kind
  · intro _
    exact hkinds (h.root (List.ne_nil_of_mem hmem))
  · intro other hother
    rcases (mem_setInode hnodup hmem hid).mp hother with rfl | ⟨hold, _⟩
    · rw [hid]
      exact h.reachable inode hmem
    · exact h.reachable other hold

/-- **An inode with other blocks keeps the blocks owned**, if the allocator
has its blocks in the place of the old ones and they belong to no other. -/
theorem Owned.setInode {sb : Superblock} {a a' : BlockAllocator}
    (h : Owned sb a inodes) (hnodup : (inodes.map PersistedInode.id).Nodup)
    (hmem : inode ∈ inodes) (hid : inode'.id = inode.id)
    (hblocks : inode'.blocks.Nodup)
    (hnew : ∀ block ∈ inode'.blocks,
      block ∈ inode.blocks ∨ a.flag block.toNat = false)
    (hflag : ∀ b, a'.flag b = true ↔ b ∈ inode'.blocks.map UInt64.toNat ∨
      a.flag b = true ∧ b ∉ inode.blocks.map UInt64.toNat) :
    Owned sb a' (setInode inodes inode') := by
  have hiff : ∀ {other}, other ∈ FilesystemLab.setInode inodes inode' ↔
      other = inode' ∨ other ∈ inodes ∧ other.id ≠ inode'.id :=
    mem_setInode hnodup hmem hid
  -- the blocks of another inode are neither the old nor the new ones
  have hapart : ∀ other ∈ inodes, other.id ≠ inode'.id →
      ∀ block ∈ other.blocks, block ∉ inode.blocks ∧ block ∉ inode'.blocks := by
    intro other hother hne block hblock
    have hold : block ∉ inode.blocks := by
      intro hshared
      apply hne
      rw [hid, h.eq_of_shared hother hmem hblock hshared]
    refine ⟨hold, ?_⟩
    intro hshared
    rcases hnew block hshared with hmem' | hfree
    · exact hold hmem'
    · rw [h.data other hother block hblock] at hfree
      cases hfree
  refine ⟨?_, ?_, ?_⟩
  · intro other hother block hblock
    rw [hflag]
    rcases hiff.mp hother with rfl | ⟨hold, hne⟩
    · exact .inl (List.mem_map_of_mem hblock)
    · refine .inr ⟨h.data other hold block hblock, ?_⟩
      rw [List.mem_map_of_injective fun _ _ => UInt64.toNat_inj.mp]
      exact (hapart other hold hne block hblock).1
  · rw [setInode_eq_map hnodup, List.flatMap_map, List.nodup_flatMap]
    have hall := List.nodup_flatMap.mp h.nodup
    refine ⟨?_, ?_⟩
    · intro other hother
      show (if other.id = inode'.id then inode' else other).blocks.Nodup
      split
      · exact hblocks
      · exact hall.1 other hother
    · have hpairs := hall.2.and (List.pairwise_map.mp hnodup)
      apply hpairs.imp_of_mem
      intro x y hx hy hfacts
      rcases hfacts with ⟨hdisjoint, hne⟩
      show (if x.id = inode'.id then inode' else x).blocks.Disjoint
        (if y.id = inode'.id then inode' else y).blocks
      by_cases hxid : x.id = inode'.id
      · have hyid : y.id ≠ inode'.id := fun hy => hne (hxid.trans hy.symm)
        rw [if_pos hxid, if_neg hyid]
        exact fun block hb hb' => (hapart y hy hyid block hb').2 hb
      · rw [if_neg hxid]
        split
        · exact fun block hb hb' => (hapart x hx hxid block hb).2 hb'
        · exact hdisjoint
  · intro b hset
    rcases (hflag b).mp hset with hmine | ⟨hset, hold⟩
    · obtain ⟨block, hblock, rfl⟩ := List.mem_map.mp hmine
      exact ⟨inode', hiff.mpr (.inl rfl), block, hblock, rfl⟩
    · obtain ⟨other, hother, block, hblock, rfl⟩ := h.owner b hset
      refine ⟨other, hiff.mpr (.inr ⟨hother, ?_⟩), block, hblock, rfl⟩
      intro hsame
      have heq := List.inj_on_of_nodup_map hnodup hother hmem
        (hsame.trans hid)
      rw [heq] at hblock
      exact hold (List.mem_map_of_mem hblock)

end SetInode

/-! ## The transaction of an edit -/

section Publish

variable {d : Disk} {sb : Superblock} {a a' : BlockAllocator}
  {inodes inodes' : List PersistedInode}
  {entries : List PersistedDirectoryEntry} {label : String}
  {data : List (UInt64 × Block)}

/-- The allocator and the inode table are rendered, whatever the messages. -/
theorem renderings_twoTables (sb : Superblock) (a : BlockAllocator)
    (inodes : List PersistedInode) (missing missing' : String) :
    Renderings sb [allocationPair sb a missing, inodePair sb inodes missing'] := by
  have hlayout := sb.layout
  refine ⟨?_, ?_⟩
  · intro p hp
    simp only [List.mem_cons, List.not_mem_nil, or_false] at hp
    rcases hp with rfl | rfl
    · exact renders_allocationTable sb a _
    · exact renders_inodeTable sb inodes _
  · simp only [allocationPair, inodePair, allocationTable,
      inodeTable, List.pairwise_cons, List.mem_singleton, List.not_mem_nil,
      forall_eq, false_implies, implies_true, List.Pairwise.nil, and_true]
    omega

theorem renderings_fileTables (label : String) (sb : Superblock)
    (a : BlockAllocator) (inodes : List PersistedInode) :
    Renderings sb (fileTables label sb a inodes) :=
  renderings_twoTables sb a inodes _ _

/-- On a disk at rest, storing another allocator and inode table is storing all
three tables. -/
theorem AtRest.allTables (h : AtRest d sb a inodes entries)
    {ws : List (Nat × Block)}
    (hws : renderedWrites (fileTables label sb a' inodes') = .ok ws) :
    ∃ tables, renderedWrites (createImages sb a' inodes' entries) =
        .ok tables ∧ differing d.blocks tables = differing d.blocks ws := by
  obtain ⟨directoryImage, hdirectory, hholds⟩ :=
    (loadDirectoryTable_iff h.size).mp h.directoryTable
  have hnil : renderedWrites [] = .ok [] := rfl
  obtain ⟨held, hheld, hnone⟩ := renderedWrites_held
    (p := directoryPair sb entries
      "atomic-create image did not render every directory metadata block")
    hdirectory hholds hnil
  -- the messages do not matter for what is written
  have hws' : renderedWrites [allocationPair sb a'
        "atomic-create image did not render every allocation metadata block",
      inodePair sb inodes'
        "atomic-create image did not render every inode metadata block"] =
      .ok ws := hws
  refine ⟨ws ++ held, renderedWrites_append hws' hheld, ?_⟩
  rw [differing_append, hnone]
  exact List.append_nil _

/-- An edit that writes data, or changes the inodes, has something to write. -/
def EditWrites (inodes inodes' : List PersistedInode)
    (data : List (UInt64 × Block)) : Prop :=
  data ≠ [] ∨ inodes'.map PersistedInode.canonical ≠ inodes

/-- The transaction of such an edit is not empty. -/
theorem EditWrites.ne_nil (hwrites : EditWrites inodes inodes' data)
    (h : AtRest d sb a inodes entries) {tables : List (Nat × Block)}
    (htables : renderedWrites (createImages sb a' inodes' entries) =
      .ok tables) : differing d.blocks tables ++ dataWrites data ≠ [] := by
  rcases hwrites with hne | hchanged
  · exact append_dataWrites_ne_nil _ hne
  intro hnil
  -- without a changed block, the disk has the new inodes already
  have hnone : ∀ w ∈ ([] : List (Nat × Block)), sb.reservedBlocks ≤ w.1 := by
    simp
  have hbecame := h.became_self htables hnone List.nodup_nil (by
    rw [List.append_nil]
    exact (List.append_eq_nil_iff.mp hnil).1)
  have hsame := hbecame.inodeTable
  rw [h.inodeTable, Except.ok.injEq] at hsame
  exact hchanged hsame.symm

/-- **The transaction of an edit on a disk at rest.** -/
theorem AtRest.publishFileChanges (h : AtRest d sb a inodes entries)
    (hdata : ∀ w ∈ data, sb.reservedBlocks ≤ w.1.toNat)
    (hnodup : (data.map Prod.fst).Nodup)
    (hwrites : EditWrites inodes inodes' data) :
    Effect.Atomic
      (FilesystemLab.publishFileChanges label sb a' inodes' data) d
      fun _ d' => Became sb d d' a' (inodes'.map PersistedInode.canonical)
        entries (dataWrites data) := by
  obtain ⟨hcollect, hreject⟩ := ImageStore.collect_eq
    (renderings_fileTables label sb a' inodes') h.size
    (label ++ " image rendered outside allocation and inode regions")
  apply Effect.atomic_query_bind
  intro changes hchanges
  cases hws : renderedWrites (fileTables label sb a' inodes') with
  | error e =>
    obtain ⟨e', he'⟩ := hreject e hws
    have hboth := he'.symm.trans hchanges
    cases hboth
  | ok ws =>
    have hboth := (hcollect ws hws).symm.trans hchanges
    rw [Except.ok.injEq] at hboth
    obtain ⟨tables, htables, hsame⟩ := h.allTables hws
    rw [← hboth, ← hsame]
    exact h.publishTransaction htables hdata hnodup (hwrites.ne_nil h htables) _

/-- An edit whose tables have an image and that fits the journal is
published. -/
theorem AtRest.publishFileChanges_ok (h : AtRest d sb a inodes entries)
    (hdata : ∀ w ∈ data,
      sb.reservedBlocks ≤ w.1.toNat ∧ w.1.toNat < sb.totalBlocks)
    (hwrites : EditWrites inodes inodes' data) {ws : List (Nat × Block)}
    (hws : renderedWrites (fileTables label sb a' inodes') = .ok ws)
    (hfits : ChangesFit sb (differing d.blocks ws ++ dataWrites data)) :
    ∃ report d', FilesystemLab.publishFileChanges label sb a' inodes' data d =
      (.ok report, d') := by
  have hcollect := (ImageStore.collect_eq
    (renderings_fileTables label sb a' inodes') h.size
    (label ++ " image rendered outside allocation and inode regions")).1 ws hws
  obtain ⟨tables, htables, hsame⟩ := h.allTables hws
  rw [← hsame] at hfits
  obtain ⟨report, d', hrun⟩ := h.publishTransaction_ok htables hdata
    (hwrites.ne_nil h htables) hfits (label ++ " recovery report is inconsistent")
  refine ⟨report, d', ?_⟩
  rw [FilesystemLab.publishFileChanges, Effect.query_bind_of_ok hcollect,
    ← hsame]
  exact hrun

end Publish

/-! ## What an edit leaves -/

/-- The disk `d'` is the mounted disk `d` with one file exchanged for another
under its identifier; the blocks of the other inodes keep what they hold. -/
structure FileChanged (sb : Superblock) (d d' : Disk) (a' : BlockAllocator)
    (inodes : List PersistedInode) (entries : List PersistedDirectoryEntry)
    (inode inode' : PersistedInode) : Prop where
  mounted : Mounted d' sb a' (setInode inodes inode') entries
  id_eq : inode'.id = inode.id
  kind_eq : inode'.kind = .file
  others : ∀ other ∈ inodes, other.id ≠ inode.id → ∀ block ∈ other.blocks,
    d'.blocks block.toNat = d.blocks block.toNat

/-- The disk `d'` is the mounted disk `d` with the blocks `start..stop` of one
file replaced by fresh blocks that hold `images`. -/
structure Spliced (sb : Superblock) (d d' : Disk) (a a' : BlockAllocator)
    (inodes : List PersistedInode) (entries : List PersistedDirectoryEntry)
    (inode inode' : PersistedInode) (start stop : Nat) (fresh : List UInt64)
    (images : List Block) : Prop where
  mounted : Mounted d' sb a' (setInode inodes inode') entries
  start_le : start ≤ stop
  stop_le : stop ≤ inode.blocks.length
  id_eq : inode'.id = inode.id
  kind_eq : inode'.kind = .file
  blocks_eq : inode'.blocks =
    inode.blocks.take start ++ fresh ++ inode.blocks.drop stop
  byteLen_eq : inode'.byteLen.toNat = if inode'.blocks = [] then 0 else
    inode'.blocks.length * BLOCK_SIZE - inode.tailSlack
  free : ∀ block ∈ fresh, a.flag block.toNat = false
  flag : ∀ b, a'.flag b = (decide (b ∉
      ((inode.blocks.drop start).take (stop - start)).map UInt64.toNat) &&
    (decide (b ∈ fresh.map UInt64.toNat) || a.flag b))
  written : fresh.map (fun block => d'.blocks block.toNat) = images
  kept : ∀ b, sb.reservedBlocks ≤ b → b ∉ fresh.map UInt64.toNat →
    d'.blocks b = d.blocks b

section Edit

variable {d d' : Disk} {sb : Superblock} {a mid a' : BlockAllocator}
  {inodes : List PersistedInode} {entries : List PersistedDirectoryEntry}
  {inode inode' : PersistedInode} {start stop : Nat}
  {fresh displaced : List UInt64} {images : List Block}

/-- A list is what comes before a range, the range, and what comes behind. -/
theorem mem_of_splice {blocks : List UInt64} (hle : start ≤ stop)
    {block : UInt64} :
    block ∈ blocks ↔ block ∈ (blocks.drop start).take (stop - start) ∨
      block ∈ blocks.take start ∨ block ∈ blocks.drop stop := by
  have hparts : blocks = blocks.take start ++
      ((blocks.drop start).take (stop - start) ++ blocks.drop stop) := by
    have hstop : blocks.drop stop = (blocks.drop start).drop (stop - start) := by
      rw [List.drop_drop, Nat.add_sub_cancel' hle]
    rw [hstop, List.take_append_drop, List.take_append_drop]
  constructor
  · intro hmem
    rw [hparts, List.mem_append, List.mem_append] at hmem
    exact or_left_comm.mp hmem
  · intro hmem
    rw [hparts, List.mem_append, List.mem_append]
    exact or_left_comm.mpr hmem

/-- The blocks outside a range of distinct blocks are not in it. -/
theorem notMem_range_of_nodup {blocks : List UInt64} (hnodup : blocks.Nodup)
    (hle : start ≤ stop) {block : UInt64}
    (hmem : block ∈ blocks.take start ∨ block ∈ blocks.drop stop) :
    block ∉ (blocks.drop start).take (stop - start) := by
  intro hrange
  have hdrop := List.mem_of_mem_take hrange
  rcases hmem with hbefore | hbehind
  · exact List.disjoint_take_drop hnodup (Nat.le_refl start) hbefore hdrop
  · have hstop : blocks.drop stop = (blocks.drop start).drop (stop - start) := by
      rw [List.drop_drop, Nat.add_sub_cancel' hle]
    rw [hstop] at hbehind
    exact List.disjoint_take_drop (hnodup.sublist (List.drop_sublist _ _))
      (Nat.le_refl _) hrange hbehind

/-- **A range of blocks replaced by fresh ones keeps the blocks owned.** -/
theorem Owned.splice (h : Owned sb a inodes)
    (hids : (inodes.map PersistedInode.id).Nodup) (hmem : inode ∈ inodes)
    (hid : inode'.id = inode.id) (hle : start ≤ stop)
    (hnodup : inode.blocks.Nodup) (hnodup' : inode'.blocks.Nodup)
    (hblocks : inode'.blocks =
      inode.blocks.take start ++ fresh ++ inode.blocks.drop stop)
    (hfree : ∀ block ∈ fresh, a.flag block.toNat = false)
    (hflag : ∀ b, a'.flag b = (decide (b ∉
        ((inode.blocks.drop start).take (stop - start)).map UInt64.toNat) &&
      (decide (b ∈ fresh.map UInt64.toNat) || a.flag b))) :
    Owned sb a' (FilesystemLab.setInode inodes inode') := by
  have hinj : Function.Injective UInt64.toNat := fun _ _ => UInt64.toNat_inj.mp
  have hmem' : ∀ {block}, block ∈ inode'.blocks ↔ block ∈ fresh ∨
      block ∈ inode.blocks.take start ∨ block ∈ inode.blocks.drop stop := by
    intro block
    rw [hblocks, List.mem_append, List.mem_append, or_assoc, or_left_comm]
  apply h.setInode hids hmem hid hnodup'
  · intro block hblock
    rcases hmem'.mp hblock with hfresh | hold
    · exact .inr (hfree block hfresh)
    · exact .inl ((mem_of_splice hle).mpr (.inr hold))
  · intro b
    rw [hflag, Bool.and_eq_true, Bool.or_eq_true, decide_eq_true_eq,
      decide_eq_true_eq]
    constructor
    · intro hfacts
      rcases hfacts with ⟨hnot, hfresh | hset⟩
      · obtain ⟨block, hblock, rfl⟩ := List.mem_map.mp hfresh
        exact .inl (List.mem_map_of_mem (hmem'.mpr (.inl hblock)))
      · by_cases hmine : b ∈ inode.blocks.map UInt64.toNat
        · obtain ⟨block, hblock, rfl⟩ := List.mem_map.mp hmine
          rw [List.mem_map_of_injective hinj] at hnot
          rcases (mem_of_splice hle).mp hblock with hgone | hstays
          · exact absurd hgone hnot
          · exact .inl (List.mem_map_of_mem (hmem'.mpr (.inr hstays)))
        · exact .inr ⟨hset, hmine⟩
    · intro hcases
      rcases hcases with hnew | ⟨hset, hother⟩
      · obtain ⟨block, hblock, rfl⟩ := List.mem_map.mp hnew
        rw [List.mem_map_of_injective hinj, List.mem_map_of_injective hinj]
        rcases hmem'.mp hblock with hfresh | hstays
        · refine ⟨?_, .inl hfresh⟩
          intro hgone
          have hset := h.data inode hmem block
            ((mem_of_splice hle).mpr (.inl hgone))
          rw [hfree block hfresh] at hset
          cases hset
        · exact ⟨notMem_range_of_nodup hnodup hle hstays,
            .inr (h.data inode hmem block
              ((mem_of_splice hle).mpr (.inr hstays)))⟩
      · refine ⟨?_, .inr hset⟩
        intro hgone
        obtain ⟨block, hblock, rfl⟩ := List.mem_map.mp hgone
        exact hother (List.mem_map_of_mem
          ((mem_of_splice hle).mpr (.inl hblock)))

/-- The flags after fresh blocks are taken and others are freed. -/
theorem flag_of_takes_freeAll {freed : List UInt64} (htakes : Takes a mid fresh)
    (hfreed : mid.freeAll (freed.map UInt64.toNat) = .ok a') (b : Nat) :
    a'.flag b = (decide (b ∉ freed.map UInt64.toNat) &&
      (decide (b ∈ fresh.map UInt64.toNat) || a.flag b)) := by
  obtain ⟨_, _, _, _, hflag⟩ := BlockAllocator.freeAll_eq_ok hfreed
  rw [hflag, htakes.flag]

/-- The blocks of an inode are not fresh. -/
theorem Owned.notMem_fresh (h : Owned sb a inodes) (hmem : inode ∈ inodes)
    (hfree : ∀ block ∈ fresh, a.flag block.toNat = false) {block : UInt64}
    (hblock : block ∈ inode.blocks) : block ∉ fresh := by
  intro hnew
  have hset := h.data inode hmem block hblock
  rw [hfree block hnew] at hset
  cases hset

/-- **A file whose blocks are replaced in part by fresh ones**, and that is
written nowhere but in its new blocks, is exchanged. -/
theorem Mounted.fileChanged {data : List (UInt64 × Block)}
    (h : Mounted d sb a inodes entries)
    (hmem : inode ∈ inodes) (hkind : inode.kind = .file)
    (hid : inode'.id = inode.id) (hkind' : inode'.kind = .file)
    (hstart : start ≤ stop)
    (hblocks : inode'.blocks =
      inode.blocks.take start ++ fresh ++ inode.blocks.drop stop)
    (hvalid' : validateInodeFields inode'.id inode'.kind inode'.blocks
      inode'.byteLen false = .ok inode'.byteLen)
    (hfree : ∀ block ∈ fresh, a.flag block.toNat = false)
    (hflag : ∀ b, a'.flag b = (decide (b ∉
        ((inode.blocks.drop start).take (stop - start)).map UInt64.toNat) &&
      (decide (b ∈ fresh.map UInt64.toNat) || a.flag b)))
    (hdata : ∀ w ∈ data, w.1 ∈ inode'.blocks)
    (hbecame : Became sb d d' a'
      ((setInode inodes inode').map PersistedInode.canonical) entries
      (dataWrites data)) :
    FileChanged sb d d' a' inodes entries inode inode' := by
  have hids := h.nodup_ids
  have hiff : ∀ {other}, other ∈ setInode inodes inode' ↔
      other = inode' ∨ other ∈ inodes ∧ other.id ≠ inode'.id :=
    mem_setInode hids hmem hid
  have hcanonical : (setInode inodes inode').map PersistedInode.canonical =
      setInode inodes inode' := by
    have hsame : ∀ other ∈ setInode inodes inode',
        PersistedInode.canonical other = id other := by
      intro other hother
      rcases hiff.mp hother with rfl | ⟨hold, _⟩
      · exact PersistedInode.canonical_of_validate hvalid'
      · exact h.canonical_of_mem hold
    rw [List.map_congr_left hsame, List.map_id]
  rw [hcanonical] at hbecame
  -- a block of another inode is neither kept nor fresh
  have hapart : ∀ other ∈ inodes, other.id ≠ inode.id →
      ∀ block ∈ other.blocks,
        block.toNat ∉ (dataWrites data).map Prod.fst := by
    intro other hother hne block hblock hwritten
    obtain ⟨w, hw, heq⟩ := List.mem_map.mp hwritten
    obtain ⟨v, hv, rfl⟩ := List.mem_map.mp hw
    have hsame : v.1 = block := UInt64.toNat_inj.mp heq
    have hmine := hdata v hv
    rw [hsame, hblocks, List.mem_append, List.mem_append, or_assoc,
      or_left_comm] at hmine
    rcases hmine with hnew | hold
    · exact h.owned.notMem_fresh hother hfree hblock hnew
    · exact hne (congrArg PersistedInode.id (h.owned.eq_of_shared hother hmem
        hblock ((mem_of_splice hstart).mpr (.inr hold))))
  have hreserved := h.geometry.2
  refine ⟨?_, hid, hkind', ?_⟩
  · apply h.of_became hbecame
    · exact h.owned.splice hids hmem hid hstart
        (PersistedInode.nodup_of_validate (h.validate hmem))
        (PersistedInode.nodup_of_validate hvalid') hblocks hfree hflag
    · exact h.tree.setInode hids hmem hid (hkind'.trans hkind.symm)
    · intro other hother
      rcases hiff.mp hother with rfl | ⟨hold, hne⟩
      · exact .inr (if_pos (by rw [hkind']; decide))
      · exact .inl ⟨hold, hapart other hold (hid ▸ hne)⟩
  · intro other hother hne block hblock
    have hrange := BlockAllocator.range_of_flag
      (h.owned.data other hother block hblock)
    rw [hbecame.contents _ (by omega),
      overlay_of_notMem (hapart other hother hne block hblock)]

/-- **A range of blocks replaced by fresh ones keeps the disk consistent.** -/
theorem Mounted.spliced (h : Mounted d sb a inodes entries)
    (hmem : inode ∈ inodes) (hkind : inode.kind = .file)
    (hedit : inode.replaceBlockRange start stop fresh = .ok (displaced, inode'))
    (htakes : Takes a mid fresh)
    (hfreed : mid.freeAll (displaced.map UInt64.toNat) = .ok a')
    (hlen : fresh.length = images.length)
    (hbecame : Became sb d d' a'
      ((setInode inodes inode').map PersistedInode.canonical) entries
      (dataWrites (fresh.zip images))) :
    Spliced sb d d' a a' inodes entries inode inode' start stop fresh
      images := by
  obtain ⟨hstart, hstop, rfl, hid, hkind', hblocks, hbyteLen, hvalid'⟩ :=
    PersistedInode.replaceBlockRange_eq_ok hkind (h.validate hmem) hedit
  have hflag := flag_of_takes_freeAll htakes hfreed
  have hfst : (fresh.zip images).map Prod.fst = fresh :=
    List.map_fst_zip (by omega)
  have hsnd : (fresh.zip images).map Prod.snd = images :=
    List.map_snd_zip (by omega)
  -- the data blocks that are written are the fresh ones
  have hnames : (dataWrites (fresh.zip images)).map Prod.fst =
      fresh.map UInt64.toNat := by
    conv_rhs => rw [← hfst]
    simp [dataWrites, Function.comp_def]
  have hmounted := h.fileChanged hmem hkind hid hkind' hstart hblocks hvalid'
    htakes.free hflag (fun w hw => by
      rw [hblocks]
      exact List.mem_append_left _
        (List.mem_append_right _ (List.of_mem_zip hw).1)) hbecame
  refine ⟨hmounted.mounted, hstart, hstop, hid, hkind', hblocks, hbyteLen,
    htakes.free, hflag, ?_, ?_⟩
  · have hheld : ∀ w ∈ fresh.zip images, d'.blocks w.1.toNat = w.2 := by
      intro w hw
      have hrange := htakes.range (List.of_mem_zip hw).1
      have hreserved := h.geometry.2
      rw [hbecame.contents _ (by omega)]
      apply overlay_of_nodup
      · rw [hnames]
        exact htakes.nodup.map fun _ _ heq => UInt64.toNat_inj.mp heq
      · exact List.mem_map_of_mem (f := fun w => (w.1.toNat, w.2)) hw
    conv_lhs => rw [← hfst, List.map_map]
    conv_rhs => rw [← hsnd]
    exact List.map_congr_left hheld
  · intro b hb hnot
    rw [hbecame.contents b hb, overlay_of_notMem (by rw [hnames]; exact hnot)]

/-- The two checks in front of an edit: what follows is about a file of the
table. -/
theorem atomic_findFile {α : Type} {id : UInt64} {missing wrongKind : IoError}
    {edit : PersistedInode → DevM Disk α} {post : α → Disk → Prop}
    (h : ∀ inode ∈ inodes, inode.id = id → inode.kind = .file →
      Effect.Atomic (edit inode) d post) :
    Effect.Atomic (liftM (okOr (findInode inodes id) missing) >>= fun inode =>
      liftM (rejectIf (inode.kind ≠ .file) wrongKind) >>= fun _ => edit inode)
      d post := by
  apply Effect.atomic_lift_bind
  intro inode hfind
  obtain ⟨hmem, hid⟩ := findInode_eq_some (okOr_eq_ok.mp hfind)
  apply Effect.atomic_lift_bind
  intro _ hkind
  rw [rejectIf_eq_ok, not_ne_iff] at hkind
  exact h inode hmem hid hkind

/-- `append_file_blocks_journaled` on a mounted disk. -/
theorem Mounted.appendFileBlocks (h : Mounted d sb a inodes entries)
    (id : UInt64) (data : List Block) :
    Effect.Atomic (appendFileBlocksJournaled sb id data) d fun r d' =>
      ∃ inode ∈ inodes, inode.id = id ∧ inode.kind = .file ∧ ∃ a' inode',
        Spliced sb d d' a a' inodes entries inode inode' inode.blocks.length
          inode.blocks.length r.1 data := by
  apply Effect.atomic_lift_bind
  intro _ hne
  rw [rejectIf_eq_ok] at hne
  apply h.atomic_allocator
  apply h.atomic_inodes
  apply atomic_findFile
  intro inode hmem hid hkind
  apply Effect.atomic_lift_bind
  rintro ⟨fresh, a'⟩ hloop
  obtain ⟨htakes, hlen, hle⟩ := h.takes_of_allocateEach hloop
  apply Effect.atomic_lift_bind
  rintro ⟨displaced, inode'⟩ hedit
  obtain ⟨hdata, hnodup, hne'⟩ := zip_of_takes htakes hlen hne hle
  apply (h.publishFileChanges hdata hnodup (.inl hne')).bind
  intro report d' hbecame
  refine ⟨_, _, rfl, inode, hmem, hid, hkind, a', inode', ?_⟩
  apply h.spliced hmem hkind hedit htakes _ hlen hbecame
  have hdisplaced := (PersistedInode.replaceBlockRange_eq_ok hkind
    (h.validate hmem) hedit).2.2.1
  rw [hdisplaced, Nat.sub_self, List.take_zero]
  rfl

/-- `replace_file_blocks_journaled` on a mounted disk. -/
theorem Mounted.replaceFileBlocks (h : Mounted d sb a inodes entries)
    (id : UInt64) (start removeCount : Nat) (replacements : List Block) :
    Effect.Atomic (replaceFileBlocksJournaled sb id start removeCount
        replacements) d fun r d' =>
      ∃ inode ∈ inodes, inode.id = id ∧ inode.kind = .file ∧ ∃ a' inode',
        Spliced sb d d' a a' inodes entries inode inode' start
          (start + removeCount) r.1 replacements := by
  apply Effect.atomic_lift_bind
  intro _ hne
  rw [rejectIf_eq_ok, not_or] at hne
  apply Effect.atomic_lift_bind
  intro stop hstop
  rw [okOr_eq_ok, checkedAdd_eq_some] at hstop
  obtain ⟨_, rfl⟩ := hstop
  apply h.atomic_allocator
  apply h.atomic_inodes
  apply atomic_findFile
  intro inode hmem hid hkind
  apply Effect.atomic_lift_bind
  intro _ _
  apply Effect.atomic_lift_bind
  intro _ _
  apply Effect.atomic_lift_bind
  rintro ⟨fresh, mid⟩ hloop
  obtain ⟨htakes, hlen, hle⟩ := h.takes_of_allocateEach hloop
  apply Effect.atomic_lift_bind
  intro a' hfreed
  rw [liftAllocation_eq_ok] at hfreed
  apply Effect.atomic_lift_bind
  rintro ⟨displaced, inode'⟩ hedit
  obtain ⟨hdata, hnodup, hne'⟩ := zip_of_takes htakes hlen hne.2 hle
  apply (h.publishFileChanges hdata hnodup (.inl hne')).bind
  intro report d' hbecame
  refine ⟨_, _, rfl, inode, hmem, hid, hkind, a', inode', ?_⟩
  apply h.spliced hmem hkind hedit htakes _ hlen hbecame
  have hdisplaced := (PersistedInode.replaceBlockRange_eq_ok hkind
    (h.validate hmem) hedit).2.2.1
  rw [hdisplaced]
  exact hfreed

/-- `truncate_file_to_blocks_journaled` on a mounted disk. -/
theorem Mounted.truncateFileToBlocks (h : Mounted d sb a inodes entries)
    (id : UInt64) (targetBlocks : Nat) :
    Effect.Atomic (truncateFileToBlocksJournaled sb id targetBlocks) d
      fun _ d' => ∃ inode ∈ inodes, inode.id = id ∧ inode.kind = .file ∧
        (targetBlocks = inode.blocks.length ∧ d' = d ∨
          targetBlocks ≠ inode.blocks.length ∧ ∃ a' inode',
            Spliced sb d d' a a' inodes entries inode inode' targetBlocks
              inode.blocks.length [] []) := by
  apply h.atomic_allocator
  apply h.atomic_inodes
  apply h.atomic_entries
  apply atomic_findFile
  intro inode hmem hid hkind
  apply Effect.atomic_lift_bind
  intro _ _
  by_cases hsame : targetBlocks = inode.blocks.length
  · rw [if_pos hsame]
    exact Effect.atomic_pure ⟨inode, hmem, hid, hkind, .inl ⟨hsame, rfl⟩⟩
  rw [if_neg hsame]
  apply Effect.atomic_lift_bind
  rintro ⟨displaced, inode'⟩ hedit
  apply Effect.atomic_lift_bind
  intro a' hfreed
  rw [liftAllocation_eq_ok] at hfreed
  apply (h.storeCreateMetadata _ _ _).atomic.bind
  intro report d' hbecame
  exact ⟨_, _, rfl, inode, hmem, hid, hkind, .inr ⟨hsame, a', inode',
    h.spliced hmem hkind hedit (takes_nil a) hfreed rfl hbecame⟩⟩

end Edit

/-! ## Contents after an edit -/

namespace Spliced

variable {d d' : Disk} {sb : Superblock} {a a' : BlockAllocator}
  {inodes : List PersistedInode} {entries : List PersistedDirectoryEntry}
  {inode inode' other : PersistedInode} {start stop : Nat} {fresh : List UInt64}
  {images : List Block}

/-- The blocks of before keep what they hold. -/
theorem block_eq
    (hs : Spliced sb d d' a a' inodes entries inode inode' start stop fresh
      images) (h : Mounted d sb a inodes entries) (hother : other ∈ inodes)
    {block : UInt64} (hblock : block ∈ other.blocks) :
    d'.blocks block.toNat = d.blocks block.toNat := by
  have hset := h.owned.data other hother block hblock
  have hrange := BlockAllocator.range_of_flag hset
  have hreserved := h.geometry.2
  apply hs.kept _ (by omega)
  intro hnew
  obtain ⟨new, hmem, heq⟩ := List.mem_map.mp hnew
  rw [← heq, hs.free new hmem] at hset
  cases hset

/-- **The images of the file are those of before with the range replaced.** -/
theorem fileImages_eq
    (hs : Spliced sb d d' a a' inodes entries inode inode' start stop fresh
      images) (h : Mounted d sb a inodes entries) (hmem : inode ∈ inodes) :
    fileImages d' inode' = (fileImages d inode).take start ++ images ++
      (fileImages d inode).drop stop := by
  have hsame : inode.blocks.map (fun block => d'.blocks block.toNat) =
      inode.blocks.map fun block => d.blocks block.toNat :=
    List.map_congr_left fun _ hblock => hs.block_eq h hmem hblock
  rw [fileImages, hs.blocks_eq, List.map_append, List.map_append, hs.written,
    List.map_take, List.map_drop, hsame]
  rfl

/-- **The other files keep their images.** -/
theorem fileImages_other
    (hs : Spliced sb d d' a a' inodes entries inode inode' start stop fresh
      images) (h : Mounted d sb a inodes entries) (hother : other ∈ inodes) :
    fileImages d' other = fileImages d other :=
  List.map_congr_left fun _ hblock => hs.block_eq h hother hblock

/-- The file is exchanged for one with other blocks. -/
theorem fileChanged
    (hs : Spliced sb d d' a a' inodes entries inode inode' start stop fresh
      images) (h : Mounted d sb a inodes entries) :
    FileChanged sb d d' a' inodes entries inode inode' :=
  ⟨hs.mounted, hs.id_eq, hs.kind_eq,
    fun _ hother _ _ hblock => hs.block_eq h hother hblock⟩

end Spliced

/-! ## What does not change with a file -/

namespace FileChanged

variable {d d' : Disk} {sb : Superblock} {a a' : BlockAllocator}
  {inodes : List PersistedInode} {entries : List PersistedDirectoryEntry}
  {inode inode' other : PersistedInode}

/-- The inodes of the other files are still there. -/
theorem mem_other (hx : FileChanged sb d d' a' inodes entries inode inode')
    (h : Mounted d sb a inodes entries) (hmem : inode ∈ inodes)
    (hother : other ∈ inodes) (hne : other.id ≠ inode.id) :
    other ∈ setInode inodes inode' :=
  (mem_setInode h.nodup_ids hmem hx.id_eq).mpr
    (.inr ⟨hother, by rw [hx.id_eq]; exact hne⟩)

theorem mem_self (hx : FileChanged sb d d' a' inodes entries inode inode')
    (h : Mounted d sb a inodes entries) (hmem : inode ∈ inodes) :
    inode' ∈ setInode inodes inode' :=
  (mem_setInode h.nodup_ids hmem hx.id_eq).mpr (.inl rfl)

/-- The inode table is that of before but for the file. -/
theorem inodeTable (hx : FileChanged sb d d' a' inodes entries inode inode')
    (h : Mounted d sb a inodes entries) :
    loadInodeTable d' sb = .ok (inodes.map fun other =>
      if other.id = inode.id then inode' else other) := by
  rw [hx.mounted.inodeTable, setInode_eq_map h.nodup_ids, hx.id_eq]

/-- An inode that is looked up has its identifier and its kind. -/
theorem findInode_eq (hx : FileChanged sb d d' a' inodes entries inode inode')
    (h : Mounted d sb a inodes entries) (hmem : inode ∈ inodes)
    (hkind : inode.kind = .file) {id : UInt64}
    (hfind : findInode inodes id = some other) :
    ∃ other', findInode (setInode inodes inode') id = some other' ∧
      other'.id = other.id ∧ other'.kind = other.kind ∧
      (other.kind = .file ∨ other' = other ∧ other.id ≠ inode.id) := by
  obtain ⟨hother, rfl⟩ := findInode_eq_some hfind
  by_cases hsame : other.id = inode.id
  · have heq := List.inj_on_of_nodup_map h.nodup_ids hother hmem hsame
    subst heq
    exact ⟨inode', findInode_setInode_self h.nodup_ids hmem hx.id_eq, hx.id_eq,
      hx.kind_eq.trans hkind.symm, .inl hkind⟩
  · exact ⟨other, findInode_setInode_of_ne h.nodup_ids hmem hx.id_eq hother
      hsame, rfl, rfl, .inr ⟨rfl, hsame⟩⟩

/-- A walk is not disturbed by an edit. -/
theorem simulates (hx : FileChanged sb d d' a' inodes entries inode inode')
    (h : Mounted d sb a inodes entries) (hmem : inode ∈ inodes)
    (hkind : inode.kind = .file) :
    WalkSimulates (readSymlink d sb) (readSymlink d' sb) inodes
      (setInode inodes inode') entries entries := by
  have hinode : ∀ {id other}, requireInode inodes id = .ok other →
      ∃ other', requireInode (setInode inodes inode') id = .ok other' ∧
        other'.id = other.id ∧ other'.kind = other.kind := by
    intro id other hother
    rw [requireInode, okOr_eq_ok] at hother
    obtain ⟨other', hother', hid, hkind', _⟩ :=
      hx.findInode_eq h hmem hkind hother
    exact ⟨other', by rw [requireInode, okOr_eq_ok, hother'], hid, hkind'⟩
  refine ⟨hinode, ?_, fun hentry => hentry, ?_⟩
  · intro directory above hparent
    unfold parentDirectory at hparent ⊢
    split at hparent
    · rename_i hroot
      rw [if_pos hroot]
      exact hparent
    rename_i hroot
    rw [if_neg hroot]
    split at hparent
    · cases hparent
    · cases hparent
    · rename_i entry hfilter
      simp only [Except.bind_eq_ok, rejectIf_eq_ok] at hparent ⊢
      obtain ⟨other, hother, _, hdirectory, hrest⟩ := hparent
      obtain ⟨other', hother', _, hkind'⟩ := hinode hother
      exact ⟨other', hother', (), by rw [hkind']; exact hdirectory, hrest⟩
  · intro id target hread
    simp only [readSymlink, h.inodeTable, hx.mounted.inodeTable,
      Except.ok_bind, Except.bind_eq_ok, okOr_eq_ok, rejectIf_eq_ok,
      not_ne_iff] at hread ⊢
    obtain ⟨other, hother, _, hlink, hread⟩ := hread
    obtain ⟨other', hother', _, _, hfile | ⟨rfl, hne⟩⟩ :=
      hx.findInode_eq h hmem hkind hother
    · rw [hfile] at hlink
      cases hlink
    · have hblocks : readBlocks d' other'.blocks =
          readBlocks d other'.blocks := by
        apply readBlocks_congr
        intro block hblock
        have hold := (findInode_eq_some hother).1
        have hrange := BlockAllocator.range_of_flag
          (h.owned.data other' hold block hblock)
        have htotal := h.geometry.1
        have hsize := h.size
        have hsize' := hx.mounted.size
        rw [Disk.readBlock_of_lt (by omega), Disk.readBlock_of_lt (by omega),
          hx.others other' hold hne block hblock]
      refine ⟨other', hother', (), hlink, ?_⟩
      rw [readSymlinkInode] at hread ⊢
      rw [hblocks]
      exact hread

/-- **A path leads where it led before.** -/
theorem resolves (hx : FileChanged sb d d' a' inodes entries inode inode')
    (h : Mounted d sb a inodes entries) (hmem : inode ∈ inodes)
    (hkind : inode.kind = .file) {path : String} {id : UInt64}
    (hpath : resolvePathFollowingSymlinks d sb path = .ok id) :
    resolvePathFollowingSymlinks d' sb path = .ok id :=
  (hx.simulates h hmem hkind).resolvePath h.toAtRest hx.mounted.toAtRest hpath

end FileChanged

/-! ## Edits that succeed -/

theorem requireAllocatorOwned_of_owned {unowned : String} {a : BlockAllocator}
    {blocks : List UInt64}
    (h : ∀ block ∈ blocks, a.flag block.toNat = true) :
    requireAllocatorOwned unowned a blocks = .ok () := by
  induction blocks with
  | nil => rfl
  | cons block blocks ih =>
    rw [List.forall_mem_cons] at h
    have hrange := BlockAllocator.range_of_flag h.1
    have howned := BlockAllocator.isOwned_of_data hrange.1 hrange.2
    rw [requireAllocatorOwned, liftAllocation_eq_ok.mpr howned, Except.ok_bind,
      h.1, rejectIf_of_not (by decide), Except.ok_bind]
    exact ih h.2

/-- A replacement that passes its checks and is published. -/
theorem Mounted.replaceFileBlocks_ok {d : Disk} {sb : Superblock}
    {a mid : BlockAllocator} {inodes : List PersistedInode}
    {entries : List PersistedDirectoryEntry} {inode inode' : PersistedInode}
    {removeCount : Nat} {fresh displaced : List UInt64} {images : List Block}
    (h : Mounted d sb a inodes entries) (hmem : inode ∈ inodes)
    (hkind : inode.kind = .file) (hremove : removeCount ≠ 0)
    (himages : images ≠ []) (hcount : removeCount ≤ inode.blocks.length)
    (hloop : allocateEach a images.length = .ok (fresh, mid))
    (hedit : inode.replaceBlockRange 0 removeCount fresh =
      .ok (displaced, inode'))
    (hpublish : ∀ a', a'.totalBlocks = sb.totalBlocks →
      a'.reservedBlocks = sb.reservedBlocks →
      ∃ report d', publishFileChanges "block replacement" sb a'
        (setInode inodes inode') (fresh.zip images) d = (.ok report, d')) :
    ∃ r d', replaceFileBlocksJournaled sb inode.id 0 removeCount images d =
      (.ok r, d') := by
  obtain ⟨htakes, hlen, hle⟩ := h.takes_of_allocateEach hloop
  have hcapacity := (h.fileEnd hmem hkind).2
  rw [blockSize_eq] at hcapacity
  have hdisplaced := (PersistedInode.replaceBlockRange_eq_ok hkind
    (h.validate hmem) hedit).2.2.1
  rw [Nat.sub_zero, List.drop_zero] at hdisplaced
  have howned : ∀ block ∈ inode.blocks.take removeCount,
      a.flag block.toNat = true :=
    fun block hblock => h.owned.data inode hmem block
      (List.mem_of_mem_take hblock)
  obtain ⟨freed, hfreed⟩ : ∃ freed, mid.freeAll
      ((inode.blocks.take removeCount).map UInt64.toNat) = .ok freed := by
    apply BlockAllocator.exists_freeAll
    · have hnodup := PersistedInode.nodup_of_validate (h.validate hmem)
      exact (hnodup.sublist (List.take_sublist _ _)).map
        fun _ _ heq => UInt64.toNat_inj.mp heq
    · intro b hb
      obtain ⟨block, hblock, rfl⟩ := List.mem_map.mp hb
      rw [htakes.flag, howned block hblock, Bool.or_true]
  obtain ⟨htotal, hreserved, _⟩ := BlockAllocator.freeAll_eq_ok hfreed
  obtain ⟨htotal', hreserved'⟩ := h.geometry
  obtain ⟨report, d', hrun⟩ := hpublish freed
    (by rw [htotal, htakes.totalBlocks, htotal'])
    (by rw [hreserved, htakes.reservedBlocks, hreserved'])
  refine ⟨(fresh, displaced, report), d', ?_⟩
  rw [replaceFileBlocksJournaled,
    Effect.lift_bind_of_ok (a := ()) (rejectIf_of_not (by tauto)),
    Effect.lift_bind_of_ok (a := removeCount)
      (okOr_eq_ok.mpr (checkedAdd_eq_some.mpr ⟨by omega, by omega⟩)),
    h.allocator_bind, h.inodes_bind,
    Effect.lift_bind_of_ok (a := inode)
      (okOr_eq_ok.mpr (findInode_of_mem h.nodup_ids hmem)),
    Effect.lift_bind_of_ok (a := ())
      (rejectIf_of_not (not_ne_iff.mpr hkind)),
    Effect.lift_bind_of_ok (a := ()) (rejectIf_of_not (by omega)),
    List.drop_zero, Nat.sub_zero,
    Effect.lift_bind_of_ok (requireAllocatorOwned_of_owned howned),
    Effect.lift_bind_of_ok hloop,
    Effect.lift_bind_of_ok (liftAllocation_eq_ok.mpr hfreed),
    Effect.lift_bind_of_ok hedit, Effect.bind_of_ok hrun, hdisplaced]
  rfl

/-- An append that passes its checks and is published. -/
theorem Mounted.appendFileBlocks_ok {d : Disk} {sb : Superblock}
    {a mid : BlockAllocator} {inodes : List PersistedInode}
    {entries : List PersistedDirectoryEntry} {inode inode' : PersistedInode}
    {fresh displaced : List UInt64} {data : List Block}
    (h : Mounted d sb a inodes entries) (hmem : inode ∈ inodes)
    (hkind : inode.kind = .file) (hne : data ≠ [])
    (hloop : allocateEach a data.length = .ok (fresh, mid))
    (hedit : inode.replaceBlockRange inode.blocks.length inode.blocks.length
      fresh = .ok (displaced, inode'))
    (hpublish : ∃ report d', publishFileChanges "multi-block append" sb mid
      (setInode inodes inode') (fresh.zip data) d = (.ok report, d')) :
    ∃ r d', appendFileBlocksJournaled sb inode.id data d = (.ok r, d') := by
  obtain ⟨report, d', hrun⟩ := hpublish
  refine ⟨(fresh, report), d', ?_⟩
  rw [appendFileBlocksJournaled,
    Effect.lift_bind_of_ok (a := ()) (rejectIf_of_not hne), h.allocator_bind,
    h.inodes_bind, Effect.lift_bind_of_ok (a := inode)
      (okOr_eq_ok.mpr (findInode_of_mem h.nodup_ids hmem)),
    Effect.lift_bind_of_ok (a := ()) (rejectIf_of_not (not_ne_iff.mpr hkind)),
    Effect.lift_bind_of_ok hloop, Effect.lift_bind_of_ok hedit,
    Effect.bind_of_ok hrun]
  rfl

/-- A cut that passes its checks and whose tables can be stored, with what it
leaves. -/
theorem Mounted.truncateFileToBlocks_ok {d : Disk} {sb : Superblock}
    {a freed : BlockAllocator} {inodes : List PersistedInode}
    {entries : List PersistedDirectoryEntry} {inode inode' : PersistedInode}
    {targetBlocks : Nat} {displaced : List UInt64}
    (h : Mounted d sb a inodes entries) (hmem : inode ∈ inodes)
    (hkind : inode.kind = .file) (hlt : targetBlocks < inode.blocks.length)
    (hedit : inode.replaceBlockRange targetBlocks inode.blocks.length [] =
      .ok (displaced, inode'))
    (hfreed : a.freeAll (displaced.map UInt64.toNat) = .ok freed)
    (hstore : Storable sb d freed (setInode inodes inode') entries []) :
    ∃ r d', truncateFileToBlocksJournaled sb inode.id targetBlocks d =
      (.ok r, d') ∧ Spliced sb d d' a freed inodes entries inode inode'
        targetBlocks inode.blocks.length [] [] := by
  obtain ⟨report, d', hrun, hbecame⟩ : ∃ report d',
      storeCreateMetadataJournaled sb freed (setInode inodes inode') entries d =
        (.ok report, d') ∧ Became sb d d' freed
          ((setInode inodes inode').map PersistedInode.canonical) entries [] := by
    cases h.storeCreateMetadata freed (setInode inodes inode') entries with
    | rejected e _ hwhy => exact absurd hstore hwhy
    | done report d' hrun hbecame _ => exact ⟨report, d', hrun, hbecame⟩
  refine ⟨(displaced, report), d', ?_,
    h.spliced hmem hkind hedit (takes_nil a) hfreed rfl hbecame⟩
  rw [truncateFileToBlocksJournaled, h.allocator_bind, h.inodes_bind,
    h.entries_bind, Effect.lift_bind_of_ok (a := inode)
      (okOr_eq_ok.mpr (findInode_of_mem h.nodup_ids hmem)),
    Effect.lift_bind_of_ok (a := ()) (rejectIf_of_not (not_ne_iff.mpr hkind)),
    Effect.lift_bind_of_ok (a := ()) (rejectIf_of_not (Nat.lt_asymm hlt)),
    if_neg (Nat.ne_of_lt hlt), Effect.lift_bind_of_ok hedit,
    Effect.lift_bind_of_ok (liftAllocation_eq_ok.mpr hfreed),
    Effect.bind_of_ok hrun]
  rfl

/-- An edit that is small enough for the sample is published. -/
theorem AtRest.publishFileChanges_tree {d : Disk} {a a' : BlockAllocator}
    {inodes inodes' : List PersistedInode}
    {entries : List PersistedDirectoryEntry} {label : String}
    {data : List (UInt64 × Block)} {image : List UInt8}
    (h : AtRest d treeSuperblock a inodes entries)
    (htotal : a'.totalBlocks = treeSuperblock.totalBlocks)
    (hreserved : a'.reservedBlocks = treeSuperblock.reservedBlocks)
    (himage : inodeFormat.encodeImage treeSuperblock.inodeBlocks inodes' =
      .ok image)
    (hdata : ∀ w ∈ data, treeSuperblock.reservedBlocks ≤ w.1.toNat ∧
      w.1.toNat < treeSuperblock.totalBlocks)
    (hlen : data.length ≤ 3) (hwrites : EditWrites inodes inodes' data) :
    ∃ report d', FilesystemLab.publishFileChanges label treeSuperblock a' inodes'
      data d = (.ok report, d') := by
  obtain ⟨allocation, hallocation⟩ := exists_allocationImage htotal hreserved
  obtain ⟨ws, hws⟩ : ∃ ws, renderedWrites (fileTables label treeSuperblock a'
      inodes') = .ok ws := by
    simp only [fileTables, renderedWrites, allocationPair, inodePair,
      hallocation, himage, Except.ok_bind, Except.pure_eq_ok]
    exact ⟨_, rfl⟩
  apply h.publishFileChanges_ok hdata hwrites hws
  apply changesFit_tree
  have hdiffer : (differing d.blocks ws).length ≤ ws.length :=
    List.length_filter_le _ _
  have htwo : ws.length = 2 := length_renderedWrites hws
  have hsame : (dataWrites data).length = data.length := List.length_map _
  rw [List.length_append]
  omega

end FilesystemLab
