import FilesystemLab.FileWrite

/-!
# New inode tables with the same block references

The functions that move block references from file to file publish an inode
table and nothing else.  They do not allocate, free or copy a block.

`Reassigned` relates two such tables: the same inodes in the same order, whose
files have other blocks, and all blocks of the old table are in the new one or
among those that are given back.  It keeps a disk mounted, and a table that was
published can be replaced by the one before it (`AtRest.storable_symm`), since
the two transactions write the same blocks.
-/

namespace FilesystemLab

open WriteLog

/-! ## The operations -/

/-- The loops that look for a second reference to a block and for blocks that
are not owned; `seen` is the set that the loop fills. -/
def requireDistinctOwned (duplicate unowned : String) (a : BlockAllocator) :
    (seen blocks : List UInt64) → Result Unit
  | _, [] => pure ()
  | seen, block :: blocks => do
    rejectIf (block ∈ seen) (invalidData duplicate)
    let owned ← liftAllocation (a.isOwned block.toNat)
    rejectIf (owned = false) (invalidData unowned)
    requireDistinctOwned duplicate unowned a (block :: seen) blocks

/-- The store of an inode table that is published alone; `image` names it in
the messages. -/
def inodeTableStore (image : String) (sb : Superblock)
    (inodes : List PersistedInode) : ImageStore :=
  ⟨[(inodePair sb inodes
      (image ++ " did not render every inode metadata block")).1],
    image ++ " rendered outside inode region"⟩

/-- The changed blocks of an inode table, which `publish` writes. -/
def publishInodeTable {σ : Type} [BlockDevice σ] (image : String)
    (publish : List (Nat × Block) → DevM σ RecoveryReport) (sb : Superblock)
    (inodes : List PersistedInode) : DevM σ RecoveryReport := do
  let changes ← Effect.query
    (ImageStore.collect (inodeTableStore image sb inodes) sb)
  publish changes

/-! ## Blocks that differ -/

/-- The blocks of a table, in order. -/
def tableNames (ps : List (TableImage × Result (List UInt8))) : List Nat :=
  ps.flatMap fun p => List.range' p.1.start p.1.blocks

theorem map_fst_renderedWrites {ps : List (TableImage × Result (List UInt8))}
    {ws : List (Nat × Block)} (hws : renderedWrites ps = .ok ws) :
    ws.map Prod.fst = tableNames ps := by
  induction ps generalizing ws with
  | nil =>
    cases hws
    rfl
  | cons p ps ih =>
    obtain ⟨image, _, rest, hrest, rfl⟩ := renderedWrites_cons_eq_ok.mp hws
    rw [List.map_append, ih hrest, TableImage.map_fst_writes]
    rfl

/-- The three tables are in the same blocks whatever they hold. -/
theorem tableNames_createImages (sb : Superblock) (a : BlockAllocator)
    (inodes : List PersistedInode) (entries : List PersistedDirectoryEntry) :
    tableNames (createImages sb a inodes entries) =
      List.range' sb.allocationStart sb.allocationBlocks ++
        (List.range' sb.inodeStart sb.inodeBlocks ++
          List.range' sb.directoryStart sb.directoryBlocks) := by
  simp only [tableNames, createImages, allocationPair, inodePair, directoryPair,
    allocationTable, inodeTable, directoryTable, List.flatMap_cons,
    List.flatMap_nil, List.append_nil]

/-- What a disk would have to write to become one that holds the tables. -/
theorem length_differing_of_held {f g : Nat → Block} {ws : List (Nat × Block)}
    (hheld : differing f ws = []) :
    (differing g ws).length =
      ((ws.map Prod.fst).filter fun b => decide (g b ≠ f b)).length := by
  rw [differing_eq_nil] at hheld
  rw [List.filter_map, List.length_map, differing]
  congr 1
  apply List.filter_congr
  intro w hw
  show decide (g w.1 ≠ w.2) = decide (g w.1 ≠ f w.1)
  rw [hheld w hw]

/-- **Back and forth is the same work**: two disks that hold two lists of tables
in the same blocks differ from each other's tables alike. -/
theorem length_differing_symm {f g : Nat → Block} {ws vs : List (Nat × Block)}
    (hnames : ws.map Prod.fst = vs.map Prod.fst)
    (hws : differing f ws = []) (hvs : differing g vs = []) :
    (differing g ws).length = (differing f vs).length := by
  rw [length_differing_of_held hws, length_differing_of_held hvs, hnames]
  congr 1
  apply List.filter_congr
  intro b _
  exact decide_eq_decide.mpr ne_comm

section AtRest

variable {d d' : Disk} {sb : Superblock} {a a' : BlockAllocator}
  {inodes inodes' : List PersistedInode}
  {entries entries' : List PersistedDirectoryEntry}

/-- **The tables before a transaction can be stored after it.** -/
theorem AtRest.storable_symm (h : AtRest d sb a inodes entries)
    (h' : AtRest d' sb a' inodes' entries')
    (hstore : Storable sb d a' inodes' entries' []) :
    Storable sb d' a inodes entries [] := by
  obtain ⟨tables, htables, hheld⟩ := h.tables_held
  obtain ⟨tables', htables', hheld'⟩ := h'.tables_held
  rcases hstore with ⟨ws, hws, hfits⟩
  rw [htables', Except.ok.injEq] at hws
  subst hws
  refine ⟨tables, htables, ?_⟩
  have hnames : tables.map Prod.fst = tables'.map Prod.fst := by
    rw [map_fst_renderedWrites htables, map_fst_renderedWrites htables',
      tableNames_createImages, tableNames_createImages]
  have hsame := length_differing_symm hnames hheld hheld'
  rw [List.append_nil] at hfits ⊢
  unfold ChangesFit at hfits ⊢
  rw [hsame]
  exact hfits

/-! ## Publishing an inode table -/

theorem renderings_inodeTable (sb : Superblock) (inodes : List PersistedInode)
    (missing : String) : Renderings sb [inodePair sb inodes missing] := by
  refine ⟨?_, List.pairwise_singleton _ _⟩
  intro p hp
  rw [List.mem_singleton.mp hp]
  exact renders_inodeTable sb inodes missing

/-- On a disk at rest, storing another inode table is storing all three
tables. -/
theorem AtRest.inodeTables (h : AtRest d sb a inodes entries) {missing : String}
    {ws : List (Nat × Block)}
    (hws : renderedWrites [inodePair sb inodes' missing] = .ok ws) :
    ∃ tables, renderedWrites (createImages sb a inodes' entries) =
        .ok tables ∧ differing d.blocks tables = differing d.blocks ws := by
  obtain ⟨image, himage, hholds⟩ := (loadAllocator_iff h.size).mp h.allocator
  -- the messages do not matter for what is written
  have hws' : renderedWrites [inodePair sb inodes' ("" ++
      " image did not render every inode metadata block")] = .ok ws := hws
  obtain ⟨both, hboth, hsame⟩ := renderedWrites_held
    (p := allocationPair sb a
      ("" ++ " image did not render every allocation metadata block"))
    himage hholds hws'
  have hfile : renderedWrites (fileTables "" sb a inodes') = .ok both := hboth
  obtain ⟨tables, htables, hall⟩ := h.allTables hfile
  exact ⟨tables, htables, hall.trans hsame⟩

/-- An inode table that is stored with the other two has an image. -/
theorem renderedWrites_inodeTable {tables : List (Nat × Block)}
    (htables : renderedWrites (createImages sb a inodes entries) = .ok tables)
    (missing : String) :
    ∃ ws, renderedWrites [inodePair sb inodes missing] = .ok ws := by
  simp only [createImages, renderedWrites, inodePair, Except.bind_eq_ok]
    at htables
  obtain ⟨_, _, _, ⟨image, himage, _⟩, _⟩ := htables
  simp only [renderedWrites, inodePair, himage, Except.ok_bind,
    Except.pure_eq_ok]
  exact ⟨_, rfl⟩

/-- A publication that does what `publishTransaction` does with some changes. -/
def PublishesChanges (sb : Superblock)
    (publish : List (Nat × Block) → DevM Disk RecoveryReport) : Prop :=
  ∃ mismatch, ∀ changes, changes ≠ [] →
    publish changes = publishTransaction mismatch sb changes

theorem publishesChanges_transaction (sb : Superblock) (mismatch : String) :
    PublishesChanges sb (publishTransaction mismatch sb) :=
  ⟨mismatch, fun _ _ => rfl⟩

theorem publishesChanges_changes (sb : Superblock) (mismatch : String) :
    PublishesChanges sb
      (publishChanges recoverJournalAndCheckpoint mismatch sb) :=
  ⟨mismatch, fun _ hne => (publishTransaction_eq hne mismatch).symm⟩

/-- **A transaction of tables only**: it succeeds exactly if the tables can be
stored. -/
theorem AtRest.publishTables (h : AtRest d sb a inodes entries)
    {tables : List (Nat × Block)}
    (htables : renderedWrites (createImages sb a' inodes' entries') =
      .ok tables)
    (hne : differing d.blocks tables ≠ [])
    {publish : List (Nat × Block) → DevM Disk RecoveryReport}
    (hpublish : PublishesChanges sb publish) :
    (Effect.Atomic (publish (differing d.blocks tables)) d fun _ d' =>
      Became sb d d' a' (inodes'.map PersistedInode.canonical) entries' [] ∧
        Storable sb d a' inodes' entries' []) ∧
    (Storable sb d a' inodes' entries' [] → ∃ report d',
      publish (differing d.blocks tables) d = (.ok report, d')) := by
  rcases hpublish with ⟨mismatch, hsame⟩
  have happend : tables ++ [] = tables := List.append_nil tables
  have hnone : ∀ w ∈ ([] : List (Nat × Block)), sb.reservedBlocks ≤ w.1 ∧
      w.1 < sb.totalBlocks := by simp
  have hhome : ∀ w ∈ differing d.blocks tables, sb.homeTarget w.1 := by
    intro w hw
    rw [← happend] at hw
    exact homeTarget_of_request htables hnone hw
  have hlt : ∀ w ∈ differing d.blocks tables, w.1 < U64_LIMIT := by
    intro w hw
    have hlayout := sb.layout
    have := (sb.homeTarget_iff w.1).mp (hhome w hw)
    omega
  have hfits := storeAccepts_transactionEntries (d := d) hhome
  rw [hsame _ hne, publishTransaction_eq hne]
  rcases publishChanges_cases recovers_recoverJournalAndCheckpoint mismatch sb d
    hlt with ⟨hnil, _⟩ | ⟨_, hno, herr⟩ | ⟨hacc, hrun⟩
  · exact absurd hnil hne
  · refine ⟨.inl herr, ?_⟩
    intro hstore
    rcases hstore with ⟨tables', htables', hchanges⟩
    rw [htables, Except.ok.injEq] at htables'
    subst htables'
    rw [happend] at hchanges
    exact absurd (hfits.mpr ⟨h.size, h.vacant, hchanges⟩) hno
  · refine ⟨.inr ⟨_, _, hrun, ?_, tables, htables, ?_⟩, fun _ => ⟨_, _, hrun⟩⟩
    · apply h.became htables (by simp) (by simp)
      rw [happend]
      exact hacc.applied
    · rw [happend]
      exact (hfits.mp hacc.store).2.2

/-- **The publication of an inode table** that is not on the disk. -/
theorem AtRest.publishInodeTable (h : AtRest d sb a inodes entries)
    (hne : inodes'.map PersistedInode.canonical ≠ inodes) (image : String)
    {publish : List (Nat × Block) → DevM Disk RecoveryReport}
    (hpublish : PublishesChanges sb publish) :
    (Effect.Atomic (FilesystemLab.publishInodeTable image publish sb inodes') d
      fun _ d' => Became sb d d' a (inodes'.map PersistedInode.canonical)
        entries [] ∧ Storable sb d a inodes' entries []) ∧
    (Storable sb d a inodes' entries [] → ∃ report d',
      FilesystemLab.publishInodeTable image publish sb inodes' d =
        (.ok report, d')) := by
  obtain ⟨hcollect, hreject⟩ := ImageStore.collect_eq
    (renderings_inodeTable sb inodes'
      (image ++ " did not render every inode metadata block")) h.size
    (image ++ " rendered outside inode region")
  unfold FilesystemLab.publishInodeTable
  cases hws : renderedWrites [inodePair sb inodes'
      (image ++ " did not render every inode metadata block")] with
  | error e =>
    obtain ⟨e', he'⟩ := hreject e hws
    constructor
    · exact .inl ⟨e', by rw [Effect.query_bind]; exact he' ▸ rfl⟩
    · intro hstore
      rcases hstore with ⟨tables, htables, _⟩
      obtain ⟨_, hboth⟩ := renderedWrites_inodeTable htables
        (image ++ " did not render every inode metadata block")
      rw [hws] at hboth
      cases hboth
  | ok ws =>
    obtain ⟨tables, htables, hsame⟩ := h.inodeTables hws
    have hwrites : differing d.blocks tables ≠ [] := by
      have hedit : EditWrites inodes inodes' [] := .inr hne
      intro hnil
      apply hedit.ne_nil h htables
      rw [hnil]
      rfl
    have hrun : (Effect.query (ImageStore.collect
        (inodeTableStore image sb inodes') sb) >>= publish) d =
          publish (differing d.blocks tables) d := by
      rw [hsame]
      exact Effect.query_bind_of_ok (hcollect ws hws)
    unfold Effect.Atomic
    rw [hrun]
    exact h.publishTables htables hwrites hpublish

end AtRest

/-! ## Tables with the same references -/

/-- The inode may be stored, and its length is the exact one. -/
def PersistedInode.Valid (inode : PersistedInode) : Prop :=
  validateInodeFields inode.id inode.kind inode.blocks inode.byteLen true =
    .ok inode.byteLen

/-- All inodes of a table are valid. -/
def Valid (inodes : List PersistedInode) : Prop :=
  ∀ inode ∈ inodes, inode.Valid

/-- The same inodes, of which the files have other blocks and ends; the
references of the old table are those of the new one and the freed ones. -/
structure Reassigned (inodes inodes' : List PersistedInode)
    (freed : List UInt64) : Prop where
  headers : inodes'.map (fun inode => (inode.id, inode.kind)) =
    inodes.map fun inode => (inode.id, inode.kind)
  links : ∀ inode ∈ inodes', inode.kind = .file ∨ inode ∈ inodes
  references : (inodes'.flatMap PersistedInode.blocks ++ freed).Perm
    (inodes.flatMap PersistedInode.blocks)

section Reassigned

variable {d d' : Disk} {sb : Superblock} {a a' : BlockAllocator}
  {inodes inodes' : List PersistedInode} {entries : List PersistedDirectoryEntry}
  {freed : List UInt64}

theorem Valid.canonical (h : Valid inodes) :
    inodes.map PersistedInode.canonical = inodes := by
  have hsame : ∀ inode ∈ inodes, inode.canonical = id inode := by
    intro inode hmem
    exact PersistedInode.canonical_of_validate
      (validateInodeFields_canonical (h inode hmem) false)
  rw [List.map_congr_left hsame, List.map_id]

/-- The kinds of the inodes are their headers'. -/
theorem kindOf_congr (h : inodes'.map (fun inode => (inode.id, inode.kind)) =
      inodes.map fun inode => (inode.id, inode.kind)) (id : UInt64) :
    kindOf inodes' id = kindOf inodes id := by
  have hheader : ∀ inodes : List PersistedInode, kindOf inodes id =
      ((inodes.map fun inode => (inode.id, inode.kind)).reverse.find?
        fun header => header.1 = id).map Prod.snd := by
    intro inodes
    rw [← List.map_reverse, List.find?_map, Option.map_map]
    rfl
  rw [hheader, hheader, h]

namespace Reassigned

variable (h : Reassigned inodes inodes' freed)
include h

theorem ids : inodes'.map PersistedInode.id = inodes.map PersistedInode.id := by
  have hfst := congrArg (List.map Prod.fst) h.headers
  rw [List.map_map, List.map_map] at hfst
  exact hfst

/-- A consistent namespace stays consistent. -/
theorem tree (htree : Namespace inodes entries) :
    Namespace inodes' entries := by
  have hkinds := kindOf_congr h.headers
  refine ⟨?_, ?_, ?_, htree.acyclic, ?_⟩
  · intro entry hentry
    rw [hkinds]
    exact htree.parent entry hentry
  · intro entry hentry
    rw [hkinds]
    exact htree.target entry hentry
  · intro hne
    rw [hkinds]
    apply htree.root
    intro hnil
    apply hne
    rw [← List.map_eq_nil_iff (f := PersistedInode.id), h.ids, hnil]
    rfl
  · intro inode hmem
    have hid : inode.id ∈ inodes'.map PersistedInode.id :=
      List.mem_map_of_mem hmem
    rw [h.ids, List.mem_map] at hid
    obtain ⟨old, hold, heq⟩ := hid
    rw [← heq]
    exact htree.reachable old hold

/-- **The owned blocks are the references of the new table.** -/
theorem owned (howned : Owned sb a inodes)
    (hflag : ∀ b, a'.flag b =
      (decide (b ∉ freed.map UInt64.toNat) && a.flag b)) :
    Owned sb a' inodes' := by
  have hnodup : (inodes'.flatMap PersistedInode.blocks ++ freed).Nodup :=
    h.references.nodup_iff.mpr howned.nodup
  have hmem : ∀ block, (∃ inode ∈ inodes', block ∈ inode.blocks) ∨
      block ∈ freed ↔ ∃ inode ∈ inodes, block ∈ inode.blocks := by
    intro block
    rw [← List.mem_flatMap, ← List.mem_append, h.references.mem_iff,
      List.mem_flatMap]
  refine ⟨?_, hnodup.of_append_left, ?_⟩
  · intro inode hinode block hblock
    obtain ⟨old, hold, howns⟩ := (hmem block).mp (.inl ⟨inode, hinode, hblock⟩)
    have hkept : block ∉ freed := by
      intro hfreed
      exact List.disjoint_of_nodup_append hnodup
        (List.mem_flatMap.mpr ⟨inode, hinode, hblock⟩) hfreed
    rw [hflag, howned.data old hold block howns, Bool.and_true,
      decide_eq_true_eq,
      List.mem_map_of_injective fun _ _ => UInt64.toNat_inj.mp]
    exact hkept
  · intro b hset
    rw [hflag, Bool.and_eq_true, decide_eq_true_eq] at hset
    obtain ⟨old, hold, block, hblock, rfl⟩ := howned.owner b hset.2
    rcases (hmem block).mpr ⟨old, hold, hblock⟩ with ⟨inode, hinode, howns⟩ |
      hfreed
    · exact ⟨inode, hinode, block, howns, rfl⟩
    · exact absurd (List.mem_map_of_mem hfreed) hset.1

end Reassigned

/-- **A disk with a reassigned table is mounted.** -/
theorem Mounted.reassigned (h : Mounted d sb a inodes entries)
    (hnew : Reassigned inodes inodes' freed)
    (hflag : ∀ b, a'.flag b =
      (decide (b ∉ freed.map UInt64.toNat) && a.flag b))
    (hbecame : Became sb d d' a' inodes' entries []) :
    Mounted d' sb a' inodes' entries := by
  apply h.of_became hbecame (hnew.owned h.owned hflag) (hnew.tree h.tree)
  intro inode hmem
  rcases hnew.links inode hmem with hkind | hold
  · right
    exact if_pos (by rw [hkind]; decide)
  · exact .inl ⟨hold, fun _ _ => List.not_mem_nil⟩

end Reassigned

/-! ## Tables with one or two other inodes -/

section SetInode

variable {inodes : List PersistedInode} {x y left right left' right' : PersistedInode}
  {freed : List UInt64}

/-- An inode that is set twice. -/
theorem setInode_setInode (hnodup : (inodes.map PersistedInode.id).Nodup)
    (hid : x.id = y.id) : setInode (setInode inodes x) y = setInode inodes y := by
  rw [setInode_eq_map (by rw [map_id_setInode hnodup]; exact hnodup),
    setInode_eq_map hnodup, setInode_eq_map hnodup, List.map_map]
  apply List.map_congr_left
  intro other _
  show (if (if other.id = x.id then x else other).id = y.id then y else _) = _
  by_cases hsame : other.id = x.id
  · rw [if_pos hsame, if_pos hid, if_pos (hsame.trans hid)]
  · rw [if_neg hsame]

/-- Two inodes are set in any order. -/
theorem setInode_comm (hnodup : (inodes.map PersistedInode.id).Nodup)
    (hne : x.id ≠ y.id) :
    setInode (setInode inodes x) y = setInode (setInode inodes y) x := by
  have hids : ∀ z : PersistedInode,
      ((setInode inodes z).map PersistedInode.id).Nodup := by
    intro z
    rw [map_id_setInode hnodup]
    exact hnodup
  rw [setInode_eq_map (hids x), setInode_eq_map (hids y), setInode_eq_map hnodup,
    setInode_eq_map hnodup, List.map_map, List.map_map]
  apply List.map_congr_left
  intro other _
  show (if (if other.id = x.id then x else other).id = y.id then y else _) =
    if (if other.id = y.id then y else other).id = x.id then x else _
  by_cases hx : other.id = x.id
  · have hy : other.id ≠ y.id := fun hy => hne (hx.symm.trans hy)
    rw [if_pos hx, if_neg hne, if_neg hy, if_pos hx]
  · rw [if_neg hx]
    by_cases hy : other.id = y.id
    · rw [if_pos hy, if_neg (Ne.symm hne)]
    · rw [if_neg hy, if_neg hx]

/-- One inode is set back. -/
theorem setInode_undo (hnodup : (inodes.map PersistedInode.id).Nodup)
    (hmem : x ∈ inodes) (hid : y.id = x.id) :
    setInode (setInode inodes y) x = inodes := by
  rw [setInode_setInode hnodup hid, setInode_self hnodup hmem]

/-- Two inodes are set back. -/
theorem setInode_undo_two (hnodup : (inodes.map PersistedInode.id).Nodup)
    (hleft : left ∈ inodes) (hright : right ∈ inodes)
    (hne : left.id ≠ right.id) (hlid : left'.id = left.id)
    (hrid : right'.id = right.id) :
    setInode (setInode (setInode (setInode inodes left') right') left) right =
      inodes := by
  have hids : ((setInode inodes left').map PersistedInode.id).Nodup := by
    rw [map_id_setInode hnodup]
    exact hnodup
  rw [setInode_comm hids (by rw [hrid]; exact Ne.symm hne),
    setInode_setInode hnodup hlid, setInode_self hnodup hleft]
  exact setInode_undo hnodup hright hrid

/-- The references after one inode is exchanged. -/
theorem setInode_perm (hnodup : (inodes.map PersistedInode.id).Nodup)
    (hmem : x ∈ inodes) (hid : y.id = x.id) :
    ((setInode inodes y).flatMap PersistedInode.blocks ++ x.blocks).Perm
      (inodes.flatMap PersistedInode.blocks ++ y.blocks) := by
  induction inodes with
  | nil => cases hmem
  | cons head rest ih =>
    rw [List.map_cons, List.nodup_cons] at hnodup
    rw [setInode, List.findIdx_cons]
    by_cases hhead : head.id = y.id
    · have hsame : head = x := by
        rcases List.mem_cons.mp hmem with rfl | hrest
        · rfl
        · rw [hhead, hid] at hnodup
          exact absurd (List.mem_map_of_mem hrest) hnodup.1
      rw [decide_eq_true hhead, cond_true, List.set_cons_zero, hsame,
        List.flatMap_cons, List.flatMap_cons, List.perm_iff_count]
      intro b
      simp only [List.count_append]
      omega
    · have hrest : x ∈ rest := by
        rcases List.mem_cons.mp hmem with rfl | hrest
        · exact absurd hid.symm hhead
        · exact hrest
      have hperm := List.perm_iff_count.mp (ih hnodup.2 hrest)
      rw [decide_eq_false hhead, cond_false, List.set_cons_succ,
        List.flatMap_cons, List.flatMap_cons, List.perm_iff_count]
      intro b
      have hb := hperm b
      unfold setInode at hb
      simp only [List.count_append] at hb ⊢
      omega

/-- A file with other blocks. -/
theorem headers_setInode (hnodup : (inodes.map PersistedInode.id).Nodup)
    (hmem : x ∈ inodes) (hid : y.id = x.id) (hkind : y.kind = x.kind) :
    (setInode inodes y).map (fun inode => (inode.id, inode.kind)) =
      inodes.map fun inode => (inode.id, inode.kind) := by
  rw [setInode_eq_map hnodup, List.map_map]
  apply List.map_congr_left
  intro other hother
  show ((if other.id = y.id then y else other).id,
    (if other.id = y.id then y else other).kind) = (other.id, other.kind)
  split
  · rename_i hsame
    have heq := List.inj_on_of_nodup_map hnodup hother hmem (hsame.trans hid)
    rw [heq, hid, hkind]
  · rfl

/-- One file whose blocks are reordered. -/
theorem reassigned_setInode (hnodup : (inodes.map PersistedInode.id).Nodup)
    (hmem : x ∈ inodes) (hid : y.id = x.id) (hkind : x.kind = .file)
    (hkind' : y.kind = .file) (hperm : y.blocks.Perm x.blocks) :
    Reassigned inodes (setInode inodes y) [] := by
  refine ⟨headers_setInode hnodup hmem hid (hkind'.trans hkind.symm), ?_, ?_⟩
  · intro inode hinode
    rcases (mem_setInode hnodup hmem hid).mp hinode with rfl | ⟨hold, _⟩
    · exact .inl hkind'
    · exact .inr hold
  · have hset := setInode_perm hnodup hmem hid
    rw [List.append_nil, ← List.perm_append_right_iff x.blocks]
    exact hset.trans (hperm.append_left _)

/-- Two files that trade blocks, and may give some back. -/
theorem reassigned_setInode_two (hnodup : (inodes.map PersistedInode.id).Nodup)
    (hleft : left ∈ inodes) (hright : right ∈ inodes)
    (hne : left.id ≠ right.id) (hlid : left'.id = left.id)
    (hrid : right'.id = right.id) (hlkind : left.kind = .file)
    (hrkind : right.kind = .file) (hlkind' : left'.kind = .file)
    (hrkind' : right'.kind = .file)
    (hperm : (left'.blocks ++ right'.blocks ++ freed).Perm
      (left.blocks ++ right.blocks)) :
    Reassigned inodes (setInode (setInode inodes left') right') freed := by
  have hids : ((setInode inodes left').map PersistedInode.id).Nodup := by
    rw [map_id_setInode hnodup]
    exact hnodup
  have hmid : right ∈ setInode inodes left' :=
    (mem_setInode hnodup hleft hlid).mpr
      (.inr ⟨hright, by rw [hlid]; exact Ne.symm hne⟩)
  refine ⟨?_, ?_, ?_⟩
  · rw [headers_setInode hids hmid hrid (hrkind'.trans hrkind.symm),
      headers_setInode hnodup hleft hlid (hlkind'.trans hlkind.symm)]
  · intro inode hinode
    rcases (mem_setInode hids hmid hrid).mp hinode with rfl | ⟨hold, _⟩
    · exact .inl hrkind'
    · rcases (mem_setInode hnodup hleft hlid).mp hold with rfl | ⟨hold, _⟩
      · exact .inl hlkind'
      · exact .inr hold
  · have hfirst := List.perm_iff_count.mp (setInode_perm hnodup hleft hlid)
    have hsecond := List.perm_iff_count.mp (setInode_perm hids hmid hrid)
    have hboth := List.perm_iff_count.mp hperm
    rw [List.perm_iff_count]
    intro b
    have h1 := hfirst b
    have h2 := hsecond b
    have h3 := hboth b
    simp only [List.count_append] at h1 h2 h3 ⊢
    omega

end SetInode

/-! ## Calls that publish one inode table -/

/-- On the mounted disk `d`, the call publishes the inode table that `spec` asks
for: it fails and changes nothing, or such a table is on the disk; and a table
that it asks for and that can be stored is on the disk. -/
structure Rearranging {α : Type} (op : DevM Disk α) (d : Disk) (sb : Superblock)
    (a : BlockAllocator) (inodes : List PersistedInode)
    (entries : List PersistedDirectoryEntry)
    (spec : List PersistedInode → Prop) : Prop where
  atomic : Effect.Atomic op d fun _ d' => ∃ inodes', spec inodes' ∧
    Became sb d d' a inodes' entries [] ∧
      (inodes' = inodes ∨ Storable sb d a inodes' entries [])
  complete : ∀ inodes', spec inodes' →
    inodes' = inodes ∨ Storable sb d a inodes' entries [] →
      ∃ r d', op d = (.ok r, d') ∧ Became sb d d' a inodes' entries []

section Rearranging

variable {α β : Type} {d : Disk} {sb : Superblock} {a : BlockAllocator}
  {inodes inodes' : List PersistedInode} {entries : List PersistedDirectoryEntry}
  {spec : List PersistedInode → Prop}

/-- A check that the table needs, then the rest. -/
theorem Rearranging.check {x : Result α} {f : α → DevM Disk β}
    (hneeds : ∀ inodes', spec inodes' → ∃ v, x = .ok v)
    (hrest : ∀ v, x = .ok v →
      Rearranging (f v) d sb a inodes entries spec) :
    Rearranging (liftM x >>= f) d sb a inodes entries spec := by
  constructor
  · apply Effect.atomic_lift_bind
    intro v hv
    exact (hrest v hv).atomic
  · intro inodes' hspec hstore
    obtain ⟨v, hv⟩ := hneeds inodes' hspec
    obtain ⟨r, d', hrun, hbecame⟩ := (hrest v hv).complete inodes' hspec hstore
    exact ⟨r, d', (Effect.lift_bind_of_ok hv).trans hrun, hbecame⟩

/-- The loads of the allocator and the inode table, then the rest. -/
theorem AtRest.rearranging_loads (h : AtRest d sb a inodes entries)
    {f : BlockAllocator → List PersistedInode → DevM Disk β}
    (hrest : Rearranging (f a inodes) d sb a inodes entries spec) :
    Rearranging (do
      let allocator ← Effect.query (loadAllocator · sb)
      let inodes ← Effect.query (loadInodeTable · sb)
      f allocator inodes) d sb a inodes entries spec := by
  constructor
  · apply h.atomic_allocator
    apply h.atomic_inodes
    exact hrest.atomic
  · intro inodes' hspec hstore
    obtain ⟨r, d', hrun, hbecame⟩ := hrest.complete inodes' hspec hstore
    refine ⟨r, d', ?_, hbecame⟩
    rw [h.allocator_bind, h.inodes_bind]
    exact hrun

/-- Only the result is another one. -/
theorem Rearranging.map {op : DevM Disk α} {f : α → DevM Disk β} {g : α → β}
    (h : Rearranging op d sb a inodes entries spec)
    (hf : ∀ r d', f r d' = (.ok (g r), d')) :
    Rearranging (op >>= f) d sb a inodes entries spec := by
  constructor
  · apply h.atomic.bind
    intro r d' hpost
    exact ⟨g r, d', hf r d', hpost⟩
  · intro inodes' hspec hstore
    obtain ⟨r, d', hrun, hbecame⟩ := h.complete inodes' hspec hstore
    exact ⟨g r, d', (Effect.bind_of_ok hrun).trans (hf r d'), hbecame⟩

/-- A call that finds nothing to do. -/
theorem AtRest.rearranging_pure (h : AtRest d sb a inodes entries) (r : α)
    (hspec : ∀ other, spec other ↔ other = inodes) :
    Rearranging (pure r : DevM Disk α) d sb a inodes entries spec := by
  refine ⟨Effect.atomic_pure ⟨inodes, (hspec inodes).mpr rfl,
    h.became_refl, .inl rfl⟩,
    ?_⟩
  intro other hother _
  rw [(hspec other).mp hother]
  exact ⟨r, d, rfl, h.became_refl⟩

/-- The publication of the table. -/
theorem AtRest.rearranging_publish (h : AtRest d sb a inodes entries)
    (hvalid : Valid inodes') (hne : inodes' ≠ inodes)
    (hspec : ∀ other, spec other ↔ other = inodes') (image : String)
    {publish : List (Nat × Block) → DevM Disk RecoveryReport}
    (hpublish : PublishesChanges sb publish) :
    Rearranging (FilesystemLab.publishInodeTable image publish sb inodes') d sb
      a inodes entries spec := by
  have hcanonical := hvalid.canonical
  have hchanged : inodes'.map PersistedInode.canonical ≠ inodes := by
    rw [hcanonical]
    exact hne
  obtain ⟨hatomic, hstored⟩ := h.publishInodeTable hchanged image hpublish
  rw [hcanonical] at hatomic
  constructor
  · apply hatomic.mono
    intro _ d' hpost
    exact ⟨inodes', (hspec inodes').mpr rfl, hpost.1, .inr hpost.2⟩
  · intro other hother hstore
    rw [(hspec other).mp hother] at hstore ⊢
    rcases hstore with hsame | hstore
    · exact absurd hsame hne
    · obtain ⟨report, d', hrun⟩ := hstored hstore
      exact ⟨report, d', hrun, (hatomic.of_ok hrun).1⟩

end Rearranging

end FilesystemLab
