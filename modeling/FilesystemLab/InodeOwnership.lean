import FilesystemLab.AllocatorRun
import FilesystemLab.InodeTable
import FilesystemLab.Lib.OrderedMap
import FilesystemLab.Lib.ReverseIndex

/-!
# Inode ownership in memory

`InodeTable` of `src/inode.rs`: the inodes, each with the list of its blocks,
beside an index that gives the owner of a block.  The methods assign to the two
maps one after the other, and a third structure, the allocator, says which
blocks may be attached at all.

* `InodeTable.Sound`: the index is the inverse of the lists, and the blocks that
  are listed are allocated.  The lemmas behind it say what each call does to it.
* `validate_of_sound`: a sound table passes `validate`.
* `inode_ownership_runs`: what holds after any calls on a new table, interleaved
  with calls on one allocator.
-/

namespace FilesystemLab

open OrderedMap ReverseIndex

/-! ## The table of the source -/

/-- `Inode`. -/
structure Inode where
  id : Nat
  kind : InodeKind
  blocks : List Nat
  deriving DecidableEq

/-- `InodeError`. -/
inductive InodeError where
  | idExhausted
  | notFound (inode : Nat)
  | blockNotAllocated (block : Nat)
  | reservedBlock (block : Nat)
  | blockAlreadyOwned (block owner : Nat)
  | blockNotOwnedByInode (inode block : Nat)
  | inodeStillOwnsBlocks (inode : Nat)
  | allocation (error : AllocationError)
  deriving DecidableEq

/-- `InodeInvariantError`. -/
inductive InodeInvariantError where
  | blockOwnerMissingInode (block owner : Nat)
  | reverseOwnershipMismatch (block owner : Nat)
  | duplicateBlockReference (block firstOwner secondOwner : Nat)
  | reservedBlockReferenced (inode block : Nat)
  | unallocatedBlockReferenced (inode block : Nat)
  | allocation (error : AllocationError)
  deriving DecidableEq

/-- `InodeTable`. -/
structure InodeTable where
  nextId : Nat
  inodes : Std.ExtTreeMap Nat Inode
  blockOwners : Std.ExtTreeMap Nat Nat

/-- A method that takes `&mut self`. -/
abbrev InodeM (α : Type) := Effect InodeError InodeTable α

namespace InodeTable

/-- `InodeTable::new`. -/
def new : InodeTable := ⟨1, ∅, ∅⟩

/-- `InodeTable::create`. -/
def create (kind : InodeKind) : InodeM Nat := do
  let id ← Effect.query fun t => .ok t.nextId
  let nextId ← Effect.query fun t => okOr (checkedAdd t.nextId 1) .idExhausted
  Effect.modify fun t => { t with nextId }
  Effect.modify fun t => { t with inodes := t.inodes.insert id ⟨id, kind, []⟩ }
  pure id

/-- `get` and `get_mut`, with the error of their callers. -/
def getInode (t : InodeTable) (inode : Nat) : Except InodeError Inode :=
  okOr t.inodes[inode]? (.notFound inode)

/-- The checks of `attach_block`. -/
def checkAttach (t : InodeTable) (inode block : Nat)
    (allocator : BlockAllocator) : Except InodeError Unit := do
  rejectIf (t.inodes.contains inode = false) (.notFound inode)
  rejectIf (block < allocator.reservedBlocks) (.reservedBlock block)
  let owned ← (allocator.isOwned block).mapError .allocation
  rejectIf (owned = false) (.blockNotAllocated block)
  match t.blockOwners[block]? with
  | some owner => .error (.blockAlreadyOwned block owner)
  | none => pure ()

/-- `InodeTable::attach_block`. -/
def attachBlock (inode block : Nat) (allocator : BlockAllocator) :
    InodeM Unit := do
  Effect.query (checkAttach · inode block allocator)
  let node ← Effect.query (getInode · inode)
  Effect.modify fun t => { t with
    inodes := t.inodes.insert inode
      { node with blocks := node.blocks ++ [block] } }
  Effect.modify fun t => { t with
    blockOwners := t.blockOwners.insert block inode }

/-- `InodeTable::detach_block`. -/
def detachBlock (inode block : Nat) : InodeM Unit := do
  let node ← Effect.query (getInode · inode)
  let position ← okOr (node.blocks.idxOf? block)
    (InodeError.blockNotOwnedByInode inode block)
  Effect.modify fun t => { t with
    inodes := t.inodes.insert inode
      { node with blocks := node.blocks.eraseIdx position } }
  Effect.modify fun t => { t with blockOwners := t.blockOwners.erase block }

/-- `InodeTable::remove`. -/
def remove (inode : Nat) : InodeM Inode := do
  let node ← Effect.query (getInode · inode)
  rejectIf (node.blocks ≠ []) (InodeError.inodeStillOwnsBlocks inode)
  let removed ← Effect.query (getInode · inode)
  Effect.modify fun t => { t with inodes := t.inodes.erase inode }
  pure removed

/-- One block of the first loop of `validate`. -/
def observeBlock (t : InodeTable) (allocator : BlockAllocator) (inode : Nat)
    (observed : Std.ExtTreeMap Nat Nat) (block : Nat) :
    Except InodeInvariantError (Std.ExtTreeMap Nat Nat) := do
  rejectIf (block < allocator.reservedBlocks)
    (.reservedBlockReferenced inode block)
  match allocator.isOwned block with
  | .ok true => pure ()
  | .ok false => .error (.unallocatedBlockReferenced inode block)
  | .error error => .error (.allocation error)
  match observed[block]? with
  | some firstOwner =>
    .error (.duplicateBlockReference block firstOwner inode)
  | none => pure ()
  rejectIf (t.blockOwners[block]? ≠ some inode)
    (.reverseOwnershipMismatch block inode)
  pure (observed.insert block inode)

/-- One entry of the second loop of `validate`. -/
def checkOwner (t : InodeTable) (entry : Nat × Nat) :
    Except InodeInvariantError Unit := do
  let inode ← okOr t.inodes[entry.2]?
    (.blockOwnerMissingInode entry.1 entry.2)
  rejectIf (entry.1 ∉ inode.blocks) (.reverseOwnershipMismatch entry.1 entry.2)

/-- `InodeTable::validate`. -/
def validate (t : InodeTable) (allocator : BlockAllocator) :
    Except InodeInvariantError Unit := do
  let _ ← t.inodes.toList.foldlM (fun observed entry =>
    entry.2.blocks.foldlM (t.observeBlock allocator entry.1) observed) ∅
  t.blockOwners.toList.forM t.checkOwner

/-! ## What the calls do -/

section Calls

variable {t : InodeTable}

theorem create_atomic (kind : InodeKind) :
    Effect.Atomic (create kind) t fun id t' => id = t.nextId ∧
      t' = { t with
        nextId := t.nextId + 1
        inodes := t.inodes.insert t.nextId ⟨t.nextId, kind, []⟩ } := by
  refine Effect.atomic_query_bind fun id hid => ?_
  refine Effect.atomic_query_bind fun nextId hnext => ?_
  rw [Except.ok.injEq] at hid
  rw [okOr_eq_ok, checkedAdd_eq_some] at hnext
  obtain ⟨_, hnext⟩ := hnext
  subst hid hnext
  exact .inr ⟨_, _, rfl, rfl, rfl⟩

/-- A block that passes the checks of `attach_block` is allocated, and nobody
has it. -/
theorem checkAttach_eq_ok {inode block : Nat} {allocator : BlockAllocator}
    (h : t.checkAttach inode block allocator = .ok ()) :
    allocator.flag block = true ∧ t.blockOwners[block]? = none := by
  unfold checkAttach at h
  simp only [Except.bind_eq_ok, rejectIf_eq_ok] at h
  obtain ⟨_, _, _, hreserved, owned, hisOwned, _, howned, hfree⟩ := h
  constructor
  · unfold BlockAllocator.isOwned at hisOwned
    rw [if_neg hreserved, Bool.not_eq_false] at *
    cases hrange : allocator.ensureInRange block with
    | error e =>
      rw [hrange] at hisOwned
      cases hisOwned
    | ok u =>
      rw [hrange] at hisOwned
      cases hisOwned
      exact howned
  · cases howner : t.blockOwners[block]? with
    | none => rfl
    | some owner =>
      rw [howner] at hfree
      cases hfree

theorem attachBlock_atomic (inode block : Nat) (allocator : BlockAllocator) :
    Effect.Atomic (attachBlock inode block allocator) t fun _ t' =>
      ∃ node, t.inodes[inode]? = some node ∧
        allocator.flag block = true ∧ t.blockOwners[block]? = none ∧
        t' = { t with
          inodes := t.inodes.insert inode
            { node with blocks := node.blocks ++ [block] }
          blockOwners := t.blockOwners.insert block inode } := by
  refine Effect.atomic_query_bind fun u hcheck => ?_
  refine Effect.atomic_query_bind fun node hnode => ?_
  obtain ⟨hflag, hfree⟩ := checkAttach_eq_ok hcheck
  rw [getInode, okOr_eq_ok] at hnode
  exact .inr ⟨(), _, rfl, node, hnode, hflag, hfree, rfl⟩

theorem detachBlock_atomic (inode block : Nat) :
    Effect.Atomic (detachBlock inode block) t fun _ t' =>
      ∃ node, t.inodes[inode]? = some node ∧ block ∈ node.blocks ∧
        t' = { t with
          inodes := t.inodes.insert inode
            { node with blocks := node.blocks.erase block }
          blockOwners := t.blockOwners.erase block } := by
  refine Effect.atomic_query_bind fun node hnode => ?_
  refine Effect.atomic_lift_bind fun position hposition => ?_
  rw [getInode, okOr_eq_ok] at hnode
  rw [okOr_eq_ok] at hposition
  have herase : node.blocks.eraseIdx position = node.blocks.erase block := by
    rw [List.erase_eq_eraseIdx, hposition]
  have hmem : block ∈ node.blocks := by
    rw [← List.isSome_idxOf?, hposition]
    rfl
  rw [herase]
  exact .inr ⟨(), _, rfl, node, hnode, hmem, rfl⟩

theorem remove_atomic (inode : Nat) :
    Effect.Atomic (remove inode) t fun node t' =>
      t.inodes[inode]? = some node ∧ node.blocks = [] ∧
        t' = { t with inodes := t.inodes.erase inode } := by
  refine Effect.atomic_query_bind fun node hnode => ?_
  refine Effect.atomic_lift_bind fun u hempty => ?_
  refine Effect.atomic_query_bind fun removed hremoved => ?_
  have hsame : removed = node := by
    rw [hnode, Except.ok.injEq] at hremoved
    exact hremoved.symm
  rw [getInode, okOr_eq_ok] at hnode
  rw [rejectIf_eq_ok, not_not] at hempty
  subst hsame
  exact .inr ⟨removed, _, rfl, hnode, hempty, rfl⟩

end Calls

/-! ## Sound tables -/

/-- The lists of the inodes that are present. -/
def lists (t : InodeTable) (inode : Nat) : Option (List Nat) :=
  t.inodes[inode]?.map Inode.blocks

/-- What the calls keep: the index is the inverse of the lists, a block with an
owner is allocated, and the identifiers in use are smaller than the next one. -/
structure Sound (t : InodeTable) (allocator : BlockAllocator) : Prop where
  inverse : Inverse t.lists fun block => t.blockOwners[block]?
  allocated : ∀ block owner, t.blockOwners[block]? = some owner →
    allocator.flag block = true
  id_lt : ∀ inode node, t.inodes[inode]? = some node → inode < t.nextId

section Sound

variable {t : InodeTable} {allocator : BlockAllocator}

theorem lists_eq_some {inode : Nat} {blocks : List Nat} :
    t.lists inode = some blocks ↔
      ∃ node, t.inodes[inode]? = some node ∧ node.blocks = blocks :=
  Option.map_eq_some_iff

/-- The lists behind an assignment to an inode. -/
theorem lists_insert (inode : Nat) (node : Inode) {nextId : Nat}
    {blockOwners : Std.ExtTreeMap Nat Nat} :
    (⟨nextId, t.inodes.insert inode node, blockOwners⟩ : InodeTable).lists =
      Function.update t.lists inode (some node.blocks) := by
  have hcomp := Function.comp_update (fun x => Option.map Inode.blocks x)
    (fun a => t.inodes[a]?) inode (some node)
  rw [← getElem?_insert_eq] at hcomp
  exact hcomp

/-- The lists behind a removal. -/
theorem lists_erase (inode : Nat) {nextId : Nat}
    {blockOwners : Std.ExtTreeMap Nat Nat} :
    (⟨nextId, t.inodes.erase inode, blockOwners⟩ : InodeTable).lists =
      Function.update t.lists inode none := by
  have hcomp := Function.comp_update (fun x => Option.map Inode.blocks x)
    (fun a => t.inodes[a]?) inode none
  rw [← getElem?_erase_eq] at hcomp
  exact hcomp

/-- The identifiers behind an assignment to an inode that is present or next. -/
theorem id_lt_insert {nextId : Nat} (hnext : t.nextId ≤ nextId)
    (hid : ∀ inode node, t.inodes[inode]? = some node → inode < t.nextId)
    {k : Nat} (hk : k < nextId) (new : Inode) {inode : Nat} {node : Inode}
    (h : (t.inodes.insert k new)[inode]? = some node) : inode < nextId := by
  rw [getElem?_insert] at h
  split at h
  · omega
  · exact lt_of_lt_of_le (hid inode node h) hnext

theorem sound_new (allocator : BlockAllocator) : new.Sound allocator where
  inverse := Inverse.empty
  allocated := by
    intro block owner h
    cases h
  id_lt := by
    intro inode node h
    cases h

/-- The next identifier is not in use. -/
theorem Sound.lists_nextId (h : t.Sound allocator) : t.lists t.nextId = none := by
  rw [lists, Option.map_eq_none_iff]
  cases hnode : t.inodes[t.nextId]? with
  | none => rfl
  | some node => exact absurd (h.id_lt _ _ hnode) (lt_irrefl _)

theorem Sound.create (h : t.Sound allocator) (node : Inode)
    (hnode : node.blocks = []) :
    Sound { t with
      nextId := t.nextId + 1
      inodes := t.inodes.insert t.nextId node } allocator where
  inverse := by
    rw [lists_insert, hnode]
    exact h.inverse.create h.lists_nextId
  allocated := h.allocated
  id_lt := fun _ _ hfound =>
    id_lt_insert (Nat.le_succ _) h.id_lt (Nat.lt_succ_self _) node hfound

theorem Sound.attachBlock (h : t.Sound allocator) {inode block : Nat}
    {node : Inode} (hnode : t.inodes[inode]? = some node)
    (hflag : allocator.flag block = true)
    (hfree : t.blockOwners[block]? = none) :
    Sound { t with
      inodes := t.inodes.insert inode
        { node with blocks := node.blocks ++ [block] }
      blockOwners := t.blockOwners.insert block inode } allocator where
  inverse := by
    rw [lists_insert, getElem?_insert_eq]
    exact h.inverse.push (lists_eq_some.mpr ⟨node, hnode, rfl⟩) hfree
  allocated := by
    intro a owner hfound
    rw [getElem?_insert] at hfound
    split at hfound
    · rename_i heq
      rw [← heq]
      exact hflag
    · exact h.allocated a owner hfound
  id_lt := fun _ _ hfound =>
    id_lt_insert le_rfl h.id_lt (h.id_lt inode node hnode) _ hfound

theorem Sound.detachBlock (h : t.Sound allocator) {inode block : Nat}
    {node : Inode} (hnode : t.inodes[inode]? = some node)
    (hblock : block ∈ node.blocks) :
    Sound { t with
      inodes := t.inodes.insert inode
        { node with blocks := node.blocks.erase block }
      blockOwners := t.blockOwners.erase block } allocator where
  inverse := by
    rw [lists_insert, getElem?_erase_eq]
    exact h.inverse.erase (lists_eq_some.mpr ⟨node, hnode, rfl⟩) hblock
  allocated := by
    intro a owner hfound
    rw [getElem?_erase] at hfound
    split at hfound
    · cases hfound
    · exact h.allocated a owner hfound
  id_lt := fun _ _ hfound =>
    id_lt_insert le_rfl h.id_lt (h.id_lt inode node hnode) _ hfound

theorem Sound.remove (h : t.Sound allocator) {inode : Nat} {node : Inode}
    (hnode : t.inodes[inode]? = some node) (hempty : node.blocks = []) :
    Sound { t with inodes := t.inodes.erase inode } allocator where
  inverse := by
    rw [lists_erase]
    exact h.inverse.remove (lists_eq_some.mpr ⟨node, hnode, hempty⟩)
  allocated := h.allocated
  id_lt := by
    intro a found hfound
    rw [getElem?_erase] at hfound
    split at hfound
    · cases hfound
    · exact h.id_lt a found hfound

/-- Another allocator, in which no block that is listed has been freed. -/
theorem Sound.of_kept (h : t.Sound allocator) {allocator' : BlockAllocator}
    (hkept : ∀ block owner, t.blockOwners[block]? = some owner →
      allocator.flag block = true → allocator'.flag block = true) :
    t.Sound allocator' where
  inverse := h.inverse
  allocated := fun block owner hfound =>
    hkept block owner hfound (h.allocated block owner hfound)
  id_lt := h.id_lt

/-! ## Sound tables pass `validate` -/

/-- A block of an inode that has not been observed is observed. -/
theorem Sound.observeBlock_eq (h : t.Sound allocator) {inode block : Nat}
    (howner : t.blockOwners[block]? = some inode)
    {observed : Std.ExtTreeMap Nat Nat} (hnew : observed[block]? = none) :
    t.observeBlock allocator inode observed block =
      .ok (observed.insert block inode) := by
  have hflag := h.allocated block inode howner
  obtain ⟨hreserved, htotal⟩ := BlockAllocator.range_of_flag hflag
  unfold observeBlock
  rw [rejectIf_of_not (by omega), Except.ok_bind,
    BlockAllocator.isOwned_of_data hreserved htotal, hflag, hnew, howner]
  show (rejectIf (some inode ≠ some inode) _ >>= fun _ =>
    pure (observed.insert block inode)) = _
  rw [rejectIf_of_not (not_not.mpr rfl), Except.ok_bind, Except.pure_eq_ok]

/-- What the first loop of `validate` has observed belongs to inodes that are
not in `rest`. -/
def Observed (t : InodeTable) (rest : List (Nat × Inode))
    (observed : Std.ExtTreeMap Nat Nat) : Prop :=
  ∀ block owner : Nat, observed[block]? = some owner →
    t.blockOwners[block]? = some owner ∧ owner ∉ rest.map Prod.fst

/-- The blocks of one inode are observed.  Nothing of them was observed before,
because their owner was still to come, and no list has a block twice. -/
theorem Sound.observe_inode (h : t.Sound allocator) {inode : Nat} {node : Inode}
    {rest : List (Nat × Inode)} (hnode : t.inodes[inode]? = some node)
    (hlast : inode ∉ rest.map Prod.fst) {observed : Std.ExtTreeMap Nat Nat}
    (hobserved : t.Observed ((inode, node) :: rest) observed) :
    ∃ observed', node.blocks.foldlM (t.observeBlock allocator inode) observed =
      .ok observed' ∧ t.Observed rest observed' := by
  have hlist : t.lists inode = some node.blocks :=
    lists_eq_some.mpr ⟨node, hnode, rfl⟩
  have hfresh : ∀ block ∈ node.blocks, observed[block]? = none := by
    intro block hblock
    cases hfound : observed[block]? with
    | none => rfl
    | some owner =>
      obtain ⟨howner, hnot⟩ := hobserved block owner hfound
      have hinode := h.inverse.owner hlist hblock
      rw [howner, Option.some.injEq] at hinode
      exact absurd List.mem_cons_self (hinode ▸ hnot)
  obtain ⟨observed', hrun, _, _, _, hafter⟩ := Except.foldlM_of_rest
    (f := t.observeBlock allocator inode)
    (fun blocks seen => blocks.Nodup ∧ (∀ block ∈ blocks, block ∈ node.blocks) ∧
      (∀ block ∈ blocks, seen[block]? = none) ∧ t.Observed rest seen)
    (by
      intro block blocks seen hinv
      obtain ⟨hnodup, hmem, hnew, hseen⟩ := hinv
      rw [List.nodup_cons] at hnodup
      have howner := h.inverse.owner hlist (hmem block List.mem_cons_self)
      refine ⟨_, h.observeBlock_eq howner (hnew block List.mem_cons_self),
        hnodup.2, fun b hb => hmem b (List.mem_cons_of_mem _ hb), ?_, ?_⟩
      · intro b hb
        have hne : block ≠ b := by
          intro heq
          exact hnodup.1 (heq ▸ hb)
        rw [getElem?_insert, if_neg hne]
        exact hnew b (List.mem_cons_of_mem _ hb)
      · intro b owner hfound
        rw [getElem?_insert] at hfound
        split at hfound
        · rename_i heq
          rw [Option.some.injEq] at hfound
          rw [← heq, ← hfound]
          exact ⟨howner, hlast⟩
        · exact hseen b owner hfound)
    node.blocks observed
    ⟨h.inverse.nodup inode _ hlist, fun b hb => hb, hfresh, by
      intro b owner hfound
      obtain ⟨howner, hnot⟩ := hobserved b owner hfound
      rw [List.map_cons, List.mem_cons, not_or] at hnot
      exact ⟨howner, hnot.2⟩⟩
  exact ⟨observed', hrun, hafter⟩

/-- Every entry of the index of a sound table names an inode that lists the
block. -/
theorem Sound.checkOwner_eq_ok (h : t.Sound allocator) {entry : Nat × Nat}
    (hentry : t.blockOwners[entry.1]? = some entry.2) :
    t.checkOwner entry = .ok () := by
  obtain ⟨blocks, hlist, hmem⟩ := (h.inverse.owner_iff entry.1 entry.2).mp hentry
  obtain ⟨node, hnode, rfl⟩ := lists_eq_some.mp hlist
  rw [checkOwner, hnode, okOr_some, Except.ok_bind,
    rejectIf_of_not (not_not.mpr hmem)]

theorem validate_of_sound (h : t.Sound allocator) :
    t.validate allocator = .ok () := by
  have hkeys : (t.inodes.toList.map Prod.fst).Nodup := by
    rw [List.Nodup, List.pairwise_map]
    refine (Std.ExtTreeMap.distinct_keys_toList (t := t.inodes)).imp ?_
    intro a b hab heq
    exact hab (Std.compare_eq_iff_eq.mpr heq)
  obtain ⟨observed, hrun, _⟩ := Except.foldlM_of_rest
    (f := fun observed (entry : Nat × Inode) =>
      entry.2.blocks.foldlM (t.observeBlock allocator entry.1) observed)
    (fun rest seen => (∀ entry ∈ rest, t.inodes[entry.1]? = some entry.2) ∧
      (rest.map Prod.fst).Nodup ∧ t.Observed rest seen)
    (by
      intro entry rest seen hinv
      obtain ⟨hmem, hnodup, hseen⟩ := hinv
      rw [List.map_cons, List.nodup_cons] at hnodup
      obtain ⟨seen', hrun, hafter⟩ :=
        h.observe_inode (hmem entry List.mem_cons_self) hnodup.1 hseen
      exact ⟨seen', hrun, fun e he => hmem e (List.mem_cons_of_mem _ he),
        hnodup.2, hafter⟩)
    t.inodes.toList ∅
    ⟨fun entry he => Std.ExtTreeMap.mem_toList_iff_getElem?_eq_some.mp he,
      hkeys, by
        intro block owner hfound
        cases hfound⟩
  rw [validate, hrun, Except.ok_bind]
  apply Except.forM_of_forall
  intro entry he
  exact h.checkOwner_eq_ok
    (Std.ExtTreeMap.mem_toList_iff_getElem?_eq_some.mp he)

end Sound

end InodeTable

/-! ## Calls on a table and an allocator -/

/-- A table, and the allocator that its callers use. -/
structure OwnershipState where
  table : InodeTable
  allocator : BlockAllocator

/-- A call on either of them. -/
inductive OwnershipCall where
  | create (kind : InodeKind)
  | attachBlock (inode block : UInt64)
  | detachBlock (inode block : UInt64)
  | remove (inode : UInt64)
  | allocator (call : AllocatorCall)
  deriving DecidableEq

/-- What a call returns. -/
inductive OwnershipResult where
  | created (inode : Nat)
  | attached
  | detached
  | removed (node : Inode)
  | granted (blocks : List Nat)
  deriving DecidableEq

inductive OwnershipError where
  | inode (error : InodeError)
  | allocation (error : AllocationError)
  deriving DecidableEq

/-- A call that takes the state. -/
abbrev OwnershipM := Effect OwnershipError OwnershipState OwnershipResult

namespace OwnershipState

/-- The table is sound for the allocator. -/
def Sound (s : OwnershipState) : Prop := s.table.Sound s.allocator

/-- A method of the table. -/
def onTable {α : Type} (x : InodeM α) (wrap : α → OwnershipResult) :
    OwnershipM := fun s =>
  let r := x s.table
  ((r.1.mapError .inode).map wrap, { s with table := r.2 })

/-- A method of the allocator. -/
def onAllocator (call : AllocatorCall) : OwnershipM := fun s =>
  match call.runPure s.allocator with
  | .ok (granted, allocator) => (.ok (.granted granted), { s with allocator })
  | .error e => (.error (.allocation e), s)

theorem onTable_atomic {α : Type} {x : InodeM α} {wrap : α → OwnershipResult}
    {s : OwnershipState} {post : α → InodeTable → Prop}
    (h : Effect.Atomic x s.table post) :
    Effect.Atomic (onTable x wrap) s fun r s' =>
      ∃ a table, r = wrap a ∧ s' = { s with table } ∧ post a table := by
  rcases h with ⟨e, he⟩ | ⟨a, table, hok, hpost⟩
  · refine .inl ⟨.inode e, ?_⟩
    simp only [onTable, he]
    rfl
  · refine .inr ⟨wrap a, { s with table }, ?_, a, table, rfl, rfl, hpost⟩
    simp only [onTable, hok]
    rfl

end OwnershipState

namespace OwnershipCall

open OwnershipState

/-- The call. -/
def run : OwnershipCall → OwnershipM
  | .create kind => onTable (InodeTable.create kind) .created
  | .attachBlock inode block => fun s =>
    onTable (InodeTable.attachBlock inode.toNat block.toNat s.allocator)
      (fun _ => .attached) s
  | .detachBlock inode block =>
    onTable (InodeTable.detachBlock inode.toNat block.toNat) fun _ => .detached
  | .remove inode => onTable (InodeTable.remove inode.toNat) .removed
  | .allocator call => onAllocator call

/-- The caller frees only blocks that no inode lists. -/
def Allowed (s : OwnershipState) : OwnershipCall → Prop
  | .allocator (.free block) => ∀ (inode : Nat) (node : Inode),
    s.table.inodes[inode]? = some node → block.toNat ∉ node.blocks
  | _ => True

/-- What a call that succeeds does to the state. -/
structure Step (s : OwnershipState) (call : OwnershipCall)
    (result : OwnershipResult) (s' : OwnershipState) : Prop where
  sound : s.Sound → call.Allowed s → s'.Sound
  nextId_le : s.table.nextId ≤ s'.table.nextId
  created : ∀ inode, result = .created inode →
    inode = s.table.nextId ∧ inode < s'.table.nextId

variable {s : OwnershipState}

/-- The blocks that are listed stay allocated. -/
theorem sound_allocator {call : AllocatorCall} {granted : List Nat}
    {allocator : BlockAllocator} (hsound : s.Sound)
    (hallowed : (OwnershipCall.allocator call).Allowed s)
    (hpure : call.runPure s.allocator = .ok (granted, allocator)) :
    ({ s with allocator } : OwnershipState).Sound := by
  refine InodeTable.Sound.of_kept hsound ?_
  intro block owner howner hflag
  refine AllocatorCall.runPure_kept hpure hflag ?_
  intro b hcall hb
  obtain ⟨blocks, hlist, hmem⟩ :=
    (hsound.inverse.owner_iff block owner).mp howner
  obtain ⟨node, hnode, rfl⟩ := InodeTable.lists_eq_some.mp hlist
  rw [hcall] at hallowed
  exact hallowed owner node hnode (hb ▸ hmem)

/-- A call fails and leaves everything as it was, or it makes a step. -/
theorem run_atomic (call : OwnershipCall) :
    Effect.Atomic call.run s (call.Step s) := by
  cases call with
  | create kind =>
    refine (onTable_atomic (InodeTable.create_atomic kind)).mono ?_
    intro r s' hpost
    obtain ⟨id, table, rfl, rfl, rfl, rfl⟩ := hpost
    refine ⟨fun hsound _ => hsound.create _ rfl, Nat.le_succ _, ?_⟩
    intro inode hinode
    cases hinode
    exact ⟨rfl, Nat.lt_succ_self _⟩
  | attachBlock inode block =>
    refine (onTable_atomic (InodeTable.attachBlock_atomic inode.toNat
      block.toNat s.allocator)).mono ?_
    intro r s' hpost
    obtain ⟨_, table, rfl, rfl, node, hnode, hflag, hfree, rfl⟩ := hpost
    refine ⟨fun hsound _ => hsound.attachBlock hnode hflag hfree, le_rfl, ?_⟩
    intro inode hinode
    cases hinode
  | detachBlock inode block =>
    refine (onTable_atomic (InodeTable.detachBlock_atomic inode.toNat
      block.toNat)).mono ?_
    intro r s' hpost
    obtain ⟨_, table, rfl, rfl, node, hnode, hmem, rfl⟩ := hpost
    refine ⟨fun hsound _ => hsound.detachBlock hnode hmem, le_rfl, ?_⟩
    intro inode hinode
    cases hinode
  | remove inode =>
    refine (onTable_atomic (InodeTable.remove_atomic inode.toNat)).mono ?_
    intro r s' hpost
    obtain ⟨node, table, rfl, rfl, hnode, hempty, rfl⟩ := hpost
    refine ⟨fun hsound _ => hsound.remove hnode hempty, le_rfl, ?_⟩
    intro inode hinode
    cases hinode
  | allocator call =>
    show Effect.Atomic (onAllocator call) s _
    unfold Effect.Atomic onAllocator
    cases hpure : call.runPure s.allocator with
    | error e => exact .inl ⟨_, rfl⟩
    | ok r =>
      refine .inr ⟨_, _, rfl, ?_, le_rfl, ?_⟩
      · intro hsound hallowed
        exact sound_allocator hsound hallowed hpure
      · intro inode hinode
        cases hinode

end OwnershipCall

/-! ## Runs -/

/-- A call and how it ended. -/
structure OwnershipEvent where
  call : OwnershipCall
  result : Except OwnershipError OwnershipResult

/-- The identifier that a call has assigned. -/
def OwnershipEvent.createdId (e : OwnershipEvent) : Option Nat :=
  match e.result with
  | .ok (.created inode) => some inode
  | _ => none

/-- Calls that their caller may make, one after the other. -/
inductive OwnershipRun (start : OwnershipState) :
    List OwnershipEvent → OwnershipState → Prop
  | start : OwnershipRun start [] start
  | call {events : List OwnershipEvent} {s : OwnershipState}
      (run : OwnershipRun start events s) (call : OwnershipCall)
      (allowed : call.Allowed s) :
      OwnershipRun start (events ++ [⟨call, (call.run s).1⟩]) (call.run s).2

/-- What holds after a run. -/
structure OwnershipSound (events : List OwnershipEvent) (s : OwnershipState) :
    Prop where
  validate_eq : s.table.validate s.allocator = .ok ()
  owner_iff : ∀ block inode : Nat, s.table.blockOwners[block]? = some inode ↔
    ∃ node, s.table.inodes[inode]? = some node ∧ block ∈ node.blocks
  listed_once : ∀ (inode : Nat) (node : Inode), s.table.inodes[inode]? = some node →
    node.blocks.Nodup
  inode_unique : ∀ (i j : Nat) (nodeI nodeJ : Inode),
    s.table.inodes[i]? = some nodeI → s.table.inodes[j]? = some nodeJ →
    ∀ block ∈ nodeI.blocks, block ∈ nodeJ.blocks → i = j
  ids_increase : (events.filterMap OwnershipEvent.createdId).Pairwise (· < ·)
  failed_unchanged : ∀ (call : OwnershipCall) (e : OwnershipError),
    (call.run s).1 = .error e → (call.run s).2 = s

/-- The invariant of a run: the table is sound, and the identifiers that were
assigned increase up to the next one. -/
theorem OwnershipRun.sound {start s : OwnershipState}
    {events : List OwnershipEvent} (h : OwnershipRun start events s)
    (hstart : start.Sound) :
    s.Sound ∧ (events.filterMap OwnershipEvent.createdId).Pairwise (· < ·) ∧
      ∀ id ∈ events.filterMap OwnershipEvent.createdId, id < s.table.nextId := by
  induction h with
  | start =>
    refine ⟨hstart, List.Pairwise.nil, ?_⟩
    intro id hid
    cases hid
  | @call events s run call allowed ih =>
    obtain ⟨hsound, hpairwise, hlt⟩ := ih
    rw [List.filterMap_append]
    rcases OwnershipCall.run_atomic (s := s) call with
      ⟨e, he⟩ | ⟨result, s', hok, hstep⟩
    · rw [he]
      simp only [List.filterMap_cons, OwnershipEvent.createdId,
        List.filterMap_nil, List.append_nil]
      exact ⟨hsound, hpairwise, hlt⟩
    · rw [hok]
      refine ⟨hstep.sound hsound allowed, ?_⟩
      cases result with
      | created inode =>
        obtain ⟨rfl, hnext⟩ := hstep.created inode rfl
        show (_ ++ [s.table.nextId]).Pairwise _ ∧
          ∀ id ∈ _ ++ [s.table.nextId], _
        constructor
        · rw [List.pairwise_append]
          refine ⟨hpairwise, List.pairwise_singleton _ _, ?_⟩
          intro id hid new hnew
          rw [List.mem_singleton.mp hnew]
          exact hlt id hid
        · intro id hid
          rw [List.mem_append, List.mem_singleton] at hid
          rcases hid with hid | rfl
          · exact lt_of_lt_of_le (hlt id hid) hstep.nextId_le
          · exact hnext
      | _ =>
        simp only [List.filterMap_cons, OwnershipEvent.createdId,
          List.filterMap_nil, List.append_nil]
        exact ⟨hpairwise,
          fun id hid => lt_of_lt_of_le (hlt id hid) hstep.nextId_le⟩

/-- After any calls on a new table, interleaved with calls on one allocator, the
index is the inverse of the lists and the table passes `validate`. -/
theorem inode_ownership_runs {allocator : BlockAllocator}
    {events : List OwnershipEvent} {s : OwnershipState}
    (hrun : OwnershipRun ⟨InodeTable.new, allocator⟩ events s) :
    OwnershipSound events s := by
  obtain ⟨hsound, hpairwise, _⟩ := hrun.sound (InodeTable.sound_new allocator)
  have hlist : ∀ (inode : Nat) (node : Inode),
      s.table.inodes[inode]? = some node →
      s.table.lists inode = some node.blocks := by
    intro inode node hnode
    exact InodeTable.lists_eq_some.mpr ⟨node, hnode, rfl⟩
  constructor
  · exact InodeTable.validate_of_sound hsound
  · intro block inode
    rw [hsound.inverse.owner_iff block inode]
    constructor
    · intro hlisted
      obtain ⟨blocks, hblocks, hmem⟩ := hlisted
      obtain ⟨node, hnode, rfl⟩ := InodeTable.lists_eq_some.mp hblocks
      exact ⟨node, hnode, hmem⟩
    · intro hlisted
      obtain ⟨node, hnode, hmem⟩ := hlisted
      exact ⟨node.blocks, hlist inode node hnode, hmem⟩
  · intro inode node hnode
    exact hsound.inverse.nodup inode _ (hlist inode node hnode)
  · intro i j nodeI nodeJ hi hj block hblock hblock'
    exact hsound.inverse.key_unique (hlist i nodeI hi) hblock (hlist j nodeJ hj)
      hblock'
  · exact hpairwise
  · intro call e he
    exact (OwnershipCall.run_atomic call).of_error he

/-- An inode gets a block, cannot be removed before it has lost it, and the
block can be freed then. -/
theorem inode_ownership_runs_sample :
    ∃ allocator events s, BlockAllocator.new 5 2 = .ok allocator ∧
      OwnershipRun ⟨InodeTable.new, allocator⟩ events s ∧
      events.map OwnershipEvent.result = [
        .ok (.created 1), .ok (.granted [2]), .ok .attached,
        .error (.inode (.inodeStillOwnsBlocks 1)), .ok .detached,
        .ok (.granted []), .ok (.removed ⟨1, .file, []⟩), .ok (.created 2)] ∧
      OwnershipSound events s := by
  have hsample : ∃ allocator events s, BlockAllocator.new 5 2 = .ok allocator ∧
      OwnershipRun ⟨InodeTable.new, allocator⟩ events s ∧
      events.map OwnershipEvent.result = [
        .ok (.created 1), .ok (.granted [2]), .ok .attached,
        .error (.inode (.inodeStillOwnsBlocks 1)), .ok .detached,
        .ok (.granted []), .ok (.removed ⟨1, .file, []⟩),
        .ok (.created 2)] := by
    refine ⟨_, _, _, rfl, (((((((OwnershipRun.start.call
      (.create .file) trivial).call
      (.allocator .allocate) trivial).call
      (.attachBlock 1 2) trivial).call
      (.remove 1) trivial).call
      (.detachBlock 1 2) trivial).call
      (.allocator (.free 2)) ?_).call
      (.remove 1) trivial).call
      (.create .symlink) trivial, rfl⟩
    intro inode node hnode
    change ((∅ : Std.ExtTreeMap Nat Inode).insert 1 ⟨1, .file, []⟩)[inode]? =
      some node at hnode
    rw [getElem?_insert] at hnode
    split at hnode
    · cases hnode
      exact List.not_mem_nil
    · cases hnode
  obtain ⟨allocator, events, s, hnew, hrun, hresults⟩ := hsample
  exact ⟨allocator, events, s, hnew, hrun, hresults,
    inode_ownership_runs hrun⟩

end FilesystemLab
