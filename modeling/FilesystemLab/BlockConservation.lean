import FilesystemLab.BlockMoveRun

/-!
# What exchanges and transfers conserve

`blockMove_conserves`: exchanges and transfers move references and copy no data,
so every block keeps its contents and the owned blocks stay the same.  An
exchange asks for the old table again when it is called a second time
(`BlockMove.Asks.undo`), and the transfer of a whole file frees exactly the
blocks that it replaces.
-/

namespace FilesystemLab

open WriteLog Splice

/-! ## Conservation and inverses -/

section Inverses

variable {d : Disk} {sb : Superblock} {a : BlockAllocator}
  {inodes inodes' : List PersistedInode} {entries : List PersistedDirectoryEntry}

/-- **Every rearrangement keeps all references.** -/
theorem BlockMove.Rearranges.reassigned {m : BlockMove}
    (hm : m.Rearranges inodes inodes') (h : AtRest d sb a inodes entries) :
    Reassigned inodes inodes' [] := by
  have hids := h.nodup_ids
  cases m with
  | exchange leftInode i rightInode k count =>
    rcases hm with ⟨left, right, hpair, _, _, _, rfl⟩
    apply hpair.reassigned hids (by rfl) (by rfl) (by exact hpair.left_kind)
      (by exact hpair.right_kind)
    rw [List.append_nil]
    exact exchange_perm _ _ (Nat.le_add_right i count) (Nat.le_add_right k count)
  | exchangeVariable first second =>
    rcases hm with ⟨left, right, hpair, _, _, _, _, rfl⟩
    apply hpair.reassigned hids (by rfl) (by rfl) (by exact hpair.left_kind)
      (by exact hpair.right_kind)
    rw [List.append_nil]
    exact exchange_perm _ _ (Nat.le_add_right _ _) (Nat.le_add_right _ _)
  | exchangeSame first second =>
    rcases hm with ⟨inode, hmem, _, _, hkind, _, _, earlier, later, _, horder, _,
      rfl⟩
    exact reassigned_setInode hids hmem (by rfl) hkind (by exact hkind)
      (swapSegments_perm (Nat.le_add_right _ _) horder (Nat.le_add_right _ _))
  | exchangeComplete leftInode rightInode =>
    rcases hm with ⟨left, right, hpair, rfl⟩
    apply hpair.reassigned hids (by rfl) (by rfl) (by exact hpair.left_kind)
      (by exact hpair.right_kind)
    rw [List.append_nil]
    exact List.perm_append_comm
  | transfer sourceInode i count destinationInode k =>
    rcases hm with ⟨source, destination, hpair, _, _, _, rfl⟩
    apply hpair.reassigned hids (by rfl) (by rfl) (by exact hpair.left_kind)
      (by exact hpair.right_kind)
    rw [List.append_nil]
    exact transfer_perm _ _ (Nat.le_add_right i count) k
  | move id i count k =>
    rcases hm with ⟨inode, hmem, _, hkind, _, _, _, _, rfl⟩
    exact reassigned_setInode hids hmem (by rfl) hkind (by exact hkind)
      (move_perm _ (Nat.le_add_right i count) k)

/-- An exchange of equal ranges is its own inverse. -/
theorem FilePair.exchange_undo {leftInode rightInode : UInt64}
    {left right : PersistedInode} {i k count : Nat}
    (hpair : FilePair inodes leftInode rightInode left right)
    (hids : (inodes.map PersistedInode.id).Nodup) (hcount : count ≠ 0)
    (hi : i + count ≤ left.blocks.length)
    (hk : k + count ≤ right.blocks.length) :
    (BlockMove.exchange leftInode i rightInode k count).Rearranges
      (setPair inodes
        { left with blocks := splice left.blocks i (i + count)
                      (segment right.blocks k (k + count)) }
        { right with blocks := splice right.blocks k (k + count)
                      (segment left.blocks i (i + count)) }) inodes := by
  have hleft := exchange_exchange left.blocks right.blocks
    (Nat.le_add_right i count) hi (Nat.le_add_right k count) hk
  have hright := exchange_exchange right.blocks left.blocks
    (Nat.le_add_right k count) hk (Nat.le_add_right i count) hi
  have hlen := length_splice (Nat.le_add_right i count) hi
    (segment right.blocks k (k + count))
  have hlen' := length_splice (Nat.le_add_right k count) hk
    (segment left.blocks i (i + count))
  rw [length_segment hk] at hlen
  rw [length_segment hi] at hlen'
  rw [Nat.add_sub_cancel_left, Nat.add_sub_cancel_left] at hleft hright
  refine ⟨_, _, hpair.next hids (by rfl) (by rfl) hpair.left_kind
    hpair.right_kind, hcount, ?_, ?_, ?_⟩
  · show i + count ≤ (splice left.blocks _ _ _).length
    omega
  · show k + count ≤ (splice right.blocks _ _ _).length
    omega
  · simp only [hleft, hright]
    exact (hpair.undo hids (by rfl) (by rfl)).symm

/-- An exchange of two ranges is undone by the one with the lengths swapped. -/
theorem FilePair.exchangeVariable_undo {first second : FileBlockExchangeRange}
    {left right : PersistedInode}
    (hpair : FilePair inodes first.inode second.inode left right)
    (h : Mounted d sb a inodes entries) (hfirst : first.blockCount ≠ 0)
    (hsecond : second.blockCount ≠ 0) (hi : first.stop ≤ left.blocks.length)
    (hk : second.stop ≤ right.blocks.length)
    (hvalid : (left.withBlocks (splice left.blocks first.start first.stop
      (segment right.blocks second.start second.stop))).Valid)
    (hvalid' : (right.withBlocks (splice right.blocks second.start second.stop
      (segment left.blocks first.start first.stop))).Valid) :
    (BlockMove.exchangeVariable { first with blockCount := second.blockCount }
      { second with blockCount := first.blockCount }).Rearranges
      (setPair inodes
        (left.withBlocks (splice left.blocks first.start first.stop
          (segment right.blocks second.start second.stop)))
        (right.withBlocks (splice right.blocks second.start second.stop
          (segment left.blocks first.start first.stop)))) inodes := by
  have hids := h.nodup_ids
  have hstart : first.start ≤ first.stop := Nat.le_add_right _ _
  have hstart' : second.start ≤ second.stop := Nat.le_add_right _ _
  have hcount : first.stop - first.start = first.blockCount :=
    Nat.add_sub_cancel_left _ _
  have hcount' : second.stop - second.start = second.blockCount :=
    Nat.add_sub_cancel_left _ _
  have hleft := exchange_exchange left.blocks right.blocks hstart hi hstart' hk
  have hright := exchange_exchange right.blocks left.blocks hstart' hk hstart hi
  rw [hcount, hcount'] at hleft hright
  have hlen := length_splice hstart hi
    (segment right.blocks second.start second.stop)
  have hlen' := length_splice hstart' hk
    (segment left.blocks first.start first.stop)
  rw [length_segment hk] at hlen
  rw [length_segment hi] at hlen'
  -- neither list is ever empty
  have hmid := PersistedInode.Valid.withBlocks_withBlocks
    (h.validTable left hpair.left_mem) hpair.left_kind hvalid
    (List.ne_nil_of_length_pos (by omega)) (List.ne_nil_of_length_pos (by omega))
  have hmid' := PersistedInode.Valid.withBlocks_withBlocks
    (h.validTable right hpair.right_mem) hpair.right_kind hvalid'
    (List.ne_nil_of_length_pos (by omega)) (List.ne_nil_of_length_pos (by omega))
  refine ⟨_, _, hpair.next hids (by rfl) (by rfl) hpair.left_kind
    hpair.right_kind, hsecond, hfirst, ?_, ?_, ?_⟩
  · show first.start + second.blockCount ≤ (splice left.blocks _ _ _).length
    omega
  · show second.start + first.blockCount ≤ (splice right.blocks _ _ _).length
    omega
  · show inodes = setPair _ (PersistedInode.withBlocks _ (splice
        (splice left.blocks _ _ _) first.start
          (first.start + second.blockCount) (segment (splice right.blocks _ _ _)
            second.start (second.start + first.blockCount))))
      (PersistedInode.withBlocks _ (splice (splice right.blocks _ _ _)
        second.start (second.start + first.blockCount) (segment
          (splice left.blocks _ _ _) first.start
            (first.start + second.blockCount))))
    rw [hleft, hright, hmid, hmid']
    exact (hpair.undo hids (by rfl) (by rfl)).symm

/-- The blocks of an exchange inside a file change their places back. -/
theorem swap_undo {inode : PersistedInode}
    {earlier later : FileBlockExchangeRange}
    (hids : (inodes.map PersistedInode.id).Nodup) (hmem : inode ∈ inodes)
    (horder : earlier.stop ≤ later.start)
    (hinside : later.stop ≤ inode.blocks.length) {inode' : PersistedInode}
    (hinode' : inode' =
      { inode with blocks := swapSegments inode.blocks earlier.start
                    earlier.stop later.start later.stop }) :
    inodes = setInode (setInode inodes inode')
      { inode' with blocks := swapSegments inode'.blocks earlier.start
                      (earlier.start + later.blockCount)
                      (later.stop - earlier.blockCount)
                      (later.stop - earlier.blockCount +
                        earlier.blockCount) } := by
  subst hinode'
  have hback : swapSegments (swapSegments inode.blocks earlier.start
      (earlier.start + earlier.blockCount) later.start
      (later.start + later.blockCount)) earlier.start
      (earlier.start + (later.start + later.blockCount - later.start))
      (later.start + later.blockCount -
        (earlier.start + earlier.blockCount - earlier.start))
      (later.start + later.blockCount) = inode.blocks :=
    swapSegments_swapSegments (Nat.le_add_right _ _) horder
      (Nat.le_add_right _ _) hinside
  rw [Nat.add_sub_cancel_left, Nat.add_sub_cancel_left] at hback
  unfold FileBlockExchangeRange.stop at horder ⊢
  rw [Nat.sub_add_cancel (by omega)]
  simp only [hback]
  exact (setInode_undo hids hmem (by rfl)).symm

/-- An exchange inside a file is undone by the one at the new positions. -/
theorem exchangeSame_undo {inode : PersistedInode}
    {first second earlier later : FileBlockExchangeRange} {m' : BlockMove}
    (hids : (inodes.map PersistedInode.id).Nodup) (hmem : inode ∈ inodes)
    (hid : inode.id = first.inode) (hid' : inode.id = second.inode)
    (hkind : inode.kind = .file) (hfirst : first.blockCount ≠ 0)
    (hsecond : second.blockCount ≠ 0)
    (hranges : earlier = first ∧ later = second ∨
      earlier = second ∧ later = first)
    (horder : earlier.stop ≤ later.start)
    (hinside : later.stop ≤ inode.blocks.length)
    (hagain : (BlockMove.exchangeSame first second).again = some m') :
    m'.Rearranges (setInode inodes
      { inode with blocks := swapSegments inode.blocks earlier.start
                    earlier.stop later.start later.stop }) inodes := by
  have hback := swap_undo hids hmem horder hinside rfl
  have hlen : (swapSegments inode.blocks earlier.start earlier.stop later.start
      later.stop).length = inode.blocks.length :=
    (swapSegments_perm (Nat.le_add_right _ _) horder
      (Nat.le_add_right _ _)).length_eq
  have hfits : earlier.start + later.blockCount ≤
      later.stop - earlier.blockCount ∧
      later.stop - earlier.blockCount + earlier.blockCount = later.stop := by
    unfold FileBlockExchangeRange.stop at horder ⊢
    omega
  simp only [BlockMove.again] at hagain
  rcases hranges with ⟨rfl, rfl⟩ | ⟨rfl, rfl⟩
  · have hle : earlier.start ≤ later.start := by
      unfold FileBlockExchangeRange.stop at horder
      omega
    rw [if_pos hle, Option.some.injEq] at hagain
    subst hagain
    refine ⟨_, (mem_setInode hids hmem (by rfl)).mpr (.inl rfl), hid, hid',
      hkind, hfirst, hsecond, { later with start := earlier.start },
      { earlier with start := later.stop - earlier.blockCount },
      .inr ⟨rfl, rfl⟩, hfits.1, ?_, hback⟩
    show later.stop - earlier.blockCount + earlier.blockCount ≤
      (swapSegments _ _ _ _ _).length
    rw [hfits.2, hlen]
    exact hinside
  · have hgt : ¬ later.start ≤ earlier.start := by
      unfold FileBlockExchangeRange.stop at horder
      omega
    rw [if_neg hgt, Option.some.injEq] at hagain
    subst hagain
    refine ⟨_, (mem_setInode hids hmem (by rfl)).mpr (.inl rfl), hid, hid',
      hkind, hfirst, hsecond, { later with start := earlier.start },
      { earlier with start := later.stop - earlier.blockCount },
      .inl ⟨rfl, rfl⟩, hfits.1, ?_, hback⟩
    show later.stop - earlier.blockCount + earlier.blockCount ≤
      (swapSegments _ _ _ _ _).length
    rw [hfits.2, hlen]
    exact hinside

/-- **An exchange is undone by the same exchange**, with its ranges where the
blocks are. -/
theorem BlockMove.Asks.undo {m m' : BlockMove} (hm : m.Asks inodes inodes')
    (h : Mounted d sb a inodes entries) (hagain : m.again = some m') :
    m'.Asks inodes' inodes := by
  have hids := h.nodup_ids
  refine ⟨?_, h.validTable⟩
  cases m with
  | exchange leftInode i rightInode k count =>
    cases hagain
    rcases hm.1 with ⟨left, right, hpair, hcount, hi, hk, rfl⟩
    exact hpair.exchange_undo hids hcount hi hk
  | exchangeVariable first second =>
    cases hagain
    obtain ⟨hm, hvalid⟩ := hm
    rcases hm with ⟨left, right, hpair, hfirst, hsecond, hi, hk, rfl⟩
    have hboth := (hpair.valid_setPair hids (by rfl) (by rfl)
      h.validTable).mp hvalid
    exact hpair.exchangeVariable_undo h hfirst hsecond hi hk hboth.1 hboth.2
  | exchangeSame first second =>
    rcases hm.1 with ⟨inode, hmem, hid, hid', hkind, hfirst, hsecond, earlier,
      later, hranges, horder, hinside, rfl⟩
    exact exchangeSame_undo hids hmem hid hid' hkind hfirst hsecond hranges
      horder hinside hagain
  | exchangeComplete leftInode rightInode =>
    cases hagain
    rcases hm.1 with ⟨left, right, hpair, rfl⟩
    exact ⟨_, _, hpair.next hids (by rfl) (by rfl) hpair.left_kind
      hpair.right_kind, (hpair.undo hids (by rfl) (by rfl)).symm⟩
  | transfer sourceInode i count destinationInode k => cases hagain
  | move id i count k => cases hagain

end Inverses

/-! ## The transfer of a whole file -/

section TransferReplace

variable {d d' : Disk} {sb : Superblock} {a a' : BlockAllocator}
  {inodes inodes' : List PersistedInode} {entries : List PersistedDirectoryEntry}
  {sourceInode destinationInode : UInt64}

theorem renderings_transferReplaceTables (sb : Superblock) (a : BlockAllocator)
    (inodes : List PersistedInode) :
    Renderings sb (transferReplaceTables sb a inodes) :=
  renderings_twoTables sb a inodes _ _

/-- `publish_whole_file_transfer_replace` on a disk at rest, with tables that have
an image. -/
theorem AtRest.publishTransferReplaceTables (h : AtRest d sb a inodes entries)
    (hne : inodes'.map PersistedInode.canonical ≠ inodes)
    {ws : List (Nat × Block)}
    (hws : renderedWrites (transferReplaceTables sb a' inodes') = .ok ws) :
    Effect.Atomic (publishWholeFileTransferReplace sb inodes' a') d
      (fun _ d' => Became sb d d' a' (inodes'.map PersistedInode.canonical)
        entries []) ∧
    (Storable sb d a' inodes' entries [] → ∃ report d',
      publishWholeFileTransferReplace sb inodes' a' d = (.ok report, d')) := by
  have hcollect := (ImageStore.collect_eq
    (renderings_transferReplaceTables sb a' inodes') h.size
    "whole-file transfer replacement rendered outside allocation and inode regions").1
    ws hws
  have hfile : renderedWrites (fileTables "" sb a' inodes') = .ok ws := hws
  obtain ⟨tables, htables, hsame⟩ := h.allTables hfile
  have hedit : EditWrites inodes inodes' [] := .inr hne
  have hwrites : differing d.blocks tables ≠ [] := by
    intro hnil
    apply hedit.ne_nil h htables
    rw [hnil]
    rfl
  obtain ⟨hatomic, hcomplete⟩ := h.publishTables htables hwrites
    (publishesChanges_changes sb
      "whole-file transfer replacement recovery report is inconsistent")
  rw [hsame] at hatomic hcomplete
  constructor
  · apply Effect.atomic_query_bind
    intro changes hchanges
    rw [hcollect, Except.ok.injEq] at hchanges
    rw [← hchanges]
    exact hatomic.mono fun _ _ hpost => hpost.1
  · intro hstore
    rw [publishWholeFileTransferReplace, Effect.query_bind, hcollect]
    exact hcomplete hstore

/-- `publish_whole_file_transfer_replace` on a disk at rest. -/
theorem AtRest.publishWholeFileTransferReplace (h : AtRest d sb a inodes entries)
    (hne : inodes'.map PersistedInode.canonical ≠ inodes) :
    Effect.Atomic (FilesystemLab.publishWholeFileTransferReplace sb inodes' a') d
      fun _ d' => Became sb d d' a' (inodes'.map PersistedInode.canonical)
        entries [] := by
  cases hws : renderedWrites (transferReplaceTables sb a' inodes') with
  | error e =>
    obtain ⟨e', he'⟩ := (ImageStore.collect_eq
      (renderings_transferReplaceTables sb a' inodes') h.size
      "whole-file transfer replacement rendered outside allocation and inode regions").2
      e hws
    apply Effect.atomic_query_bind
    intro changes hchanges
    cases he'.symm.trans hchanges
  | ok ws => exact (h.publishTransferReplaceTables hne hws).1

/-- The table after a transfer: the source is empty, and the destination has
its blocks and its end. -/
def transferred (inodes : List PersistedInode)
    (source destination : PersistedInode) : List PersistedInode :=
  setPair inodes { source with blocks := [], byteLen := 0 }
    { destination with blocks := source.blocks, byteLen := source.byteLen }

/-- What a transfer computes: nothing for two empty files. -/
theorem Mounted.transferReplaceBlocks_eq_ok
    (h : Mounted d sb a inodes entries) (hne : sourceInode ≠ destinationInode)
    {planned : Option (BlockAllocator × List PersistedInode)}
    (hok : transferReplaceBlocks a inodes sourceInode destinationInode =
      .ok planned) :
    ∃ source destination,
      FilePair inodes sourceInode destinationInode source destination ∧
      ((source.blocks = [] ∧ destination.blocks = []) ∧ planned = none ∨
        ¬ (source.blocks = [] ∧ destination.blocks = []) ∧
        ∃ freed, a.freeAll (destination.blocks.map UInt64.toNat) = .ok freed ∧
          planned = some (freed, transferred inodes source destination)) := by
  simp only [transferReplaceBlocks, Except.bind_eq_ok, okOr_eq_ok,
    rejectIf_eq_ok, not_or, not_ne_iff] at hok
  rcases hok with ⟨source, hsource, destination, hdestination, _, hkinds, _, _,
    hrest⟩
  obtain ⟨hsmem, hsid⟩ := findInode_eq_some hsource
  obtain ⟨hdmem, hdid⟩ := findInode_eq_some hdestination
  refine ⟨source, destination,
    ⟨hsmem, hdmem, hsid, hdid, hkinds.1, hkinds.2, hne⟩, ?_⟩
  split at hrest
  · rename_i hempty
    cases hrest
    exact .inl ⟨hempty, rfl⟩
  · rename_i hsome
    have hvalid := h.validTable source hsmem
    have hvalid' := h.validTable destination hdmem
    have hlen : source.canonicalByteLen = .ok source.byteLen :=
      liftMessage_eq_ok.mpr hvalid
    simp only [hlen, Except.bind_eq_ok, Except.ok.injEq, Except.pure_eq_ok]
      at hrest
    rcases hrest with ⟨_, rfl, ⟨taken, emptied⟩, htaken, ⟨displaced, filled⟩,
      hfilled, destination', hset, freed, hfreed, rfl⟩
    simp only at hfilled hset hfreed
    rw [PersistedInode.replaceBlockRange_iff hvalid hkinds.1, segment_length,
      splice_length] at htaken
    rcases htaken with ⟨_, _, rfl, rfl, _⟩
    rw [PersistedInode.replaceBlockRange_iff hvalid' hkinds.2, segment_length,
      splice_length] at hfilled
    rcases hfilled with ⟨_, _, rfl, rfl, _⟩
    obtain ⟨rfl, _⟩ := PersistedInode.setFileByteLen_eq_ok.mp hset
    exact .inr ⟨hsome, freed, liftAllocation_eq_ok.mp hfreed, rfl⟩

/-- The records that a transfer leaves are valid. -/
theorem FilePair.valid_transferred {source destination : PersistedInode}
    (hpair : FilePair inodes sourceInode destinationInode source destination)
    (h : AtRest d sb a inodes entries) :
    Valid (transferred inodes source destination) := by
  have hsource := h.validTable source hpair.left_mem
  have hdestination := h.validTable destination hpair.right_mem
  obtain ⟨hid, _⟩ := (PersistedInode.valid_iff hpair.left_kind).mp hsource
  apply (hpair.valid_setPair h.nodup_ids (by rfl) (by rfl) h.validTable).mpr
  refine ⟨?_, hdestination.of_other hpair.right_kind hsource hpair.left_kind⟩
  refine (PersistedInode.valid_iff (by exact hpair.left_kind)).mpr
    ⟨hid, List.nodup_nil, ⟨?_, ?_⟩, ?_⟩
  · show 0 ≤ 0 * BLOCK_SIZE
    exact Nat.zero_le _
  · show 0 * BLOCK_SIZE < 0 + BLOCK_SIZE
    have := blockSize_pos
    omega
  · show 0 * BLOCK_SIZE < U64_LIMIT
    rw [Nat.zero_mul]
    decide

/-- A transfer gives the blocks of the destination back. -/
theorem FilePair.reassigned_transferred {source destination : PersistedInode}
    (hpair : FilePair inodes sourceInode destinationInode source destination)
    (h : AtRest d sb a inodes entries) :
    Reassigned inodes (transferred inodes source destination)
      destination.blocks := by
  apply hpair.reassigned h.nodup_ids (by rfl) (by rfl)
    (by exact hpair.left_kind) (by exact hpair.right_kind)
  exact List.Perm.refl _

/-- A transfer between files that are not both empty changes the table. -/
theorem FilePair.transferred_ne {source destination : PersistedInode}
    (hpair : FilePair inodes sourceInode destinationInode source destination)
    (h : AtRest d sb a inodes entries)
    (hsome : ¬ (source.blocks = [] ∧ destination.blocks = [])) :
    transferred inodes source destination ≠ inodes := by
  intro hsame
  have hids := h.nodup_ids
  have hnext : FilePair (transferred inodes source destination) sourceInode
      destinationInode { source with blocks := [], byteLen := 0 }
      { destination with blocks := source.blocks, byteLen := source.byteLen } :=
    hpair.next hids (by rfl) (by rfl) (by exact hpair.left_kind)
      (by exact hpair.right_kind)
  rw [hsame] at hnext
  -- the two records would be the old ones
  have hsource := congrArg PersistedInode.blocks
    (List.inj_on_of_nodup_map hids hnext.left_mem hpair.left_mem rfl)
  have hdestination := congrArg PersistedInode.blocks
    (List.inj_on_of_nodup_map hids hnext.right_mem hpair.right_mem rfl)
  have hnil : source.blocks = [] := hsource.symm
  exact hsome ⟨hnil, hdestination.symm.trans hnil⟩

/-- `transfer_replace_complete_file_blocks_journaled` on a mounted disk. -/
theorem Mounted.transferReplaceCompleteFileBlocks
    (h : Mounted d sb a inodes entries)
    (sourceInode destinationInode : UInt64) :
    Effect.Atomic (transferReplaceCompleteFileBlocksJournaled sb sourceInode
      destinationInode) d fun _ d' => ∃ source destination a',
        FilePair inodes sourceInode destinationInode source destination ∧
        (∀ b, a'.flag b =
          (decide (b ∉ destination.blocks.map UInt64.toNat) && a.flag b)) ∧
        Became sb d d' a' (transferred inodes source destination) entries [] := by
  apply Effect.atomic_lift_bind
  intro _ hne
  rw [rejectIf_eq_ok] at hne
  apply h.atomic_allocator
  apply h.atomic_inodes
  apply Effect.atomic_lift_bind
  intro planned hplanned
  obtain ⟨source, destination, hpair, hcases⟩ :=
    h.transferReplaceBlocks_eq_ok hne hplanned
  rcases hcases with ⟨hempty, rfl⟩ | ⟨hsome, freed, hfreed, rfl⟩
  · have hsame : transferred inodes source destination = inodes := by
      have hswap := hpair.setPair_empty h.toAtRest hempty.1 hempty.2
      have hend := (h.fileEnd hpair.right_mem hpair.right_kind).1.byteLen_of_nil
        hempty.2
      rw [hempty.2, hend] at hswap
      exact hswap
    apply Effect.atomic_pure
    refine ⟨source, destination, a, hpair, ?_, ?_⟩
    · intro b
      rw [hempty.2, List.map_nil, decide_eq_true List.not_mem_nil, Bool.true_and]
    · rw [hsame]
      exact h.became_refl
  · have hvalid := hpair.valid_transferred h.toAtRest
    have hchanged : (transferred inodes source destination).map
        PersistedInode.canonical ≠ inodes := by
      rw [hvalid.canonical]
      exact hpair.transferred_ne h.toAtRest hsome
    apply (h.publishWholeFileTransferReplace hchanged).mono
    intro _ d' hbecame
    rw [hvalid.canonical] at hbecame
    exact ⟨source, destination, freed, hpair,
      (BlockAllocator.freeAll_eq_ok hfreed).2.2.2.2, hbecame⟩

end TransferReplace

/-! ## What a caller sees -/

/-- The disk `d'` is `d` with the inode table `inodes'`: the entries and the
data blocks are those of before, and the check accepts the disk. -/
structure OnlyInodes (sb : Superblock) (d d' : Disk)
    (inodes' : List PersistedInode) : Prop where
  superblock : readSuperblock d' = .ok sb
  journal : loadJournalImage d' sb = .ok []
  checked : ∃ report, checkDevice d' = .ok report
  inodeTable : loadInodeTable d' sb = .ok inodes'
  entries : loadDirectoryTable d' sb = loadDirectoryTable d sb
  data : ∀ b, sb.reservedBlocks ≤ b → d'.blocks b = d.blocks b

/-- The allocator and all block references are those of before, too. -/
structure Conserves (sb : Superblock) (d d' : Disk)
    (inodes inodes' : List PersistedInode) : Prop
    extends OnlyInodes sb d d' inodes' where
  references : (inodes'.flatMap PersistedInode.blocks).Perm
    (inodes.flatMap PersistedInode.blocks)
  allocator : loadAllocator d' sb = loadAllocator d sb

/-- Two files hold what the other one held. -/
def ContentsSwapped (d d' : Disk) (inodes inodes' : List PersistedInode)
    (leftInode rightInode : UInt64) : Prop :=
  ∃ left right left' right',
    FilePair inodes leftInode rightInode left right ∧
    FilePair inodes' leftInode rightInode left' right' ∧
    fileBytes d' left' = fileBytes d right ∧
    fileBytes d' right' = fileBytes d left

/-- What a call that ends leaves: the rearrangement it asks for, from which an
exchange leads back to the old inode table. -/
structure BlockMove.Leaves (m : BlockMove) (sb : Superblock) (d d' : Disk)
    (inodes inodes' : List PersistedInode) : Prop
    extends Conserves sb d d' inodes inodes' where
  rearranged : m.Rearranges inodes inodes'
  undone : ∀ m', m.again = some m' → ∃ report d'',
    m'.run sb d' = (.ok report, d'') ∧ Conserves sb d' d'' inodes' inodes
  swapped : ∀ leftInode rightInode,
    m = .exchangeComplete leftInode rightInode →
      ContentsSwapped d d' inodes inodes' leftInode rightInode

/-- What a transfer of a whole file leaves: the destination has the blocks and
the end of the source, which is empty, and its own blocks are free. -/
structure Transferred (sb : Superblock) (d d' : Disk)
    (inodes : List PersistedInode) (source destination : PersistedInode) : Prop
    extends OnlyInodes sb d d' (transferred inodes source destination) where
  contents : fileBytes d' { destination with
      blocks := source.blocks, byteLen := source.byteLen } = fileBytes d source
  freed : ∀ block ∈ destination.blocks,
    MarkedOwned d sb block true ∧ MarkedOwned d' sb block false
  kept : ∀ block, block ∉ destination.blocks → ∀ owned,
    MarkedOwned d' sb block owned ↔ MarkedOwned d sb block owned

section Callers

variable {d d' : Disk} {sb : Superblock} {a a' : BlockAllocator}
  {inodes inodes' : List PersistedInode} {entries : List PersistedDirectoryEntry}

theorem Mounted.onlyInodes (h : Mounted d sb a inodes entries)
    (h' : Mounted d' sb a' inodes' entries)
    (hbecame : Became sb d d' a' inodes' entries []) :
    OnlyInodes sb d d' inodes' where
  superblock := h'.superblock
  journal := h'.journal
  checked := ⟨_, h'.check⟩
  inodeTable := h'.inodeTable
  entries := by rw [h'.directoryTable, h.directoryTable]
  data := hbecame.contents

/-- A reassigned table conserves the blocks. -/
theorem Mounted.conserves (h : Mounted d sb a inodes entries)
    (hnew : Reassigned inodes inodes' [])
    (hbecame : Became sb d d' a inodes' entries []) :
    Mounted d' sb a inodes' entries ∧ Conserves sb d d' inodes inodes' := by
  have h' := h.reassigned hnew (fun b => by simp) hbecame
  refine ⟨h', h.onlyInodes h' hbecame, ?_, ?_⟩
  · have hreferences := hnew.references
    rw [List.append_nil] at hreferences
    exact hreferences
  · rw [h'.allocator, h.allocator]

/-- Blocks that hold the same make the same contents. -/
theorem OnlyInodes.fileBytes_eq (hx : OnlyInodes sb d d' inodes')
    (h : Mounted d sb a inodes entries) {inode inode' : PersistedInode}
    (hmem : inode ∈ inodes) (hblocks : inode'.blocks = inode.blocks)
    (hlen : inode'.byteLen = inode.byteLen) :
    fileBytes d' inode' = fileBytes d inode := by
  have hsame : ∀ block ∈ inode.blocks,
      d'.blocks block.toNat = d.blocks block.toNat := by
    intro block hblock
    have hreserved := h.geometry.2
    have hrange := BlockAllocator.range_of_flag
      (h.owned.data inode hmem block hblock)
    exact hx.data _ (by omega)
  rw [fileBytes, fileBytes, fileImages, fileImages, hblocks, hlen,
    List.map_congr_left hsame]

/-- **A call on a mounted disk.** -/
theorem Mounted.blockMove_leaves (h : Mounted d sb a inodes entries)
    (m : BlockMove) : Effect.Atomic (m.run sb) d fun _ d' =>
      ∃ inodes', m.Leaves sb d d' inodes inodes' := by
  apply (h.blockMove m).atomic.mono
  intro _ d' hpost
  rcases hpost with ⟨inodes', hasks, hbecame, hstore⟩
  have hnew := hasks.1.reassigned h.toAtRest
  obtain ⟨h', hconserves⟩ := h.conserves hnew hbecame
  refine ⟨inodes', hconserves, hasks.1, ?_, ?_⟩
  · intro m' hagain
    have hundo := hasks.undo h hagain
    have hback : inodes = inodes' ∨ Storable sb d' a inodes entries [] := by
      rcases hstore with hsame | hstore
      · exact .inl hsame.symm
      · exact .inr (h.toAtRest.storable_symm h'.toAtRest hstore)
    obtain ⟨report, d'', hrun, hbecame'⟩ :=
      (h'.blockMove m').complete inodes hundo hback
    exact ⟨report, d'', hrun, (h'.conserves
      (hundo.1.reassigned h'.toAtRest) hbecame').2⟩
  · intro leftInode rightInode hm
    subst hm
    rcases hasks.1 with ⟨left, right, hpair, rfl⟩
    refine ⟨left, right, _, _, hpair, hpair.next h.nodup_ids (by rfl) (by rfl)
      hpair.left_kind hpair.right_kind, ?_, ?_⟩
    · exact hconserves.fileBytes_eq h hpair.right_mem rfl rfl
    · exact hconserves.fileBytes_eq h hpair.left_mem rfl rfl

/-- **A transfer of a whole file on a mounted disk.** -/
theorem Mounted.transferReplace_leaves (h : Mounted d sb a inodes entries)
    (sourceInode destinationInode : UInt64) :
    Effect.Atomic (transferReplaceCompleteFileBlocksJournaled sb sourceInode
      destinationInode) d fun _ d' => ∃ source destination,
        FilePair inodes sourceInode destinationInode source destination ∧
          Transferred sb d d' inodes source destination := by
  apply (h.transferReplaceCompleteFileBlocks sourceInode destinationInode).mono
  intro _ d' hpost
  rcases hpost with ⟨source, destination, a', hpair, hflag, hbecame⟩
  have hinj : Function.Injective UInt64.toNat := fun _ _ => UInt64.toNat_inj.mp
  have h' := h.reassigned (hpair.reassigned_transferred h.toAtRest) hflag hbecame
  have honly := h.onlyInodes h' hbecame
  refine ⟨source, destination, hpair, honly,
    honly.fileBytes_eq h hpair.left_mem rfl rfl, ?_, ?_⟩
  · intro block hblock
    refine ⟨h.toAtRest.markedOwned_iff.mpr
      (h.owned.data destination hpair.right_mem block hblock),
      h'.toAtRest.markedOwned_iff.mpr ?_⟩
    rw [hflag, decide_eq_false (not_not.mpr (List.mem_map_of_mem hblock)),
      Bool.false_and]
  · intro block hblock owned
    have hnot : block.toNat ∉ destination.blocks.map UInt64.toNat := by
      rw [List.mem_map_of_injective hinj]
      exact hblock
    rw [h'.toAtRest.markedOwned_iff, h.toAtRest.markedOwned_iff, hflag,
      decide_eq_true hnot, Bool.true_and]

end Callers

/-- **Calls that move block references conserve the blocks.**  On a device that
the check accepts with an empty journal, a call that fails changes nothing; one
that ends leaves the rearrangement that it asks for, with every reference, the
allocator, the data and the entries of before, and an exchange is undone by the
exchange at the new places; and a transfer of a whole file frees exactly the
blocks of its destination. -/
theorem blockMove_conserves {d : Disk} {sb : Superblock} {report : FsckReport}
    {inodes : List PersistedInode}
    (hsb : readSuperblock d = .ok sb)
    (hjournal : loadJournalImage d sb = .ok [])
    (hcheck : checkDevice d = .ok report)
    (hload : loadInodeTable d sb = .ok inodes) :
    (∀ (m : BlockMove) (result : Result RecoveryReport) (d' : Disk),
      m.run sb d = (result, d') →
      match result with
      | .error _ => d' = d
      | .ok _ => ∃ inodes', m.Leaves sb d d' inodes inodes') ∧
    ∀ (sourceInode destinationInode : UInt64) (result : Result RecoveryReport)
      (d' : Disk),
      transferReplaceCompleteFileBlocksJournaled sb sourceInode destinationInode
        d = (result, d') →
      match result with
      | .error _ => d' = d
      | .ok _ => ∃ source destination,
        FilePair inodes sourceInode destinationInode source destination ∧
          Transferred sb d d' inodes source destination := by
  obtain ⟨a, inodes', entries, h⟩ := exists_mounted hsb hjournal hcheck
  rw [h.inodeTable, Except.ok.injEq] at hload
  subst hload
  constructor
  · intro m result d' hrun
    have hatomic := h.blockMove_leaves m
    cases result with
    | error error =>
      have hsame := hatomic.of_error (congrArg Prod.fst hrun)
      rw [hrun] at hsame
      exact hsame
    | ok _ => exact hatomic.of_ok hrun
  · intro sourceInode destinationInode result d' hrun
    have hatomic := h.transferReplace_leaves sourceInode destinationInode
    cases result with
    | error error =>
      have hsame := hatomic.of_error (congrArg Prod.fst hrun)
      rw [hrun] at hsame
      exact hsame
    | ok _ => exact hatomic.of_ok hrun

/-! ## A sample exchange -/

/-- The only blocks of the two files of the sample change places. -/
theorem exchange_filesDisk (contents : Nat → Block) :
    ∃ report d', (BlockMove.exchange 2 0 3 0 1).run treeSuperblock
      (filesDisk contents) = (.ok report, d') := by
  have h := mounted_filesDisk contents
  have hpair : FilePair filesInodes 2 3 ⟨2, .file, [10], 4096⟩
      ⟨3, .file, [11], 10⟩ := by
    refine ⟨by decide, by decide, rfl, rfl, rfl, rfl, by decide⟩
  have hset : setPair filesInodes ⟨2, .file, [11], 4096⟩ ⟨3, .file, [10], 10⟩ =
      [⟨1, .directory, [], 0⟩, ⟨2, .file, [11], 4096⟩, ⟨3, .file, [10], 10⟩] := by
    decide
  have hvalid : Valid (setPair filesInodes ⟨2, .file, [11], 4096⟩
      ⟨3, .file, [10], 10⟩) := by
    rw [hset]
    unfold Valid PersistedInode.Valid
    decide
  have hasks : (BlockMove.exchange 2 0 3 0 1).Asks filesInodes
      (setPair filesInodes ⟨2, .file, [11], 4096⟩ ⟨3, .file, [10], 10⟩) :=
    ⟨⟨_, _, hpair, by decide, by decide, by decide, rfl⟩, hvalid⟩
  have hstore : Storable treeSuperblock (filesDisk contents) filesAllocator
      (setPair filesInodes ⟨2, .file, [11], 4096⟩ ⟨3, .file, [10], 10⟩)
      filesEntries [] := by
    have hinodes : ∃ image, inodeFormat.encodeImage 1 (setPair filesInodes
        ⟨2, .file, [11], 4096⟩ ⟨3, .file, [10], 10⟩) = .ok image := by
      rw [hset]
      exact exists_inodeImage (by decide) (by decide) (by decide) (by decide)
        (by decide)
    have hentries : ∃ image, directoryFormat.encodeImage 1 filesEntries =
        .ok image :=
      exists_directoryImage (by decide) (by decide) (by decide) (by decide)
        (by decide)
    obtain ⟨tables, htables⟩ :=
      @exists_treeTables filesAllocator _ _ rfl rfl hinodes hentries
    have hnone : ([] : List (Nat × Block)).length ≤ 2 := Nat.zero_le 2
    exact ⟨tables, htables, fits_tree hnone tables htables⟩
  obtain ⟨report, d', hrun, _⟩ :=
    (h.blockMove (.exchange 2 0 3 0 1)).complete _ hasks (.inr hstore)
  exact ⟨report, d', hrun⟩

/-- The inodes after the first file of the sample has replaced the second. -/
def transferredInodes : List PersistedInode :=
  [⟨1, .directory, [], 0⟩, ⟨2, .file, [], 0⟩, ⟨3, .file, [10], 4096⟩]

/-- The first file of the sample replaces the second one. -/
theorem transferReplace_filesDisk (contents : Nat → Block) :
    ∃ report d', transferReplaceCompleteFileBlocksJournaled treeSuperblock 2 3
      (filesDisk contents) = (.ok report, d') := by
  have h := mounted_filesDisk contents
  have hplan : ∃ freed, transferReplaceBlocks filesAllocator filesInodes 2 3 =
      .ok (some (freed, transferredInodes)) ∧
      freed.totalBlocks = treeSuperblock.totalBlocks ∧
      freed.reservedBlocks = treeSuperblock.reservedBlocks := ⟨_, rfl, rfl, rfl⟩
  obtain ⟨freed, hplanned, htotal, hreserved⟩ := hplan
  obtain ⟨image, himage⟩ := exists_allocationImage htotal hreserved
  obtain ⟨inodeImage, hinodes⟩ : ∃ image,
      inodeFormat.encodeImage treeSuperblock.inodeBlocks transferredInodes =
        .ok image :=
    exists_inodeImage (by decide) (by decide) (by decide) (by decide)
      (by decide)
  have hentries : ∃ image, directoryFormat.encodeImage 1 filesEntries =
      .ok image :=
    exists_directoryImage (by decide) (by decide) (by decide) (by decide)
      (by decide)
  obtain ⟨tables, htables⟩ :=
    exists_treeTables htotal hreserved ⟨inodeImage, hinodes⟩ hentries
  have hnone : ([] : List (Nat × Block)).length ≤ 2 := Nat.zero_le 2
  have hrendered : ∃ ws, renderedWrites (transferReplaceTables treeSuperblock
      freed transferredInodes) = .ok ws := by
    simp only [transferReplaceTables, allocationPair, inodePair, renderedWrites,
      himage, hinodes, Except.ok_bind, Except.pure_eq_ok]
    exact ⟨_, rfl⟩
  obtain ⟨ws, hws⟩ := hrendered
  obtain ⟨report, d', hrun⟩ :=
    (h.toAtRest.publishTransferReplaceTables (by decide) hws).2
      ⟨tables, htables, fits_tree hnone tables htables⟩
  refine ⟨report, d', ?_⟩
  rw [transferReplaceCompleteFileBlocksJournaled,
    Effect.lift_bind_of_ok (a := ()) (rejectIf_of_not (by decide)),
    h.allocator_bind, h.inodes_bind, Effect.lift_bind_of_ok hplanned]
  exact hrun

/-- Two files of one block exchange them, and the first one replaces the second
one. -/
theorem blockMove_conserves_filesDisk :
    (∃ (report : RecoveryReport) (d' : Disk) (inodes' : List PersistedInode),
      (BlockMove.exchange 2 0 3 0 1).run treeSuperblock
        (filesDisk fun _ => Block.zero) = (.ok report, d') ∧
      (BlockMove.exchange 2 0 3 0 1).Leaves treeSuperblock
        (filesDisk fun _ => Block.zero) d' filesInodes inodes') ∧
    ∃ (report : RecoveryReport) (d' : Disk),
      transferReplaceCompleteFileBlocksJournaled treeSuperblock 2 3
        (filesDisk fun _ => Block.zero) = (.ok report, d') ∧
      Transferred treeSuperblock (filesDisk fun _ => Block.zero) d' filesInodes
        ⟨2, .file, [10], 4096⟩ ⟨3, .file, [11], 10⟩ := by
  have h := mounted_filesDisk fun _ => Block.zero
  have hboth := blockMove_conserves h.superblock h.journal h.check h.inodeTable
  constructor
  · obtain ⟨report, d', hrun⟩ := exchange_filesDisk fun _ => Block.zero
    obtain ⟨inodes', hleaves⟩ := hboth.1 _ _ _ hrun
    exact ⟨report, d', inodes', hrun, hleaves⟩
  · obtain ⟨report, d', hrun⟩ := transferReplace_filesDisk fun _ => Block.zero
    obtain ⟨source, destination, hpair, htransferred⟩ := hboth.2 _ _ _ _ hrun
    have hsource : source = ⟨2, .file, [10], 4096⟩ :=
      List.inj_on_of_nodup_map h.nodup_ids hpair.left_mem (by decide)
        hpair.left_id
    have hdestination : destination = ⟨3, .file, [11], 10⟩ :=
      List.inj_on_of_nodup_map h.nodup_ids hpair.right_mem (by decide)
        hpair.right_id
    rw [hsource, hdestination] at htransferred
    exact ⟨report, d', hrun, htransferred⟩

end FilesystemLab
