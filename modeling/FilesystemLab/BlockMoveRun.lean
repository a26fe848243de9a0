import FilesystemLab.ExchangePlan

/-!
# Runs of exchanges and transfers

`Mounted.blockMove`: a call publishes the inode table that it asks for, or
fails without a trace.  The allocator stays as it is, because the files of the
new table have the blocks of the old ones.
-/

namespace FilesystemLab

open WriteLog Splice

/-! ## The calls -/

section Calls

variable {d : Disk} {sb : Superblock} {a : BlockAllocator}
  {inodes inodes' : List PersistedInode} {entries : List PersistedDirectoryEntry}

/-- A table with another inode is another table. -/
theorem setInode_ne {inode inode' : PersistedInode}
    (hids : (inodes.map PersistedInode.id).Nodup) (hmem : inode ∈ inodes)
    (hid : inode'.id = inode.id) (hblocks : inode'.blocks ≠ inode.blocks) :
    setInode inodes inode' ≠ inodes := by
  intro hsame
  have hnew : inode' ∈ setInode inodes inode' :=
    (mem_setInode hids hmem hid).mpr (.inl rfl)
  rw [hsame] at hnew
  have heq := List.inj_on_of_nodup_map hids hnew hmem hid
  exact hblocks (congrArg PersistedInode.blocks heq)

/-- **Every call but an exchange of whole files asks for another table.** -/
theorem BlockMove.Rearranges.ne {m : BlockMove}
    (hm : m.Rearranges inodes inodes') (h : Mounted d sb a inodes entries)
    (hpart : ∀ leftInode rightInode, m ≠ .exchangeComplete leftInode rightInode) :
    inodes' ≠ inodes := by
  cases m with
  | exchange leftInode i rightInode k count =>
    rcases hm with ⟨left, right, hpair, hcount, hi, hk, rfl⟩
    apply hpair.setPair_ne h.nodup_ids (by rfl) (by rfl)
      (by exact hpair.left_kind) (by exact hpair.right_kind)
    apply splice_ne _ _ (segment_ne_nil (by omega) hk)
    exact fun block hblock hold =>
      hpair.disjoint h.owned hold (mem_of_mem_segment hblock)
  | exchangeVariable first second =>
    rcases hm with ⟨left, right, hpair, hfirst, hsecond, hi, hk, rfl⟩
    apply hpair.setPair_ne h.nodup_ids (by rfl) (by rfl)
      (by exact hpair.left_kind) (by exact hpair.right_kind)
    apply splice_ne _ _ (segment_ne_nil
      (Nat.lt_add_of_pos_right (Nat.pos_of_ne_zero hsecond)) hk)
    exact fun block hblock hold =>
      hpair.disjoint h.owned hold (mem_of_mem_segment hblock)
  | exchangeSame first second =>
    rcases hm with ⟨inode, hmem, _, _, hkind, hfirst, hsecond, earlier, later,
      hranges, horder, hinside, rfl⟩
    have hcounts : earlier.blockCount ≠ 0 ∧ later.blockCount ≠ 0 := by
      rcases hranges with ⟨rfl, rfl⟩ | ⟨rfl, rfl⟩
      · exact ⟨hfirst, hsecond⟩
      · exact ⟨hsecond, hfirst⟩
    apply setInode_ne h.nodup_ids hmem (by rfl)
    exact swapSegments_ne (PersistedInode.nodup_of_validate (h.validate hmem))
      (Nat.lt_add_of_pos_right (Nat.pos_of_ne_zero hcounts.1)) horder
      (Nat.lt_add_of_pos_right (Nat.pos_of_ne_zero hcounts.2)) hinside
  | exchangeComplete leftInode rightInode =>
    exact absurd rfl (hpart leftInode rightInode)
  | transfer sourceInode i count destinationInode k =>
    rcases hm with ⟨source, destination, hpair, hcount, hi, hk, rfl⟩
    apply hpair.setPair_ne h.nodup_ids (by rfl) (by rfl)
      (by exact hpair.left_kind) (by exact hpair.right_kind)
    intro hsame
    have hlen := length_splice (Nat.le_add_right i count) hi ([] : List UInt64)
    have hshort : (splice source.blocks i (i + count) []).length =
        source.blocks.length := congrArg List.length hsame
    rw [hshort, List.length_nil] at hlen
    omega
  | move id i count k =>
    rcases hm with ⟨inode, hmem, _, hkind, hcount, hi, hk, hne, rfl⟩
    apply setInode_ne h.nodup_ids hmem (by rfl)
    exact move_ne (PersistedInode.nodup_of_validate (h.validate hmem))
      (by omega) hi (by omega) hne

/-- The table that a call asks for is computed and published. -/
theorem Mounted.rearranging_plan (h : Mounted d sb a inodes entries)
    {m : BlockMove} {planned : Result (List PersistedInode)}
    (hpart : ∀ leftInode rightInode, m ≠ .exchangeComplete leftInode rightInode)
    (hplan : ∀ inodes', planned = .ok inodes' ↔ m.Asks inodes inodes')
    (image : String) {publish : List (Nat × Block) → DevM Disk RecoveryReport}
    (hpublish : PublishesChanges sb publish) :
    Rearranging (do
      let inodes' ← planned
      publishInodeTable image publish sb inodes') d sb a inodes entries
      fun inodes' => m.Asks inodes inodes' := by
  apply Rearranging.check
  · exact fun inodes' hasks => ⟨inodes', (hplan inodes').mpr hasks⟩
  intro inodes' hok
  have hasks := (hplan inodes').mp hok
  apply h.rearranging_publish hasks.2 (hasks.1.ne h hpart) _ image hpublish
  intro other
  rw [← hplan, hok, Except.ok.injEq]
  exact eq_comm

/-- The same for a call that also returns the moved blocks. -/
theorem Mounted.rearranging_moved (h : Mounted d sb a inodes entries)
    {m : BlockMove} {planned : Result (List UInt64 × List PersistedInode)}
    (hpart : ∀ leftInode rightInode, m ≠ .exchangeComplete leftInode rightInode)
    {good : List UInt64 → Prop}
    (hplan : ∀ moved inodes', planned = .ok (moved, inodes') ↔
      good moved ∧ m.Asks inodes inodes')
    (hgood : ∀ inodes', m.Asks inodes inodes' → ∃ moved, good moved)
    (image : String) {publish : List (Nat × Block) → DevM Disk RecoveryReport}
    (hpublish : PublishesChanges sb publish) :
    Rearranging (do
      let moved ← planned
      let report ← publishInodeTable image publish sb moved.2
      pure (moved.1, report)) d sb a inodes entries
      fun inodes' => m.Asks inodes inodes' := by
  apply Rearranging.check
  · intro inodes' hasks
    obtain ⟨moved, hmoved⟩ := hgood inodes' hasks
    exact ⟨_, (hplan moved inodes').mpr ⟨hmoved, hasks⟩⟩
  intro planned' hok
  obtain ⟨hmoved, hasks⟩ := (hplan planned'.1 planned'.2).mp hok
  apply Rearranging.map _ (g := fun report => (planned'.1, report))
    (fun _ _ => rfl)
  apply h.rearranging_publish hasks.2 (hasks.1.ne h hpart) _ image hpublish
  intro other
  constructor
  · intro hother
    have hboth := (hplan planned'.1 other).mpr ⟨hmoved, hother⟩
    rw [hok, Except.ok.injEq] at hboth
    rw [hboth]
  · intro heq
    rw [heq]
    exact hasks

/-- `exchange_file_block_ranges_journaled` on a mounted disk. -/
theorem Mounted.exchangeFileBlockRanges (h : Mounted d sb a inodes entries)
    (leftInode : UInt64) (i : Nat) (rightInode : UInt64) (k count : Nat) :
    Rearranging (exchangeFileBlockRangesJournaled sb leftInode i rightInode k
      count) d sb a inodes entries fun inodes' =>
        (BlockMove.exchange leftInode i rightInode k count).Asks inodes
          inodes' := by
  apply Rearranging.check
  · intro inodes' hasks
    rcases hasks.1 with ⟨_, _, hpair, hcount, _⟩
    exact ⟨(), rejectIf_of_not (not_or.mpr ⟨hpair.ne, hcount⟩)⟩
  intro _ hargs
  rw [rejectIf_eq_ok, not_or] at hargs
  apply h.rearranging_loads
  exact h.rearranging_plan (fun _ _ => by simp)
    (fun _ => h.exchangeRanges_iff hargs.1 hargs.2) _
    (publishesChanges_transaction sb _)

/-- `exchange_variable_file_block_ranges_journaled` on a mounted disk. -/
theorem Mounted.exchangeVariableFileBlockRanges
    (h : Mounted d sb a inodes entries) (left right : FileBlockExchangeRange) :
    Rearranging (exchangeVariableFileBlockRangesJournaled sb left right) d sb a
      inodes entries fun inodes' =>
        (BlockMove.exchangeVariable left right).Asks inodes inodes' := by
  apply h.rearranging_loads
  exact h.rearranging_plan (fun _ _ => by simp) (fun _ => h.exchangeVariableRanges_iff) _
    (publishesChanges_transaction sb _)

/-- `transfer_file_block_range_journaled` on a mounted disk. -/
theorem Mounted.transferFileBlockRange (h : Mounted d sb a inodes entries)
    (sourceInode : UInt64) (i count : Nat) (destinationInode : UInt64)
    (k : Nat) :
    Rearranging (transferFileBlockRangeJournaled sb sourceInode i count
      destinationInode k) d sb a inodes entries fun inodes' =>
        (BlockMove.transfer sourceInode i count destinationInode k).Asks inodes
          inodes' := by
  apply Rearranging.check
  · intro inodes' hasks
    rcases hasks.1 with ⟨_, _, hpair, _⟩
    exact ⟨(), rejectIf_of_not hpair.ne⟩
  intro _ hne
  rw [rejectIf_eq_ok] at hne
  apply Rearranging.check
  · intro inodes' hasks
    rcases hasks.1 with ⟨_, _, _, hcount, _⟩
    exact ⟨(), rejectIf_of_not hcount⟩
  intro _ hcount
  rw [rejectIf_eq_ok] at hcount
  apply h.rearranging_loads
  apply h.rearranging_moved (fun _ _ => by simp) (fun _ _ => h.transferRange_iff hne hcount) _
    _ (publishesChanges_transaction sb _)
  intro inodes' hasks
  rcases hasks.1 with ⟨source, _, hpair, _⟩
  exact ⟨_, source, hpair.left_mem, hpair.left_id, rfl⟩

/-- `move_file_block_range_journaled` on a mounted disk. -/
theorem Mounted.moveFileBlockRange (h : Mounted d sb a inodes entries)
    (id : UInt64) (i count k : Nat) :
    Rearranging (moveFileBlockRangeJournaled sb id i count k) d sb a inodes
      entries fun inodes' =>
        (BlockMove.move id i count k).Asks inodes inodes' := by
  apply Rearranging.check
  · intro inodes' hasks
    rcases hasks.1 with ⟨_, _, _, _, hcount, _⟩
    exact ⟨(), rejectIf_of_not hcount⟩
  intro _ hcount
  rw [rejectIf_eq_ok] at hcount
  apply h.rearranging_loads
  apply h.rearranging_moved (fun _ _ => by simp) (fun _ _ => h.moveRange_iff hcount) _ _
    (publishesChanges_transaction sb _)
  intro inodes' hasks
  rcases hasks.1 with ⟨inode, hmem, hid, _⟩
  exact ⟨_, inode, hmem, hid, rfl⟩

/-- The loads, the table and the publication of an exchange inside a file. -/
theorem Mounted.exchangeSame_ordered (h : Mounted d sb a inodes entries)
    {first second earlier later : FileBlockExchangeRange}
    (hranges : earlier = first ∧ later = second ∨
      earlier = second ∧ later = first)
    (hid : first.inode = second.inode) (hfirst : first.blockCount ≠ 0)
    (hsecond : second.blockCount ≠ 0) (horder : earlier.stop ≤ later.start) :
    Rearranging (do
      let allocator ← Effect.query (loadAllocator · sb)
      let inodes ← Effect.query (loadInodeTable · sb)
      let inodes' ← exchangeSameRanges allocator inodes first.inode
        earlier.start earlier.stop later.start later.stop
      publishExchangeInodes sb inodes') d sb a inodes entries fun inodes' =>
        (BlockMove.exchangeSame first second).Asks inodes inodes' := by
  apply h.rearranging_loads
  apply h.rearranging_plan (fun _ _ => by simp) _ _ (publishesChanges_transaction sb _)
  intro inodes'
  rw [h.exchangeSameRanges_iff horder]
  apply and_congr_left
  intro _
  constructor
  · intro hfacts
    rcases hfacts with ⟨inode, hmem, hinode, hkind, hinside, rfl⟩
    exact ⟨inode, hmem, hinode, hinode.trans hid, hkind, hfirst, hsecond,
      earlier, later, hranges, horder, hinside, rfl⟩
  · intro hfacts
    rcases hfacts with ⟨inode, hmem, hinode, _, hkind, _, _, earlier', later',
      hranges', horder', hinside, rfl⟩
    -- only one of the two orders is possible
    have hsame : earlier' = earlier ∧ later' = later := by
      unfold FileBlockExchangeRange.stop at horder horder'
      rcases hranges with ⟨rfl, rfl⟩ | ⟨rfl, rfl⟩ <;>
        rcases hranges' with ⟨rfl, rfl⟩ | ⟨rfl, rfl⟩
      · exact ⟨rfl, rfl⟩
      · omega
      · omega
      · exact ⟨rfl, rfl⟩
    obtain ⟨rfl, rfl⟩ := hsame
    exact ⟨inode, hmem, hinode, hkind, hinside, rfl⟩

/-- The end of a range of an exchange. -/
theorem FileBlockExchangeRange.exchangeRangeEnd_eq_ok
    {range : FileBlockExchangeRange} {label : String} {stop : Nat} :
    range.exchangeRangeEnd label = .ok stop ↔
      range.blockCount ≠ 0 ∧ range.stop < U64_LIMIT ∧ stop = range.stop := by
  simp only [exchangeRangeEnd, Except.bind_eq_ok, rejectIf_eq_ok, okOr_eq_ok,
    checkedAdd_eq_some]
  constructor
  · intro hfacts
    rcases hfacts with ⟨_, hcount, hlt, rfl⟩
    exact ⟨hcount, hlt, rfl⟩
  · intro hfacts
    rcases hfacts with ⟨hcount, hlt, rfl⟩
    exact ⟨(), hcount, hlt, rfl⟩

/-- `exchange_same_file_block_ranges_journaled` on a mounted disk. -/
theorem Mounted.exchangeSameFileBlockRanges
    (h : Mounted d sb a inodes entries) (first second : FileBlockExchangeRange) :
    Rearranging (exchangeSameFileBlockRangesJournaled sb first second) d sb a
      inodes entries fun inodes' =>
        (BlockMove.exchangeSame first second).Asks inodes inodes' := by
  -- where the ranges of a possible exchange lie
  have hfits : ∀ inodes', (BlockMove.exchangeSame first second).Asks inodes
      inodes' → first.inode = second.inode ∧
        first.blockCount ≠ 0 ∧ second.blockCount ≠ 0 ∧
        first.stop < U64_LIMIT ∧ second.stop < U64_LIMIT ∧
        (first.stop ≤ second.start ∨ second.stop ≤ first.start) := by
    intro inodes' hasks
    rcases hasks.1 with ⟨inode, hmem, hid, hid', hkind, hfirst, hsecond, earlier,
      later, hranges, horder, hinside, _⟩
    have hcapacity := (h.fileEnd hmem hkind).2
    rw [blockSize_eq] at hcapacity
    unfold FileBlockExchangeRange.stop at horder hinside ⊢
    refine ⟨hid.symm.trans hid', hfirst, hsecond, ?_⟩
    rcases hranges with ⟨rfl, rfl⟩ | ⟨rfl, rfl⟩ <;> omega
  apply Rearranging.check
  · intro inodes' hasks
    obtain ⟨hid, _⟩ := hfits inodes' hasks
    exact ⟨(), rejectIf_of_not (not_not.mpr hid)⟩
  intro _ hid
  rw [rejectIf_eq_ok, not_ne_iff] at hid
  apply Rearranging.check
  · intro inodes' hasks
    obtain ⟨_, hfirst, _, hlt, _⟩ := hfits inodes' hasks
    exact ⟨_, FileBlockExchangeRange.exchangeRangeEnd_eq_ok.mpr
      ⟨hfirst, hlt, rfl⟩⟩
  intro firstEnd hfirstEnd
  obtain ⟨hfirst, _, rfl⟩ :=
    FileBlockExchangeRange.exchangeRangeEnd_eq_ok.mp hfirstEnd
  apply Rearranging.check
  · intro inodes' hasks
    obtain ⟨_, _, hsecond, _, hlt, _⟩ := hfits inodes' hasks
    exact ⟨_, FileBlockExchangeRange.exchangeRangeEnd_eq_ok.mpr
      ⟨hsecond, hlt, rfl⟩⟩
  intro secondEnd hsecondEnd
  obtain ⟨hsecond, _, rfl⟩ :=
    FileBlockExchangeRange.exchangeRangeEnd_eq_ok.mp hsecondEnd
  by_cases hle : first.start ≤ second.start
  · simp only [if_pos hle]
    apply Rearranging.check
    · intro inodes' hasks
      obtain ⟨_, _, _, _, _, hcases⟩ := hfits inodes' hasks
      refine ⟨(), rejectIf_of_not ?_⟩
      unfold FileBlockExchangeRange.stop at hcases ⊢
      omega
    intro _ horder
    rw [rejectIf_eq_ok, not_lt] at horder
    exact h.exchangeSame_ordered (.inl ⟨rfl, rfl⟩) hid hfirst hsecond horder
  · simp only [if_neg hle]
    apply Rearranging.check
    · intro inodes' hasks
      obtain ⟨_, _, _, _, _, hcases⟩ := hfits inodes' hasks
      refine ⟨(), rejectIf_of_not ?_⟩
      unfold FileBlockExchangeRange.stop at hcases ⊢
      omega
    intro _ horder
    rw [rejectIf_eq_ok, not_lt] at horder
    exact h.exchangeSame_ordered (.inr ⟨rfl, rfl⟩) hid hfirst hsecond horder

/-- Two empty files that are exchanged are left as they are. -/
theorem FilePair.setPair_empty {leftInode rightInode : UInt64}
    {left right : PersistedInode}
    (hpair : FilePair inodes leftInode rightInode left right)
    (h : AtRest d sb a inodes entries)
    (hleft : left.blocks = []) (hright : right.blocks = []) :
    setPair inodes
      { left with blocks := right.blocks, byteLen := right.byteLen }
      { right with blocks := left.blocks, byteLen := left.byteLen } =
        inodes := by
  have hleftLen := (h.fileEnd hpair.left_mem hpair.left_kind).1.byteLen_of_nil
    hleft
  have hrightLen :=
    (h.fileEnd hpair.right_mem hpair.right_kind).1.byteLen_of_nil hright
  have hsame : ({ left with blocks := right.blocks, byteLen := right.byteLen } :
      PersistedInode) = left := by
    rw [hright, hrightLen, ← hleft, ← hleftLen]
  have hsame' : ({ right with blocks := left.blocks, byteLen := left.byteLen } :
      PersistedInode) = right := by
    rw [hleft, hleftLen, ← hright, ← hrightLen]
  rw [hsame, hsame', setPair, setInode_self h.nodup_ids hpair.left_mem,
    setInode_self h.nodup_ids hpair.right_mem]

/-- `exchange_complete_file_blocks_journaled` on a mounted disk. -/
theorem Mounted.exchangeCompleteFileBlocks
    (h : Mounted d sb a inodes entries) (leftInode rightInode : UInt64) :
    Rearranging (exchangeCompleteFileBlocksJournaled sb leftInode rightInode) d
      sb a inodes entries fun inodes' =>
        (BlockMove.exchangeComplete leftInode rightInode).Asks inodes
          inodes' := by
  apply Rearranging.check
  · intro inodes' hasks
    rcases hasks.1 with ⟨_, _, hpair, _⟩
    exact ⟨(), rejectIf_of_not hpair.ne⟩
  intro _ hne
  rw [rejectIf_eq_ok] at hne
  apply h.rearranging_loads
  apply Rearranging.check
  · intro inodes' hasks
    rcases hasks.1 with ⟨left, right, hpair, _⟩
    exact ⟨_, (h.exchangeCompleteBlocks_iff hne).mpr ⟨left, right, hpair, rfl⟩⟩
  intro planned hplanned
  obtain ⟨left, right, hpair, rfl⟩ :=
    (h.exchangeCompleteBlocks_iff hne).mp hplanned
  have hasks : (BlockMove.exchangeComplete leftInode rightInode).Asks inodes
      (setPair inodes
        { left with blocks := right.blocks, byteLen := right.byteLen }
        { right with blocks := left.blocks, byteLen := left.byteLen }) :=
    ⟨⟨left, right, hpair, rfl⟩, hpair.valid_exchanged h.toAtRest⟩
  have hunique : ∀ other, (BlockMove.exchangeComplete leftInode rightInode).Asks
      inodes other ↔ other = setPair inodes
        { left with blocks := right.blocks, byteLen := right.byteLen }
        { right with blocks := left.blocks, byteLen := left.byteLen } := by
    intro other
    constructor
    · intro hother
      rcases hother.1 with ⟨left', right', hpair', rfl⟩
      have hleft := (hpair'.find_left h.toAtRest).symm.trans
        (hpair.find_left h.toAtRest)
      have hright := (hpair'.find_right h.toAtRest).symm.trans
        (hpair.find_right h.toAtRest)
      rw [Option.some.inj hleft, Option.some.inj hright]
    · intro heq
      rw [heq]
      exact hasks
  by_cases hempty : left.blocks = [] ∧ right.blocks = []
  · rw [if_pos hempty]
    rw [hpair.setPair_empty h.toAtRest hempty.1 hempty.2] at hunique
    exact h.rearranging_pure RecoveryReport.default hunique
  · rw [if_neg hempty]
    apply h.rearranging_publish hasks.2 _ hunique _
      (publishesChanges_changes sb _)
    apply hpair.setPair_ne h.nodup_ids (by rfl) (by rfl)
      (by exact hpair.left_kind) (by exact hpair.right_kind)
    intro hsame
    have hblocks : right.blocks = left.blocks := hsame
    have hnil : left.blocks = [] := by
      apply List.eq_nil_iff_forall_not_mem.mpr
      intro block hblock
      exact hpair.disjoint h.owned hblock (by rw [hblocks]; exact hblock)
    exact hempty ⟨hnil, hblocks.trans hnil⟩

/-- **What the calls do**: each publishes the table that it asks for. -/
theorem Mounted.blockMove (h : Mounted d sb a inodes entries) (m : BlockMove) :
    Rearranging (m.run sb) d sb a inodes entries fun inodes' =>
      m.Asks inodes inodes' := by
  cases m with
  | exchange leftInode i rightInode k count =>
    exact h.exchangeFileBlockRanges leftInode i rightInode k count
  | exchangeVariable left right =>
    exact h.exchangeVariableFileBlockRanges left right
  | exchangeSame first second => exact h.exchangeSameFileBlockRanges first second
  | exchangeComplete leftInode rightInode =>
    exact h.exchangeCompleteFileBlocks leftInode rightInode
  | transfer sourceInode i count destinationInode k =>
    exact (h.transferFileBlockRange sourceInode i count destinationInode k).map
      fun _ _ => rfl
  | move id i count k =>
    exact (h.moveFileBlockRange id i count k).map fun _ _ => rfl

end Calls

end FilesystemLab
