import FilesystemLab.BlockExchange

/-!
# The tables of exchanges and transfers

On a mounted filesystem, a call of `BlockExchange` computes the inode table that
it asks for, or rejects its arguments.

* `PersistedInode.withBlocks` gives a valid inode for every list of blocks of
  the right kind, and twice gives the first inode again.
* `FilePair` is about two files of one table that change together.
* one lemma for each call: `BlockMove.Asks` is when its plan succeeds.
-/

namespace FilesystemLab

open WriteLog Splice

/-! ## Files with other blocks -/

namespace PersistedInode

variable {inode inode' : PersistedInode} {blocks displaced replacements : List UInt64}
  {start stop : Nat}

/-- A file without blocks ends at zero. -/
theorem FileEnd.byteLen_of_nil (hend : inode.FileEnd)
    (hnil : inode.blocks = []) : inode.byteLen = 0 := by
  have hle := hend.le_capacity
  rw [hnil, List.length_nil, Nat.zero_mul, Nat.le_zero] at hle
  exact UInt64.toNat_inj.mp hle

/-- **Which regular files are valid.** -/
theorem valid_iff (hkind : inode.kind = .file) :
    inode.Valid ↔ inode.id ≠ 0 ∧ inode.blocks.Nodup ∧ inode.FileEnd ∧
      inode.blocks.length * BLOCK_SIZE < U64_LIMIT := by
  constructor
  · intro h
    obtain ⟨hend, hcapacity⟩ := fileEnd_of_validate hkind h
    refine ⟨?_, nodup_of_validate h, hend, hcapacity⟩
    simp only [Valid, validateInodeFields, Except.bind_eq_ok, rejectIf_eq_ok]
      at h
    obtain ⟨_, hid, _⟩ := h
    exact hid
  · intro hfacts
    rcases hfacts with ⟨hid, hnodup, hend, hcapacity⟩
    have hle := hend.le_capacity
    have hlt := hend.capacity_lt
    simp only [Valid, validateInodeFields, Except.bind_eq_ok, rejectIf_eq_ok,
      blockCapacity]
    refine ⟨(), hid, (), not_not.mpr hnodup, ?_⟩
    rw [if_neg (not_not.mpr hkind)]
    simp only [Except.bind_eq_ok, okOr_eq_ok, checkedMul_eq_some]
    refine ⟨_, ⟨hcapacity, rfl⟩, ?_⟩
    by_cases hnil : inode.blocks = []
    · rw [if_pos hnil, hend.byteLen_of_nil hnil]
      rfl
    · have hone : 1 * BLOCK_SIZE ≤ inode.blocks.length * BLOCK_SIZE :=
        Nat.mul_le_mul_right BLOCK_SIZE (List.length_pos_iff.mpr hnil)
      have hpos : inode.byteLen ≠ 0 := by
        intro hzero
        rw [hzero] at hlt
        have : (0 : UInt64).toNat = 0 := rfl
        omega
      rw [if_neg hnil, validateFileEnd, if_neg fun hc => hpos hc.1]
      have hinside : ¬ (inode.byteLen = 0 ∨ inode.byteLen.toNat >
          inode.blocks.length * BLOCK_SIZE) := by
        intro hbad
        rcases hbad with hzero | hgt
        · exact hpos hzero
        · omega
      have hlast : ¬ inode.byteLen.toNat ≤
          inode.blocks.length * BLOCK_SIZE - BLOCK_SIZE := by omega
      rw [rejectIf_of_not hinside, Except.ok_bind, rejectIf_of_not hlast]
      rfl

/-- As many distinct blocks in the place of the old ones. -/
theorem Valid.of_length (h : inode.Valid) (hkind : inode.kind = .file)
    (hnodup : blocks.Nodup) (hlen : blocks.length = inode.blocks.length) :
    Valid { inode with blocks } := by
  obtain ⟨hid, _, hend, hcapacity⟩ := (valid_iff hkind).mp h
  refine (valid_iff (by exact hkind)).mpr ⟨hid, hnodup, ⟨?_, ?_⟩, ?_⟩
  · show _ ≤ blocks.length * BLOCK_SIZE
    rw [hlen]
    exact hend.le_capacity
  · show blocks.length * BLOCK_SIZE < _
    rw [hlen]
    exact hend.capacity_lt
  · show blocks.length * BLOCK_SIZE < _
    rw [hlen]
    exact hcapacity

/-- The blocks and the end of another valid file. -/
theorem Valid.of_other (h : inode.Valid) (hkind : inode.kind = .file)
    (h' : inode'.Valid) (hkind' : inode'.kind = .file) :
    Valid { inode with blocks := inode'.blocks, byteLen := inode'.byteLen } := by
  obtain ⟨hid, _⟩ := (valid_iff hkind).mp h
  obtain ⟨_, hnodup, hend, hcapacity⟩ := (valid_iff hkind').mp h'
  exact (valid_iff (by exact hkind)).mpr
    ⟨hid, hnodup, ⟨hend.le_capacity, hend.capacity_lt⟩, hcapacity⟩

/-- Less than a block of a file is unused. -/
theorem Valid.tailSlack_lt (h : inode.Valid) (hkind : inode.kind = .file) :
    inode.tailSlack < BLOCK_SIZE := by
  obtain ⟨_, _, hend, _⟩ := (valid_iff hkind).mp h
  have hlt := hend.capacity_lt
  have hpos := blockSize_pos
  unfold tailSlack
  omega

/-- **When `replace_block_range` succeeds**, on a valid file. -/
theorem replaceBlockRange_iff (h : inode.Valid) (hkind : inode.kind = .file) :
    inode.replaceBlockRange start stop replacements = .ok (displaced, inode') ↔
      start ≤ stop ∧ stop ≤ inode.blocks.length ∧
        displaced = segment inode.blocks start stop ∧
        inode' = inode.withBlocks (splice inode.blocks start stop replacements) ∧
        inode'.Valid := by
  constructor
  · intro hedit
    obtain ⟨hstart, hstop, hdisplaced, hid, hkind', hblocks, hlen, hvalid⟩ :=
      replaceBlockRange_eq_ok hkind h hedit
    refine ⟨hstart, hstop, hdisplaced, ?_,
      validateInodeFields_canonical hvalid true⟩
    have hbyteLen : inode'.byteLen = UInt64.ofNat (if inode'.blocks = [] then 0
        else inode'.blocks.length * BLOCK_SIZE - inode.tailSlack) := by
      rw [← hlen, UInt64.ofNat_toNat]
    rw [hblocks] at hbyteLen
    cases inode' with
    | mk id kind blocks byteLen =>
      simp only [withBlocks, mk.injEq]
      exact ⟨hid, hkind'.trans hkind.symm, hblocks, hbyteLen⟩
  · intro hfacts
    rcases hfacts with ⟨hstart, hstop, rfl, rfl, hvalid⟩
    obtain ⟨_, _, hend, hcapacity⟩ := (valid_iff hkind).mp h
    obtain ⟨_, _, _, hcapacity'⟩ := (valid_iff (by exact hkind)).mp hvalid
    have hslack := h.tailSlack_lt hkind
    have hcandidate : replacedByteLen inode.kind
        (splice inode.blocks start stop replacements) inode.tailSlack =
          .ok (if splice inode.blocks start stop replacements = [] then 0
            else (splice inode.blocks start stop replacements).length *
              BLOCK_SIZE - inode.tailSlack) := by
      unfold replacedByteLen
      rw [if_pos hkind]
      split
      · rfl
      · rename_i hcons
        have hone : 1 * BLOCK_SIZE ≤
            (splice inode.blocks start stop replacements).length * BLOCK_SIZE :=
          Nat.mul_le_mul_right BLOCK_SIZE (List.length_pos_iff.mpr hcons)
        simp only [blockCapacity, Except.bind_eq_ok, liftMessage_eq_ok,
          okOr_eq_ok, checkedMul_eq_some, checkedSub_eq_some]
        exact ⟨_, ⟨hcapacity', rfl⟩, by omega, rfl⟩
    have hlen : inode.canonicalByteLen = .ok inode.byteLen :=
      liftMessage_eq_ok.mpr h
    simp only [replaceBlockRange, hlen, Except.bind_eq_ok, rejectIf_eq_ok,
      liftMessage_eq_ok, blockCapacity, okOr_eq_ok, checkedMul_eq_some,
      checkedSub_eq_some, Except.pure_eq_ok]
    exact ⟨(), by omega, _, rfl, _, ⟨hcapacity, rfl⟩, inode.tailSlack,
      ⟨hend.le_capacity, rfl⟩, _, hcandidate, _,
      validateInodeFields_canonical hvalid false, rfl⟩

/-- A valid file with other blocks is valid, if these are. -/
theorem Valid.of_withBlocks (h : inode.Valid) (hkind : inode.kind = .file)
    (hnodup : blocks.Nodup) (hcapacity : blocks.length * BLOCK_SIZE < U64_LIMIT) :
    (inode.withBlocks blocks).Valid := by
  obtain ⟨hid, _⟩ := (valid_iff hkind).mp h
  have hslack := h.tailSlack_lt hkind
  have hpos := blockSize_pos
  have hlen : (inode.withBlocks blocks).byteLen.toNat = if blocks = [] then 0
      else blocks.length * BLOCK_SIZE - inode.tailSlack :=
    UInt64.toNat_ofNat_of_lt' (show _ < U64_LIMIT by split <;> omega)
  refine (valid_iff (by exact hkind)).mpr ⟨hid, hnodup, ⟨?_, ?_⟩, hcapacity⟩
  · show (inode.withBlocks blocks).byteLen.toNat ≤ blocks.length * BLOCK_SIZE
    rw [hlen]
    split <;> omega
  · show blocks.length * BLOCK_SIZE <
      (inode.withBlocks blocks).byteLen.toNat + BLOCK_SIZE
    rw [hlen]
    split
    · rename_i hnil
      rw [hnil, List.length_nil]
      omega
    · omega

/-- **The old blocks come back with the old end**, if there were some in
between. -/
theorem Valid.withBlocks_withBlocks (h : inode.Valid) (hkind : inode.kind = .file)
    (h' : (inode.withBlocks blocks).Valid) (hne : blocks ≠ [])
    (hold : inode.blocks ≠ []) :
    (inode.withBlocks blocks).withBlocks inode.blocks = inode := by
  obtain ⟨_, _, hend, _⟩ := (valid_iff hkind).mp h
  obtain ⟨_, _, _, hcapacity⟩ := (valid_iff (by exact hkind)).mp h'
  have hcapacity : blocks.length * BLOCK_SIZE < U64_LIMIT := hcapacity
  have hlt := h.tailSlack_lt hkind
  have hle := hend.le_capacity
  have hone : 1 * BLOCK_SIZE ≤ blocks.length * BLOCK_SIZE :=
    Nat.mul_le_mul_right BLOCK_SIZE (List.length_pos_iff.mpr hne)
  have hlen : (inode.withBlocks blocks).byteLen.toNat =
      blocks.length * BLOCK_SIZE - inode.tailSlack := by
    show (UInt64.ofNat (if blocks = [] then _ else _)).toNat = _
    rw [if_neg hne]
    exact UInt64.toNat_ofNat_of_lt' (show _ < U64_LIMIT by omega)
  have hslack : (inode.withBlocks blocks).tailSlack = inode.tailSlack := by
    show blocks.length * BLOCK_SIZE - (inode.withBlocks blocks).byteLen.toNat = _
    rw [hlen]
    omega
  have hend' : UInt64.ofNat (if inode.blocks = [] then 0 else
      inode.blocks.length * BLOCK_SIZE - (inode.withBlocks blocks).tailSlack) =
        inode.byteLen := by
    rw [if_neg hold, hslack, tailSlack, Nat.sub_sub_self hle, UInt64.ofNat_toNat]
  unfold withBlocks at hend' ⊢
  rw [hend']

/-- **A file takes over the blocks and the end of another one.** -/
theorem takeOver (h : inode.Valid) (hkind : inode.kind = .file)
    (h' : inode'.Valid) (hkind' : inode'.kind = .file) :
    ∃ edited, inode.replaceBlockRange 0 inode.blocks.length inode'.blocks =
        .ok (inode.blocks, edited) ∧
      edited.setFileByteLen inode'.byteLen =
        .ok { inode with blocks := inode'.blocks, byteLen := inode'.byteLen } := by
  obtain ⟨_, hnodup, _, hcapacity⟩ := (valid_iff hkind').mp h'
  refine ⟨inode.withBlocks inode'.blocks,
    (replaceBlockRange_iff h hkind).mpr ⟨Nat.zero_le _, Nat.le_refl _, ?_, ?_,
      h.of_withBlocks hkind hnodup hcapacity⟩,
    setFileByteLen_eq_ok.mpr ⟨rfl, hkind,
      validateInodeFields_canonical (h.of_other hkind h' hkind') false⟩⟩
  · rw [segment_length]
  · rw [splice_length]

end PersistedInode

/-! ## Owned blocks -/

section Checks

variable {a : BlockAllocator} {blocks seen destination : List UInt64}

/-- Distinct owned blocks pass the loops. -/
theorem requireDistinctOwned_of_owned {duplicate unowned : String}
    (hnodup : blocks.Nodup) (hseen : ∀ block ∈ blocks, block ∉ seen)
    (howned : ∀ block ∈ blocks, a.flag block.toNat = true) :
    requireDistinctOwned duplicate unowned a seen blocks = .ok () := by
  induction blocks generalizing seen with
  | nil => rfl
  | cons block blocks ih =>
    rw [List.nodup_cons] at hnodup
    rw [List.forall_mem_cons] at hseen howned
    have hrange := BlockAllocator.range_of_flag howned.1
    have hisOwned := BlockAllocator.isOwned_of_data hrange.1 hrange.2
    rw [requireDistinctOwned, rejectIf_of_not hseen.1, Except.ok_bind,
      liftAllocation_eq_ok.mpr hisOwned, Except.ok_bind, howned.1,
      rejectIf_of_not (by decide), Except.ok_bind]
    apply ih hnodup.2 _ howned.2
    intro other hother hmem
    rcases List.mem_cons.mp hmem with rfl | hmem
    · exact hnodup.1 hother
    · exact hseen.2 other hother hmem

/-- Owned blocks of another file pass the loop of the transfer. -/
theorem validateMovedBlocks_of_owned
    (hapart : ∀ block ∈ blocks, block ∉ destination)
    (howned : ∀ block ∈ blocks, a.flag block.toNat = true) :
    validateMovedBlocks a destination blocks = .ok () := by
  induction blocks with
  | nil => rfl
  | cons block blocks ih =>
    rw [List.forall_mem_cons] at hapart howned
    have hrange := BlockAllocator.range_of_flag howned.1
    have hisOwned := BlockAllocator.isOwned_of_data hrange.1 hrange.2
    rw [validateMovedBlocks, liftAllocation_eq_ok.mpr hisOwned, Except.ok_bind,
      howned.1, rejectIf_of_not (by decide), Except.ok_bind,
      rejectIf_of_not hapart.1, Except.ok_bind]
    exact ih hapart.2 howned.2

end Checks

/-! ## Two files of a table -/

theorem AtRest.validTable {d : Disk} {sb : Superblock} {a : BlockAllocator}
    {inodes : List PersistedInode} {entries : List PersistedDirectoryEntry}
    (h : AtRest d sb a inodes entries) : Valid inodes :=
  fun _ hmem => h.validate hmem

namespace FilePair

variable {d : Disk} {sb : Superblock} {a : BlockAllocator}
  {inodes : List PersistedInode} {entries : List PersistedDirectoryEntry}
  {leftInode rightInode : UInt64} {left right left' right' : PersistedInode}
  {freed : List UInt64} (hpair : FilePair inodes leftInode rightInode left right)

include hpair

theorem ids_ne : left.id ≠ right.id := by
  rw [hpair.left_id, hpair.right_id]
  exact hpair.ne

theorem find_left (h : AtRest d sb a inodes entries) :
    findInode inodes leftInode = some left := by
  rw [← hpair.left_id]
  exact findInode_of_mem h.nodup_ids hpair.left_mem

theorem find_right (h : AtRest d sb a inodes entries) :
    findInode inodes rightInode = some right := by
  rw [← hpair.right_id]
  exact findInode_of_mem h.nodup_ids hpair.right_mem

/-- Two files share no block. -/
theorem disjoint (howned : Owned sb a inodes) :
    left.blocks.Disjoint right.blocks := by
  intro block hleft hright
  exact hpair.ids_ne (congrArg PersistedInode.id
    (howned.eq_of_shared hpair.left_mem hpair.right_mem hleft hright))

/-- The blocks of the two files are distinct. -/
theorem nodup (h : Mounted d sb a inodes entries) :
    (left.blocks ++ right.blocks).Nodup := by
  rw [List.nodup_append']
  exact ⟨PersistedInode.nodup_of_validate (h.validate hpair.left_mem),
    PersistedInode.nodup_of_validate (h.validate hpair.right_mem),
    hpair.disjoint h.owned⟩

/-- The blocks of the two files pass the check of their owners. -/
theorem requireOwned (h : Mounted d sb a inodes entries)
    (duplicate unowned : String) :
    requireDistinctOwned duplicate unowned a []
      (left.blocks ++ right.blocks) = .ok () := by
  apply requireDistinctOwned_of_owned (hpair.nodup h)
  · exact fun _ _ => List.not_mem_nil
  · intro block hblock
    rcases List.mem_append.mp hblock with hleft | hright
    · exact h.owned.data left hpair.left_mem block hleft
    · exact h.owned.data right hpair.right_mem block hright

variable (hids : (inodes.map PersistedInode.id).Nodup)
  (hlid : left'.id = left.id) (hrid : right'.id = right.id)

include hids hlid hrid

/-- What is in the table with two other inodes. -/
theorem mem_setPair {inode : PersistedInode} :
    inode ∈ setPair inodes left' right' ↔ inode = right' ∨ inode = left' ∨
      inode ∈ inodes ∧ inode.id ≠ left.id ∧ inode.id ≠ right.id := by
  have hids' : ((setInode inodes left').map PersistedInode.id).Nodup := by
    rw [map_id_setInode hids]
    exact hids
  have hmid : right ∈ setInode inodes left' :=
    (mem_setInode hids hpair.left_mem hlid).mpr
      (.inr ⟨hpair.right_mem, by rw [hlid]; exact hpair.ids_ne.symm⟩)
  have hne := hpair.ids_ne
  rw [setPair, mem_setInode hids' hmid hrid,
    mem_setInode hids hpair.left_mem hlid, hlid, hrid]
  constructor
  · intro hcases
    rcases hcases with hright | ⟨hleft | ⟨hold, hl⟩, hr⟩
    · exact .inl hright
    · exact .inr (.inl hleft)
    · exact .inr (.inr ⟨hold, hl, hr⟩)
  · intro hcases
    rcases hcases with hright | rfl | ⟨hold, hl, hr⟩
    · exact .inl hright
    · exact .inr ⟨.inl rfl, by rw [hlid]; exact hne⟩
    · exact .inr ⟨.inr ⟨hold, hl⟩, hr⟩

/-- The two inodes are set back. -/
theorem undo : setPair (setPair inodes left' right') left right = inodes :=
  setInode_undo_two hids hpair.left_mem hpair.right_mem hpair.ids_ne hlid hrid

/-- The valid tables with two other inodes. -/
theorem valid_setPair (h : Valid inodes) :
    Valid (setPair inodes left' right') ↔ left'.Valid ∧ right'.Valid := by
  constructor
  · intro hvalid
    exact ⟨hvalid _ ((hpair.mem_setPair hids hlid hrid).mpr (.inr (.inl rfl))),
      hvalid _ ((hpair.mem_setPair hids hlid hrid).mpr (.inl rfl))⟩
  · intro hboth inode hinode
    rcases (hpair.mem_setPair hids hlid hrid).mp hinode with rfl | rfl |
      ⟨hold, _⟩
    · exact hboth.2
    · exact hboth.1
    · exact h inode hold

variable (hlkind : left'.kind = .file) (hrkind : right'.kind = .file)

include hlkind hrkind

/-- They are two files of the new table. -/
theorem next : FilePair (setPair inodes left' right') leftInode rightInode left'
    right' :=
  ⟨(hpair.mem_setPair hids hlid hrid).mpr (.inr (.inl rfl)),
    (hpair.mem_setPair hids hlid hrid).mpr (.inl rfl),
    hlid.trans hpair.left_id, hrid.trans hpair.right_id, hlkind, hrkind,
    hpair.ne⟩

/-- Two files that trade blocks. -/
theorem reassigned (hperm : (left'.blocks ++ right'.blocks ++ freed).Perm
      (left.blocks ++ right.blocks)) :
    Reassigned inodes (setPair inodes left' right') freed :=
  reassigned_setInode_two hids hpair.left_mem hpair.right_mem hpair.ids_ne hlid
    hrid hpair.left_kind hpair.right_kind hlkind hrkind hperm

/-- A table with another left file is another table. -/
theorem setPair_ne (hblocks : left'.blocks ≠ left.blocks) :
    setPair inodes left' right' ≠ inodes := by
  intro hsame
  have hmem := (hpair.next hids hlid hrid hlkind hrkind).left_mem
  rw [hsame] at hmem
  have heq := List.inj_on_of_nodup_map hids hmem hpair.left_mem hlid
  exact hblocks (congrArg PersistedInode.blocks heq)

end FilePair

/-! ## The tables that the calls compute -/

section Plans

variable {d : Disk} {sb : Superblock} {a : BlockAllocator}
  {inodes inodes' : List PersistedInode} {entries : List PersistedDirectoryEntry}
  {leftInode rightInode id : UInt64} {i k count : Nat}

/-- A rearrangement whose inodes are valid is what the call computes. -/
def BlockMove.Asks (inodes inodes' : List PersistedInode) (m : BlockMove) :
    Prop :=
  m.Rearranges inodes inodes' ∧ Valid inodes'

/-- An index inside a file can be computed. -/
theorem Mounted.checkedAdd_eq (h : Mounted d sb a inodes entries)
    {inode : PersistedInode} (hmem : inode ∈ inodes)
    (hkind : inode.kind = .file) (hinside : i + count ≤ inode.blocks.length) :
    checkedAdd i count = some (i + count) := by
  have hcapacity := (h.fileEnd hmem hkind).2
  rw [checkedAdd_eq_some]
  rw [blockSize_eq] at hcapacity
  exact ⟨by omega, rfl⟩

/-- The equal ranges of two files are exchanged. -/
theorem Mounted.exchangeRanges_iff (h : Mounted d sb a inodes entries)
    (hne : leftInode ≠ rightInode) (hcount : count ≠ 0) :
    exchangeRanges a inodes leftInode i rightInode k count = .ok inodes' ↔
      (BlockMove.exchange leftInode i rightInode k count).Asks inodes
        inodes' := by
  simp only [exchangeRanges, Except.bind_eq_ok, okOr_eq_ok, rejectIf_eq_ok,
    not_or, not_ne_iff, Except.pure_eq_ok, Except.ok.injEq, BlockMove.Asks,
    BlockMove.Rearranges]
  constructor
  · intro hfacts
    rcases hfacts with ⟨left, hleft, right, hright, _, hkinds, _, hi, _, hk, _,
      hinside, _, _, rfl⟩
    rw [checkedAdd_eq_some] at hi hk
    obtain ⟨_, rfl⟩ := hi
    obtain ⟨_, rfl⟩ := hk
    obtain ⟨hlmem, hlid⟩ := findInode_eq_some hleft
    obtain ⟨hrmem, hrid⟩ := findInode_eq_some hright
    have hpair : FilePair inodes leftInode rightInode left right :=
      ⟨hlmem, hrmem, hlid, hrid, hkinds.1, hkinds.2, hne⟩
    have hi : i + count ≤ left.blocks.length := by omega
    have hk : k + count ≤ right.blocks.length := by omega
    refine ⟨⟨left, right, hpair, hcount, hi, hk, rfl⟩, ?_⟩
    -- the new lists are as long as the old ones, and together a permutation
    have hperm := exchange_perm left.blocks right.blocks
      (Nat.le_add_right i count) (Nat.le_add_right k count)
    have hnodup := hperm.nodup_iff.mpr (hpair.nodup h)
    have hlen := length_splice (Nat.le_add_right i count) hi
      (segment right.blocks k (k + count))
    have hlen' := length_splice (Nat.le_add_right k count) hk
      (segment left.blocks i (i + count))
    rw [length_segment hk] at hlen
    rw [length_segment hi] at hlen'
    apply (hpair.valid_setPair h.nodup_ids (by rfl) (by rfl) h.validTable).mpr
    exact ⟨(h.validTable left hlmem).of_length hkinds.1 hnodup.of_append_left
        (by omega),
      (h.validTable right hrmem).of_length hkinds.2 hnodup.of_append_right
        (by omega)⟩
  · intro hfacts
    rcases hfacts with ⟨⟨left, right, hpair, _, hi, hk, rfl⟩, _⟩
    exact ⟨left, hpair.find_left h.toAtRest, right, hpair.find_right h.toAtRest,
      (), ⟨hpair.left_kind, hpair.right_kind⟩, _,
      h.checkedAdd_eq hpair.left_mem hpair.left_kind hi, _,
      h.checkedAdd_eq hpair.right_mem hpair.right_kind hk, (), by omega, (),
      hpair.requireOwned h _ _, rfl⟩

/-- The ranges of two files are exchanged, whatever their lengths. -/
theorem Mounted.exchangeVariableRanges_iff (h : Mounted d sb a inodes entries)
    {first second : FileBlockExchangeRange} :
    exchangeVariableRanges a inodes first second = .ok inodes' ↔
      (BlockMove.exchangeVariable first second).Asks inodes inodes' := by
  simp only [exchangeVariableRanges, validateVariableExchangeRanges,
    FileBlockExchangeRange.exchangeRangeEnd, exchangeInode, Except.bind_eq_ok,
    okOr_eq_ok, rejectIf_eq_ok, not_or, not_ne_iff, Except.pure_eq_ok,
    Except.ok.injEq, BlockMove.Asks, BlockMove.Rearranges]
  constructor
  · intro hfacts
    rcases hfacts with ⟨_, ⟨_, hne, firstEnd, ⟨_, hfirst, hi⟩, secondEnd,
      ⟨_, hsecond, hk⟩, left, hleft, right, hright, _, hkinds, _, hinside, rfl⟩,
      _, _, ⟨_, left'⟩, hnewLeft, ⟨_, right'⟩, hnewRight, rfl⟩
    rw [checkedAdd_eq_some] at hi hk
    obtain ⟨_, rfl⟩ := hi
    obtain ⟨_, rfl⟩ := hk
    obtain ⟨hlmem, hlid⟩ := findInode_eq_some hleft
    obtain ⟨hrmem, hrid⟩ := findInode_eq_some hright
    have hpair : FilePair inodes first.inode second.inode left right :=
      ⟨hlmem, hrmem, hlid, hrid, hkinds.1, hkinds.2, hne⟩
    simp only at hnewLeft hnewRight
    rw [PersistedInode.replaceBlockRange_iff (h.validTable left hlmem) hkinds.1]
      at hnewLeft
    rw [PersistedInode.replaceBlockRange_iff (h.validTable right hrmem) hkinds.2]
      at hnewRight
    rcases hnewLeft with ⟨_, hi, _, rfl, hvalid⟩
    rcases hnewRight with ⟨_, hk, _, rfl, hvalid'⟩
    refine ⟨⟨left, right, hpair, hfirst, hsecond, hi, hk, rfl⟩, ?_⟩
    exact (hpair.valid_setPair h.nodup_ids (by rfl) (by rfl) h.validTable).mpr
      ⟨hvalid, hvalid'⟩
  · intro hfacts
    rcases hfacts with ⟨⟨left, right, hpair, hfirst, hsecond, hi, hk, rfl⟩,
      hvalid⟩
    have hboth := (hpair.valid_setPair h.nodup_ids (by rfl) (by rfl)
      h.validTable).mp hvalid
    have hnewLeft : left.replaceBlockRange first.start first.stop
        (segment right.blocks second.start second.stop) = .ok (_, _) :=
      (PersistedInode.replaceBlockRange_iff
        (h.validTable left hpair.left_mem) hpair.left_kind).mpr
        ⟨Nat.le_add_right _ _, hi, rfl, rfl, hboth.1⟩
    have hnewRight : right.replaceBlockRange second.start second.stop
        (segment left.blocks first.start first.stop) = .ok (_, _) :=
      (PersistedInode.replaceBlockRange_iff
        (h.validTable right hpair.right_mem) hpair.right_kind).mpr
        ⟨Nat.le_add_right _ _, hk, rfl, rfl, hboth.2⟩
    refine ⟨(left, first.stop, right, second.stop),
      ⟨(), hpair.ne, _, ⟨(), hfirst,
        h.checkedAdd_eq hpair.left_mem hpair.left_kind hi⟩, _,
        ⟨(), hsecond, h.checkedAdd_eq hpair.right_mem hpair.right_kind hk⟩, left,
        hpair.find_left h.toAtRest, right, hpair.find_right h.toAtRest, (),
        ⟨hpair.left_kind, hpair.right_kind⟩, (), ?_, rfl⟩, (),
      hpair.requireOwned h _ _, _, hnewLeft, _, hnewRight, rfl⟩
    unfold FileBlockExchangeRange.stop at hi hk
    omega

/-- One inode of a valid table, and its table with another one. -/
theorem valid_setInode {inode inode' : PersistedInode} (h : Valid inodes)
    (hids : (inodes.map PersistedInode.id).Nodup) (hmem : inode ∈ inodes)
    (hid : inode'.id = inode.id) :
    Valid (setInode inodes inode') ↔ inode'.Valid := by
  constructor
  · intro hvalid
    exact hvalid inode' ((mem_setInode hids hmem hid).mpr (.inl rfl))
  · intro hnew other hother
    rcases (mem_setInode hids hmem hid).mp hother with rfl | ⟨hold, _⟩
    · exact hnew
    · exact h other hold

/-- A file whose blocks are reordered is valid. -/
theorem Mounted.valid_reordered (h : Mounted d sb a inodes entries)
    {inode : PersistedInode} (hmem : inode ∈ inodes)
    (hkind : inode.kind = .file) {blocks : List UInt64}
    (hperm : blocks.Perm inode.blocks) :
    Valid (setInode inodes { inode with blocks }) := by
  have hvalid := h.validTable inode hmem
  apply (valid_setInode h.validTable h.nodup_ids hmem (by rfl)).mpr
  apply hvalid.of_length hkind _ hperm.length_eq
  rw [hperm.nodup_iff]
  exact PersistedInode.nodup_of_validate hvalid

/-- The blocks of a file pass the check of their owners. -/
theorem Mounted.requireOwned (h : Mounted d sb a inodes entries)
    {inode : PersistedInode} (hmem : inode ∈ inodes)
    (duplicate unowned : String) :
    requireDistinctOwned duplicate unowned a [] inode.blocks = .ok () := by
  apply requireDistinctOwned_of_owned
  · exact PersistedInode.nodup_of_validate (h.validate hmem)
  · exact fun _ _ => List.not_mem_nil
  · exact h.owned.data inode hmem

/-- Two ranges of one file are exchanged. -/
theorem Mounted.exchangeSameRanges_iff (h : Mounted d sb a inodes entries)
    {earlier later : FileBlockExchangeRange}
    (horder : earlier.stop ≤ later.start) :
    exchangeSameRanges a inodes id earlier.start earlier.stop later.start
        later.stop = .ok inodes' ↔
      (∃ inode ∈ inodes, inode.id = id ∧ inode.kind = .file ∧
        later.stop ≤ inode.blocks.length ∧
        inodes' = setInode inodes
          { inode with blocks := swapSegments inode.blocks earlier.start
                        earlier.stop later.start later.stop }) ∧
      Valid inodes' := by
  simp only [exchangeSameRanges, exchangeInode, Except.bind_eq_ok, okOr_eq_ok,
    rejectIf_eq_ok, not_ne_iff, Except.pure_eq_ok, Except.ok.injEq]
  constructor
  · intro hfacts
    rcases hfacts with ⟨inode, hfind, _, hkind, _, hinside, _, _, rfl⟩
    obtain ⟨hmem, hid⟩ := findInode_eq_some hfind
    refine ⟨⟨inode, hmem, hid, hkind, by omega, rfl⟩, ?_⟩
    exact h.valid_reordered hmem hkind (swapSegments_perm
      (Nat.le_add_right _ _) horder (Nat.le_add_right _ _))
  · intro hfacts
    rcases hfacts with ⟨⟨inode, hmem, rfl, hkind, hinside, rfl⟩, _⟩
    exact ⟨inode, findInode_of_mem h.nodup_ids hmem, (), hkind, (), by omega, (),
      h.requireOwned hmem _ _, rfl⟩

/-- A range of a file is moved. -/
theorem Mounted.moveRange_iff (h : Mounted d sb a inodes entries)
    (hcount : count ≠ 0) {moved : List UInt64} :
    moveRange a inodes id i count k = .ok (moved, inodes') ↔
      (∃ inode ∈ inodes, inode.id = id ∧
        moved = segment inode.blocks i (i + count)) ∧
      (BlockMove.move id i count k).Asks inodes inodes' := by
  simp only [moveRange, Except.bind_eq_ok, okOr_eq_ok, rejectIf_eq_ok,
    not_ne_iff, Except.pure_eq_ok, Except.ok.injEq, Prod.mk.injEq,
    BlockMove.Asks, BlockMove.Rearranges]
  constructor
  · intro hfacts
    rcases hfacts with ⟨inode, hfind, _, hkind, _, hi, _, hinside, _, hk, _, hne,
      _, _, rfl, rfl⟩
    rw [checkedAdd_eq_some] at hi
    obtain ⟨_, rfl⟩ := hi
    obtain ⟨hmem, hid⟩ := findInode_eq_some hfind
    refine ⟨⟨inode, hmem, hid, rfl⟩, ⟨inode, hmem, hid, hkind, hcount, by omega,
      by omega, hne, rfl⟩, ?_⟩
    exact h.valid_reordered hmem hkind
      (move_perm inode.blocks (Nat.le_add_right i count) k)
  · intro hfacts
    rcases hfacts with ⟨⟨other, hother, hoid, rfl⟩, ⟨inode, hmem, hid, hkind, _,
      hi, hk, hne, rfl⟩, _⟩
    have hsame : other = inode :=
      List.inj_on_of_nodup_map h.nodup_ids hother hmem (hoid.trans hid.symm)
    subst hsame
    subst hid
    exact ⟨other, findInode_of_mem h.nodup_ids hmem, (), hkind, _,
      h.checkedAdd_eq hmem hkind hi, (), by omega, (), by omega, (), hne, (),
      h.requireOwned hmem _ _, rfl, rfl⟩

/-- A range goes from one file to another. -/
theorem Mounted.transferRange_iff (h : Mounted d sb a inodes entries)
    (hne : leftInode ≠ rightInode) (hcount : count ≠ 0) {moved : List UInt64} :
    transferRange a inodes leftInode i count rightInode k =
        .ok (moved, inodes') ↔
      (∃ inode ∈ inodes, inode.id = leftInode ∧
        moved = segment inode.blocks i (i + count)) ∧
      (BlockMove.transfer leftInode i count rightInode k).Asks inodes
        inodes' := by
  simp only [transferRange, Except.bind_eq_ok, okOr_eq_ok, rejectIf_eq_ok,
    not_or, not_ne_iff, Except.pure_eq_ok, Except.ok.injEq, Prod.mk.injEq,
    BlockMove.Asks, BlockMove.Rearranges]
  constructor
  · intro hfacts
    rcases hfacts with ⟨source, hsource, destination, hdestination, _, hkinds, _,
      hi, _, hinside, _, hk, _, _, ⟨_, source'⟩, hnewSource, ⟨_, destination'⟩,
      hnewDestination, rfl, rfl⟩
    rw [checkedAdd_eq_some] at hi
    obtain ⟨_, rfl⟩ := hi
    obtain ⟨hsmem, hsid⟩ := findInode_eq_some hsource
    obtain ⟨hdmem, hdid⟩ := findInode_eq_some hdestination
    have hpair : FilePair inodes leftInode rightInode source destination :=
      ⟨hsmem, hdmem, hsid, hdid, hkinds.1, hkinds.2, hne⟩
    rw [PersistedInode.replaceBlockRange_iff (h.validTable source hsmem)
      hkinds.1] at hnewSource
    rw [PersistedInode.replaceBlockRange_iff (h.validTable destination hdmem)
      hkinds.2] at hnewDestination
    rcases hnewSource with ⟨_, _, _, rfl, hvalid⟩
    rcases hnewDestination with ⟨_, _, _, rfl, hvalid'⟩
    refine ⟨⟨source, hsmem, hsid, rfl⟩, ⟨source, destination, hpair, hcount,
      by omega, by omega, rfl⟩, ?_⟩
    exact (hpair.valid_setPair h.nodup_ids (by rfl) (by rfl) h.validTable).mpr
      ⟨hvalid, hvalid'⟩
  · intro hfacts
    rcases hfacts with ⟨⟨other, hother, hoid, rfl⟩, ⟨source, destination, hpair,
      _, hi, hk, rfl⟩, hvalid⟩
    have hsame : other = source := List.inj_on_of_nodup_map h.nodup_ids hother
      hpair.left_mem (hoid.trans hpair.left_id.symm)
    subst hsame
    have hboth := (hpair.valid_setPair h.nodup_ids (by rfl) (by rfl)
      h.validTable).mp hvalid
    have hnewSource : other.replaceBlockRange i (i + count) [] = .ok (_, _) :=
      (PersistedInode.replaceBlockRange_iff
        (h.validTable other hpair.left_mem) hpair.left_kind).mpr
        ⟨Nat.le_add_right _ _, hi, rfl, rfl, hboth.1⟩
    have hnewDestination : destination.replaceBlockRange k k
        (segment other.blocks i (i + count)) = .ok (_, _) :=
      (PersistedInode.replaceBlockRange_iff
        (h.validTable destination hpair.right_mem) hpair.right_kind).mpr
        ⟨Nat.le_refl k, hk, rfl, rfl, hboth.2⟩
    have hmoved : validateMovedBlocks a destination.blocks
        (segment other.blocks i (i + count)) = .ok () := by
      apply validateMovedBlocks_of_owned
      · exact fun block hblock =>
          hpair.disjoint h.owned (mem_of_mem_segment hblock)
      · exact fun block hblock => h.owned.data other hpair.left_mem block
          (mem_of_mem_segment hblock)
    exact ⟨other, hpair.find_left h.toAtRest, destination,
      hpair.find_right h.toAtRest, (), ⟨hpair.left_kind, hpair.right_kind⟩, _,
      h.checkedAdd_eq hpair.left_mem hpair.left_kind hi, (), by omega, (),
      by omega, (), hmoved, _, hnewSource, _, hnewDestination, rfl, rfl⟩

/-- The tables with two files exchanged. -/
theorem FilePair.valid_exchanged {left right : PersistedInode}
    (hpair : FilePair inodes leftInode rightInode left right)
    (h : AtRest d sb a inodes entries) :
    Valid (setPair inodes
      { left with blocks := right.blocks, byteLen := right.byteLen }
      { right with blocks := left.blocks, byteLen := left.byteLen }) := by
  have hleft := h.validTable left hpair.left_mem
  have hright := h.validTable right hpair.right_mem
  apply (hpair.valid_setPair h.nodup_ids (by rfl) (by rfl) h.validTable).mpr
  exact ⟨hleft.of_other hpair.left_kind hright hpair.right_kind,
    hright.of_other hpair.right_kind hleft hpair.left_kind⟩

/-- The blocks and ends of two files are exchanged, unless both are empty. -/
theorem Mounted.exchangeCompleteBlocks_iff (h : Mounted d sb a inodes entries)
    (hne : leftInode ≠ rightInode) {planned : Option (List PersistedInode)} :
    exchangeCompleteBlocks a inodes leftInode rightInode = .ok planned ↔
      ∃ left right, FilePair inodes leftInode rightInode left right ∧
        planned = if left.blocks = [] ∧ right.blocks = [] then none
          else some (setPair inodes
            { left with blocks := right.blocks, byteLen := right.byteLen }
            { right with blocks := left.blocks, byteLen := left.byteLen }) := by
  have hplan : ∀ left right, FilePair inodes leftInode rightInode left right →
      exchangeCompleteBlocks a inodes leftInode rightInode =
        .ok (if left.blocks = [] ∧ right.blocks = [] then none
          else some (setPair inodes
            { left with blocks := right.blocks, byteLen := right.byteLen }
            { right with blocks := left.blocks, byteLen := left.byteLen })) := by
    intro left right hpair
    have hleft := h.validTable left hpair.left_mem
    have hright := h.validTable right hpair.right_mem
    obtain ⟨midLeft, hmidLeft, hnewLeft⟩ := PersistedInode.takeOver hleft
      hpair.left_kind hright hpair.right_kind
    obtain ⟨midRight, hmidRight, hnewRight⟩ := PersistedInode.takeOver hright
      hpair.right_kind hleft hpair.left_kind
    have hleftLen : left.canonicalByteLen = .ok left.byteLen :=
      liftMessage_eq_ok.mpr hleft
    have hrightLen : right.canonicalByteLen = .ok right.byteLen :=
      liftMessage_eq_ok.mpr hright
    have hkinds : ¬ (left.kind ≠ .file ∨ right.kind ≠ .file) := by
      rw [hpair.left_kind, hpair.right_kind]
      decide
    rw [exchangeCompleteBlocks, hpair.find_left h.toAtRest, okOr_some,
      Except.ok_bind, hpair.find_right h.toAtRest, okOr_some, Except.ok_bind,
      rejectIf_of_not hkinds, Except.ok_bind, hpair.requireOwned h,
      Except.ok_bind]
    split
    · rfl
    · rw [hleftLen, Except.ok_bind, hrightLen, Except.ok_bind, hmidLeft,
        Except.ok_bind, hmidRight, Except.ok_bind, hnewLeft, Except.ok_bind,
        hnewRight]
      rfl
  constructor
  · intro hok
    have hfacts := hok
    simp only [exchangeCompleteBlocks, Except.bind_eq_ok, okOr_eq_ok,
      rejectIf_eq_ok, not_or, not_ne_iff] at hfacts
    rcases hfacts with ⟨left, hleft, right, hright, _, hkinds, _⟩
    obtain ⟨hlmem, hlid⟩ := findInode_eq_some hleft
    obtain ⟨hrmem, hrid⟩ := findInode_eq_some hright
    have hpair : FilePair inodes leftInode rightInode left right :=
      ⟨hlmem, hrmem, hlid, hrid, hkinds.1, hkinds.2, hne⟩
    exact ⟨left, right, hpair,
      Except.ok.inj (hok.symm.trans (hplan left right hpair))⟩
  · intro hfacts
    rcases hfacts with ⟨left, right, hpair, rfl⟩
    exact hplan left right hpair

end Plans

end FilesystemLab
