import FilesystemLab.ExchangePlan
import FilesystemLab.StoredTables

/-!
# Replacing a range of blocks

`PersistedInode::replace_block_range`, on which the operations that insert,
remove or exchange blocks rest, for inodes of every kind and from the exact
length or from the zero that stands for a full last block.

* `spliced`: the inode with other blocks.  A file leaves as many bytes of its
  last block unused as before, and has no bytes if it has no blocks.
* `replaceBlockRange_eq`: the checks in front of `validate_inode_fields` pass.
* `replaceBlockRange_law`: when the call succeeds, what it leaves, and that the
  inverse call brings the inode back.
-/

namespace FilesystemLab

open Splice

namespace PersistedInode

/-- `replace_block_range`, which takes `&mut self`: its checks, then its two
assignments. -/
def replaceBlockRangeMut (start stop : Nat) (replacements : List UInt64) :
    Effect IoError PersistedInode (List UInt64) := do
  let edit ← Effect.query (replaceBlockRange · start stop replacements)
  Effect.modify fun inode => { inode with blocks := edit.2.blocks }
  Effect.modify fun inode => { inode with byteLen := edit.2.byteLen }
  pure edit.1

/-- The inode with other blocks. -/
def spliced (inode : PersistedInode) (blocks : List UInt64) : PersistedInode :=
  if inode.kind = .file then inode.withBlocks blocks
  else { inode with blocks, byteLen := 0 }

variable {inode inode' : PersistedInode} {start stop : Nat}
  {blocks replacements displaced : List UInt64} {n : UInt64}

/-! ## Inodes with other blocks -/

@[simp] theorem spliced_id : (inode.spliced blocks).id = inode.id := by
  unfold spliced
  split <;> rfl

@[simp] theorem spliced_kind : (inode.spliced blocks).kind = inode.kind := by
  unfold spliced
  split <;> rfl

@[simp] theorem spliced_blocks : (inode.spliced blocks).blocks = blocks := by
  unfold spliced
  split <;> rfl

theorem mk_spliced : { inode with
    blocks, byteLen := (inode.spliced blocks).byteLen } =
      inode.spliced blocks := by
  unfold spliced
  split <;> rfl

/-- A list of fewer than `2 ^ 52` blocks has fewer than `2 ^ 64` bytes. -/
theorem capacity_lt_of_length (h : blocks.length < 2 ^ 52) :
    blocks.length * BLOCK_SIZE < U64_LIMIT := by
  unfold BLOCK_SIZE U64_LIMIT
  omega

/-- **Which inodes that are no files are valid.** -/
theorem valid_iff_of_ne_file (hkind : inode.kind ≠ .file) :
    inode.Valid ↔
      inode.id ≠ 0 ∧ inode.blocks.Nodup ∧ inode.byteLen = 0 := by
  simp only [Valid, validateInodeFields, if_pos hkind, Except.bind_eq_ok,
    rejectIf_eq_ok, not_not, Except.pure_eq_ok, Except.ok.injEq]
  constructor
  · intro h
    obtain ⟨_, hid, _, hnodup, _, hzero, _⟩ := h
    exact ⟨hid, hnodup, hzero⟩
  · intro h
    obtain ⟨hid, hnodup, hzero⟩ := h
    exact ⟨(), hid, (), hnodup, (), hzero, hzero.symm⟩

/-- The facts that an inode of every kind satisfies. -/
theorem Valid.id_ne (h : inode.Valid) : inode.id ≠ 0 := by
  by_cases hkind : inode.kind = .file
  · exact ((valid_iff hkind).mp h).1
  · exact ((valid_iff_of_ne_file hkind).mp h).1

/-- A valid inode with distinct blocks in the place of its own is valid. -/
theorem Valid.spliced (h : inode.Valid) (hnodup : blocks.Nodup)
    (hlt : blocks.length < 2 ^ 52) : (inode.spliced blocks).Valid := by
  by_cases hkind : inode.kind = .file
  · rw [PersistedInode.spliced, if_pos hkind]
    exact h.of_withBlocks hkind hnodup (capacity_lt_of_length hlt)
  · rw [PersistedInode.spliced, if_neg hkind]
    obtain ⟨hid, _, _⟩ := (valid_iff_of_ne_file hkind).mp h
    exact (valid_iff_of_ne_file (by exact hkind)).mpr ⟨hid, hnodup, rfl⟩

/-- The end of a file with other blocks. -/
theorem toNat_spliced (hkind : inode.kind = .file)
    (hlt : blocks.length < 2 ^ 52) :
    (inode.spliced blocks).byteLen.toNat =
      if blocks = [] then 0
      else blocks.length * BLOCK_SIZE - inode.tailSlack := by
  have hcapacity := capacity_lt_of_length hlt
  rw [spliced, if_pos hkind]
  exact UInt64.toNat_ofNat_of_lt' (show _ < U64_LIMIT by split <;> omega)

/-- The end lies in the last of the other blocks, as far from its end as the old
one lay from the end of the old last block. -/
theorem Valid.end_spliced (h : inode.Valid) (hkind : inode.kind = .file)
    (hlt : blocks.length < 2 ^ 52) :
    (blocks = [] → (inode.spliced blocks).byteLen = 0) ∧
      (blocks ≠ [] →
        (inode.spliced blocks).byteLen.toNat + inode.tailSlack =
          blocks.length * BLOCK_SIZE ∧
        (blocks.length - 1) * BLOCK_SIZE <
          (inode.spliced blocks).byteLen.toNat ∧
        (inode.spliced blocks).byteLen.toNat ≤ blocks.length * BLOCK_SIZE) := by
  have hend := toNat_spliced hkind hlt
  have hslack := h.tailSlack_lt hkind
  constructor
  · intro hnil
    rw [if_pos hnil] at hend
    exact UInt64.toNat_inj.mp hend
  · intro hne
    have hpos := List.length_pos_of_ne_nil hne
    have hsucc : blocks.length * BLOCK_SIZE =
        (blocks.length - 1) * BLOCK_SIZE + BLOCK_SIZE := by
      rw [← Nat.succ_mul]
      congr 1
      omega
    rw [if_neg hne] at hend
    refine ⟨by omega, by omega, by omega⟩

/-- **The old blocks come back with the old end**, if there were some in
between. -/
theorem Valid.spliced_spliced (h : inode.Valid)
    (h' : (inode.spliced blocks).Valid) (hne : blocks ≠ []) :
    (inode.spliced blocks).spliced inode.blocks = inode := by
  by_cases hkind : inode.kind = .file
  · have hmid : inode.spliced blocks = inode.withBlocks blocks := by
      rw [PersistedInode.spliced, if_pos hkind]
    rw [PersistedInode.spliced, if_pos (by rw [spliced_kind, hkind]), hmid]
    rw [hmid] at h'
    by_cases hold : inode.blocks = []
    · have hzero : inode.byteLen = 0 :=
        ((valid_iff hkind).mp h).2.2.1.byteLen_of_nil hold
      show { inode with
        blocks := inode.blocks
        byteLen := UInt64.ofNat (if inode.blocks = [] then 0 else _) } = inode
      rw [if_pos hold]
      cases inode
      cases hzero
      rfl
    · exact h.withBlocks_withBlocks hkind h' hne hold
  · have hzero := ((valid_iff_of_ne_file hkind).mp h).2.2
    rw [PersistedInode.spliced, if_neg (by rw [spliced_kind]; exact hkind),
      PersistedInode.spliced, if_neg hkind]
    cases inode
    cases hzero
    rfl

/-! ## The call -/

/-- The length of a valid inode does not leave its blocks. -/
theorem Valid.byteLen_le (h : inode.Valid) :
    inode.byteLen.toNat ≤ inode.blocks.length * BLOCK_SIZE := by
  by_cases hkind : inode.kind = .file
  · exact ((valid_iff hkind).mp h).2.2.1.le_capacity
  · rw [((valid_iff_of_ne_file hkind).mp h).2.2]
    exact Nat.zero_le _

/-- A new end that keeps the unused bytes of the last block always exists: a
block is longer than they are. -/
theorem Valid.replacedByteLen_eq (h : inode.Valid)
    (hlt : blocks.length < 2 ^ 52) :
    replacedByteLen inode.kind blocks inode.tailSlack =
      .ok (inode.spliced blocks).byteLen.toNat := by
  unfold replacedByteLen
  by_cases hkind : inode.kind = .file
  · have hslack := h.tailSlack_lt hkind
    rw [if_pos hkind, toNat_spliced hkind hlt]
    split
    · rfl
    · rename_i hcons
      have hone : 1 * BLOCK_SIZE ≤ blocks.length * BLOCK_SIZE :=
        Nat.mul_le_mul_right BLOCK_SIZE (List.length_pos_iff.mpr hcons)
      simp only [blockCapacity, Except.bind_eq_ok, liftMessage_eq_ok,
        okOr_eq_ok, checkedMul_eq_some, checkedSub_eq_some]
      exact ⟨_, ⟨capacity_lt_of_length hlt, rfl⟩, by omega, rfl⟩
  · rw [if_neg hkind, PersistedInode.spliced, if_neg hkind]
    rfl

theorem valid_canonical (hlen : inode.canonicalByteLen = .ok n) :
    inode.canonical.Valid := by
  obtain ⟨hbyteLen, hcanonical⟩ := canonicalByteLen_canonical hlen
  have hvalid := liftMessage_eq_ok.mp hcanonical
  rw [← hbyteLen] at hvalid
  exact hvalid

/-- The zero that stands for a full last block changes nothing. -/
theorem replaceBlockRange_canonical (hlen : inode.canonicalByteLen = .ok n)
    (start stop : Nat) (replacements : List UInt64) :
    inode.replaceBlockRange start stop replacements =
      inode.canonical.replaceBlockRange start stop replacements := by
  obtain ⟨_, hcanonical⟩ := canonicalByteLen_canonical hlen
  rw [replaceBlockRange, replaceBlockRange, hlen, hcanonical,
    canonical_of_ok hlen]

/-- The checks in front of `validate_inode_fields` pass for every range of the
inode. -/
theorem Valid.replaceBlockRange_eq (h : inode.Valid)
    (hold : inode.blocks.length < 2 ^ 52) (hstart : start ≤ stop)
    (hstop : stop ≤ inode.blocks.length)
    (hnew : (splice inode.blocks start stop replacements).length < 2 ^ 52) :
    inode.replaceBlockRange start stop replacements =
      (liftMessage invalidInput (validateInodeFields inode.id inode.kind
        (splice inode.blocks start stop replacements)
        (inode.spliced (splice inode.blocks start stop replacements)).byteLen
        false)).map fun _ => (segment inode.blocks start stop,
          inode.spliced (splice inode.blocks start stop replacements)) := by
  have hlen : inode.canonicalByteLen = .ok inode.byteLen :=
    liftMessage_eq_ok.mpr h
  have hcapacity : liftMessage invalidInput (blockCapacity inode.blocks) =
      .ok (inode.blocks.length * BLOCK_SIZE) := by
    rw [blockCapacity, checkedMul_eq_some.mpr ⟨capacity_lt_of_length hold, rfl⟩]
    rfl
  have hslack : checkedSub (inode.blocks.length * BLOCK_SIZE)
      inode.byteLen.toNat = some inode.tailSlack :=
    checkedSub_eq_some.mpr ⟨h.byteLen_le, rfl⟩
  rw [replaceBlockRange, rejectIf_of_not (by omega), Except.ok_bind, hlen,
    Except.ok_bind, hcapacity, Except.ok_bind, hslack, okOr_some,
    Except.ok_bind]
  show (replacedByteLen inode.kind
      (splice inode.blocks start stop replacements) inode.tailSlack >>=
    fun byteLen => liftMessage invalidInput (validateInodeFields inode.id
      inode.kind (splice inode.blocks start stop replacements)
      (UInt64.ofNat byteLen) false) >>= fun _ =>
    pure (segment inode.blocks start stop, { inode with
      blocks := splice inode.blocks start stop replacements
      byteLen := UInt64.ofNat byteLen })) = _
  rw [h.replacedByteLen_eq hnew, Except.ok_bind, UInt64.ofNat_toNat, mk_spliced]
  cases liftMessage invalidInput (validateInodeFields inode.id inode.kind
    (splice inode.blocks start stop replacements)
    (inode.spliced (splice inode.blocks start stop replacements)).byteLen
    false) <;> rfl

/-- Distinct blocks are accepted. -/
theorem Valid.replaceBlockRange_of_nodup (h : inode.Valid)
    (hold : inode.blocks.length < 2 ^ 52) (hstart : start ≤ stop)
    (hstop : stop ≤ inode.blocks.length)
    (hnew : (splice inode.blocks start stop replacements).length < 2 ^ 52)
    (hnodup : (splice inode.blocks start stop replacements).Nodup) :
    inode.replaceBlockRange start stop replacements =
      .ok (segment inode.blocks start stop,
        inode.spliced (splice inode.blocks start stop replacements)) := by
  have hvalid := validateInodeFields_canonical (h.spliced hnodup hnew) false
  rw [spliced_id, spliced_kind, spliced_blocks] at hvalid
  rw [h.replaceBlockRange_eq hold hstart hstop hnew, hvalid]
  rfl

/-- Blocks that are referred to twice are not. -/
theorem Valid.replaceBlockRange_of_not_nodup (h : inode.Valid)
    (hold : inode.blocks.length < 2 ^ 52) (hstart : start ≤ stop)
    (hstop : stop ≤ inode.blocks.length)
    (hnew : (splice inode.blocks start stop replacements).length < 2 ^ 52)
    (hdup : ¬ (splice inode.blocks start stop replacements).Nodup) :
    inode.replaceBlockRange start stop replacements = .error (invalidInput
      "inode record contains duplicate block references") := by
  rw [h.replaceBlockRange_eq hold hstart hstop hnew, validateInodeFields,
    rejectIf_of_not h.id_ne, Except.ok_bind, rejectIf_of hdup]
  rfl

/-- A range that is not one of the inode is not either. -/
theorem replaceBlockRange_of_range
    (hrange : start > stop ∨ stop > inode.blocks.length) :
    inode.replaceBlockRange start stop replacements = .error (invalidInput
      "inode block mutation range is outside the current mapping") := by
  rw [replaceBlockRange, rejectIf_of hrange]
  rfl

theorem replaceBlockRangeMut_of_ok
    (h : inode.replaceBlockRange start stop replacements =
      .ok (displaced, inode')) (hid : inode'.id = inode.id)
    (hkind : inode'.kind = inode.kind) :
    replaceBlockRangeMut start stop replacements inode =
      (.ok displaced, inode') := by
  rw [replaceBlockRangeMut, Effect.query_bind_of_ok
    (q := fun x : PersistedInode =>
      x.replaceBlockRange start stop replacements) h]
  cases inode'
  cases hid
  cases hkind
  rfl

theorem replaceBlockRangeMut_of_error {e : IoError}
    (h : inode.replaceBlockRange start stop replacements = .error e) :
    replaceBlockRangeMut start stop replacements inode = (.error e, inode) := by
  rw [replaceBlockRangeMut, Effect.query_bind]
  simp only [h]

/-- What `replace_block_range` does to an inode whose length is `n`. -/
structure RangeLaw (inode : PersistedInode) (n : UInt64) (start stop : Nat)
    (replacements : List UInt64) : Prop where
  succeeds_iff :
    (∃ displaced inode', replaceBlockRangeMut start stop replacements inode =
      (.ok displaced, inode')) ↔
    start ≤ stop ∧ stop ≤ inode.blocks.length ∧
      (splice inode.blocks start stop replacements).Nodup
  result : ∀ displaced inode',
    replaceBlockRangeMut start stop replacements inode =
      (.ok displaced, inode') →
    displaced = segment inode.blocks start stop ∧
      inode'.blocks = splice inode.blocks start stop replacements ∧
      inode'.id = inode.id ∧ inode'.kind = inode.kind ∧
      validateInodeFields inode'.id inode'.kind inode'.blocks inode'.byteLen
        false = .ok inode'.byteLen
  file_end : ∀ displaced inode',
    replaceBlockRangeMut start stop replacements inode =
      (.ok displaced, inode') → inode.kind = .file →
    (inode'.blocks = [] → inode'.byteLen = 0) ∧
      (inode'.blocks ≠ [] →
        inode'.byteLen.toNat + (inode.blocks.length * BLOCK_SIZE - n.toNat) =
          inode'.blocks.length * BLOCK_SIZE ∧
        (inode'.blocks.length - 1) * BLOCK_SIZE < inode'.byteLen.toNat ∧
        inode'.byteLen.toNat ≤ inode'.blocks.length * BLOCK_SIZE)
  tail_preserved : ∀ inode',
    replaceBlockRangeMut start stop replacements inode ≠
      (.error (invalidInput
        "inode block mutation cannot preserve EOF tail offset"), inode')
  failed_unchanged : ∀ e inode',
    replaceBlockRangeMut start stop replacements inode = (.error e, inode') →
      inode' = inode
  inverse : ∀ displaced inode',
    replaceBlockRangeMut start stop replacements inode =
      (.ok displaced, inode') → inode'.blocks ≠ [] →
    ∃ restored, replaceBlockRangeMut start (start + replacements.length)
      displaced inode' = (.ok replacements, restored) ∧
        restored.eq inode = true

/-- On an inode that is accepted the call fails for its range, for a duplicate,
or not at all. -/
theorem replaceBlockRangeMut_cases (hlen : inode.canonicalByteLen = .ok n)
    (hold : inode.blocks.length < 2 ^ 52) (start stop : Nat)
    (replacements : List UInt64)
    (hnew : start ≤ stop → stop ≤ inode.blocks.length →
      (splice inode.blocks start stop replacements).length < 2 ^ 52) :
    (¬ (start ≤ stop ∧ stop ≤ inode.blocks.length) ∧
      replaceBlockRangeMut start stop replacements inode =
        (.error (invalidInput
          "inode block mutation range is outside the current mapping"),
          inode)) ∨
    (start ≤ stop ∧ stop ≤ inode.blocks.length ∧
      ¬ (splice inode.blocks start stop replacements).Nodup ∧
      replaceBlockRangeMut start stop replacements inode =
        (.error (invalidInput
          "inode record contains duplicate block references"), inode)) ∨
    (start ≤ stop ∧ stop ≤ inode.blocks.length ∧
      (splice inode.blocks start stop replacements).Nodup ∧
      replaceBlockRangeMut start stop replacements inode =
        (.ok (segment inode.blocks start stop),
          inode.canonical.spliced
            (splice inode.blocks start stop replacements))) := by
  have hvalid := valid_canonical hlen
  have hsame := replaceBlockRange_canonical hlen start stop replacements
  by_cases hrange : start ≤ stop ∧ stop ≤ inode.blocks.length
  · right
    obtain ⟨hstart, hstop⟩ := hrange
    have hshort := hnew hstart hstop
    have hblocks : inode.canonical.blocks = inode.blocks := canonical_blocks inode
    rw [← hblocks] at hold hstop hshort ⊢
    by_cases hnodup : (splice inode.canonical.blocks start stop
        replacements).Nodup
    · right
      refine ⟨hstart, hstop, hnodup, replaceBlockRangeMut_of_ok
        (hsame.trans (hvalid.replaceBlockRange_of_nodup hold hstart hstop hshort
          hnodup)) ?_ ?_⟩
      · rw [spliced_id, canonical_id]
      · rw [spliced_kind, canonical_kind]
    · left
      exact ⟨hstart, hstop, hnodup, replaceBlockRangeMut_of_error
        (hsame.trans (hvalid.replaceBlockRange_of_not_nodup hold hstart hstop
          hshort hnodup))⟩
  · left
    refine ⟨hrange, replaceBlockRangeMut_of_error
      (replaceBlockRange_of_range ?_)⟩
    omega

/-- A call that fails as it should. -/
theorem rangeLaw_of_error {e : IoError}
    (hcall : replaceBlockRangeMut start stop replacements inode =
      (.error e, inode))
    (hfacts : ¬ (start ≤ stop ∧ stop ≤ inode.blocks.length ∧
      (splice inode.blocks start stop replacements).Nodup))
    (he : e ≠ invalidInput
      "inode block mutation cannot preserve EOF tail offset") :
    inode.RangeLaw n start stop replacements := by
  constructor
  · refine ⟨?_, fun h => absurd h hfacts⟩
    intro hok
    obtain ⟨displaced, inode', hok⟩ := hok
    rw [hcall] at hok
    cases hok
  · intro displaced inode' hok
    rw [hcall] at hok
    cases hok
  · intro displaced inode' hok
    rw [hcall] at hok
    cases hok
  · intro inode' hbad
    rw [hcall] at hbad
    cases hbad
    exact he rfl
  · intro e' inode' hbad
    rw [hcall] at hbad
    cases hbad
    rfl
  · intro displaced inode' hok
    rw [hcall] at hok
    cases hok

/-- The inverse call, on an inode with other blocks. -/
theorem Valid.replaceBlockRange_inverse (h : inode.Valid)
    (hold : inode.blocks.length < 2 ^ 52) (hstart : start ≤ stop)
    (hstop : stop ≤ inode.blocks.length)
    (hnew : (splice inode.blocks start stop replacements).length < 2 ^ 52)
    (hnodup : (splice inode.blocks start stop replacements).Nodup)
    (hne : splice inode.blocks start stop replacements ≠ []) :
    (inode.spliced (splice inode.blocks start stop
      replacements)).replaceBlockRange start (start + replacements.length)
        (segment inode.blocks start stop) = .ok (replacements, inode) := by
  have hvalid := h.spliced hnodup hnew
  have hlength := length_splice hstart hstop replacements
  have hback : splice (splice inode.blocks start stop replacements) start
      (start + replacements.length) (segment inode.blocks start stop) =
        inode.blocks := by
    rw [splice_splice (by omega), splice_segment hstart]
  have hcall : (inode.spliced (splice inode.blocks start stop
      replacements)).replaceBlockRange start (start + replacements.length)
        (segment inode.blocks start stop) = _ :=
    hvalid.replaceBlockRange_of_nodup (by rw [spliced_blocks]; exact hnew)
      (Nat.le_add_right _ _) (by rw [spliced_blocks]; omega)
      (by rw [spliced_blocks, hback]; exact hold)
      (by rw [spliced_blocks, hback]; exact nodup_of_validate h)
  rw [hcall, spliced_blocks, hback, segment_splice (by omega),
    h.spliced_spliced hvalid hne]

/-- **The block-range replacement law.** -/
theorem replaceBlockRange_law (hlen : inode.canonicalByteLen = .ok n)
    (hold : inode.blocks.length < 2 ^ 52) (start stop : Nat)
    (replacements : List UInt64)
    (hnew : start ≤ stop → stop ≤ inode.blocks.length →
      (splice inode.blocks start stop replacements).length < 2 ^ 52) :
    inode.RangeLaw n start stop replacements := by
  rcases replaceBlockRangeMut_cases hlen hold start stop replacements hnew with
    ⟨hrange, hcall⟩ | ⟨hstart, hstop, hdup, hcall⟩ |
    ⟨hstart, hstop, hnodup, hcall⟩
  · refine rangeLaw_of_error hcall ?_ ?_
    · intro hfacts
      exact hrange ⟨hfacts.1, hfacts.2.1⟩
    · decide
  · refine rangeLaw_of_error hcall ?_ ?_
    · intro hfacts
      exact hdup hfacts.2.2
    · decide
  · have hvalid := valid_canonical hlen
    have hblocks : inode.canonical.blocks = inode.blocks := canonical_blocks inode
    have hbyteLen := (canonicalByteLen_canonical hlen).1
    have hshort := hnew hstart hstop
    rw [← hblocks] at hold hstop hshort hnodup hcall
    have hafter := hvalid.spliced hnodup hshort
    constructor
    · rw [← hblocks]
      exact ⟨fun _ => ⟨hstart, hstop, hnodup⟩, fun _ => ⟨_, _, hcall⟩⟩
    · intro displaced inode' hok
      rw [hcall] at hok
      cases hok
      refine ⟨by rw [hblocks], by rw [spliced_blocks, hblocks],
        by rw [spliced_id, canonical_id], by rw [spliced_kind, canonical_kind],
        validateInodeFields_canonical hafter false⟩
    · intro displaced inode' hok hkind
      rw [hcall] at hok
      cases hok
      have hend := hvalid.end_spliced (by rw [canonical_kind, hkind]) hshort
      rw [tailSlack, hblocks, hbyteLen] at hend
      rw [hblocks, spliced_blocks]
      exact hend
    · intro inode' hbad
      rw [hcall] at hbad
      cases hbad
    · intro e inode' hbad
      rw [hcall] at hbad
      cases hbad
    · intro displaced inode' hok hne
      rw [hcall] at hok
      cases hok
      rw [spliced_blocks] at hne
      exact ⟨inode.canonical, replaceBlockRangeMut_of_ok
        (hvalid.replaceBlockRange_inverse hold hstart hstop hshort hnodup hne)
        (by rw [spliced_id]) (by rw [spliced_kind]), eq_canonical inode⟩

/-- A block in the middle of a file is replaced by two, from the zero that
stands for a full last block. -/
theorem replaceBlockRange_law_sample :
    replaceBlockRangeMut 1 2 [20, 21] ⟨5, .file, [10, 11, 12], 0⟩ =
      (.ok [11], ⟨5, .file, [10, 20, 21, 12], 16384⟩) ∧
    RangeLaw ⟨5, .file, [10, 11, 12], 0⟩ 12288 1 2 [20, 21] :=
  ⟨rfl, replaceBlockRange_law rfl (by decide) 1 2 [20, 21]
    fun _ _ => by decide⟩

end PersistedInode

end FilesystemLab
