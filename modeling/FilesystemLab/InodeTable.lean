import FilesystemLab.Table

/-!
# Inodes on disk

`src/inode_codec.rs` and `src/inode_table.rs`: the checksummed inode record and
the table of them.

A record stores the exact end of a regular file.  In memory a zero length of a
file with blocks stands for its full capacity; encoding replaces it, so a stored
inode is loaded as its `canonical` form.
-/

namespace FilesystemLab

open Bytes

/-- `InodeKind`. -/
inductive InodeKind where
  | file
  | directory
  | symlink
  deriving DecidableEq, Repr

/-- `PersistedInode`. -/
structure PersistedInode where
  id : UInt64
  kind : InodeKind
  blocks : List UInt64
  byteLen : UInt64
  deriving DecidableEq, Repr

/-- The bytes of `b"INO1"`. -/
def INODE_RECORD_MAGIC : List UInt8 := [0x49, 0x4e, 0x4f, 0x31]

def INODE_RECORD_VERSION : Nat := 3

@[simp] theorem length_INODE_RECORD_MAGIC : INODE_RECORD_MAGIC.length = 4 := by
  simp [INODE_RECORD_MAGIC]

/-- `kind_code`. -/
def kindCode : InodeKind → Nat
  | .file => 1
  | .directory => 2
  | .symlink => 3

/-- The inverse of `kind_code` in `decode_inode`. -/
def kindOfCode : Nat → Option InodeKind
  | 1 => some .file
  | 2 => some .directory
  | 3 => some .symlink
  | _ => none

theorem kindOfCode_kindCode (kind : InodeKind) :
    kindOfCode (kindCode kind) = some kind := by
  cases kind <;> rfl

theorem kindCode_of_kindOfCode {code : Nat} {kind : InodeKind}
    (h : kindOfCode code = some kind) : kindCode kind = code := by
  unfold kindOfCode at h
  split at h <;> cases h <;> rfl

theorem kindCode_lt (kind : InodeKind) : kindCode kind < 2 ^ 16 := by
  cases kind <;> decide

/-! ## Fields -/

/-- `block_capacity`. -/
def blockCapacity (blocks : List UInt64) : Except String Nat :=
  okOr (checkedMul blocks.length BLOCK_SIZE) "inode byte capacity overflow"

/-- The part of `validate_inode_fields` about a regular file with blocks. -/
def validateFileEnd (capacity : Nat) (byteLen : UInt64)
    (allowFullCapacitySentinel : Bool) : Except String UInt64 := do
  let canonical :=
    if byteLen = 0 ∧ allowFullCapacitySentinel = true then UInt64.ofNat capacity
    else byteLen
  rejectIf (canonical = 0 ∨ canonical.toNat > capacity)
    "regular-file byte length exceeds block capacity"
  rejectIf (canonical.toNat ≤ capacity - BLOCK_SIZE)
    "regular-file EOF must lie inside its final referenced block"
  pure canonical

/-- `validate_inode_fields`.  The source sorts the references and looks for
equal neighbours. -/
def validateInodeFields (id : UInt64) (kind : InodeKind)
    (blocks : List UInt64) (byteLen : UInt64)
    (allowFullCapacitySentinel : Bool) : Except String UInt64 := do
  rejectIf (id = 0) "inode identifier zero is reserved"
  rejectIf (¬ blocks.Nodup) "inode record contains duplicate block references"
  if kind ≠ .file then
    rejectIf (byteLen ≠ 0) "non-file inode byte length must be zero"
    pure 0
  else
    let capacity ← blockCapacity blocks
    if blocks = [] then
      rejectIf (byteLen ≠ 0) "zero-block regular file must have zero byte length"
      pure 0
    else
      validateFileEnd capacity byteLen allowFullCapacitySentinel

/-- A canonical end needs no sentinel. -/
theorem validateFileEnd_canonical {capacity : Nat} {byteLen n : UInt64}
    {allow : Bool} (h : validateFileEnd capacity byteLen allow = .ok n)
    (allow' : Bool) : validateFileEnd capacity n allow' = .ok n := by
  simp only [validateFileEnd, Except.bind_eq_ok, rejectIf_eq_ok,
    Except.pure_eq_ok, Except.ok.injEq] at h
  obtain ⟨_, h1, _, h2, rfl⟩ := h
  have hne := (not_or.mp h1).1
  simp only [validateFileEnd]
  rw [if_neg (fun hc => hne hc.1), rejectIf_of_not h1, Except.ok_bind,
    rejectIf_of_not h2]
  rfl

theorem validateFileEnd_exact {capacity : Nat} {byteLen n : UInt64}
    (h : validateFileEnd capacity byteLen false = .ok n) : n = byteLen := by
  simp [validateFileEnd] at h
  exact h.2.2.symm

/-- A canonical length is accepted, with or without the sentinel. -/
theorem validateInodeFields_canonical {id : UInt64} {kind : InodeKind}
    {blocks : List UInt64} {byteLen n : UInt64} {allow : Bool}
    (h : validateInodeFields id kind blocks byteLen allow = .ok n)
    (allow' : Bool) :
    validateInodeFields id kind blocks n allow' = .ok n := by
  simp only [validateInodeFields, Except.bind_eq_ok, rejectIf_eq_ok] at h ⊢
  obtain ⟨_, hid, _, hnodup, h⟩ := h
  refine ⟨(), hid, (), hnodup, ?_⟩
  split at h
  · rename_i hkind
    simp only [Except.bind_eq_ok, rejectIf_eq_ok, Except.pure_eq_ok,
      Except.ok.injEq] at h
    obtain ⟨_, _, rfl⟩ := h
    rw [if_pos hkind]
    rfl
  · rename_i hkind
    rw [if_neg hkind]
    simp only [Except.bind_eq_ok] at h ⊢
    obtain ⟨capacity, hcapacity, h⟩ := h
    refine ⟨capacity, hcapacity, ?_⟩
    split at h
    · rename_i hnil
      simp only [Except.bind_eq_ok, rejectIf_eq_ok, Except.pure_eq_ok,
        Except.ok.injEq] at h
      obtain ⟨_, _, rfl⟩ := h
      rw [if_pos hnil]
      rfl
    · rename_i hcons
      rw [if_neg hcons]
      exact validateFileEnd_canonical h allow'

/-- Without the sentinel only the canonical length is accepted. -/
theorem validateInodeFields_exact {id : UInt64} {kind : InodeKind}
    {blocks : List UInt64} {byteLen n : UInt64}
    (h : validateInodeFields id kind blocks byteLen false = .ok n) :
    n = byteLen := by
  simp only [validateInodeFields, Except.bind_eq_ok, rejectIf_eq_ok] at h
  obtain ⟨_, _, _, _, h⟩ := h
  split at h
  · simp only [Except.bind_eq_ok, rejectIf_eq_ok, Except.pure_eq_ok,
      Except.ok.injEq, not_ne_iff] at h
    obtain ⟨_, hzero, rfl⟩ := h
    exact hzero.symm
  · simp only [Except.bind_eq_ok] at h
    obtain ⟨_, _, h⟩ := h
    split at h
    · simp only [Except.bind_eq_ok, rejectIf_eq_ok, Except.pure_eq_ok,
        Except.ok.injEq, not_ne_iff] at h
      obtain ⟨_, hzero, rfl⟩ := h
      exact hzero.symm
    · exact validateFileEnd_exact h

/-- `map_err(|message| io::Error::new(kind, message))`. -/
def liftMessage {α : Type} (error : String → IoError)
    (x : Except String α) : Result α := x.mapError error

@[simp] theorem liftMessage_eq_ok {α : Type} {error : String → IoError}
    {x : Except String α} {a : α} : liftMessage error x = .ok a ↔ x = .ok a := by
  cases x <;> simp [liftMessage, Except.mapError]

namespace PersistedInode

/-- `PersistedInode::canonical_byte_len`. -/
def canonicalByteLen (inode : PersistedInode) : Result UInt64 :=
  liftMessage invalidInput
    (validateInodeFields inode.id inode.kind inode.blocks inode.byteLen true)

/-- `PersistedInode::validate_for_persistence`. -/
def validateForPersistence (inode : PersistedInode) : Result Unit :=
  inode.canonicalByteLen.map fun _ => ()

/-- The inode with its exact length in place of the sentinel. -/
def canonical (inode : PersistedInode) : PersistedInode :=
  match inode.canonicalByteLen with
  | .ok n => { inode with byteLen := n }
  | .error _ => inode

/-- `default_byte_len`. -/
def defaultByteLen (kind : InodeKind) (blocks : List UInt64) :
    Except String UInt64 :=
  if kind = .file then (blockCapacity blocks).map UInt64.ofNat else .ok 0

/-- `PersistedInode::new`. -/
def new (id : UInt64) (kind : InodeKind) (blocks : List UInt64) :
    Result PersistedInode := do
  let byteLen ← liftMessage invalidInput (defaultByteLen kind blocks)
  let _ ← liftMessage invalidInput
    (validateInodeFields id kind blocks byteLen false)
  pure { id, kind, blocks, byteLen }

/-- `PersistedInode::new_file_with_size`. -/
def newFileWithSize (id : UInt64) (blocks : List UInt64) (byteLen : UInt64) :
    Result PersistedInode := do
  let _ ← liftMessage invalidInput
    (validateInodeFields id .file blocks byteLen false)
  pure { id, kind := .file, blocks, byteLen }

@[simp] theorem canonical_id (inode : PersistedInode) :
    inode.canonical.id = inode.id := by
  unfold canonical
  split <;> rfl

@[simp] theorem canonical_kind (inode : PersistedInode) :
    inode.canonical.kind = inode.kind := by
  unfold canonical
  split <;> rfl

@[simp] theorem canonical_blocks (inode : PersistedInode) :
    inode.canonical.blocks = inode.blocks := by
  unfold canonical
  split <;> rfl

theorem canonical_of_ok {inode : PersistedInode} {n : UInt64}
    (h : inode.canonicalByteLen = .ok n) :
    inode.canonical = { inode with byteLen := n } := by
  unfold canonical
  rw [h]

/-- The equality of the source, `impl PartialEq for PersistedInode`. -/
def eq (a b : PersistedInode) : Bool :=
  a.id = b.id && a.kind = b.kind && a.blocks = b.blocks &&
    a.canonicalByteLen.toOption = b.canonicalByteLen.toOption

/-- An inode equals its canonical form. -/
theorem eq_canonical (inode : PersistedInode) :
    inode.canonical.eq inode = true := by
  unfold eq
  simp only [canonical_id, canonical_kind, canonical_blocks, decide_true,
    Bool.and_self, Bool.true_and, decide_eq_true_eq]
  cases h : inode.canonicalByteLen with
  | error e =>
    unfold canonical
    rw [h]
    simp [h]
  | ok n =>
    rw [canonical_of_ok h]
    have hfields := liftMessage_eq_ok.mp h
    have hcanonical : canonicalByteLen { inode with byteLen := n } = .ok n :=
      liftMessage_eq_ok.mpr (validateInodeFields_canonical hfields true)
    rw [hcanonical]

/-! ## The end of a file -/

/-- The end of a regular file lies in its last block, and at zero if there is
none. -/
structure FileEnd (inode : PersistedInode) : Prop where
  le_capacity : inode.byteLen.toNat ≤ inode.blocks.length * BLOCK_SIZE
  capacity_lt : inode.blocks.length * BLOCK_SIZE <
    inode.byteLen.toNat + BLOCK_SIZE

variable {inode : PersistedInode}

/-- What `validate_inode_fields` accepts for a regular file. -/
theorem fileEnd_of_validate {allow : Bool} (hkind : inode.kind = .file)
    (h : validateInodeFields inode.id inode.kind inode.blocks inode.byteLen
      allow = .ok inode.byteLen) :
    inode.FileEnd ∧ inode.blocks.length * BLOCK_SIZE < U64_LIMIT := by
  have hsize := blockSize_pos
  simp only [validateInodeFields, hkind, blockCapacity, Except.bind_eq_ok,
    rejectIf_eq_ok, not_not, okOr_eq_ok, checkedMul_eq_some, ne_eq,
    not_true_eq_false, if_false] at h
  obtain ⟨_, _, _, _, capacity, ⟨hlt, rfl⟩, h⟩ := h
  refine ⟨?_, hlt⟩
  split at h
  · rename_i hnil
    simp only [Except.bind_eq_ok, rejectIf_eq_ok, not_not] at h
    obtain ⟨_, hzero, _⟩ := h
    constructor
    · simp [hzero]
    · simpa [hnil, hzero] using hsize
  · rename_i hcons
    simp only [validateFileEnd, Except.bind_eq_ok, rejectIf_eq_ok,
      Except.pure_eq_ok, Except.ok.injEq] at h
    obtain ⟨_, hcapacity, _, hlast, hend⟩ := h
    rw [hend] at hcapacity hlast
    have hpos := List.length_pos_iff.mpr hcons
    have hone : 1 * BLOCK_SIZE ≤ inode.blocks.length * BLOCK_SIZE :=
      Nat.mul_le_mul_right BLOCK_SIZE hpos
    constructor <;> omega

/-- What `validate_inode_fields` accepts has distinct blocks. -/
theorem nodup_of_validate {allow : Bool} {n : UInt64}
    (h : validateInodeFields inode.id inode.kind inode.blocks inode.byteLen
      allow = .ok n) : inode.blocks.Nodup := by
  simp only [validateInodeFields, Except.bind_eq_ok, rejectIf_eq_ok,
    not_not] at h
  obtain ⟨_, _, _, hnodup, _⟩ := h
  exact hnodup

/-- An inode in canonical form that can be encoded has its exact length. -/
theorem validate_of_canonical {n : UInt64}
    (hlen : inode.canonicalByteLen = .ok n)
    (hcanonical : inode.canonical = inode) :
    validateInodeFields inode.id inode.kind inode.blocks inode.byteLen true =
      .ok inode.byteLen := by
  have hn : n = inode.byteLen := by
    have hlens := congrArg PersistedInode.byteLen hcanonical
    rw [canonical_of_ok hlen] at hlens
    exact hlens
  have hfields := liftMessage_eq_ok.mp hlen
  rw [hn] at hfields
  exact hfields

end PersistedInode

/-! ## Records -/

/-- The part of an inode record in front of its checksum. -/
def inodeFront (inode : PersistedInode) (byteLen : UInt64) : List UInt8 :=
  INODE_RECORD_MAGIC ++ leBytes 2 INODE_RECORD_VERSION ++
    leBytes 2 (kindCode inode.kind) ++
    leBytes 4 (40 + inode.blocks.length * 8) ++ leBytes 8 inode.id.toNat ++
    leBytes 4 inode.blocks.length ++ leBytes 8 byteLen.toNat

@[simp] theorem length_inodeFront (inode : PersistedInode) (byteLen : UInt64) :
    (inodeFront inode byteLen).length = 32 := by
  simp [inodeFront]

/-- `encode_inode`. -/
def encodeInode (inode : PersistedInode) : Result (List UInt8) := do
  let byteLen ← inode.canonicalByteLen
  rejectIf (inode.blocks.length ≥ 2 ^ 32)
    (invalidInput "inode block count exceeds codec limit")
  let payloadLen ← okOr (checkedMul inode.blocks.length 8)
    (invalidInput "inode record size overflow")
  let totalLen ← okOr (checkedAdd 40 payloadLen)
    (invalidInput "inode record size overflow")
  rejectIf (totalLen ≥ 2 ^ 32)
    (invalidInput "inode record length exceeds codec limit")
  pure (sealed (inodeFront inode byteLen) (zeros 4 ++ wordBytes inode.blocks))

/-- `record_crc` of both record codecs. -/
def recordCrc (bytes : List UInt8) : Nat := (crc32 (zeroFill bytes 32 36)).toNat

/-- `decode_inode`. -/
def decodeInode (bytes : List UInt8) : Result PersistedInode := do
  rejectIf (bytes.length < 40) ⟨.unexpectedEof, "torn inode record header"⟩
  rejectIf (slice bytes 0 4 ≠ INODE_RECORD_MAGIC)
    (invalidData "invalid inode record magic")
  rejectIf (readLe bytes 4 2 ≠ INODE_RECORD_VERSION) (invalidData
    ("unsupported inode record version " ++ toString (readLe bytes 4 2)))
  rejectIf (allZero (slice bytes 36 40) = false)
    (invalidData "inode record reserved bytes are non-zero")
  let totalLen := readLe bytes 8 4
  let blockCount := readLe bytes 20 4
  let payloadLen ← okOr (checkedMul blockCount 8)
    (invalidData "inode record size overflow")
  let expectedLen ← okOr (checkedAdd 40 payloadLen)
    (invalidData "inode record size overflow")
  rejectIf (totalLen ≠ expectedLen)
    (invalidData "inode record length does not match block count")
  rejectIf (bytes.length < totalLen)
    ⟨.unexpectedEof, "torn inode record payload"⟩
  rejectIf (bytes.length ≠ totalLen)
    (invalidData "inode decoder requires exactly one record")
  rejectIf (readLe bytes 32 4 ≠ recordCrc bytes)
    (invalidData "inode record checksum mismatch")
  let id := UInt64.ofNat (readLe bytes 12 8)
  let kind ← okOr (kindOfCode (readLe bytes 6 2))
    (invalidData "invalid inode kind")
  let byteLen := UInt64.ofNat (readLe bytes 24 8)
  let blocks := readWords (bytes.drop 40) blockCount
  let _ ← liftMessage invalidData
    (validateInodeFields id kind blocks byteLen false)
  pure { id, kind, blocks, byteLen }

/-- The checks of `encode_inode`, and the record it gives. -/
theorem encodeInode_eq_ok {inode : PersistedInode} {bytes : List UInt8} :
    encodeInode inode = .ok bytes ↔
      ∃ byteLen, inode.canonicalByteLen = .ok byteLen ∧
        40 + inode.blocks.length * 8 < 2 ^ 32 ∧
        sealed (inodeFront inode byteLen)
          (zeros 4 ++ wordBytes inode.blocks) = bytes := by
  simp only [encodeInode, Except.bind_eq_ok, rejectIf_eq_ok, okOr_eq_ok,
    checkedMul_eq_some, checkedAdd_eq_some, Except.pure_eq_ok, Except.ok.injEq,
    ge_iff_le, not_le, U64_LIMIT]
  constructor
  · intro hfacts
    rcases hfacts with ⟨byteLen, hlen, _, _, _, ⟨_, rfl⟩, _, ⟨_, rfl⟩, _, hfit,
      h⟩
    exact ⟨byteLen, hlen, hfit, h⟩
  · intro hfacts
    rcases hfacts with ⟨byteLen, hlen, hfit, h⟩
    exact ⟨byteLen, hlen, (), by omega, _, ⟨by omega, rfl⟩, _, ⟨by omega, rfl⟩,
      (), hfit, h⟩

/-- The fields of a record, as the decoder reads them. -/
theorem inodeFront_reads (inode : PersistedInode) (byteLen : UInt64)
    (hfit : 40 + inode.blocks.length * 8 < 2 ^ 32) (rest : List UInt8) :
    let bytes := inodeFront inode byteLen ++ rest
    slice bytes 0 4 = INODE_RECORD_MAGIC ∧
      readLe bytes 4 2 = INODE_RECORD_VERSION ∧
      readLe bytes 6 2 = kindCode inode.kind ∧
      readLe bytes 8 4 = 40 + inode.blocks.length * 8 ∧
      readLe bytes 12 8 = inode.id.toNat ∧
      readLe bytes 20 4 = inode.blocks.length ∧
      readLe bytes 24 8 = byteLen.toNat := by
  have h2 : ofLeBytes (leBytes 2 INODE_RECORD_VERSION) =
      INODE_RECORD_VERSION := ofLeBytes_leBytes 2 _ (by decide)
  have h2k : ofLeBytes (leBytes 2 (kindCode inode.kind)) =
      kindCode inode.kind :=
    ofLeBytes_leBytes 2 _ (lt_of_lt_of_eq (kindCode_lt _) (by decide))
  have h4 : ofLeBytes (leBytes 4 (40 + inode.blocks.length * 8)) =
      40 + inode.blocks.length * 8 :=
    ofLeBytes_leBytes 4 _ (lt_of_lt_of_eq hfit (by decide))
  have h8 : ofLeBytes (leBytes 8 inode.id.toNat) = inode.id.toNat :=
    ofLeBytes_leBytes 8 _ (lt_of_lt_of_eq inode.id.toNat_lt (by decide))
  have h4c : ofLeBytes (leBytes 4 inode.blocks.length) = inode.blocks.length :=
    ofLeBytes_leBytes 4 _ (by omega)
  have h8b : ofLeBytes (leBytes 8 byteLen.toNat) = byteLen.toNat :=
    ofLeBytes_leBytes 8 _ (lt_of_lt_of_eq byteLen.toNat_lt (by decide))
  refine ⟨?_, ?_, ?_, ?_, ?_, ?_, ?_⟩
  · simp [inodeFront]
  · simp [inodeFront, readLe, h2]
  · simp [inodeFront, readLe, h2k]
  · simp [inodeFront, readLe, h4]
  · simp [inodeFront, readLe, h8]
  · simp [inodeFront, readLe, h4c]
  · simp [inodeFront, readLe, h8b]

/-- A stored inode is decoded as its canonical form. -/
theorem decodeInode_of_encode {inode : PersistedInode} {bytes : List UInt8}
    (h : encodeInode inode = .ok bytes) :
    decodeInode bytes = .ok inode.canonical := by
  obtain ⟨byteLen, hcanonical, hfit, hbytes⟩ := encodeInode_eq_ok.mp h
  have hfields := validateInodeFields_canonical
    (liftMessage_eq_ok.mp hcanonical) false
  obtain ⟨hmagic, hversion, hkind, htotal, hid, hcount, hlen⟩ :=
    inodeFront_reads inode byteLen hfit (leBytes 4 (crc32 (inodeFront inode
      byteLen ++ zeros 4 ++ (zeros 4 ++ wordBytes inode.blocks))).toNat ++
      (zeros 4 ++ wordBytes inode.blocks))
  have hbytes' : inodeFront inode byteLen ++ (leBytes 4 (crc32 (inodeFront inode
      byteLen ++ zeros 4 ++ (zeros 4 ++ wordBytes inode.blocks))).toNat ++
      (zeros 4 ++ wordBytes inode.blocks)) = bytes := by
    rw [← hbytes, ← List.append_assoc]
    rfl
  simp only [hbytes'] at hmagic hversion hkind htotal hid hcount hlen
  have hlength : bytes.length = 40 + inode.blocks.length * 8 := by
    rw [← hbytes]
    simp
    omega
  have hcrc : readLe bytes 32 4 = recordCrc bytes := by
    rw [← hbytes]
    exact readLe_sealed (length_inodeFront _ _)
  have hrest : bytes.drop 36 = zeros 4 ++ wordBytes inode.blocks := by
    rw [← hbytes]
    exact drop_sealed (by simp)
  have hreserved : slice bytes 36 40 = zeros 4 := by
    unfold slice
    rw [List.drop_take, hrest]
    exact List.take_left' (by simp)
  have hblocks : bytes.drop 40 = wordBytes inode.blocks := by
    have := congrArg (List.drop 4) hrest
    rw [List.drop_drop] at this
    rw [this]
    exact List.drop_left' (by simp)
  have hmul : checkedMul inode.blocks.length 8 =
      some (inode.blocks.length * 8) := by
    rw [checkedMul_eq_some]
    exact ⟨by simp only [U64_LIMIT]; omega, rfl⟩
  have hadd : checkedAdd 40 (inode.blocks.length * 8) =
      some (40 + inode.blocks.length * 8) := by
    rw [checkedAdd_eq_some]
    exact ⟨by simp only [U64_LIMIT]; omega, rfl⟩
  have hwords : readWords (wordBytes inode.blocks) inode.blocks.length =
      inode.blocks := readWords_wordBytes inode.blocks
  have h40 : ¬ 40 + inode.blocks.length * 8 < 40 := by omega
  rw [PersistedInode.canonical_of_ok hcanonical]
  simp [decodeInode, hlength, hmagic, hversion, hreserved, htotal, hcount, hmul,
    hadd, hcrc, hid, hkind, kindOfCode_kindCode, hlen, hblocks, hwords,
    liftMessage, hfields, Except.mapError]

/-- A record that is accepted is the record of a canonical inode. -/
theorem encodeInode_of_decode {inode : PersistedInode} {bytes : List UInt8}
    (h : decodeInode bytes = .ok inode) :
    encodeInode inode = .ok bytes ∧ inode.canonical = inode := by
  simp only [decodeInode, Except.bind_eq_ok, rejectIf_eq_ok, okOr_eq_ok,
    checkedMul_eq_some, checkedAdd_eq_some, liftMessage_eq_ok,
    Except.pure_eq_ok, Except.ok.injEq, not_lt, not_ne_iff,
    Bool.not_eq_false] at h
  obtain ⟨_, h40, _, hmagic, _, hversion, _, hreserved, _, ⟨_, rfl⟩, _,
    ⟨_, rfl⟩, _, htotal, _, _, _, hlength, _, hcrc, kind, hkind, n, hfields,
    rfl⟩ := h
  have hexact := validateInodeFields_exact hfields
  subst hexact
  have hid : (UInt64.ofNat (readLe bytes 12 8)).toNat = readLe bytes 12 8 := by
    rw [UInt64.toNat_ofNat']
    exact Nat.mod_eq_of_lt
      (lt_of_lt_of_eq (readLe_lt bytes 12 8 (by omega)) (by decide))
  have hlen : (UInt64.ofNat (readLe bytes 24 8)).toNat = readLe bytes 24 8 := by
    rw [UInt64.toNat_ofNat']
    exact Nat.mod_eq_of_lt
      (lt_of_lt_of_eq (readLe_lt bytes 24 8 (by omega)) (by decide))
  have hcanonical : PersistedInode.canonicalByteLen
      { id := UInt64.ofNat (readLe bytes 12 8), kind,
        blocks := readWords (bytes.drop 40) (readLe bytes 20 4),
        byteLen := UInt64.ofNat (readLe bytes 24 8) } =
      .ok (UInt64.ofNat (readLe bytes 24 8)) :=
    liftMessage_eq_ok.mpr (validateInodeFields_canonical hfields true)
  refine ⟨?_, PersistedInode.canonical_of_ok hcanonical⟩
  rw [encodeInode_eq_ok]
  refine ⟨_, hcanonical, ?_, ?_⟩
  · have htotalLt := readLe_lt bytes 8 4 (by omega)
    simp only [length_readWords]
    omega
  · have hfront : bytes.take 32 = inodeFront
        { id := UInt64.ofNat (readLe bytes 12 8), kind,
          blocks := readWords (bytes.drop 40) (readLe bytes 20 4),
          byteLen := UInt64.ofNat (readLe bytes 24 8) }
        (UInt64.ofNat (readLe bytes 24 8)) := by
      simp only [inodeFront, length_readWords, hid, hlen]
      rw [kindCode_of_kindOfCode hkind, ← htotal, ← hmagic, ← hversion,
        ← slice_eq_leBytes bytes 4 2 (by omega),
        ← slice_eq_leBytes bytes 6 2 (by omega),
        ← slice_eq_leBytes bytes 8 4 (by omega),
        ← slice_eq_leBytes bytes 12 8 (by omega),
        ← slice_eq_leBytes bytes 20 4 (by omega),
        ← slice_eq_leBytes bytes 24 8 (by omega)]
      simp only [slice_append_slice, Nat.zero_le, Nat.reduceLeDiff,
        Nat.reduceAdd]
      rfl
    have hrest : bytes.drop 36 = zeros 4 ++
        wordBytes (readWords (bytes.drop 40) (readLe bytes 20 4)) := by
      rw [wordBytes_readWords (by rw [List.length_drop]; omega)]
      have hzeros := eq_zeros_of_allZero hreserved
      rw [length_slice_of_le (by omega)] at hzeros
      have hcut := List.take_append_drop 4 (bytes.drop 36)
      rw [List.drop_drop] at hcut
      rw [← hcut]
      congr 1
      rw [← hzeros]
      unfold slice
      rw [List.drop_take]
    have hsealed := eq_sealed bytes 32 (by omega) hcrc
    rw [hfront, hrest] at hsealed
    exact hsealed.symm

/-! ## The table -/

/-- The bytes of `b"FSLINOD\0"`. -/
def INODE_TABLE_MAGIC : List UInt8 :=
  [0x46, 0x53, 0x4c, 0x49, 0x4e, 0x4f, 0x44, 0x00]

/-- `src/inode_table.rs` as a table format. -/
def inodeFormat : TableFormat PersistedInode UInt64 where
  magic := INODE_TABLE_MAGIC
  noun := "inode"
  torn := "torn inode record in table"
  duplicate := "inode table contains duplicate inode identifiers"
  key := PersistedInode.id
  encode := encodeInode
  decode := decodeInode

theorem inodeFormat_lawful : inodeFormat.Lawful PersistedInode.canonical where
  length_magic := by simp [inodeFormat, INODE_TABLE_MAGIC]
  key_normal := PersistedInode.canonical_id
  length_encode := by
    intro inode bytes h
    obtain ⟨byteLen, _, hfit, rfl⟩ := encodeInode_eq_ok.mp h
    have hlength : (sealed (inodeFront inode byteLen)
        (zeros 4 ++ wordBytes inode.blocks)).length =
          40 + inode.blocks.length * 8 := by
      simp
      omega
    refine ⟨by omega, ?_⟩
    rw [hlength]
    unfold sealed
    rw [List.append_assoc]
    exact (inodeFront_reads inode byteLen hfit _).2.2.2.1
  decode_encode := decodeInode_of_encode
  encode_decode := encodeInode_of_decode

/-- `load_inode_table`. -/
def loadInodeTable {σ : Type} [BlockDevice σ] (device : σ) (sb : Superblock) :
    Result (List PersistedInode) :=
  inodeFormat.load device sb sb.inodeStart sb.inodeBlocks

/-- `store_inode_table`. -/
def storeInodeTable {σ : Type} [BlockDevice σ] (sb : Superblock)
    (inodes : List PersistedInode) : DevM σ Unit :=
  inodeFormat.store sb sb.inodeStart sb.inodeBlocks inodes

end FilesystemLab
