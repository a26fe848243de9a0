import FilesystemLab.InodeTable

/-!
# Directory entries on disk

`src/directory_codec.rs` and `src/directory_table.rs`: the checksummed record of
one namespace entry and the table of them.  A parent has at most one entry of a
name.

A Rust `String` is a Lean `String`: both are valid UTF-8, so `nameBytes` is
`as_bytes` and `nameOfBytes` is `str::from_utf8`.
-/

namespace FilesystemLab

open Bytes

/-- `PersistedDirectoryEntry`. -/
structure PersistedDirectoryEntry where
  parent : UInt64
  target : UInt64
  name : String
  deriving DecidableEq, Repr

/-- `name.as_bytes()`. -/
def nameBytes (name : String) : List UInt8 := name.toByteArray.data.toList

/-- `str::from_utf8(bytes)`. -/
def nameOfBytes (bytes : List UInt8) : Option String :=
  String.fromUTF8? ⟨bytes.toArray⟩

theorem nameOfBytes_nameBytes (name : String) :
    nameOfBytes (nameBytes name) = some name := by
  unfold nameOfBytes nameBytes
  rw [Array.toArray_toList]
  unfold String.fromUTF8?
  rw [dif_pos name.isValidUTF8]
  rfl

theorem nameBytes_of_nameOfBytes {bytes : List UInt8} {name : String}
    (h : nameOfBytes bytes = some name) : nameBytes name = bytes := by
  unfold nameOfBytes String.fromUTF8? at h
  split at h
  · cases h
    rfl
  · cases h

/-! ## Records -/

theorem nameBytes_eq_nil {target : String} :
    nameBytes target = [] ↔ target = "" := by
  constructor
  · intro h
    have hempty := nameOfBytes_nameBytes target
    have hnil : nameBytes "" = [] := rfl
    rw [h, ← hnil, nameOfBytes_nameBytes, Option.some.injEq] at hempty
    exact hempty.symm
  · intro heq
    subst heq
    rfl

/-- The bytes of `b"DNT1"`. -/
def DIRECTORY_ENTRY_MAGIC : List UInt8 := [0x44, 0x4e, 0x54, 0x31]

def DIRECTORY_ENTRY_VERSION : Nat := 1

def DIRECTORY_NAME_MAX_BYTES : Nat := 255

@[simp] theorem length_DIRECTORY_ENTRY_MAGIC :
    DIRECTORY_ENTRY_MAGIC.length = 4 := by
  simp [DIRECTORY_ENTRY_MAGIC]

/-- A name that is not a single path component. -/
def InvalidName (name : String) : Prop :=
  name = "" ∨ name = "." ∨ name = ".." ∨ '/' ∈ name.toList ∨
    Char.ofNat 0 ∈ name.toList ∨
    (nameBytes name).length > DIRECTORY_NAME_MAX_BYTES

instance (name : String) : Decidable (InvalidName name) :=
  inferInstanceAs (Decidable (_ ∨ _ ∨ _ ∨ _ ∨ _ ∨ _))

/-- `validate_name`. -/
def validateName (name : String) (kind : ErrorKind) : Result Unit :=
  rejectIf (InvalidName name) ⟨kind, "invalid directory entry name"⟩

/-- The part of a directory record in front of its checksum. -/
def directoryFront (entry : PersistedDirectoryEntry) : List UInt8 :=
  DIRECTORY_ENTRY_MAGIC ++ leBytes 2 DIRECTORY_ENTRY_VERSION ++ leBytes 2 0 ++
    leBytes 4 (40 + (nameBytes entry.name).length) ++
    leBytes 2 (nameBytes entry.name).length ++ leBytes 2 0 ++
    leBytes 8 entry.parent.toNat ++ leBytes 8 entry.target.toNat

@[simp] theorem length_directoryFront (entry : PersistedDirectoryEntry) :
    (directoryFront entry).length = 32 := by
  simp [directoryFront]

/-- `encode_directory_entry`. -/
def encodeDirectoryEntry (entry : PersistedDirectoryEntry) :
    Result (List UInt8) := do
  rejectIf (entry.parent = 0 ∨ entry.target = 0)
    (invalidInput "directory entry inode identifier zero is reserved")
  validateName entry.name .invalidInput
  rejectIf ((nameBytes entry.name).length ≥ 2 ^ 16)
    (invalidInput "directory entry name length exceeds codec limit")
  let totalLen ← okOr (checkedAdd 40 (nameBytes entry.name).length)
    (invalidInput "directory entry size overflow")
  rejectIf (totalLen ≥ 2 ^ 32)
    (invalidInput "directory entry length exceeds codec limit")
  pure (sealed (directoryFront entry) (leBytes 4 0 ++ nameBytes entry.name))

/-- `decode_directory_entry`. -/
def decodeDirectoryEntry (bytes : List UInt8) :
    Result PersistedDirectoryEntry := do
  rejectIf (bytes.length < 40) ⟨.unexpectedEof, "torn directory entry header"⟩
  rejectIf (slice bytes 0 4 ≠ DIRECTORY_ENTRY_MAGIC)
    (invalidData "invalid directory entry magic")
  rejectIf (readLe bytes 4 2 ≠ DIRECTORY_ENTRY_VERSION) (invalidData
    ("unsupported directory entry version " ++ toString (readLe bytes 4 2)))
  rejectIf (readLe bytes 6 2 ≠ 0 ∨ readLe bytes 14 2 ≠ 0 ∨ readLe bytes 36 4 ≠ 0)
    (invalidData "directory entry reserved fields are non-zero")
  let totalLen := readLe bytes 8 4
  let nameLen := readLe bytes 12 2
  let expectedLen ← okOr (checkedAdd 40 nameLen)
    (invalidData "directory entry size overflow")
  rejectIf (totalLen ≠ expectedLen)
    (invalidData "directory entry length does not match name length")
  rejectIf (bytes.length < totalLen)
    ⟨.unexpectedEof, "torn directory entry payload"⟩
  rejectIf (bytes.length ≠ totalLen)
    (invalidData "directory entry decoder requires exactly one record")
  rejectIf (readLe bytes 32 4 ≠ recordCrc bytes)
    (invalidData "directory entry checksum mismatch")
  let parent := UInt64.ofNat (readLe bytes 16 8)
  let target := UInt64.ofNat (readLe bytes 24 8)
  rejectIf (parent = 0 ∨ target = 0)
    (invalidData "directory entry inode identifier zero is reserved")
  let name ← okOr (nameOfBytes (bytes.drop 40))
    (invalidData "directory entry name is not UTF-8")
  validateName name .invalidData
  pure { parent, target, name }

/-- An entry that can be stored: two inode identifiers and a path
component. -/
def PersistedDirectoryEntry.Valid (entry : PersistedDirectoryEntry) : Prop :=
  entry.parent ≠ 0 ∧ entry.target ≠ 0 ∧ ¬ InvalidName entry.name

instance (entry : PersistedDirectoryEntry) : Decidable entry.Valid :=
  inferInstanceAs (Decidable (_ ∧ _ ∧ _))

theorem PersistedDirectoryEntry.Valid.length_name
    {entry : PersistedDirectoryEntry} (h : entry.Valid) :
    (nameBytes entry.name).length ≤ 255 := by
  have hname := h.2.2
  unfold InvalidName at hname
  simp only [not_or, DIRECTORY_NAME_MAX_BYTES] at hname
  omega

/-- `encode_directory_entry` stores exactly the valid entries. -/
theorem encodeDirectoryEntry_eq_ok {entry : PersistedDirectoryEntry}
    {bytes : List UInt8} :
    encodeDirectoryEntry entry = .ok bytes ↔
      entry.Valid ∧ sealed (directoryFront entry)
        (leBytes 4 0 ++ nameBytes entry.name) = bytes := by
  simp only [encodeDirectoryEntry, validateName, Except.bind_eq_ok,
    rejectIf_eq_ok, okOr_eq_ok, checkedAdd_eq_some, Except.pure_eq_ok,
    Except.ok.injEq, not_or, ge_iff_le, not_le]
  constructor
  · intro hfacts
    rcases hfacts with ⟨_, ⟨hparent, htarget⟩, _, hname, _, _, _, ⟨_, rfl⟩, _,
      _, h⟩
    exact ⟨⟨hparent, htarget, hname⟩, h⟩
  · intro hfacts
    rcases hfacts with ⟨hvalid, h⟩
    have hlen := hvalid.length_name
    exact ⟨(), ⟨hvalid.1, hvalid.2.1⟩, (), hvalid.2.2, (), by omega, _,
      ⟨by simp only [U64_LIMIT]; omega, rfl⟩, (), by omega, h⟩

/-- The fields of a record, as the decoder reads them. -/
theorem directoryFront_reads {entry : PersistedDirectoryEntry}
    (hvalid : entry.Valid) (rest : List UInt8) :
    let bytes := directoryFront entry ++ rest
    slice bytes 0 4 = DIRECTORY_ENTRY_MAGIC ∧
      readLe bytes 4 2 = DIRECTORY_ENTRY_VERSION ∧ readLe bytes 6 2 = 0 ∧
      readLe bytes 8 4 = 40 + (nameBytes entry.name).length ∧
      readLe bytes 12 2 = (nameBytes entry.name).length ∧
      readLe bytes 14 2 = 0 ∧ readLe bytes 16 8 = entry.parent.toNat ∧
      readLe bytes 24 8 = entry.target.toNat := by
  have hlen := hvalid.length_name
  have h2 : ofLeBytes (leBytes 2 DIRECTORY_ENTRY_VERSION) =
      DIRECTORY_ENTRY_VERSION := ofLeBytes_leBytes 2 _ (by decide)
  have h0 : ofLeBytes (leBytes 2 0) = 0 := ofLeBytes_leBytes 2 _ (by decide)
  have h4 : ofLeBytes (leBytes 4 (40 + (nameBytes entry.name).length)) =
      40 + (nameBytes entry.name).length := ofLeBytes_leBytes 4 _ (by omega)
  have h2n : ofLeBytes (leBytes 2 (nameBytes entry.name).length) =
      (nameBytes entry.name).length := ofLeBytes_leBytes 2 _ (by omega)
  have h8p : ofLeBytes (leBytes 8 entry.parent.toNat) = entry.parent.toNat :=
    ofLeBytes_leBytes 8 _ (lt_of_lt_of_eq entry.parent.toNat_lt (by decide))
  have h8t : ofLeBytes (leBytes 8 entry.target.toNat) = entry.target.toNat :=
    ofLeBytes_leBytes 8 _ (lt_of_lt_of_eq entry.target.toNat_lt (by decide))
  refine ⟨?_, ?_, ?_, ?_, ?_, ?_, ?_, ?_⟩
  · simp [directoryFront]
  · simp [directoryFront, readLe, h2]
  · simp [directoryFront, readLe, h0]
  · simp [directoryFront, readLe, h4]
  · simp [directoryFront, readLe, h2n]
  · simp [directoryFront, readLe, h0]
  · simp [directoryFront, readLe, h8p]
  · simp [directoryFront, readLe, h8t]

/-- A stored entry is decoded as itself. -/
theorem decodeDirectoryEntry_of_encode {entry : PersistedDirectoryEntry}
    {bytes : List UInt8} (h : encodeDirectoryEntry entry = .ok bytes) :
    decodeDirectoryEntry bytes = .ok entry := by
  obtain ⟨hvalid, hbytes⟩ := encodeDirectoryEntry_eq_ok.mp h
  have hlen := hvalid.length_name
  obtain ⟨hmagic, hversion, hflags, htotal, hname, hzero, hparent, hto⟩ :=
    directoryFront_reads hvalid (leBytes 4 (crc32 (directoryFront
      entry ++ zeros 4 ++ (leBytes 4 0 ++ nameBytes entry.name))).toNat ++
      (leBytes 4 0 ++ nameBytes entry.name))
  have hbytes' : directoryFront entry ++ (leBytes 4 (crc32 (directoryFront
      entry ++ zeros 4 ++ (leBytes 4 0 ++ nameBytes entry.name))).toNat ++
      (leBytes 4 0 ++ nameBytes entry.name)) = bytes := by
    rw [← hbytes, ← List.append_assoc]
    rfl
  simp only [hbytes'] at hmagic hversion hflags htotal hname hzero hparent hto
  have hlength : bytes.length = 40 + (nameBytes entry.name).length := by
    rw [← hbytes]
    simp
    omega
  have hcrc : readLe bytes 32 4 = recordCrc bytes := by
    rw [← hbytes]
    exact readLe_sealed (length_directoryFront _)
  have hrest : bytes.drop 36 = leBytes 4 0 ++ nameBytes entry.name := by
    rw [← hbytes]
    exact drop_sealed (by simp)
  have hreserved32 : readLe bytes 36 4 = 0 := by
    have hslice : slice bytes 36 (36 + 4) = leBytes 4 0 := by
      unfold slice
      rw [List.drop_take, hrest]
      exact List.take_left' (by simp)
    unfold readLe
    rw [hslice]
    exact ofLeBytes_leBytes 4 _ (by decide)
  have hdrop : bytes.drop 40 = nameBytes entry.name := by
    have := congrArg (List.drop 4) hrest
    rw [List.drop_drop] at this
    rw [this]
    exact List.drop_left' (by simp)
  have hadd : checkedAdd 40 (nameBytes entry.name).length =
      some (40 + (nameBytes entry.name).length) := by
    rw [checkedAdd_eq_some]
    exact ⟨by simp only [U64_LIMIT]; omega, rfl⟩
  simp [decodeDirectoryEntry, validateName, hlength, hmagic, hversion, hflags,
    hzero, hreserved32, htotal, hname, hadd, hcrc, hparent, hto, hdrop,
    nameOfBytes_nameBytes, rejectIf_of_not hvalid.2.2, hvalid.1, hvalid.2.1]

/-- A record that is accepted is the record of a valid entry. -/
theorem encodeDirectoryEntry_of_decode {entry : PersistedDirectoryEntry}
    {bytes : List UInt8} (h : decodeDirectoryEntry bytes = .ok entry) :
    encodeDirectoryEntry entry = .ok bytes := by
  simp only [decodeDirectoryEntry, validateName, Except.bind_eq_ok,
    rejectIf_eq_ok, okOr_eq_ok, checkedAdd_eq_some, Except.pure_eq_ok,
    Except.ok.injEq, not_lt, not_ne_iff, not_or] at h
  obtain ⟨_, h40, _, hmagic, _, hversion, _, ⟨hflags, hreserved, hreserved32⟩,
    _, ⟨_, rfl⟩, _, htotal, _, _, _, hlength, _, hcrc, _, ⟨hparent, htarget⟩,
    name, hname, _, hvalid, rfl⟩ := h
  have hbytes := nameBytes_of_nameOfBytes hname
  have hnameLen : (nameBytes name).length = readLe bytes 12 2 := by
    rw [hbytes, List.length_drop]
    omega
  have hparentNat : (UInt64.ofNat (readLe bytes 16 8)).toNat =
      readLe bytes 16 8 := by
    rw [UInt64.toNat_ofNat']
    exact Nat.mod_eq_of_lt
      (lt_of_lt_of_eq (readLe_lt bytes 16 8 (by omega)) (by decide))
  have htargetNat : (UInt64.ofNat (readLe bytes 24 8)).toNat =
      readLe bytes 24 8 := by
    rw [UInt64.toNat_ofNat']
    exact Nat.mod_eq_of_lt
      (lt_of_lt_of_eq (readLe_lt bytes 24 8 (by omega)) (by decide))
  have hzero6 : leBytes 2 0 = slice bytes 6 (6 + 2) := by
    rw [slice_eq_leBytes bytes 6 2 (by omega), hflags]
  have hzero14 : leBytes 2 0 = slice bytes 14 (14 + 2) := by
    rw [slice_eq_leBytes bytes 14 2 (by omega), hreserved]
  have hzero36 : leBytes 4 0 = slice bytes 36 (36 + 4) := by
    rw [slice_eq_leBytes bytes 36 4 (by omega), hreserved32]
  have hfront : bytes.take 32 = directoryFront
      { parent := UInt64.ofNat (readLe bytes 16 8),
        target := UInt64.ofNat (readLe bytes 24 8), name } := by
    simp only [directoryFront, hnameLen, hparentNat, htargetNat]
    rw [← htotal, ← hmagic, ← hversion]
    nth_rewrite 1 [hzero6]
    rw [hzero14, ← slice_eq_leBytes bytes 4 2 (by omega),
      ← slice_eq_leBytes bytes 8 4 (by omega),
      ← slice_eq_leBytes bytes 12 2 (by omega),
      ← slice_eq_leBytes bytes 16 8 (by omega),
      ← slice_eq_leBytes bytes 24 8 (by omega)]
    simp only [slice_append_slice, Nat.zero_le, Nat.reduceLeDiff,
      Nat.reduceAdd]
    rfl
  have hrest : bytes.drop 36 = leBytes 4 0 ++ nameBytes name := by
    rw [hzero36, hbytes]
    have hcut := List.take_append_drop 4 (bytes.drop 36)
    rw [List.drop_drop] at hcut
    rw [← hcut]
    congr 1
    unfold slice
    rw [List.drop_take]
  rw [encodeDirectoryEntry_eq_ok]
  refine ⟨⟨hparent, htarget, hvalid⟩, ?_⟩
  have hsealed := eq_sealed bytes 32 (by omega) hcrc
  rw [hfront, hrest] at hsealed
  exact hsealed.symm

/-! ## The table -/

/-- The bytes of `b"FSLDIR\0\0"`. -/
def DIRECTORY_TABLE_MAGIC : List UInt8 :=
  [0x46, 0x53, 0x4c, 0x44, 0x49, 0x52, 0x00, 0x00]

/-- `src/directory_table.rs` as a table format. -/
def directoryFormat : TableFormat PersistedDirectoryEntry (UInt64 × String) where
  magic := DIRECTORY_TABLE_MAGIC
  noun := "directory"
  torn := "torn directory entry in table"
  duplicate := "directory table contains duplicate parent/name entry"
  key := fun entry => (entry.parent, entry.name)
  encode := encodeDirectoryEntry
  decode := decodeDirectoryEntry

theorem directoryFormat_lawful : directoryFormat.Lawful id where
  length_magic := by simp [directoryFormat, DIRECTORY_TABLE_MAGIC]
  key_normal := fun _ => rfl
  length_encode := by
    intro entry bytes h
    obtain ⟨hvalid, rfl⟩ := encodeDirectoryEntry_eq_ok.mp h
    have hlength : (sealed (directoryFront entry)
        (leBytes 4 0 ++ nameBytes entry.name)).length =
          40 + (nameBytes entry.name).length := by
      simp
      omega
    refine ⟨by omega, ?_⟩
    rw [hlength]
    unfold sealed
    rw [List.append_assoc]
    exact (directoryFront_reads hvalid _).2.2.2.1
  decode_encode := decodeDirectoryEntry_of_encode
  encode_decode := fun h => ⟨encodeDirectoryEntry_of_decode h, rfl⟩

/-- `load_directory_table`. -/
def loadDirectoryTable {σ : Type} [BlockDevice σ] (device : σ)
    (sb : Superblock) : Result (List PersistedDirectoryEntry) :=
  directoryFormat.load device sb sb.directoryStart sb.directoryBlocks

/-- `store_directory_table`. -/
def storeDirectoryTable {σ : Type} [BlockDevice σ] (sb : Superblock)
    (entries : List PersistedDirectoryEntry) : DevM σ Unit :=
  directoryFormat.store sb sb.directoryStart sb.directoryBlocks entries

end FilesystemLab
