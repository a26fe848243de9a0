import FilesystemLab.Journal

/-!
# The journal record codec

`src/journal_codec.rs`: a journal entry is one record with a 32-byte header,
and a write record carries one block behind it.  The checksum covers the record
with its own field taken as zero.

`decodeRecord_encodeEntry` and `encodeEntry_of_decodeRecord` are the two
directions of one record; `decodeEntries_stream` and `stream_of_decodeEntries`
carry them to streams.
-/

namespace FilesystemLab.JournalCodec

open Bytes

/-- The bytes of `b"JNL1"`. -/
def RECORD_MAGIC : List UInt8 := [0x4a, 0x4e, 0x4c, 0x31]

def RECORD_VERSION : Nat := 1

def HEADER_SIZE : Nat := 32

def KIND_BEGIN : UInt8 := 1

def KIND_WRITE : UInt8 := 2

def KIND_COMMIT : UInt8 := 3

@[simp] theorem length_RECORD_MAGIC : RECORD_MAGIC.length = 4 := by
  simp [RECORD_MAGIC]

/-! ## Encoding -/

/-- The header fields of a record, up to the checksum. -/
def recordFields (kind : UInt8) (len : Nat) (txid block : UInt64) :
    List UInt8 :=
  RECORD_MAGIC ++ leBytes 2 RECORD_VERSION ++ leBytes 1 kind.toNat ++
    leBytes 1 0 ++ leBytes 4 len ++ leBytes 8 txid.toNat ++
    leBytes 8 block.toNat

@[simp] theorem length_recordFields (kind : UInt8) (len : Nat)
    (txid block : UInt64) : (recordFields kind len txid block).length = 28 := by
  simp [recordFields]

/-- One record of the given kind. -/
def encodeRecord (kind : UInt8) (txid block : UInt64) (payload : List UInt8) :
    List UInt8 :=
  let fields := recordFields kind (HEADER_SIZE + payload.length) txid block
  let checksum := crc32 (fields ++ zeros 4 ++ payload)
  fields ++ leBytes 4 checksum.toNat ++ payload

@[simp] theorem length_encodeRecord (kind : UInt8) (txid block : UInt64)
    (payload : List UInt8) :
    (encodeRecord kind txid block payload).length =
      HEADER_SIZE + payload.length := by
  simp only [encodeRecord, HEADER_SIZE, List.length_append, length_leBytes,
    length_recordFields]

/-- The bytes after the header of an entry's record. -/
def payloadOf : JournalEntry → List UInt8
  | .begin _ => []
  | .write _ _ data => data.bytes
  | .commit _ => []

/-- The record of an entry. -/
def encodeEntry : JournalEntry → List UInt8
  | .begin txid => encodeRecord KIND_BEGIN txid 0 []
  | .write txid block data => encodeRecord KIND_WRITE txid block data.bytes
  | .commit txid => encodeRecord KIND_COMMIT txid 0 []

theorem length_encodeEntry (e : JournalEntry) :
    (encodeEntry e).length = HEADER_SIZE + (payloadOf e).length := by
  cases e <;> simp [encodeEntry, payloadOf]

theorem headerSize_le_length_encodeEntry (e : JournalEntry) :
    HEADER_SIZE ≤ (encodeEntry e).length := by
  rw [length_encodeEntry]
  omega

/-- `encode_entries`. -/
def encodeEntries : List JournalEntry → Result (List UInt8)
  | [] => pure []
  | e :: es => do
    rejectIf (HEADER_SIZE + (payloadOf e).length ≥ 2 ^ 32)
      (invalidInput "journal record length exceeds u32")
    let rest ← encodeEntries es
    pure (encodeEntry e ++ rest)

/-- The encoded stream.  `encodeEntries_eq` shows that the length check of the
source never rejects. -/
def stream (entries : List JournalEntry) : List UInt8 :=
  entries.flatMap encodeEntry

theorem length_payloadOf_lt (e : JournalEntry) :
    HEADER_SIZE + (payloadOf e).length < 2 ^ 32 := by
  have hb := blockSize_eq
  cases e <;> simp [payloadOf, HEADER_SIZE, hb]

theorem encodeEntries_eq (entries : List JournalEntry) :
    encodeEntries entries = .ok (stream entries) := by
  induction entries with
  | nil => rfl
  | cons e es ih =>
    have hlen := length_payloadOf_lt e
    rw [encodeEntries, rejectIf_of_not (by omega), Except.ok_bind, ih]
    rfl

theorem stream_append (es fs : List JournalEntry) :
    stream (es ++ fs) = stream es ++ stream fs := by
  simp only [stream, List.flatMap_append]

theorem stream_cons (e : JournalEntry) (es : List JournalEntry) :
    stream (e :: es) = encodeEntry e ++ stream es := rfl

theorem stream_ne_nil {es : List JournalEntry} (h : es ≠ []) :
    stream es ≠ [] := by
  cases es with
  | nil => exact absurd rfl h
  | cons e es =>
    have hlen := headerSize_le_length_encodeEntry e
    intro hnil
    rw [stream_cons, List.append_eq_nil_iff] at hnil
    rw [hnil.1] at hlen
    simp [HEADER_SIZE] at hlen

/-- A stream starts with the magic of its first record. -/
theorem head?_stream {es : List JournalEntry} (h : es ≠ []) :
    (stream es).head? = some 0x4a := by
  cases es with
  | nil => exact absurd rfl h
  | cons e es => cases e <;> rfl

/-! ## Decoding -/

/-- `require_control_record`. -/
def requireControlRecord (block : UInt64) (payload : List UInt8) :
    Result Unit := do
  rejectIf (block ≠ 0)
    (invalidData "journal control record has non-zero block field")
  rejectIf (payload ≠ [])
    (invalidData "journal control record has unexpected payload")

/-- The entry of a record whose header and checksum were accepted. -/
def decodePayload (kind : UInt8) (txid block : UInt64)
    (payload : List UInt8) : Result JournalEntry :=
  if kind = KIND_BEGIN then do
    requireControlRecord block payload
    pure (.begin txid)
  else if kind = KIND_WRITE then
    if h : payload.length = BLOCK_SIZE then
      pure (.write txid block ⟨payload, h⟩)
    else
      .error (invalidData "journal write record has invalid payload length")
  else if kind = KIND_COMMIT then do
    requireControlRecord block payload
    pure (.commit txid)
  else
    .error (invalidData "unknown journal record kind")

/-- One iteration of the loop of `decode_entries`, on the bytes from the cursor
on: the entry and the length of its record. -/
def decodeRecord (bytes : List UInt8) : Result (JournalEntry × Nat) := do
  rejectIf (bytes.length < HEADER_SIZE)
    (invalidData "truncated journal record header")
  rejectIf (slice bytes 0 4 ≠ RECORD_MAGIC)
    (invalidData "invalid journal record magic")
  rejectIf (readLe bytes 4 2 ≠ RECORD_VERSION)
    (invalidData "unsupported journal record version")
  rejectIf (readLe bytes 7 1 ≠ 0)
    (invalidData "unsupported journal record flags")
  let recordLen := readLe bytes 8 4
  rejectIf (recordLen < HEADER_SIZE)
    (invalidData "journal record length is smaller than header")
  rejectIf (bytes.length < recordLen)
    (invalidData "truncated journal record payload")
  let record := bytes.take recordLen
  rejectIf ((crc32 (zeroFill record 28 32)).toNat ≠ readLe bytes 28 4)
    (invalidData "journal record checksum mismatch")
  let entry ← decodePayload (UInt8.ofNat (readLe bytes 6 1))
    (UInt64.ofNat (readLe bytes 12 8)) (UInt64.ofNat (readLe bytes 20 8))
    (slice bytes HEADER_SIZE recordLen)
  pure (entry, recordLen)

/-- An accepted record has at least a header, so the cursor advances. -/
theorem headerSize_le_of_decodeRecord {bytes : List UInt8} {e : JournalEntry}
    {n : Nat} (h : decodeRecord bytes = .ok (e, n)) :
    HEADER_SIZE ≤ n ∧ n ≤ bytes.length := by
  simp only [decodeRecord, Except.bind_eq_ok, rejectIf_eq_ok,
    Except.pure_eq_ok, Except.ok.injEq, Prod.mk.injEq] at h
  obtain ⟨_, _, _, _, _, _, _, _, _, hlen, _, htrunc, _, _, _, _, _, rfl⟩ := h
  omega

/-- `decode_entries`. -/
def decodeEntries (bytes : List UInt8) : Result (List JournalEntry) :=
  if _hempty : bytes = [] then pure []
  else
    match _h : decodeRecord bytes with
    | .error e => .error e
    | .ok (entry, recordLen) => do
      let rest ← decodeEntries (bytes.drop recordLen)
      pure (entry :: rest)
termination_by bytes.length
decreasing_by
  have hlen := headerSize_le_of_decodeRecord _h
  simp only [HEADER_SIZE] at hlen
  rw [List.length_drop]
  omega

/-! ## Decoding what was encoded -/

theorem decodePayload_ok {e : JournalEntry} :
    ∃ kind txid block, encodeEntry e =
        encodeRecord kind txid block (payloadOf e) ∧
      decodePayload kind txid block (payloadOf e) = .ok e := by
  cases e with
  | begin txid =>
    exact ⟨KIND_BEGIN, txid, 0, rfl, by
      simp [decodePayload, payloadOf, requireControlRecord]⟩
  | write txid block data =>
    refine ⟨KIND_WRITE, txid, block, rfl, ?_⟩
    simp [decodePayload, payloadOf, KIND_WRITE, KIND_BEGIN]
  | commit txid =>
    refine ⟨KIND_COMMIT, txid, 0, rfl, ?_⟩
    simp [decodePayload, payloadOf, requireControlRecord, KIND_WRITE,
      KIND_BEGIN, KIND_COMMIT]

/-- The decoder reads an encoded record back, whatever follows it. -/
theorem decodeRecord_encodeRecord {kind : UInt8} {txid block : UInt64}
    {payload rest : List UInt8} {e : JournalEntry}
    (hlen : HEADER_SIZE + payload.length < 2 ^ 32)
    (h : decodePayload kind txid block payload = .ok e) :
    decodeRecord (encodeRecord kind txid block payload ++ rest) =
      .ok (e, HEADER_SIZE + payload.length) := by
  have htxid : txid.toNat < 256 ^ 8 := txid.toNat_lt
  have hblock : block.toNat < 256 ^ 8 := block.toNat_lt
  have hkind : kind.toNat < 256 ^ 1 := kind.toNat_lt
  have hcrc := toNat_crc32_lt
    (recordFields kind (HEADER_SIZE + payload.length) txid block ++ zeros 4 ++
      payload)
  have hfill : zeroFill (encodeRecord kind txid block payload) 28 32 =
      recordFields kind (HEADER_SIZE + payload.length) txid block ++ zeros 4 ++
        payload := by
    rw [encodeRecord, zeroFill_append] <;> simp
  have htake : (encodeRecord kind txid block payload ++ rest).take
      (HEADER_SIZE + payload.length) = encodeRecord kind txid block payload :=
    List.take_left' (length_encodeRecord _ _ _ _)
  have hreadLen : readLe (encodeRecord kind txid block payload ++ rest) 8 4 =
      HEADER_SIZE + payload.length := by
    rw [← ofLeBytes_leBytes 4 (HEADER_SIZE + payload.length) (by omega)]
    simp [readLe, encodeRecord, recordFields]
  have hpayload : slice (encodeRecord kind txid block payload ++ rest)
      HEADER_SIZE (HEADER_SIZE + payload.length) = payload := by
    have hsub : 32 + payload.length - 28 - 4 = payload.length := by omega
    simp [encodeRecord, HEADER_SIZE, hsub]
  have hreadTxid : readLe (encodeRecord kind txid block payload ++ rest) 12 8 =
      txid.toNat := by
    rw [← ofLeBytes_leBytes 8 txid.toNat htxid]
    simp [readLe, encodeRecord, recordFields]
  have hreadBlock : readLe (encodeRecord kind txid block payload ++ rest) 20 8 =
      block.toNat := by
    rw [← ofLeBytes_leBytes 8 block.toNat hblock]
    simp [readLe, encodeRecord, recordFields]
  have hreadKind : readLe (encodeRecord kind txid block payload ++ rest) 6 1 =
      kind.toNat := by
    rw [← ofLeBytes_leBytes 1 kind.toNat hkind]
    simp [readLe, encodeRecord, recordFields]
  have hreadFlags : readLe (encodeRecord kind txid block payload ++ rest) 7 1 =
      0 := by
    rw [← ofLeBytes_leBytes 1 0 (by decide)]
    simp [readLe, encodeRecord, recordFields]
  have hreadCrc : readLe (encodeRecord kind txid block payload ++ rest) 28 4 =
      (crc32 (recordFields kind (HEADER_SIZE + payload.length) txid block ++
        zeros 4 ++ payload)).toNat := by
    rw [← ofLeBytes_leBytes 4 _ hcrc]
    simp [readLe, encodeRecord]
  have hmagic : slice (encodeRecord kind txid block payload ++ rest) 0 4 =
      RECORD_MAGIC := by
    simp [encodeRecord, recordFields]
  have hversion : readLe (encodeRecord kind txid block payload ++ rest) 4 2 =
      RECORD_VERSION := by
    rw [← ofLeBytes_leBytes 2 RECORD_VERSION (by decide)]
    simp [readLe, encodeRecord, recordFields]
  rw [decodeRecord, hmagic, hversion, hreadFlags, hreadLen, hreadTxid,
    hreadBlock, hreadKind, hreadCrc]
  dsimp only
  rw [htake, hfill, hpayload]
  have hle : HEADER_SIZE ≤ HEADER_SIZE + payload.length + rest.length := by
    omega
  simp [rejectIf, h, hle]

theorem decodeRecord_encodeEntry (e : JournalEntry) (rest : List UInt8) :
    decodeRecord (encodeEntry e ++ rest) =
      .ok (e, (encodeEntry e).length) := by
  obtain ⟨kind, txid, block, henc, hdec⟩ := decodePayload_ok (e := e)
  rw [length_encodeEntry, henc]
  exact decodeRecord_encodeRecord (length_payloadOf_lt e) hdec

/-- Decoding an encoded stream gives the entries back. -/
theorem decodeEntries_stream (entries : List JournalEntry) :
    decodeEntries (stream entries) = .ok entries := by
  induction entries with
  | nil =>
    rw [decodeEntries]
    rfl
  | cons e es ih =>
    have hne : stream (e :: es) ≠ [] := stream_ne_nil (by simp)
    rw [decodeEntries, dif_neg hne]
    split
    · rename_i err herr
      rw [stream_cons, decodeRecord_encodeEntry] at herr
      exact absurd herr (by simp)
    · rename_i entry recordLen hok
      rw [stream_cons, decodeRecord_encodeEntry] at hok
      simp only [Except.ok.injEq, Prod.mk.injEq] at hok
      obtain ⟨rfl, rfl⟩ := hok
      rw [stream_cons, List.drop_left, ih]
      rfl

/-! ## Encoding what was decoded -/

/-- A record that the decoder accepts is the encoding of its entry. -/
theorem encodeEntry_of_decodePayload {kind : UInt8} {txid block : UInt64}
    {payload : List UInt8} {e : JournalEntry}
    (h : decodePayload kind txid block payload = .ok e) :
    encodeEntry e = encodeRecord kind txid block payload := by
  unfold decodePayload at h
  split at h
  · rename_i hkind
    simp only [requireControlRecord, Except.bind_eq_ok, rejectIf_eq_ok,
      Except.pure_eq_ok, Except.ok.injEq, not_not] at h
    obtain ⟨_, ⟨_, hblock, hpayload⟩, rfl⟩ := h
    rw [encodeEntry, hkind, hblock, hpayload]
  split at h
  · rename_i hkind
    split at h
    · simp only [Except.pure_eq_ok, Except.ok.injEq] at h
      subst h
      rw [encodeEntry, hkind]
    · exact absurd h (by simp)
  split at h
  · rename_i hkind
    simp only [requireControlRecord, Except.bind_eq_ok, rejectIf_eq_ok,
      Except.pure_eq_ok, Except.ok.injEq, not_not] at h
    obtain ⟨_, ⟨_, hblock, hpayload⟩, rfl⟩ := h
    rw [encodeEntry, hkind, hblock, hpayload]
  · exact absurd h (by simp)

/-- The header of a record, from the numbers that the decoder reads there. -/
theorem take_eq_recordFields {bytes : List UInt8} (hlen : 28 ≤ bytes.length)
    (hmagic : slice bytes 0 4 = RECORD_MAGIC)
    (hversion : readLe bytes 4 2 = RECORD_VERSION)
    (hflags : readLe bytes 7 1 = 0) :
    bytes.take 28 =
      recordFields (UInt8.ofNat (readLe bytes 6 1)) (readLe bytes 8 4)
        (UInt64.ofNat (readLe bytes 12 8))
        (UInt64.ofNat (readLe bytes 20 8)) := by
  have hkind := slice_eq_leBytes bytes 6 1 (by omega)
  have htxid := slice_eq_leBytes bytes 12 8 (by omega)
  have hblock := slice_eq_leBytes bytes 20 8 (by omega)
  have hsize := slice_eq_leBytes bytes 8 4 (by omega)
  have hver := slice_eq_leBytes bytes 4 2 (by omega)
  have hflag := slice_eq_leBytes bytes 7 1 (by omega)
  rw [hversion] at hver
  rw [hflags] at hflag
  have hlt6 := readLe_lt bytes 6 1 (by omega)
  have hlt12 := readLe_lt bytes 12 8 (by omega)
  have hlt20 := readLe_lt bytes 20 8 (by omega)
  rw [recordFields, ← hmagic, ← hver, ← hflag, ← hsize,
    UInt8.toNat_ofNat_of_lt' (by omega), UInt64.toNat_ofNat_of_lt' (by omega),
    UInt64.toNat_ofNat_of_lt' (by omega), ← hkind, ← htxid, ← hblock]
  simp only [slice_append_slice, Nat.zero_le, Nat.reduceLeDiff, Nat.reduceAdd]
  rw [slice_zero_eq_take]

theorem encodeEntry_of_decodeRecord {bytes : List UInt8} {e : JournalEntry}
    {n : Nat} (h : decodeRecord bytes = .ok (e, n)) :
    encodeEntry e = bytes.take n := by
  simp only [decodeRecord, Except.bind_eq_ok, rejectIf_eq_ok,
    Except.pure_eq_ok, Except.ok.injEq, Prod.mk.injEq, not_not] at h
  obtain ⟨_, hlen, _, hmagic, _, hversion, _, hflags, _, hsize, _, htrunc, _,
    hcrc, e, hentry, rfl, rfl⟩ := h
  simp only [HEADER_SIZE] at hlen hsize
  have hfields := take_eq_recordFields (by omega) hmagic hversion hflags
  have hcrcField := slice_eq_leBytes bytes 28 4
    (by omega)
  generalize readLe bytes 8 4 = n at *
  have hpayload : (slice bytes 32 n).length = n - 32 :=
    length_slice_of_le (by omega)
  have hparts : bytes.take n =
      bytes.take 28 ++ slice bytes 28 32 ++ slice bytes 32 n := by
    rw [← slice_zero_eq_take, ← slice_zero_eq_take, slice_append_slice (by omega)
      (by omega), slice_append_slice (by omega) (by omega)]
  rw [encodeEntry_of_decodePayload hentry, encodeRecord]
  simp only [HEADER_SIZE]
  rw [hpayload, show 32 + (n - 32) = n by omega, ← hfields]
  have hzero : zeroFill (bytes.take n) 28 32 =
      bytes.take 28 ++ zeros 4 ++ slice bytes 32 n := by
    rw [hparts, zeroFill_append (by simp; omega) (by
      rw [length_slice_of_le (by omega), List.length_take]; omega),
      length_slice_of_le (by omega)]
  rw [← hzero, hcrc, ← hcrcField, ← hparts]

/-- Encoding the entries of an accepted stream gives its bytes back. -/
theorem stream_of_decodeEntries {bytes : List UInt8} :
    ∀ {entries : List JournalEntry}, decodeEntries bytes = .ok entries →
      stream entries = bytes := by
  induction hn : bytes.length using Nat.strong_induction_on
    generalizing bytes with
  | _ n ih =>
    intro entries h
    rw [decodeEntries] at h
    split at h
    · rename_i hnil
      simp only [Except.pure_eq_ok, Except.ok.injEq] at h
      rw [hnil, ← h]
      rfl
    split at h
    · exact absurd h (by simp)
    · rename_i e len hrec
      simp only [Except.bind_eq_ok, Except.pure_eq_ok, Except.ok.injEq] at h
      obtain ⟨rest, hrest, rfl⟩ := h
      have hlen := headerSize_le_of_decodeRecord hrec
      simp only [HEADER_SIZE] at hlen
      have hshort : (bytes.drop len).length < n := by
        rw [List.length_drop]
        omega
      rw [stream_cons, ih _ hshort rfl hrest,
        encodeEntry_of_decodeRecord hrec, List.take_append_drop]

/-- An accepted byte string that is not empty has an entry. -/
theorem ne_nil_of_decodeEntries {bytes : List UInt8}
    {entries : List JournalEntry} (h : decodeEntries bytes = .ok entries)
    (hne : bytes ≠ []) : entries ≠ [] := by
  rw [decodeEntries, dif_neg hne] at h
  split at h
  · exact absurd h (by simp)
  · simp only [Except.bind_eq_ok, Except.pure_eq_ok, Except.ok.injEq] at h
    obtain ⟨rest, _, rfl⟩ := h
    simp

/-! ## The codec as a bijection -/

/-- A stream that starts with another stream starts with its entries: the
records delimit themselves. -/
theorem prefix_of_stream_prefix {es fs : List JournalEntry}
    (h : stream es <+: stream fs) : es <+: fs := by
  induction es generalizing fs with
  | nil => exact List.nil_prefix
  | cons e es ih =>
    cases fs with
    | nil =>
      have hnil : stream (e :: es) = [] := List.prefix_nil.mp h
      exact absurd hnil (stream_ne_nil (by simp))
    | cons f fs =>
      obtain ⟨rest, hrest⟩ := h
      rw [stream_cons, stream_cons, List.append_assoc] at hrest
      -- both first records are read from the same bytes
      have hrecord := decodeRecord_encodeEntry e (stream es ++ rest)
      rw [hrest, decodeRecord_encodeEntry] at hrecord
      have hentry : f = e := congrArg Prod.fst (Except.ok.inj hrecord)
      subst hentry
      have htail : stream es <+: stream fs :=
        ⟨rest, List.append_cancel_left hrest⟩
      exact List.cons_prefix_cons.mpr ⟨rfl, ih htail⟩

/-- **The record codec is a bijection** between the lists of entries and the
byte strings that it accepts.  The last part says that only a cut between two
records leaves an accepted prefix. -/
theorem journalCodec_bijection :
    (∀ entries, ∃ bytes, encodeEntries entries = .ok bytes ∧
      decodeEntries bytes = .ok entries) ∧
    (∀ bytes entries, decodeEntries bytes = .ok entries →
      encodeEntries entries = .ok bytes) ∧
    (∀ bytes bytes' entries, decodeEntries bytes = .ok entries →
      decodeEntries bytes' = .ok entries → bytes = bytes') ∧
    ∀ bytes entries, decodeEntries bytes = .ok entries →
      ∀ front frontEntries, front <+: bytes →
        decodeEntries front = .ok frontEntries →
          frontEntries <+: entries ∧
            encodeEntries frontEntries = .ok front := by
  have hencode : ∀ bytes entries, decodeEntries bytes = .ok entries →
      encodeEntries entries = .ok bytes := by
    intro bytes entries h
    rw [encodeEntries_eq, stream_of_decodeEntries h]
  refine ⟨?_, hencode, ?_, ?_⟩
  · intro entries
    exact ⟨_, encodeEntries_eq entries, decodeEntries_stream entries⟩
  · intro bytes bytes' entries h h'
    rw [← stream_of_decodeEntries h, ← stream_of_decodeEntries h']
  · intro bytes entries h front frontEntries hfront h'
    refine ⟨?_, hencode front frontEntries h'⟩
    apply prefix_of_stream_prefix
    rw [stream_of_decodeEntries h, stream_of_decodeEntries h']
    exact hfront

end FilesystemLab.JournalCodec
