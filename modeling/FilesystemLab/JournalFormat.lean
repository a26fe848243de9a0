import FilesystemLab.JournalCodec

/-!
# The formats of the journal reservation

`src/journal_region.rs`: the three on-disk formats of the reservation, as
functions of bytes.

* Version 1 and version 2 put a 32-byte header and the record stream at the
  start of the reservation, with zeros behind them.  Version 2 also has an
  *empty anchor*, a first block that says that nothing behind it counts.
* Version 3 has an anchor in the first block that names one of two banks.

The offsets of the fields, and the header size of 32 bytes, stand as numbers.

The main lemmas are the round trips.  `isV2EmptyAnchor_iff` says that exactly
one block is an empty anchor; `decodeJournalRegion_activeRegion` and
`decodeV3Anchor_encodeV3Anchor` read back what the writers produce.
-/

namespace FilesystemLab

open Bytes JournalCodec

/-- The bytes of `b"JRG1"`. -/
def REGION_MAGIC_V1 : List UInt8 := [0x4a, 0x52, 0x47, 0x31]

/-- The bytes of `b"JRG2"`. -/
def REGION_MAGIC_V2 : List UInt8 := [0x4a, 0x52, 0x47, 0x32]

/-- The bytes of `b"JRG3"`. -/
def REGION_MAGIC_V3 : List UInt8 := [0x4a, 0x52, 0x47, 0x33]

def REGION_VERSION_V1 : Nat := 1

def REGION_VERSION_V2 : Nat := 2

def REGION_VERSION_V3 : Nat := 3

def REGION_STATE_EMPTY : Nat := 0

def REGION_STATE_ACTIVE : Nat := 1

def V3_BANK_0 : Nat := 1

def V3_BANK_1 : Nat := 2

@[simp] theorem length_REGION_MAGIC_V2 : REGION_MAGIC_V2.length = 4 := by
  simp [REGION_MAGIC_V2]

@[simp] theorem length_REGION_MAGIC_V3 : REGION_MAGIC_V3.length = 4 := by
  simp [REGION_MAGIC_V3]

/-! ## Version 2 -/

/-- A version-2 header up to its checksum. -/
def headerFields (state payloadLen : Nat) : List UInt8 :=
  REGION_MAGIC_V2 ++ leBytes 2 REGION_VERSION_V2 ++ leBytes 2 state ++
    leBytes 8 payloadLen

@[simp] theorem length_headerFields (state payloadLen : Nat) :
    (headerFields state payloadLen).length = 16 := by
  simp [headerFields]

/-- The checksum of a header and its payload, with its own field taken as
zero. -/
def headerChecksum (state payloadLen : Nat) (payload : List UInt8) : UInt32 :=
  crc32 (headerFields state payloadLen ++ zeros 4 ++ (zeros 12 ++ payload))

/-- `empty_anchor_block`. -/
def emptyAnchorBlock : Block :=
  Block.ofBytes (headerFields REGION_STATE_EMPTY 0 ++
    leBytes 4 (headerChecksum REGION_STATE_EMPTY 0 []).toNat)

/-- `is_v2_empty_anchor`. -/
def isV2EmptyAnchor (block : Block) : Result Bool :=
  let bytes := block.bytes
  if slice bytes 0 4 ≠ REGION_MAGIC_V2 ∨
      readLe bytes 4 2 ≠ REGION_VERSION_V2 ∨
      readLe bytes 6 2 ≠ REGION_STATE_EMPTY then
    pure false
  else do
    rejectIf (allZero (slice bytes 20 32) = false)
      (invalidData "journal region reserved bytes are non-zero")
    rejectIf (readLe bytes 8 8 ≠ 0)
      (invalidData "empty journal anchor has a payload")
    rejectIf (allZero (bytes.drop 32) = false)
      (invalidData "empty journal anchor block padding is non-zero")
    rejectIf ((crc32 (zeroFill (bytes.take 32) 16 20)).toNat ≠
        readLe bytes 16 4)
      (invalidData "journal empty-anchor checksum mismatch")
    pure true

/-- The version-2 image that `store_journal_image` builds for a payload. -/
def activeRegion (capacity : Nat) (payload : List UInt8) : List UInt8 :=
  headerFields REGION_STATE_ACTIVE payload.length ++
    leBytes 4
      (headerChecksum REGION_STATE_ACTIVE payload.length payload).toNat ++
    (zeros 12 ++ payload) ++
    zeros (capacity - (32 + payload.length))

/-- The check of magic, version, state and payload length. -/
def checkRegionFormat (magic : List UInt8) (version state payloadLen : Nat) :
    Result Unit :=
  if magic = REGION_MAGIC_V1 ∧ version = REGION_VERSION_V1 then
    rejectIf (state ≠ 0) (invalidData "unsupported journal region v1 flags")
  else if magic = REGION_MAGIC_V2 ∧ version = REGION_VERSION_V2 then do
    rejectIf (state ≠ REGION_STATE_ACTIVE)
      (invalidData "unsupported journal region v2 state")
    rejectIf (payloadLen = 0)
      (invalidData "active journal anchor has an empty payload")
  else
    .error (invalidData "unsupported journal region magic/version")

/-- `decode_journal_region`. -/
def decodeJournalRegion (sb : Superblock) (region : List UInt8) :
    Result (List JournalEntry) :=
  if allZero region = true then pure []
  else do
    rejectIf (allZero (slice region 20 32) = false)
      (invalidData "journal region reserved bytes are non-zero")
    let payloadLen := readLe region 8 8
    checkRegionFormat (slice region 0 4) (readLe region 4 2) (readLe region 6 2)
      payloadLen
    let used ← okOr (checkedAdd 32 payloadLen)
      (invalidData "journal region used length overflow")
    rejectIf (used > region.length)
      (invalidData "journal payload exceeds reserved region")
    rejectIf (allZero (region.drop used) = false)
      (invalidData "journal region trailing padding is non-zero")
    rejectIf ((crc32 (zeroFill (region.take used) 16 20)).toNat ≠
        readLe region 16 4)
      (invalidData "journal region checksum mismatch")
    let entries ← decodeEntries (slice region 32 used)
    validateEntries sb entries
    pure entries

/-! ## Version 3 -/

/-- `V3Anchor`. -/
structure V3Anchor where
  bank : Nat
  generation : Nat
  payloadLen : Nat
  payloadCrc : UInt32
  deriving DecidableEq

/-- A version-3 anchor up to its checksum. -/
def anchorFields (bankCode generation payloadLen : Nat) (payloadCrc : UInt32) :
    List UInt8 :=
  REGION_MAGIC_V3 ++ leBytes 2 REGION_VERSION_V3 ++ leBytes 2 bankCode ++
    leBytes 8 generation ++ leBytes 8 payloadLen ++ leBytes 4 payloadCrc.toNat

@[simp] theorem length_anchorFields (bankCode generation payloadLen : Nat)
    (payloadCrc : UInt32) :
    (anchorFields bankCode generation payloadLen payloadCrc).length = 28 := by
  simp [anchorFields]

/-- The code of a bank in the anchor. -/
def bankCode (bank : Nat) : Result Nat :=
  if bank = 0 then pure V3_BANK_0
  else if bank = 1 then pure V3_BANK_1
  else .error (invalidInput "journal v3 bank index is invalid")

/-- `encode_v3_anchor`. -/
def encodeV3Anchor (bank generation payloadLen : Nat) (payloadCrc : UInt32) :
    Result Block := do
  let code ← bankCode bank
  rejectIf (generation = 0)
    (invalidInput "journal v3 generation zero is reserved")
  let fields := anchorFields code generation payloadLen payloadCrc
  pure (Block.ofBytes (fields ++ leBytes 4 (crc32 (fields ++ zeros 4)).toNat))

/-- The bank that a code in the anchor names. -/
def bankOfCode (code : Nat) : Result Nat :=
  if code = V3_BANK_0 then pure 0
  else if code = V3_BANK_1 then pure 1
  else .error (invalidData "journal v3 active bank is invalid")

/-- `decode_v3_anchor`. -/
def decodeV3Anchor (block : Block) : Result (Option V3Anchor) :=
  let bytes := block.bytes
  if slice bytes 0 4 ≠ REGION_MAGIC_V3 then pure none
  else do
    rejectIf (readLe bytes 4 2 ≠ REGION_VERSION_V3)
      (invalidData "unsupported journal region v3 version")
    rejectIf (allZero (bytes.drop 32) = false)
      (invalidData "journal v3 anchor padding is non-zero")
    let bank ← bankOfCode (readLe bytes 6 2)
    let generation := readLe bytes 8 8
    rejectIf (generation = 0)
      (invalidData "journal v3 generation zero is invalid")
    let payloadLen := readLe bytes 16 8
    let payloadCrc := UInt32.ofNat (readLe bytes 24 4)
    rejectIf ((crc32 (zeroFill (bytes.take 32) 28 32)).toNat ≠
        readLe bytes 28 4)
      (invalidData "journal v3 anchor checksum mismatch")
    pure (some { bank, generation, payloadLen, payloadCrc })

/-! ## The empty anchor -/

theorem bytes_emptyAnchorBlock :
    emptyAnchorBlock.bytes = headerFields REGION_STATE_EMPTY 0 ++
      leBytes 4 (headerChecksum REGION_STATE_EMPTY 0 []).toNat ++
        (zeros 12 ++ zeros (BLOCK_SIZE - 32)) := by
  have hb := blockSize_eq
  rw [emptyAnchorBlock, Block.bytes_ofBytes_of_le (by simp; omega),
    zeros_append]
  simp only [List.length_append, length_headerFields, length_leBytes]
  rw [show BLOCK_SIZE - (16 + 4) = 12 + (BLOCK_SIZE - 32) by omega]

/-- The header of a version-2 block, read back. -/
theorem header_reads {state payloadLen crc : Nat} {rest bytes : List UInt8}
    (hbytes : bytes = headerFields state payloadLen ++ leBytes 4 crc ++ rest)
    (hstate : state < 256 ^ 2) (hlen : payloadLen < 256 ^ 8)
    (hcrc : crc < 256 ^ 4) :
    slice bytes 0 4 = REGION_MAGIC_V2 ∧
      readLe bytes 4 2 = REGION_VERSION_V2 ∧ readLe bytes 6 2 = state ∧
      readLe bytes 8 8 = payloadLen ∧ readLe bytes 16 4 = crc := by
  subst hbytes
  refine ⟨?_, ?_, ?_, ?_, ?_⟩
  · simp [headerFields]
  · have hversion : REGION_VERSION_V2 < 256 ^ 2 := by decide
    simp [readLe, headerFields, ofLeBytes_leBytes 2 _ hversion]
  · simp [readLe, headerFields, ofLeBytes_leBytes 2 state hstate]
  · simp [readLe, headerFields, ofLeBytes_leBytes 8 payloadLen hlen]
  · simp [readLe, ofLeBytes_leBytes 4 crc hcrc]

/-- The bytes that a version-2 checksum covers. -/
theorem zeroFill_header {state payloadLen crc : Nat} {rest : List UInt8} :
    zeroFill (headerFields state payloadLen ++ leBytes 4 crc ++ rest) 16 20 =
      headerFields state payloadLen ++ zeros 4 ++ rest := by
  rw [zeroFill_append] <;> simp

theorem isV2EmptyAnchor_emptyAnchorBlock :
    isV2EmptyAnchor emptyAnchorBlock = .ok true := by
  have hb := blockSize_eq
  have hbytes := bytes_emptyAnchorBlock
  obtain ⟨hmagic, hversion, hstate, hlen, hcrc⟩ := header_reads hbytes
    (by decide) (by decide) (toNat_crc32_lt _)
  have hreserved : allZero (slice emptyAnchorBlock.bytes 20 32) = true := by
    rw [hbytes]
    simp
  have hpadding : allZero (emptyAnchorBlock.bytes.drop 32) = true := by
    rw [hbytes, ← List.append_assoc, List.drop_left' (by simp)]
    exact allZero_zeros _
  have htake : emptyAnchorBlock.bytes.take 32 =
      headerFields REGION_STATE_EMPTY 0 ++
        leBytes 4 (headerChecksum REGION_STATE_EMPTY 0 []).toNat ++
          (zeros 12 ++ []) := by
    rw [hbytes, ← List.append_assoc, List.take_left' (by simp),
      List.append_nil]
  have hsum : crc32 (zeroFill (emptyAnchorBlock.bytes.take 32) 16 20) =
      headerChecksum REGION_STATE_EMPTY 0 [] := by
    rw [htake, zeroFill_header, headerChecksum]
  simp [isV2EmptyAnchor, hmagic, hversion, hstate, hlen, hreserved, hpadding,
    hsum, hcrc]

/-- Only one block is an empty anchor. -/
theorem isV2EmptyAnchor_iff {block : Block} :
    isV2EmptyAnchor block = .ok true ↔ block = emptyAnchorBlock := by
  constructor
  · intro h
    have hb := blockSize_eq
    have hlength := block.length_eq
    simp only [isV2EmptyAnchor] at h
    split at h
    · simp at h
    rename_i hformat
    simp only [not_or, not_not] at hformat
    obtain ⟨hmagic, hversion, hstate⟩ := hformat
    simp only [Except.bind_eq_ok, rejectIf_eq_ok, Bool.not_eq_false,
      not_not] at h
    obtain ⟨_, hreserved, _, hlen, _, hpadding, _, hcrc, _⟩ := h
    have hver := slice_eq_leBytes block.bytes 4 2
      (by omega)
    have hst := slice_eq_leBytes block.bytes 6 2
      (by omega)
    have hln := slice_eq_leBytes block.bytes 8 8
      (by omega)
    have hck := slice_eq_leBytes block.bytes 16 4
      (by omega)
    have hzero : slice block.bytes 20 32 = zeros 12 := by
      rw [eq_zeros_of_allZero hreserved, length_slice_of_le (by omega)]
    have hpad : block.bytes.drop 32 = zeros (BLOCK_SIZE - 32) := by
      rw [eq_zeros_of_allZero hpadding, List.length_drop, hlength]
    rw [hversion] at hver
    rw [hstate] at hst
    rw [hlen] at hln
    have hfields : block.bytes.take 16 = headerFields REGION_STATE_EMPTY 0 := by
      rw [headerFields, ← hmagic, ← hver, ← hst, ← hln]
      simp only [slice_append_slice, Nat.zero_le, Nat.reduceLeDiff,
        Nat.reduceAdd]
      rw [slice_zero_eq_take]
    have hhead : block.bytes.take 32 = headerFields REGION_STATE_EMPTY 0 ++
        leBytes 4 (readLe block.bytes 16 4) ++ (zeros 12 ++ []) := by
      rw [← hfields, ← hck, ← hzero, ← slice_zero_eq_take,
        ← slice_zero_eq_take, List.append_nil]
      simp only [slice_append_slice, Nat.zero_le, Nat.reduceLeDiff,
        Nat.reduceAdd]
    rw [hhead, zeroFill_header] at hcrc
    apply Block.ext
    rw [bytes_emptyAnchorBlock, ← List.take_append_drop 32 block.bytes, hhead,
      hpad, ← hcrc, headerChecksum]
    simp
  · intro heq
    subst heq
    exact isV2EmptyAnchor_emptyAnchorBlock

/-- A block with another magic is no version-3 anchor. -/
theorem decodeV3Anchor_of_magic {block : Block}
    (h : slice block.bytes 0 4 ≠ REGION_MAGIC_V3) :
    decodeV3Anchor block = .ok none := by
  rw [decodeV3Anchor]
  exact if_pos h

theorem decodeV3Anchor_emptyAnchorBlock :
    decodeV3Anchor emptyAnchorBlock = .ok none := by
  have hmagic := (header_reads bytes_emptyAnchorBlock (by decide) (by decide)
    (toNat_crc32_lt _)).1
  exact decodeV3Anchor_of_magic (by rw [hmagic]; decide)

/-! ## The active image -/

theorem length_activeRegion {capacity : Nat} {payload : List UInt8}
    (h : 32 + payload.length ≤ capacity) :
    (activeRegion capacity payload).length = capacity := by
  simp only [activeRegion, List.length_append, length_headerFields,
    length_leBytes, length_zeros]
  omega

/-- The decoder reads the image of a validated stream back. -/
theorem decodeJournalRegion_activeRegion {sb : Superblock} {capacity : Nat}
    {entries : List JournalEntry} (hne : entries ≠ [])
    (hvalid : validateEntries sb entries = .ok ())
    (hfit : 32 + (stream entries).length ≤ capacity)
    (hcap : capacity < U64_LIMIT) :
    decodeJournalRegion sb (activeRegion capacity (stream entries)) =
      .ok entries := by
  have hlength := length_activeRegion hfit
  have hnonempty := stream_ne_nil hne
  have hdecode := decodeEntries_stream entries
  generalize stream entries = payload at *
  have hpos := List.length_pos_of_ne_nil hnonempty
  simp only [U64_LIMIT] at hcap
  have hbytes : activeRegion capacity payload =
      headerFields REGION_STATE_ACTIVE payload.length ++ leBytes 4
        (headerChecksum REGION_STATE_ACTIVE payload.length payload).toNat ++
        ((zeros 12 ++ payload) ++ zeros (capacity - (32 + payload.length))) :=
    List.append_assoc _ _ _
  obtain ⟨hmagic, hversion, hstate, hlen, hcrc⟩ := header_reads hbytes
    (by decide) (by omega) (toNat_crc32_lt _)
  have hreserved :
      allZero (slice (activeRegion capacity payload) 20 32) = true := by
    simp [activeRegion]
  have hpadding : allZero ((activeRegion capacity payload).drop
      (32 + payload.length)) = true := by
    rw [activeRegion, List.drop_left' (by simp; omega)]
    exact allZero_zeros _
  have htake : (activeRegion capacity payload).take (32 + payload.length) =
      headerFields REGION_STATE_ACTIVE payload.length ++ leBytes 4
        (headerChecksum REGION_STATE_ACTIVE payload.length payload).toNat ++
        (zeros 12 ++ payload) := by
    rw [activeRegion, List.take_left' (by simp; omega)]
  have hpayload : slice (activeRegion capacity payload) 32
      (32 + payload.length) = payload := by
    rw [← slice_take (Nat.le_refl _), htake, ← List.append_assoc,
      slice_append_right (by simp)]
    simp
  have hnotzero : ¬ allZero (activeRegion capacity payload) = true := by
    intro hzero
    have hz := eq_zeros_of_allZero hzero
    rw [hz, slice_zeros] at hmagic
    have hbad := congrArg List.head? hmagic
    rw [hlength, Nat.min_eq_left (by omega)] at hbad
    exact absurd hbad (by decide)
  have hformat : checkRegionFormat REGION_MAGIC_V2 REGION_VERSION_V2
      REGION_STATE_ACTIVE payload.length = .ok () := by
    rw [checkRegionFormat, if_neg (by decide), if_pos ⟨rfl, rfl⟩,
      rejectIf_of_not (by simp), Except.ok_bind, rejectIf_of_not (by omega)]
  have hadd : checkedAdd 32 payload.length = some (32 + payload.length) := by
    rw [checkedAdd_eq_some, U64_LIMIT]
    omega
  have hsum : crc32 (zeroFill ((activeRegion capacity payload).take
      (32 + payload.length)) 16 20) =
      headerChecksum REGION_STATE_ACTIVE payload.length payload := by
    rw [htake, zeroFill_header, headerChecksum]
  rw [decodeJournalRegion, if_neg hnotzero]
  simp only [hlen, hmagic, hversion, hstate, hcrc, hformat, hadd, okOr_some,
    Except.ok_bind, hsum, hpayload, hdecode, hvalid]
  simp [rejectIf, hreserved, hpadding, hlength, hfit]

/-- The first block of an active image is not taken for an anchor. -/
theorem first_activeRegion {n : Nat} {payload : List UInt8} (hn : 0 < n)
    (hfit : 32 + payload.length ≤ n * BLOCK_SIZE)
    (hcap : n * BLOCK_SIZE < U64_LIMIT) {block : Block}
    (hblock : block = Block.ofImage (activeRegion (n * BLOCK_SIZE) payload) 0) :
    isV2EmptyAnchor block = .ok false ∧ decodeV3Anchor block = .ok none := by
  have hb := blockSize_eq
  simp only [U64_LIMIT] at hcap
  have hbytes : block.bytes =
      (activeRegion (n * BLOCK_SIZE) payload).take BLOCK_SIZE := by
    rw [hblock, Block.bytes_ofImage (length_activeRegion hfit) hn, chunk]
    simp
  have hsplit : activeRegion (n * BLOCK_SIZE) payload =
      headerFields REGION_STATE_ACTIVE payload.length ++ leBytes 4
        (headerChecksum REGION_STATE_ACTIVE payload.length payload).toNat ++
        ((zeros 12 ++ payload) ++
          zeros (n * BLOCK_SIZE - (32 + payload.length))) :=
    List.append_assoc _ _ _
  obtain ⟨hmagic, hversion, hstate, _, _⟩ := header_reads hsplit (by decide)
    (by omega) (toNat_crc32_lt _)
  have hmagic' : slice block.bytes 0 4 = REGION_MAGIC_V2 := by
    rw [hbytes, slice_take (by omega), hmagic]
  have hstate' : readLe block.bytes 6 2 = REGION_STATE_ACTIVE := by
    rw [readLe, hbytes, slice_take (by omega), ← readLe, hstate]
  constructor
  · simp only [isV2EmptyAnchor]
    rw [if_pos]
    · rfl
    · exact .inr (.inr (by rw [hstate']; decide))
  · exact decodeV3Anchor_of_magic (by rw [hmagic']; decide)

/-- The header of a region without records says that there is no payload. -/
theorem payloadLen_of_decodeJournalRegion_nil {sb : Superblock}
    {region : List UInt8} (hlen : 32 ≤ region.length)
    (h : decodeJournalRegion sb region = .ok []) : readLe region 8 8 = 0 := by
  unfold decodeJournalRegion at h
  split at h
  · rename_i hzero
    have hz := eq_zeros_of_allZero hzero
    rw [hz, readLe, slice_zeros, Nat.min_eq_left (by omega)]
    decide
  simp only [Except.bind_eq_ok, rejectIf_eq_ok, okOr_eq_ok,
    checkedAdd_eq_some, Except.pure_eq_ok, Except.ok.injEq] at h
  obtain ⟨_, _, _, _, used, ⟨_, rfl⟩, _, hused, _, _, _, _, entries, hdecode, _,
    _, rfl⟩ := h
  by_contra hne
  refine ne_nil_of_decodeEntries hdecode ?_ rfl
  refine List.ne_nil_of_length_pos ?_
  rw [length_slice]
  omega

/-- Behind a header that says that there is no payload, every byte is zero. -/
theorem allZero_drop_of_decodeJournalRegion {sb : Superblock}
    {region : List UInt8} {entries : List JournalEntry}
    (h : decodeJournalRegion sb region = .ok entries)
    (hlen : readLe region 8 8 = 0) : allZero (region.drop 32) = true := by
  unfold decodeJournalRegion at h
  split at h
  · rename_i hzero
    rw [eq_zeros_of_allZero hzero, drop_zeros]
    exact allZero_zeros _
  simp only [Except.bind_eq_ok, rejectIf_eq_ok, okOr_eq_ok,
    checkedAdd_eq_some, Except.pure_eq_ok, Except.ok.injEq,
    Bool.not_eq_false, hlen, Nat.add_zero] at h
  obtain ⟨_, _, _, _, used, ⟨_, rfl⟩, _, _, _, hpadding, _⟩ := h
  exact hpadding

/-! ## The version-3 anchor -/

/-- What a version-3 anchor must satisfy to be written. -/
structure V3Anchor.Valid (anchor : V3Anchor) : Prop where
  bank_le : anchor.bank ≤ 1
  generation_pos : anchor.generation ≠ 0
  generation_lt : anchor.generation < U64_LIMIT
  payloadLen_lt : anchor.payloadLen < U64_LIMIT

theorem bankCode_eq_ok {bank : Nat} (h : bank ≤ 1) :
    bankCode bank = .ok (bank + 1) := by
  rcases Nat.le_one_iff_eq_zero_or_eq_one.mp h with rfl | rfl <;> rfl

/-- An anchor that is written is read back. -/
theorem encodeV3Anchor_spec {anchor : V3Anchor} (h : anchor.Valid) :
    ∃ block, encodeV3Anchor anchor.bank anchor.generation anchor.payloadLen
        anchor.payloadCrc = .ok block ∧
      isV2EmptyAnchor block = .ok false ∧
      decodeV3Anchor block = .ok (some anchor) := by
  obtain ⟨bank, generation, payloadLen, payloadCrc⟩ := anchor
  obtain ⟨hbank, hgen, hgenlt, hlen⟩ := h
  simp only at hbank hgen hgenlt hlen
  simp only [U64_LIMIT] at hgenlt hlen
  have hb := blockSize_eq
  have hcode := bankCode_eq_ok hbank
  set fields := anchorFields (bank + 1) generation payloadLen payloadCrc
    with hfields
  set crc := crc32 (fields ++ zeros 4) with hcrc
  have hflen : fields.length = 28 := by rw [hfields]; simp
  refine ⟨Block.ofBytes (fields ++ leBytes 4 crc.toNat), ?_, ?_⟩
  · simp [encodeV3Anchor, hcode, rejectIf, hgen, hfields, hcrc]
  set block := Block.ofBytes (fields ++ leBytes 4 crc.toNat) with hblock
  have hbytes : block.bytes =
      fields ++ leBytes 4 crc.toNat ++ zeros (BLOCK_SIZE - 32) := by
    rw [hblock, Block.bytes_ofBytes_of_le (by simp [hflen]; omega)]
    simp [hflen]
  have hmagic : slice block.bytes 0 4 = REGION_MAGIC_V3 := by
    rw [hbytes, hfields]
    simp [anchorFields]
  have hversion : readLe block.bytes 4 2 = REGION_VERSION_V3 := by
    have hlt : REGION_VERSION_V3 < 256 ^ 2 := by decide
    rw [hbytes, hfields]
    simp [readLe, anchorFields, ofLeBytes_leBytes 2 _ hlt]
  have hbankRead : readLe block.bytes 6 2 = bank + 1 := by
    have hlt : bank + 1 < 256 ^ 2 := by omega
    rw [hbytes, hfields]
    simp [readLe, anchorFields, ofLeBytes_leBytes 2 _ hlt]
  have hgenRead : readLe block.bytes 8 8 = generation := by
    have hlt : generation < 256 ^ 8 := by omega
    rw [hbytes, hfields]
    simp [readLe, anchorFields, ofLeBytes_leBytes 8 _ hlt]
  have hlenRead : readLe block.bytes 16 8 = payloadLen := by
    have hlt : payloadLen < 256 ^ 8 := by omega
    rw [hbytes, hfields]
    simp [readLe, anchorFields, ofLeBytes_leBytes 8 _ hlt]
  have hcrcRead : readLe block.bytes 24 4 = payloadCrc.toNat := by
    have hlt : payloadCrc.toNat < 256 ^ 4 := payloadCrc.toNat_lt
    rw [hbytes, hfields]
    simp [readLe, anchorFields, ofLeBytes_leBytes 4 _ hlt]
  have hsumRead : readLe block.bytes 28 4 = crc.toNat := by
    have hlt : crc.toNat < 256 ^ 4 := crc.toNat_lt
    rw [hbytes]
    simp [readLe, hflen, ofLeBytes_leBytes 4 _ hlt]
  have hpadding : allZero (block.bytes.drop 32) = true := by
    rw [hbytes, List.drop_left' (by simp [hflen])]
    exact allZero_zeros _
  have hsum : crc32 (zeroFill (block.bytes.take 32) 28 32) = crc := by
    rw [hbytes, List.take_left' (by simp [hflen]),
      ← List.append_nil (fields ++ _), zeroFill_append hflen (by simp [hflen]),
      hcrc]
    simp
  constructor
  · simp only [isV2EmptyAnchor]
    rw [if_pos]
    · rfl
    · exact .inl (by rw [hmagic]; decide)
  · have hcodes : bankOfCode (bank + 1) = .ok bank := by
      rcases Nat.le_one_iff_eq_zero_or_eq_one.mp hbank with rfl | rfl <;> rfl
    simp only [decodeV3Anchor]
    rw [if_neg (by simp [hmagic])]
    simp only [hbankRead, hcodes, hgenRead, hlenRead, hcrcRead, hsumRead, hsum,
      Except.ok_bind]
    simp [rejectIf, hversion, hpadding, hgen]

/-- What the decoder has checked about an anchor. -/
theorem valid_of_decodeV3Anchor {block : Block} {anchor : V3Anchor}
    (h : decodeV3Anchor block = .ok (some anchor)) : anchor.Valid := by
  have hb := blockSize_eq
  have hlength := block.length_eq
  simp only [decodeV3Anchor] at h
  split at h
  · simp at h
  simp only [Except.bind_eq_ok, rejectIf_eq_ok, Except.pure_eq_ok,
    Except.ok.injEq, Option.some.injEq] at h
  obtain ⟨_, _, _, _, bank, hbank, _, hgen, _, _, rfl⟩ := h
  have hgenlt := readLe_lt block.bytes 8 8 (by omega)
  have hlenlt := readLe_lt block.bytes 16 8 (by omega)
  refine ⟨?_, hgen, by simp only [U64_LIMIT]; omega,
    by simp only [U64_LIMIT]; omega⟩
  simp only
  unfold bankOfCode at hbank
  split at hbank
  · simp only [Except.pure_eq_ok, Except.ok.injEq] at hbank
    omega
  · split at hbank
    · simp only [Except.pure_eq_ok, Except.ok.injEq] at hbank
      omega
    · simp at hbank

end FilesystemLab
