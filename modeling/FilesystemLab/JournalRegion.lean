import FilesystemLab.JournalFormat

/-!
# The journal reservation on a device

`src/journal_region.rs`: loading the journal, publishing one bounded version-2
image, and the retained version-3 journal with its two banks.

Every function checks its input and reads the current journal before its first
write.  The address and offset arithmetic inside a region is plain arithmetic
here: `regionCapacity` and `v3BankLayout` have checked that the whole region
has fewer than `2 ^ 64` bytes, and `validateRegion` that it lies on the device.
-/

namespace FilesystemLab

open Bytes JournalCodec WriteLog

section Device

variable {σ : Type} [BlockDevice σ]

/-! ## Loading -/

/-- `validate_region`. -/
def validateRegion (device : σ) (sb : Superblock) : Result Unit := do
  rejectIf (sb.totalBlocks ≠ blockCount device)
    (invalidInput "superblock block count does not match journal device")
  rejectIf (sb.journalStart ≠ SUPERBLOCK_BLOCK + 1 ∨ sb.journalBlocks = 0)
    (invalidInput "invalid journal reservation")
  let journalEnd ← okOr (checkedAdd sb.journalStart sb.journalBlocks)
    (invalidInput "journal block range overflow")
  rejectIf (journalEnd > sb.totalBlocks)
    (invalidInput "journal reservation exceeds filesystem size")

/-- `region_capacity`. -/
def regionCapacity (sb : Superblock) : Result Nat :=
  okOr (checkedMul sb.journalBlocks BLOCK_SIZE)
    (invalidInput "journal region byte size overflow")

/-- `read_complete_journal_region`. -/
def readCompleteJournalRegion (device : σ) (sb : Superblock)
    (firstBlock : Block) : Result (List UInt8) := do
  let _ ← regionCapacity sb
  let tail ← readImage device (sb.journalStart + 1) (sb.journalBlocks - 1)
  pure (firstBlock.bytes ++ tail)

/-- `V3BankLayout`. -/
structure V3BankLayout where
  blocksPerBank : Nat
  capacity : Nat

/-- `v3_bank_layout`. -/
def v3BankLayout (sb : Superblock) : Result V3BankLayout := do
  let blocksPerBank := (sb.journalBlocks - 1) / 2
  rejectIf (blocksPerBank = 0)
    (invalidInput "journal v3 requires at least three reserved journal blocks")
  let capacity ← okOr (checkedMul blocksPerBank BLOCK_SIZE)
    (invalidInput "journal v3 bank capacity overflow")
  pure { blocksPerBank, capacity }

/-- `v3_bank_start`. -/
def v3BankStart (sb : Superblock) (layout : V3BankLayout) (bank : Nat) :
    Result Nat := do
  rejectIf (bank > 1) (invalidInput "journal v3 bank index is invalid")
  pure (sb.journalStart + (bank * layout.blocksPerBank + 1))

/-- `read_v3_entries`. -/
def readV3Entries (device : σ) (sb : Superblock) (layout : V3BankLayout)
    (anchor : V3Anchor) : Result (List JournalEntry) := do
  rejectIf (anchor.payloadLen = 0 ∨ anchor.payloadLen > layout.capacity)
    (invalidData "journal v3 payload length is invalid")
  let start ← (v3BankStart sb layout anchor.bank).mapErr
    fun error => invalidData error.message
  let image ← readImage device start layout.blocksPerBank
  rejectIf (allZero (image.drop anchor.payloadLen) = false)
    (invalidData "journal v3 bank padding is non-zero")
  let payload := image.take anchor.payloadLen
  rejectIf (crc32 payload ≠ anchor.payloadCrc)
    (invalidData "journal v3 payload checksum mismatch")
  let entries ← decodeEntries payload
  validateEntries sb entries
  pure entries

/-- The part of `load_journal_image` behind the test for an empty anchor. -/
def loadActiveImage (device : σ) (sb : Superblock) (firstBlock : Block) :
    Result (List JournalEntry) := do
  match ← decodeV3Anchor firstBlock with
  | some anchor => do
    let layout ← v3BankLayout sb
    readV3Entries device sb layout anchor
  | none => do
    let region ← readCompleteJournalRegion device sb firstBlock
    decodeJournalRegion sb region

/-- `load_journal_image`. -/
def loadJournalImage (device : σ) (sb : Superblock) :
    Result (List JournalEntry) := do
  validateRegion device sb
  let firstBlock ← readBlock device sb.journalStart
  if ← isV2EmptyAnchor firstBlock then pure []
  else loadActiveImage device sb firstBlock

/-- `load_retained_journal_entries`. -/
def loadRetainedJournalEntries (device : σ) (sb : Superblock) :
    Result (Option (List JournalEntry)) := do
  validateRegion device sb
  let firstBlock ← readBlock device sb.journalStart
  match ← decodeV3Anchor firstBlock with
  | none => pure none
  | some anchor => do
    let layout ← v3BankLayout sb
    let entries ← readV3Entries device sb layout anchor
    validateCompleteEntries sb entries
    pure (some entries)

/-! ## Version-2 publication -/

/-- `initialize_journal_region`. -/
def initializeJournalRegion (sb : Superblock) : DevM σ Unit := do
  Effect.query (validateRegion · sb)
  writeBlock sb.journalStart emptyAnchorBlock

/-- `store_empty_journal_anchor`. -/
def storeEmptyJournalAnchor (sb : Superblock) : DevM σ Unit := do
  initializeJournalRegion sb
  flush

/-- `write_region_block`: the block that receives piece `index` of a region. -/
def regionBlock (sb : Superblock) (region : List UInt8) (index : Nat) :
    Nat × Block :=
  (sb.journalStart + index, Block.ofImage region index)

/-- The tail of a region, in the order `(1..block_count).rev()`. -/
def regionTail (sb : Superblock) (region : List UInt8) : List (Nat × Block) :=
  ((List.range' 1 (sb.journalBlocks - 1)).reverse).map (regionBlock sb region)

/-- The error of a publication over a journal that is in use. -/
def journalOccupied : IoError :=
  ⟨.wouldBlock,
    "journal contains an older transaction; recover and checkpoint before replacement"⟩

/-- The writes of `store_journal_image` once the image has passed its checks. -/
def publishRegion (sb : Superblock) (region : List UInt8) : DevM σ Unit := do
  storeEmptyJournalAnchor sb
  writeBlocks (regionTail sb region)
  flushIf (sb.journalBlocks > 1)
  writeBlocks [regionBlock sb region 0]
  flush

/-- `store_journal_image`. -/
def storeJournalImage (sb : Superblock) (entries : List JournalEntry) :
    DevM σ Unit := do
  Effect.query (validateRegion · sb)
  validateEntries sb entries
  let current ← Effect.query (loadJournalImage · sb)
  rejectIf (current ≠ []) journalOccupied
  if entries = [] then storeEmptyJournalAnchor sb
  else do
    let payload ← encodeEntries entries
    let capacity ← regionCapacity sb
    let used ← okOr (checkedAdd 32 payload.length)
      (invalidInput "journal region image length overflow")
    rejectIf (used > capacity)
      (invalidInput "journal image exceeds reserved region")
    publishRegion sb (activeRegion capacity payload)

/-! ## The retained journal -/

/-- The image of a bank that holds a payload. -/
def bankImage (layout : V3BankLayout) (payload : List UInt8) : List UInt8 :=
  payload ++ zeros (layout.capacity - payload.length)

/-- The writes of `write_v3_bank`, in order. -/
def bankWrites (start : Nat) (layout : V3BankLayout) (payload : List UInt8) :
    List (Nat × Block) :=
  (List.range layout.blocksPerBank).map fun index =>
    (start + index, Block.ofImage (bankImage layout payload) index)

/-- `write_v3_bank`. -/
def writeV3Bank (sb : Superblock) (layout : V3BankLayout) (bank : Nat)
    (payload : List UInt8) : DevM σ Unit := do
  rejectIf (payload.length > layout.capacity)
    (invalidInput "journal v3 payload exceeds bank capacity")
  let start ← v3BankStart sb layout bank
  writeBlocks (bankWrites start layout payload)

/-- `publish_v3_snapshot`. -/
def publishV3Snapshot (sb : Superblock) (layout : V3BankLayout)
    (targetBank generation : Nat) (entries : List JournalEntry) :
    DevM σ Unit := do
  validateCompleteEntries sb entries
  let payload ← encodeEntries entries
  rejectIf (payload.length > layout.capacity)
    (invalidInput "retained journal image exceeds one v3 bank")
  writeV3Bank sb layout targetBank payload
  flush
  let anchor ← encodeV3Anchor targetBank generation payload.length
    (crc32 payload)
  writeBlocks [(sb.journalStart, anchor)]
  flush

/-- The bank that is not in use. -/
def otherBank (anchor : V3Anchor) : Nat := if anchor.bank = 0 then 1 else 0

/-- The generation of the next snapshot. -/
def nextGeneration (anchor : V3Anchor) : Result Nat :=
  okOr (checkedAdd anchor.generation 1)
    (invalidInput "journal v3 generation exhausted")

/-- What `append_retained_journal_entries` appends to: the entries that are
retained so far, the bank to write and the generation of the new snapshot. -/
def retainedBase (device : σ) (sb : Superblock) (layout : V3BankLayout) :
    Result (List JournalEntry × Nat × Nat) := do
  let firstBlock ← readBlock device sb.journalStart
  match ← decodeV3Anchor firstBlock with
  | some anchor => do
    let current ← readV3Entries device sb layout anchor
    validateCompleteEntries sb current
    let generation ← nextGeneration anchor
    pure (current, otherBank anchor, generation)
  | none => do
    let current ← loadJournalImage device sb
    rejectIf (current ≠ [])
      ⟨.wouldBlock,
        "active v1/v2 journal must be checkpointed before retained publication"⟩
    pure ([], 0, 1)

/-- `append_retained_journal_entries`. -/
def appendRetainedJournalEntries (sb : Superblock)
    (entries : List JournalEntry) : DevM σ Unit := do
  Effect.query (validateRegion · sb)
  rejectIf (entries = [])
    (invalidInput "retained journal append requires entries")
  validateCompleteEntries sb entries
  let layout ← v3BankLayout sb
  let (current, targetBank, generation) ←
    Effect.query (retainedBase · sb layout)
  publishV3Snapshot sb layout targetBank generation (current ++ entries)

/-- The anchor that `replace_retained_journal_entries` replaces. -/
def activeAnchor (device : σ) (sb : Superblock) : Result V3Anchor := do
  let firstBlock ← readBlock device sb.journalStart
  okOr (← decodeV3Anchor firstBlock)
    (invalidInput "retained journal replacement requires an active v3 snapshot")

/-- `replace_retained_journal_entries`. -/
def replaceRetainedJournalEntries (sb : Superblock)
    (entries : List JournalEntry) : DevM σ Unit := do
  Effect.query (validateRegion · sb)
  if entries = [] then storeEmptyJournalAnchor sb
  else do
    validateCompleteEntries sb entries
    let layout ← v3BankLayout sb
    let anchor ← Effect.query (activeAnchor · sb)
    let generation ← nextGeneration anchor
    publishV3Snapshot sb layout (otherBank anchor) generation entries

end Device

end FilesystemLab
