import FilesystemLab.AllocationDisk
import FilesystemLab.JournalContents
import FilesystemLab.Namespace
import FilesystemLab.SymlinkPayload

/-!
# Read-only consistency check

`check_device` of `src/fsck.rs`: the superblock, the allocation image, the two
tables, the ownership of data blocks, the payloads of symbolic links, the
namespace and the journal.

`Owned` says what the ownership audit accepts, and `checkDevice_iff` gives the
whole check as a conjunction of what each layer holds.

The counters of the source count elements of a slice, so their `checked_add`
cannot fail; they are plain numbers here.
-/

namespace FilesystemLab

/-! ## Ownership of data blocks -/

/-- Every reference of an inode to a block, in the order of the two loops. -/
def references (inodes : List PersistedInode) : List (UInt64 × UInt64) :=
  inodes.flatMap fun inode => inode.blocks.map fun block => (block, inode.id)

/-- The first loop of `scan_inode_ownership`: the owner of each referenced
block. -/
def scanReferences (sb : Superblock) (a : BlockAllocator)
    (owners : List (UInt64 × UInt64)) :
    List (UInt64 × UInt64) → Result (List (UInt64 × UInt64))
  | [] => pure owners
  | (block, inode) :: refs => do
    rejectIf (block.toNat < sb.reservedBlocks ∨ block.toNat ≥ sb.totalBlocks)
      (invalidData ("inode " ++ toString inode ++
        " references reserved or out-of-range block " ++ toString block))
    let allocated ← (a.isOwned block.toNat).mapError
      fun e => invalidData e.message
    rejectIf (allocated = false) (invalidData ("inode " ++ toString inode ++
      " references unallocated block " ++ toString block))
    match owners.lookup block with
    | some previous => .error (invalidData ("block " ++ toString block ++
        " is owned by both inode " ++ toString previous ++ " and inode " ++
        toString inode))
    | none => scanReferences sb a ((block, inode) :: owners) refs

/-- The second loop of `scan_inode_ownership`: allocated blocks without an
owner. -/
def orphanedAllocations (a : BlockAllocator)
    (owners : List (UInt64 × UInt64)) : List Nat → Result (List Nat)
  | [] => pure []
  | block :: blocks => do
    let allocated ← (a.isOwned block).mapError fun e => invalidData e.message
    let rest ← orphanedAllocations a owners blocks
    pure (if allocated = true ∧ owners.lookup (UInt64.ofNat block) = none then
      block :: rest else rest)

/-- `OwnershipAudit`. -/
structure OwnershipAudit where
  referencedBlocks : Nat
  orphanedAllocations : List Nat

/-- `scan_inode_ownership`. -/
def scanInodeOwnership (sb : Superblock) (a : BlockAllocator)
    (inodes : List PersistedInode) : Result OwnershipAudit := do
  let owners ← scanReferences sb a [] (references inodes)
  let orphaned ← orphanedAllocations a owners
    (List.range' sb.reservedBlocks (sb.totalBlocks - sb.reservedBlocks))
  pure ⟨(references inodes).length, orphaned⟩

/-- `audit_inode_ownership`. -/
def auditInodeOwnership (sb : Superblock) (a : BlockAllocator)
    (inodes : List PersistedInode) : Result Nat := do
  let ownership ← scanInodeOwnership sb a inodes
  match ownership.orphanedAllocations with
  | [] => pure ownership.referencedBlocks
  | block :: _ => .error (invalidData ("allocated block " ++ toString block ++
      " has no inode owner"))

/-- The inodes own exactly the allocated data blocks, each once. -/
structure Owned (sb : Superblock) (a : BlockAllocator)
    (inodes : List PersistedInode) : Prop where
  data : ∀ inode ∈ inodes, ∀ block ∈ inode.blocks, a.flag block.toNat = true
  nodup : (inodes.flatMap PersistedInode.blocks).Nodup
  owner : ∀ block, a.flag block = true →
    ∃ inode ∈ inodes, ∃ b ∈ inode.blocks, b.toNat = block

/-- No inodes own no blocks. -/
theorem owned_nil {sb : Superblock} {a : BlockAllocator}
    (h : ∀ b, a.flag b = false) : Owned sb a [] := by
  refine ⟨by simp, by simp, ?_⟩
  intro b hflag
  rw [h b] at hflag
  cases hflag

theorem references_fst (inodes : List PersistedInode) :
    (references inodes).map Prod.fst =
      inodes.flatMap PersistedInode.blocks := by
  unfold references
  rw [List.map_flatMap]
  refine List.flatMap_congr fun inode _ => ?_
  rw [List.map_map]
  simp [Function.comp_def]

theorem lookup_eq_none {owners : List (UInt64 × UInt64)} {block : UInt64} :
    owners.lookup block = none ↔ block ∉ owners.map Prod.fst := by
  rw [List.lookup_eq_none_iff]
  simp only [List.mem_map, not_exists, not_and, bne_iff_ne, ne_eq]
  constructor
  · intro h w hw heq
    exact h w hw heq.symm
  · intro h w hw heq
    exact h w hw heq.symm

/-- The first loop accepts distinct allocated data blocks. -/
theorem scanReferences_eq_ok {sb : Superblock} {a : BlockAllocator}
    (htotal : a.totalBlocks = sb.totalBlocks)
    (hreserved : a.reservedBlocks = sb.reservedBlocks)
    {refs owners final : List (UInt64 × UInt64)} :
    scanReferences sb a owners refs = .ok final ↔
      (∀ r ∈ refs, a.flag r.1.toNat = true) ∧ (refs.map Prod.fst).Nodup ∧
        (∀ r ∈ refs, r.1 ∉ owners.map Prod.fst) ∧
        final = refs.reverse ++ owners := by
  induction refs generalizing owners with
  | nil =>
    simp only [scanReferences, Except.pure_eq_ok, Except.ok.injEq]
    constructor
    · intro heq
      subst heq
      simp
    · intro hfacts
      rcases hfacts with ⟨_, _, _, rfl⟩
      simp
  | cons r refs ih =>
    obtain ⟨block, inode⟩ := r
    simp only [scanReferences, Except.bind_eq_ok, rejectIf_eq_ok, not_or,
      not_lt, ge_iff_le, not_le]
    constructor
    · intro hfacts
      rcases hfacts with ⟨_, ⟨hlo, hhi⟩, allocated, hallocated, _, hset, h⟩
      rw [BlockAllocator.isOwned_of_data (by omega) (by omega)] at hallocated
      simp only [Except.mapError, Except.ok.injEq] at hallocated
      split at h
      · simp at h
      · rename_i hfresh
        rw [lookup_eq_none] at hfresh
        obtain ⟨hflags, hnodup, hnotMem, rfl⟩ := ih.mp h
        refine ⟨?_, ?_, ?_, by simp⟩
        · rw [List.forall_mem_cons]
          refine ⟨?_, hflags⟩
          rw [hallocated]
          simpa using hset
        · rw [List.map_cons, List.nodup_cons]
          refine ⟨?_, hnodup⟩
          intro hmem
          obtain ⟨r, hr, hfst⟩ := List.mem_map.mp hmem
          exact hnotMem r hr (by simp [hfst])
        · rw [List.forall_mem_cons]
          refine ⟨hfresh, ?_⟩
          intro r hr hmem
          exact hnotMem r hr (by simp only [List.map_cons]; exact List.mem_cons_of_mem _ hmem)
    · intro hfacts
      rcases hfacts with ⟨hflags, hnodup, hnotMem, rfl⟩
      rw [List.forall_mem_cons] at hflags hnotMem
      rw [List.map_cons, List.nodup_cons] at hnodup
      have hrange := BlockAllocator.range_of_flag hflags.1
      simp only at hrange
      refine ⟨(), ⟨by omega, by omega⟩, true, ?_, (), by simp, ?_⟩
      · rw [BlockAllocator.isOwned_of_data (by omega) (by omega)]
        simp [Except.mapError, hflags.1]
      · rw [lookup_eq_none.mpr hnotMem.1]
        simp only
        rw [ih]
        refine ⟨hflags.2, hnodup.2, ?_, by simp⟩
        intro r hr hmem
        simp only [List.map_cons, List.mem_cons] at hmem
        rcases hmem with hmem | hmem
        · exact hnodup.1 (hmem ▸ List.mem_map.mpr ⟨r, hr, rfl⟩)
        · exact hnotMem.2 r hr hmem

theorem orphanedAllocations_eq_ok {a : BlockAllocator}
    {owners : List (UInt64 × UInt64)} {blocks : List Nat}
    (h : ∀ b ∈ blocks, a.reservedBlocks ≤ b ∧ b < a.totalBlocks) :
    orphanedAllocations a owners blocks = .ok (blocks.filter fun b =>
      a.flag b = true ∧ owners.lookup (UInt64.ofNat b) = none) := by
  induction blocks with
  | nil => rfl
  | cons b bs ih =>
    have hb := h b List.mem_cons_self
    have hbs := ih fun c hc => h c (List.mem_cons_of_mem _ hc)
    simp only [orphanedAllocations,
      BlockAllocator.isOwned_of_data hb.1 hb.2, Except.mapError,
      Except.ok_bind, hbs, List.filter_cons, decide_eq_true_eq]
    rfl

/-- The blocks that inodes reference are distinct allocated data blocks. -/
structure Referenced (a : BlockAllocator) (inodes : List PersistedInode) :
    Prop where
  data : ∀ inode ∈ inodes, ∀ block ∈ inode.blocks, a.flag block.toNat = true
  nodup : (inodes.flatMap PersistedInode.blocks).Nodup

/-- The allocated data blocks that no inode references, ascending. -/
def orphans (sb : Superblock) (a : BlockAllocator)
    (inodes : List PersistedInode) : List Nat :=
  (List.range' sb.reservedBlocks (sb.totalBlocks - sb.reservedBlocks)).filter
    fun b => a.flag b = true ∧
      UInt64.ofNat b ∉ inodes.flatMap PersistedInode.blocks

/-- **The scan of the ownership is exact.** -/
theorem scanInodeOwnership_eq_ok {sb : Superblock} {a : BlockAllocator}
    {inodes : List PersistedInode} (htotal : a.totalBlocks = sb.totalBlocks)
    (hreserved : a.reservedBlocks = sb.reservedBlocks)
    {ownership : OwnershipAudit} :
    scanInodeOwnership sb a inodes = .ok ownership ↔
      Referenced a inodes ∧
        ownership = ⟨(references inodes).length, orphans sb a inodes⟩ := by
  have hrefs : ∀ r : UInt64 → Prop, (∀ w ∈ references inodes, r w.1) ↔
      ∀ inode ∈ inodes, ∀ block ∈ inode.blocks, r block := by
    intro r
    simp only [references, List.mem_flatMap, List.mem_map]
    constructor
    · intro h inode hinode block hblock
      exact h (block, inode.id) ⟨inode, hinode, block, hblock, rfl⟩
    · intro h w hfacts
      rcases hfacts with ⟨inode, hinode, block, hblock, rfl⟩
      exact h inode hinode block hblock
  have horphans : orphanedAllocations a ((references inodes).reverse ++ [])
      (List.range' sb.reservedBlocks (sb.totalBlocks - sb.reservedBlocks)) =
        .ok (orphans sb a inodes) := by
    rw [orphanedAllocations_eq_ok]
    · simp only [orphans, lookup_eq_none, List.append_nil, List.map_reverse,
        List.mem_reverse, references_fst]
    · intro b hb
      have := List.mem_range'_1.mp hb
      omega
  simp only [scanInodeOwnership, Except.bind_eq_ok, Except.pure_eq_ok,
    Except.ok.injEq, scanReferences_eq_ok htotal hreserved, references_fst,
    hrefs fun block => a.flag block.toNat = true]
  constructor
  · intro hfacts
    rcases hfacts with ⟨_, ⟨hdata, hnodup, _, rfl⟩, orphaned, hscan, rfl⟩
    rw [horphans, Except.ok.injEq] at hscan
    subst hscan
    exact ⟨⟨hdata, hnodup⟩, rfl⟩
  · intro hfacts
    rcases hfacts with ⟨⟨hdata, hnodup⟩, rfl⟩
    exact ⟨_, ⟨hdata, hnodup, by simp, rfl⟩, _, horphans, rfl⟩

/-- The orphans are the allocated data blocks without an owner. -/
theorem mem_orphans {sb : Superblock} {a : BlockAllocator}
    {inodes : List PersistedInode} (htotal : a.totalBlocks = sb.totalBlocks)
    (hreserved : a.reservedBlocks = sb.reservedBlocks) {b : Nat} :
    b ∈ orphans sb a inodes ↔ a.flag b = true ∧
      ¬ ∃ inode ∈ inodes, ∃ block ∈ inode.blocks, block.toNat = b := by
  have hlt := sb.totalBlocks_lt
  have howner : b < sb.totalBlocks →
      (UInt64.ofNat b ∈ inodes.flatMap PersistedInode.blocks ↔
        ∃ inode ∈ inodes, ∃ block ∈ inode.blocks, block.toNat = b) := by
    intro hb
    have hnat : (UInt64.ofNat b).toNat = b := by
      apply UInt64.toNat_ofNat_of_lt'
      show b < U64_LIMIT
      omega
    rw [List.mem_flatMap]
    constructor
    · intro hfacts
      rcases hfacts with ⟨inode, hinode, hblock⟩
      exact ⟨inode, hinode, _, hblock, hnat⟩
    · intro hfacts
      rcases hfacts with ⟨inode, hinode, block, hblock, rfl⟩
      rw [UInt64.ofNat_toNat]
      exact ⟨inode, hinode, hblock⟩
  simp only [orphans, List.mem_filter, List.mem_range'_1, decide_eq_true_eq]
  constructor
  · intro hfacts
    rcases hfacts with ⟨hrange, hflag, hno⟩
    refine ⟨hflag, ?_⟩
    rwa [howner (by omega)] at hno
  · intro hfacts
    rcases hfacts with ⟨hflag, hno⟩
    have hrange := BlockAllocator.range_of_flag hflag
    refine ⟨by omega, hflag, ?_⟩
    rwa [howner (by omega)]

/-- The audit accepts what the scan finds no orphan in. -/
theorem auditInodeOwnership_iff_scan {sb : Superblock} {a : BlockAllocator}
    {inodes : List PersistedInode} {n : Nat} :
    auditInodeOwnership sb a inodes = .ok n ↔
      scanInodeOwnership sb a inodes = .ok ⟨n, []⟩ := by
  unfold auditInodeOwnership
  cases scanInodeOwnership sb a inodes with
  | error e => simp
  | ok ownership =>
    obtain ⟨m, orphaned⟩ := ownership
    cases orphaned with
    | nil => simp
    | cons b bs => simp

/-- Without orphans the inodes own exactly the allocated blocks. -/
theorem owned_iff {sb : Superblock} {a : BlockAllocator}
    {inodes : List PersistedInode} (htotal : a.totalBlocks = sb.totalBlocks)
    (hreserved : a.reservedBlocks = sb.reservedBlocks) :
    Owned sb a inodes ↔ Referenced a inodes ∧ orphans sb a inodes = [] := by
  rw [List.eq_nil_iff_forall_not_mem]
  simp only [mem_orphans htotal hreserved, not_and, not_not]
  constructor
  · intro h
    exact ⟨⟨h.data, h.nodup⟩, h.owner⟩
  · intro hfacts
    rcases hfacts with ⟨h, howner⟩
    exact ⟨h.data, h.nodup, howner⟩

/-- **The ownership audit is exact.** -/
theorem auditInodeOwnership_eq_ok {sb : Superblock} {a : BlockAllocator}
    {inodes : List PersistedInode} (htotal : a.totalBlocks = sb.totalBlocks)
    (hreserved : a.reservedBlocks = sb.reservedBlocks) {n : Nat} :
    auditInodeOwnership sb a inodes = .ok n ↔
      Owned sb a inodes ∧ n = (references inodes).length := by
  rw [auditInodeOwnership_iff_scan, scanInodeOwnership_eq_ok htotal hreserved,
    owned_iff htotal hreserved]
  simp only [OwnershipAudit.mk.injEq]
  constructor
  · intro hfacts
    rcases hfacts with ⟨h, hn, horphans⟩
    exact ⟨⟨h, horphans.symm⟩, hn⟩
  · intro hfacts
    rcases hfacts with ⟨⟨h, horphans⟩, hn⟩
    exact ⟨h, hn, horphans.symm⟩

/-! ## The journal -/

/-- `FsckReport`. -/
structure FsckReport where
  totalBlocks : Nat
  reservedBlocks : Nat
  dataBlocks : Nat
  allocatedBlocks : Nat
  freeBlocks : Nat
  inodeRecords : Nat
  referencedBlocks : Nat
  directoryEntries : Nat
  journalEntries : Nat
  journalWrites : Nat
  committedTransactions : Nat
  pendingTransaction : Option UInt64
  deriving DecidableEq, Repr

/-- The variables of the loop of `audit_journal`. -/
structure JournalAudit where
  active : Option UInt64
  journalWrites : Nat
  committedTransactions : Nat

/-- One iteration of the loop of `audit_journal`. -/
def auditJournalEntry (sb : Superblock) (s : JournalAudit) :
    JournalEntry → Result JournalAudit
  | .begin txid => do
    rejectIf (s.active.isSome = true) (invalidData "nested journal transaction")
    pure { s with active := some txid }
  | .write txid block _ => do
    rejectIf (s.active ≠ some txid)
      (invalidData "journal write does not match active transaction")
    rejectIf (¬ sb.homeTarget block.toNat)
      (invalidData "journal write targets forbidden or invalid block")
    pure { s with journalWrites := s.journalWrites + 1 }
  | .commit txid => do
    rejectIf (s.active ≠ some txid)
      (invalidData "journal commit does not match active transaction")
    pure { s with
      active := none
      committedTransactions := s.committedTransactions + 1 }

/-- `audit_journal`. -/
def auditJournal (sb : Superblock) (entries : List JournalEntry)
    (allocatedBlocks freeBlocks inodeRecords referencedBlocks
      directoryEntries : Nat) : Result FsckReport := do
  rejectIf (sb.totalBlocks < sb.reservedBlocks)
    (invalidData "reserved metadata exceeds filesystem size")
  let dataBlocks := sb.totalBlocks - sb.reservedBlocks
  let accounted ← okOr (checkedAdd allocatedBlocks freeBlocks)
    (invalidData "allocation accounting overflow")
  rejectIf (accounted ≠ dataBlocks)
    (invalidData "allocation accounting mismatch")
  let s ← entries.foldlM (auditJournalEntry sb) ⟨none, 0, 0⟩
  pure {
    totalBlocks := sb.totalBlocks
    reservedBlocks := sb.reservedBlocks
    dataBlocks, allocatedBlocks, freeBlocks, inodeRecords, referencedBlocks,
    directoryEntries
    journalEntries := entries.length
    journalWrites := s.journalWrites
    committedTransactions := s.committedTransactions
    pendingTransaction := s.active }

/-! ## The device -/

section Device

variable {σ : Type} [BlockDevice σ]

/-- `with_context`. -/
def withContext (layer : String) (error : IoError) : IoError :=
  ⟨error.kind, "fsck " ++ layer ++ ": " ++ error.message⟩

/-- `audit_inode_payloads`. -/
def auditInodePayloads (device : σ) : List PersistedInode → Result Unit
  | [] => pure ()
  | inode :: inodes => do
    (validateSymlinkInode device inode).mapErr (withContext "symlink payload")
    auditInodePayloads device inodes

/-- `finish_device_audit`. -/
def finishDeviceAudit (device : σ) (sb : Superblock) (a : BlockAllocator)
    (inodes : List PersistedInode) (referencedBlocks : Nat) :
    Result FsckReport := do
  auditInodePayloads device inodes
  let directoryEntries ← (loadDirectoryTable device sb).mapErr
    (withContext "directory table")
  auditNamespace inodes directoryEntries
  let entries ← (loadJournalImage device sb).mapErr (withContext "journal")
  auditJournal sb entries a.allocatedBlocks a.freeBlocks inodes.length
    referencedBlocks directoryEntries.length

/-- `check_device`. -/
def checkDevice (device : σ) : Result FsckReport := do
  let sb ← (readSuperblock device).mapErr (withContext "superblock")
  let a ← (loadAllocator device sb).mapErr (withContext "allocation")
  let inodes ← (loadInodeTable device sb).mapErr (withContext "inode table")
  let referencedBlocks ← auditInodeOwnership sb a inodes
  finishDeviceAudit device sb a inodes referencedBlocks

/-- `check_device_allowing_orphaned_allocations`. -/
def checkDeviceAllowingOrphanedAllocations (device : σ) :
    Result (FsckReport × List Nat) := do
  let sb ← (readSuperblock device).mapErr (withContext "superblock")
  let a ← (loadAllocator device sb).mapErr (withContext "allocation")
  let inodes ← (loadInodeTable device sb).mapErr (withContext "inode table")
  let ownership ← scanInodeOwnership sb a inodes
  let report ← finishDeviceAudit device sb a inodes ownership.referencedBlocks
  pure (report, ownership.orphanedAllocations)

/-- `check_device_allowing_unreachable_inodes`. -/
def checkDeviceAllowingUnreachableInodes (device : σ) :
    Result (FsckReport × List UInt64) := do
  let sb ← (readSuperblock device).mapErr (withContext "superblock")
  let a ← (loadAllocator device sb).mapErr (withContext "allocation")
  let inodes ← (loadInodeTable device sb).mapErr (withContext "inode table")
  let referencedBlocks ← auditInodeOwnership sb a inodes
  auditInodePayloads device inodes
  let directoryEntries ← (loadDirectoryTable device sb).mapErr
    (withContext "directory table")
  let unreachable ← scanNamespace inodes directoryEntries
  let entries ← (loadJournalImage device sb).mapErr (withContext "journal")
  let report ← auditJournal sb entries a.allocatedBlocks a.freeBlocks
    inodes.length referencedBlocks directoryEntries.length
  pure (report, unreachable)

end Device

/-! ## What the check accepts -/

/-- The counters of `audit_journal` for one entry, without its checks. -/
def countEntry (s : JournalAudit) : JournalEntry → JournalAudit
  | .begin txid => { s with active := some txid }
  | .write _ _ _ => { s with journalWrites := s.journalWrites + 1 }
  | .commit _ => { s with
      active := none
      committedTransactions := s.committedTransactions + 1 }

/-- The counters of `audit_journal`. -/
def countEntries (entries : List JournalEntry) : JournalAudit :=
  entries.foldl countEntry ⟨none, 0, 0⟩

/-- The audit of the journal repeats the checks of the loader. -/
theorem foldlM_auditJournalEntry {sb : Superblock}
    {entries : List JournalEntry} {s : JournalAudit}
    {active : Option UInt64}
    (h : validateEntriesFrom sb s.active entries = .ok active) :
    entries.foldlM (auditJournalEntry sb) s =
      .ok (entries.foldl countEntry s) := by
  induction entries generalizing s with
  | nil => rfl
  | cons e es ih =>
    simp only [validateEntriesFrom, List.foldlM_cons, Except.bind_eq_ok] at h
    obtain ⟨mid, hstep, hrest⟩ := h
    have hone : auditJournalEntry sb s e = .ok (countEntry s e) ∧
        (countEntry s e).active = mid := by
      cases e with
      | begin txid =>
        simp only [validateEntry, Except.bind_eq_ok, rejectIf_eq_ok,
          Except.pure_eq_ok, Except.ok.injEq] at hstep
        obtain ⟨_, hactive, rfl⟩ := hstep
        refine ⟨?_, rfl⟩
        simp only [auditJournalEntry, rejectIf_of_not hactive]
        rfl
      | write txid block data =>
        simp only [validateEntry, Except.bind_eq_ok, rejectIf_eq_ok,
          Except.pure_eq_ok, Except.ok.injEq] at hstep
        obtain ⟨_, hactive, _, htarget, rfl⟩ := hstep
        refine ⟨?_, rfl⟩
        simp only [auditJournalEntry, rejectIf_of_not hactive,
          rejectIf_of_not htarget]
        rfl
      | commit txid =>
        simp only [validateEntry, Except.bind_eq_ok, rejectIf_eq_ok,
          Except.pure_eq_ok, Except.ok.injEq] at hstep
        obtain ⟨_, hactive, rfl⟩ := hstep
        refine ⟨?_, rfl⟩
        simp only [auditJournalEntry, rejectIf_of_not hactive]
        rfl
    rw [List.foldlM_cons, hone.1, Except.ok_bind, List.foldl_cons]
    apply ih
    rw [hone.2]
    exact hrest

/-- The report of a successful check. -/
def fsckReport (sb : Superblock) (a : BlockAllocator)
    (inodes : List PersistedInode) (entries : List PersistedDirectoryEntry)
    (journal : List JournalEntry) : FsckReport where
  totalBlocks := sb.totalBlocks
  reservedBlocks := sb.reservedBlocks
  dataBlocks := sb.totalBlocks - sb.reservedBlocks
  allocatedBlocks := a.allocatedBlocks
  freeBlocks := a.freeBlocks
  inodeRecords := inodes.length
  referencedBlocks := (references inodes).length
  directoryEntries := entries.length
  journalEntries := journal.length
  journalWrites := (countEntries journal).journalWrites
  committedTransactions := (countEntries journal).committedTransactions
  pendingTransaction := (countEntries journal).active

/-- What a device holds that passes the check, apart from its journal. -/
structure Checked {σ : Type} [BlockDevice σ] (device : σ) (sb : Superblock)
    (a : BlockAllocator) (inodes : List PersistedInode)
    (entries : List PersistedDirectoryEntry) : Prop where
  superblock : readSuperblock device = .ok sb
  allocator : loadAllocator device sb = .ok a
  inodeTable : loadInodeTable device sb = .ok inodes
  owned : Owned sb a inodes
  payloads : ∀ inode ∈ inodes, validateSymlinkInode device inode = .ok ()
  directoryTable : loadDirectoryTable device sb = .ok entries
  tree : Namespace inodes entries

section Device

variable {σ τ : Type} [BlockDevice σ] [BlockDevice τ]

theorem auditInodePayloads_eq_ok {device : σ} {inodes : List PersistedInode}
    {u : Unit} :
    auditInodePayloads device inodes = .ok u ↔
      ∀ inode ∈ inodes, validateSymlinkInode device inode = .ok () := by
  induction inodes with
  | nil => simp [auditInodePayloads]
  | cons inode inodes ih =>
    simp only [auditInodePayloads, Except.bind_eq_ok, Except.mapErr_eq_ok, ih,
      List.forall_mem_cons]
    constructor
    · intro hfacts
      rcases hfacts with ⟨_, h1, h2⟩
      exact ⟨h1, h2⟩
    · intro hfacts
      rcases hfacts with ⟨h1, h2⟩
      exact ⟨(), h1, h2⟩

/-- A validated journal passes its audit. -/
theorem auditJournal_eq_ok {sb : Superblock} {a : BlockAllocator}
    {journal : List JournalEntry} {inodes : List PersistedInode}
    {entries : List PersistedDirectoryEntry}
    (htotal : a.totalBlocks = sb.totalBlocks)
    (hreserved : a.reservedBlocks = sb.reservedBlocks)
    (h : validateEntries sb journal = .ok ()) :
    auditJournal sb journal a.allocatedBlocks a.freeBlocks inodes.length
        (references inodes).length entries.length =
      .ok (fsckReport sb a inodes entries journal) := by
  simp only [validateEntries, Except.bind_eq_ok] at h
  obtain ⟨active, hfrom, _⟩ := h
  have hlayout := sb.layout
  have hle := a.allocatedBlocks_le
  have hfree : a.allocatedBlocks + a.freeBlocks =
      sb.totalBlocks - sb.reservedBlocks := by
    unfold BlockAllocator.freeBlocks
    omega
  have hadd : checkedAdd a.allocatedBlocks a.freeBlocks =
      some (sb.totalBlocks - sb.reservedBlocks) := by
    rw [checkedAdd_eq_some]
    omega
  have hloop := foldlM_auditJournalEntry
    (s := ⟨none, 0, 0⟩) hfrom
  simp only [auditJournal, rejectIf_of_not (show ¬ sb.totalBlocks <
    sb.reservedBlocks by omega), Except.ok_bind, hadd, okOr_some, hloop]
  rw [rejectIf_of_not (by simp)]
  rfl

/-- **The check as a conjunction of its layers.** -/
theorem checkDevice_iff {device : σ} {report : FsckReport} :
    checkDevice device = .ok report ↔
      ∃ sb a inodes entries journal, Checked device sb a inodes entries ∧
        loadJournalImage device sb = .ok journal ∧
        report = fsckReport sb a inodes entries journal := by
  simp only [checkDevice, finishDeviceAudit, Except.bind_eq_ok,
    Except.mapErr_eq_ok, auditInodePayloads_eq_ok]
  constructor
  · intro hfacts
    rcases hfacts with ⟨sb, hsb, a, ha, inodes, hinodes, n, howned, _,
      hpayloads, entries, hentries, _, hns, journal, hjournal, h⟩
    obtain ⟨htotal, hreserved⟩ := geometry_of_loadAllocator ha
    rw [auditInodeOwnership_eq_ok htotal hreserved] at howned
    rw [auditNamespace_eq_ok] at hns
    refine ⟨sb, a, inodes, entries, journal,
      ⟨hsb, ha, hinodes, howned.1, hpayloads, hentries, hns⟩, hjournal, ?_⟩
    rw [howned.2, auditJournal_eq_ok htotal hreserved
      (validate_of_loadJournalImage hjournal), Except.ok.injEq] at h
    exact h.symm
  · intro hfacts
    rcases hfacts with ⟨sb, a, inodes, entries, journal, h, hjournal, rfl⟩
    obtain ⟨htotal, hreserved⟩ := geometry_of_loadAllocator h.allocator
    refine ⟨sb, h.superblock, a, h.allocator, inodes, h.inodeTable, _,
      (auditInodeOwnership_eq_ok htotal hreserved).mpr ⟨h.owned, rfl⟩, (),
      h.payloads, entries, h.directoryTable, (),
      auditNamespace_eq_ok.mpr h.tree, journal, hjournal, ?_⟩
    exact auditJournal_eq_ok htotal hreserved
      (validate_of_loadJournalImage hjournal)

/-- The check that tolerates orphans, as a conjunction of its layers. -/
theorem checkDeviceAllowingOrphanedAllocations_iff {device : σ}
    {report : FsckReport} {orphaned : List Nat} :
    checkDeviceAllowingOrphanedAllocations device = .ok (report, orphaned) ↔
      ∃ sb a inodes entries journal, readSuperblock device = .ok sb ∧
        loadAllocator device sb = .ok a ∧
        loadInodeTable device sb = .ok inodes ∧ Referenced a inodes ∧
        (∀ inode ∈ inodes, validateSymlinkInode device inode = .ok ()) ∧
        loadDirectoryTable device sb = .ok entries ∧
        Namespace inodes entries ∧
        loadJournalImage device sb = .ok journal ∧
        report = fsckReport sb a inodes entries journal ∧
        orphaned = orphans sb a inodes := by
  simp only [checkDeviceAllowingOrphanedAllocations, finishDeviceAudit,
    Except.bind_eq_ok, Except.mapErr_eq_ok, auditInodePayloads_eq_ok,
    Except.pure_eq_ok, Except.ok.injEq, Prod.mk.injEq]
  constructor
  · intro hfacts
    rcases hfacts with ⟨sb, hsb, a, ha, inodes, hinodes, ownership, howned, r,
      ⟨_, hpayloads, entries, hentries, _, hns, journal, hjournal, h⟩, rfl, rfl⟩
    obtain ⟨htotal, hreserved⟩ := geometry_of_loadAllocator ha
    rw [scanInodeOwnership_eq_ok htotal hreserved] at howned
    obtain ⟨hrefs, rfl⟩ := howned
    rw [auditNamespace_eq_ok] at hns
    rw [auditJournal_eq_ok htotal hreserved
      (validate_of_loadJournalImage hjournal), Except.ok.injEq] at h
    exact ⟨sb, a, inodes, entries, journal, hsb, ha, hinodes, hrefs,
      hpayloads, hentries, hns, hjournal, h.symm, rfl⟩
  · intro hfacts
    rcases hfacts with ⟨sb, a, inodes, entries, journal, hsb, ha, hinodes,
      hrefs, hpayloads, hentries, hns, hjournal, rfl, rfl⟩
    obtain ⟨htotal, hreserved⟩ := geometry_of_loadAllocator ha
    exact ⟨sb, hsb, a, ha, inodes, hinodes, _,
      (scanInodeOwnership_eq_ok htotal hreserved).mpr ⟨hrefs, rfl⟩, _,
      ⟨(), hpayloads, entries, hentries, (), auditNamespace_eq_ok.mpr hns,
        journal, hjournal, auditJournal_eq_ok htotal hreserved
          (validate_of_loadJournalImage hjournal)⟩, rfl, rfl⟩

/-- The check that tolerates unreachable inodes, as a conjunction of its
layers. -/
theorem checkDeviceAllowingUnreachableInodes_iff {device : σ}
    {report : FsckReport} {unreachable : List UInt64} :
    checkDeviceAllowingUnreachableInodes device = .ok (report, unreachable) ↔
      ∃ sb a inodes entries journal, readSuperblock device = .ok sb ∧
        loadAllocator device sb = .ok a ∧
        loadInodeTable device sb = .ok inodes ∧ Owned sb a inodes ∧
        (∀ inode ∈ inodes, validateSymlinkInode device inode = .ok ()) ∧
        loadDirectoryTable device sb = .ok entries ∧ Linked inodes entries ∧
        loadJournalImage device sb = .ok journal ∧
        report = fsckReport sb a inodes entries journal ∧
        unreachable = unreachableInodes inodes entries := by
  simp only [checkDeviceAllowingUnreachableInodes, Except.bind_eq_ok,
    Except.mapErr_eq_ok, auditInodePayloads_eq_ok, scanNamespace_eq_ok,
    Except.pure_eq_ok, Except.ok.injEq, Prod.mk.injEq]
  constructor
  · intro hfacts
    rcases hfacts with ⟨sb, hsb, a, ha, inodes, hinodes, n, howned, _,
      hpayloads, entries, hentries, ids, ⟨hns, rfl⟩, journal, hjournal, r, h,
      rfl, rfl⟩
    obtain ⟨htotal, hreserved⟩ := geometry_of_loadAllocator ha
    rw [auditInodeOwnership_eq_ok htotal hreserved] at howned
    obtain ⟨howned, rfl⟩ := howned
    rw [auditJournal_eq_ok htotal hreserved
      (validate_of_loadJournalImage hjournal), Except.ok.injEq] at h
    exact ⟨sb, a, inodes, entries, journal, hsb, ha, hinodes, howned,
      hpayloads, hentries, hns, hjournal, h.symm, rfl⟩
  · intro hfacts
    rcases hfacts with ⟨sb, a, inodes, entries, journal, hsb, ha, hinodes,
      howned, hpayloads, hentries, hns, hjournal, rfl, rfl⟩
    obtain ⟨htotal, hreserved⟩ := geometry_of_loadAllocator ha
    exact ⟨sb, hsb, a, ha, inodes, hinodes, _,
      (auditInodeOwnership_eq_ok htotal hreserved).mpr ⟨howned, rfl⟩, (),
      hpayloads, entries, hentries, _, ⟨hns, rfl⟩, journal, hjournal, _,
      auditJournal_eq_ok htotal hreserved
        (validate_of_loadJournalImage hjournal), rfl, rfl⟩

/-- As many blocks are referenced as are allocated. -/
theorem Owned.length_references {sb : Superblock} {a : BlockAllocator}
    {inodes : List PersistedInode} (h : Owned sb a inodes) :
    (references inodes).length = a.allocatedBlocks := by
  have hlength : (references inodes).length =
      (inodes.flatMap PersistedInode.blocks).length := by
    rw [← references_fst, List.length_map]
  -- the references and the allocated blocks are the same blocks, each once
  have hperm : ((inodes.flatMap PersistedInode.blocks).map UInt64.toNat).Perm
      ((List.range a.totalBlocks).filter fun b => a.flag b = true) := by
    rw [List.perm_ext_iff_of_nodup
      (h.nodup.map fun _ _ heq => UInt64.toNat_inj.mp heq)
      (List.nodup_range.filter _)]
    intro b
    simp only [List.mem_map, List.mem_flatMap, List.mem_filter,
      List.mem_range, decide_eq_true_eq]
    constructor
    · intro hfacts
      rcases hfacts with ⟨block, ⟨inode, hinode, hblock⟩, rfl⟩
      have hflag := h.data inode hinode block hblock
      exact ⟨(BlockAllocator.range_of_flag hflag).2, hflag⟩
    · intro hfacts
      rcases hfacts with ⟨_, hflag⟩
      obtain ⟨inode, hinode, block, hblock, rfl⟩ := h.owner b hflag
      exact ⟨block, ⟨inode, hinode, hblock⟩, rfl⟩
  rw [hlength, a.allocatedBlocks_eq, ← List.length_map UInt64.toNat,
    hperm.length_eq]

/-- The check reads nothing of the journal but through its loader. -/
theorem Checked.congr {device : σ} {other : τ} {sb : Superblock}
    {a : BlockAllocator} {inodes : List PersistedInode}
    {entries : List PersistedDirectoryEntry}
    (h : Checked device sb a inodes entries)
    (hcount : blockCount device = blockCount other)
    (hread : ∀ b, b < sb.totalBlocks → ¬ sb.journalRange b →
      readBlock device b = readBlock other b) :
    Checked other sb a inodes entries := by
  have hlayout := sb.layout
  have hmeta : ∀ b, sb.allocationStart ≤ b → b < sb.totalBlocks →
      readBlock device b = readBlock other b := by
    intro b h1 h2
    apply hread b h2
    unfold Superblock.journalRange
    omega
  have hsuper : readSuperblock device = readSuperblock other := by
    apply readSuperblock_congr hcount
    apply hread
    · simp only [SUPERBLOCK_BLOCK]
      omega
    · unfold Superblock.journalRange
      simp only [SUPERBLOCK_BLOCK]
      omega
  obtain ⟨htotal, hreserved⟩ := geometry_of_loadAllocator h.allocator
  refine ⟨hsuper ▸ h.superblock, ?_, ?_, h.owned, ?_, ?_, h.tree⟩
  · rw [← loadAllocator_congr hcount]
    · exact h.allocator
    · intro b hb
      unfold Superblock.allocationRange at hb
      exact hmeta b (by omega) (by omega)
  · have hload := h.inodeTable
    unfold loadInodeTable at hload ⊢
    rw [← TableFormat.load_congr _ hcount]
    · exact hload
    · intro b h1 h2
      exact hmeta b (by omega) (by omega)
  · intro inode hinode
    have hsame : validateSymlinkInode device inode =
        validateSymlinkInode other inode := by
      apply validateSymlinkInode_congr
      intro b hb
      have hrange :=
        BlockAllocator.range_of_flag (h.owned.data inode hinode b hb)
      exact hmeta _ (by omega) (by omega)
    rw [← hsame]
    exact h.payloads inode hinode
  · have hload := h.directoryTable
    unfold loadDirectoryTable at hload ⊢
    rw [← TableFormat.load_congr _ hcount]
    · exact hload
    · intro b h1 h2
      exact hmeta b (by omega) (by omega)

/-- The block references of the inodes are a bijection with the data blocks
that the allocator owns. -/
structure OwnershipBijection (sb : Superblock) (a : BlockAllocator)
    (inodes : List PersistedInode) : Prop where
  nodup : (inodes.flatMap PersistedInode.blocks).Nodup
  data : ∀ block ∈ inodes.flatMap PersistedInode.blocks,
    sb.reservedBlocks ≤ block.toNat ∧ block.toNat < sb.totalBlocks
  owned : ∀ b, sb.reservedBlocks ≤ b → b < sb.totalBlocks →
    (a.isOwned b = .ok true ↔
      ∃ block ∈ inodes.flatMap PersistedInode.blocks, block.toNat = b)

theorem Owned.bijection {sb : Superblock} {a : BlockAllocator}
    {inodes : List PersistedInode} (htotal : a.totalBlocks = sb.totalBlocks)
    (hreserved : a.reservedBlocks = sb.reservedBlocks)
    (h : Owned sb a inodes) : OwnershipBijection sb a inodes where
  nodup := h.nodup
  data := by
    intro block hmem
    obtain ⟨inode, hinode, hblock⟩ := List.mem_flatMap.mp hmem
    have := BlockAllocator.range_of_flag (h.data inode hinode block hblock)
    omega
  owned := by
    intro b h1 h2
    rw [BlockAllocator.isOwned_of_data (by omega) (by omega), Except.ok.injEq]
    constructor
    · intro hflag
      obtain ⟨inode, hinode, block, hblock, heq⟩ := h.owner b hflag
      exact ⟨block, List.mem_flatMap.mpr ⟨inode, hinode, hblock⟩, heq⟩
    · intro hfacts
      rcases hfacts with ⟨block, hmem, rfl⟩
      obtain ⟨inode, hinode, hblock⟩ := List.mem_flatMap.mp hmem
      exact h.data inode hinode block hblock

/-- **The three checkers.**  A device that passes has its inodes own exactly the
allocated blocks, and the counters of the report agree; the two tolerant
checkers accept the same devices with the same report and nothing to tolerate;
and what the first one tolerates is the ascending list of the allocated data
blocks without an owner. -/
theorem checkers_exact (device : σ) :
    (∀ report, checkDevice device = .ok report →
      ∃ sb a inodes, readSuperblock device = .ok sb ∧
        loadAllocator device sb = .ok a ∧
        loadInodeTable device sb = .ok inodes ∧
        OwnershipBijection sb a inodes ∧
        report.referencedBlocks = report.allocatedBlocks ∧
        report.allocatedBlocks + report.freeBlocks = report.dataBlocks) ∧
    (∀ report, checkDevice device = .ok report ↔
      checkDeviceAllowingOrphanedAllocations device = .ok (report, [])) ∧
    (∀ report, checkDevice device = .ok report ↔
      checkDeviceAllowingUnreachableInodes device = .ok (report, [])) ∧
    ∀ report orphaned,
      checkDeviceAllowingOrphanedAllocations device = .ok (report, orphaned) →
      ∃ sb a inodes, readSuperblock device = .ok sb ∧
        loadAllocator device sb = .ok a ∧
        loadInodeTable device sb = .ok inodes ∧
        orphaned.Pairwise (· < ·) ∧
        ∀ b, b ∈ orphaned ↔ sb.reservedBlocks ≤ b ∧ b < sb.totalBlocks ∧
          a.isOwned b = .ok true ∧
          ∀ inode ∈ inodes, ∀ block ∈ inode.blocks, block.toNat ≠ b := by
  refine ⟨?_, ?_, ?_, ?_⟩
  · intro report hreport
    obtain ⟨sb, a, inodes, entries, journal, h, _, rfl⟩ :=
      checkDevice_iff.mp hreport
    obtain ⟨htotal, hreserved⟩ := geometry_of_loadAllocator h.allocator
    refine ⟨sb, a, inodes, h.superblock, h.allocator, h.inodeTable,
      h.owned.bijection htotal hreserved, h.owned.length_references, ?_⟩
    have hle := a.allocatedBlocks_le
    simp only [fsckReport, BlockAllocator.freeBlocks]
    omega
  · intro report
    rw [checkDevice_iff, checkDeviceAllowingOrphanedAllocations_iff]
    constructor
    · intro hfacts
      rcases hfacts with ⟨sb, a, inodes, entries, journal, h, hjournal, rfl⟩
      obtain ⟨htotal, hreserved⟩ := geometry_of_loadAllocator h.allocator
      obtain ⟨hrefs, horphans⟩ := (owned_iff htotal hreserved).mp h.owned
      exact ⟨sb, a, inodes, entries, journal, h.superblock, h.allocator,
        h.inodeTable, hrefs, h.payloads, h.directoryTable, h.tree, hjournal,
        rfl, horphans.symm⟩
    · intro hfacts
      rcases hfacts with ⟨sb, a, inodes, entries, journal, hsb, ha, hinodes,
        hrefs, hpayloads, hentries, hns, hjournal, rfl, horphans⟩
      obtain ⟨htotal, hreserved⟩ := geometry_of_loadAllocator ha
      exact ⟨sb, a, inodes, entries, journal, ⟨hsb, ha, hinodes,
        (owned_iff htotal hreserved).mpr ⟨hrefs, horphans.symm⟩, hpayloads,
        hentries, hns⟩, hjournal, rfl⟩
  · intro report
    rw [checkDevice_iff, checkDeviceAllowingUnreachableInodes_iff]
    constructor
    · intro hfacts
      rcases hfacts with ⟨sb, a, inodes, entries, journal, h, hjournal, rfl⟩
      obtain ⟨hlinked, hreach⟩ := namespace_iff.mp h.tree
      exact ⟨sb, a, inodes, entries, journal, h.superblock, h.allocator,
        h.inodeTable, h.owned, h.payloads, h.directoryTable, hlinked, hjournal,
        rfl, (unreachableInodes_eq_nil.mpr hreach).symm⟩
    · intro hfacts
      rcases hfacts with ⟨sb, a, inodes, entries, journal, hsb, ha, hinodes,
        howned, hpayloads, hentries, hlinked, hjournal, rfl, hnil⟩
      exact ⟨sb, a, inodes, entries, journal, ⟨hsb, ha, hinodes, howned,
        hpayloads, hentries, namespace_iff.mpr ⟨hlinked,
          unreachableInodes_eq_nil.mp hnil.symm⟩⟩, hjournal, rfl⟩
  · intro report orphaned h
    obtain ⟨sb, a, inodes, _, _, hsb, ha, hinodes, _, _, _, _, _, _, rfl⟩ :=
      checkDeviceAllowingOrphanedAllocations_iff.mp h
    obtain ⟨htotal, hreserved⟩ := geometry_of_loadAllocator ha
    refine ⟨sb, a, inodes, hsb, ha, hinodes, ?_, ?_⟩
    · exact List.Pairwise.filter _ List.pairwise_lt_range'
    · intro b
      rw [mem_orphans htotal hreserved]
      constructor
      · intro hfacts
        rcases hfacts with ⟨hflag, hno⟩
        have hrange := BlockAllocator.range_of_flag hflag
        refine ⟨by omega, by omega, ?_, ?_⟩
        · rw [BlockAllocator.isOwned_of_data (by omega) (by omega), hflag]
        · intro inode hinode block hblock heq
          exact hno ⟨inode, hinode, block, hblock, heq⟩
      · intro hfacts
        rcases hfacts with ⟨h1, h2, howned, hno⟩
        rw [BlockAllocator.isOwned_of_data (by omega) (by omega),
          Except.ok.injEq] at howned
        refine ⟨howned, ?_⟩
        intro hfacts
        rcases hfacts with ⟨inode, hinode, block, hblock, heq⟩
        exact hno inode hinode block hblock heq

end Device

end FilesystemLab
