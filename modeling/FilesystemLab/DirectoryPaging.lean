import FilesystemLab.FileData
import FilesystemLab.Lib.Pages
import Mathlib.Data.List.Lex
import Mathlib.Order.Lattice
import Mathlib.Data.List.Sort

/-!
# Directories in pages

`path_directory_plus.rs`: the entries of a directory with metadata of their
targets, in the order of their names, and pages of them behind a name.

Names are compared as `str` does, by their bytes (`nameKey`).
`enumerateDirectory_eq_ok` says what is listed, and `directoryPages_exact` that
the pages from any cursor lose and repeat nothing.
-/

namespace FilesystemLab

open Pages

/-! ## The functions -/

/-- `PathDirectoryEntryMetadata`. -/
structure PathDirectoryEntryMetadata where
  name : String
  inodeId : UInt64
  kind : InodeKind
  logicalBlocks : Nat
  byteLen : UInt64
  namespaceReferences : Nat
deriving DecidableEq, Repr

/-- `PathDirectoryMetadataPage`. -/
structure PathDirectoryMetadataPage where
  entries : List PathDirectoryEntryMetadata
  nextAfter : Option String
deriving DecidableEq, Repr

/-- What `str::cmp` compares in lexicographic order: the bytes. -/
def nameKey (name : String) : List Nat := (nameBytes name).map UInt8.toNat

/-- The entry is behind the cursor. -/
def PathDirectoryEntryMetadata.isAfter (after : Option String)
    (entry : PathDirectoryEntryMetadata) : Bool :=
  match after with
  | some cursor => nameKey cursor < nameKey entry.name
  | none => true

/-- `paginate_directory_metadata`.  Whether the allocator can reserve a vector of
`limit` entries is up to the machine: `reservable` says it. -/
def paginateDirectoryMetadata (reservable : Nat → Bool)
    (children : List PathDirectoryEntryMetadata) (after : Option String)
    (limit : Nat) : Result PathDirectoryMetadataPage := do
  rejectIf (limit = 0) (invalidInput
    "pathname directory metadata page limit must be greater than zero")
  let eligible := children.filter fun entry => entry.isAfter after
  rejectIf (reservable limit = false) (invalidInput
    "pathname directory metadata page limit exceeds staging capacity")
  -- the loop stops at the limit or at the end, and then looks for one more
  let pageEntries := eligible.take limit
  let hasMore := !(eligible.drop limit).isEmpty
  pure ⟨pageEntries,
    if hasMore then pageEntries.getLast?.map PathDirectoryEntryMetadata.name
    else none⟩

/-- `inode_by_id.get(&id)`, in a map collected from the inode list. -/
def inodeById (inodes : List PersistedInode) (id : UInt64) :
    Option PersistedInode :=
  inodes.reverse.find? fun inode => inode.id = id

/-- The loop of `enumerate_directory_with_metadata` that counts references. -/
def countReferences : List PersistedDirectoryEntry → (UInt64 → Option Nat) →
    Result (UInt64 → Option Nat)
  | [], counts => pure counts
  | entry :: entries, counts => do
    let count ← okOr (checkedAdd ((counts entry.target).getD 0) 1)
      (invalidData "namespace reference count overflow")
    countReferences entries fun id =>
      if id = entry.target then some count else counts id

/-- The loop of `enumerate_directory_with_metadata` over the children. -/
def childrenMetadata (inodes : List PersistedInode)
    (counts : UInt64 → Option Nat) : List PersistedDirectoryEntry →
    Result (List PathDirectoryEntryMetadata)
  | [] => pure []
  | entry :: entries => do
    let target ← okOr (inodeById inodes entry.target)
      (invalidData "directory entry references missing target inode")
    let namespaceReferences ← okOr (counts entry.target)
      (invalidData "directory entry target has no namespace reference")
    let byteLen ← target.canonicalByteLen.mapError
      fun error => invalidData error.message
    let children ← childrenMetadata inodes counts entries
    pure ({ name := entry.name, inodeId := entry.target, kind := target.kind
            logicalBlocks := target.blocks.length, byteLen
            namespaceReferences } :: children)

/-- `enumerate_directory_with_metadata`. -/
def enumerateDirectoryWithMetadata (directoryInodeId : UInt64)
    (inodes : List PersistedInode) (entries : List PersistedDirectoryEntry) :
    Result (List PathDirectoryEntryMetadata) := do
  let directory ← okOr (inodeById inodes directoryInodeId)
    (invalidData "resolved directory inode is missing")
  rejectIf (directory.kind ≠ .directory) (invalidInput
    "pathname directory enumeration target is not a directory")
  let counts ← countReferences entries fun _ => none
  let children ← childrenMetadata inodes counts
    (entries.filter fun entry => entry.parent = directoryInodeId)
  pure (children.mergeSort fun left right =>
    nameKey left.name ≤ nameKey right.name)

/-- `list_directory_with_metadata_page_at_path`. -/
def listDirectoryWithMetadataPageAtPath {σ : Type} [BlockDevice σ]
    (reservable : Nat → Bool) (sb : Superblock) (path : String)
    (after : Option String) (limit : Nat) : DevM σ PathDirectoryMetadataPage := do
  rejectIf (limit = 0) (invalidInput
    "pathname directory metadata page limit must be greater than zero")
  let _ ← recoverJournalAndCheckpointChecked sb
  let _ ← Effect.query checkDevice
  let id ← Effect.query (resolvePathFollowingSymlinks · sb path)
  let inodes ← Effect.query (loadInodeTable · sb)
  let entries ← Effect.query (loadDirectoryTable · sb)
  let children ← enumerateDirectoryWithMetadata id inodes entries
  paginateDirectoryMetadata reservable children after limit

/-! ## What is listed -/

/-- The number of entries that lead to an inode. -/
def referencesTo (entries : List PersistedDirectoryEntry) (id : UInt64) : Nat :=
  (entries.filter fun entry => entry.target = id).length

/-- The metadata are those of the inode that they name. -/
structure Describes (inodes : List PersistedInode)
    (entries : List PersistedDirectoryEntry)
    (metadata : PathDirectoryEntryMetadata) : Prop where
  target : ∃ inode ∈ inodes, inode.id = metadata.inodeId ∧
    metadata.kind = inode.kind ∧
    metadata.logicalBlocks = inode.blocks.length ∧
    inode.canonicalByteLen = .ok metadata.byteLen
  references_eq : metadata.namespaceReferences =
    referencesTo entries metadata.inodeId

/-- The children are the entries of a directory, each once, in the order of their
names. -/
structure Enumerates (inodes : List PersistedInode)
    (entries : List PersistedDirectoryEntry) (directory : UInt64)
    (children : List PathDirectoryEntryMetadata) : Prop where
  listed : (children.map fun child => (child.name, child.inodeId)).Perm
    ((entries.filter fun entry => entry.parent = directory).map fun entry =>
      (entry.name, entry.target))
  sorted : children.Pairwise fun left right =>
    nameKey left.name < nameKey right.name
  described : ∀ child ∈ children, Describes inodes entries child

section Enumerate

variable {inodes : List PersistedInode}
  {entries : List PersistedDirectoryEntry} {counts : UInt64 → Option Nat}

theorem mem_of_inodeById {id : UInt64} {inode : PersistedInode}
    (h : inodeById inodes id = some inode) : inode ∈ inodes ∧ inode.id = id := by
  refine ⟨List.mem_reverse.mp (List.mem_of_find?_eq_some h), ?_⟩
  have hid := List.find?_some h
  rw [decide_eq_true_eq] at hid
  exact hid

/-- The map finds an inode of the kind that the audit has seen. -/
theorem exists_inodeById {id : UInt64} {kind : InodeKind}
    (h : kindOf inodes id = some kind) :
    ∃ inode, inodeById inodes id = some inode ∧ inode.kind = kind :=
  Option.map_eq_some_iff.mp h

/-- The counts after the loop. -/
theorem countReferences_eq_ok (entries : List PersistedDirectoryEntry)
    (counts : UInt64 → Option Nat)
    (hlt : ∀ id, (counts id).getD 0 + entries.length < U64_LIMIT) :
    ∃ counts', countReferences entries counts = .ok counts' ∧
      (∀ id, (counts' id).getD 0 =
        (counts id).getD 0 + referencesTo entries id) ∧
      (∀ id, counts' id = none → counts id = none) ∧
      ∀ entry ∈ entries, counts' entry.target ≠ none := by
  induction entries generalizing counts with
  | nil =>
    refine ⟨counts, rfl, fun id => rfl, fun id hnone => hnone, ?_⟩
    intro entry hentry
    cases hentry
  | cons entry entries ih =>
    have hentry := hlt entry.target
    rw [List.length_cons] at hentry
    have hadd : checkedAdd ((counts entry.target).getD 0) 1 =
        some ((counts entry.target).getD 0 + 1) := by
      rw [checkedAdd_eq_some]
      exact ⟨by omega, rfl⟩
    obtain ⟨counts', hok, hcounts, hkept, hsome⟩ := ih (fun id =>
      if id = entry.target then some ((counts entry.target).getD 0 + 1)
      else counts id) (by
        intro id
        have hid := hlt id
        rw [List.length_cons] at hid
        split
        · rw [Option.getD_some]
          omega
        · omega)
    refine ⟨counts', ?_, ?_, ?_, ?_⟩
    · rw [countReferences, hadd]
      exact hok
    · intro id
      rw [hcounts id, referencesTo, referencesTo, List.filter_cons]
      by_cases hid : entry.target = id
      · rw [if_pos hid.symm, if_pos (decide_eq_true hid), List.length_cons,
          Option.getD_some, hid]
        omega
      · rw [if_neg (fun heq => hid heq.symm),
          if_neg (by rw [decide_eq_true_eq]; exact hid)]
    · intro id hnone
      have hbefore := hkept id hnone
      split at hbefore
      · cases hbefore
      · exact hbefore
    · intro other hother hnone
      cases List.mem_cons.mp hother with
      | inl heq =>
        have hbefore := hkept other.target hnone
        rw [heq, if_pos rfl] at hbefore
        cases hbefore
      | inr hmem => exact hsome other hmem hnone

/-- The children before they are sorted. -/
theorem childrenMetadata_eq_ok (entries' : List PersistedDirectoryEntry)
    (hvalid : ∀ inode ∈ inodes, inode.validateForPersistence = .ok ())
    (hcounts : ∀ id, (counts id).getD 0 = referencesTo entries id)
    (hsome : ∀ entry ∈ entries, counts entry.target ≠ none)
    (htarget : ∀ entry ∈ entries, kindOf inodes entry.target ≠ none)
    (hsub : ∀ entry ∈ entries', entry ∈ entries) :
    ∃ children, childrenMetadata inodes counts entries' = .ok children ∧
      children.map (fun child => (child.name, child.inodeId)) =
        entries'.map (fun entry => (entry.name, entry.target)) ∧
      ∀ child ∈ children, Describes inodes entries child := by
  induction entries' with
  | nil => exact ⟨[], rfl, rfl, List.forall_mem_nil _⟩
  | cons entry entries' ih =>
    rw [List.forall_mem_cons] at hsub
    obtain ⟨children, hok, hlisted, hdescribed⟩ := ih hsub.2
    obtain ⟨kind, hkind⟩ := Option.ne_none_iff_exists'.mp (htarget entry hsub.1)
    obtain ⟨inode, hfind, _⟩ := exists_inodeById hkind
    obtain ⟨hmem, hid⟩ := mem_of_inodeById hfind
    obtain ⟨byteLen, hbyteLen, _⟩ := Except.map_eq_ok.mp (hvalid inode hmem)
    obtain ⟨count, hcount⟩ :=
      Option.ne_none_iff_exists'.mp (hsome entry hsub.1)
    refine ⟨{ name := entry.name, inodeId := entry.target, kind := inode.kind
              logicalBlocks := inode.blocks.length, byteLen
              namespaceReferences := count } :: children, ?_, ?_, ?_⟩
    · rw [childrenMetadata, hfind, okOr_some, Except.ok_bind, hcount, okOr_some,
        Except.ok_bind, hbyteLen, hok]
      rfl
    · rw [List.map_cons, List.map_cons, hlisted]
    · rw [List.forall_mem_cons]
      refine ⟨⟨⟨inode, hmem, hid, rfl, rfl, hbyteLen⟩, ?_⟩, hdescribed⟩
      have hreferences := hcounts entry.target
      rw [hcount, Option.getD_some] at hreferences
      exact hreferences

/-- Names that are compared as equal are equal. -/
theorem nameKey_injective : Function.Injective nameKey := by
  intro left right heq
  have hinj : Function.Injective UInt8.toNat := fun _ _ => UInt8.toNat_inj.mp
  have hbytes := List.map_injective_iff.mpr hinj heq
  have hleft := nameOfBytes_nameBytes left
  rw [hbytes, nameOfBytes_nameBytes, Option.some.injEq] at hleft
  exact hleft.symm

/-- Sorting records with distinct names. -/
theorem sorted_mergeSort {α : Type} (name : α → String) (records : List α)
    (hnames : (records.map name).Nodup) :
    (records.mergeSort fun left right =>
        nameKey (name left) ≤ nameKey (name right)).Pairwise fun left right =>
      nameKey (name left) < nameKey (name right) := by
  have hle := @List.pairwise_mergeSort _
    (fun left right : α =>
      decide (nameKey (name left) ≤ nameKey (name right))) (by
      intro x y z hxy hyz
      rw [decide_eq_true_eq] at hxy hyz ⊢
      exact hxy.trans hyz) (by
      intro x y
      rw [Bool.or_eq_true, decide_eq_true_eq, decide_eq_true_eq]
      exact le_total _ _) records
  have hne : (records.mergeSort fun left right =>
      nameKey (name left) ≤ nameKey (name right)).Pairwise fun left right =>
        name left ≠ name right := by
    rw [← List.pairwise_map]
    exact ((List.mergeSort_perm records _).map _).nodup_iff.mpr hnames
  apply (hle.and hne).imp
  intro left right hboth
  rw [decide_eq_true_eq] at hboth
  exact lt_of_le_of_ne hboth.1 fun heq => hboth.2 (nameKey_injective heq)

/-- The entries of one directory have distinct names. -/
theorem nodup_names_of_keys {directory : UInt64}
    (hkeys : (entries.map fun entry => (entry.parent, entry.name)).Nodup) :
    ((entries.filter fun entry => entry.parent = directory).map
      PersistedDirectoryEntry.name).Nodup := by
  apply List.pairwise_map.mpr
  apply ((List.pairwise_map.mp hkeys).filter _).imp_of_mem
  intro left right hleft hright hne heq
  have hparent := (List.mem_filter.mp hleft).2
  have hparent' := (List.mem_filter.mp hright).2
  rw [decide_eq_true_eq] at hparent hparent'
  exact hne (by rw [hparent, hparent', heq])

/-- **A directory is listed** with each of its entries once. -/
theorem enumerateDirectory_eq_ok {directory : UInt64}
    (hvalid : ∀ inode ∈ inodes, inode.validateForPersistence = .ok ())
    (hkeys : (entries.map fun entry => (entry.parent, entry.name)).Nodup)
    (haudit : auditNamespace inodes entries = .ok ())
    (hlen : entries.length < U64_LIMIT)
    (hdirectory : kindOf inodes directory = some .directory) :
    ∃ children, enumerateDirectoryWithMetadata directory inodes entries =
        .ok children ∧
      Enumerates inodes entries directory children := by
  have hnamespace := auditNamespace_eq_ok.mp haudit
  obtain ⟨inode, hfind, hkind⟩ := exists_inodeById hdirectory
  obtain ⟨counts, hcounts, htotal, _, hsome⟩ :=
    countReferences_eq_ok entries (fun _ => none) (by
      intro id
      rw [Option.getD_none]
      omega)
  obtain ⟨children, hchildren, hlisted, hdescribed⟩ := childrenMetadata_eq_ok
    (entries.filter fun entry => entry.parent = directory) hvalid (by
      intro id
      rw [htotal id, Option.getD_none, Nat.zero_add]) hsome hnamespace.target
    (fun entry hentry => (List.mem_filter.mp hentry).1)
  have hnames : (children.map PathDirectoryEntryMetadata.name).Nodup := by
    have hfirst := congrArg (List.map Prod.fst) hlisted
    rw [List.map_map, List.map_map] at hfirst
    have hsame : children.map PathDirectoryEntryMetadata.name =
        (entries.filter fun entry => entry.parent = directory).map
          PersistedDirectoryEntry.name := hfirst
    rw [hsame]
    exact nodup_names_of_keys hkeys
  refine ⟨_, ?_, ?_, sorted_mergeSort _ children hnames, ?_⟩
  · rw [enumerateDirectoryWithMetadata, hfind, okOr_some,
      Except.ok_bind, rejectIf_of_not (not_ne_iff.mpr hkind), Except.ok_bind,
      hcounts, Except.ok_bind, hchildren]
    rfl
  · rw [← hlisted]
    exact (List.mergeSort_perm children _).map _
  · intro child hchild
    exact hdescribed child ((List.mergeSort_perm children _).mem_iff.mp hchild)

end Enumerate

/-! ## Pages -/

/-- The order of names. -/
@[reducible] def nameOrder : LinearOrder String :=
  LinearOrder.lift' nameKey nameKey_injective

/-- The children behind a cursor. -/
def childrenAfter (children : List PathDirectoryEntryMetadata)
    (after : Option String) : List PathDirectoryEntryMetadata :=
  children.filter fun entry => entry.isAfter after

/-- The pages of children, as pairs of entries and the next cursor. -/
def directoryPages (reservable : Nat → Bool)
    (children : List PathDirectoryEntryMetadata) (limit : Nat)
    (after : Option String) :
    Result (List PathDirectoryEntryMetadata × Option String) :=
  (paginateDirectoryMetadata reservable children after limit).map fun page =>
    (page.entries, page.nextAfter)

section Pages

variable {reservable : Nat → Bool} {children : List PathDirectoryEntryMetadata}
  {limit : Nat} {cursor : Option String}

/-- The library's cells behind a cursor are the children behind a name. -/
theorem after_names (children : List PathDirectoryEntryMetadata)
    (cursor : Option String) :
    @after _ _ nameOrder PathDirectoryEntryMetadata.name children cursor =
      childrenAfter children cursor := by
  cases cursor with
  | none =>
    exact (List.filter_eq_self.mpr fun _ _ => rfl).symm
  | some name =>
    apply List.filter_congr
    intro child _
    exact decide_eq_decide.mpr Iff.rfl

/-- One page of children. -/
theorem paginateDirectoryMetadata_eq_ok
    (children : List PathDirectoryEntryMetadata) (cursor : Option String)
    (hlimit : 0 < limit) (hreserve : reservable limit = true) :
    ∃ next, paginateDirectoryMetadata reservable children cursor limit =
        .ok ⟨(childrenAfter children cursor).take limit, next⟩ ∧
      (next = none ↔ (childrenAfter children cursor).length ≤ limit) ∧
      ∀ name ∈ next, ∃ child,
        ((childrenAfter children cursor).take limit).getLast? = some child ∧
          child.name = name := by
  rw [paginateDirectoryMetadata, rejectIf_of_not (by omega), Except.ok_bind,
    rejectIf_of_not (by rw [hreserve]; decide)]
  show ∃ next, Except.ok (⟨(childrenAfter children cursor).take limit,
    if (!((childrenAfter children cursor).drop limit).isEmpty) = true then
      ((childrenAfter children cursor).take limit).getLast?.map
        PathDirectoryEntryMetadata.name
    else none⟩ : PathDirectoryMetadataPage) = _ ∧ _
  refine ⟨_, rfl, ?_, ?_⟩
  · by_cases hmore : (childrenAfter children cursor).length ≤ limit
    · rw [List.drop_of_length_le hmore]
      exact ⟨fun _ => hmore, fun _ => rfl⟩
    · have hdrop : (!((childrenAfter children cursor).drop limit).isEmpty) =
          true := by
        rw [Bool.not_eq_true', List.isEmpty_eq_false_iff, ← List.length_pos_iff,
          List.length_drop]
        omega
      have htake : (childrenAfter children cursor).take limit ≠ [] := by
        rw [← List.length_pos_iff, List.length_take]
        omega
      rw [if_pos hdrop, Option.map_eq_none_iff, List.getLast?_eq_none_iff]
      exact ⟨fun hnil => absurd hnil htake, fun hle => absurd hle hmore⟩
  · intro name hname
    split at hname
    · exact Option.map_eq_some_iff.mp hname
    · cases hname

/-- **Following the cursors gives all children behind the first.** -/
theorem follows_directoryPages (hlimit : 0 < limit)
    (hreserve : reservable limit = true)
    (hsorted : children.Pairwise fun left right =>
      nameKey left.name < nameKey right.name) (cursor : Option String) :
    Follows (directoryPages reservable children limit) cursor
      (childrenAfter children cursor) := by
  let _ : LinearOrder String := nameOrder
  have hpages : ∀ c, True → ∃ items next,
      directoryPages reservable children limit c = .ok (items, next) ∧
      IsPage PathDirectoryEntryMetadata.name (fun child => [child]) children c
        items next ∧ ∀ n ∈ next, True := by
    intro c _
    obtain ⟨next, hpage, hnone, hlast⟩ :=
      paginateDirectoryMetadata_eq_ok children c hlimit hreserve
    refine ⟨(childrenAfter children c).take limit, next, ?_,
      ⟨⟨(childrenAfter children c).drop limit, ?_, ?_⟩, ?_⟩,
      fun _ _ => trivial⟩
    · rw [directoryPages, hpage]
      rfl
    · rw [List.flatMap_singleton', List.take_append_drop]
      exact (after_names children c).symm
    · rw [hnone, List.drop_eq_nil_iff]
    · rw [List.flatMap_singleton']
      exact hlast
  obtain ⟨all, hfollows, hall⟩ := @follows_of_isPage _ _ _ _ nameOrder
    PathDirectoryEntryMetadata.name children cursor _ _ _ hsorted hpages trivial
  rw [List.flatMap_singleton', after_names] at hall
  rw [← hall]
  exact hfollows

end Pages

/-- **Directory pages are exact.**  For inodes that may be persisted and entries
with distinct keys that the audit accepts, a directory is listed with each of its
entries once, in the order of their names; a page is the first children behind
its cursor, with a next cursor exactly if there are more; and following the
cursors gives all children behind the first one. -/
theorem directoryPages_exact {inodes : List PersistedInode}
    {entries : List PersistedDirectoryEntry} {directory : UInt64}
    {reservable : Nat → Bool} {limit : Nat} {cursor : Option String}
    (hvalid : ∀ inode ∈ inodes, inode.validateForPersistence = .ok ())
    (hkeys : (entries.map fun entry => (entry.parent, entry.name)).Nodup)
    (haudit : auditNamespace inodes entries = .ok ())
    (hlen : entries.length < U64_LIMIT)
    (hdirectory : kindOf inodes directory = some .directory)
    (hlimit : 0 < limit) (hreserve : reservable limit = true) :
    ∃ children, enumerateDirectoryWithMetadata directory inodes entries =
        .ok children ∧
      Enumerates inodes entries directory children ∧
      (∃ page, paginateDirectoryMetadata reservable children cursor limit =
          .ok page ∧
        page.entries = (childrenAfter children cursor).take limit ∧
        (page.nextAfter = none ↔
          (childrenAfter children cursor).length ≤ limit)) ∧
      Follows (directoryPages reservable children limit) cursor
        (childrenAfter children cursor) := by
  obtain ⟨children, hok, hlists⟩ :=
    enumerateDirectory_eq_ok hvalid hkeys haudit hlen hdirectory
  obtain ⟨next, hpage, hnone, _⟩ :=
    paginateDirectoryMetadata_eq_ok children cursor hlimit hreserve
  exact ⟨children, hok, hlists, ⟨_, hpage, rfl, hnone⟩,
    follows_directoryPages hlimit hreserve hlists.sorted cursor⟩

/-- The lists of the sample are listed and read in pages of one. -/
theorem directoryPages_exact_filesInodes :
    ∃ children, enumerateDirectoryWithMetadata 1 filesInodes filesEntries =
        .ok children ∧
      Enumerates filesInodes filesEntries 1 children ∧
      (∃ page, paginateDirectoryMetadata (fun limit => limit ≤ 1024) children
          (some "s") 1 = .ok page ∧
        page.entries = (childrenAfter children (some "s")).take 1 ∧
        (page.nextAfter = none ↔
          (childrenAfter children (some "s")).length ≤ 1)) ∧
      Follows (directoryPages (fun limit => limit ≤ 1024) children 1) (some "s")
        (childrenAfter children (some "s")) :=
  @directoryPages_exact filesInodes filesEntries 1 (fun limit => limit ≤ 1024) 1
    (some "s") (by decide) (by decide)
    (auditNamespace_eq_ok.mpr (mounted_filesDisk fun _ => Block.zero).tree)
    (by decide) rfl (by decide) rfl

/-! ## Pages at a path -/

/-- A directory of a mounted disk is listed. -/
theorem Mounted.enumerates {d : Disk} {sb : Superblock} {a : BlockAllocator}
    {inodes : List PersistedInode} {entries : List PersistedDirectoryEntry}
    {directory : UInt64} (h : Mounted d sb a inodes entries)
    (hdirectory : kindOf inodes directory = some .directory) :
    ∃ children, enumerateDirectoryWithMetadata directory inodes entries =
        .ok children ∧
      Enumerates inodes entries directory children := by
  have hvalid : ∀ inode ∈ inodes, inode.validateForPersistence = .ok () := by
    intro inode hinode
    rw [PersistedInode.validateForPersistence, PersistedInode.canonicalByteLen,
      liftMessage_eq_ok.mpr (h.validate hinode)]
    rfl
  have hlen : entries.length < U64_LIMIT := by
    obtain ⟨_, himage⟩ := h.directoryImage
    obtain ⟨_, _, _, _, hcount, _⟩ := TableFormat.encodeImage_eq_ok.mp himage
    have hlimit : 2 ^ 32 < U64_LIMIT := by decide
    omega
  exact enumerateDirectory_eq_ok hvalid h.nodup_keys
    (auditNamespace_eq_ok.mpr h.tree) hlen hdirectory

/-- **The pages of a directory at a path** of a mounted disk lose and repeat
nothing, and a page changes nothing. -/
theorem Mounted.listDirectoryPages {d : Disk} {sb : Superblock}
    {a : BlockAllocator} {inodes : List PersistedInode}
    {entries : List PersistedDirectoryEntry} {directory : PersistedInode}
    {path : String} {reservable : Nat → Bool} {limit : Nat}
    (h : Mounted d sb a inodes entries) (hmem : directory ∈ inodes)
    (hkind : directory.kind = .directory)
    (hpath : resolvePathFollowingSymlinks d sb path = .ok directory.id)
    (hlimit : 0 < limit) (hreserve : reservable limit = true) :
    ∃ children, Enumerates inodes entries directory.id children ∧
      ∀ cursor, (listDirectoryWithMetadataPageAtPath reservable sb path cursor
          limit d).2 = d ∧
        Follows (fun after => (listDirectoryWithMetadataPageAtPath reservable sb
          path after limit d).1.map fun page => (page.entries, page.nextAfter))
          cursor (childrenAfter children cursor) := by
  have hdirectory : kindOf inodes directory.id = some .directory := by
    rw [kindOf_of_mem h.nodup_ids hmem, hkind]
  obtain ⟨children, hok, hlists⟩ := h.enumerates hdirectory
  have hrun : ∀ after, listDirectoryWithMetadataPageAtPath reservable sb path
      after limit d = (paginateDirectoryMetadata reservable children after limit,
        d) := by
    intro after
    rw [listDirectoryWithMetadataPageAtPath,
      Effect.lift_bind_of_ok (a := ()) (rejectIf_of_not (by omega)),
      Effect.bind_of_ok h.recoverChecked, Effect.query_bind_of_ok h.check,
      Effect.query_bind_of_ok
        (q := fun d : Disk => resolvePathFollowingSymlinks d sb path) hpath,
      h.inodes_bind, h.entries_bind, Effect.lift_bind_of_ok hok]
    rfl
  refine ⟨children, hlists, ?_⟩
  intro cursor
  have hpages := follows_directoryPages hlimit hreserve hlists.sorted cursor
  have hsame : (fun after => (listDirectoryWithMetadataPageAtPath reservable sb
      path after limit d).1.map fun page => (page.entries, page.nextAfter)) =
        directoryPages reservable children limit := by
    funext after
    rw [hrun after]
    rfl
  rw [hsame, hrun cursor]
  exact ⟨rfl, hpages⟩

end FilesystemLab
