import FilesystemLab.AllocationRepair
import FilesystemLab.Lib.Rooted

/-!
# Reattaching unreachable inodes

`repair_unreachable_inodes_journaled` of `src/fsck_repair.rs`.  The unreachable
inodes without an unreachable parent get an entry in the root directory, under a
name that the root does not have yet.

The entries of an accepted table have no cycle, so every unreachable inode has
such an ancestor, and linking only these makes all of them reachable.  The root
has no parent, so the new entries close no cycle.
-/

namespace FilesystemLab

open Relation Digraph WriteLog

/-! ## The search for a name -/

/-- `format!(".fsck-orphan-{inode_id}")`. -/
def orphanBase (id : UInt64) : String := ".fsck-orphan-" ++ toString id

/-- `format!("{base}-{suffix}")`. -/
def suffixed (base : String) (suffix : Nat) : String :=
  base ++ "-" ++ toString suffix

/-- The `while` loop over the names that are taken. -/
def searchName (occupied : List String) (base name : String) (suffix : Nat) :
    Result String :=
  if name ∈ occupied then
    if suffix + 1 < U64_LIMIT then
      searchName occupied base (suffixed base suffix) (suffix + 1)
    else .error (invalidData "orphan repair name suffix overflow")
  else pure name
termination_by U64_LIMIT - suffix

/-- Different suffixes give different names. -/
theorem suffixed_injective (base : String) :
    Function.Injective (suffixed base) := by
  intro m n h
  have hlist := congrArg String.toList h
  simp only [suffixed, String.toList_append, Nat.toString_eq_repr,
    Nat.toList_repr, List.append_cancel_left_eq] at hlist
  have hdigits := congrArg (Nat.ofDigitChars 10 · 0) hlist
  rw [Nat.ofDigitChars_toDigits (by decide) (by decide),
    Nat.ofDigitChars_toDigits (by decide) (by decide)] at hdigits
  exact hdigits

/-- One of the first suffixes is free. -/
theorem exists_free_suffix (occupied : List String) (base : String) :
    ∃ k, 1 ≤ k ∧ k ≤ occupied.length + 1 ∧ suffixed base k ∉ occupied := by
  by_contra hnone
  have hsub : ((List.range' 1 (occupied.length + 1)).map (suffixed base)) ⊆
      occupied := by
    intro name hname
    obtain ⟨k, hk, rfl⟩ := List.mem_map.mp hname
    by_contra hfree
    have := List.mem_range'_1.mp hk
    exact hnone ⟨k, by omega, by omega, hfree⟩
  have hnodup : ((List.range' 1 (occupied.length + 1)).map
      (suffixed base)).Nodup :=
    (List.nodup_map_iff (suffixed_injective base)).mpr List.nodup_range'
  have hlen := (hnodup.subperm hsub).length_le
  rw [List.length_map, List.length_range'] at hlen
  omega

/-- The name that the search returns is free, and one of its candidates. -/
theorem searchName_eq_ok {occupied : List String} {base name found : String}
    {suffix : Nat} (h : searchName occupied base name suffix = .ok found) :
    found ∉ occupied ∧ (found = name ∨
      ∃ k, k < U64_LIMIT ∧ found = suffixed base k) := by
  fun_induction searchName occupied base name suffix with
  | case1 name suffix _ hlt ih =>
    obtain ⟨hfree, hfound⟩ := ih h
    refine ⟨hfree, .inr ?_⟩
    rcases hfound with rfl | hfound
    · exact ⟨suffix, by omega, rfl⟩
    · exact hfound
  | case2 => cases h
  | case3 name suffix hfree =>
    rw [Except.pure_eq_ok, Except.ok.injEq] at h
    subst h
    exact ⟨hfree, .inl rfl⟩

/-- The search ends at the first free suffix. -/
theorem searchName_of_free {occupied : List String} {base name : String}
    {suffix k : Nat} (hle : suffix ≤ k) (hlt : k + 1 < U64_LIMIT)
    (hfree : suffixed base k ∉ occupied) :
    ∃ found, searchName occupied base name suffix = .ok found := by
  induction hn : k - suffix generalizing suffix name with
  | zero =>
    have hk : suffix = k := by omega
    subst hk
    rw [searchName]
    split
    · rw [searchName, if_neg hfree]
      exact ⟨_, rfl⟩
    · exact ⟨_, rfl⟩
  | succ n ih =>
    rw [searchName]
    split
    · rw [if_pos (by omega)]
      exact ih (by omega) (by omega)
    · exact ⟨_, rfl⟩

/-- **The search for a name ends.** -/
theorem exists_searchName {occupied : List String} (base : String)
    (hlen : occupied.length + 2 < U64_LIMIT) :
    ∃ found, searchName occupied base base 1 = .ok found := by
  obtain ⟨k, hpos, hle, hfree⟩ := exists_free_suffix occupied base
  exact searchName_of_free hpos (by omega) hfree

/-! ## Names of orphans -/

/-- A name has at most four bytes for each character. -/
theorem length_nameBytes_le (name : String) :
    (nameBytes name).length ≤ 4 * name.toList.length := by
  have hbytes : nameBytes name = name.toList.flatMap String.utf8EncodeChar := by
    have hname : name = String.ofList name.toList := by simp
    rw [nameBytes]
    conv_lhs => rw [hname]
    rw [String.toByteArray_ofList, List.utf8Encode]
    simp
  have hsize : ∀ chars : List Char,
      (chars.flatMap String.utf8EncodeChar).length ≤ 4 * chars.length := by
    intro chars
    induction chars with
    | nil => simp
    | cons c cs ih =>
      have hc := Char.utf8Size_le_four c
      rw [List.flatMap_cons, List.length_append, String.length_utf8EncodeChar,
        List.length_cons]
      omega
  rw [hbytes]
  exact hsize _

/-- A short name without separators is valid. -/
theorem not_invalidName {name : String} (hlong : 3 ≤ name.toList.length)
    (hshort : name.toList.length ≤ 63)
    (hchars : ∀ c ∈ name.toList, c ≠ '/' ∧ c ≠ Char.ofNat 0) :
    ¬ InvalidName name := by
  have hbytes := length_nameBytes_le name
  intro hcases
  rcases hcases with rfl | rfl | rfl | hslash | hnul | hlen
  · simp at hlong
  · simp at hlong
  · simp at hlong
  · exact (hchars _ hslash).1 rfl
  · exact (hchars _ hnul).2 rfl
  · simp only [DIRECTORY_NAME_MAX_BYTES] at hlen
    omega

/-- A decimal numeral has no separator. -/
theorem ne_of_mem_toDigits {n : Nat} {c : Char} (h : c ∈ Nat.toDigits 10 n) :
    c ≠ '/' ∧ c ≠ Char.ofNat 0 := by
  have hdigit := Nat.isDigit_of_mem_toDigits (by decide) (by decide) h
  constructor
  · intro heq
    subst heq
    exact absurd hdigit (by decide)
  · intro heq
    subst heq
    exact absurd hdigit (by decide)

/-- A 64-bit numeral has at most twenty digits. -/
theorem length_toDigits_le {n : Nat} (h : n < U64_LIMIT) :
    (Nat.toDigits 10 n).length ≤ 20 := by
  rw [Nat.length_toDigits_le_iff (by decide) (by decide)]
  exact lt_trans h (by decide)

/-- The names of orphans can be stored. -/
theorem valid_orphanName {id : UInt64} {name : String}
    (h : name = orphanBase id ∨
      ∃ k, k < U64_LIMIT ∧ name = suffixed (orphanBase id) k) :
    ¬ InvalidName name := by
  have hprefix : ".fsck-orphan-".toList.length = 13 ∧
      ∀ c ∈ ".fsck-orphan-".toList, c ≠ '/' ∧ c ≠ Char.ofNat 0 := by
    simp
  have hdash : ∀ c ∈ "-".toList, c ≠ '/' ∧ c ≠ Char.ofNat 0 := by simp
  have hid := length_toDigits_le id.toNat_lt
  have hbase : (orphanBase id).toList =
      ".fsck-orphan-".toList ++ Nat.toDigits 10 id.toNat := by
    rw [orphanBase, String.toList_append]
    show _ ++ (toString id.toNat).toList = _
    rw [Nat.toString_eq_repr, Nat.toList_repr]
  rcases h with rfl | ⟨k, hk, rfl⟩
  · apply not_invalidName
    · rw [hbase, List.length_append]
      omega
    · rw [hbase, List.length_append]
      omega
    · intro c hc
      rw [hbase, List.mem_append] at hc
      rcases hc with hc | hc
      · exact hprefix.2 c hc
      · exact ne_of_mem_toDigits hc
  · have hdigits := length_toDigits_le hk
    have hname : (suffixed (orphanBase id) k).toList =
        ".fsck-orphan-".toList ++ Nat.toDigits 10 id.toNat ++ "-".toList ++
          Nat.toDigits 10 k := by
      rw [suffixed, String.toList_append, String.toList_append, hbase,
        Nat.toString_eq_repr, Nat.toList_repr]
    have hone : "-".toList.length = 1 := by decide
    apply not_invalidName
    · rw [hname]
      simp only [List.length_append]
      omega
    · rw [hname]
      simp only [List.length_append]
      omega
    · intro c hc
      rw [hname] at hc
      simp only [List.mem_append] at hc
      rcases hc with ((hc | hc) | hc) | hc
      · exact hprefix.2 c hc
      · exact ne_of_mem_toDigits hc
      · exact hdash c hc
      · exact ne_of_mem_toDigits hc

/-! ## The repair -/

/-- `NamespaceReattachment`. -/
structure NamespaceReattachment where
  inodeId : UInt64
  name : String
  deriving DecidableEq, Repr

/-- The entry that is pushed for a reattachment. -/
def NamespaceReattachment.entry (r : NamespaceReattachment) :
    PersistedDirectoryEntry where
  parent := ROOT_INODE_ID
  target := r.inodeId
  name := r.name

/-- `OrphanNamespaceRepairReport`. -/
structure OrphanNamespaceRepairReport where
  reattached : List NamespaceReattachment
  priorRecovery : RecoveryReport
  repairTransaction : RecoveryReport

/-- `component_roots`: the unreachable inodes that no unreachable directory has
an entry for. -/
def componentRoots (unreachable : List UInt64)
    (entries : List PersistedDirectoryEntry) : List UInt64 :=
  unreachable.filter fun id => ¬ entries.any fun entry =>
    entry.parent ∈ unreachable ∧ entry.target = id

/-- The names in the root directory. -/
def rootNames (entries : List PersistedDirectoryEntry) : List String :=
  (entries.filter fun entry => entry.parent = ROOT_INODE_ID).map
    PersistedDirectoryEntry.name

/-- The loop over the component roots. -/
def reattach (occupied : List String) :
    List UInt64 → Result (List NamespaceReattachment)
  | [] => pure []
  | id :: ids => do
    let name ← searchName occupied (orphanBase id) (orphanBase id) 1
    let rest ← reattach (name :: occupied) ids
    pure (⟨id, name⟩ :: rest)

section Device

variable {σ : Type} [BlockDevice σ]

/-- The part of `repair_unreachable_inodes_journaled` that changes the
device. -/
def publishReattachment (sb : Superblock) (priorRecovery : RecoveryReport)
    (reattached : List NamespaceReattachment)
    (entries : List PersistedDirectoryEntry) :
    DevM σ OrphanNamespaceRepairReport := do
  let repairTransaction ← storeDirectoryTableJournaled sb entries
  rejectIf (repairTransaction.committedTransactions ≠ 1) (invalidData
    "orphan namespace repair did not publish exactly one committed transaction")
  let checkpointed ← checkpointJournal sb
  rejectIf (checkpointed = false) (invalidData
    "orphan namespace repair transaction was not present for checkpoint")
  let _ ← Effect.query checkDevice
  pure ⟨reattached, priorRecovery, repairTransaction⟩

/-- The part of `repair_unreachable_inodes_journaled` that chooses the new
entries. -/
def reattachUnreachable (sb : Superblock) (priorRecovery : RecoveryReport)
    (unreachable : List UInt64) : DevM σ OrphanNamespaceRepairReport := do
  let inodes ← Effect.query (loadInodeTable · sb)
  let entries ← Effect.query (loadDirectoryTable · sb)
  rejectIf (componentRoots unreachable entries = [])
    (invalidData "unreachable namespace has no acyclic component root")
  let reattached ← reattach (rootNames entries)
    (componentRoots unreachable entries)
  auditNamespace inodes
    (entries ++ reattached.map NamespaceReattachment.entry)
  publishReattachment sb priorRecovery reattached
    (entries ++ reattached.map NamespaceReattachment.entry)

/-- `repair_unreachable_inodes_journaled`. -/
def repairUnreachableInodesJournaled (sb : Superblock) :
    DevM σ OrphanNamespaceRepairReport := do
  Effect.query (requireDurableSuperblock · sb)
  let priorRecovery ← recoverJournalAndCheckpoint sb
  let audit ← Effect.query checkDeviceAllowingUnreachableInodes
  if audit.2 = [] then pure ⟨[], priorRecovery, RecoveryReport.default⟩
  else reattachUnreachable sb priorRecovery audit.2

end Device

/-! ## The new entries -/

/-- What the loop over the component roots returns. -/
structure Reattaches (occupied : List String) (ids : List UInt64)
    (reattached : List NamespaceReattachment) : Prop where
  ids : reattached.map NamespaceReattachment.inodeId = ids
  distinct : (reattached.map NamespaceReattachment.name).Nodup
  fresh : ∀ r ∈ reattached, r.name ∉ occupied
  valid : ∀ r ∈ reattached, ¬ InvalidName r.name

theorem reattach_eq_ok {occupied : List String} {ids : List UInt64}
    {reattached : List NamespaceReattachment}
    (h : reattach occupied ids = .ok reattached) :
    Reattaches occupied ids reattached := by
  induction ids generalizing occupied reattached with
  | nil =>
    simp only [reattach, Except.pure_eq_ok, Except.ok.injEq] at h
    subst h
    exact ⟨rfl, by simp, by simp, by simp⟩
  | cons id ids ih =>
    simp only [reattach, Except.bind_eq_ok, Except.pure_eq_ok,
      Except.ok.injEq] at h
    obtain ⟨name, hname, rest, hrest, rfl⟩ := h
    obtain ⟨hfree, hfound⟩ := searchName_eq_ok hname
    have hrest := ih hrest
    refine ⟨by rw [List.map_cons, hrest.ids], ?_, ?_, ?_⟩
    · rw [List.map_cons, List.nodup_cons]
      refine ⟨?_, hrest.distinct⟩
      intro hmem
      obtain ⟨r, hr, heq⟩ := List.mem_map.mp hmem
      apply hrest.fresh r hr
      rw [heq]
      exact List.mem_cons_self
    · rw [List.forall_mem_cons]
      refine ⟨hfree, ?_⟩
      intro r hr hmem
      exact hrest.fresh r hr (List.mem_cons_of_mem _ hmem)
    · rw [List.forall_mem_cons]
      exact ⟨valid_orphanName hfound, hrest.valid⟩

/-- The loop over the component roots ends. -/
theorem exists_reattach {occupied : List String} {ids : List UInt64}
    (hlen : occupied.length + ids.length + 2 < U64_LIMIT) :
    ∃ reattached, reattach occupied ids = .ok reattached := by
  induction ids generalizing occupied with
  | nil => exact ⟨[], rfl⟩
  | cons id ids ih =>
    rw [List.length_cons] at hlen
    obtain ⟨name, hname⟩ := exists_searchName (orphanBase id)
      (show occupied.length + 2 < U64_LIMIT by omega)
    obtain ⟨rest, hrest⟩ := @ih (name :: occupied)
      (by rw [List.length_cons]; omega)
    refine ⟨⟨id, name⟩ :: rest, ?_⟩
    rw [reattach, hname, Except.ok_bind, hrest]
    rfl

theorem mem_componentRoots {unreachable : List UInt64}
    {entries : List PersistedDirectoryEntry} {id : UInt64} :
    id ∈ componentRoots unreachable entries ↔ id ∈ unreachable ∧
      ∀ entry ∈ entries, entry.target = id → entry.parent ∉ unreachable := by
  unfold componentRoots
  rw [List.mem_filter]
  simp only [List.any_eq_true, decide_eq_true_eq, not_exists, not_and,
    Bool.decide_and, Bool.and_eq_true]
  constructor
  · intro hfacts
    rcases hfacts with ⟨hmem, hno⟩
    refine ⟨hmem, ?_⟩
    intro entry hentry htarget hparent
    exact hno entry hentry hparent htarget
  · intro hfacts
    rcases hfacts with ⟨hmem, hno⟩
    refine ⟨hmem, ?_⟩
    intro entry hentry hparent htarget
    exact hno entry hentry htarget hparent

theorem mem_rootNames {entries : List PersistedDirectoryEntry}
    {name : String} :
    name ∈ rootNames entries ↔
      ∃ entry ∈ entries, entry.parent = ROOT_INODE_ID ∧ entry.name = name := by
  simp only [rootNames, List.mem_map, List.mem_filter, decide_eq_true_eq,
    and_assoc]

/-- The new links are those of the root. -/
theorem links_reattached {entries : List PersistedDirectoryEntry}
    {reattached : List NamespaceReattachment} {x y : UInt64} :
    Links (entries ++ reattached.map NamespaceReattachment.entry) x y ↔
      Links entries x y ∨ x = ROOT_INODE_ID ∧
        y ∈ reattached.map NamespaceReattachment.inodeId := by
  constructor
  · intro hfacts
    rcases hfacts with ⟨entry, hmem, rfl, rfl⟩
    rcases List.mem_append.mp hmem with hmem | hmem
    · exact .inl ⟨entry, hmem, rfl, rfl⟩
    · obtain ⟨r, hr, rfl⟩ := List.mem_map.mp hmem
      exact .inr ⟨rfl, List.mem_map_of_mem hr⟩
  · intro hcases
    rcases hcases with ⟨entry, hmem, rfl, rfl⟩ | ⟨rfl, hy⟩
    · exact ⟨entry, List.mem_append_left _ hmem, rfl, rfl⟩
    · obtain ⟨r, hr, rfl⟩ := List.mem_map.mp hy
      exact ⟨r.entry, List.mem_append_right _ (List.mem_map_of_mem hr), rfl,
        rfl⟩

section Graph

variable {inodes : List PersistedInode}
  {entries : List PersistedDirectoryEntry}

/-- The links of a table lead back to finitely many directories. -/
theorem Linked.acc (h : Linked inodes entries) (id : UInt64) :
    Acc (Links entries) id := by
  have hsources : ∀ x y, Links entries x y →
      x ∈ entries.map PersistedDirectoryEntry.parent := by
    intro x y hfacts
    rcases hfacts with ⟨entry, hmem, rfl, _⟩
    exact List.mem_map_of_mem hmem
  exact acc_of_acyclic_sources hsources h.acyclic id

/-- The root is reachable. -/
theorem root_not_mem_unreachable :
    ROOT_INODE_ID ∉ unreachableInodes inodes entries := by
  rw [mem_unreachableInodes]
  intro hfacts
  rcases hfacts with ⟨_, hno⟩
  exact hno .refl

/-- Every unreachable inode has a component root above it. -/
theorem exists_componentRoot (h : Linked inodes entries) {id : UInt64}
    (hid : id ∈ unreachableInodes inodes entries) :
    ∃ root ∈ componentRoots (unreachableInodes inodes entries) entries,
      ReflTransGen (Links entries) root id := by
  obtain ⟨root, hroot, hsource, hpath⟩ := @exists_source _ _
    (fun x => x ∈ unreachableInodes inodes entries) _ (h.acc id) hid
  refine ⟨root, mem_componentRoots.mpr ⟨hroot, ?_⟩, hpath⟩
  intro entry hentry htarget hparent
  exact hsource entry.parent hparent ⟨entry, hentry, rfl, htarget⟩

/-- **Linking the component roots repairs the namespace.** -/
theorem Linked.reattached (h : Linked inodes entries)
    (hroot : ∀ entry ∈ entries, entry.target ≠ ROOT_INODE_ID)
    (hne : unreachableInodes inodes entries ≠ [])
    {reattached : List NamespaceReattachment}
    (hids : reattached.map NamespaceReattachment.inodeId =
      componentRoots (unreachableInodes inodes entries) entries) :
    Namespace inodes
      (entries ++ reattached.map NamespaceReattachment.entry) := by
  have hlinks : ∀ x y, Links
      (entries ++ reattached.map NamespaceReattachment.entry) x y ↔
        Links entries x y ∨ x = ROOT_INODE_ID ∧
          y ∈ componentRoots (unreachableInodes inodes entries) entries := by
    intro x y
    rw [links_reattached, hids]
  have hmember : ∀ id, id ∈ componentRoots
      (unreachableInodes inodes entries) entries →
      id ∈ unreachableInodes inodes entries :=
    fun id hid => (mem_componentRoots.mp hid).1
  have hinodes : inodes ≠ [] := by
    intro heq
    subst heq
    simp [unreachableInodes] at hne
  refine ⟨?_, ?_, h.root, ?_, ?_⟩
  · intro entry hmem
    rcases List.mem_append.mp hmem with hmem | hmem
    · exact h.parent entry hmem
    · obtain ⟨r, _, rfl⟩ := List.mem_map.mp hmem
      exact h.root hinodes
  · intro entry hmem
    rcases List.mem_append.mp hmem with hmem | hmem
    · exact h.target entry hmem
    · obtain ⟨r, hr, rfl⟩ := List.mem_map.mp hmem
      have hid : r.inodeId ∈ componentRoots
          (unreachableInodes inodes entries) entries := by
        rw [← hids]
        exact List.mem_map_of_mem hr
      exact kindOf_ne_none.mpr
        (mem_unreachableInodes.mp (hmember _ hid)).1
  · have hnew : ∀ x y, Links
        (entries ++ reattached.map NamespaceReattachment.entry) x y →
          Links entries x y ∨ x = ROOT_INODE_ID :=
      fun x y hxy => ((hlinks x y).mp hxy).imp_right And.left
    apply acyclic_of_rooted h.acyclic hnew
    · intro x hx
      rcases (hlinks x _).mp hx with ⟨entry, hmem, _, htarget⟩ | ⟨_, hmem⟩
      · exact hroot entry hmem htarget
      · exact root_not_mem_unreachable (hmember _ hmem)
  · intro inode hmem
    have hold : ∀ {x y : UInt64}, ReflTransGen (Links entries) x y →
        ReflTransGen (Links
          (entries ++ reattached.map NamespaceReattachment.entry)) x y :=
      fun hpath => ReflTransGen.mono (fun x y hxy =>
        (hlinks x y).mpr (.inl hxy)) _ _ hpath
    by_cases hreach : ReflTransGen (Links entries) ROOT_INODE_ID inode.id
    · exact hold hreach
    · have hid : inode.id ∈ unreachableInodes inodes entries :=
        mem_unreachableInodes.mpr ⟨⟨inode, hmem, rfl⟩, hreach⟩
      obtain ⟨root, hmember, hpath⟩ := exists_componentRoot h hid
      exact .head ((hlinks _ _).mpr (.inr ⟨rfl, hmember⟩)) (hold hpath)

end Graph

/-! ## The repair of a device -/

/-- A directory table fits its region. -/
def DirectoryFits (sb : Superblock)
    (entries : List PersistedDirectoryEntry) : Prop :=
  32 + (entries.map fun entry => 40 + (nameBytes entry.name).length).sum ≤
      sb.directoryBlocks * BLOCK_SIZE ∧ entries.length < 2 ^ 32

/-- The transaction with the changed blocks of a directory table fits the
journal. -/
def DirectoryChangesFit (sb : Superblock) (d : Disk)
    (entries : List PersistedDirectoryEntry) : Prop :=
  ∀ ws, renderedWrites (directoryImages sb entries) = .ok ws →
    ChangesFit sb (differing d.blocks ws)

section Repair

variable {d : Disk} {sb : Superblock} {a : BlockAllocator}
  {inodes : List PersistedInode} {entries : List PersistedDirectoryEntry}
  {reattached : List NamespaceReattachment}

/-- The two tables of a disk have fewer than `2 ^ 32` records. -/
theorem AtRest.length_lt (h : AtRest d sb a inodes entries) :
    inodes.length < 2 ^ 32 ∧ entries.length < 2 ^ 32 := by
  obtain ⟨_, himage⟩ := h.inodeImage
  obtain ⟨_, _, _, _, hinodes, _⟩ := TableFormat.encodeImage_eq_ok.mp himage
  obtain ⟨_, himage'⟩ := h.directoryImage
  obtain ⟨_, _, _, _, hentries, _⟩ := TableFormat.encodeImage_eq_ok.mp himage'
  exact ⟨hinodes, hentries⟩

/-- The search for names ends on every disk. -/
theorem AtRest.exists_reattach (h : AtRest d sb a inodes entries) :
    ∃ reattached, reattach (rootNames entries)
      (componentRoots (unreachableInodes inodes entries) entries) =
        .ok reattached := by
  obtain ⟨hinodes, hentries⟩ := h.length_lt
  have hnames : (rootNames entries).length ≤ entries.length := by
    rw [rootNames, List.length_map]
    exact List.length_filter_le _ _
  have hroots : (componentRoots (unreachableInodes inodes entries)
      entries).length ≤ inodes.length := by
    have hunreachable : (unreachableInodes inodes entries).length ≤
        inodes.length := by
      rw [unreachableInodes, List.length_mergeSort, List.length_map]
      exact List.length_filter_le _ _
    exact (List.length_filter_le _ _).trans hunreachable
  apply FilesystemLab.exists_reattach
  simp only [U64_LIMIT]
  omega

/-- The enlarged table can be stored if it fits. -/
theorem AtRest.storable_reattached (h : AtRest d sb a inodes entries)
    (hreattached : Reattaches (rootNames entries)
      (componentRoots (unreachableInodes inodes entries) entries) reattached)
    (hfits : DirectoryFits sb
      (entries ++ reattached.map NamespaceReattachment.entry))
    (hchanges : DirectoryChangesFit sb d
      (entries ++ reattached.map NamespaceReattachment.entry)) :
    Storable sb d a inodes
      (entries ++ reattached.map NamespaceReattachment.entry) [] := by
  -- the identifiers come from the inode table, so none of them is zero
  have hids : ∀ r ∈ reattached, r.inodeId ≠ 0 := by
    intro r hr hzero
    have hmem : r.inodeId ∈
        componentRoots (unreachableInodes inodes entries) entries := by
      rw [← hreattached.ids]
      exact List.mem_map_of_mem hr
    obtain ⟨⟨inode, hinode, hid⟩, _⟩ :=
      mem_unreachableInodes.mp (mem_componentRoots.mp hmem).1
    exact h.id_ne_zero hinode (hid.trans hzero)
  have hvalid : ∀ entry ∈
      entries ++ reattached.map NamespaceReattachment.entry, entry.Valid := by
    intro entry hmem
    rcases List.mem_append.mp hmem with hmem | hmem
    · exact h.valid hmem
    · obtain ⟨r, hr, rfl⟩ := List.mem_map.mp hmem
      refine ⟨?_, hids r hr, hreattached.valid r hr⟩
      show ROOT_INODE_ID ≠ 0
      decide
  have hnodup : ((entries ++ reattached.map NamespaceReattachment.entry).map
      directoryFormat.key).Nodup := by
    rw [List.map_append, List.nodup_append]
    refine ⟨h.nodup_keys, ?_, ?_⟩
    · have hkeys : (reattached.map NamespaceReattachment.entry).map
          directoryFormat.key = (reattached.map NamespaceReattachment.name).map
            fun name => (ROOT_INODE_ID, name) := by
        rw [List.map_map, List.map_map]
        rfl
      rw [hkeys, List.nodup_map_iff fun _ _ heq => (Prod.mk.inj heq).2]
      exact hreattached.distinct
    · intro k hk l hl heq
      obtain ⟨entry, hentry, rfl⟩ := List.mem_map.mp hk
      obtain ⟨_, hnew, rfl⟩ := List.mem_map.mp hl
      obtain ⟨r, hr, rfl⟩ := List.mem_map.mp hnew
      obtain ⟨hparent, hname⟩ := Prod.mk.inj heq
      exact hreattached.fresh r hr
        (mem_rootNames.mpr ⟨entry, hentry, hparent, hname⟩)
  obtain ⟨_, himage⟩ := h.directoryImage
  obtain ⟨_, _, hlt, _⟩ := TableFormat.encodeImage_eq_ok.mp himage
  obtain ⟨image, himage⟩ :=
    exists_directoryImage hvalid hnodup hfits.1 hlt hfits.2
  obtain ⟨ws, hws⟩ : ∃ ws, renderedWrites (directoryImages sb
      (entries ++ reattached.map NamespaceReattachment.entry)) = .ok ws := by
    simp only [directoryImages, renderedWrites, directoryPair, himage,
      Except.ok_bind, Except.pure_eq_ok]
    exact ⟨_, rfl⟩
  obtain ⟨tables, htables, hsame⟩ := h.directoryTables hws
  refine ⟨tables, htables, ?_⟩
  rw [List.append_nil, hsame]
  exact hchanges _ hws

/-- The tolerant check of a disk at rest. -/
theorem AtRest.checkUnreachable_iff (h : AtRest d sb a inodes entries)
    {report : FsckReport} {unreachable : List UInt64} :
    checkDeviceAllowingUnreachableInodes d = .ok (report, unreachable) ↔
      Owned sb a inodes ∧
        (∀ inode ∈ inodes, validateSymlinkInode d inode = .ok ()) ∧
        Linked inodes entries ∧
        report = fsckReport sb a inodes entries [] ∧
        unreachable = unreachableInodes inodes entries := by
  rw [checkDeviceAllowingUnreachableInodes_iff]
  constructor
  · intro hfacts
    rcases hfacts with ⟨sb', a', inodes', entries', journal, hsb, ha, hinodes,
      howned, hpayloads, hentries, hlinked, hjournal, rfl, rfl⟩
    have hsame := hsb
    rw [h.superblock, Except.ok.injEq] at hsame
    subst hsame
    rw [h.journal, Except.ok.injEq] at hjournal
    subst hjournal
    obtain ⟨_, rfl, rfl, rfl⟩ := h.unique ⟨hsb, ha, hinodes, hentries,
      h.journal⟩
    exact ⟨howned, hpayloads, hlinked, rfl, rfl⟩
  · intro hfacts
    rcases hfacts with ⟨howned, hpayloads, hlinked, rfl, rfl⟩
    exact ⟨sb, a, inodes, entries, [], h.superblock, h.allocator,
      h.inodeTable, howned, hpayloads, h.directoryTable, hlinked, h.journal,
      rfl, rfl⟩

/-- The repair of a device with an empty journal, up to the tolerant check. -/
theorem repairUnreachable_eq (hsb : readSuperblock d = .ok sb)
    (hjournal : loadJournalImage d sb = .ok []) :
    repairUnreachableInodesJournaled sb d =
      match checkDeviceAllowingUnreachableInodes d with
      | .error e => (.error e, d)
      | .ok audit =>
        if audit.2 = [] then
          (.ok ⟨[], RecoveryReport.default, RecoveryReport.default⟩, d)
        else reattachUnreachable sb RecoveryReport.default audit.2 d := by
  have hsize : sb.totalBlocks = d.size := readSuperblock_size hsb
  have hvacant : journalOf sb d.blocks = .ok [] := by
    rw [← loadJournalImage_disk hsize]
    exact hjournal
  have hdurable : requireDurableSuperblock d sb = .ok () :=
    requireDurableSuperblock_eq_ok.mpr hsb
  rw [repairUnreachableInodesJournaled, Effect.query_bind, hdurable]
  simp only
  rw [Effect.bind_of_ok (recover_vacant hsize hvacant), Effect.query_bind]
  cases checkDeviceAllowingUnreachableInodes d with
  | error e => rfl
  | ok audit =>
    simp only
    split
    · rfl
    · rfl

/-- The choice of the new entries on a disk at rest. -/
theorem AtRest.reattachUnreachable_eq (h : AtRest d sb a inodes entries)
    {unreachable : List UInt64} (prior : RecoveryReport)
    (hroots : componentRoots unreachable entries ≠ [])
    (hreattach : reattach (rootNames entries)
      (componentRoots unreachable entries) = .ok reattached) :
    reattachUnreachable sb prior unreachable d =
      match auditNamespace inodes
        (entries ++ reattached.map NamespaceReattachment.entry) with
      | .error e => (.error e, d)
      | .ok _ => publishReattachment sb prior reattached
        (entries ++ reattached.map NamespaceReattachment.entry) d := by
  rw [reattachUnreachable, Effect.query_bind, h.inodeTable]
  simp only
  rw [Effect.query_bind, h.directoryTable]
  simp only
  rw [Effect.lift_bind, rejectIf_of_not hroots]
  simp only
  rw [Effect.lift_bind, hreattach]
  simp only
  rw [Effect.lift_bind]
  cases auditNamespace inodes
    (entries ++ reattached.map NamespaceReattachment.entry) with
  | error e => rfl
  | ok _ => rfl

/-- **The publication on a disk at rest.**  It is rejected without a trace, and
only if the table cannot be stored; otherwise the strict check at its end
passes. -/
theorem AtRest.publishReattachment (h : AtRest d sb a inodes entries)
    (howned : Owned sb a inodes)
    (hpayloads : ∀ inode ∈ inodes, validateSymlinkInode d inode = .ok ())
    (htree : Namespace inodes
      (entries ++ reattached.map NamespaceReattachment.entry))
    (hne : reattached ≠ []) (prior : RecoveryReport) :
    (∃ e, FilesystemLab.publishReattachment sb prior reattached
        (entries ++ reattached.map NamespaceReattachment.entry) d =
          (.error e, d) ∧
      ¬ Storable sb d a inodes
        (entries ++ reattached.map NamespaceReattachment.entry) []) ∨
    ∃ repair d', FilesystemLab.publishReattachment sb prior reattached
        (entries ++ reattached.map NamespaceReattachment.entry) d =
          (.ok repair, d') ∧
      repair.reattached = reattached ∧
      Became sb d d' a inodes
        (entries ++ reattached.map NamespaceReattachment.entry) [] ∧
      Mounted d' sb a inodes
        (entries ++ reattached.map NamespaceReattachment.entry) := by
  unfold FilesystemLab.publishReattachment
  rcases h.storeDirectoryTable
    (entries ++ reattached.map NamespaceReattachment.entry) with
    ⟨e, herr, hno⟩ | ⟨_, hsame⟩ | ⟨changed, d', hrun, hlogged, hbecame⟩
  · exact .inl ⟨e, Effect.bind_of_error herr, hno⟩
  · -- the enlarged table is not the one in place
    obtain ⟨_, _, _, heq⟩ := h.unique hsame.toAtRest
    rw [List.self_eq_append_right, List.map_eq_nil_iff] at heq
    exact absurd heq hne
  · right
    obtain ⟨final, hcheckpoint, happlied⟩ := hlogged.checkpoint h.size
    have hfinal := hbecame final happlied
    obtain ⟨htotal, hreserved⟩ := h.geometry
    have hmounted : Mounted final sb a inodes
        (entries ++ reattached.map NamespaceReattachment.entry) := by
      refine ⟨hfinal.toAtRest, howned, ?_, htree⟩
      intro inode hinode
      rw [hfinal.payload h.size]
      · exact hpayloads inode hinode
      · intro block hblock
        have hrange :=
          BlockAllocator.range_of_flag (howned.data inode hinode block hblock)
        exact ⟨by omega, by omega, by simp⟩
    refine ⟨⟨reattached, prior, ⟨1, changed.length⟩⟩, final, ?_, rfl, hfinal,
      hmounted⟩
    rw [Effect.bind_of_ok hrun, Effect.lift_bind, rejectIf_of_not (by simp)]
    simp only
    rw [Effect.bind_of_ok hcheckpoint, Effect.lift_bind,
      rejectIf_of_not (by simp)]
    simp only
    rw [Effect.query_bind, hmounted.check]
    rfl

/-- A repair that stops at its first check does nothing. -/
theorem repairUnreachable_other_superblock
    (hsb : readSuperblock d ≠ .ok sb) :
    ∃ e, repairUnreachableInodesJournaled sb d = (.error e, d) := by
  simp only [repairUnreachableInodesJournaled, Effect.query_bind]
  cases hdurable : requireDurableSuperblock d sb with
  | error e => exact ⟨e, rfl⟩
  | ok u => exact absurd (requireDurableSuperblock_eq_ok.mp hdurable) hsb

/-- An unreachable inode makes a component root. -/
theorem componentRoots_ne_nil (h : Linked inodes entries)
    (hne : unreachableInodes inodes entries ≠ []) :
    componentRoots (unreachableInodes inodes entries) entries ≠ [] := by
  obtain ⟨id, hid⟩ := List.exists_mem_of_ne_nil _ hne
  obtain ⟨root, hroot, _⟩ := exists_componentRoot h hid
  exact List.ne_nil_of_mem hroot

/-- What a device with an empty journal holds that passes the tolerant check. -/
theorem exists_unreachableAudit (hsb : readSuperblock d = .ok sb)
    (hjournal : loadJournalImage d sb = .ok []) {report : FsckReport}
    {unreachable : List UInt64}
    (hcheck : checkDeviceAllowingUnreachableInodes d =
      .ok (report, unreachable)) :
    ∃ a inodes entries, AtRest d sb a inodes entries ∧ Owned sb a inodes ∧
      (∀ inode ∈ inodes, validateSymlinkInode d inode = .ok ()) ∧
      Linked inodes entries ∧ unreachable = unreachableInodes inodes entries := by
  obtain ⟨sb', a, inodes, entries, _, hsb', ha, hinodes, howned, hpayloads,
    hentries, hlinked, _, _, rfl⟩ :=
    checkDeviceAllowingUnreachableInodes_iff.mp hcheck
  rw [hsb, Except.ok.injEq] at hsb'
  subst hsb'
  exact ⟨a, inodes, entries, ⟨hsb, ha, hinodes, hentries, hjournal⟩, howned,
    hpayloads, hlinked, rfl⟩

/-- **An error of the repair leaves the disk unchanged.** -/
theorem repairUnreachable_error (hsb : readSuperblock d = .ok sb)
    (hjournal : loadJournalImage d sb = .ok []) {e : IoError}
    (he : (repairUnreachableInodesJournaled sb d).1 = .error e) :
    (repairUnreachableInodesJournaled sb d).2 = d := by
  rw [repairUnreachable_eq hsb hjournal] at he ⊢
  cases hcheck : checkDeviceAllowingUnreachableInodes d with
  | error e' => rfl
  | ok audit =>
    rw [hcheck] at he
    simp only at he ⊢
    by_cases hnil : audit.2 = []
    · rw [if_pos hnil]
    · rw [if_neg hnil] at he ⊢
      obtain ⟨a, inodes, entries, hrest, howned, hpayloads, hlinked,
        hunreachable⟩ := exists_unreachableAudit hsb hjournal hcheck
      rw [hunreachable] at hnil he ⊢
      have hroots := componentRoots_ne_nil hlinked hnil
      obtain ⟨reattached, hreattach⟩ := hrest.exists_reattach
      rw [hrest.reattachUnreachable_eq _ hroots hreattach] at he ⊢
      cases haudit : auditNamespace inodes
        (entries ++ reattached.map NamespaceReattachment.entry) with
      | error e' => rfl
      | ok _ =>
        have hne : reattached ≠ [] := by
          intro heq
          subst heq
          exact hroots (reattach_eq_ok hreattach).ids.symm
        rw [haudit] at he
        simp only at he ⊢
        rcases hrest.publishReattachment howned hpayloads
          (auditNamespace_eq_ok.mp haudit) hne RecoveryReport.default with
          ⟨e', herr, _⟩ | ⟨_, _, hrun, _⟩
        · rw [herr]
        · rw [hrun] at he
          cases he

end Repair

/-- **The repair of the namespace is complete and minimal.**  On a device with
an empty journal that passes the tolerant check with the unreachable inodes
`unreachable`, the search for names ends.  The members without an unreachable
parent get one entry each in the root, under new and distinct names, and there
is at least one.  If no entry targets the root, the enlarged table fits its
region and its transaction fits the journal, the repair appends these entries,
changes nothing else, and the strict check passes.  With any superblock
argument, an error leaves the device unchanged. -/
theorem namespaceRepair_exact {d : Disk} {sb : Superblock}
    (hsb : readSuperblock d = .ok sb)
    (hjournal : loadJournalImage d sb = .ok []) :
    (∀ report unreachable,
      checkDeviceAllowingUnreachableInodes d = .ok (report, unreachable) →
      unreachable ≠ [] →
      ∃ a inodes entries reattached,
        loadAllocator d sb = .ok a ∧
        loadInodeTable d sb = .ok inodes ∧
        loadDirectoryTable d sb = .ok entries ∧
        reattach (rootNames entries) (componentRoots unreachable entries) =
          .ok reattached ∧
        reattached ≠ [] ∧
        (reattached.map NamespaceReattachment.inodeId).Nodup ∧
        (∀ id, id ∈ reattached.map NamespaceReattachment.inodeId ↔
          id ∈ unreachable ∧ ∀ entry ∈ entries, entry.target = id →
            entry.parent ∉ unreachable) ∧
        (reattached.map NamespaceReattachment.name).Nodup ∧
        (∀ r ∈ reattached, ∀ entry ∈ entries, entry.parent = ROOT_INODE_ID →
          entry.name ≠ r.name) ∧
        ((∀ entry ∈ entries, entry.target ≠ ROOT_INODE_ID) →
          DirectoryFits sb
            (entries ++ reattached.map NamespaceReattachment.entry) →
          DirectoryChangesFit sb d
            (entries ++ reattached.map NamespaceReattachment.entry) →
          ∃ repair d',
            repairUnreachableInodesJournaled sb d = (.ok repair, d') ∧
            repair.reattached = reattached ∧
            loadAllocator d' sb = .ok a ∧
            loadInodeTable d' sb = .ok inodes ∧
            loadDirectoryTable d' sb =
              .ok (entries ++ reattached.map NamespaceReattachment.entry) ∧
            (∀ b, sb.reservedBlocks ≤ b → d'.blocks b = d.blocks b) ∧
            ∃ fsck, checkDevice d' = .ok fsck)) ∧
    ∀ sb' e, (repairUnreachableInodesJournaled sb' d).1 = .error e →
      (repairUnreachableInodesJournaled sb' d).2 = d := by
  constructor
  · intro report unreachable hcheck hne
    obtain ⟨a, inodes, entries, hrest, howned, hpayloads, hlinked, rfl⟩ :=
      exists_unreachableAudit hsb hjournal hcheck
    obtain ⟨reattached, hreattach⟩ := hrest.exists_reattach
    have hreattaches := reattach_eq_ok hreattach
    have hroots := componentRoots_ne_nil hlinked hne
    have hsome : reattached ≠ [] := by
      intro heq
      subst heq
      exact hroots hreattaches.ids.symm
    have hnodup : (componentRoots (unreachableInodes inodes entries)
        entries).Nodup := by
      apply List.Nodup.filter
      exact (pairwise_unreachableInodes hrest.nodup_ids entries).imp
        fun hlt => UInt64.ne_of_lt hlt
    refine ⟨a, inodes, entries, reattached, hrest.allocator, hrest.inodeTable,
      hrest.directoryTable, hreattach, hsome, ?_, ?_, hreattaches.distinct, ?_, ?_⟩
    · rw [hreattaches.ids]
      exact hnodup
    · intro id
      rw [hreattaches.ids]
      exact mem_componentRoots
    · intro r hr entry hentry hparent hname
      exact hreattaches.fresh r hr
        (mem_rootNames.mpr ⟨entry, hentry, hparent, hname⟩)
    · intro hroot hfits hchanges
      have htree := hlinked.reattached hroot hne hreattaches.ids
      rw [repairUnreachable_eq hsb hjournal, hcheck]
      simp only
      rw [if_neg hne, hrest.reattachUnreachable_eq _ hroots hreattach,
        (@auditNamespace_eq_ok _ _ ()).mpr htree]
      rcases hrest.publishReattachment howned hpayloads htree hsome
        RecoveryReport.default with
        ⟨_, _, hno⟩ | ⟨repair, d', hrun, hreport, hbecame, hmounted⟩
      · exact absurd (hrest.storable_reattached hreattaches hfits hchanges) hno
      · exact ⟨repair, d', hrun, hreport, hmounted.allocator,
          hmounted.inodeTable, hmounted.directoryTable, hbecame.contents,
          ⟨_, hmounted.check⟩⟩
  · intro sb' e he
    by_cases hsame : readSuperblock d = .ok sb'
    case neg =>
      obtain ⟨e', herr⟩ := repairUnreachable_other_superblock hsame
      rw [herr]
    rw [hsb, Except.ok.injEq] at hsame
    subst hsame
    exact repairUnreachable_error hsb hjournal he

/-- A root directory and a file that no entry targets. -/
def strayInodes : List PersistedInode :=
  [⟨1, .directory, [], 0⟩, ⟨2, .file, [], 0⟩]

/-- The sample disk with a stray file. -/
def strayDisk : Disk :=
  formatted sampleSuperblock sampleAllocator strayInodes [] fun _ => Block.zero

theorem atRest_strayDisk :
    AtRest strayDisk sampleSuperblock sampleAllocator strayInodes [] := by
  obtain ⟨inodeImage, hinodeImage⟩ :
      ∃ image, inodeFormat.encodeImage 1 strayInodes = .ok image :=
    exists_inodeImage (by decide) (by decide) (by decide) (by decide)
      (by decide)
  obtain ⟨directoryImage, hdirectoryImage⟩ :
      ∃ image, directoryFormat.encodeImage 1 [] = .ok image :=
    exists_directoryImage (by simp) (by simp) (by decide) (by decide)
      (by decide)
  exact atRest_formatted _ rfl rfl hinodeImage (by decide) hdirectoryImage

theorem checkUnreachable_strayDisk :
    checkDeviceAllowingUnreachableInodes strayDisk =
      .ok (fsckReport sampleSuperblock sampleAllocator strayInodes [] [],
        [2]) := by
  have hlinked : Linked strayInodes [] := by
    refine ⟨by simp, by simp, by decide, ?_⟩
    intro x hcycle
    obtain ⟨_, ⟨entry, hmem, _⟩, _⟩ := TransGen.head'_iff.mp hcycle
    simp at hmem
  have howned : Owned sampleSuperblock sampleAllocator strayInodes := by
    refine ⟨by simp [strayInodes], by simp [strayInodes], ?_⟩
    intro block hflag
    have hrange := BlockAllocator.range_of_flag hflag
    have hnone : ∀ b < 16, sampleAllocator.flag b = false := by decide
    rw [hnone block hrange.2] at hflag
    cases hflag
  refine atRest_strayDisk.checkUnreachable_iff.mpr
    ⟨howned, ?_, hlinked, rfl, ?_⟩
  · rw [strayInodes, List.forall_mem_cons, List.forall_mem_singleton]
    exact ⟨rfl, rfl⟩
  · simp [unreachableInodes, strayInodes, edgesOf, reach, succ, ROOT_INODE_ID]

theorem namespaceRepair_exact_strayDisk :
    ∃ repair d', repairUnreachableInodesJournaled sampleSuperblock strayDisk =
        (.ok repair, d') ∧
      repair.reattached = [⟨2, ".fsck-orphan-2"⟩] ∧
      ∃ fsck, checkDevice d' = .ok fsck := by
  obtain ⟨a, inodes, entries, reattached, _, _, hentries, hreattach, _, _, _,
    _, _, hrepair⟩ := (namespaceRepair_exact atRest_strayDisk.superblock
      atRest_strayDisk.journal).1 _ _ checkUnreachable_strayDisk (by decide)
  rw [atRest_strayDisk.directoryTable, Except.ok.injEq] at hentries
  subst hentries
  have hnames : reattach (rootNames []) (componentRoots [2] []) =
      .ok [⟨2, ".fsck-orphan-2"⟩] := by
    rw [componentRoots, rootNames, List.filter_nil, List.map_nil,
      List.filter_cons_of_pos (by simp), List.filter_nil, reattach, searchName,
      if_neg (by simp)]
    rfl
  rw [hnames, Except.ok.injEq] at hreattach
  subst hreattach
  obtain ⟨repair, d', hrun, hreport, _, _, _, _, hfsck⟩ := hrepair (by simp)
    ⟨by decide, by decide⟩ (by
      intro ws hws
      refine ⟨by decide, ?_⟩
      have hlen : (differing strayDisk.blocks ws).length ≤ ws.length :=
        List.length_filter_le _ _
      have hone : ws.length = 1 := length_renderedWrites hws
      have hblocks : sampleSuperblock.journalBlocks = 3 := rfl
      rw [hblocks, blockSize_eq]
      omega)
  exact ⟨repair, d', hrun, hreport, hfsck⟩

end FilesystemLab
