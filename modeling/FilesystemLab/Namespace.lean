import FilesystemLab.DirectoryTable
import FilesystemLab.Lib.Digraph

/-!
# The namespace audit

`scan_namespace` and `audit_directory_cycle` of `src/fsck.rs`.  The audit runs
over the graph whose edges are the directory entries: it checks the endpoints
of every entry, looks for a cycle of directories with a three-colour search, and
collects what the root reaches.

`Namespace` says what an audited namespace is, in terms of paths, and
`auditNamespace_eq_ok` that the audit accepts exactly these.
-/

namespace FilesystemLab

open Relation Digraph

def ROOT_INODE_ID : UInt64 := 1

/-- `inode_kinds.get(&id)`, in a map collected from the inode list. -/
def kindOf (inodes : List PersistedInode) (id : UInt64) : Option InodeKind :=
  (inodes.reverse.find? fun inode => inode.id = id).map PersistedInode.kind

/-- The edges of the `adjacency` map. -/
def edgesOf (entries : List PersistedDirectoryEntry) :
    List (UInt64 × UInt64) :=
  entries.map fun entry => (entry.parent, entry.target)

/-- The checks of `scan_namespace` on one entry. -/
def auditEntry (inodes : List PersistedInode)
    (entry : PersistedDirectoryEntry) : Result Unit := do
  let parentKind ← okOr (kindOf inodes entry.parent) (invalidData
    ("directory entry '" ++ entry.name ++ "' references missing parent inode " ++
      toString entry.parent))
  rejectIf (parentKind ≠ .directory) (invalidData
    ("directory entry '" ++ entry.name ++ "' parent inode " ++
      toString entry.parent ++ " is not a directory"))
  rejectIf (kindOf inodes entry.target = none) (invalidData
    ("directory entry '" ++ entry.name ++ "' references missing target inode " ++
      toString entry.target))

/-- The loop of `scan_namespace` over the entries. -/
def auditEntries (inodes : List PersistedInode) :
    List PersistedDirectoryEntry → Result Unit
  | [] => pure ()
  | entry :: entries => do
    auditEntry inodes entry
    auditEntries inodes entries

/-- The targets that `audit_directory_cycle` descends into. -/
def directoryTargets (inodes : List PersistedInode)
    (entries : List PersistedDirectoryEntry) (x : UInt64) : List UInt64 :=
  (succ (edgesOf entries) x).filter fun y => kindOf inodes y = some .directory

/-- The loop of `scan_namespace` over `audit_directory_cycle`.  A visit colours
another inode of the table, so the depth is at most their number. -/
def auditDirectoryCycles (inodes : List PersistedInode)
    (entries : List PersistedDirectoryEntry) : Result Unit :=
  match visitAll (directoryTargets inodes entries) (inodes.length + 1)
      ((inodes.filter fun inode => inode.kind = .directory).map
        PersistedInode.id) (fun _ => .white) with
  | .ok _ => pure ()
  | .error x => .error (invalidData
      ("directory cycle includes inode " ++ toString x))

/-- `scan_namespace`: the inodes that the root does not reach. -/
def scanNamespace (inodes : List PersistedInode)
    (entries : List PersistedDirectoryEntry) : Result (List UInt64) := do
  auditEntries inodes entries
  if inodes = [] then pure []
  else
    let rootKind ← okOr (kindOf inodes ROOT_INODE_ID)
      (invalidData "non-empty inode table is missing root inode 1")
    rejectIf (rootKind ≠ .directory)
      (invalidData "root inode 1 is not a directory")
    auditDirectoryCycles inodes entries
    let reachable := reach (edgesOf entries) [ROOT_INODE_ID] []
    pure (((inodes.filter fun inode => inode.id ∉ reachable).map
      PersistedInode.id).mergeSort)

/-- `audit_namespace`, which `validate_namespace_snapshot` calls. -/
def auditNamespace (inodes : List PersistedInode)
    (entries : List PersistedDirectoryEntry) : Result Unit := do
  match ← scanNamespace inodes entries with
  | [] => pure ()
  | unreachable :: _ => .error (invalidData ("inode " ++ toString unreachable ++
      " is unreachable from root inode " ++ toString ROOT_INODE_ID))

/-! ## What the audit accepts -/

/-- An edge from a directory to an entry's target. -/
def Links (entries : List PersistedDirectoryEntry) (x y : UInt64) : Prop :=
  ∃ entry ∈ entries, entry.parent = x ∧ entry.target = y

theorem edge_edgesOf {entries : List PersistedDirectoryEntry} {x y : UInt64} :
    Edge (edgesOf entries) x y ↔ Links entries x y := by
  simp [Edge, edgesOf, Links]

theorem edge_eq_links (entries : List PersistedDirectoryEntry) :
    Edge (edgesOf entries) = Links entries := by
  funext x y
  exact propext edge_edgesOf

/-- A consistent namespace: entries lead from directories to inodes, the root is
a directory, no directory contains itself, and the root reaches everything. -/
structure Namespace (inodes : List PersistedInode)
    (entries : List PersistedDirectoryEntry) : Prop where
  parent : ∀ entry ∈ entries, kindOf inodes entry.parent = some .directory
  target : ∀ entry ∈ entries, kindOf inodes entry.target ≠ none
  root : inodes ≠ [] → kindOf inodes ROOT_INODE_ID = some .directory
  acyclic : ∀ x, ¬ TransGen (Links entries) x x
  reachable : ∀ inode ∈ inodes,
    ReflTransGen (Links entries) ROOT_INODE_ID inode.id

/-- The empty namespace is consistent. -/
theorem namespace_nil : Namespace [] [] := by
  refine ⟨by simp, by simp, by simp, ?_, by simp⟩
  intro x hcycle
  obtain ⟨_, ⟨entry, hmem, _⟩, _⟩ := TransGen.head'_iff.mp hcycle
  exact absurd hmem List.not_mem_nil

theorem exists_of_kindOf {inodes : List PersistedInode} {id : UInt64}
    {kind : InodeKind} (h : kindOf inodes id = some kind) :
    ∃ inode ∈ inodes, inode.id = id ∧ inode.kind = kind := by
  unfold kindOf at h
  rw [Option.map_eq_some_iff] at h
  obtain ⟨inode, hfind, hkind⟩ := h
  refine ⟨inode, ?_, ?_, hkind⟩
  · exact List.mem_reverse.mp (List.mem_of_find?_eq_some hfind)
  · simpa using List.find?_some hfind

/-- In a table with distinct identifiers the map finds every inode. -/
theorem kindOf_of_mem {inodes : List PersistedInode}
    (hnodup : (inodes.map PersistedInode.id).Nodup) {inode : PersistedInode}
    (h : inode ∈ inodes) : kindOf inodes inode.id = some inode.kind := by
  unfold kindOf
  cases hfind : inodes.reverse.find? fun other => other.id = inode.id with
  | none =>
    have := List.find?_eq_none.mp hfind inode (List.mem_reverse.mpr h)
    simp at this
  | some other =>
    have hmem := List.mem_reverse.mp (List.mem_of_find?_eq_some hfind)
    have hid : other.id = inode.id := by simpa using List.find?_some hfind
    rw [List.inj_on_of_nodup_map hnodup hmem h hid]
    rfl

theorem kindOf_eq_some {inodes : List PersistedInode}
    (hnodup : (inodes.map PersistedInode.id).Nodup) {id : UInt64}
    {kind : InodeKind} :
    kindOf inodes id = some kind ↔
      ∃ inode ∈ inodes, inode.id = id ∧ inode.kind = kind := by
  constructor
  · exact exists_of_kindOf
  · intro hfacts
    rcases hfacts with ⟨inode, hmem, rfl, rfl⟩
    exact kindOf_of_mem hnodup hmem

theorem kindOf_ne_none {inodes : List PersistedInode} {id : UInt64} :
    kindOf inodes id ≠ none ↔ ∃ inode ∈ inodes, inode.id = id := by
  constructor
  · intro h
    obtain ⟨kind, hkind⟩ := Option.ne_none_iff_exists'.mp h
    obtain ⟨inode, hmem, hid, _⟩ := exists_of_kindOf hkind
    exact ⟨inode, hmem, hid⟩
  · rintro ⟨inode, hmem, rfl⟩ hnone
    unfold kindOf at hnone
    rw [Option.map_eq_none_iff] at hnone
    have := List.find?_eq_none.mp hnone inode (List.mem_reverse.mpr hmem)
    simp at this

theorem auditEntry_eq_ok {inodes : List PersistedInode}
    {entry : PersistedDirectoryEntry} {u : Unit} :
    auditEntry inodes entry = .ok u ↔
      kindOf inodes entry.parent = some .directory ∧
        kindOf inodes entry.target ≠ none := by
  simp only [auditEntry, Except.bind_eq_ok, okOr_eq_ok, rejectIf_eq_ok,
    not_ne_iff]
  constructor
  · intro hfacts
    rcases hfacts with ⟨kind, hparent, _, rfl, htarget⟩
    exact ⟨hparent, htarget⟩
  · intro hfacts
    rcases hfacts with ⟨hparent, htarget⟩
    exact ⟨_, hparent, (), rfl, htarget⟩

theorem auditEntries_eq_ok {inodes : List PersistedInode}
    {entries : List PersistedDirectoryEntry} {u : Unit} :
    auditEntries inodes entries = .ok u ↔
      ∀ entry ∈ entries, kindOf inodes entry.parent = some .directory ∧
        kindOf inodes entry.target ≠ none := by
  induction entries with
  | nil => simp [auditEntries]
  | cons entry entries ih =>
    simp only [auditEntries, Except.bind_eq_ok, auditEntry_eq_ok, ih,
      List.forall_mem_cons]
    constructor
    · intro hfacts
      rcases hfacts with ⟨_, h1, h2⟩
      exact ⟨h1, h2⟩
    · intro hfacts
      rcases hfacts with ⟨h1, h2⟩
      exact ⟨(), h1, h2⟩

/-- A path between directories runs through directories. -/
theorem transGen_directoryTargets {inodes : List PersistedInode}
    {entries : List PersistedDirectoryEntry}
    (hparent : ∀ entry ∈ entries,
      kindOf inodes entry.parent = some .directory) {x y : UInt64}
    (hy : kindOf inodes y = some .directory)
    (h : TransGen (Links entries) x y) :
    TransGen (fun a b => b ∈ directoryTargets inodes entries a) x y := by
  have hstep : ∀ {a b}, Links entries a b →
      kindOf inodes b = some .directory →
      b ∈ directoryTargets inodes entries a := by
    intro a b hab hb
    unfold directoryTargets
    rw [List.mem_filter, mem_succ, edge_edgesOf]
    exact ⟨hab, by simpa using hb⟩
  induction h with
  | single hxy => exact .single (hstep hxy hy)
  | tail _ hbc ih =>
    obtain ⟨entry, hmem, rfl, _⟩ := hbc
    exact (ih (hparent entry hmem)).tail
      (hstep ⟨entry, hmem, rfl, by assumption⟩ hy)

/-- The search finds a cycle if there is one. -/
theorem auditDirectoryCycles_eq_ok {inodes : List PersistedInode}
    {entries : List PersistedDirectoryEntry}
    (hparent : ∀ entry ∈ entries,
      kindOf inodes entry.parent = some .directory) {u : Unit} :
    auditDirectoryCycles inodes entries = .ok u ↔
      ∀ x, ¬ TransGen (Links entries) x x := by
  have htargets : ∀ x, ∀ y ∈ directoryTargets inodes entries x,
      y ∈ inodes.map PersistedInode.id := by
    intro x y hy
    have hkind := (List.mem_filter.mp hy).2
    obtain ⟨inode, hmem, rfl, _⟩ := exists_of_kindOf (by simpa using hkind)
    exact List.mem_map.mpr ⟨inode, hmem, rfl⟩
  have hroots : ∀ r ∈ (inodes.filter fun inode =>
      inode.kind = .directory).map PersistedInode.id,
      r ∈ inodes.map PersistedInode.id := by
    intro r hr
    obtain ⟨inode, hmem, rfl⟩ := List.mem_map.mp hr
    exact List.mem_map.mpr ⟨inode, (List.mem_filter.mp hmem).1, rfl⟩
  have hsearch := visitAll_eq_ok_iff (fun x _ => htargets x) hroots
    (inodes.length + 1) (by simp)
  have hresult : auditDirectoryCycles inodes entries = .ok u ↔
      ∃ after, visitAll (directoryTargets inodes entries) (inodes.length + 1)
        ((inodes.filter fun inode => inode.kind = .directory).map
          PersistedInode.id) (fun _ => .white) = .ok after := by
    unfold auditDirectoryCycles
    split
    · rename_i after hafter
      exact ⟨fun _ => ⟨after, hafter⟩, fun _ => rfl⟩
    · rename_i x hx
      constructor
      · intro h
        cases h
      · intro hfacts
        rcases hfacts with ⟨after, hafter⟩
        rw [hx] at hafter
        cases hafter
  rw [hresult, hsearch]
  constructor
  · intro hacc x hcycle
    obtain ⟨_, ⟨entry, hmem, rfl, _⟩, _⟩ := TransGen.head'_iff.mp hcycle
    have hdir := hparent entry hmem
    have hroot : entry.parent ∈ (inodes.filter fun inode =>
        inode.kind = .directory).map PersistedInode.id := by
      obtain ⟨inode, hinode, hid, hkind⟩ := exists_of_kindOf hdir
      exact List.mem_map.mpr ⟨inode, by simp [hinode, hkind], hid⟩
    exact not_transGen_of_acc (hacc _ hroot)
      (transGen_directoryTargets hparent hdir hcycle)
  · intro hacyclic r _
    apply acc_of_acyclic htargets
    intro x hcycle
    apply hacyclic x
    refine TransGen.mono ?_ _ _ hcycle
    intro a b hb
    exact edge_edgesOf.mp (mem_succ.mp (List.mem_filter.mp hb).1)

/-- A namespace that is consistent but for reachability. -/
structure Linked (inodes : List PersistedInode)
    (entries : List PersistedDirectoryEntry) : Prop where
  parent : ∀ entry ∈ entries, kindOf inodes entry.parent = some .directory
  target : ∀ entry ∈ entries, kindOf inodes entry.target ≠ none
  root : inodes ≠ [] → kindOf inodes ROOT_INODE_ID = some .directory
  acyclic : ∀ x, ¬ TransGen (Links entries) x x

theorem namespace_iff {inodes : List PersistedInode}
    {entries : List PersistedDirectoryEntry} :
    Namespace inodes entries ↔ Linked inodes entries ∧ ∀ inode ∈ inodes,
      ReflTransGen (Links entries) ROOT_INODE_ID inode.id := by
  constructor
  · intro h
    exact ⟨⟨h.parent, h.target, h.root, h.acyclic⟩, h.reachable⟩
  · intro hfacts
    rcases hfacts with ⟨h, hreach⟩
    exact ⟨h.parent, h.target, h.root, h.acyclic, hreach⟩

/-- The inodes that the root does not reach, sorted. -/
def unreachableInodes (inodes : List PersistedInode)
    (entries : List PersistedDirectoryEntry) : List UInt64 :=
  ((inodes.filter fun inode => inode.id ∉
    reach (edgesOf entries) [ROOT_INODE_ID] []).map PersistedInode.id).mergeSort

theorem mem_unreachableInodes {inodes : List PersistedInode}
    {entries : List PersistedDirectoryEntry} {id : UInt64} :
    id ∈ unreachableInodes inodes entries ↔
      (∃ inode ∈ inodes, inode.id = id) ∧
        ¬ ReflTransGen (Links entries) ROOT_INODE_ID id := by
  have hreach : ∀ id, id ∈ reach (edgesOf entries) [ROOT_INODE_ID] [] ↔
      ReflTransGen (Links entries) ROOT_INODE_ID id := by
    intro id
    rw [mem_reach_iff, edge_eq_links]
  unfold unreachableInodes
  rw [List.mem_mergeSort, List.mem_map]
  simp only [List.mem_filter, decide_eq_true_eq, hreach]
  constructor
  · intro hfacts
    rcases hfacts with ⟨inode, ⟨hmem, hno⟩, rfl⟩
    exact ⟨⟨inode, hmem, rfl⟩, hno⟩
  · intro hfacts
    rcases hfacts with ⟨⟨inode, hmem, rfl⟩, hno⟩
    exact ⟨inode, ⟨hmem, hno⟩, rfl⟩

/-- In a table with distinct identifiers the list is strictly ascending. -/
theorem pairwise_unreachableInodes {inodes : List PersistedInode}
    (hnodup : (inodes.map PersistedInode.id).Nodup)
    (entries : List PersistedDirectoryEntry) :
    (unreachableInodes inodes entries).Pairwise (· < ·) := by
  have hsorted : (unreachableInodes inodes entries).Pairwise (· ≤ ·) :=
    List.pairwise_mergeSort' (· ≤ ·) _
  have hdistinct : (unreachableInodes inodes entries).Nodup := by
    unfold unreachableInodes
    rw [List.nodup_mergeSort]
    exact (List.filter_sublist.map PersistedInode.id).nodup hnodup
  refine (hsorted.and hdistinct).imp ?_
  intro a b hfacts
  rcases hfacts with ⟨hle, hne⟩
  exact UInt64.lt_of_le_of_ne hle hne

/-- What the scan accepts, and what it returns. -/
theorem scanNamespace_eq_ok {inodes : List PersistedInode}
    {entries : List PersistedDirectoryEntry} {ids : List UInt64} :
    scanNamespace inodes entries = .ok ids ↔
      Linked inodes entries ∧ ids = unreachableInodes inodes entries := by
  simp only [scanNamespace, Except.bind_eq_ok, auditEntries_eq_ok]
  constructor
  · intro hfacts
    rcases hfacts with ⟨_, hentries, h⟩
    have hparent : ∀ entry ∈ entries,
        kindOf inodes entry.parent = some .directory :=
      fun entry hmem => (hentries entry hmem).1
    split at h
    · -- without inodes there are no entries either
      rename_i hnil
      subst hnil
      cases h
      have hnone : entries = [] := by
        cases entries with
        | nil => rfl
        | cons entry entries =>
          have := hparent entry List.mem_cons_self
          simp [kindOf] at this
      subst hnone
      refine ⟨⟨by simp, by simp, by simp, ?_⟩, by simp [unreachableInodes]⟩
      intro x hcycle
      obtain ⟨_, ⟨entry, hmem, _⟩, _⟩ := TransGen.head'_iff.mp hcycle
      simp at hmem
    · simp only [Except.bind_eq_ok, okOr_eq_ok, rejectIf_eq_ok, not_ne_iff,
        auditDirectoryCycles_eq_ok hparent, Except.pure_eq_ok,
        Except.ok.injEq] at h
      obtain ⟨kind, hroot, _, rfl, _, hacyclic, rfl⟩ := h
      exact ⟨⟨hparent, fun entry hmem => (hentries entry hmem).2,
        fun _ => hroot, hacyclic⟩, rfl⟩
  · intro hfacts
    rcases hfacts with ⟨h, rfl⟩
    refine ⟨(), fun entry hmem => ⟨h.parent entry hmem, h.target entry hmem⟩,
      ?_⟩
    split
    · rename_i hnil
      subst hnil
      simp [unreachableInodes]
    · rename_i hne
      simp only [Except.bind_eq_ok, okOr_eq_ok, rejectIf_eq_ok, not_ne_iff,
        auditDirectoryCycles_eq_ok h.parent, Except.pure_eq_ok]
      exact ⟨_, h.root hne, (), rfl, (), h.acyclic, rfl⟩

theorem unreachableInodes_eq_nil {inodes : List PersistedInode}
    {entries : List PersistedDirectoryEntry} :
    unreachableInodes inodes entries = [] ↔ ∀ inode ∈ inodes,
      ReflTransGen (Links entries) ROOT_INODE_ID inode.id := by
  rw [List.eq_nil_iff_forall_not_mem]
  simp only [mem_unreachableInodes, not_and, not_not]
  constructor
  · intro h inode hmem
    exact h inode.id ⟨inode, hmem, rfl⟩
  · intro h _ hfacts
    rcases hfacts with ⟨inode, hmem, rfl⟩
    exact h inode hmem

/-- The audit accepts what the scan returns no inode for. -/
theorem auditNamespace_iff_scan {inodes : List PersistedInode}
    {entries : List PersistedDirectoryEntry} {u : Unit} :
    auditNamespace inodes entries = .ok u ↔
      scanNamespace inodes entries = .ok [] := by
  unfold auditNamespace
  cases scanNamespace inodes entries with
  | error e => simp
  | ok ids =>
    cases ids with
    | nil => simp
    | cons id ids => simp

/-- **The namespace audit is exact.** -/
theorem auditNamespace_eq_ok {inodes : List PersistedInode}
    {entries : List PersistedDirectoryEntry} {u : Unit} :
    auditNamespace inodes entries = .ok u ↔ Namespace inodes entries := by
  rw [auditNamespace_iff_scan, scanNamespace_eq_ok, namespace_iff,
    ← unreachableInodes_eq_nil]
  exact and_congr_right fun _ => eq_comm

/-! ## The audit in terms of the two lists -/

/-- The table has a directory with this identifier. -/
def IsDirectory (inodes : List PersistedInode) (id : UInt64) : Prop :=
  ∃ inode ∈ inodes, inode.id = id ∧ inode.kind = .directory

/-- An entry that leads from a directory to a directory. -/
def DirectoryLinks (inodes : List PersistedInode)
    (entries : List PersistedDirectoryEntry) (x y : UInt64) : Prop :=
  Links entries x y ∧ IsDirectory inodes x ∧ IsDirectory inodes y

/-- The endpoints of every entry are in the table, its parent as a
directory. -/
def EndpointsExist (inodes : List PersistedInode)
    (entries : List PersistedDirectoryEntry) : Prop :=
  ∀ entry ∈ entries, IsDirectory inodes entry.parent ∧
    ∃ inode ∈ inodes, inode.id = entry.target

/-- The root is a directory, and the directories, connected to the root or not,
have no cycle. -/
def RootedAcyclic (inodes : List PersistedInode)
    (entries : List PersistedDirectoryEntry) : Prop :=
  IsDirectory inodes ROOT_INODE_ID ∧
    ∀ x, ¬ TransGen (DirectoryLinks inodes entries) x x

/-- Where parents are directories, a cycle is one of directories. -/
theorem transGen_directoryLinks {inodes : List PersistedInode}
    {entries : List PersistedDirectoryEntry}
    (hparent : ∀ entry ∈ entries, IsDirectory inodes entry.parent)
    {x y : UInt64} (hy : IsDirectory inodes y)
    (h : TransGen (Links entries) x y) :
    TransGen (DirectoryLinks inodes entries) x y := by
  have hsource : ∀ {a b}, Links entries a b → IsDirectory inodes a := by
    intro a b hfacts
    rcases hfacts with ⟨entry, hmem, rfl, _⟩
    exact hparent entry hmem
  induction h with
  | single hxy => exact .single ⟨hxy, hsource hxy, hy⟩
  | tail _ hbc ih =>
    exact (ih (hsource hbc)).tail ⟨hbc, hsource hbc, hy⟩

/-- What the scan accepts, in terms of the two lists. -/
theorem linked_iff {inodes : List PersistedInode}
    {entries : List PersistedDirectoryEntry}
    (hnodup : (inodes.map PersistedInode.id).Nodup) :
    Linked inodes entries ↔ EndpointsExist inodes entries ∧
      (inodes = [] ∨ RootedAcyclic inodes entries) := by
  have hdir : ∀ id, kindOf inodes id = some .directory ↔
      IsDirectory inodes id := fun id => kindOf_eq_some hnodup
  constructor
  · intro h
    have hparent : ∀ entry ∈ entries, IsDirectory inodes entry.parent :=
      fun entry hmem => (hdir _).mp (h.parent entry hmem)
    refine ⟨fun entry hmem => ⟨hparent entry hmem,
      kindOf_ne_none.mp (h.target entry hmem)⟩, ?_⟩
    by_cases hnil : inodes = []
    · exact .inl hnil
    · refine .inr ⟨(hdir _).mp (h.root hnil), ?_⟩
      intro x hcycle
      exact h.acyclic x (TransGen.mono (fun _ _ hab => hab.1) _ _ hcycle)
  · intro hfacts
    rcases hfacts with ⟨hends, hrooted⟩
    have hparent : ∀ entry ∈ entries, IsDirectory inodes entry.parent :=
      fun entry hmem => (hends entry hmem).1
    refine ⟨fun entry hmem => (hdir _).mpr (hparent entry hmem),
      fun entry hmem => kindOf_ne_none.mpr (hends entry hmem).2, ?_, ?_⟩
    · intro hne
      rcases hrooted with hnil | hrooted
      · exact absurd hnil hne
      · exact (hdir _).mpr hrooted.1
    · intro x hcycle
      obtain ⟨_, ⟨entry, hmem, rfl, _⟩, _⟩ := TransGen.head'_iff.mp hcycle
      rcases hrooted with rfl | hrooted
      · obtain ⟨inode, hinode, _⟩ := hparent entry hmem
        simp at hinode
      · exact hrooted.2 _
          (transGen_directoryLinks hparent (hparent entry hmem) hcycle)

/-- **The namespace audit decides its specification.**  The scan returns the
strictly ascending list of exactly the inodes that the root does not reach,
whenever everything but reachability holds. -/
theorem namespaceAudit_decides {inodes : List PersistedInode}
    (hnodup : (inodes.map PersistedInode.id).Nodup)
    (entries : List PersistedDirectoryEntry) :
    (auditNamespace inodes entries = .ok () ↔
      EndpointsExist inodes entries ∧ (inodes = [] ∨
        RootedAcyclic inodes entries ∧ ∀ inode ∈ inodes,
          ReflTransGen (Links entries) ROOT_INODE_ID inode.id)) ∧
    (EndpointsExist inodes entries ∧
        (inodes = [] ∨ RootedAcyclic inodes entries) →
      ∃ ids, scanNamespace inodes entries = .ok ids ∧
        ids.Pairwise (· < ·) ∧ ∀ id, id ∈ ids ↔
          (∃ inode ∈ inodes, inode.id = id) ∧
            ¬ ReflTransGen (Links entries) ROOT_INODE_ID id) := by
  refine ⟨?_, ?_⟩
  · rw [auditNamespace_eq_ok, namespace_iff, linked_iff hnodup]
    constructor
    · intro hfacts
      rcases hfacts with ⟨⟨hends, hrooted⟩, hreach⟩
      exact ⟨hends, hrooted.imp id fun hrooted => ⟨hrooted, hreach⟩⟩
    · intro hfacts
      rcases hfacts with ⟨hends, hrooted⟩
      refine ⟨⟨hends, hrooted.imp id And.left⟩, ?_⟩
      intro inode hmem
      rcases hrooted with rfl | ⟨_, hreach⟩
      · simp at hmem
      · exact hreach inode hmem
  · intro h
    exact ⟨_, scanNamespace_eq_ok.mpr ⟨(linked_iff hnodup).mpr h, rfl⟩,
      pairwise_unreachableInodes hnodup entries,
      fun id => mem_unreachableInodes⟩

/-- A root directory, a directory and a file. -/
def strandedInodes : List PersistedInode :=
  [⟨1, .directory, [], 0⟩, ⟨2, .directory, [], 0⟩, ⟨3, .file, [], 0⟩]

/-- The only entry of the root names the directory. -/
theorem links_stranded {x y : UInt64} :
    Links [⟨1, 2, "d"⟩] x y ↔ x = 1 ∧ y = 2 := by
  simp [Links, eq_comm]

theorem rootedAcyclic_stranded :
    RootedAcyclic strandedInodes [⟨1, 2, "d"⟩] := by
  refine ⟨⟨⟨1, .directory, [], 0⟩, by decide, rfl, rfl⟩, ?_⟩
  intro x hcycle
  have hlinks : TransGen (Links [⟨1, 2, "d"⟩]) x x :=
    hcycle.lift id fun _ _ hlink => hlink.1
  obtain ⟨y, hfirst, hrest⟩ := TransGen.head'_iff.mp hlinks
  obtain ⟨rfl, rfl⟩ := links_stranded.mp hfirst
  rcases hrest.cases_head with heq | ⟨_, hsecond, _⟩
  · exact absurd heq (by decide)
  · exact absurd (links_stranded.mp hsecond).1 (by decide)

/-- The scan finds the file that no entry names, and not the directory. -/
theorem namespaceAudit_decides_sample :
    ∃ ids, scanNamespace strandedInodes [⟨1, 2, "d"⟩] = .ok ids ∧
      3 ∈ ids ∧ 2 ∉ ids := by
  have hends : EndpointsExist strandedInodes [⟨1, 2, "d"⟩] := by
    intro entry hentry
    rw [List.mem_singleton] at hentry
    subst hentry
    exact ⟨⟨⟨1, .directory, [], 0⟩, by decide, rfl, rfl⟩,
      ⟨2, .directory, [], 0⟩, by decide, rfl⟩
  obtain ⟨ids, hids, _, hmem⟩ := (@namespaceAudit_decides strandedInodes
    (by decide) [⟨1, 2, "d"⟩]).2 ⟨hends, .inr rootedAcyclic_stranded⟩
  refine ⟨ids, hids, (hmem 3).mpr ⟨⟨⟨3, .file, [], 0⟩, by decide, rfl⟩, ?_⟩, ?_⟩
  · intro hpath
    rcases hpath.cases_tail with heq | ⟨_, _, hlink⟩
    · exact absurd heq (by decide)
    · exact absurd (links_stranded.mp hlink).2 (by decide)
  · intro hlisted
    exact ((hmem 2).mp hlisted).2 (.single (links_stranded.mpr ⟨rfl, rfl⟩))

end FilesystemLab
