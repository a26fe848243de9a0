import FilesystemLab.InodeOwnership

/-!
# Directories in memory

`DirectoryTable` of `src/directory.rs`: for each parent its entries, by name,
beside the inode table that says which identifiers exist.  Nothing ties the two
tables together: an inode can be removed while an entry names it.

* `DirectoryTable.Sound`: what the calls keep whatever the caller does.
* `directory_runs`: after any calls on new tables a lookup finds what the last
  call for its name has left, and `validate` accepts exactly when all parents and
  targets still exist.
* `directory_runs_spared`: if the callers remove no inode that is in use, it
  accepts after every run.
-/

namespace FilesystemLab

open OrderedMap

/-! ## The table of the source -/

/-- `DirectoryError`. -/
inductive DirectoryError where
  | parentNotFound (parent : Nat)
  | parentNotDirectory (parent : Nat)
  | targetNotFound (target : Nat)
  | invalidName (name : String)
  | entryAlreadyExists (parent : Nat) (name : String)
  | entryNotFound (parent : Nat) (name : String)
  deriving DecidableEq

/-- `DirectoryInvariantError`. -/
inductive DirectoryInvariantError where
  | parentMissing (parent : Nat)
  | parentNotDirectory (parent : Nat)
  | invalidName (parent : Nat) (name : String)
  | danglingTarget (parent : Nat) (name : String) (target : Nat)
  deriving DecidableEq

/-- The entries of one parent. -/
abbrev DirectoryNames := Std.ExtTreeMap String Nat

/-- `DirectoryTable`. -/
structure DirectoryTable where
  entries : Std.ExtTreeMap Nat DirectoryNames

/-- A method that takes `&mut self`. -/
abbrev DirectoryM (α : Type) := Effect DirectoryError DirectoryTable α

namespace DirectoryTable

/-- `validate_parent`. -/
def validateParent (parent : Nat) (inodes : InodeTable) :
    Except DirectoryError Unit := do
  let inode ← okOr inodes.inodes[parent]? (.parentNotFound parent)
  rejectIf (inode.kind ≠ .directory) (.parentNotDirectory parent)

/-- `valid_name`. -/
def validName (name : String) : Prop :=
  name ≠ "" ∧ name ≠ "." ∧ name ≠ ".." ∧ '/' ∉ name.toList ∧
    Char.ofNat 0 ∉ name.toList

instance (name : String) : Decidable (validName name) :=
  inferInstanceAs (Decidable (_ ∧ _ ∧ _ ∧ _ ∧ _))

/-- `DirectoryTable::new`. -/
def new : DirectoryTable := ⟨∅⟩

/-- `DirectoryTable::insert`. -/
def insert (parent : Nat) (name : String) (target : Nat) (inodes : InodeTable) :
    DirectoryM Unit := do
  validateParent parent inodes
  rejectIf (inodes.inodes.contains target = false)
    (DirectoryError.targetNotFound target)
  rejectIf (¬ validName name) (DirectoryError.invalidName name)
  -- `entry(parent).or_default()`
  let directory ← Effect.query fun t => .ok (t.entries[parent]?.getD ∅)
  Effect.modify fun t => ⟨t.entries.insert parent directory⟩
  rejectIf (directory.contains name = true)
    (DirectoryError.entryAlreadyExists parent name)
  Effect.modify fun t =>
    ⟨t.entries.insert parent (directory.insert name target)⟩

/-- `DirectoryTable::remove`. -/
def remove (parent : Nat) (name : String) (inodes : InodeTable) :
    DirectoryM Nat := do
  validateParent parent inodes
  rejectIf (¬ validName name) (DirectoryError.invalidName name)
  let directory ← Effect.query fun t =>
    okOr t.entries[parent]? (.entryNotFound parent name)
  let target ← okOr directory[name]? (DirectoryError.entryNotFound parent name)
  Effect.modify fun t => ⟨t.entries.insert parent (directory.erase name)⟩
  if (directory.erase name).isEmpty then
    Effect.modify fun t => ⟨t.entries.erase parent⟩
  pure target

/-- `DirectoryTable::lookup`. -/
def lookup (t : DirectoryTable) (parent : Nat) (name : String) : Option Nat :=
  t.entries[parent]?.bind fun directory => directory[name]?

/-- `DirectoryTable::entry_count`. -/
def entryCount (t : DirectoryTable) (parent : Nat) : Nat :=
  (t.entries[parent]?.map Std.ExtTreeMap.size).getD 0

/-- One entry of a directory in `validate`. -/
def checkEntry (inodes : InodeTable) (parent : Nat) (entry : String × Nat) :
    Except DirectoryInvariantError Unit := do
  rejectIf (¬ validName entry.1) (.invalidName parent entry.1)
  rejectIf (inodes.inodes.contains entry.2 = false)
    (.danglingTarget parent entry.1 entry.2)

/-- One directory in `validate`. -/
def checkDirectory (inodes : InodeTable) (entry : Nat × DirectoryNames) :
    Except DirectoryInvariantError Unit := do
  let inode ← okOr inodes.inodes[entry.1]? (.parentMissing entry.1)
  rejectIf (inode.kind ≠ .directory) (.parentNotDirectory entry.1)
  entry.2.toList.forM (checkEntry inodes entry.1)

/-- `DirectoryTable::validate`. -/
def validate (t : DirectoryTable) (inodes : InodeTable) :
    Except DirectoryInvariantError Unit :=
  t.entries.toList.forM (checkDirectory inodes)

/-! ## What the calls do -/

/-- No parent has an empty map. -/
def Filled (t : DirectoryTable) : Prop :=
  ∀ (parent : Nat) (directory : DirectoryNames),
    t.entries[parent]? = some directory → directory ≠ ∅

section Calls

variable {t : DirectoryTable} {inodes : InodeTable}

theorem validateParent_eq_ok {parent : Nat} :
    validateParent parent inodes = .ok () ↔
      ∃ node, inodes.inodes[parent]? = some node ∧ node.kind = .directory := by
  rw [validateParent, Except.bind_eq_ok]
  simp only [okOr_eq_ok, rejectIf_eq_ok, not_ne_iff]

/-- The lookups behind an assignment to the entries of a parent. -/
theorem lookup_insert (parent : Nat) (directory : DirectoryNames) (p : Nat)
    (name : String) :
    lookup ⟨t.entries.insert parent directory⟩ p name =
      if parent = p then directory[name]? else t.lookup p name := by
  rw [lookup, getElem?_insert]
  split <;> rfl

/-- The lookups behind the removal of a parent. -/
theorem lookup_erase (parent p : Nat) (name : String) :
    lookup ⟨t.entries.erase parent⟩ p name =
      if parent = p then none else t.lookup p name := by
  rw [lookup, getElem?_erase]
  split <;> rfl

theorem Filled.insert (h : t.Filled) {parent : Nat} {directory : DirectoryNames}
    (hsome : directory ≠ ∅) : Filled ⟨t.entries.insert parent directory⟩ := by
  intro p other hother
  rw [getElem?_insert] at hother
  split at hother
  · rw [Option.some.injEq] at hother
    rw [← hother]
    exact hsome
  · exact h p other hother

theorem Filled.erase (h : t.Filled) (parent : Nat) :
    Filled ⟨t.entries.erase parent⟩ := by
  intro p other hother
  rw [getElem?_erase] at hother
  split at hother
  · cases hother
  · exact h p other hother

/-- A directory that is there is where it was put. -/
theorem insert_getElem? {parent : Nat} {directory : DirectoryNames}
    (h : t.entries[parent]? = some directory) :
    t.entries.insert parent directory = t.entries := by
  apply Std.ExtTreeMap.ext_getElem?
  intro p
  rw [getElem?_insert]
  split
  · rename_i heq
    rw [← heq, h]
  · rfl

theorem insert_insert (parent : Nat) (first second : DirectoryNames) :
    (t.entries.insert parent first).insert parent second =
      t.entries.insert parent second := by
  apply Std.ExtTreeMap.ext_getElem?
  intro p
  rw [getElem?_insert, getElem?_insert, getElem?_insert]
  split <;> rfl

theorem erase_insert (parent : Nat) (directory : DirectoryNames) :
    (t.entries.insert parent directory).erase parent =
      t.entries.erase parent := by
  apply Std.ExtTreeMap.ext_getElem?
  intro p
  rw [getElem?_erase, getElem?_insert, getElem?_erase]
  split <;> rfl

/-- The names behind the assignment of a directory that differs in one name. -/
theorem lookup_assign {parent : Nat} {name : String} {value : Option Nat}
    {directory : DirectoryNames} (h : ∀ n : String, directory[n]? =
      if n = name then value else t.lookup parent n) (p : Nat) (n : String) :
    lookup ⟨t.entries.insert parent directory⟩ p n =
      if p = parent ∧ n = name then value else t.lookup p n := by
  rw [lookup_insert]
  by_cases hp : parent = p
  · subst hp
    rw [if_pos rfl, h]
    by_cases hn : n = name
    · rw [if_pos hn, if_pos ⟨rfl, hn⟩]
    · rw [if_neg hn, if_neg fun hkey => hn hkey.2]
  · rw [if_neg hp, if_neg fun hkey => hp hkey.1.symm]

/-- The names behind the removal of a directory with one name. -/
theorem lookup_drop {parent : Nat} {name : String}
    (h : ∀ n, n ≠ name → t.lookup parent n = none) (p : Nat) (n : String) :
    lookup ⟨t.entries.erase parent⟩ p n =
      if p = parent ∧ n = name then none else t.lookup p n := by
  rw [lookup_erase]
  by_cases hp : parent = p
  · subst hp
    rw [if_pos rfl]
    by_cases hn : n = name
    · rw [if_pos ⟨rfl, hn⟩]
    · rw [if_neg fun hkey => hn hkey.2, h n hn]
  · rw [if_neg hp, if_neg fun hkey => hp hkey.1.symm]

/-- **An insertion adds its entry**, or fails and leaves no empty directory. -/
theorem insert_atomic (parent : Nat) (name : String) (target : Nat) :
    Effect.Atomic (insert parent name target inodes) t fun _ t' =>
      validateParent parent inodes = .ok () ∧
      inodes.inodes.contains target = true ∧ validName name ∧
      t.lookup parent name = none ∧ (t.Filled → t'.Filled) ∧
      ∀ p n, t'.lookup p n =
        if p = parent ∧ n = name then some target else t.lookup p n := by
  refine Effect.atomic_lift_bind fun _ hparent => ?_
  refine Effect.atomic_lift_bind fun _ htarget => ?_
  refine Effect.atomic_lift_bind fun _ hname => ?_
  rw [rejectIf_eq_ok, Bool.not_eq_false] at htarget
  rw [rejectIf_eq_ok, not_not] at hname
  have hdir : ∀ n, t.lookup parent n = (t.entries[parent]?.getD ∅)[n]? := by
    intro n
    rw [lookup]
    cases t.entries[parent]? with
    | none => exact Std.ExtTreeMap.getElem?_empty.symm
    | some directory => rfl
  refine Effect.atomic_query_bind_of_ok rfl ?_
  by_cases hcontains : (t.entries[parent]?.getD ∅).contains name = true
  · -- the directory was there, so the assignment of it changes nothing
    refine .inl ⟨.entryAlreadyExists parent name, ?_⟩
    rw [Effect.modify_bind, rejectIf_of hcontains]
    show (_, DirectoryTable.mk (t.entries.insert parent _)) = _
    cases hentries : t.entries[parent]? with
    | none =>
      rw [hentries, Option.getD_none, Std.ExtTreeMap.contains_empty] at hcontains
      cases hcontains
    | some directory =>
      rw [Option.getD_some, insert_getElem? hentries]
  · refine .inr ⟨(), ⟨t.entries.insert parent
      ((t.entries[parent]?.getD ∅).insert name target)⟩, ?_, hparent, htarget,
      hname, ?_, ?_, ?_⟩
    · rw [Effect.modify_bind,
        Effect.lift_bind_of_ok (a := ()) (rejectIf_of_not hcontains)]
      show (_, DirectoryTable.mk ((t.entries.insert parent _).insert parent _)) =
        _
      rw [insert_insert]
    · rw [hdir]
      exact Std.ExtTreeMap.getElem?_eq_none_of_contains_eq_false
        (Bool.not_eq_true _ ▸ hcontains)
    · intro hfilled
      apply hfilled.insert
      intro hempty
      have hfound := congrArg (fun m : DirectoryNames => m[name]?) hempty
      rw [getElem?_insert, if_pos rfl, Std.ExtTreeMap.getElem?_empty] at hfound
      cases hfound
    · apply lookup_assign
      intro n
      rw [getElem?_insert, hdir]
      by_cases hn : name = n
      · rw [if_pos hn, if_pos hn.symm]
      · rw [if_neg hn, if_neg fun h => hn h.symm]

/-- **A removal takes its entry away**, and with the last entry the map. -/
theorem remove_atomic (parent : Nat) (name : String) :
    Effect.Atomic (remove parent name inodes) t fun target t' =>
      validateParent parent inodes = .ok () ∧ validName name ∧
      t.lookup parent name = some target ∧ (t.Filled → t'.Filled) ∧
      ∀ p n, t'.lookup p n =
        if p = parent ∧ n = name then none else t.lookup p n := by
  refine Effect.atomic_lift_bind fun _ hparent => ?_
  refine Effect.atomic_lift_bind fun _ hname => ?_
  refine Effect.atomic_query_bind fun directory hdirectory => ?_
  refine Effect.atomic_lift_bind fun target htarget => ?_
  rw [rejectIf_eq_ok, not_not] at hname
  rw [okOr_eq_ok] at hdirectory htarget
  have hlookup : ∀ n, t.lookup parent n = directory[n]? := by
    intro n
    rw [lookup, hdirectory]
    rfl
  have herase : ∀ n, (directory.erase name)[n]? =
      if n = name then none else t.lookup parent n := by
    intro n
    rw [getElem?_erase, hlookup]
    by_cases hn : name = n
    · rw [if_pos hn, if_pos hn.symm]
    · rw [if_neg hn, if_neg fun h => hn h.symm]
  by_cases hempty : (directory.erase name).isEmpty = true
  · -- the last entry
    refine .inr ⟨target, ⟨t.entries.erase parent⟩, ?_, hparent, hname, ?_,
      fun hfilled => hfilled.erase parent, ?_⟩
    · rw [Effect.modify_bind, if_pos hempty]
      show (_, DirectoryTable.mk ((t.entries.insert parent _).erase parent)) = _
      rw [erase_insert]
    · rw [hlookup, htarget]
    · apply lookup_drop
      intro n hn
      have hnone := herase n
      rw [Std.ExtTreeMap.isEmpty_iff.mp hempty, Std.ExtTreeMap.getElem?_empty,
        if_neg hn] at hnone
      exact hnone.symm
  · refine .inr ⟨target, ⟨t.entries.insert parent (directory.erase name)⟩, ?_,
      hparent, hname, ?_, ?_, lookup_assign herase⟩
    · rw [Effect.modify_bind, if_neg hempty]
      rfl
    · rw [hlookup, htarget]
    · intro hfilled
      apply hfilled.insert
      intro hnone
      exact hempty (Std.ExtTreeMap.isEmpty_iff.mpr hnone)

/-- A directory with entries has a name. -/
theorem exists_name {directory : DirectoryNames} (h : directory ≠ ∅) :
    ∃ (name : String) (target : Nat), directory[name]? = some target := by
  by_contra hnone
  apply h
  apply Std.ExtTreeMap.ext_getElem?
  intro name
  rw [Std.ExtTreeMap.getElem?_empty]
  cases hfound : directory[name]? with
  | none => rfl
  | some target => exact absurd ⟨name, target, hfound⟩ hnone

/-- What `entry_count` counts. -/
theorem Filled.entryCount_pos (h : t.Filled) (parent : Nat) :
    0 < t.entryCount parent ↔ ∃ name target, t.lookup parent name = some target := by
  simp only [entryCount, lookup]
  cases hparent : t.entries[parent]? with
  | none =>
    refine iff_of_false (lt_irrefl 0) ?_
    intro hfound
    obtain ⟨name, target, hfound⟩ := hfound
    cases hfound
  | some directory =>
    refine iff_of_true ?_ (exists_name (h parent directory hparent))
    show 0 < directory.size
    rw [Nat.pos_iff_ne_zero]
    intro hsize
    apply h parent directory hparent
    rw [← Std.ExtTreeMap.isEmpty_iff, Std.ExtTreeMap.isEmpty_eq_size_beq_zero,
      hsize]
    rfl

/-- What `validate` accepts. -/
theorem validate_eq_ok : t.validate inodes = .ok () ↔
    ∀ (parent : Nat) (directory : DirectoryNames),
      t.entries[parent]? = some directory →
        (∃ node, inodes.inodes[parent]? = some node ∧ node.kind = .directory) ∧
        ∀ (name : String) (target : Nat), directory[name]? = some target →
          validName name ∧ inodes.inodes.contains target = true := by
  have hentry : ∀ (parent : Nat) (entry : String × Nat),
      checkEntry inodes parent entry = .ok () ↔
        validName entry.1 ∧ inodes.inodes.contains entry.2 = true := by
    intro parent entry
    rw [checkEntry, Except.bind_eq_ok]
    simp only [rejectIf_eq_ok, not_not, Bool.not_eq_false, exists_const]
  have hdirectory : ∀ entry : Nat × DirectoryNames,
      checkDirectory inodes entry = .ok () ↔
        (∃ node, inodes.inodes[entry.1]? = some node ∧
          node.kind = .directory) ∧
        ∀ (name : String) (target : Nat), entry.2[name]? = some target →
          validName name ∧ inodes.inodes.contains target = true := by
    intro entry
    simp only [checkDirectory, Except.bind_eq_ok, okOr_eq_ok, rejectIf_eq_ok,
      not_ne_iff, exists_const, Except.forM_eq_ok, hentry, Prod.forall,
      Std.ExtTreeMap.mem_toList_iff_getElem?_eq_some]
    constructor
    · intro hfacts
      obtain ⟨node, hnode, hkind, hnames⟩ := hfacts
      exact ⟨⟨node, hnode, hkind⟩, hnames⟩
    · intro hfacts
      obtain ⟨⟨node, hnode, hkind⟩, hnames⟩ := hfacts
      exact ⟨node, hnode, hkind, hnames⟩
  rw [validate, Except.forM_eq_ok]
  simp only [hdirectory, Prod.forall,
    Std.ExtTreeMap.mem_toList_iff_getElem?_eq_some]

end Calls

end DirectoryTable

/-! ## Calls on the tables -/

theorem InodeTable.contains_eq_true {t : InodeTable} {id : Nat} :
    t.inodes.contains id = true ↔ ∃ node, t.inodes[id]? = some node := by
  rw [Std.ExtTreeMap.contains_eq_isSome_getElem?, Option.isSome_iff_exists]

/-- What a call keeps of the inode table: identifiers are not used again, kinds
do not change, and only `remove` takes an inode away. -/
structure OwnershipCall.Keeps (call : OwnershipCall) (t t' : InodeTable) :
    Prop where
  nextId_le : t.nextId ≤ t'.nextId
  id_lt : (∀ (id : Nat) (node : Inode), t.inodes[id]? = some node →
      id < t.nextId) →
    ∀ (id : Nat) (node : Inode), t'.inodes[id]? = some node → id < t'.nextId
  kind_eq : ∀ (id : Nat) (node' : Inode), t'.inodes[id]? = some node' →
    id < t.nextId → ∃ node, t.inodes[id]? = some node ∧ node.kind = node'.kind
  present : ∀ (id : Nat) (node : Inode), t.inodes[id]? = some node →
    (∀ inode, call = .remove inode → inode.toNat ≠ id) →
      ∃ node', t'.inodes[id]? = some node'

/-- An assignment to an inode that keeps its kind. -/
theorem OwnershipCall.keeps_insert {call : OwnershipCall} {t : InodeTable}
    {inode : Nat} {node new : Inode} (hnode : t.inodes[inode]? = some node)
    (hkind : node.kind = new.kind) (owners : Std.ExtTreeMap Nat Nat) :
    call.Keeps t ⟨t.nextId, t.inodes.insert inode new, owners⟩ where
  nextId_le := le_rfl
  id_lt := fun hid _ _ hfound =>
    InodeTable.id_lt_insert le_rfl hid (hid inode node hnode) new hfound
  kind_eq := by
    intro id node' hfound _
    rw [getElem?_insert] at hfound
    split at hfound
    · rename_i heq
      rw [Option.some.injEq] at hfound
      rw [← heq, ← hfound]
      exact ⟨node, hnode, hkind⟩
    · exact ⟨node', hfound, rfl⟩
  present := by
    intro id other hother _
    rw [getElem?_insert]
    split
    · exact ⟨new, rfl⟩
    · exact ⟨other, hother⟩

theorem OwnershipCall.keeps_refl (call : OwnershipCall) (t : InodeTable) :
    call.Keeps t t where
  nextId_le := le_rfl
  id_lt := fun hid => hid
  kind_eq := fun _ node' hfound _ => ⟨node', hfound, rfl⟩
  present := fun _ node hnode _ => ⟨node, hnode⟩

/-- Every call on the inode table keeps this. -/
theorem OwnershipCall.run_keeps (call : OwnershipCall) (s : OwnershipState) :
    Effect.Atomic call.run s fun _ s' => call.Keeps s.table s'.table := by
  cases call with
  | create kind =>
    apply (OwnershipState.onTable_atomic
      (InodeTable.create_atomic kind)).mono
    intro _ s' hpost
    obtain ⟨id, table, rfl, rfl, rfl, rfl⟩ := hpost
    refine ⟨Nat.le_succ _, ?_, ?_, ?_⟩
    · intro hid _ _ hfound
      exact InodeTable.id_lt_insert (Nat.le_succ _) hid (Nat.lt_succ_self _) _
        hfound
    · intro id node' hfound hlt
      rw [getElem?_insert, if_neg (by omega)] at hfound
      exact ⟨node', hfound, rfl⟩
    · intro id node hnode _
      show ∃ node', (s.table.inodes.insert _ _)[id]? = some node'
      rw [getElem?_insert]
      split
      · exact ⟨_, rfl⟩
      · exact ⟨node, hnode⟩
  | attachBlock inode block =>
    apply (OwnershipState.onTable_atomic (InodeTable.attachBlock_atomic
      inode.toNat block.toNat s.allocator)).mono
    intro _ s' hpost
    obtain ⟨_, table, rfl, rfl, node, hnode, _, _, rfl⟩ := hpost
    exact keeps_insert hnode (by rfl) _
  | detachBlock inode block =>
    apply (OwnershipState.onTable_atomic (InodeTable.detachBlock_atomic
      inode.toNat block.toNat)).mono
    intro _ s' hpost
    obtain ⟨_, table, rfl, rfl, node, hnode, _, rfl⟩ := hpost
    exact keeps_insert hnode (by rfl) _
  | remove inode =>
    apply (OwnershipState.onTable_atomic
      (InodeTable.remove_atomic inode.toNat)).mono
    intro _ s' hpost
    obtain ⟨node, table, rfl, rfl, hnode, _, rfl⟩ := hpost
    refine ⟨le_rfl, ?_, ?_, ?_⟩
    · intro hid id found hfound
      rw [getElem?_erase] at hfound
      split at hfound
      · cases hfound
      · exact hid id found hfound
    · intro id node' hfound _
      rw [getElem?_erase] at hfound
      split at hfound
      · cases hfound
      · exact ⟨node', hfound, rfl⟩
    · intro id other hother hspared
      show ∃ node', (s.table.inodes.erase _)[id]? = some node'
      rw [getElem?_erase, if_neg (hspared inode rfl)]
      exact ⟨other, hother⟩
  | allocator call =>
    show Effect.Atomic (OwnershipState.onAllocator call) s _
    unfold Effect.Atomic OwnershipState.onAllocator
    cases hpure : call.runPure s.allocator with
    | error e => exact .inl ⟨_, rfl⟩
    | ok r => exact .inr ⟨_, _, rfl, keeps_refl _ _⟩

/-- The inode table with its allocator, and the directories. -/
structure DirectoryState where
  ownership : OwnershipState
  directories : DirectoryTable

/-- A call on one of the tables. -/
inductive DirectoryCall where
  | ownership (call : OwnershipCall)
  | insert (parent : UInt64) (name : String) (target : UInt64)
  | remove (parent : UInt64) (name : String)
  deriving DecidableEq

inductive DirectoryResult where
  | ownership (result : OwnershipResult)
  | inserted
  | removed (target : Nat)

inductive DirectoryCallError where
  | ownership (error : OwnershipError)
  | directory (error : DirectoryError)

/-- A call that takes the state. -/
abbrev DirectoryCallM :=
  Effect DirectoryCallError DirectoryState DirectoryResult

namespace DirectoryState

/-- The inode table. -/
def inodes (s : DirectoryState) : InodeTable := s.ownership.table

/-- A method of the directories, which reads the inode table. -/
def onDirectories {α : Type} (x : InodeTable → DirectoryM α)
    (wrap : α → DirectoryResult) : DirectoryCallM := fun s =>
  let r := x s.inodes s.directories
  ((r.1.mapError .directory).map wrap, { s with directories := r.2 })

/-- A call on the inode table or its allocator. -/
def onOwnership (call : OwnershipCall) : DirectoryCallM := fun s =>
  let r := call.run s.ownership
  ((r.1.mapError .ownership).map .ownership, { s with ownership := r.2 })

theorem onDirectories_atomic {α : Type} {x : InodeTable → DirectoryM α}
    {wrap : α → DirectoryResult} {s : DirectoryState}
    {post : α → DirectoryTable → Prop}
    (h : Effect.Atomic (x s.inodes) s.directories post) :
    Effect.Atomic (onDirectories x wrap) s fun r s' =>
      ∃ a directories, r = wrap a ∧ s' = { s with directories } ∧
        post a directories := by
  rcases h with ⟨e, he⟩ | ⟨a, directories, hok, hpost⟩
  · refine .inl ⟨.directory e, ?_⟩
    simp only [onDirectories, he]
    rfl
  · refine .inr ⟨wrap a, { s with directories }, ?_, a, directories, rfl, rfl,
      hpost⟩
    simp only [onDirectories, hok]
    rfl

theorem onOwnership_atomic {s : DirectoryState} (call : OwnershipCall) :
    Effect.Atomic (onOwnership call) s fun r s' =>
      ∃ result ownership, r = .ownership result ∧ s' = { s with ownership } ∧
        call.Keeps s.inodes ownership.table := by
  rcases call.run_keeps s.ownership with ⟨e, he⟩ | ⟨a, ownership, hok, hpost⟩
  · refine .inl ⟨.ownership e, ?_⟩
    simp only [onOwnership, he]
    rfl
  · refine .inr ⟨.ownership a, { s with ownership }, ?_, a, ownership, rfl, rfl,
      hpost⟩
    simp only [onOwnership, hok]
    rfl

/-- What the calls keep whatever their callers do: an entry has a valid name and
old identifiers, and its parent, as long as it is there, is a directory. -/
structure Sound (s : DirectoryState) : Prop where
  id_lt : ∀ (id : Nat) (node : Inode), s.inodes.inodes[id]? = some node →
    id < s.inodes.nextId
  filled : s.directories.Filled
  entry : ∀ parent name target, s.directories.lookup parent name = some target →
    DirectoryTable.validName name ∧ parent < s.inodes.nextId ∧
      target < s.inodes.nextId ∧
      ∀ node, s.inodes.inodes[parent]? = some node → node.kind = .directory

/-- The parents and the targets of all entries exist. -/
def Live (s : DirectoryState) : Prop :=
  ∀ parent name target, s.directories.lookup parent name = some target →
    s.inodes.inodes.contains parent = true ∧
      s.inodes.inodes.contains target = true

variable {s : DirectoryState}

/-- In a sound state `validate` finds dangling identifiers and nothing else. -/
theorem Sound.validate_iff (h : s.Sound) :
    s.directories.validate s.inodes = .ok () ↔ s.Live := by
  rw [DirectoryTable.validate_eq_ok]
  constructor
  · intro hvalid parent name target hlookup
    rw [DirectoryTable.lookup, Option.bind_eq_some_iff] at hlookup
    obtain ⟨directory, hdirectory, hname⟩ := hlookup
    obtain ⟨⟨node, hnode, _⟩, hnames⟩ := hvalid parent directory hdirectory
    exact ⟨InodeTable.contains_eq_true.mpr ⟨node, hnode⟩,
      (hnames name target hname).2⟩
  · intro hlive parent directory hdirectory
    have hlookup : ∀ (name : String) (target : Nat),
        directory[name]? = some target →
          s.directories.lookup parent name = some target := by
      intro name target hname
      rw [DirectoryTable.lookup, hdirectory]
      exact hname
    constructor
    · -- the directory has an entry, whose parent it is
      obtain ⟨name, target, hname⟩ :=
        DirectoryTable.exists_name (h.filled parent directory hdirectory)
      have hfound := hlookup name target hname
      obtain ⟨node, hnode⟩ :=
        InodeTable.contains_eq_true.mp (hlive parent name target hfound).1
      exact ⟨node, hnode, (h.entry parent name target hfound).2.2.2 node hnode⟩
    · intro name target hname
      have hfound := hlookup name target hname
      exact ⟨(h.entry parent name target hfound).1,
        (hlive parent name target hfound).2⟩

theorem sound_new (allocator : BlockAllocator) :
    Sound ⟨⟨InodeTable.new, allocator⟩, DirectoryTable.new⟩ where
  id_lt := by
    intro id node h
    cases h
  filled := by
    intro parent directory h
    cases h
  entry := by
    intro parent name target h
    cases h

/-- A call on the inode table keeps the entries as they are. -/
theorem Sound.ownership (h : s.Sound) {call : OwnershipCall}
    {ownership : OwnershipState}
    (hkeeps : call.Keeps s.inodes ownership.table) :
    Sound { s with ownership } where
  id_lt := hkeeps.id_lt h.id_lt
  filled := h.filled
  entry := by
    intro parent name target hlookup
    obtain ⟨hname, hparent, htarget, hkind⟩ := h.entry parent name target hlookup
    refine ⟨hname, lt_of_lt_of_le hparent hkeeps.nextId_le,
      lt_of_lt_of_le htarget hkeeps.nextId_le, ?_⟩
    intro node' hnode'
    obtain ⟨node, hnode, heq⟩ := hkeeps.kind_eq parent node' hnode' hparent
    rw [← heq]
    exact hkind node hnode

theorem Sound.insert (h : s.Sound) {parent target : Nat} {name : String}
    {directories : DirectoryTable}
    (hparent : DirectoryTable.validateParent parent s.inodes = .ok ())
    (htarget : s.inodes.inodes.contains target = true)
    (hname : DirectoryTable.validName name)
    (hfilled : s.directories.Filled → directories.Filled)
    (hlookup : ∀ p n, directories.lookup p n =
      if p = parent ∧ n = name then some target else s.directories.lookup p n) :
    Sound { s with directories } where
  id_lt := h.id_lt
  filled := hfilled h.filled
  entry := by
    intro p n found hfound
    replace hfound : directories.lookup p n = some found := hfound
    rw [hlookup] at hfound
    split at hfound
    · rename_i hkey
      obtain ⟨rfl, rfl⟩ := hkey
      rw [Option.some.injEq] at hfound
      subst hfound
      obtain ⟨node, hnode, hkind⟩ :=
        DirectoryTable.validateParent_eq_ok.mp hparent
      obtain ⟨other, hother⟩ := InodeTable.contains_eq_true.mp htarget
      refine ⟨hname, h.id_lt _ _ hnode, h.id_lt _ _ hother, ?_⟩
      intro node' hnode'
      have hsame := hnode.symm.trans hnode'
      rw [Option.some.injEq] at hsame
      rw [← hsame]
      exact hkind
    · exact h.entry p n found hfound

theorem Sound.remove (h : s.Sound) {parent : Nat} {name : String}
    {directories : DirectoryTable}
    (hfilled : s.directories.Filled → directories.Filled)
    (hlookup : ∀ p n, directories.lookup p n =
      if p = parent ∧ n = name then none else s.directories.lookup p n) :
    Sound { s with directories } where
  id_lt := h.id_lt
  filled := hfilled h.filled
  entry := by
    intro p n found hfound
    replace hfound : directories.lookup p n = some found := hfound
    rw [hlookup] at hfound
    split at hfound
    · cases hfound
    · exact h.entry p n found hfound

end DirectoryState

namespace DirectoryCall

open DirectoryState

/-- The call. -/
def run : DirectoryCall → DirectoryCallM
  | .ownership call => onOwnership call
  | .insert parent name target => onDirectories
    (fun inodes => DirectoryTable.insert parent.toNat name target.toNat inodes)
    fun _ => .inserted
  | .remove parent name => onDirectories
    (fun inodes => DirectoryTable.remove parent.toNat name inodes) .removed

/-- What the call writes to the names if it succeeds. -/
def write : DirectoryCall → Option ((Nat × String) × Option Nat)
  | .insert parent name target =>
    some ((parent.toNat, name), some target.toNat)
  | .remove parent name => some ((parent.toNat, name), none)
  | .ownership _ => none

/-- The caller removes no inode that an entry names or that has entries. -/
def Spares (s : DirectoryState) : DirectoryCall → Prop
  | .ownership (.remove inode) => ∀ parent name target,
    s.directories.lookup parent name = some target →
      inode.toNat ≠ parent ∧ inode.toNat ≠ target
  | _ => True

/-- What a call that succeeds does to the state. -/
structure Step (s : DirectoryState) (call : DirectoryCall)
    (s' : DirectoryState) : Prop where
  sound : s.Sound → s'.Sound
  live : s.Live → call.Spares s → s'.Live
  names : (fun key : Nat × String => s'.directories.lookup key.1 key.2) =
    WriteLog.overlay (fun key => s.directories.lookup key.1 key.2)
      call.write.toList

variable {s : DirectoryState}

/-- One assignment to the names. -/
theorem names_update {t t' : DirectoryTable} {parent : Nat} {name : String}
    {value : Option Nat} (h : ∀ p n, t'.lookup p n =
      if p = parent ∧ n = name then value else t.lookup p n) :
    (fun key : Nat × String => t'.lookup key.1 key.2) =
      WriteLog.overlay (fun key => t.lookup key.1 key.2)
        [((parent, name), value)] := by
  funext key
  rw [h, WriteLog.overlay_cons, WriteLog.overlay_nil, Function.update_apply]
  by_cases hkey : key = (parent, name)
  · rw [if_pos hkey, if_pos (by rw [hkey]; exact ⟨rfl, rfl⟩)]
  · rw [if_neg hkey, if_neg fun hsame => hkey (Prod.ext hsame.1 hsame.2)]

/-- A call fails and leaves everything as it was, or it makes a step. -/
theorem run_atomic (call : DirectoryCall) :
    Effect.Atomic call.run s fun _ s' => call.Step s s' := by
  cases call with
  | ownership call =>
    apply (onOwnership_atomic call).mono
    intro _ s' hpost
    obtain ⟨_, ownership, rfl, rfl, hkeeps⟩ := hpost
    refine ⟨fun h => h.ownership hkeeps, ?_, rfl⟩
    intro hlive hspares parent name target hlookup
    obtain ⟨hparent, htarget⟩ := hlive parent name target hlookup
    -- neither end is what the call removes
    have hspared : ∀ inode, call = .remove inode →
        inode.toNat ≠ parent ∧ inode.toNat ≠ target := by
      intro inode hcall
      subst hcall
      exact hspares parent name target hlookup
    obtain ⟨node, hnode⟩ := InodeTable.contains_eq_true.mp hparent
    obtain ⟨other, hother⟩ := InodeTable.contains_eq_true.mp htarget
    exact ⟨InodeTable.contains_eq_true.mpr (hkeeps.present parent node hnode
        fun inode hcall => (hspared inode hcall).1),
      InodeTable.contains_eq_true.mpr (hkeeps.present target other hother
        fun inode hcall => (hspared inode hcall).2)⟩
  | insert parent name target =>
    apply (onDirectories_atomic (DirectoryTable.insert_atomic _ _ _)).mono
    intro _ s' hpost
    obtain ⟨_, directories, rfl, rfl, hparent, htarget, hname, _, hfilled,
      hlookup⟩ := hpost
    refine ⟨fun h => h.insert hparent htarget hname hfilled hlookup, ?_,
      names_update hlookup⟩
    intro hlive _ p n found hfound
    replace hfound : directories.lookup p n = some found := hfound
    rw [hlookup] at hfound
    split at hfound
    · rename_i hkey
      obtain ⟨rfl, rfl⟩ := hkey
      rw [Option.some.injEq] at hfound
      subst hfound
      obtain ⟨node, hnode, _⟩ :=
        DirectoryTable.validateParent_eq_ok.mp hparent
      exact ⟨InodeTable.contains_eq_true.mpr ⟨node, hnode⟩, htarget⟩
    · exact hlive p n found hfound
  | remove parent name =>
    apply (onDirectories_atomic (DirectoryTable.remove_atomic _ _)).mono
    intro _ s' hpost
    obtain ⟨_, directories, rfl, rfl, _, _, _, hfilled, hlookup⟩ := hpost
    refine ⟨fun h => h.remove hfilled hlookup, ?_, names_update hlookup⟩
    intro hlive _ p n found hfound
    replace hfound : directories.lookup p n = some found := hfound
    rw [hlookup] at hfound
    split at hfound
    · cases hfound
    · exact hlive p n found hfound

end DirectoryCall

/-! ## Runs -/

/-- A call and how it ended. -/
structure DirectoryEvent where
  call : DirectoryCall
  result : Except DirectoryCallError DirectoryResult

/-- What the call has written to the names. -/
def DirectoryEvent.write (e : DirectoryEvent) :
    Option ((Nat × String) × Option Nat) :=
  match e.result with
  | .ok _ => e.call.write
  | .error _ => none

/-- Calls that their callers may make, one after the other. -/
inductive DirectoryRun (may : DirectoryState → DirectoryCall → Prop)
    (start : DirectoryState) : List DirectoryEvent → DirectoryState → Prop
  | start : DirectoryRun may start [] start
  | call {events : List DirectoryEvent} {s : DirectoryState}
      (run : DirectoryRun may start events s) (call : DirectoryCall)
      (allowed : may s call) :
      DirectoryRun may start (events ++ [⟨call, (call.run s).1⟩])
        (call.run s).2

section Runs

variable {may : DirectoryState → DirectoryCall → Prop}
  {start s : DirectoryState} {events : List DirectoryEvent}

/-- What every step keeps, every run keeps. -/
theorem DirectoryRun.keeps (h : DirectoryRun may start events s)
    {inv : DirectoryState → Prop} (hstart : inv start)
    (hstep : ∀ s call s', may s call → call.Step s s' → inv s → inv s') :
    inv s := by
  induction h with
  | start => exact hstart
  | @call events s run call allowed ih =>
    rcases call.run_atomic (s := s) with ⟨e, he⟩ | ⟨_, s', hok, hpost⟩
    · rw [he]
      exact ih
    · rw [hok]
      exact hstep s call s' allowed hpost ih

theorem DirectoryRun.sound {allocator : BlockAllocator}
    (h : DirectoryRun may ⟨⟨InodeTable.new, allocator⟩, DirectoryTable.new⟩
      events s) : s.Sound :=
  h.keeps (DirectoryState.sound_new allocator) fun _ _ _ _ hstep => hstep.sound

/-- The names are what the calls have written. -/
theorem DirectoryRun.names (h : DirectoryRun may start events s) :
    (fun key : Nat × String => s.directories.lookup key.1 key.2) =
      WriteLog.overlay (fun key => start.directories.lookup key.1 key.2)
        (events.filterMap DirectoryEvent.write) := by
  induction h with
  | start => rfl
  | @call events s run call allowed ih =>
    rw [List.filterMap_append, WriteLog.overlay_append, ← ih]
    rcases call.run_atomic (s := s) with ⟨e, he⟩ | ⟨r, s', hok, hpost⟩
    · rw [he]
      rfl
    · have hevent : DirectoryEvent.write ⟨call, .ok r⟩ = call.write := rfl
      rw [hok, hpost.names]
      cases hwrite : call.write with
      | none =>
        rw [List.filterMap_cons_none (hevent.trans hwrite)]
        rfl
      | some w =>
        rw [List.filterMap_cons_some (hevent.trans hwrite)]
        rfl

end Runs

/-- What holds after a run. -/
structure DirectoriesSound (events : List DirectoryEvent) (s : DirectoryState) :
    Prop where
  lookup_eq : ∀ parent name, s.directories.lookup parent name =
    WriteLog.overlay (fun _ => none) (events.filterMap DirectoryEvent.write)
      (parent, name)
  count_pos : ∀ parent, 0 < s.directories.entryCount parent ↔
    ∃ name target, s.directories.lookup parent name = some target
  validate_iff : s.directories.validate s.inodes = .ok () ↔ s.Live
  failed_unchanged : ∀ (call : DirectoryCall) (e : DirectoryCallError),
    (call.run s).1 = .error e → (call.run s).2 = s

/-- **The directories are the names that the calls have left.**  After any calls
on new tables, however they end, a lookup finds what the last insertion or removal
of its name has left, a parent counts entries only if it has some, `validate`
finds dangling identifiers and nothing else, and a call that fails changes
nothing. -/
theorem directory_runs {allocator : BlockAllocator}
    {may : DirectoryState → DirectoryCall → Prop}
    {events : List DirectoryEvent} {s : DirectoryState}
    (hrun : DirectoryRun may ⟨⟨InodeTable.new, allocator⟩, DirectoryTable.new⟩
      events s) : DirectoriesSound events s := by
  refine ⟨?_, hrun.sound.filled.entryCount_pos, hrun.sound.validate_iff, ?_⟩
  · intro parent name
    exact congrFun hrun.names (parent, name)
  · intro call e he
    exact call.run_atomic.of_error he

/-- A file gets a name, which it cannot get again, and loses it. -/
theorem exists_sampleRun : ∃ allocator events s,
    BlockAllocator.new 5 2 = .ok allocator ∧
    DirectoryRun (fun s call => call.Spares s)
      ⟨⟨InodeTable.new, allocator⟩, DirectoryTable.new⟩ events s ∧
    events.filterMap DirectoryEvent.write =
      [((1, "f"), some 2), ((1, "f"), none)] :=
  ⟨_, _, _, rfl, ((((DirectoryRun.start.call
    (.ownership (.create .directory)) trivial).call
    (.ownership (.create .file)) trivial).call
    (.insert 1 "f" 2) trivial).call
    (.insert 1 "f" 2) trivial).call
    (.remove 1 "f") trivial, by decide⟩

theorem directory_runs_sample :
    ∃ events s, events.filterMap DirectoryEvent.write =
        [((1, "f"), some 2), ((1, "f"), none)] ∧
      DirectoriesSound events s := by
  obtain ⟨_, events, s, _, hrun, hwrites⟩ := exists_sampleRun
  exact ⟨events, s, hwrites, directory_runs hrun⟩

/-- **Callers that spare what is in use keep the directories valid.**  After any
calls on new tables of which none removes an inode that an entry names or that has
entries, `validate` accepts the directories. -/
theorem directory_runs_spared {allocator : BlockAllocator}
    {events : List DirectoryEvent} {s : DirectoryState}
    (hrun : DirectoryRun (fun s call => call.Spares s)
      ⟨⟨InodeTable.new, allocator⟩, DirectoryTable.new⟩ events s) :
    s.directories.validate s.inodes = .ok () := by
  have hlive : s.Live := by
    refine hrun.keeps ?_ fun _ _ _ hspares hstep hlive => hstep.live hlive hspares
    intro parent name target hlookup
    cases hlookup
  exact hrun.sound.validate_iff.mpr hlive

theorem directory_runs_spared_sample : ∃ allocator events s,
    DirectoryRun (fun s call => call.Spares s)
      ⟨⟨InodeTable.new, allocator⟩, DirectoryTable.new⟩ events s ∧
    s.directories.validate s.inodes = .ok () := by
  obtain ⟨allocator, events, s, _, hrun, hwrites⟩ := exists_sampleRun
  -- the name is gone, so the file can go
  have hspares : DirectoryCall.Spares s (.ownership (.remove 2)) := by
    intro parent name target hlookup
    have hfound := congrFun hrun.names (parent, name)
    rw [hwrites, WriteLog.overlay_cons, WriteLog.overlay_cons,
      WriteLog.overlay_nil, Function.update_idem, Function.update_apply]
      at hfound
    have hsome := hlookup.symm.trans hfound
    split at hsome
    · cases hsome
    · cases hsome
  have hmore := hrun.call _ hspares
  exact ⟨allocator, _, _, hmore, directory_runs_spared hmore⟩

end FilesystemLab
