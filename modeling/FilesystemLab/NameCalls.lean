import FilesystemLab.NewNodes

/-!
# Calls that change names

The functions on paths that link, remove, rename and exchange names, with what
each does to the names of a volume.

`performs_nameCall` relies on `Volume.Treelike`: on a volume whose directories
have one name each, the checks for cycles in an exchange of directories and in a
rename over a directory find every cycle, so these calls keep the disk
consistent.
-/

namespace FilesystemLab

/-- The name of a node of this kind that has no names below it. -/
def Volume.Lone (v : Volume) (key : UInt64 × String) (kind : InodeKind) : Prop :=
  ∃ id n, v.name key = some id ∧ v.node id = some n ∧ n.kind = kind ∧
    ∀ text, v.name (id, text) = none

/-! ## The calls -/

/-- The kind that the functions for links to files and to symbolic links ask
for. -/
def LinkKind.kind : LinkKind → InodeKind
  | .file => .file
  | .symlink => .symlink

/-- The functions on paths that change names. -/
inductive NameCall where
  | hardLink (follow : HardLinkSourceFollow) (source destination : String)
  | hardLinkTo (kind : LinkKind) (source destination : String)
  | unlink (path : String)
  | unlinkOnly (kind : LinkKind) (path : String)
  | removeDirectory (path : String)
  | removeDirectoryTree (path : String)
  | rename (source destination : String)
  | renameOverwrite (source destination : String)
  | renamePosix (source destination : String)
  | renameOverwriteOnly (kind : LinkKind) (linked : Bool)
    (source destination : String)
  | renameOverwriteDirectory (source destination : String)
  | exchange (first second : String)
  | exchangeOnly (kind : InodeKind) (first second : String)

namespace NameCall

/-- A call of one of the functions. -/
def run (sb : Superblock) : NameCall → DevM Disk Unit
  | hardLink follow source destination => Effect.ignore
      (hardLinkAtPathWithSourceFollowJournaled sb source destination follow)
  | hardLinkTo .file source destination =>
    Effect.ignore (hardLinkFileAtPathJournaled sb source destination)
  | hardLinkTo .symlink source destination =>
    Effect.ignore (hardLinkSymlinkAtPathJournaled sb source destination)
  | unlink path => Effect.ignore (unlinkAtPathJournaled sb path)
  | unlinkOnly .file path => Effect.ignore (unlinkFileAtPathJournaled sb path)
  | unlinkOnly .symlink path =>
    Effect.ignore (unlinkSymlinkAtPathJournaled sb path)
  | removeDirectory path =>
    Effect.ignore (removeDirectoryAtPathJournaled sb path)
  | removeDirectoryTree path =>
    Effect.ignore (removeDirectoryTreeAtPathJournaled sb path)
  | rename source destination =>
    Effect.ignore (renameAtPathJournaled sb source destination)
  | renameOverwrite source destination =>
    Effect.ignore (renameOverwriteAtPathJournaled sb source destination)
  | renamePosix source destination =>
    Effect.ignore (renamePosixAtPathJournaled sb source destination)
  | renameOverwriteOnly .file false source destination =>
    Effect.ignore (renameOverwriteFileAtPathJournaled sb source destination)
  | renameOverwriteOnly .file true source destination => Effect.ignore
      (renameOverwriteLinkedFileAtPathJournaled sb source destination)
  | renameOverwriteOnly .symlink false source destination =>
    Effect.ignore (renameOverwriteSymlinkAtPathJournaled sb source destination)
  | renameOverwriteOnly .symlink true source destination => Effect.ignore
      (renameOverwriteLinkedSymlinkAtPathJournaled sb source destination)
  | renameOverwriteDirectory source destination => Effect.ignore
      (renameOverwriteDirectoryAtPathJournaled sb source destination)
  | exchange first second =>
    Effect.ignore (renameExchangeAtPathJournaled sb first second)
  | exchangeOnly .file first second =>
    Effect.ignore (renameExchangeFilesAtPathJournaled sb first second)
  | exchangeOnly .symlink first second =>
    Effect.ignore (renameExchangeSymlinksAtPathJournaled sb first second)
  | exchangeOnly .directory first second =>
    Effect.ignore (renameExchangeDirectoriesAtPathJournaled sb first second)

/-- What a call does to the names.  A plain rename finds its destination free. -/
def Acts (v v' : Volume) : NameCall → Prop
  | hardLink follow source destination => ∃ id key,
      v.Resolves source (follow = .followFinal) id ∧ v.KeyAt destination key ∧
      v.Links v' key id
  | hardLinkTo kind source destination => ∃ id key n,
      v.Resolves source (kind.kind = .file) id ∧ v.node id = some n ∧
      n.kind = kind.kind ∧ v.KeyAt destination key ∧ v.Links v' key id
  | unlink path => ∃ key kind, v.KeyAt path key ∧ kind ≠ .directory ∧
      v.Lone key kind ∧ v.Unlinks v' key
  | unlinkOnly kind path => ∃ key, v.KeyAt path key ∧ v.Lone key kind.kind ∧
      v.Unlinks v' key
  | removeDirectory path => ∃ key, v.SlashKeyAt path key ∧
      v.Lone key .directory ∧ v.Unlinks v' key
  | removeDirectoryTree path => ∃ key, v.SlashKeyAt path key ∧ v.Prunes v' key
  | rename source destination => ∃ s t, v.SlashKeyAt source s ∧
      v.SlashKeyAt destination t ∧ (s = t ∨ v.name t = none) ∧ v.Renames v' s t
  | renameOverwrite source destination
  | renamePosix source destination
  | renameOverwriteDirectory source destination => ∃ s t,
      v.SlashKeyAt source s ∧ v.SlashKeyAt destination t ∧ v.Renames v' s t
  | renameOverwriteOnly _ _ source destination => ∃ s t, v.KeyAt source s ∧
      v.KeyAt destination t ∧ v.Renames v' s t
  | exchange first second
  | exchangeOnly .directory first second => ∃ s t, v.SlashKeyAt first s ∧
      v.SlashKeyAt second t ∧ v' = v.exchanged s t
  | exchangeOnly _ first second => ∃ s t, v.KeyAt first s ∧ v.KeyAt second t ∧
      v' = v.exchanged s t

/-- Every call keeps it that directories have one name. -/
theorem Acts.treelike {call : NameCall} {v v' : Volume} (h : call.Acts v v')
    (ht : v.Treelike) : v'.Treelike := by
  cases call with
  | hardLink =>
    obtain ⟨_, _, _, _, hlinks⟩ := h
    exact hlinks.treelike ht
  | hardLinkTo =>
    obtain ⟨_, _, _, _, _, _, _, hlinks⟩ := h
    exact hlinks.treelike ht
  | unlink =>
    obtain ⟨_, _, _, _, _, hunlinks⟩ := h
    exact hunlinks.treelike ht
  | unlinkOnly =>
    obtain ⟨_, _, _, hunlinks⟩ := h
    exact hunlinks.treelike ht
  | removeDirectory =>
    obtain ⟨_, _, _, hunlinks⟩ := h
    exact hunlinks.treelike ht
  | removeDirectoryTree =>
    obtain ⟨_, _, hprunes⟩ := h
    exact hprunes.treelike ht
  | rename =>
    obtain ⟨_, _, _, _, _, hrenames⟩ := h
    exact hrenames.treelike ht
  | renameOverwrite =>
    obtain ⟨_, _, _, _, hrenames⟩ := h
    exact hrenames.treelike ht
  | renamePosix =>
    obtain ⟨_, _, _, _, hrenames⟩ := h
    exact hrenames.treelike ht
  | renameOverwriteOnly =>
    obtain ⟨_, _, _, _, hrenames⟩ := h
    exact hrenames.treelike ht
  | renameOverwriteDirectory =>
    obtain ⟨_, _, _, _, hrenames⟩ := h
    exact hrenames.treelike ht
  | exchange =>
    obtain ⟨s, t, _, _, rfl⟩ := h
    exact ht.exchanged s t
  | exchangeOnly kind =>
    cases kind with
    | file =>
      obtain ⟨s, t, _, _, rfl⟩ := h
      exact ht.exchanged s t
    | directory =>
      obtain ⟨s, t, _, _, rfl⟩ := h
      exact ht.exchanged s t
    | symlink =>
      obtain ⟨s, t, _, _, rfl⟩ := h
      exact ht.exchanged s t

end NameCall

/-! ## Names on a mounted disk -/

section Mounted

variable {d d' : Disk} {sb : Superblock} {a : BlockAllocator}
  {inodes : List PersistedInode} {entries : List PersistedDirectoryEntry}
  {path label : String} {key s t : UInt64 × String}

theorem Mounted.slashKeyAt (h : Mounted d sb a inodes entries)
    (hkey : SelectsKey d sb label path key) :
    (volumeOf sb d).SlashKeyAt path key := by
  obtain ⟨stripped, intent, parentPath, hpath, hsplit, hparent⟩ := hkey
  exact ⟨_, stripped, intent, hpath, h.keyAt hsplit hparent⟩

/-- The directories of the volume have one name if those of the table have one
entry. -/
theorem Mounted.singleEntries (h : Mounted d sb a inodes entries)
    (ht : (volumeOf sb d).Treelike) : SingleEntries inodes entries := by
  intro entry hentry hkind other hother htarget
  have hkeys := ht entry.target (other.parent, other.name)
    (entry.parent, entry.name) (h.node_of_kindOf.mp hkind)
    (h.name_eq_some.mpr (by rw [← htarget]; exact hother))
    (h.name_eq_some.mpr hentry)
  exact h.entry_unique hother hentry (congrArg Prod.fst hkeys)
    (congrArg Prod.snd hkeys)

/-- An entry without entries below its target. -/
theorem Childless.lone {parent : UInt64} {name : String} {kind : InodeKind}
    (hc : Childless inodes entries parent name kind)
    (h : Mounted d sb a inodes entries) :
    (volumeOf sb d).Lone (parent, name) kind := by
  obtain ⟨target, hentry, hkind, hchild⟩ := hc
  obtain ⟨inode, hmem, hid, hkind⟩ := (kindOf_eq_some h.nodup_ids).mp hkind
  refine ⟨target, nodeOf d inode, h.name_eq_some.mpr hentry,
    h.node_eq_some.mpr ⟨inode, hmem, hid, rfl⟩, ?_, ?_⟩
  · rw [nodeOf_kind, hkind]
  · intro text
    rw [Option.eq_none_iff_forall_not_mem]
    intro id hid
    exact hchild _ (h.name_eq_some.mp hid) rfl

theorem HardLinked.links {parent target : UInt64} {name : String}
    {kind : InodeKind}
    (hl : HardLinked sb d d' a inodes entries parent name target kind)
    (h : Mounted d sb a inodes entries) (hkind : kind ≠ .directory) :
    Consistent sb d' ∧
      (volumeOf sb d).Links (volumeOf sb d') (parent, name) target := by
  refine ⟨⟨a, inodes, _, hl.mounted⟩, hl.became.links h hl.mounted ?_⟩
  rw [hl.kind_eq]
  simpa using hkind

/-- A linked node has the kind that the call asks for. -/
theorem HardLinked.exists_node {parent target : UInt64} {name : String}
    {kind : InodeKind}
    (hl : HardLinked sb d d' a inodes entries parent name target kind)
    (h : Mounted d sb a inodes entries) :
    ∃ n, (volumeOf sb d).node target = some n ∧ n.kind = kind := by
  obtain ⟨inode, hmem, hid, hkind⟩ :=
    (kindOf_eq_some h.nodup_ids).mp hl.kind_eq
  refine ⟨nodeOf d inode, h.node_eq_some.mpr ⟨inode, hmem, hid, rfl⟩, ?_⟩
  rw [nodeOf_kind, hkind]

/-- A move, once it has settled. -/
theorem Mounted.leaves_of_settles (h : Mounted d sb a inodes entries)
    (ht : (volumeOf sb d).Treelike) {spec : Volume → Volume → Prop}
    (hsettles : Settles sb d' fun d'' => Moved sb d d'' a inodes entries s t ∧
      (SingleEntries inodes entries → MoveSafe entries s t))
    (hspec : ∀ v', (volumeOf sb d).Renames v' s t → spec (volumeOf sb d) v') :
    Leaves sb spec d d' := by
  obtain ⟨report, d'', hrecover, hmoved, hsafe⟩ := hsettles
  have hdisk : recoveredDisk sb d' = d'' := by
    rw [recoveredDisk, hrecover]
  have hconsistent := hmoved.consistent h (hsafe (h.singleEntries ht))
  unfold Leaves
  rw [hdisk]
  exact ⟨hconsistent, hspec _ (hmoved.renames h hconsistent)⟩

/-- A move that is stored and checkpointed. -/
theorem Mounted.leaves_of_moved (h : Mounted d sb a inodes entries)
    {spec : Volume → Volume → Prop} (hmoved : Moved sb d d' a inodes entries s t)
    (hsafe : MoveSafe entries s t)
    (hspec : ∀ v', (volumeOf sb d).Renames v' s t → spec (volumeOf sb d) v') :
    Leaves sb spec d d' := by
  have hconsistent := hmoved.consistent h hsafe
  exact hconsistent.leaves (hspec _ (hmoved.renames h hconsistent))

/-- An exchange of two names on a volume whose directories have one name. -/
theorem Mounted.exchangeByKind (h : Mounted d sb a inodes entries)
    (ht : (volumeOf sb d).Treelike) {policy : ExchangeTargetPolicy}
    (hpolicy : policy.kind ≠ .directory ∨ policy.rejectDirectoryCycles = true)
    {spec : Volume → Volume → Prop}
    (hspec : spec (volumeOf sb d) ((volumeOf sb d).exchanged s t)) :
    Effect.Atomic (renameExchangeByKindJournaled sb s.1 s.2 t.1 t.2 policy) d
      fun _ d' => Leaves sb spec d d' := by
  apply (h.renameExchange_safe s.1 s.2 t.1 t.2 policy).mono
  intro _ d' hpost
  obtain ⟨hexchanged, hsafe⟩ := hpost
  have hsafe := hsafe (hpolicy.imp_right fun hreject =>
    ⟨hreject, h.singleEntries ht⟩)
  have hconsistent := hexchanged.consistent h hsafe
  apply hconsistent.leaves
  rw [hexchanged.exchanges h hconsistent]
  exact hspec

end Mounted

/-! ## First parts -/

section Entries

variable {sb : Superblock}

theorem entry_enterKey (messages : SplitMessages) (path : String) :
    Entry sb (enterKey messages sb path) fun v key => v.KeyAt path key := by
  apply Entry.check
  intro parts hsplit
  apply Finds.entryChecked
  refine ⟨fun d => Effect.bind_snd_of_unchanged rfl fun _ => rfl, ?_⟩
  intro d a inodes entries key h hrun
  rw [Effect.query_bind] at hrun
  split at hrun
  · rename_i parent hparent
    obtain rfl : (parent, parts.2) = key := Except.ok.inj hrun
    exact h.keyAt hsplit hparent
  · cases hrun

theorem entry_enterKeys (first second : SplitMessages)
    (firstPath secondPath : String) :
    Entry sb (enterKeys first second sb firstPath secondPath)
      fun v keys => v.KeyAt firstPath keys.1 ∧ v.KeyAt secondPath keys.2 := by
  apply Entry.check
  intro parts hsplit
  apply Entry.check
  intro parts' hsplit'
  apply Finds.entryChecked
  refine ⟨fun d => Effect.bind_snd_of_unchanged rfl fun _ =>
    Effect.bind_snd_of_unchanged rfl fun _ => rfl, ?_⟩
  intro d a inodes entries keys h hrun
  rw [Effect.query_bind] at hrun
  split at hrun
  · rename_i parent hparent
    rw [Effect.query_bind] at hrun
    split at hrun
    · rename_i parent' hparent'
      obtain rfl : ((parent, parts.2), (parent', parts'.2)) = keys :=
        Except.ok.inj hrun
      exact ⟨h.keyAt hsplit hparent, h.keyAt hsplit' hparent'⟩
    · cases hrun
  · cases hrun

end Entries

/-! ## Links -/

section Links

variable {sb : Superblock} {source destination : String}

theorem HardLinkSourceFollow.resolve_eq (follow : HardLinkSourceFollow)
    (d : Disk) : follow.resolve d sb source =
      resolvePath d sb source (follow = .followFinal) := by
  cases follow <;> rfl

theorem performs_hardLink (follow : HardLinkSourceFollow) :
    Performs sb Volume.Treelike
      (Effect.abortable ((NameCall.hardLink follow source destination).run sb))
      fun _ v v' => (NameCall.hardLink follow source destination).Acts v v' := by
  show Performs _ _ (Effect.abortable (Effect.ignore (liftM _ >>= _))) _
  rw [Effect.ignore_bind]
  apply performs_lift
  intro _ _
  apply performs_abortable fun _ _ _ hacts => hacts.treelike
  · exact fun hd => hd.entered_recoverChecked.bind _
  · intro d a inodes entries h
    apply guarded_map.mpr
    apply guarded_recovered h.vacant
    intro _
    simp only [guarded_query_bind, guarded_lift_bind]
    intro target _ inodes _ inode _ parts _ parent _
    split <;> simp
  · intro d a inodes entries h _
    apply Effect.Atomic.ignored
    apply Effect.atomic_bind_of_ok h.recoverChecked
    apply Effect.atomic_query_bind
    intro target htarget
    rw [follow.resolve_eq] at htarget
    apply h.atomic_inodes
    apply Effect.atomic_lift_bind
    intro inode _
    apply Effect.atomic_lift_bind
    intro parts hsplit
    apply Effect.atomic_query_bind
    intro parent hparent
    have hlinks : ∀ {op : DevM Disk RecoveryReport} {kind : InodeKind},
        kind ≠ .directory →
        Effect.Atomic op d (fun _ d' =>
          HardLinked sb d d' a inodes entries parent parts.2 target kind) →
        Effect.Atomic op d fun _ d' => Leaves sb (fun v v' =>
          (NameCall.hardLink follow source destination).Acts v v') d d' := by
      intro op kind hkind hatomic
      apply hatomic.mono
      intro _ d' hlinked
      obtain ⟨hconsistent, hlinks⟩ := hlinked.links h hkind
      exact hconsistent.leaves ⟨target, _, h.resolvePath_eq_ok.mp htarget,
        h.keyAt hsplit hparent, hlinks⟩
    split
    · exact hlinks (by decide) (h.hardLinkFile parent parts.2 target)
    · exact hlinks (by decide) (h.hardLinkSymlink parent parts.2 target)
    · exact .inl ⟨_, rfl⟩

/-- The endpoints of a link, by the volume. -/
theorem entry_hardLinkEndpoints (follow : HardLinkSourceFollow) :
    Entry sb (hardLinkEndpoints sb source destination follow) fun v r =>
      v.Resolves source (follow = .followFinal) r.1 ∧
        v.KeyAt destination (r.2.1, r.2.2) := by
  apply Entry.check
  intro _ _
  apply Finds.entryChecked
  refine ⟨fun d => Effect.bind_snd_of_unchanged rfl fun _ =>
    Effect.bind_snd_of_unchanged rfl fun _ =>
      Effect.bind_snd_of_unchanged rfl fun _ => rfl, ?_⟩
  intro d a inodes entries r h hrun
  rw [Effect.query_bind] at hrun
  split at hrun
  case h_2 => cases hrun
  rename_i target htarget
  rw [follow.resolve_eq] at htarget
  rw [Effect.lift_bind] at hrun
  split at hrun
  case h_2 => cases hrun
  rename_i parts hsplit
  rw [Effect.query_bind] at hrun
  split at hrun
  case h_2 => cases hrun
  rename_i parent hparent
  obtain rfl : (target, parent, parts.2) = r := Except.ok.inj hrun
  exact ⟨h.resolvePath_eq_ok.mp htarget, h.keyAt hsplit hparent⟩

theorem performs_hardLinkTo (kind : LinkKind) :
    Performs sb Volume.Treelike
      (Effect.abortable ((NameCall.hardLinkTo kind source destination).run sb))
      fun _ v v' => (NameCall.hardLinkTo kind source destination).Acts v v' := by
  cases kind with
  | file =>
    apply (entry_hardLinkEndpoints .followFinal).performs
      fun _ _ hacts => NameCall.Acts.treelike hacts
    · intro r d a inodes entries _
      simp
    · intro r d a inodes entries h _ hr
      apply (h.hardLinkFile r.2.1 r.2.2 r.1).mono
      intro _ d' hlinked
      obtain ⟨hconsistent, hlinks⟩ := hlinked.links h (by decide)
      obtain ⟨n, hnode, hkind⟩ := hlinked.exists_node h
      exact hconsistent.leaves ⟨r.1, _, n, hr.1, hnode, hkind, hr.2, hlinks⟩
  | symlink =>
    apply (entry_hardLinkEndpoints .noFollowFinal).performs
      fun _ _ hacts => NameCall.Acts.treelike hacts
    · intro r d a inodes entries _
      simp
    · intro r d a inodes entries h _ hr
      apply (h.hardLinkSymlink r.2.1 r.2.2 r.1).mono
      intro _ d' hlinked
      obtain ⟨hconsistent, hlinks⟩ := hlinked.links h (by decide)
      obtain ⟨n, hnode, hkind⟩ := hlinked.exists_node h
      exact hconsistent.leaves ⟨r.1, _, n, hr.1, hnode, hkind, hr.2, hlinks⟩

end Links

/-! ## Removals -/

section Removals

variable {sb : Superblock} {path : String}

theorem performs_unlink :
    Performs sb Volume.Treelike
      (Effect.abortable ((NameCall.unlink path).run sb))
      fun _ v v' => (NameCall.unlink path).Acts v v' := by
  apply performs_abortable fun _ _ _ hacts => NameCall.Acts.treelike hacts
  · exact fun hd =>
      (entered_lift_bind fun _ _ => hd.entered_recoverChecked).bind _
  · intro d a inodes entries h
    apply guarded_map.mpr
    unfold unlinkAtPathJournaled unlinkDispatch
    rw [guarded_lift_bind]
    intro parts _
    apply guarded_recovered h.vacant
    intro _
    simp only [guarded_query_bind, guarded_lift_bind]
    intro parent _ entries _ entry _ inodes _ inode _
    split <;> simp
  · intro d a inodes entries h _
    apply Effect.Atomic.ignored
    apply (h.unlinkAtPath_leaf path).mono
    intro _ d' hpost
    obtain ⟨parentPath, parent, name, hsplit, hparent, hunlinked, kind, hleaf,
      hlone⟩ := hpost
    exact hunlinked.consistent.leaves ⟨_, kind, h.keyAt hsplit hparent, hleaf,
      hlone.lone h, hunlinked.unlinks h⟩

theorem performs_unlinkOnly (kind : LinkKind) :
    Performs sb Volume.Treelike
      (Effect.abortable ((NameCall.unlinkOnly kind path).run sb))
      fun _ v v' => (NameCall.unlinkOnly kind path).Acts v v' := by
  cases kind with
  | file =>
    apply (entry_enterKey unlinkSplit path).performs
      fun _ _ hacts => NameCall.Acts.treelike hacts
    · intro key d a inodes entries _
      simp
    · intro key d a inodes entries h _ hkey
      apply (h.unlinkFile key.1 key.2).mono
      intro _ d' hpost
      exact hpost.1.consistent.leaves
        ⟨key, hkey, hpost.2.lone h, hpost.1.unlinks h⟩
  | symlink =>
    apply (entry_enterKey symlinkSplit path).performs
      fun _ _ hacts => NameCall.Acts.treelike hacts
    · intro key d a inodes entries _
      simp
    · intro key d a inodes entries h _ hkey
      apply (h.unlinkSymlink key.1 key.2).mono
      intro _ d' hpost
      exact hpost.1.consistent.leaves
        ⟨key, hkey, hpost.2.lone h, hpost.1.unlinks h⟩

theorem performs_removeDirectory :
    Performs sb Volume.Treelike
      (Effect.abortable ((NameCall.removeDirectory path).run sb))
      fun _ v v' => (NameCall.removeDirectory path).Acts v v' := by
  show Performs _ _ (Effect.abortable (Effect.ignore (liftM _ >>= _))) _
  rw [Effect.ignore_bind]
  apply performs_lift
  rintro ⟨stripped, intent⟩ hstripped
  apply (entry_enterKey unlinkSplit stripped).performs
    fun _ _ hacts => NameCall.Acts.treelike hacts
  · intro key d a inodes entries _
    simp
  · intro key d a inodes entries h _ hkey
    apply (h.removeDirectory_empty key.1 key.2).mono
    intro _ d' hpost
    exact hpost.1.consistent.leaves ⟨key, ⟨_, stripped, intent, hstripped, hkey⟩,
      hpost.2.lone h, hpost.1.unlinks h⟩

/-- The removal of a tree checks the device at its end, which succeeds on a
mounted disk. -/
theorem Mounted.guarded_removeDirectoryTree {d : Disk} {a : BlockAllocator}
    {inodes : List PersistedInode} {entries : List PersistedDirectoryEntry}
    (h : Mounted d sb a inodes entries) (parent : UInt64) (name : String) :
    Guarded sb (removeDirectoryTreeJournaled sb parent name) d := by
  have hatomic := h.removeDirectoryTree parent name
  have heq := @Mounted.removeDirectoryTree_eq d sb a inodes entries parent name h
  cases hplan : buildRecursiveRemovePlan a inodes entries parent name with
  | error e =>
    rw [hplan] at heq
    exact guarded_of_unchanged (by rw [heq])
  | ok plan =>
    rw [hplan] at heq
    dsimp only at heq
    apply @Guarded.congr _ _ sb d (FilesystemLab.publishRecursiveRemove sb plan) _ _ heq
    unfold Effect.Atomic at hatomic
    rw [heq] at hatomic
    unfold FilesystemLab.publishRecursiveRemove at hatomic ⊢
    rw [guarded_lift_bind]
    intro _ haudit
    rw [Effect.lift_bind_of_ok haudit] at hatomic
    apply (guarded_storeCreateMetadata plan.allocator plan.desiredInodes
      plan.desiredEntries d).bind_checked
    · intro transaction d'
      exact Effect.bind_snd_of_unchanged rfl fun _ =>
        Effect.bind_snd_of_unchanged rfl fun _ => rfl
    · rcases hatomic with ⟨e, herror⟩ | ⟨r, d', hok, _⟩
      · exact .inr (by rw [herror])
      · exact .inl ⟨r, by rw [hok]⟩

theorem performs_removeDirectoryTree :
    Performs sb Volume.Treelike
      (Effect.abortable ((NameCall.removeDirectoryTree path).run sb))
      fun _ v v' => (NameCall.removeDirectoryTree path).Acts v v' := by
  show Performs _ _ (Effect.abortable (Effect.ignore (liftM _ >>= _))) _
  rw [Effect.ignore_bind]
  apply performs_lift
  rintro ⟨stripped, intent⟩ hstripped
  apply (entry_enterKey unlinkSplit stripped).performs
    fun _ _ hacts => NameCall.Acts.treelike hacts
  · exact fun h => h.guarded_removeDirectoryTree _ _
  · intro key d a inodes entries h _ hkey
    apply (h.removeDirectoryTree key.1 key.2).mono
    intro _ d' hpost
    exact hpost.1.leaves
      ⟨key, ⟨_, stripped, intent, hstripped, hkey⟩, hpost.2⟩

end Removals

/-! ## Renames -/

section Renames

variable {sb : Superblock} {d : Disk} {view : Nat → Block}
  {operation source destination : String} {call : NameCall}

/-- The endpoints are found before anything is written. -/
theorem renameEndpoints_unchanged (hvacant : journalOf sb d.blocks = .ok []) :
    (renameEndpoints sb operation source destination d).2 = d := by
  unfold renameEndpoints
  apply Effect.bind_snd_of_unchanged rfl
  intro _
  apply Effect.bind_snd_of_unchanged rfl
  intro _
  apply Effect.bind_snd_of_unchanged rfl
  intro _
  apply Effect.bind_snd_of_unchanged rfl
  intro _
  apply Effect.bind_snd_of_unchanged (recoverChecked_unchanged hvacant)
  intro _
  apply Effect.bind_snd_of_unchanged rfl
  intro _
  exact Effect.bind_snd_of_unchanged rfl fun _ => rfl

/-- The endpoints carry the report of the recovery.  What follows may return it,
but it does nothing else with it. -/
theorem entered_renameEndpoints (hd : Holding sb d view)
    {k : RenameEndpoints → DevM Disk Unit}
    (hk : ∀ r report, k { r with recovery := report } = k r) :
    Entered sb (renameEndpoints sb operation source destination >>= k) d := by
  have hpure : ∀ r, (pure r >>= k) = k r := fun _ => rfl
  unfold renameEndpoints
  simp only [Effect.bind_assoc, hpure]
  apply entered_lift_bind
  intro s _
  apply entered_lift_bind
  intro t _
  apply entered_lift_bind
  intro sourceParts _
  apply entered_lift_bind
  intro destinationParts _
  have hreport : ∀ report oldParent newParent,
      k ⟨report, s.2 || t.2, oldParent, sourceParts.2, newParent,
        destinationParts.2⟩ =
      k ⟨RecoveryReport.default, s.2 || t.2, oldParent, sourceParts.2,
        newParent, destinationParts.2⟩ := by
    intro report oldParent newParent
    exact hk ⟨RecoveryReport.default, s.2 || t.2, oldParent, sourceParts.2,
      newParent, destinationParts.2⟩ report
  simp only [hreport]
  exact hd.entered_recoverChecked

/-- A rename, from what it does after its endpoints are found. -/
theorem performs_renameEndpoints
    {f : RenameEndpoints → DevM Disk RecoveryReport}
    (hreport : ∀ r report,
      Effect.ignore (f { r with recovery := report }) = Effect.ignore (f r))
    (hguarded : ∀ {d}, journalOf sb d.blocks = .ok [] →
      Guarded sb (renameEndpoints sb operation source destination >>= f) d)
    (hatomic : ∀ {d a inodes entries}, Mounted d sb a inodes entries →
      (volumeOf sb d).Treelike → Effect.Atomic
        (renameEndpoints sb operation source destination >>= f) d
        fun _ d' => Leaves sb (fun v v' => call.Acts v v') d d') :
    Performs sb Volume.Treelike (Effect.abortable (Effect.ignore
        (renameEndpoints sb operation source destination >>= f)))
      fun _ v v' => call.Acts v v' := by
  apply performs_abortable fun _ _ _ hacts => NameCall.Acts.treelike hacts
  · intro d view hd
    rw [Effect.ignore_bind]
    exact entered_renameEndpoints hd hreport
  · intro d a inodes entries h
    exact guarded_map.mpr (hguarded h.vacant)
  · intro d a inodes entries h ht
    exact (hatomic h ht).ignored

theorem guarded_renameAtPath (hvacant : journalOf sb d.blocks = .ok []) :
    Guarded sb (renameAtPathJournaled sb source destination) d := by
  unfold renameAtPathJournaled
  rw [guarded_bind_unchanged (renameEndpoints_unchanged hvacant)]
  simp

theorem guarded_renameOverwriteAtPath
    (hvacant : journalOf sb d.blocks = .ok []) :
    Guarded sb (renameOverwriteAtPathJournaled sb source destination) d := by
  unfold renameOverwriteAtPathJournaled
  rw [guarded_bind_unchanged (renameEndpoints_unchanged hvacant)]
  intro r _
  simp only [guarded_query_bind, guarded_lift_bind]
  intro entries _ sourceEntry _ destinationEntry _ inodes _ sourceInode _
    destinationInode _ _ _ _ _
  split
  · exact guarded_renameOverwriteImpl _ _ _ _ ⟨.file, false⟩
  · exact guarded_renameOverwriteImpl _ _ _ _ ⟨.file, true⟩
  · exact guarded_renameOverwriteImpl _ _ _ _ ⟨.symlink, false⟩
  · exact guarded_renameOverwriteImpl _ _ _ _ ⟨.symlink, true⟩
  · exact guarded_renameOverwriteDirectory _ _ _ _

theorem guarded_renamePosixAtPath (hvacant : journalOf sb d.blocks = .ok []) :
    Guarded sb (renamePosixAtPathJournaled sb source destination) d := by
  unfold renamePosixAtPathJournaled
  rw [guarded_bind_unchanged (renameEndpoints_unchanged hvacant)]
  intro r _
  simp only [guarded_query_bind, guarded_lift_bind]
  intro entries _ sourceEntry _
  split
  · exact guarded_renameAtPath hvacant
  · simp only [guarded_ite, guarded_query_bind, guarded_lift_bind]
    refine ⟨fun _ _ _ => guarded_pure _, ?_⟩
    intro _ inodes _ sourceInode _ destinationInode _ _ _
    split
    · exact guarded_renameOverwriteAtPath hvacant
    · exact guarded_of_unchanged rfl
    · exact guarded_of_unchanged rfl
    · simp

theorem performs_rename :
    Performs sb Volume.Treelike
      (Effect.abortable ((NameCall.rename source destination).run sb))
      fun _ v v' => (NameCall.rename source destination).Acts v v' := by
  apply performs_renameEndpoints (fun _ _ => rfl) guarded_renameAtPath
  intro d a inodes entries h ht
  apply (h.renameAtPath source destination).mono
  intro _ d' hpost
  obtain ⟨s, t, hs, ht', hfree, report, d'', hrecover, hmoved, hsafe⟩ := hpost
  apply h.leaves_of_settles ht
    ⟨report, d'', hrecover, hmoved, fun _ => hsafe⟩
  intro v' hrenames
  refine ⟨s, t, h.slashKeyAt hs, h.slashKeyAt ht', ?_, hrenames⟩
  rw [h.name_eq]
  exact hfree

theorem performs_renameOverwrite :
    Performs sb Volume.Treelike
      (Effect.abortable ((NameCall.renameOverwrite source destination).run sb))
      fun _ v v' => (NameCall.renameOverwrite source destination).Acts v v' := by
  apply performs_renameEndpoints (fun _ _ => rfl) guarded_renameOverwriteAtPath
  intro d a inodes entries h ht
  apply (h.renameOverwriteAtPath source destination).mono
  intro _ d' hpost
  obtain ⟨s, t, hs, ht', hmoved, hsafe⟩ := hpost
  apply h.leaves_of_moved hmoved (hsafe (h.singleEntries ht))
  exact fun v' hrenames =>
    ⟨s, t, h.slashKeyAt hs, h.slashKeyAt ht', hrenames⟩

theorem performs_renamePosix :
    Performs sb Volume.Treelike
      (Effect.abortable ((NameCall.renamePosix source destination).run sb))
      fun _ v v' => (NameCall.renamePosix source destination).Acts v v' := by
  refine performs_renameEndpoints ?_ guarded_renamePosixAtPath ?_
  · -- two names of one inode: the report is the reply
    intro r report
    simp only [Effect.ignore_bind]
    congr 1
    funext entries
    congr 1
    funext sourceEntry
    split
    · rfl
    · split
      · rw [Effect.ignore_bind, Effect.ignore_bind]
        rfl
      · rfl
  · intro d a inodes entries h ht
    apply (h.renamePosixAtPath_safe source destination).mono
    intro _ d' hpost
    obtain ⟨s, t, hs, ht', hsettles⟩ := hpost
    exact h.leaves_of_settles ht hsettles fun v' hrenames =>
      ⟨s, t, h.slashKeyAt hs, h.slashKeyAt ht', hrenames⟩

/-- A rename over a file or a symbolic link, for each of the four policies. -/
theorem performs_overwriteEntered {kind : LinkKind} {linked : Bool}
    (policy : RenameOverwritePolicy)
    (hpolicy : policy.expectedKind ≠ .directory) :
    Performs sb Volume.Treelike (Effect.abortable (Effect.ignore
      (resolveRenameOverwriteParents sb source destination >>= fun keys =>
        renameOverwriteImpl sb keys.1.1 keys.1.2 keys.2.1 keys.2.2 policy)))
      fun _ v v' => (NameCall.renameOverwriteOnly kind linked source
        destination).Acts v v' := by
  apply (entry_enterKeys _ _ source destination).performs
    fun _ _ hacts => NameCall.Acts.treelike hacts
  · intro keys d a inodes entries _
    simp
  · intro keys d a inodes entries h _ hkeys
    apply (h.renameOverwriteImpl _ _ _ _ hpolicy).mono
    intro _ d' hpost
    exact h.leaves_of_moved hpost.1 hpost.2 fun v' hrenames =>
      ⟨_, _, hkeys.1, hkeys.2, hrenames⟩

theorem performs_renameOverwriteOnly (kind : LinkKind) (linked : Bool) :
    Performs sb Volume.Treelike (Effect.abortable
      ((NameCall.renameOverwriteOnly kind linked source destination).run sb))
      fun _ v v' => (NameCall.renameOverwriteOnly kind linked source
        destination).Acts v v' := by
  cases kind with
  | file =>
    cases linked with
    | false => exact performs_overwriteEntered ⟨.file, false⟩ (by decide)
    | true => exact performs_overwriteEntered ⟨.file, true⟩ (by decide)
  | symlink =>
    cases linked with
    | false => exact performs_overwriteEntered ⟨.symlink, false⟩ (by decide)
    | true => exact performs_overwriteEntered ⟨.symlink, true⟩ (by decide)

theorem performs_renameOverwriteDirectory :
    Performs sb Volume.Treelike (Effect.abortable
      ((NameCall.renameOverwriteDirectory source destination).run sb))
      fun _ v v' =>
        (NameCall.renameOverwriteDirectory source destination).Acts v v' := by
  show Performs _ _ (Effect.abortable (Effect.ignore (liftM _ >>= _))) _
  rw [Effect.ignore_bind]
  apply performs_lift
  rintro ⟨stripped, intent⟩ hstripped
  rw [Effect.ignore_bind]
  apply performs_lift
  rintro ⟨stripped', intent'⟩ hstripped'
  apply (entry_enterKeys _ _ stripped stripped').performs
    fun _ _ hacts => NameCall.Acts.treelike hacts
  · intro keys d a inodes entries _
    simp
  · intro keys d a inodes entries h ht hkeys
    apply (h.renameOverwriteDirectory_safe _ _ _ _).mono
    intro _ d' hpost
    apply h.leaves_of_moved hpost.1 (hpost.2 (h.singleEntries ht))
    exact fun v' hrenames => ⟨_, _, ⟨_, stripped, intent, hstripped, hkeys.1⟩,
      ⟨_, stripped', intent', hstripped', hkeys.2⟩, hrenames⟩

end Renames

/-! ## Exchanges -/

section Exchanges

variable {sb : Superblock} {firstPath secondPath : String} {call : NameCall}

/-- An exchange of two entries of one kind. -/
theorem performs_exchangeEntered {policy : ExchangeTargetPolicy}
    (hpolicy : policy.kind ≠ .directory ∨ policy.rejectDirectoryCycles = true)
    (hspec : ∀ v s t, v.KeyAt firstPath s → v.KeyAt secondPath t →
      call.Acts v (v.exchanged s t)) :
    Performs sb Volume.Treelike (Effect.abortable (Effect.ignore
      (resolveExchangeParents sb firstPath secondPath >>= fun keys =>
        renameExchangeByKindJournaled sb keys.1.1 keys.1.2 keys.2.1 keys.2.2
          policy))) fun _ v v' => call.Acts v v' := by
  apply (entry_enterKeys _ _ firstPath secondPath).performs
    fun _ _ hacts => NameCall.Acts.treelike hacts
  · intro keys d a inodes entries _
    simp
  · intro keys d a inodes entries h ht hkeys
    exact h.exchangeByKind ht hpolicy (hspec _ _ _ hkeys.1 hkeys.2)

theorem performs_exchangeOnly (kind : InodeKind) :
    Performs sb Volume.Treelike (Effect.abortable
      ((NameCall.exchangeOnly kind firstPath secondPath).run sb)) fun _ v v' =>
        (NameCall.exchangeOnly kind firstPath secondPath).Acts v v' := by
  cases kind with
  | file =>
    apply performs_exchangeEntered (.inl (by decide))
    exact fun v s t hs ht => ⟨s, t, hs, ht, rfl⟩
  | symlink =>
    apply performs_exchangeEntered (.inl (by decide))
    exact fun v s t hs ht => ⟨s, t, hs, ht, rfl⟩
  | directory =>
    show Performs _ _ (Effect.abortable (Effect.ignore (liftM _ >>= _))) _
    rw [Effect.ignore_bind]
    apply performs_lift
    rintro ⟨stripped, intent⟩ hstripped
    rw [Effect.ignore_bind]
    apply performs_lift
    rintro ⟨stripped', intent'⟩ hstripped'
    apply performs_exchangeEntered (.inr rfl)
    exact fun v s t hs ht => ⟨s, t, ⟨_, stripped, intent, hstripped, hs⟩,
      ⟨_, stripped', intent', hstripped', ht⟩, rfl⟩

theorem performs_exchange :
    Performs sb Volume.Treelike (Effect.abortable
      ((NameCall.exchange firstPath secondPath).run sb)) fun _ v v' =>
        (NameCall.exchange firstPath secondPath).Acts v v' := by
  show Performs _ _ (Effect.abortable (Effect.ignore (liftM _ >>= _))) _
  rw [Effect.ignore_bind]
  apply performs_lift
  rintro ⟨stripped, intent⟩ hstripped
  rw [Effect.ignore_bind]
  apply performs_lift
  rintro ⟨stripped', intent'⟩ hstripped'
  apply (entry_enterKeys _ _ stripped stripped').performs
    fun _ _ hacts => NameCall.Acts.treelike hacts
  · intro keys d a inodes entries _
    simp only [guarded_query_bind, guarded_lift_bind]
    intro entries _ firstEntry _ secondEntry _ inodes _ firstInode _
      secondInode _ _ _ _ _
    split
    · exact guarded_renameExchangeByKind _ _ _ _ FILE_POLICY
    · exact guarded_renameExchangeByKind _ _ _ _ SYMLINK_POLICY
    · exact guarded_renameExchangeByKind _ _ _ _ DIRECTORY_POLICY
  · intro keys d a inodes entries h ht hkeys
    have hacts : (NameCall.exchange firstPath secondPath).Acts (volumeOf sb d)
        ((volumeOf sb d).exchanged keys.1 keys.2) :=
      ⟨_, _, ⟨_, stripped, intent, hstripped, hkeys.1⟩,
        ⟨_, stripped', intent', hstripped', hkeys.2⟩, rfl⟩
    apply h.atomic_entries
    apply Effect.atomic_lift_bind
    intro firstEntry _
    apply Effect.atomic_lift_bind
    intro secondEntry _
    apply h.atomic_inodes
    apply Effect.atomic_lift_bind
    intro firstInode _
    apply Effect.atomic_lift_bind
    intro secondInode _
    apply Effect.atomic_lift_bind
    intro _ _
    apply Effect.atomic_lift_bind
    intro _ _
    split
    · exact h.exchangeByKind ht (.inl (by decide)) hacts
    · exact h.exchangeByKind ht (.inl (by decide)) hacts
    · exact h.exchangeByKind ht (.inr rfl) hacts

end Exchanges

/-- **Every call that changes names performs its specification**, on a volume
whose directories have one name. -/
theorem performs_nameCall (sb : Superblock) (call : NameCall) :
    Performs sb Volume.Treelike (Effect.abortable (call.run sb))
      fun _ v v' => call.Acts v v' := by
  cases call with
  | hardLink follow _ _ => exact performs_hardLink follow
  | hardLinkTo kind _ _ => exact performs_hardLinkTo kind
  | unlink _ => exact performs_unlink
  | unlinkOnly kind _ => exact performs_unlinkOnly kind
  | removeDirectory _ => exact performs_removeDirectory
  | removeDirectoryTree _ => exact performs_removeDirectoryTree
  | rename _ _ => exact performs_rename
  | renameOverwrite _ _ => exact performs_renameOverwrite
  | renamePosix _ _ => exact performs_renamePosix
  | renameOverwriteOnly kind linked _ _ =>
    exact performs_renameOverwriteOnly kind linked
  | renameOverwriteDirectory _ _ => exact performs_renameOverwriteDirectory
  | exchange _ _ => exact performs_exchange
  | exchangeOnly kind _ _ => exact performs_exchangeOnly kind

end FilesystemLab
