import FilesystemLab.DiskVolume
import FilesystemLab.FileClone
import FilesystemLab.NamespaceRun
import FilesystemLab.RecursiveRemove
import FilesystemLab.VolumeNames

/-!
# What the operations on names do to a volume

Each outcome of an operation on the tables is a change of the names of the
volume.  A table with fewer inodes is a swept volume (`Became.volumeOf_swept`):
the inodes that stay are those that still have a name.
-/

namespace FilesystemLab

open Function

section Names

variable {d d' : Disk} {sb : Superblock} {a a' : BlockAllocator}
  {inodes inodes' : List PersistedInode}
  {entries entries' : List PersistedDirectoryEntry}
  {inode : PersistedInode} {id : UInt64}

theorem Mounted.node_eq_some (h : Mounted d sb a inodes entries) {n : Node} :
    (volumeOf sb d).node id = some n ↔
      ∃ inode ∈ inodes, inode.id = id ∧ nodeOf d inode = n := by
  rw [h.volume_eq, volumeWith_node]
  constructor
  · intro hnode
    obtain ⟨inode, hfind, hn⟩ := hnode
    exact ⟨inode, (findInode_eq_some hfind).1, (findInode_eq_some hfind).2, hn⟩
  · intro hnode
    obtain ⟨inode, hmem, rfl, hn⟩ := hnode
    exact ⟨inode, findInode_of_mem h.nodup_ids hmem, hn⟩

theorem Mounted.name_eq (h : Mounted d sb a inodes entries) :
    (volumeOf sb d).name = targetOf entries := by
  rw [h.volume_eq]
  rfl

theorem Mounted.name_eq_some (h : Mounted d sb a inodes entries)
    {key : UInt64 × String} :
    (volumeOf sb d).name key = some id ↔ ⟨key.1, id, key.2⟩ ∈ entries := by
  rw [h.name_eq, targetOf_eq_some h.nodup_keys]

/-- A directory of the tables is one of the volume. -/
theorem Mounted.node_of_kindOf (h : Mounted d sb a inodes entries) :
    kindOf inodes id = some .directory ↔
      (volumeOf sb d).node id = some .directory := by
  rw [h.node_eq_some, kindOf_eq_some h.nodup_ids]
  simp only [nodeOf_eq_directory]

/-- A node without an inode. -/
theorem Mounted.node_eq_none (h : Mounted d sb a inodes entries) :
    (volumeOf sb d).node id = none ↔ ∀ inode ∈ inodes, inode.id ≠ id := by
  rw [h.volume_eq]
  show (findInode inodes id).map _ = none ↔ _
  rw [Option.map_eq_none_iff, findInode_eq_none]

/-- An inode that has an entry is named. -/
theorem Mounted.named (h : Mounted d sb a inodes entries)
    (hmem : inode ∈ inodes) : (volumeOf sb d).Named inode.id := by
  by_cases hroot : inode.id = ROOT_INODE_ID
  · exact .inl hroot
  · obtain ⟨entry, hentry, htarget⟩ := h.tree.targeted hmem hroot
    refine .inr ⟨(entry.parent, entry.name), ?_⟩
    rw [h.name_eq_some, ← htarget]
    exact hentry

/-- A name stands for an inode. -/
theorem Mounted.exists_target (h : Mounted d sb a inodes entries)
    {key : UInt64 × String} (hname : targetOf entries key = some id) :
    ∃ inode ∈ inodes, inode.id = id :=
  kindOf_ne_none.mp (h.tree.target _ (mem_of_targetOf hname))

/-- **A table with fewer inodes is a swept volume.** -/
theorem Became.volumeOf_swept (hbecame : Became sb d d' a' inodes' entries' [])
    (h : Mounted d sb a inodes entries)
    (h' : Mounted d' sb a' inodes' entries')
    (hsub : ∀ inode ∈ inodes', inode ∈ inodes)
    (hroot : ∀ inode ∈ inodes, inode.id = ROOT_INODE_ID → inode ∈ inodes') :
    volumeOf sb d' =
      ({ volumeOf sb d with name := targetOf entries' } : Volume).swept := by
  refine Volume.ext ?_ h'.name_eq
  funext id
  have hname : ∀ id, (volumeOf sb d').Named id ↔
      ({ volumeOf sb d with name := targetOf entries' } : Volume).Named id := by
    intro id
    unfold Volume.Named
    rw [h'.name_eq]
  apply Option.ext
  intro n
  show (volumeOf sb d').node id = some n ↔ _
  rw [hbecame.volumeOf_eq h' h]
  show (volumeWith d inodes' entries').node id = some n ↔ _
  rw [volumeWith_node, Volume.swept_node_eq_some, ← hname]
  show _ ↔ _ ∧ (volumeOf sb d).node id = some n
  rw [h.node_eq_some]
  constructor
  · intro hnode
    obtain ⟨inode, hfind, hn⟩ := hnode
    obtain ⟨hmem, rfl⟩ := findInode_eq_some hfind
    exact ⟨h'.named hmem, inode, hsub inode hmem, rfl, hn⟩
  · intro hnode
    obtain ⟨hnamed, inode, hmem, rfl, hn⟩ := hnode
    refine ⟨inode, findInode_of_mem h'.nodup_ids ?_, hn⟩
    rcases hnamed with hid | ⟨key, hkey⟩
    · exact hroot inode hmem hid
    · rw [h'.name_eq] at hkey
      obtain ⟨other, hother, hid⟩ := h'.exists_target hkey
      obtain rfl := List.inj_on_of_nodup_map h.nodup_ids (hsub other hother)
        hmem hid
      exact hother

/-- The root stays if another inode goes. -/
theorem mem_filter_root {gone : UInt64} (hgone : gone ≠ ROOT_INODE_ID)
    (hmem : inode ∈ inodes) (hroot : inode.id = ROOT_INODE_ID) :
    inode ∈ inodes.filter fun other => other.id ∉ [gone] := by
  rw [List.mem_filter, decide_eq_true_eq, List.mem_singleton, hroot]
  exact ⟨hmem, hgone.symm⟩

/-- **An unlink takes a name away.** -/
theorem Unlinked.unlinks {parent : UInt64} {name : String}
    (hu : Unlinked sb d d' parent name) (h : Mounted d sb a inodes entries) :
    (volumeOf sb d).Unlinks (volumeOf sb d') (parent, name) := by
  obtain ⟨a₀, inodes₀, entries₀, entry, a', inodes', hrest, hentry, rfl, rfl,
    hbecame, hkept, hremoved, fsck, hcheck⟩ := hu
  obtain ⟨_, rfl, rfl, rfl⟩ := h.unique hrest
  have h' := (hbecame.toAtRest.checkDevice_iff.mp hcheck).1
  have hkey : (volumeOf sb d).name (entry.parent, entry.name) =
      some entry.target := h.name_eq_some.mpr hentry
  refine ⟨by rw [hkey]; exact Option.some_ne_none _, ?_⟩
  have hname : targetOf (entries.filter fun other => other ≠ entry) =
      ((volumeOf sb d).unbind (entry.parent, entry.name)).name := by
    funext key
    apply Option.ext
    intro id
    rw [targetOf_eq_some hbecame.toAtRest.nodup_keys, List.mem_filter,
      decide_eq_true_eq, Volume.unbind_name_eq_some, h.name_eq_some, and_comm]
    apply and_congr_left
    intro hother
    rw [not_iff_not]
    constructor
    · rintro rfl
      rfl
    · intro heq
      exact h.entry_unique hother hentry (congrArg Prod.fst heq)
        (congrArg Prod.snd heq)
  have hinodes : inodes' = inodes ∨
      inodes' = inodes.filter fun inode => inode.id ∉ [entry.target] := by
    by_cases hlast : ∀ other ∈ entries, other.target = entry.target →
        other = entry
    · exact .inr (hremoved hlast).1
    · push Not at hlast
      obtain ⟨other, hother, htarget, hne⟩ := hlast
      exact .inl (hkept ⟨other, hother, hne, htarget⟩).1
  have hroot := h.tree.target_ne_root hentry
  rw [hbecame.volumeOf_swept h h', hname]
  · rfl
  · intro inode hmem
    rcases hinodes with rfl | rfl
    · exact hmem
    · exact (List.mem_filter.mp hmem).1
  · intro inode hmem hid
    rcases hinodes with rfl | rfl
    · exact hmem
    · exact mem_filter_root hroot hmem hid

/-- **A rename moves a name.** -/
theorem Moved.renames {s t : UInt64 × String}
    (hm : Moved sb d d' a inodes entries s t)
    (h : Mounted d sb a inodes entries) (hc : Consistent sb d') :
    (volumeOf sb d).Renames (volumeOf sb d') s t := by
  obtain ⟨a', inodes', entries', hbecame, hren, _, hsub, _⟩ := hm
  obtain ⟨_, _, _, h'⟩ := hc
  obtain ⟨_, rfl, rfl, rfl⟩ := hbecame.toAtRest.unique h'.toAtRest
  have hvolume := hbecame.volumeOf_swept h h' (fun _ hmem => hsub.subset hmem) (by
    intro inode hmem hid
    by_cases hkept : ∀ gone, targetOf entries t = some gone →
        ∃ key, targetOf entries' key = some gone
    · rw [(hren.kept hkept).1]
      exact hmem
    · push Not at hkept
      obtain ⟨gone, hgone, hnone⟩ := hkept
      rw [(hren.removed gone hgone hnone).1]
      have hne := h.tree.target_ne_root (mem_of_targetOf hgone)
      exact mem_filter_root hne hmem hid)
  refine ⟨?_, ?_, ?_⟩
  · rw [h.name_eq]
    exact hren.source
  · intro hsame
    rw [h.name_eq] at hsame
    have hinodes : inodes' = inodes := by
      apply (hren.kept _).1
      intro gone hgone
      exact ⟨t, by rw [hren.same hsame, hgone]⟩
    have hentries := hren.same hsame
    subst hinodes
    rw [hbecame.volumeOf_eq h' h, h.volume_eq]
    exact Volume.ext rfl hentries
  · intro hne
    rw [h.name_eq] at hne
    rw [hvolume, hren.moved hne, ← h.name_eq]
    rfl

/-- **An exchange exchanges two names.** -/
theorem Exchanged.exchanges {s t : UInt64 × String}
    (hx : Exchanged sb d d' a inodes entries s t)
    (h : Mounted d sb a inodes entries) (hc : Consistent sb d') :
    volumeOf sb d' = (volumeOf sb d).exchanged s t := by
  obtain ⟨entries', hbecame, hname, _⟩ := hx
  obtain ⟨_, _, _, h'⟩ := hc
  obtain ⟨_, rfl, rfl, rfl⟩ := hbecame.toAtRest.unique h'.toAtRest
  rw [hbecame.volumeOf_eq h' h, h.volume_eq]
  exact Volume.ext rfl hname

/-! ## New nodes and links -/

/-- One more entry is one more name. -/
theorem names_append {parent : UInt64} {name : String}
    (h : Mounted d sb a inodes entries)
    (h' : Mounted d' sb a' inodes' (entries ++ [⟨parent, id, name⟩])) :
    (volumeOf sb d').name = ((volumeOf sb d).bind (parent, name) id).name := by
  funext key
  apply Option.ext
  intro target
  show (volumeOf sb d').name key = some target ↔ _
  rw [h'.name_eq_some, Volume.bind_name_eq_some, h.name_eq_some,
    List.mem_append, List.mem_singleton, PersistedDirectoryEntry.mk.injEq]
  -- the new key is not among the old ones
  have hnodup := h'.nodup_keys
  rw [List.map_append, List.nodup_append] at hnodup
  have hnew : ⟨key.1, target, key.2⟩ ∈ entries → key ≠ (parent, name) := by
    intro hmem heq
    exact hnodup.2.2 key (List.mem_map_of_mem hmem) (parent, name) (by simp
      [directoryFormat]) heq
  constructor
  · intro hentry
    rcases hentry with hold | ⟨hparent, htarget, hname⟩
    · exact .inr ⟨hnew hold, hold⟩
    · exact .inl ⟨Prod.ext hparent hname, htarget.symm⟩
  · intro hentry
    rcases hentry with ⟨rfl, rfl⟩ | ⟨_, hold⟩
    · exact .inr ⟨rfl, rfl, rfl⟩
    · exact .inl hold

/-- **A link is another name.** -/
theorem Became.links {parent : UInt64} {name : String}
    (hbecame : Became sb d d' a inodes (entries ++ [⟨parent, id, name⟩]) [])
    (h : Mounted d sb a inodes entries)
    (h' : Mounted d' sb a inodes (entries ++ [⟨parent, id, name⟩]))
    (hkind : kindOf inodes id ≠ some .directory) :
    (volumeOf sb d).Links (volumeOf sb d') (parent, name) id := by
  have hentry : (⟨parent, id, name⟩ : PersistedDirectoryEntry) ∈
      entries ++ [⟨parent, id, name⟩] := by simp
  have hnodup := h'.nodup_keys
  rw [List.map_append, List.nodup_append] at hnodup
  refine ⟨h.node_of_kindOf.mp (h'.tree.parent _ hentry), ?_, ?_, ?_⟩
  · rw [Option.eq_none_iff_forall_not_mem]
    intro other hother
    exact hnodup.2.2 (parent, name)
      (List.mem_map_of_mem (h.name_eq_some.mp hother)) (parent, name)
      (by simp [directoryFormat]) rfl
  · obtain ⟨inode, hmem, hid⟩ := kindOf_ne_none.mp (h'.tree.target _ hentry)
    have hid : inode.id = id := hid
    refine ⟨nodeOf d inode, h.node_eq_some.mpr ⟨inode, hmem, hid, rfl⟩, ?_⟩
    intro hdirectory
    rw [nodeOf_eq_directory] at hdirectory
    apply hkind
    rw [← hid, kindOf_of_mem h.nodup_ids hmem, hdirectory]
  · refine Volume.ext ?_ (names_append h h')
    rw [hbecame.volumeOf_eq h' h, h.volume_eq]
    rfl

/-- The nodes of the old inodes are as they were. -/
theorem Created.nodeOf_eq {parent : UInt64} {name : String}
    (hc : Created sb d d' inodes entries parent name inode)
    (h : Mounted d sb a inodes entries) {other : PersistedInode}
    (hmem : other ∈ inodes) : nodeOf d' other = nodeOf d other := by
  obtain ⟨_, h'⟩ := hc.mounted
  have hsize := h.size_eq h'
  apply nodeOf_congr hsize
  intro block hblock
  obtain ⟨_, hlt⟩ := h.block_range hmem hblock
  have hread := hc.contents other hmem block hblock
  have hd := h.size
  rw [Disk.readBlock_of_lt (by omega), Disk.readBlock_of_lt (by omega),
    Except.ok.injEq] at hread
  exact hread

/-- **A creation makes a node with a name.** -/
theorem Created.creates {parent : UInt64} {name : String}
    (hc : Created sb d d' inodes entries parent name inode)
    (h : Mounted d sb a inodes entries) :
    (volumeOf sb d).Creates (volumeOf sb d') (parent, name) inode.id
      (nodeOf d' inode) := by
  obtain ⟨_, h'⟩ := hc.mounted
  have hfresh := hc.fresh
  have habsent := hc.absent
  refine ⟨h.node_of_kindOf.mp hc.parent_kind, ?_, h.node_eq_none.mpr hfresh, ?_, ?_⟩
  · rw [Option.eq_none_iff_forall_not_mem]
    intro id hid
    exact habsent _ (h.name_eq_some.mp hid) ⟨rfl, rfl⟩
  · intro key hkey
    rw [h.name_eq] at hkey
    obtain ⟨other, hother, hid⟩ := h.exists_target hkey
    exact hfresh other hother hid
  · refine Volume.ext ?_ ?_
    · funext id
      apply Option.ext
      intro n
      show (volumeOf sb d').node id = some n ↔ _
      rw [h'.node_eq_some, Volume.bind_node]
      by_cases hid : id = inode.id
      · subst hid
        rw [Volume.setNode_node_self]
        constructor
        · intro hnode
          obtain ⟨other, hother, heq, hn⟩ := hnode
          rcases List.mem_append.mp hother with hold | hnew
          · exact absurd heq (hfresh other hold)
          · rw [List.mem_singleton.mp hnew] at hn
            rw [hn]
        · intro hn
          exact ⟨inode, by simp, rfl, Option.some.inj hn⟩
      · rw [Volume.setNode_node_of_ne _ _ hid]
        show _ ↔ (volumeOf sb d).node id = some n
        rw [h.node_eq_some]
        constructor
        · intro hnode
          obtain ⟨other, hother, rfl, hn⟩ := hnode
          rcases List.mem_append.mp hother with hold | hnew
          · exact ⟨other, hold, rfl, (hc.nodeOf_eq h hold).symm.trans hn⟩
          · rw [List.mem_singleton.mp hnew] at hid
            exact absurd rfl hid
        · intro hnode
          obtain ⟨other, hold, rfl, hn⟩ := hnode
          exact ⟨other, List.mem_append_left _ hold, rfl,
            (hc.nodeOf_eq h hold).trans hn⟩
    · exact names_append h h'

/-! ## The removal of a tree -/

/-- The names of a volume are the links of its entries. -/
theorem Mounted.above_iff (h : Mounted d sb a inodes entries)
    {x y : UInt64} :
    (volumeOf sb d).Above x y ↔ Relation.ReflTransGen (Links entries) x y := by
  have hlinks : (fun parent id => ∃ text,
      (volumeOf sb d).name (parent, text) = some id) = Links entries := by
    funext parent id
    apply propext
    constructor
    · intro hname
      obtain ⟨text, hname⟩ := hname
      exact ⟨_, h.name_eq_some.mp hname, rfl, rfl⟩
    · intro hlink
      obtain ⟨entry, hentry, rfl, rfl⟩ := hlink
      exact ⟨entry.name, h.name_eq_some.mpr hentry⟩
  unfold Volume.Above
  rw [hlinks]

/-- `remove_directory_tree_journaled` on a mounted disk: the directory goes with
the names below it, and with the nodes that lose their last name. -/
theorem Mounted.removeDirectoryTree (h : Mounted d sb a inodes entries)
    (parent : UInt64) (name : String) :
    Effect.Atomic (removeDirectoryTreeJournaled sb parent name) d
      fun _ d' => Consistent sb d' ∧
        (volumeOf sb d).Prunes (volumeOf sb d') (parent, name) := by
  cases hsel : selectEntry entries parent name with
  | none =>
    obtain ⟨e, he⟩ := h.removeDirectoryTree_missing hsel
    exact .inl ⟨e, he⟩
  | some found =>
    obtain ⟨index, selected⟩ := found
    by_cases hbad : selected.target = ROOT_INODE_ID ∨
      kindOf inodes selected.target ≠ some .directory ∨
      ¬ Closed inodes entries selected
    · obtain ⟨e, he⟩ := h.removeDirectoryTree_rejected hsel hbad
      exact .inl ⟨e, he⟩
    rw [not_or, not_or, not_ne_iff, not_not] at hbad
    obtain ⟨_, hkind, hclosed⟩ := hbad
    obtain ⟨a', hfreed⟩ :=
      h.owned.exists_freeAll (removedInodesOf inodes entries index selected)
    have hselects := selects_of_selectEntry hsel
    have ht : Target inodes entries index selected :=
      ⟨h.tree, h.nodup_entries, hselects.get, hkind⟩
    unfold Effect.Atomic
    rw [h.removeDirectoryTree_planned hsel hkind hclosed hfreed]
    rcases h.publishRecursiveRemove ht hclosed hfreed with
      ⟨e, he, _⟩ | ⟨_, d', hrun, hbecame, fsck, hcheck⟩
    · exact .inl ⟨e, he⟩
    refine .inr ⟨_, d', hrun, hbecame.toAtRest.consistent ⟨fsck, hcheck⟩,
      selected.target, ?_, h.node_of_kindOf.mp hkind, ?_⟩
    · have hkey := h.targetOf_of_selects hselects
      rw [h.name_eq]
      exact hkey
    · have h' := (hbecame.toAtRest.checkDevice_iff.mp hcheck).1
      have hname : targetOf (planOf a' inodes entries index
          selected).desiredEntries =
            ((volumeOf sb d).pruned (parent, name) selected.target).name := by
        funext key
        apply Option.ext
        intro id
        rw [targetOf_eq_some hbecame.toAtRest.nodup_keys,
          Volume.pruned_name_eq_some, h.name_eq_some, h.above_iff]
        show (⟨key.1, id, key.2⟩ : PersistedDirectoryEntry) ∈
          desiredEntriesOf inodes entries index selected ↔ _
        rw [ht.mem_desired, and_comm]
        apply and_congr_left
        intro hentry
        rw [not_iff_not]
        apply or_congr_left
        constructor
        · intro heq
          rw [← hselects.key, ← heq]
          rfl
        · intro hkey
          apply h.entry_unique hentry hselects.mem
          · exact (congrArg Prod.fst hkey).trans hselects.parent_eq.symm
          · exact (congrArg Prod.snd hkey).trans hselects.name_eq.symm
      rw [hbecame.volumeOf_swept h h', hname]
      · rfl
      · exact fun _ hmem => (List.mem_filter.mp hmem).1
      · intro inode hmem hroot
        exact (ht.mem_desiredInodes hclosed).mpr ⟨hmem, .inl hroot⟩

end Names

end FilesystemLab
