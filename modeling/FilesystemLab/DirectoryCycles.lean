import FilesystemLab.Rename

/-!
# Exchanges and directory cycles

The exchange of two entries in `rename_exchange_tx.rs`, and what the checks for
cycles in it and in `path_directory_rename_overwrite.rs` miss.

Both checks follow the parent of each directory in a map that holds one parent
for each, while a consistent device may have several entries for a directory.

* `Namespace.exchange_iff` says when an exchange keeps the namespace consistent.
* `directoryCycles_exact` says when the check accepts the device after an
  exchange of directories or a rename over a directory, on every device.
* `crossedDisk` is a device on which an exchange publishes a cycle.
-/

namespace FilesystemLab

open Relation Digraph

/-! ## Exchanges in the table -/

/-- The entries after two of them have exchanged their targets. -/
def exchangedEntries (entries : List PersistedDirectoryEntry) (i j : Nat)
    (first second : PersistedDirectoryEntry) : List PersistedDirectoryEntry :=
  (entries.set i ⟨first.parent, second.target, first.name⟩).set j
    ⟨second.parent, first.target, second.name⟩

/-- Neither target leads to the parent that it gets by the entries of other
keys. -/
def ExchangeSafe (entries : List PersistedDirectoryEntry)
    (s t : UInt64 × String) : Prop :=
  ∀ x y, targetOf entries s = some x → targetOf entries t = some y →
    ¬ ReflTransGen (Links (otherEntries entries s t)) y s.1 ∧
      ¬ ReflTransGen (Links (otherEntries entries s t)) x t.1

section Exchange

variable {d d' : Disk} {sb : Superblock} {a : BlockAllocator}
  {inodes : List PersistedInode} {entries : List PersistedDirectoryEntry}
  {firstParent secondParent : UInt64} {firstName secondName : String}
  {i j : Nat} {first second : PersistedDirectoryEntry}

/-- How an exchange ends on a consistent disk: it finds nothing to exchange, or
it stores the directory table with two targets exchanged. -/
theorem Checked.renameExchange (h : Checked d sb a inodes entries)
    {policy : ExchangeTargetPolicy} {post : RecoveryReport → Disk → Prop}
    (hsame : (firstParent, firstName) = (secondParent, secondName) →
      post RecoveryReport.default d)
    (halias : ∀ i j first second,
      Selects entries firstParent firstName i first →
      Selects entries secondParent secondName j second →
      first.target = second.target → post RecoveryReport.default d)
    (hstore : ∀ i j first second,
      Selects entries firstParent firstName i first →
      Selects entries secondParent secondName j second →
      first.target ≠ second.target →
      validateDirectoryParent inodes firstParent "first exchange parent" =
        .ok () →
      validateDirectoryParent inodes secondParent "second exchange parent" =
        .ok () →
      validateTargetKind inodes first.target policy "first exchange target" =
        .ok () →
      validateTargetKind inodes second.target policy "second exchange target" =
        .ok () →
      (policy.rejectDirectoryCycles = true →
        validateAcyclic inodes (exchangedEntries entries i j first second)
          "directory exchange would create a cycle" = .ok ()) →
      Effect.Atomic
        (storeDirectoryTableAndCheckpoint sb
          (exchangedEntries entries i j first second)) d post) :
    Effect.Atomic
      (renameExchangeByKindJournaled sb firstParent firstName secondParent
        secondName policy) d post := by
  apply Effect.atomic_query_bind
  intro _ _
  refine Effect.atomic_query_bind_of_ok h.inodeTable ?_
  apply Effect.atomic_lift_bind
  intro _ hfirstParent
  apply Effect.atomic_lift_bind
  intro _ hsecondParent
  by_cases hkeys : firstParent = secondParent ∧ firstName = secondName
  · rw [if_pos hkeys]
    exact Effect.atomic_pure (hsame (by rw [hkeys.1, hkeys.2]))
  · rw [if_neg hkeys]
    refine Effect.atomic_query_bind_of_ok h.directoryTable ?_
    apply atomic_selectEntry
    intro i first hfirst
    apply atomic_selectEntry
    intro j second hsecond
    apply Effect.atomic_lift_bind
    intro _ hfirstKind
    apply Effect.atomic_lift_bind
    intro _ hsecondKind
    by_cases htargets : first.target = second.target
    · rw [if_pos htargets]
      exact Effect.atomic_pure (halias _ _ _ _ hfirst hsecond htargets)
    · rw [if_neg htargets]
      have hdone := hstore i j first second hfirst hsecond htargets
        hfirstParent hsecondParent hfirstKind hsecondKind
      rw [exchangedEntries, hfirst.parent_eq, hfirst.name_eq,
        hsecond.parent_eq, hsecond.name_eq] at hdone
      apply Effect.atomic_lift_bind
      intro _ _
      apply Effect.atomic_lift_bind
      intro _ _
      by_cases hcycles : policy.rejectDirectoryCycles = true
      · rw [if_pos hcycles]
        apply Effect.atomic_lift_bind
        intro _ hchecked
        exact hdone fun _ => hchecked
      · rw [if_neg hcycles]
        exact hdone fun hreject => absurd hreject hcycles

/-- The entries after an exchange. -/
theorem mem_exchangedEntries
    (hnodup : (entries.map directoryFormat.key).Nodup)
    (hfirst : Selects entries firstParent firstName i first)
    (hsecond : Selects entries secondParent secondName j second) (hij : i ≠ j)
    {entry : PersistedDirectoryEntry} :
    entry ∈ exchangedEntries entries i j first second ↔
      entry = ⟨firstParent, second.target, firstName⟩ ∨
        entry = ⟨secondParent, first.target, secondName⟩ ∨
        entry ∈ otherEntries entries (firstParent, firstName)
          (secondParent, secondName) := by
  have hi := (List.getElem?_eq_some_iff.mp hfirst.get).1
  have hj := (List.getElem?_eq_some_iff.mp hsecond.get).1
  rw [exchangedEntries, hfirst.parent_eq, hfirst.name_eq, hsecond.parent_eq,
    hsecond.name_eq, List.mem_iff_getElem?, mem_otherEntries]
  constructor
  · intro hfacts
    rcases hfacts with ⟨k, hk⟩
    by_cases hkj : j = k
    · subst hkj
      rw [List.getElem?_set_self (by rw [List.length_set]; exact hj),
        Option.some.injEq] at hk
      exact .inr (.inl hk.symm)
    rw [List.getElem?_set_ne hkj] at hk
    by_cases hki : i = k
    · subst hki
      rw [List.getElem?_set_self hi, Option.some.injEq] at hk
      exact .inl hk.symm
    · rw [List.getElem?_set_ne hki] at hk
      refine .inr (.inr ⟨List.mem_of_getElem? hk, ?_, ?_⟩)
      · intro hkey
        exact hki (index_of_key hnodup hfirst.get hk
          (hfirst.key.trans hkey.symm))
      · intro hkey
        exact hkj (index_of_key hnodup hsecond.get hk
          (hsecond.key.trans hkey.symm))
  · intro hcases
    rcases hcases with rfl | rfl | ⟨hmem, hs, ht⟩
    · exact ⟨i, by rw [List.getElem?_set_ne hij.symm,
        List.getElem?_set_self hi]⟩
    · exact ⟨j, List.getElem?_set_self (by rw [List.length_set]; exact hj)⟩
    · obtain ⟨k, hk⟩ := List.mem_iff_getElem?.mp hmem
      refine ⟨k, ?_⟩
      rw [List.getElem?_set_ne, List.getElem?_set_ne, hk]
      · intro heq
        subst heq
        rw [hfirst.get, Option.some.injEq] at hk
        exact hs (by rw [← hk, hfirst.key])
      · intro heq
        subst heq
        rw [hsecond.get, Option.some.injEq] at hk
        exact ht (by rw [← hk, hsecond.key])

/-- The entries of two keys and the others. -/
theorem mem_iff_otherEntries
    (hnodup : (entries.map directoryFormat.key).Nodup)
    (hfirst : Selects entries firstParent firstName i first)
    (hsecond : Selects entries secondParent secondName j second)
    {entry : PersistedDirectoryEntry} :
    entry ∈ entries ↔ entry = first ∨ entry = second ∨
      entry ∈ otherEntries entries (firstParent, firstName)
        (secondParent, secondName) := by
  rw [mem_otherEntries]
  constructor
  · intro hmem
    by_cases hs : directoryFormat.key entry = (firstParent, firstName)
    · exact .inl (List.inj_on_of_nodup_map hnodup hmem hfirst.mem
        (hs.trans hfirst.key.symm))
    by_cases ht : directoryFormat.key entry = (secondParent, secondName)
    · exact .inr (.inl (List.inj_on_of_nodup_map hnodup hmem hsecond.mem
        (ht.trans hsecond.key.symm)))
    · exact .inr (.inr ⟨hmem, hs, ht⟩)
  · intro hcases
    rcases hcases with rfl | rfl | ⟨hmem, _⟩
    · exact hfirst.mem
    · exact hsecond.mem
    · exact hmem

/-- The exchange on the map. -/
theorem targetOf_exchanged {entries' : List PersistedDirectoryEntry}
    {s t : UInt64 × String} {x y : UInt64} (hst : s ≠ t)
    (hnodup : (entries.map directoryFormat.key).Nodup)
    (hnodup' : (entries'.map directoryFormat.key).Nodup)
    (hx : targetOf entries s = some x) (hy : targetOf entries t = some y)
    (hiff : ∀ entry, entry ∈ entries' ↔ entry = ⟨s.1, y, s.2⟩ ∨
      entry = ⟨t.1, x, t.2⟩ ∨ entry ∈ otherEntries entries s t) :
    targetOf entries' = Function.update (Function.update (targetOf entries) s
      (targetOf entries t)) t (targetOf entries s) := by
  funext key
  by_cases ht : key = t
  · subst ht
    rw [Function.update_self, hx, targetOf_eq_some hnodup', hiff]
    exact .inr (.inl rfl)
  rw [Function.update_of_ne ht]
  by_cases hs : key = s
  · subst hs
    rw [Function.update_self, hy, targetOf_eq_some hnodup', hiff]
    exact .inl rfl
  rw [Function.update_of_ne hs]
  apply Option.ext
  intro target
  rw [targetOf_eq_some hnodup', targetOf_eq_some hnodup, hiff,
    mem_otherEntries]
  have hne : ∀ (k : UInt64 × String) (z : UInt64), key ≠ k →
      (⟨key.1, target, key.2⟩ : PersistedDirectoryEntry) ≠
        ⟨k.1, z, k.2⟩ := by
    intro k z hk h
    cases key
    cases h
    exact hk rfl
  constructor
  · intro hcases
    rcases hcases with h | h | h
    · exact absurd h (hne s y hs)
    · exact absurd h (hne t x ht)
    · exact h.1
  · intro h
    exact .inr (.inr ⟨h, hs, ht⟩)

/-! ## Exchanges in the namespace -/

/-- **An exchange keeps the namespace consistent exactly if it is safe.** -/
theorem Namespace.exchange_iff {entries' rest : List PersistedDirectoryEntry}
    {s t : UInt64 × String} {x y : UInt64} (h : Namespace inodes entries)
    (hold : ∀ entry, entry ∈ entries ↔ entry = ⟨s.1, x, s.2⟩ ∨
      entry = ⟨t.1, y, t.2⟩ ∨ entry ∈ rest)
    (hnew : ∀ entry, entry ∈ entries' ↔ entry = ⟨s.1, y, s.2⟩ ∨
      entry = ⟨t.1, x, t.2⟩ ∨ entry ∈ rest) :
    Namespace inodes entries' ↔
      ¬ ReflTransGen (Links rest) y s.1 ∧
        ¬ ReflTransGen (Links rest) x t.1 := by
  have hlinks : ∀ {es : List PersistedDirectoryEntry} {u v : UInt64},
      (∀ entry, entry ∈ es ↔ entry = ⟨s.1, u, s.2⟩ ∨
        entry = ⟨t.1, v, t.2⟩ ∨ entry ∈ rest) →
      Links es = WithEdge (WithEdge (Links rest) s.1 u) t.1 v := by
    intro es u v hes
    rw [← @links_eq_withEdge (⟨s.1, u, s.2⟩ :: rest) rest u s.1 s.2
      (fun entry => List.mem_cons)]
    apply @links_eq_withEdge es (⟨s.1, u, s.2⟩ :: rest) v t.1 t.2
    intro entry
    rw [hes, List.mem_cons]
    exact or_left_comm
  have hacyclic : Acyclic (Links entries) := h.acyclic
  rw [hlinks hold] at hacyclic
  rw [← acyclic_exchange_iff hacyclic, ← hlinks hnew]
  have hs := (hold _).mpr (.inl rfl)
  have ht := (hold _).mpr (.inr (.inl rfl))
  constructor
  · intro hn
    exact hn.acyclic
  · intro hno
    apply namespace_of_targeted _ _ h.root hno
    · intro inode hinode hne
      obtain ⟨entry, hentry, htarget⟩ := h.targeted hinode hne
      rcases (hold entry).mp hentry with rfl | rfl | hrest
      · exact ⟨_, (hnew _).mpr (.inr (.inl rfl)), htarget⟩
      · exact ⟨_, (hnew _).mpr (.inl rfl), htarget⟩
      · exact ⟨entry, (hnew _).mpr (.inr (.inr hrest)), htarget⟩
    · intro entry hentry
      rcases (hnew entry).mp hentry with rfl | rfl | hrest
      · have hparent := h.parent _ hs
        exact hparent
      · have hparent := h.parent _ ht
        exact hparent
      · exact h.parent entry ((hold entry).mpr (.inr (.inr hrest)))
    · intro entry hentry
      rcases (hnew entry).mp hentry with rfl | rfl | hrest
      · have htarget := h.target _ ht
        exact htarget
      · have htarget := h.target _ hs
        exact htarget
      · exact h.target entry ((hold entry).mpr (.inr (.inr hrest)))

/-- An exchange of two entries for one inode is safe. -/
theorem Namespace.exchangeSafe_of_alias {s t : UInt64 × String}
    (h : Namespace inodes entries)
    (halias : targetOf entries s = targetOf entries t) :
    ExchangeSafe entries s t := by
  intro x y hx hy
  have hback : ∀ {key : UInt64 × String} {z : UInt64},
      targetOf entries key = some z →
      ¬ ReflTransGen (Links (otherEntries entries s t)) z key.1 := by
    intro key z hz
    exact h.no_way_back (mem_of_targetOf hz) otherEntries_subset
  exact ⟨hback (halias.trans hy), hback (halias.symm.trans hx)⟩

/-! ## What an exchange leaves -/

/-- The disk `d'` is the mounted disk `d` after an exchange, and it is
consistent exactly if the exchange was safe. -/
def Exchanged (sb : Superblock) (d d' : Disk) (a : BlockAllocator)
    (inodes : List PersistedInode) (entries : List PersistedDirectoryEntry)
    (s t : UInt64 × String) : Prop :=
  ∃ entries', Became sb d d' a inodes entries' [] ∧
    targetOf entries' = Function.update (Function.update (targetOf entries) s
      (targetOf entries t)) t (targetOf entries s) ∧
    (Namespace inodes entries' ↔ ExchangeSafe entries s t)

/-- The check accepts a disk after an exchange exactly if it was safe. -/
theorem Exchanged.check_iff {s t : UInt64 × String}
    (h : Mounted d sb a inodes entries)
    (hexchanged : Exchanged sb d d' a inodes entries s t) :
    (∃ report, checkDevice d' = .ok report) ↔ ExchangeSafe entries s t := by
  obtain ⟨entries', hbecame, _, hiff⟩ := hexchanged
  rw [← hiff]
  constructor
  · intro hfacts
    rcases hfacts with ⟨report, hreport⟩
    exact (hbecame.toAtRest.checkDevice_iff.mp hreport).1.tree
  · intro htree
    have hmounted := h.of_became hbecame h.owned htree (by
      intro inode hinode
      exact .inl ⟨hinode, by simp⟩)
    exact ⟨_, hmounted.check⟩

/-- An exchange of two entries for one inode changes nothing. -/
theorem Mounted.exchanged_refl {s t : UInt64 × String}
    (h : Mounted d sb a inodes entries)
    (halias : targetOf entries s = targetOf entries t) :
    Exchanged sb d d a inodes entries s t := by
  refine ⟨entries, h.toAtRest.became_refl, ?_,
    fun _ => h.tree.exchangeSafe_of_alias halias, fun _ => h.tree⟩
  rw [← halias, Function.update_eq_self, halias, Function.update_eq_self]

/-- An exchange that passes the check for cycles is safe if every directory has
one entry. -/
theorem Mounted.exchangeSafe_of_validateAcyclic
    (h : Mounted d sb a inodes entries)
    (hfirst : Selects entries firstParent firstName i first)
    (hsecond : Selects entries secondParent secondName j second)
    (htargets : first.target ≠ second.target) {message : String}
    (hcycles : validateAcyclic inodes
      (exchangedEntries entries i j first second) message = .ok ())
    (hsingle : SingleEntries inodes entries) :
    ExchangeSafe entries (firstParent, firstName) (secondParent, secondName) := by
  have hij : i ≠ j := by
    intro heq
    subst heq
    have hget := hfirst.get
    rw [hsecond.get, Option.some.injEq] at hget
    exact htargets (by rw [hget])
  have hnew : ∀ entry, entry ∈ exchangedEntries entries i j first second ↔
      _ := fun entry => mem_exchangedEntries h.nodup_keys hfirst hsecond hij
  -- the entries of other keys lead to other directories
  have hother : ∀ {k : Nat} {parent : UInt64} {name : String}
      {selected : PersistedDirectoryEntry},
      Selects entries parent name k selected →
      (parent, name) = (firstParent, firstName) ∨
        (parent, name) = (secondParent, secondName) →
      kindOf inodes selected.target = some .directory →
      ∀ other ∈ otherEntries entries (firstParent, firstName)
        (secondParent, secondName), other.target ≠ selected.target := by
    intro k parent name selected hselects hkey hkind other hmem htarget
    obtain ⟨hold, hs, ht⟩ := mem_otherEntries.mp hmem
    have hsame := hsingle selected hselects.mem hkind other hold htarget
    have hkey' := hselects.key
    rw [← hsame] at hkey'
    rcases hkey with heq | heq
    · exact hs (hkey'.trans heq)
    · exact ht (hkey'.trans heq)
  have hacyclic : Acyclic (Links (exchangedEntries entries i j first
      second)) := by
    apply acyclic_of_validateAcyclic hcycles
    · intro entry hentry
      rcases (hnew entry).mp hentry with rfl | rfl | hold
      · show kindOf inodes firstParent = _
        rw [← hfirst.parent_eq]
        exact h.tree.parent first hfirst.mem
      · show kindOf inodes secondParent = _
        rw [← hsecond.parent_eq]
        exact h.tree.parent second hsecond.mem
      · exact h.tree.parent entry (otherEntries_subset entry hold)
    · intro entry hentry hkind other hmem htarget
      rcases (hnew entry).mp hentry with rfl | rfl | hold <;>
        rcases (hnew other).mp hmem with rfl | rfl | hold'
      · rfl
      · exact absurd htarget htargets
      · exact absurd htarget (hother hsecond (.inr rfl) hkind other hold')
      · exact absurd htarget.symm htargets
      · rfl
      · exact absurd htarget (hother hfirst (.inl rfl) hkind other hold')
      · have htarget : second.target = entry.target := htarget
        rw [← htarget] at hkind
        exact absurd htarget.symm (hother hsecond (.inr rfl) hkind entry hold)
      · have htarget : first.target = entry.target := htarget
        rw [← htarget] at hkind
        exact absurd htarget.symm (hother hfirst (.inl rfl) hkind entry hold)
      · exact hsingle entry (otherEntries_subset entry hold) hkind other
          (otherEntries_subset other hold') htarget
  have hrest : ∀ entry ∈ otherEntries entries (firstParent, firstName)
      (secondParent, secondName),
      entry ∈ exchangedEntries entries i j first second :=
    fun entry hentry => (hnew entry).mpr (.inr (.inr hentry))
  intro x y hx hy
  rw [h.targetOf_of_selects hfirst, Option.some.injEq] at hx
  rw [h.targetOf_of_selects hsecond, Option.some.injEq] at hy
  subst hx hy
  exact ⟨no_way_back_of_acyclic hacyclic ((hnew _).mpr (.inl rfl)) hrest,
    no_way_back_of_acyclic hacyclic ((hnew _).mpr (.inr (.inl rfl))) hrest⟩

/-- `rename_exchange_by_kind_journaled` on a mounted disk, with the condition
under which the check for cycles suffices. -/
theorem Mounted.renameExchange_safe (h : Mounted d sb a inodes entries)
    (firstParent : UInt64) (firstName : String) (secondParent : UInt64)
    (secondName : String) (policy : ExchangeTargetPolicy) :
    Effect.Atomic
      (renameExchangeByKindJournaled sb firstParent firstName secondParent
        secondName policy) d
      fun _ d' => Exchanged sb d d' a inodes entries (firstParent, firstName)
          (secondParent, secondName) ∧
        (policy.kind ≠ .directory ∨ policy.rejectDirectoryCycles = true ∧
            SingleEntries inodes entries →
          ExchangeSafe entries (firstParent, firstName)
            (secondParent, secondName)) := by
  have hnothing : targetOf entries (firstParent, firstName) =
      targetOf entries (secondParent, secondName) →
      Exchanged sb d d a inodes entries (firstParent, firstName)
          (secondParent, secondName) ∧
        (policy.kind ≠ .directory ∨ policy.rejectDirectoryCycles = true ∧
            SingleEntries inodes entries →
          ExchangeSafe entries (firstParent, firstName)
            (secondParent, secondName)) := by
    intro halias
    exact ⟨h.exchanged_refl halias,
      fun _ => h.tree.exchangeSafe_of_alias halias⟩
  apply h.checked.renameExchange
  · intro hsame
    exact hnothing (by rw [hsame])
  · intro i j first second hfirst hsecond htargets
    apply hnothing
    rw [h.targetOf_of_selects hfirst, h.targetOf_of_selects hsecond, htargets]
  · intro i j first second hfirst hsecond htargets hfirstParent hsecondParent
      hfirstKind hsecondKind hcycles
    have hnodup := h.nodup_keys
    have hx := h.targetOf_of_selects hfirst
    have hy := h.targetOf_of_selects hsecond
    have hst : (firstParent, firstName) ≠ (secondParent, secondName) := by
      intro hst
      rw [hst, hy, Option.some.injEq] at hx
      exact htargets hx.symm
    have hij : i ≠ j := by
      intro heq
      subst heq
      exact hst (hfirst.same_key hsecond)
    have hnew : ∀ entry, entry ∈ exchangedEntries entries i j first second ↔
        _ := fun entry => mem_exchangedEntries hnodup hfirst hsecond hij
    have hentry : ∀ {parent : UInt64} {name : String} {k : Nat}
        {entry : PersistedDirectoryEntry},
        Selects entries parent name k entry →
          entry = ⟨parent, entry.target, name⟩ := by
      intro parent name k entry hfacts
      rcases hfacts with ⟨_, rfl, rfl⟩
      rfl
    have hold : ∀ entry, entry ∈ entries ↔
        entry = ⟨firstParent, first.target, firstName⟩ ∨
          entry = ⟨secondParent, second.target, secondName⟩ ∨
          entry ∈ otherEntries entries (firstParent, firstName)
            (secondParent, secondName) := by
      intro entry
      rw [← hentry hfirst, ← hentry hsecond]
      exact mem_iff_otherEntries hnodup hfirst hsecond
    have htree := @Namespace.exchange_iff _ _ _ _ (firstParent, firstName)
      (secondParent, secondName) _ _ h.tree hold hnew
    apply (h.storeDirectoryTableAndCheckpoint _).atomic.mono
    intro _ d' hbecame
    rw [h.canonical] at hbecame
    refine ⟨⟨_, hbecame, ?_, ?_⟩, ?_⟩
    · exact targetOf_exchanged hst hnodup hbecame.toAtRest.nodup_keys hx hy hnew
    · rw [htree, ExchangeSafe, hx, hy]
      simp
    · intro hcase
      rcases hcase with hkind | ⟨hreject, hsingle⟩
      case inr =>
        exact h.exchangeSafe_of_validateAcyclic hfirst hsecond htargets
          (hcycles hreject) hsingle
      intro x y hx' hy'
      rw [hx, Option.some.injEq] at hx'
      rw [hy, Option.some.injEq] at hy'
      subst hx' hy'
      have hleaf : ∀ {target : UInt64} {label : String} {u : Unit},
          validateTargetKind inodes target policy label = .ok u →
            kindOf inodes target ≠ some .directory := by
        intro target label u hvalid
        simp only [validateTargetKind, Except.bind_eq_ok, okOr_eq_ok,
          rejectIf_eq_ok, not_ne_iff] at hvalid
        obtain ⟨inode, hfind, hsame⟩ := hvalid
        rw [kindOf_of_findInode h.nodup_ids hfind, hsame]
        simpa using hkind
      exact ⟨h.tree.no_way_out (hleaf hsecondKind)
          (h.kindOf_of_parent hfirstParent) otherEntries_subset,
        h.tree.no_way_out (hleaf hfirstKind)
          (h.kindOf_of_parent hsecondParent) otherEntries_subset⟩

/-- `rename_exchange_by_kind_journaled` on a mounted disk. -/
theorem Mounted.renameExchange (h : Mounted d sb a inodes entries)
    (firstParent : UInt64) (firstName : String) (secondParent : UInt64)
    (secondName : String) (policy : ExchangeTargetPolicy) :
    Effect.Atomic
      (renameExchangeByKindJournaled sb firstParent firstName secondParent
        secondName policy) d
      fun _ d' => Exchanged sb d d' a inodes entries (firstParent, firstName)
          (secondParent, secondName) ∧
        (policy.kind ≠ .directory → ExchangeSafe entries
          (firstParent, firstName) (secondParent, secondName)) := by
  apply (h.renameExchange_safe firstParent firstName secondParent secondName
    policy).mono
  intro _ d' hpost
  exact ⟨hpost.1, fun hkind => hpost.2 (.inl hkind)⟩

/-- An exchange of directories that passes its checks stores its table. -/
theorem Mounted.exchangeDirectories_eq (h : Mounted d sb a inodes entries)
    {s t : UInt64 × String} {i j : Nat} {first second : PersistedDirectoryEntry}
    (hs : ∀ label, validateDirectoryParent inodes s.1 label = .ok ())
    (ht : ∀ label, validateDirectoryParent inodes t.1 label = .ok ())
    (hkeys : ¬ (s.1 = t.1 ∧ s.2 = t.2))
    (hfirst : selectEntry entries s.1 s.2 = some (i, first))
    (hsecond : selectEntry entries t.1 t.2 = some (j, second))
    (hkind : ∀ label, validateTargetKind inodes first.target DIRECTORY_POLICY
      label = .ok ())
    (hkind' : ∀ label, validateTargetKind inodes second.target DIRECTORY_POLICY
      label = .ok ())
    (hne : first.target ≠ second.target)
    (hvalid : PersistedDirectoryEntry.Valid ⟨s.1, second.target, s.2⟩)
    (hvalid' : PersistedDirectoryEntry.Valid ⟨t.1, first.target, t.2⟩)
    (hacyclic : ∀ message, validateAcyclic inodes ((entries.set i
      ⟨s.1, second.target, s.2⟩).set j ⟨t.1, first.target, t.2⟩) message =
        .ok ()) :
    renameExchangeDirectoriesJournaled sb s.1 s.2 t.1 t.2 d =
      storeDirectoryTableAndCheckpoint sb ((entries.set i
        ⟨s.1, second.target, s.2⟩).set j ⟨t.1, first.target, t.2⟩) d := by
  rw [renameExchangeDirectoriesJournaled, renameExchangeByKindJournaled,
    Effect.query_bind_of_ok h.check, h.inodes_bind,
    Effect.lift_bind_of_ok (hs _), Effect.lift_bind_of_ok (ht _),
    if_neg hkeys, h.entries_bind,
    Effect.lift_bind_of_ok (okOr_eq_ok.mpr hfirst),
    Effect.lift_bind_of_ok (okOr_eq_ok.mpr hsecond),
    Effect.lift_bind_of_ok (hkind _), Effect.lift_bind_of_ok (hkind' _),
    if_neg hne,
    Effect.lift_bind_of_ok (encodeDirectoryEntry_eq_ok.mpr ⟨hvalid, rfl⟩),
    Effect.lift_bind_of_ok (encodeDirectoryEntry_eq_ok.mpr ⟨hvalid', rfl⟩),
    if_pos (show DIRECTORY_POLICY.rejectDirectoryCycles = true from rfl)]
  exact Effect.lift_bind_of_ok (hacyclic _)

end Exchange

/-! ## Devices with a journal -/

section Journal

variable {d : Disk} {sb : Superblock} {a : BlockAllocator}
  {inodes inodes' : List PersistedInode}
  {entries entries' : List PersistedDirectoryEntry}

/-- A table whose blocks are in place is the one that is loaded. -/
theorem loadDirectoryTable_of_rendered (hsize : sb.totalBlocks = d.size)
    {ps : List (TableImage × Result (List UInt8))} {ws : List (Nat × Block)}
    (hws : renderedWrites ps = .ok ws)
    (hsame : ∀ w ∈ ws, d.blocks w.1 = w.2) {message : String}
    (hp : directoryPair sb entries' message ∈ ps) :
    loadDirectoryTable d sb = .ok entries' := by
  obtain ⟨image, himage, hholds⟩ := holds_rendered.mp ⟨ws, hws, hsame⟩ _ hp
  exact (loadDirectoryTable_iff hsize).mpr ⟨image, himage, hholds⟩

/-- A device with a journal refuses another directory table. -/
theorem storeDirectoryTable_of_journal (hsize : sb.totalBlocks = d.size)
    (hjournal : loadJournalImage d sb ≠ .ok [])
    (hentries : loadDirectoryTable d sb ≠ .ok entries') :
    ∃ e, storeDirectoryTableJournaled sb entries' d = (.error e, d) := by
  rcases storeImagesJournaled_cases recovers_recoverJournal
    (renderings_directoryImages sb entries') d
    "journaled directory-table device geometry does not match superblock"
    "directory-table image rendered outside directory metadata region"
    "journaled directory-table recovery report does not match one complete transaction"
    with herr | ⟨ws, _, hws, ⟨hsame, _⟩ | ⟨hacc, _⟩⟩
  · exact herr
  · exact absurd (loadDirectoryTable_of_rendered hsize hws hsame
      List.mem_cons_self) hentries
  · rw [loadJournalImage_disk hsize] at hjournal
    exact absurd hacc.store.vacant hjournal

/-- A device with a journal refuses other tables. -/
theorem storeCreateMetadata_of_journal (hsize : sb.totalBlocks = d.size)
    (hjournal : loadJournalImage d sb ≠ .ok [])
    (hentries : loadDirectoryTable d sb ≠ .ok entries') :
    ∃ e, storeCreateMetadataJournaled sb a inodes' entries' d =
      (.error e, d) := by
  rcases storeImagesJournaled_cases recovers_recoverJournalAndCheckpoint
    (renderings_createImages sb a inodes' entries') d
    "atomic-create device geometry does not match superblock"
    "atomic-create image rendered outside allocation, inode, and directory regions"
    "atomic-create recovery report does not match one complete transaction"
    with herr | ⟨ws, _, hws, ⟨hsame, _⟩ | ⟨hacc, _⟩⟩
  · exact herr
  · exact absurd (loadDirectoryTable_of_rendered hsize hws hsame
      (List.mem_cons_of_mem _ (List.mem_cons_of_mem _ List.mem_cons_self)))
      hentries
  · rw [loadJournalImage_disk hsize] at hjournal
    exact absurd hacc.store.vacant hjournal

/-- An exchange on a device with a journal succeeds only if it finds nothing to
exchange. -/
theorem Checked.exchange_of_journal (h : Checked d sb a inodes entries)
    (hjournal : loadJournalImage d sb ≠ .ok []) (firstParent : UInt64)
    (firstName : String) (secondParent : UInt64) (secondName : String)
    (policy : ExchangeTargetPolicy) :
    Effect.Atomic
      (renameExchangeByKindJournaled sb firstParent firstName secondParent
        secondName policy) d
      fun _ d' => d' = d ∧ ExchangeSafe entries (firstParent, firstName)
        (secondParent, secondName) := by
  have hsize : sb.totalBlocks = d.size := readSuperblock_size h.superblock
  have hnodup := nodup_keys_of_load hsize h.directoryTable
  apply h.renameExchange
  · intro hsame
    exact ⟨rfl, h.tree.exchangeSafe_of_alias (by rw [hsame])⟩
  · intro i j first second hfirst hsecond htargets
    refine ⟨rfl, h.tree.exchangeSafe_of_alias ?_⟩
    rw [← hfirst.key, ← hsecond.key, targetOf_of_mem hnodup hfirst.mem,
      targetOf_of_mem hnodup hsecond.mem, htargets]
  · intro i j first second hfirst hsecond htargets _ _ _ _ _
    left
    have hij : i ≠ j := by
      intro heq
      subst heq
      have hget := hfirst.get
      rw [hsecond.get, Option.some.injEq] at hget
      exact htargets (by rw [hget])
    have hnew : (⟨firstParent, second.target, firstName⟩ :
        PersistedDirectoryEntry) ∈ exchangedEntries entries i j first second :=
      (mem_exchangedEntries hnodup hfirst hsecond hij).mpr (.inl rfl)
    obtain ⟨e, herr⟩ := @storeDirectoryTable_of_journal d sb
      (exchangedEntries entries i j first second) hsize hjournal (by
      intro hload
      rw [h.directoryTable, Except.ok.injEq] at hload
      rw [← hload] at hnew
      have hsame := targetOf_of_mem hnodup hfirst.mem
      rw [hfirst.key, (targetOf_eq_some hnodup).mpr hnew,
        Option.some.injEq] at hsame
      exact htargets hsame.symm)
    exact ⟨e, Effect.bind_of_error herr⟩

/-- A rename over a directory on a device with a journal succeeds only if it
finds one key. -/
theorem Checked.overwrite_of_journal (h : Checked d sb a inodes entries)
    (hjournal : loadJournalImage d sb ≠ .ok []) (oldParent : UInt64)
    (oldName : String) (newParent : UInt64) (newName : String) :
    Effect.Atomic
      (renameOverwriteDirectoryJournaled sb oldParent oldName newParent newName)
      d fun _ d' => d' = d ∧
        MoveSafe entries (oldParent, oldName) (newParent, newName) := by
  have hsize : sb.totalBlocks = d.size := readSuperblock_size h.superblock
  apply h.renameOverwriteDirectory
  · intro i source destination hsource hdestination
    refine ⟨rfl, ?_⟩
    rw [hsource.same_key hdestination]
    intro target htarget
    exact h.tree.no_way_back (mem_of_targetOf htarget) otherEntries_subset
  · intro i j source destination destinationInode hsource hdestination _ _ _ _
      _ _ _
    apply Effect.atomic_lift_bind
    intro a' _
    left
    apply storeCreateMetadata_of_journal hsize hjournal
    intro hload
    rw [h.directoryTable, Except.ok.injEq] at hload
    -- the new table is shorter
    have hlen := congrArg List.length hload
    have hj := (List.getElem?_eq_some_iff.mp hdestination.get).1
    rw [overwrittenEntries, List.length_eraseIdx_of_lt
      (by rw [List.length_set]; exact hj), List.length_set] at hlen
    omega

end Journal

/-- **When the check accepts the device after an exchange of directories or a
rename over a directory.**  On a device that the check accepts, a successful
exchange leaves a device that it accepts exactly if neither directory leads, by
the entries of other keys, to the parent that it gets; a successful rename over
a directory, exactly if the moved directory does not lead to its new parent by
the entries of other keys. -/
theorem directoryCycles_exact {d : Disk} {sb : Superblock} {report : FsckReport}
    {entries : List PersistedDirectoryEntry} (hsb : readSuperblock d = .ok sb)
    (hcheck : checkDevice d = .ok report)
    (hentries : loadDirectoryTable d sb = .ok entries) (p q : UInt64)
    (m n : String) :
    (∀ r d', renameExchangeDirectoriesJournaled sb p m q n d = (.ok r, d') →
      ((∃ report', checkDevice d' = .ok report') ↔
        ExchangeSafe entries (p, m) (q, n))) ∧
    ∀ r d', renameOverwriteDirectoryJournaled sb p m q n d = (.ok r, d') →
      ((∃ report', checkDevice d' = .ok report') ↔
        MoveSafe entries (p, m) (q, n)) := by
  obtain ⟨sb', a, inodes, entries', journal, hc, _, _⟩ :=
    checkDevice_iff.mp hcheck
  have hsame := hc.superblock
  rw [hsb, Except.ok.injEq] at hsame
  subst hsame
  have htable := hc.directoryTable
  rw [hentries, Except.ok.injEq] at htable
  subst htable
  by_cases hjournal : loadJournalImage d sb = .ok []
  · have h : Mounted d sb a inodes entries :=
      ⟨⟨hsb, hc.allocator, hc.inodeTable, hentries, hjournal⟩, hc.owned,
        hc.payloads, hc.tree⟩
    constructor
    · intro r d' hrun
      exact ((h.renameExchange p m q n DIRECTORY_POLICY).of_ok hrun).1.check_iff
        h
    · intro r d' hrun
      exact ((h.renameOverwriteDirectory p m q n).of_ok hrun).check_iff h
  · constructor
    · intro r d' hrun
      obtain ⟨rfl, hsafe⟩ :=
        (hc.exchange_of_journal hjournal p m q n DIRECTORY_POLICY).of_ok hrun
      exact ⟨fun _ => hsafe, fun _ => ⟨_, hcheck⟩⟩
    · intro r d' hrun
      obtain ⟨rfl, hsafe⟩ :=
        (hc.overwrite_of_journal hjournal p m q n).of_ok hrun
      exact ⟨fun _ => hsafe, fun _ => ⟨_, hcheck⟩⟩

/-! ## A directory with two entries -/

def crossedInodes : List PersistedInode :=
  [⟨1, .directory, [], 0⟩, ⟨2, .directory, [], 0⟩, ⟨3, .directory, [], 0⟩]

/-- The root has two entries for a directory, and this one an entry for
another. -/
def crossedEntries : List PersistedDirectoryEntry :=
  [⟨1, 2, "a"⟩, ⟨2, 3, "x"⟩, ⟨1, 2, "b"⟩]

/-- The entries after the exchange of `(1, "a")` and `(2, "x")`: the second one
makes a directory its own parent. -/
def exchangedCrossed : List PersistedDirectoryEntry :=
  [⟨1, 3, "a"⟩, ⟨2, 2, "x"⟩, ⟨1, 2, "b"⟩]

def crossedDisk : Disk :=
  formatted treeSuperblock treeAllocator crossedInodes crossedEntries
    fun _ => Block.zero

theorem mounted_crossedDisk :
    Mounted crossedDisk treeSuperblock treeAllocator crossedInodes
      crossedEntries := by
  refine ⟨?_, owned_of_blockless flag_treeAllocator (by decide), ?_, ?_⟩
  · apply atRest_tree _ (by decide)
    · exact exists_directoryImage (by decide) (by decide) (by decide)
        (by decide) (by decide)
    · exact exists_inodeImage (by decide) (by decide) (by decide) (by decide)
        (by decide)
  · rw [crossedInodes, List.forall_mem_cons, List.forall_mem_cons,
      List.forall_mem_singleton]
    exact ⟨rfl, rfl, rfl⟩
  · exact namespace_of_targeted (by decide) (by decide) (by decide)
      (acyclic_of_lt (by decide)) (by decide)

/-- The exchange is carried out: the map holds the last parent of each directory,
and so the check finds no cycle. -/
theorem exchange_crossedDisk :
    ∃ r d', renameExchangeDirectoriesJournaled treeSuperblock 1 "a" 2 "x"
      crossedDisk = (.ok r, d') := by
  have h := mounted_crossedDisk
  obtain ⟨r, d', hrun, _⟩ := (h.storeDirectoryTableAndCheckpoint
    exchangedCrossed).of_storable (storable_tree h.inodeImage
      (exists_directoryImage (by decide) (by decide) (by decide) (by decide)
        (by decide)))
  refine ⟨r, d', ?_⟩
  rw [← hrun]
  exact @Mounted.exchangeDirectories_eq _ _ _ _ _ h (1, "a") (2, "x") 0 1
    ⟨1, 2, "a"⟩ ⟨2, 3, "x"⟩ (fun _ => rfl) (fun _ => rfl) (by decide)
    (by decide) (by decide) (fun _ => rfl) (fun _ => rfl) (by decide)
    (by decide) (by decide) (validateAcyclic_of_flat (by decide))

theorem exchange_publishes_cycle :
    (∃ report, checkDevice crossedDisk = .ok report) ∧
    ∃ r d', renameExchangeDirectoriesJournaled treeSuperblock 1 "a" 2 "x"
      crossedDisk = (.ok r, d') ∧ ∀ report, checkDevice d' ≠ .ok report := by
  have h := mounted_crossedDisk
  refine ⟨⟨_, h.check⟩, ?_⟩
  obtain ⟨r, d', hrun⟩ := exchange_crossedDisk
  refine ⟨r, d', hrun, ?_⟩
  intro report hcheck
  have hexchanged := (h.renameExchange 1 "a" 2 "x" DIRECTORY_POLICY).of_ok hrun
  have hsafe := (hexchanged.1.check_iff h).mp ⟨report, hcheck⟩
  exact (hsafe 2 3 (by decide) (by decide)).2 .refl

theorem directoryCycles_exact_crossedDisk :
    ∃ r d', renameExchangeDirectoriesJournaled treeSuperblock 1 "a" 2 "x"
      crossedDisk = (.ok r, d') ∧
      ((∃ report', checkDevice d' = .ok report') ↔
        ExchangeSafe crossedEntries (1, "a") (2, "x")) := by
  obtain ⟨r, d', hrun⟩ := exchange_crossedDisk
  exact ⟨r, d', hrun, (directoryCycles_exact mounted_crossedDisk.superblock
    mounted_crossedDisk.check mounted_crossedDisk.directoryTable 1 2 "a"
    "x").1 r d' hrun⟩

end FilesystemLab
