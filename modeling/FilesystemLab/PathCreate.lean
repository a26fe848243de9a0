import FilesystemLab.Create

/-!
# The path grammar of the creators

The functions that create at a path split it at its last slash and hand the
prefix to the resolver, which parses it component by component.  The resolver
also parses the whole path, when what was created is looked up.

* `parseComponents_of_split` says that the two readings agree on a path without
  adjacent slashes, and `parseComponents_of_adjacent` that the resolver rejects
  every other one.
* `Created.resolves` says that a lookup that succeeded does so with the same
  result when an inode and an entry for it have come.
* `createPath_agrees_iff` puts them together: what was created is found under
  its path exactly if this has no adjacent slashes.
-/

namespace FilesystemLab

/-! ## Two readings of a path -/

/-- A path with two adjacent slashes. -/
def AdjacentSlashes (path : String) : Prop := ['/', '/'] <:+: path.toList

instance (path : String) : Decidable (AdjacentSlashes path) :=
  inferInstanceAs (Decidable (_ <:+: _))

/-- `rsplit_once` splits at the last slash. -/
theorem rsplitOnce_eq_some {path parent name : List Char}
    (h : rsplitOnce path = some (parent, name)) :
    path = parent ++ '/' :: name ∧ '/' ∉ name := by
  induction path generalizing parent with
  | nil => cases h
  | cons c cs ih =>
    unfold rsplitOnce at h
    cases hsplit : rsplitOnce cs with
    | some parts =>
      rw [hsplit] at h
      cases h
      obtain ⟨hcs, hname⟩ := ih hsplit
      exact ⟨by rw [List.cons_append, ← hcs], hname⟩
    | none =>
      have hnone : ∀ cs : List Char, rsplitOnce cs = none → '/' ∉ cs := by
        intro cs
        induction cs with
        | nil => simp
        | cons c cs ih =>
          intro h hmem
          unfold rsplitOnce at h
          cases hrest : rsplitOnce cs with
          | some parts => simp [hrest] at h
          | none =>
            rw [hrest] at h
            simp only [ite_eq_right_iff, reduceCtorEq, imp_false] at h
            rcases List.mem_cons.mp hmem with heq | hmem
            · exact h heq.symm
            · exact ih hrest hmem
      rw [hsplit] at h
      simp only at h
      split at h
      · rename_i hc
        cases h
        exact ⟨by rw [hc]; rfl, hnone _ hsplit⟩
      · cases h

/-- The characters of a path that is split at its last slash. -/
structure Splits (path parentPath name : String) (parent : List Char) :
    Prop where
  chars : path.toList = parent ++ '/' :: name.toList
  name_slash : '/' ∉ name.toList
  name_ne : name.toList ≠ []
  root : parent = [] → parentPath = "/"
  below : parent ≠ [] → parentPath.toList = parent ∧ parent.head? = some '/'

theorem splits_of_splitPath {messages : SplitMessages}
    {path parentPath name : String}
    (h : splitPath messages path = .ok (parentPath, name)) :
    ∃ parent, Splits path parentPath name parent := by
  simp only [splitPath, Except.bind_eq_ok, rejectIf_eq_ok, okOr_eq_ok,
    Except.pure_eq_ok, Except.ok.injEq, Prod.mk.injEq] at h
  obtain ⟨_, hstart, _, _, ⟨parent, last⟩, hparts, _, hname, hpath, rfl⟩ := h
  obtain ⟨hchars, hslash⟩ := rsplitOnce_eq_some hparts
  refine ⟨parent, by rw [hchars, String.toList_ofList],
    by rw [String.toList_ofList]; exact hslash,
    by rw [String.toList_ofList]; exact hname, ?_, ?_⟩
  · intro hnil
    rw [← hpath]
    exact if_pos hnil
  · intro hne
    refine ⟨?_, ?_⟩
    · rw [← hpath, if_neg hne, String.toList_ofList]
    · rw [startsWithSlash, hchars, List.head?_append,
        decide_eq_false_iff_not, not_not] at hstart
      cases parent with
      | nil => exact absurd rfl hne
      | cons c cs => exact hstart

namespace Splits

variable {path parentPath name : String} {parent : List Char}

/-- The path has a final component. -/
theorem getLast_ne (h : Splits path parentPath name parent) :
    path.toList.getLast? ≠ some '/' := by
  rw [h.chars, List.getLast?_append, List.getLast?_cons,
    List.getLast?_eq_some_getLast h.name_ne]
  intro hlast
  simp only [Option.getD_some, Option.some_or, Option.some.injEq] at hlast
  exact h.name_slash (hlast ▸ List.getLast_mem h.name_ne)

theorem ne_root (h : Splits path parentPath name parent) : path ≠ "/" := by
  intro heq
  subst heq
  exact h.getLast_ne rfl

/-- The path behind its first slash. -/
theorem exists_body (h : Splits path parentPath name parent) :
    ∃ body, path.toList = '/' :: body ∧ stripSuffix body = body ∧
      (parent = [] ∧ body = name.toList ∨
        ∃ front, parent = '/' :: front ∧ body = front ++ '/' :: name.toList) := by
  have hstrip : ∀ body, path.toList = '/' :: body → body ≠ [] →
      stripSuffix body = body := by
    intro body hbody hne
    refine if_neg ?_
    intro hlast
    apply h.getLast_ne
    rw [hbody, List.getLast?_cons, hlast]
    rfl
  cases parent with
  | nil =>
    exact ⟨name.toList, h.chars, hstrip _ h.chars h.name_ne, .inl ⟨rfl, rfl⟩⟩
  | cons c front =>
    have hc := (h.below (List.cons_ne_nil c front)).2
    rw [List.head?_cons, Option.some.injEq] at hc
    subst hc
    refine ⟨front ++ '/' :: name.toList, h.chars, hstrip _ h.chars (by simp),
      .inr ⟨front, rfl, rfl⟩⟩

end Splits

/-- An empty component between adjacent slashes. -/
theorem nil_mem_splitOn {body : List Char} (h : ['/', '/'] <:+: '/' :: body) :
    [] ∈ body.splitOn '/' := by
  obtain ⟨before, behind, hbody⟩ := h
  cases before with
  | nil =>
    have hbody' : body = [] ++ '/' :: behind := by
      simpa using hbody.symm
    rw [hbody', List.splitOn_append_cons_self, List.splitOn_nil]
    exact List.mem_append_left _ List.mem_cons_self
  | cons c before =>
    have hbody' : body = before ++ '/' :: ([] ++ '/' :: behind) := by
      simpa using (List.cons.inj hbody).2.symm
    rw [hbody', List.splitOn_append_cons_self, List.splitOn_append_cons_self,
      List.splitOn_nil]
    exact List.mem_append_right _ (List.mem_append_left _ List.mem_cons_self)

section Parse

variable {path parentPath name : String} {parent : List Char}
  {components : List String}

/-- **The two readings agree** on a path without adjacent slashes. -/
theorem parseComponents_of_split (h : Splits path parentPath name parent)
    (hno : ¬ AdjacentSlashes path)
    (hparent : parseComponents parentPath = .ok components) :
    parseComponents path = .ok (components ++ [name]) := by
  obtain ⟨body, hbody, hstrip, hcases⟩ := h.exists_body
  have hname : name.toList.splitOn '/' = [name.toList] :=
    List.splitOn_eq_singleton h.name_slash
  have hparse : parseComponents path = parseComponentSequence body := by
    rw [parseComponents, if_neg h.ne_root]
    simp only [hbody, hstrip]
  rw [hparse]
  rcases hcases with ⟨rfl, rfl⟩ | ⟨front, rfl, rfl⟩
  · rw [h.root rfl] at hparent
    rw [parseComponents, if_pos rfl, Except.pure_eq_ok, Except.ok.injEq]
      at hparent
    subst hparent
    rw [parseComponentSequence, rejectIf_of_not h.name_ne, Except.ok_bind,
      hname, rejectIf_of_not (by simpa using h.name_ne.symm), Except.ok_bind]
    simp
  · -- the front is not empty and does not end with a slash
    have hchars := (h.below (List.cons_ne_nil _ _)).1
    have hlast : front.getLast? ≠ some '/' := by
      intro hlast
      obtain ⟨before, rfl⟩ := List.getLast?_eq_some_iff.mp hlast
      apply hno
      refine ⟨'/' :: before, name.toList, ?_⟩
      rw [h.chars]
      simp
    have hne : front ≠ [] := by
      intro heq
      subst heq
      apply hno
      refine ⟨[], name.toList, ?_⟩
      rw [h.chars]
      rfl
    have hnotroot : parentPath ≠ "/" := by
      intro heq
      subst heq
      exact hne (List.cons.inj hchars.symm).2
    have hfront : parseComponents parentPath = parseComponentSequence front := by
      rw [parseComponents, if_neg hnotroot]
      simp only [hchars, stripSuffix, if_neg hlast]
    rw [hfront] at hparent
    simp only [parseComponentSequence, Except.bind_eq_ok, rejectIf_eq_ok,
      Except.pure_eq_ok, Except.ok.injEq] at hparent
    obtain ⟨_, _, _, hempty, rfl⟩ := hparent
    rw [parseComponentSequence, rejectIf_of_not (by simp), Except.ok_bind,
      List.splitOn_append_cons_self, hname, rejectIf_of_not, Except.ok_bind]
    · simp
    · rw [List.mem_append, List.mem_singleton]
      exact not_or.mpr ⟨hempty, h.name_ne.symm⟩

/-- **The resolver rejects a path with adjacent slashes.** -/
theorem parseComponents_of_adjacent (h : Splits path parentPath name parent)
    (hadjacent : AdjacentSlashes path) : ∃ e, parseComponents path = .error e := by
  obtain ⟨body, hbody, hstrip, hcases⟩ := h.exists_body
  have hne : body ≠ [] := by
    rcases hcases with ⟨_, rfl⟩ | ⟨front, _, rfl⟩
    · exact h.name_ne
    · simp
  have hempty : [] ∈ body.splitOn '/' := by
    apply nil_mem_splitOn
    rw [← hbody]
    exact hadjacent
  refine ⟨invalidInput "path contains an empty component", ?_⟩
  rw [parseComponents, if_neg h.ne_root]
  simp only [hbody, hstrip]
  rw [parseComponentSequence, rejectIf_of_not hne, Except.ok_bind,
    rejectIf_of hempty, Except.error_bind]

end Parse

section TrailingSlash

variable {path stripped parentPath name : String} {parent : List Char}

/-- One trailing slash is stripped, and only one. -/
theorem stripSingleDirectoryTrailingSlash_eq_ok
    (h : stripSingleDirectoryTrailingSlash path = .ok stripped) :
    path = stripped ∨ path.toList = stripped.toList ++ ['/'] ∧
      stripped.toList.getLast? ≠ some '/' := by
  unfold stripSingleDirectoryTrailingSlash at h
  split at h
  · cases h
    exact .inl rfl
  · rename_i hslash
    simp only [Except.bind_eq_ok, rejectIf_eq_ok, Except.pure_eq_ok,
      Except.ok.injEq] at h
    obtain ⟨_, hlast, rfl⟩ := h
    have hends : path.toList.getLast? = some '/' := by
      simpa [endsWithSlash] using (not_or.mp hslash).2
    obtain ⟨front, hfront⟩ := List.getLast?_eq_some_iff.mp hends
    right
    rw [String.toList_ofList, hfront, List.dropLast_concat]
    rw [endsWithSlash, String.toList_ofList, hfront, List.dropLast_concat,
      decide_eq_true_eq] at hlast
    exact ⟨rfl, hlast⟩

/-- The trailing slash does not change the components. -/
theorem parseComponents_stripped (h : Splits stripped parentPath name parent)
    (hpath : path.toList = stripped.toList ++ ['/']) :
    path ≠ "/" ∧ parseComponents path = parseComponents stripped := by
  obtain ⟨body, hbody, hstrip, _⟩ := h.exists_body
  have hne : path ≠ "/" := by
    intro heq
    subst heq
    have hlen := congrArg List.length hpath
    rw [hbody] at hlen
    simp at hlen
  refine ⟨hne, ?_⟩
  have hstrip' : stripSuffix (body ++ ['/']) = body := by
    rw [stripSuffix, if_pos (by simp), List.dropLast_concat]
  rw [parseComponents, parseComponents, if_neg hne, if_neg h.ne_root]
  simp only [hpath, hbody, List.cons_append, hstrip, hstrip']

theorem adjacentSlashes_stripped
    (hpath : path.toList = stripped.toList ++ ['/'])
    (hlast : stripped.toList.getLast? ≠ some '/') :
    AdjacentSlashes path ↔ AdjacentSlashes stripped := by
  unfold AdjacentSlashes
  rw [hpath, List.infix_concat_iff]
  constructor
  · intro hcases
    rcases hcases with hsuffix | hinfix
    · obtain ⟨before, hbefore⟩ := hsuffix
      have hstripped : stripped.toList = before ++ ['/'] := by
        have := congrArg List.dropLast hbefore
        simpa using this.symm
      exact absurd (by rw [hstripped]; simp) hlast
    · exact hinfix
  · exact .inr

end TrailingSlash

/-! ## Lookups when an inode has come -/

/-- What a walk finds in some tables it also finds in others. -/
structure Extends (readLink readLink' : UInt64 → Result String)
    (inodes inodes' : List PersistedInode)
    (entries entries' : List PersistedDirectoryEntry) : Prop where
  inode : ∀ {id inode}, requireInode inodes id = .ok inode →
    requireInode inodes' id = .ok inode
  parent : ∀ {directory above},
    parentDirectory inodes entries directory = .ok above →
    parentDirectory inodes' entries' directory = .ok above
  entry : ∀ {current component entry},
    lookupEntry entries current component = some entry →
    lookupEntry entries' current component = some entry
  link : ∀ {id target}, readLink id = .ok target → readLink' id = .ok target

namespace Extends

variable {readLink readLink' : UInt64 → Result String}
  {inodes inodes' : List PersistedInode}
  {entries entries' : List PersistedDirectoryEntry}

/-- The inodes that a walk meets are the same. -/
theorem simulates
    (h : Extends readLink readLink' inodes inodes' entries entries') :
    WalkSimulates readLink readLink' inodes inodes' entries entries' where
  inode := fun hinode => ⟨_, h.inode hinode, rfl, rfl⟩
  parent := h.parent
  entry := h.entry
  link := h.link

end Extends

section Grown

variable {sb : Superblock} {d d' : Disk} {a : BlockAllocator}
  {inodes : List PersistedInode} {entries : List PersistedDirectoryEntry}
  {parent : UInt64} {name : String} {inode : PersistedInode}

/-- An inode is found in a table with one more. -/
theorem findInode_append {id : UInt64} {other : PersistedInode}
    (hfind : findInode inodes id = some other) :
    findInode (inodes ++ [inode]) id = some other := by
  rw [findInode, List.find?_append]
  show (findInode inodes id).or _ = _
  rw [hfind, Option.some_or]

/-- An entry is found in a table with one more. -/
theorem lookupEntry_append {current : UInt64} {component : String}
    {entry new : PersistedDirectoryEntry}
    (hfind : lookupEntry entries current component = some entry) :
    lookupEntry (entries ++ [new]) current component = some entry := by
  rw [lookupEntry, List.find?_append]
  show (lookupEntry entries current component).or _ = _
  rw [hfind, Option.some_or]

theorem requireInode_append {id : UInt64} {other : PersistedInode}
    (hfind : requireInode inodes id = .ok other) :
    requireInode (inodes ++ [inode]) id = .ok other := by
  rw [requireInode, okOr_eq_ok] at hfind ⊢
  exact findInode_append hfind

/-- The parent of a directory stays, since the new entry leads to the new
inode. -/
theorem Created.parentDirectory_eq (h : Mounted d sb a inodes entries)
    (hc : Created sb d d' inodes entries parent name inode)
    {directory above : UInt64}
    (hparent : parentDirectory inodes entries directory = .ok above) :
    parentDirectory (inodes ++ [inode])
      (entries ++ [⟨parent, inode.id, name⟩]) directory = .ok above := by
  unfold parentDirectory at hparent ⊢
  split at hparent
  · rename_i hroot
    rw [if_pos hroot]
    exact hparent
  rename_i hroot
  rw [if_neg hroot]
  split at hparent
  · cases hparent
  · cases hparent
  · rename_i entry hfilter
    have hentry : entry ∈ entries ∧ entry.target = directory := by
      have hmem : entry ∈ entries.filter fun e => e.target = directory := by
        rw [hfilter]
        exact List.mem_singleton_self entry
      simpa using hmem
    have hne : inode.id ≠ directory := by
      obtain ⟨other, hother, hid⟩ :=
        kindOf_ne_none.mp (h.tree.target entry hentry.1)
      rw [← hentry.2, ← hid]
      exact (hc.fresh other hother).symm
    rw [List.filter_append, hfilter,
      List.filter_cons_of_neg (by simpa using hne), List.filter_nil,
      List.append_nil]
    simp only [Except.bind_eq_ok] at hparent ⊢
    obtain ⟨other, hother, hrest⟩ := hparent
    exact ⟨other, requireInode_append hother, hrest⟩

/-- A link of before has the same target. -/
theorem Created.readSymlink_eq (h : Mounted d sb a inodes entries)
    (hc : Created sb d d' inodes entries parent name inode) {id : UInt64}
    {target : String} (hread : readSymlink d sb id = .ok target) :
    readSymlink d' sb id = .ok target := by
  obtain ⟨_, hm⟩ := hc.mounted
  simp only [readSymlink, h.inodeTable, hm.inodeTable, Except.ok_bind,
    Except.bind_eq_ok, okOr_eq_ok] at hread ⊢
  obtain ⟨other, hfind, _, hkind, hread⟩ := hread
  refine ⟨other, findInode_append hfind, (), hkind, ?_⟩
  rw [readSymlinkInode] at hread ⊢
  rw [readBlocks_congr (hc.contents other (findInode_eq_some hfind).1)]
  exact hread

/-- The tables with a new inode extend those of before. -/
theorem Created.extends (h : Mounted d sb a inodes entries)
    (hc : Created sb d d' inodes entries parent name inode) :
    Extends (readSymlink d sb) (readSymlink d' sb) inodes (inodes ++ [inode])
      entries (entries ++ [⟨parent, inode.id, name⟩]) :=
  ⟨requireInode_append, hc.parentDirectory_eq h, lookupEntry_append,
    hc.readSymlink_eq h⟩

/-- **What was found before is found.** -/
theorem Created.resolves (h : Mounted d sb a inodes entries)
    (hc : Created sb d d' inodes entries parent name inode) {path : String}
    {follow : Bool} {id : UInt64} (hpath : resolvePath d sb path follow = .ok id) :
    resolvePath d' sb path follow = .ok id := by
  obtain ⟨_, hm⟩ := hc.mounted
  exact (hc.extends h).simulates.resolvePath h.toAtRest hm.toAtRest hpath

end Grown

/-! ## Lookups of what was created -/

section Found

variable {sb : Superblock} {d d' : Disk} {a : BlockAllocator}
  {inodes : List PersistedInode} {entries : List PersistedDirectoryEntry}
  {parent : UInt64} {path parentPath name : String} {inode : PersistedInode}
  {components : List String}

/-- A path is resolved by a walk, also the root. -/
theorem AtRest.resolvePath_eq (h : AtRest d sb a inodes entries)
    (hstart : startsWithSlash path = true)
    (hparse : parseComponents path = .ok components) (hne : components ≠ [])
    (follow : Bool) :
    resolvePath d sb path follow = resolveComponents (readSymlink d sb) inodes
      entries follow (path ≠ "/" && endsWithSlash path) 0 1 components := by
  rw [resolvePath, rejectIf_of_not (by simp [hstart]), Except.ok_bind,
    h.inodeTable, Except.ok_bind, h.directoryTable, Except.ok_bind, hparse,
    Except.ok_bind, if_neg hne]

/-- A walk through a path that is resolved goes on at its inode. -/
theorem AtRest.walk_from_parent (h : AtRest d sb a inodes entries)
    (hparent : resolvePath d sb parentPath true = .ok parent)
    (hparse : parseComponents parentPath = .ok components)
    (follow requireDirectory : Bool) (component : String) :
    ∃ expansions, resolveComponents (readSymlink d sb) inodes entries follow
        requireDirectory 0 1 (components ++ [component]) =
      resolveComponents (readSymlink d sb) inodes entries follow
        requireDirectory expansions parent [component] := by
  simp only [resolvePath, h.inodeTable, h.directoryTable, hparse,
    Except.ok_bind, Except.bind_eq_ok] at hparent
  obtain ⟨_, _, hwalk⟩ := hparent
  split at hwalk
  · rename_i hnil
    subst hnil
    rw [Except.map_eq_ok] at hwalk
    obtain ⟨root, hroot, rfl⟩ := hwalk
    rw [requireInode, okOr_eq_ok] at hroot
    rw [(findInode_eq_some hroot).2]
    exact ⟨0, rfl⟩
  · exact resolveComponents_append (List.cons_ne_nil _ _) hwalk

/-- The last component, in a directory without such an entry. -/
theorem resolveComponents_absent {readLink : UInt64 → Result String}
    {follow requireDirectory : Bool} {expansions : Nat} {current : UInt64}
    {directory : PersistedInode} {component : String} {pending : List String}
    (hinode : requireInode inodes current = .ok directory)
    (hkind : directory.kind = .directory) (hdot : component ≠ ".")
    (hdots : component ≠ "..")
    (habsent : lookupEntry entries current component = none) :
    resolveComponents readLink inodes entries follow requireDirectory expansions
        current (component :: pending) =
      .error ⟨.notFound, "path component not found"⟩ := by
  rw [resolveComponents, hinode, Except.ok_bind,
    rejectIf_of_not (not_ne_iff.mpr hkind), Except.ok_bind, if_neg hdot,
    if_neg hdots, habsent]
  rfl

/-- The last component, if it names a link that is not followed. -/
theorem resolveComponents_link {readLink : UInt64 → Result String}
    {expansions : Nat} {current : UInt64} {directory target : PersistedInode}
    {component : String} {entry : PersistedDirectoryEntry}
    (hinode : requireInode inodes current = .ok directory)
    (hkind : directory.kind = .directory) (hdot : component ≠ ".")
    (hdots : component ≠ "..")
    (hentry : lookupEntry entries current component = some entry)
    (htarget : requireInode inodes entry.target = .ok target)
    (hlink : target.kind = .symlink) :
    resolveComponents readLink inodes entries false false expansions current
      [component] = .ok target.id := by
  rw [resolveComponents, hinode, Except.ok_bind,
    rejectIf_of_not (not_ne_iff.mpr hkind), Except.ok_bind, if_neg hdot,
    if_neg hdots, hentry, okOr_some, Except.ok_bind, htarget, Except.ok_bind,
    if_pos hlink, if_pos ⟨rfl, rfl, rfl⟩]
  rfl

namespace Created

/-- The name of the new entry is a name of its own. -/
theorem name_ne (hc : Created sb d d' inodes entries parent name inode) :
    name ≠ "." ∧ name ≠ ".." := by
  obtain ⟨_, hm⟩ := hc.mounted
  have hvalid := (hm.valid (List.mem_append_right _ List.mem_cons_self)).2.2
  constructor
  · intro heq
    subst heq
    exact hvalid (.inr (.inl rfl))
  · intro heq
    subst heq
    exact hvalid (.inr (.inr (.inl rfl)))

/-- The directory of the new entry is in the table of before. -/
theorem exists_directory (h : Mounted d sb a inodes entries)
    (hc : Created sb d d' inodes entries parent name inode) :
    ∃ directory, requireInode inodes parent = .ok directory ∧
      directory.kind = .directory := by
  obtain ⟨directory, hmem, rfl, hkind⟩ := exists_of_kindOf hc.parent_kind
  refine ⟨directory, ?_, hkind⟩
  rw [requireInode, findInode_of_mem h.nodup_ids hmem]
  rfl

/-- The new entry is found, and leads to the new inode. -/
theorem lookups (hc : Created sb d d' inodes entries parent name inode) :
    lookupEntry (entries ++ [⟨parent, inode.id, name⟩]) parent name =
        some ⟨parent, inode.id, name⟩ ∧
      requireInode (inodes ++ [inode]) inode.id = .ok inode := by
  constructor
  · rw [lookupEntry, List.find?_append]
    show (lookupEntry entries parent name).or _ = _
    rw [lookupEntry_eq_none.mpr hc.absent]
    simp
  · obtain ⟨_, hm⟩ := hc.mounted
    rw [requireInode, findInode_of_mem hm.nodup_ids (by simp)]
    rfl

/-- **The new inode is found under a path that continues that of its parent,
and nothing was there before.** -/
theorem found (h : Mounted d sb a inodes entries)
    (hc : Created sb d d' inodes entries parent name inode)
    (hstart : startsWithSlash path = true)
    (hparent : resolvePath d sb parentPath true = .ok parent)
    (hcomponents : parseComponents parentPath = .ok components)
    (hparse : parseComponents path = .ok (components ++ [name]))
    (hslash : (path ≠ "/" && endsWithSlash path) = true →
      inode.kind = .directory) :
    resolvePath d' sb path false = .ok inode.id ∧
      resolvePath d sb path false =
        .error ⟨.notFound, "path component not found"⟩ := by
  obtain ⟨directory, hdirectory, hkind⟩ := hc.exists_directory h
  obtain ⟨hdot, hdots⟩ := hc.name_ne
  obtain ⟨_, hm⟩ := hc.mounted
  constructor
  · obtain ⟨hentry, htarget⟩ := hc.lookups
    rw [hm.resolvePath_eq hstart hparse (by simp)]
    obtain ⟨expansions, hwalk⟩ := hm.walk_from_parent (hc.resolves h hparent)
      hcomponents false (path ≠ "/" && endsWithSlash path) name
    rw [hwalk]
    by_cases hlink : inode.kind = .symlink
    · have hfile : (path ≠ "/" && endsWithSlash path) = false := by
        by_contra htrue
        rw [Bool.not_eq_false] at htrue
        rw [hslash htrue] at hlink
        cases hlink
      rw [hfile]
      exact resolveComponents_link (requireInode_append hdirectory) hkind hdot
        hdots hentry htarget hlink
    · rw [resolveComponents_entry (requireInode_append hdirectory) hkind hdot
        hdots hentry htarget hlink]
      exact resolveComponents_end htarget hslash
  · rw [h.resolvePath_eq hstart hparse (by simp)]
    obtain ⟨expansions, hwalk⟩ := h.walk_from_parent hparent hcomponents false
      (path ≠ "/" && endsWithSlash path) name
    rw [hwalk]
    exact resolveComponents_absent hdirectory hkind hdot hdots
      (lookupEntry_eq_none.mpr hc.absent)

end Created

end Found

/-! ## The creators -/

/-- The functions that create at a path. -/
inductive PathCreator where
  | emptyFile
  | fileWithBlocks (data : List Block)
  | directory
  | symlink (target : String)

/-- A call of one of the functions. -/
def PathCreator.run {σ : Type} [BlockDevice σ] (sb : Superblock)
    (path : String) : PathCreator → DevM σ (UInt64 × RecoveryReport)
  | .emptyFile => createEmptyFileAtPathJournaled sb path
  | .fileWithBlocks data => createFileWithBlocksAtPathJournaled sb path data
  | .directory => createDirectoryAtPathJournaled sb path
  | .symlink target => createSymlinkAtPathJournaled sb path target

/-- What the creators and the resolver should agree on: the path leads to the
new inode and led nowhere before, and all other lookups that succeeded have the
same result. -/
structure PathAgrees (sb : Superblock) (d d' : Disk) (path : String)
    (id : UInt64) : Prop where
  found : resolvePathWithoutFollowingFinalSymlink d' sb path = .ok id
  absent : ∃ e, resolvePathWithoutFollowingFinalSymlink d sb path = .error e
  kept : ∀ other follow target, resolvePath d sb other follow = .ok target →
    resolvePath d' sb other follow = .ok target

section Creators

variable {sb : Superblock} {d d' : Disk} {a : BlockAllocator}
  {inodes : List PersistedInode} {entries : List PersistedDirectoryEntry}

/-- What the creators leave: a new inode at the path, of which one trailing
slash was stripped if it is a directory. -/
theorem Mounted.pathCreator (h : Mounted d sb a inodes entries)
    (creator : PathCreator) (path : String) :
    Effect.Atomic (creator.run sb path) d fun r d' =>
      ∃ messages stripped kind,
        (path = stripped ∨ kind = .directory ∧
          path.toList = stripped.toList ++ ['/'] ∧
          stripped.toList.getLast? ≠ some '/') ∧
        CreatedAt messages sb d d' inodes entries stripped kind r.1 := by
  cases creator with
  | emptyFile =>
    apply (h.createBlockless path (by decide)).mono
    intro r d' hcreated
    exact ⟨_, path, _, .inl rfl, hcreated⟩
  | fileWithBlocks data =>
    apply (h.createFileWithBlocks path data).mono
    intro r d' hcreated
    exact ⟨_, path, _, .inl rfl, hcreated⟩
  | directory =>
    apply Effect.atomic_lift_bind
    intro stripped hstripped
    apply (h.createBlockless stripped (by decide)).mono
    intro r d' hcreated
    refine ⟨_, stripped, _, ?_, hcreated⟩
    rcases stripSingleDirectoryTrailingSlash_eq_ok hstripped with heq | hslash
    · exact .inl heq
    · exact .inr ⟨rfl, hslash⟩
  | symlink target =>
    apply (h.createSymlinkAtPath path target).mono
    intro r d' hcreated
    exact ⟨_, path, _, .inl rfl, hcreated⟩

end Creators

/-- **What was created is found under its path exactly if the path has no
adjacent slashes.**  On a device that the check accepts, with an empty journal,
a path that was created leads to the new inode and led nowhere before, and every
lookup that succeeded has the same result, if and only if the path does not
contain two slashes in a row. -/
theorem createPath_agrees_iff {d : Disk} {sb : Superblock} {report : FsckReport}
    (hsb : readSuperblock d = .ok sb) (hjournal : loadJournalImage d sb = .ok [])
    (hcheck : checkDevice d = .ok report) (creator : PathCreator)
    (path : String) {r : UInt64 × RecoveryReport} {d' : Disk}
    (hrun : creator.run sb path d = (.ok r, d')) :
    PathAgrees sb d d' path r.1 ↔ ¬ AdjacentSlashes path := by
  obtain ⟨a, inodes, entries, h⟩ := exists_mounted hsb hjournal hcheck
  obtain ⟨messages, stripped, kind, hstripped, parentPath, parent, name, inode,
    hsplit, hparent, hid, hkind, hc⟩ := (h.pathCreator creator path).of_ok hrun
  obtain ⟨front, hsplits⟩ := splits_of_splitPath hsplit
  obtain ⟨body, hbody, _⟩ := hsplits.exists_body
  -- the trailing slash of a directory changes neither reading
  have hreading : startsWithSlash path = true ∧
      parseComponents path = parseComponents stripped ∧
      (AdjacentSlashes path ↔ AdjacentSlashes stripped) ∧
      ((path ≠ "/" && endsWithSlash path) = true →
        inode.kind = .directory) := by
    rcases hstripped with rfl | ⟨rfl, hpath, hlast⟩
    · refine ⟨?_, rfl, Iff.rfl, ?_⟩
      · rw [startsWithSlash, hbody]
        rfl
      · intro hslash
        rw [Bool.and_eq_true, endsWithSlash] at hslash
        exact absurd (of_decide_eq_true hslash.2) hsplits.getLast_ne
    · refine ⟨?_, (parseComponents_stripped hsplits hpath).2,
        adjacentSlashes_stripped hpath hlast, fun _ => hkind⟩
      rw [startsWithSlash, hpath, hbody]
      rfl
  obtain ⟨hstart, hparse, hadjacent, hslash⟩ := hreading
  rw [hadjacent]
  constructor
  · intro hagrees hadj
    obtain ⟨e, he⟩ := parseComponents_of_adjacent hsplits hadj
    obtain ⟨_, hm⟩ := hc.mounted
    have hfound := hagrees.found
    rw [resolvePathWithoutFollowingFinalSymlink, resolvePath,
      rejectIf_of_not (by simp [hstart]), Except.ok_bind, hm.inodeTable,
      Except.ok_bind, hm.directoryTable, Except.ok_bind, hparse, he] at hfound
    cases hfound
  · intro hno
    obtain ⟨components, hcomponents⟩ :
        ∃ components, parseComponents parentPath = .ok components := by
      simp only [resolvePathFollowingSymlinks, resolvePath,
        Except.bind_eq_ok] at hparent
      obtain ⟨_, _, _, _, _, _, components, hcomponents, _⟩ := hparent
      exact ⟨components, hcomponents⟩
    have hpath := parseComponents_of_split hsplits hno hcomponents
    obtain ⟨hfound, habsent⟩ := hc.found h hstart hparent hcomponents
      (hparse.trans hpath) hslash
    refine ⟨?_, ⟨_, habsent⟩, ?_⟩
    · rw [← hid]
      exact hfound
    · intro other follow target hresolved
      exact hc.resolves h hresolved

/-- The parent of the sample path is resolved with its trailing slash. -/
theorem resolve_directory_treeDisk :
    resolvePathFollowingSymlinks treeDisk treeSuperblock "/d/" = .ok 2 := by
  have h := mounted_treeDisk
  have hparse : parseComponents "/d/" = .ok ["d"] := by decide
  have hroot : requireInode treeInodes 1 = .ok ⟨1, .directory, [], 0⟩ := rfl
  have hdirectory : requireInode treeInodes 2 = .ok ⟨2, .directory, [], 0⟩ :=
    rfl
  have hentry : lookupEntry treeEntries 1 "d" = some ⟨1, 2, "d"⟩ := by decide
  rw [resolvePathFollowingSymlinks, h.resolvePath_eq (by decide) hparse
    (by decide), resolveComponents_entry hroot rfl (by decide) (by decide)
    hentry hdirectory (by decide)]
  exact resolveComponents_end hdirectory fun _ => rfl

/-- The tables of the sample with a second file in the directory. -/
def grownInodes : List PersistedInode := treeInodes ++ [⟨4, .file, [], 0⟩]

def grownEntries : List PersistedDirectoryEntry :=
  treeEntries ++ [⟨2, 4, "g"⟩]

/-- A file is created under a path with adjacent slashes. -/
theorem createEmptyFile_treeDisk :
    ∃ r d', createEmptyFileAtPathJournaled treeSuperblock "/d//g" treeDisk =
        (.ok r, d') ∧
      AtRest d' treeSuperblock treeAllocator grownInodes grownEntries := by
  have h := mounted_treeDisk
  have hsplit : splitPath createSplit "/d//g" = .ok ("/d/", "g") := by decide
  have hvalid : validateCreateDestination 2 "g" treeInodes treeEntries =
      .ok () := by decide
  have hid : nextInodeId treeInodes = .ok 4 := by decide
  have hinode : PersistedInode.new 4 .file [] = .ok ⟨4, .file, [], 0⟩ := by
    decide
  obtain ⟨bytes, hbytes⟩ : ∃ bytes,
      encodeDirectoryEntry ⟨2, 4, "g"⟩ = .ok bytes :=
    ⟨_, encodeDirectoryEntry_eq_ok.mpr ⟨by decide, rfl⟩⟩
  have hrun := h.createBlockless_run hsplit resolve_directory_treeDisk hvalid
    hid hbytes hinode
  obtain ⟨report, d', hdone, hbecame⟩ := (h.storeCreateMetadata treeAllocator
    grownInodes grownEntries).of_storable (storable_tree
      (exists_inodeImage (by decide) (by decide) (by decide) (by decide)
        (by decide))
      (exists_directoryImage (by decide) (by decide) (by decide) (by decide)
        (by decide)))
  exact ⟨(4, report), d', hrun.trans (Effect.bind_of_ok hdone),
    hbecame.toAtRest⟩

theorem createPath_disagrees :
    loadJournalImage treeDisk treeSuperblock = .ok [] ∧
    (∃ report, checkDevice treeDisk = .ok report) ∧
    ∃ r d', createEmptyFileAtPathJournaled treeSuperblock "/d//g" treeDisk =
      (.ok r, d') ∧ ¬ PathAgrees treeSuperblock treeDisk d' "/d//g" r.1 := by
  refine ⟨mounted_treeDisk.journal, ⟨_, mounted_treeDisk.check⟩, ?_⟩
  obtain ⟨r, d', hrun, _⟩ := createEmptyFile_treeDisk
  refine ⟨r, d', hrun, ?_⟩
  intro hagrees
  have hfound := hagrees.found
  simp only [resolvePathWithoutFollowingFinalSymlink, resolvePath,
    Except.bind_eq_ok] at hfound
  obtain ⟨_, _, _, _, _, _, components, hparse, _⟩ := hfound
  have hbad : parseComponents "/d//g" =
      .error (invalidInput "path contains an empty component") := by decide
  rw [hbad] at hparse
  cases hparse

theorem createPath_agrees_iff_treeDisk :
    ∃ r d', createEmptyFileAtPathJournaled treeSuperblock "/d//g" treeDisk =
      (.ok r, d') ∧
      (PathAgrees treeSuperblock treeDisk d' "/d//g" r.1 ↔
        ¬ AdjacentSlashes "/d//g") := by
  obtain ⟨r, d', hrun, _⟩ := createEmptyFile_treeDisk
  exact ⟨r, d', hrun, createPath_agrees_iff mounted_treeDisk.superblock
    mounted_treeDisk.journal mounted_treeDisk.check .emptyFile "/d//g" hrun⟩

end FilesystemLab
