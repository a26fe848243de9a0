import FilesystemLab.Lib.Effect
import FilesystemLab.NamespaceEdit

/-!
# Path lookup

`path_lookup.rs` and the path functions that split off a final component.

A path is split at its slashes.  `resolveComponents` is the loop of
`resolve_path`: it walks from the root through the directory table and expands
at most `MAX_SYMLINK_EXPANSIONS` symbolic links.

The functions that create, unlink or rename an entry resolve the parent of the
entry only; `splitPath` gives them the parent path and the final component.
-/

namespace FilesystemLab

/-! ## Strings -/

/-- `path.starts_with('/')`. -/
def startsWithSlash (path : String) : Bool := path.toList.head? = some '/'

/-- `path.ends_with('/')`. -/
def endsWithSlash (path : String) : Bool := path.toList.getLast? = some '/'

/-- `path.rsplit_once('/')`, on the characters of a path. -/
def rsplitOnce : List Char → Option (List Char × List Char)
  | [] => none
  | c :: cs =>
    match rsplitOnce cs with
    | some (parent, name) => some (c :: parent, name)
    | none => if c = '/' then some ([], cs) else none

/-- `body.strip_suffix('/').unwrap_or(body)`. -/
def stripSuffix (body : List Char) : List Char :=
  if body.getLast? = some '/' then body.dropLast else body

/-- `parse_component_sequence`. -/
def parseComponentSequence (sequence : List Char) : Result (List String) := do
  rejectIf (sequence = []) (invalidInput "path contains an empty component")
  rejectIf ([] ∈ sequence.splitOn '/')
    (invalidInput "path contains an empty component")
  pure ((sequence.splitOn '/').map String.ofList)

/-- `parse_components`. -/
def parseComponents (path : String) : Result (List String) :=
  if path = "/" then pure []
  else
    match path.toList with
    | '/' :: body => parseComponentSequence (stripSuffix body)
    | _ => .error (invalidInput "path must be absolute")

/-- `parse_target_components`. -/
def parseTargetComponents (target : String) : Result (List String) :=
  if target = "/" then pure []
  else
    match target.toList with
    | '/' :: body => parseComponentSequence (stripSuffix body)
    | body => parseComponentSequence (stripSuffix body)

/-! ## The walk -/

def MAX_SYMLINK_EXPANSIONS : Nat := 40

/-- `require_inode`. -/
def requireInode (inodes : List PersistedInode) (id : UInt64) :
    Result PersistedInode :=
  okOr (findInode inodes id)
    (invalidData "namespace references a missing inode")

/-- `parent_directory`. -/
def parentDirectory (inodes : List PersistedInode)
    (entries : List PersistedDirectoryEntry) (directory : UInt64) :
    Result UInt64 :=
  if directory = 1 then pure 1
  else
    match entries.filter fun entry => entry.target = directory with
    | [] =>
      .error (invalidData "directory has no persisted parent namespace entry")
    | _ :: _ :: _ =>
      .error (invalidData
        "directory has ambiguous persisted parent namespace entries")
    | [entry] => do
      let inode ← requireInode inodes entry.parent
      rejectIf (inode.kind ≠ .directory) (invalidData
        "directory parent namespace entry does not reference a directory")
      pure entry.parent

/-- The loop of `resolve_path`.  `readLink` is `read_symlink` on the device. -/
def resolveComponents (readLink : UInt64 → Result String)
    (inodes : List PersistedInode) (entries : List PersistedDirectoryEntry)
    (followFinal requireDirectory : Bool) (expansions : Nat)
    (current : UInt64) (pending : List String) : Result UInt64 :=
  match pending with
  | [] => do
    let inode ← requireInode inodes current
    rejectIf (requireDirectory = true ∧ inode.kind ≠ .directory)
      (invalidInput "trailing slash requires a directory inode")
    pure current
  | component :: pending => do
    let inode ← requireInode inodes current
    rejectIf (inode.kind ≠ .directory)
      (invalidInput "path traversal requires a directory inode")
    if component = "." then
      resolveComponents readLink inodes entries followFinal requireDirectory
        expansions current pending
    else if component = ".." then do
      let parent ← parentDirectory inodes entries current
      resolveComponents readLink inodes entries followFinal requireDirectory
        expansions parent pending
    else do
      let entry ← okOr (lookupEntry entries current component)
        ⟨.notFound, "path component not found"⟩
      let target ← requireInode inodes entry.target
      if target.kind = .symlink then
        if pending = [] ∧ followFinal = false ∧ requireDirectory = false then
          pure target.id
        else if _h : expansions < MAX_SYMLINK_EXPANSIONS then do
          let link ← readLink target.id
          let expanded ← parseTargetComponents link
          resolveComponents readLink inodes entries followFinal
            (requireDirectory ||
              (link ≠ "/" && endsWithSlash link && pending = []))
            (expansions + 1)
            (if startsWithSlash link then 1 else current)
            (expanded ++ pending)
        else
          .error (invalidData "symbolic-link expansion limit exceeded")
      else
        resolveComponents readLink inodes entries followFinal requireDirectory
          expansions target.id pending
termination_by (MAX_SYMLINK_EXPANSIONS - expansions, pending.length)

section Device

variable {σ : Type} [BlockDevice σ]

/-- `read_symlink`. -/
def readSymlink (device : σ) (sb : Superblock) (id : UInt64) :
    Result String := do
  let inodes ← loadInodeTable device sb
  let inode ← okOr (findInode inodes id)
    (invalidInput "symlink inode is missing")
  rejectIf (inode.kind ≠ .symlink)
    (invalidInput "inode is not a symbolic link")
  readSymlinkInode device inode

/-- `resolve_path`. -/
def resolvePath (device : σ) (sb : Superblock) (path : String)
    (followFinal : Bool) : Result UInt64 := do
  rejectIf (startsWithSlash path = false) (invalidInput "path must be absolute")
  let inodes ← loadInodeTable device sb
  let entries ← loadDirectoryTable device sb
  let pending ← parseComponents path
  if pending = [] then
    (requireInode inodes 1).map PersistedInode.id
  else
    resolveComponents (readSymlink device sb) inodes entries followFinal
      (path ≠ "/" && endsWithSlash path) 0 1 pending

/-- `resolve_path_following_symlinks`. -/
def resolvePathFollowingSymlinks (device : σ) (sb : Superblock)
    (path : String) : Result UInt64 :=
  resolvePath device sb path true

/-- `resolve_path_without_following_final_symlink`. -/
def resolvePathWithoutFollowingFinalSymlink (device : σ) (sb : Superblock)
    (path : String) : Result UInt64 :=
  resolvePath device sb path false

/-- A lookup that succeeds, then the rest. -/
theorem resolve_bind {α : Type} {device : σ} {sb : Superblock} {path : String}
    {id : UInt64} (h : resolvePathFollowingSymlinks device sb path = .ok id)
    (f : UInt64 → DevM σ α) :
    (Effect.query (resolvePathFollowingSymlinks · sb path) >>= f) device =
      f id device :=
  Effect.query_bind_of_ok h

end Device

/-! ## The final component -/

/-- The messages of a function that splits off the final component. -/
structure SplitMessages where
  relative : String
  root : String
  missing : String
  empty : String

/-- The functions that split a path into the path of the parent and the final
component. -/
def splitPath (messages : SplitMessages) (path : String) :
    Result (String × String) := do
  rejectIf (startsWithSlash path = false) (invalidInput messages.relative)
  rejectIf (path = "/") (invalidInput messages.root)
  let parts ← okOr (rsplitOnce path.toList) (invalidInput messages.missing)
  rejectIf (parts.2 = []) (invalidInput messages.empty)
  pure (if parts.1 = [] then "/" else String.ofList parts.1,
    String.ofList parts.2)

/-- `normalize_directory_intent`: the path without one trailing slash, and
whether it had one. -/
def normalizeDirectoryIntent (path label : String) :
    Result (String × Bool) :=
  if path = "/" ∨ endsWithSlash path = false then pure (path, false)
  else do
    let stripped := String.ofList path.toList.dropLast
    rejectIf (endsWithSlash stripped = true)
      (invalidInput (label ++ " contains repeated trailing separators"))
    pure (stripped, true)

/-! ## Steps of the walk -/

/-- Where one component leads: to an inode at which the walk stops, or on with
the components of a link in front of the others.  `requires` says that the link
asks for a directory. -/
inductive WalkStep where
  | stop (id : UInt64)
  | go (expansions : Nat) (current : UInt64) (expanded : List String)
    (requires : Bool)

/-- The body of the loop of `resolve_path`.  With `final`, a link is not
followed. -/
def walkStep (readLink : UInt64 → Result String)
    (inodes : List PersistedInode) (entries : List PersistedDirectoryEntry)
    (final : Bool) (expansions : Nat) (current : UInt64) (component : String) :
    Result WalkStep := do
  let inode ← requireInode inodes current
  rejectIf (inode.kind ≠ .directory)
    (invalidInput "path traversal requires a directory inode")
  if component = "." then pure (.go expansions current [] false)
  else if component = ".." then do
    let parent ← parentDirectory inodes entries current
    pure (.go expansions parent [] false)
  else do
    let entry ← okOr (lookupEntry entries current component)
      ⟨.notFound, "path component not found"⟩
    let target ← requireInode inodes entry.target
    if target.kind = .symlink then
      if final = true then pure (.stop target.id)
      else if expansions < MAX_SYMLINK_EXPANSIONS then do
        let link ← readLink target.id
        let expanded ← parseTargetComponents link
        pure (.go (expansions + 1) (if startsWithSlash link then 1 else current)
          expanded (link ≠ "/" && endsWithSlash link))
      else
        .error (invalidData "symbolic-link expansion limit exceeded")
    else
      pure (.go expansions target.id [] false)

section Walk

variable {readLink : UInt64 → Result String} {inodes : List PersistedInode}
  {entries : List PersistedDirectoryEntry} {follow requireDirectory : Bool}
  {expansions : Nat} {current : UInt64} {component : String}
  {pending : List String} {inode : PersistedInode}

/-- The walk is the iteration of its step. -/
theorem resolveComponents_cons :
    resolveComponents readLink inodes entries follow requireDirectory expansions
        current (component :: pending) =
      walkStep readLink inodes entries
          (pending = [] ∧ follow = false ∧ requireDirectory = false) expansions
          current component >>= fun
        | .stop id => pure id
        | .go expansions current expanded requires =>
          resolveComponents readLink inodes entries follow
            (requireDirectory || (requires && pending = [])) expansions current
            (expanded ++ pending) := by
  rw [resolveComponents, walkStep, bind_assoc]
  congr 1
  funext inode
  rw [bind_assoc]
  congr 1
  funext _
  by_cases hdot : component = "."
  · rw [if_pos hdot, if_pos hdot]
    simp
  by_cases hdots : component = ".."
  · rw [if_neg hdot, if_pos hdots, if_neg hdot, if_pos hdots, bind_assoc]
    simp
  rw [if_neg hdot, if_neg hdots, if_neg hdot, if_neg hdots, bind_assoc]
  congr 1
  funext entry
  rw [bind_assoc]
  congr 1
  funext target
  by_cases hkind : target.kind = .symlink
  · rw [if_pos hkind, if_pos hkind]
    by_cases hfinal : pending = [] ∧ follow = false ∧ requireDirectory = false
    · rw [if_pos hfinal, if_pos (decide_eq_true hfinal)]
      rfl
    rw [if_neg hfinal, if_neg (by simpa using hfinal)]
    by_cases hlimit : expansions < MAX_SYMLINK_EXPANSIONS
    · rw [dif_pos hlimit, if_pos hlimit]
      simp [Bool.and_assoc]
    · rw [dif_neg hlimit, if_neg hlimit]
      rfl
  · rw [if_neg hkind, if_neg hkind]
    simp

/-- A component that names an entry for something else than a link. -/
theorem resolveComponents_entry
    (hinode : requireInode inodes current = .ok inode)
    (hkind : inode.kind = .directory) (hdot : component ≠ ".")
    (hdots : component ≠ "..") {entry : PersistedDirectoryEntry}
    (hentry : lookupEntry entries current component = some entry)
    {target : PersistedInode}
    (htarget : requireInode inodes entry.target = .ok target)
    (hlink : target.kind ≠ .symlink) :
    resolveComponents readLink inodes entries follow requireDirectory expansions
        current (component :: pending) =
      resolveComponents readLink inodes entries follow requireDirectory
        expansions target.id pending := by
  rw [resolveComponents, hinode, Except.ok_bind,
    rejectIf_of_not (not_ne_iff.mpr hkind), Except.ok_bind, if_neg hdot,
    if_neg hdots, hentry, okOr_some, Except.ok_bind, htarget, Except.ok_bind,
    if_neg hlink]

/-- The end of a path. -/
theorem resolveComponents_end (hinode : requireInode inodes current = .ok inode)
    (hkind : requireDirectory = true → inode.kind = .directory) :
    resolveComponents readLink inodes entries follow requireDirectory expansions
      current [] = .ok current := by
  rw [resolveComponents, hinode, Except.ok_bind, rejectIf_of_not]
  · rfl
  · intro hfacts
    rcases hfacts with ⟨hrequire, hne⟩
    exact hne (hkind hrequire)

/-- A step that goes on either leaves the other components or spends one
expansion. -/
theorem walkStep_go {final requires : Bool} {expansions' : Nat}
    {current' : UInt64} {expanded : List String}
    (h : walkStep readLink inodes entries final expansions current component =
      .ok (.go expansions' current' expanded requires)) :
    expansions' = expansions ∧ expanded = [] ∨
      expansions' = expansions + 1 ∧ expansions < MAX_SYMLINK_EXPANSIONS := by
  simp only [walkStep, Except.bind_eq_ok] at h
  obtain ⟨_, _, _, _, h⟩ := h
  split at h
  · cases h
    exact .inl ⟨rfl, rfl⟩
  split at h
  · simp only [Except.bind_eq_ok] at h
    obtain ⟨_, _, h⟩ := h
    cases h
    exact .inl ⟨rfl, rfl⟩
  simp only [Except.bind_eq_ok] at h
  obtain ⟨_, _, _, _, h⟩ := h
  split at h
  · split at h
    · cases h
    split at h
    · rename_i hlimit
      simp only [Except.bind_eq_ok] at h
      obtain ⟨_, _, _, _, h⟩ := h
      cases h
      exact .inr ⟨rfl, hlimit⟩
    · cases h
  · cases h
    exact .inl ⟨rfl, rfl⟩

/-- A step that follows links goes on. -/
theorem walkStep_ne_stop {id : UInt64} :
    walkStep readLink inodes entries false expansions current component ≠
      .ok (.stop id) := by
  intro h
  simp only [walkStep, Except.bind_eq_ok] at h
  obtain ⟨_, _, _, _, h⟩ := h
  split at h
  · cases h
  split at h
  · simp only [Except.bind_eq_ok] at h
    obtain ⟨_, _, h⟩ := h
    cases h
  simp only [Except.bind_eq_ok] at h
  obtain ⟨_, _, _, _, h⟩ := h
  split at h
  · rw [if_neg (by decide)] at h
    split at h
    · simp only [Except.bind_eq_ok] at h
      obtain ⟨_, _, _, _, h⟩ := h
      cases h
    · cases h
  · cases h

/-- **Induction along a walk**: a fact about walks holds if it holds at the end
of the components and is carried over every step backwards. -/
theorem walk_induction {motive : Bool → Nat → UInt64 → List String → Prop}
    (nil : ∀ requireDirectory expansions current,
      motive requireDirectory expansions current [])
    (cons : ∀ requireDirectory expansions current component pending,
      (∀ final expansions' current' expanded requires,
        walkStep readLink inodes entries final expansions current component =
          .ok (.go expansions' current' expanded requires) →
        motive (requireDirectory || (requires && pending = [])) expansions'
          current' (expanded ++ pending)) →
      motive requireDirectory expansions current (component :: pending))
    (requireDirectory : Bool) (expansions : Nat) (current : UInt64)
    (pending : List String) :
    motive requireDirectory expansions current pending := by
  match pending with
  | [] => exact nil requireDirectory expansions current
  | component :: pending =>
    apply cons
    intro final expansions' current' expanded requires hstep
    have hspent := walkStep_go hstep
    exact walk_induction nil cons _ expansions' current' (expanded ++ pending)
termination_by (MAX_SYMLINK_EXPANSIONS - expansions, pending.length)
decreasing_by
  rcases hspent with ⟨rfl, rfl⟩ | ⟨rfl, hlimit⟩
  · exact Prod.Lex.right _ (by simp)
  · exact Prod.Lex.left _ _ (by omega)

/-- **A walk goes on where a shorter one ends.** -/
theorem resolveComponents_append {followFinal require' : Bool} {id : UInt64}
    {rest : List String} (hrest : rest ≠ [])
    (h : resolveComponents readLink inodes entries true requireDirectory
      expansions current pending = .ok id) :
    ∃ expansions', resolveComponents readLink inodes entries followFinal require'
        expansions current (pending ++ rest) =
      resolveComponents readLink inodes entries followFinal require' expansions'
        id rest := by
  induction requireDirectory, expansions, current, pending using
    @walk_induction readLink inodes entries with
  | nil requireDirectory expansions current =>
    simp only [resolveComponents, Except.bind_eq_ok, Except.pure_eq_ok,
      Except.ok.injEq] at h
    obtain ⟨_, _, _, _, rfl⟩ := h
    exact ⟨expansions, rfl⟩
  | cons requireDirectory expansions current component pending ih =>
    rw [resolveComponents_cons, decide_eq_false (by simp),
      Except.bind_eq_ok] at h
    obtain ⟨step, hstep, h⟩ := h
    cases step with
    | stop id => exact absurd hstep walkStep_ne_stop
    | go expansions' current' expanded requires =>
      obtain ⟨e, he⟩ := ih _ _ _ _ _ hstep h
      refine ⟨e, ?_⟩
      have hmore : pending ++ rest ≠ [] := by simp [hrest]
      rw [List.cons_append, resolveComponents_cons,
        decide_eq_false (fun hnil => hmore hnil.1), hstep, Except.ok_bind]
      show resolveComponents _ _ _ _ (_ || (_ && decide (pending ++ rest = [])))
        _ _ _ = _
      rw [decide_eq_false hmore, Bool.and_false, Bool.or_false,
        ← List.append_assoc]
      exact he

/-- What a walk meets in some tables it meets in others, where the inodes have
the same identifiers and kinds. -/
structure WalkSimulates (readLink readLink' : UInt64 → Result String)
    (inodes inodes' : List PersistedInode)
    (entries entries' : List PersistedDirectoryEntry) : Prop where
  inode : ∀ {id inode}, requireInode inodes id = .ok inode →
    ∃ inode', requireInode inodes' id = .ok inode' ∧ inode'.id = inode.id ∧
      inode'.kind = inode.kind
  parent : ∀ {directory above},
    parentDirectory inodes entries directory = .ok above →
    parentDirectory inodes' entries' directory = .ok above
  entry : ∀ {current component entry},
    lookupEntry entries current component = some entry →
    lookupEntry entries' current component = some entry
  link : ∀ {id target}, readLink id = .ok target → readLink' id = .ok target

end Walk

namespace WalkSimulates

variable {readLink readLink' : UInt64 → Result String}
  {inodes inodes' : List PersistedInode}
  {entries entries' : List PersistedDirectoryEntry}

/-- A step that succeeds leads to the same place. -/
theorem walkStep
    (h : WalkSimulates readLink readLink' inodes inodes' entries entries')
    {final : Bool} {expansions : Nat} {current : UInt64} {component : String}
    {step : WalkStep}
    (hstep : FilesystemLab.walkStep readLink inodes entries final expansions
      current component = .ok step) :
    FilesystemLab.walkStep readLink' inodes' entries' final expansions current
      component = .ok step := by
  simp only [FilesystemLab.walkStep, Except.bind_eq_ok, rejectIf_eq_ok]
    at hstep ⊢
  obtain ⟨inode, hinode, _, hkind, hstep⟩ := hstep
  obtain ⟨inode', hinode', _, hkind'⟩ := h.inode hinode
  refine ⟨inode', hinode', (), by rw [hkind']; exact hkind, ?_⟩
  split at hstep
  · rename_i hdot
    rw [if_pos hdot]
    exact hstep
  rename_i hdot
  rw [if_neg hdot]
  split at hstep
  · rename_i hdots
    rw [if_pos hdots]
    simp only [Except.bind_eq_ok] at hstep ⊢
    obtain ⟨above, habove, hstep⟩ := hstep
    exact ⟨above, h.parent habove, hstep⟩
  rename_i hdots
  rw [if_neg hdots]
  simp only [Except.bind_eq_ok, okOr_eq_ok] at hstep ⊢
  obtain ⟨entry, hentry, target, htarget, hstep⟩ := hstep
  obtain ⟨target', htarget', hid, hkind'⟩ := h.inode htarget
  refine ⟨entry, h.entry hentry, target', htarget', ?_⟩
  rw [hid, hkind']
  split at hstep
  · rename_i hlink
    rw [if_pos hlink]
    split at hstep
    · rename_i hfinal
      rw [if_pos hfinal]
      exact hstep
    rename_i hfinal
    rw [if_neg hfinal]
    split at hstep
    · rename_i hlimit
      rw [if_pos hlimit]
      simp only [Except.bind_eq_ok] at hstep ⊢
      obtain ⟨link, hread, hstep⟩ := hstep
      exact ⟨link, h.link hread, hstep⟩
    · cases hstep
  · rename_i hlink
    rw [if_neg hlink]
    exact hstep

/-- **A walk that succeeds ends at the same inode.** -/
theorem resolveComponents
    (h : WalkSimulates readLink readLink' inodes inodes' entries entries')
    {follow requireDirectory : Bool} {expansions : Nat} {current id : UInt64}
    {pending : List String}
    (hwalk : FilesystemLab.resolveComponents readLink inodes entries follow
      requireDirectory expansions current pending = .ok id) :
    FilesystemLab.resolveComponents readLink' inodes' entries' follow
      requireDirectory expansions current pending = .ok id := by
  induction requireDirectory, expansions, current, pending using
    @walk_induction readLink inodes entries with
  | nil requireDirectory expansions current =>
    simp only [FilesystemLab.resolveComponents, Except.bind_eq_ok,
      rejectIf_eq_ok] at hwalk ⊢
    obtain ⟨inode, hinode, _, hkind, hrest⟩ := hwalk
    obtain ⟨inode', hinode', _, hkind'⟩ := h.inode hinode
    exact ⟨inode', hinode', (), by rw [hkind']; exact hkind, hrest⟩
  | cons requireDirectory expansions current component pending ih =>
    rw [resolveComponents_cons, Except.bind_eq_ok] at hwalk ⊢
    obtain ⟨step, hstep, hrest⟩ := hwalk
    refine ⟨step, h.walkStep hstep, ?_⟩
    cases step with
    | stop id => exact hrest
    | go expansions' current' expanded requires => exact ih _ _ _ _ _ hstep hrest

/-- A path that is resolved on one disk is resolved on the other. -/
theorem resolvePath {d d' : Disk} {sb : Superblock} {a a' : BlockAllocator}
    (h : WalkSimulates (readSymlink d sb) (readSymlink d' sb) inodes inodes'
      entries entries') (hd : AtRest d sb a inodes entries)
    (hd' : AtRest d' sb a' inodes' entries') {path : String} {follow : Bool}
    {id : UInt64}
    (hpath : FilesystemLab.resolvePath d sb path follow = .ok id) :
    FilesystemLab.resolvePath d' sb path follow = .ok id := by
  simp only [FilesystemLab.resolvePath, hd.inodeTable, hd.directoryTable,
    hd'.inodeTable, hd'.directoryTable, Except.ok_bind, Except.bind_eq_ok]
    at hpath ⊢
  obtain ⟨_, hstart, pending, hparse, hwalk⟩ := hpath
  refine ⟨(), hstart, pending, hparse, ?_⟩
  split at hwalk
  · rename_i hnil
    rw [if_pos hnil]
    simp only [Except.map_eq_ok] at hwalk ⊢
    obtain ⟨root, hroot, rfl⟩ := hwalk
    obtain ⟨root', hroot', hid, _⟩ := h.inode hroot
    exact ⟨root', hroot', hid⟩
  · rename_i hne
    rw [if_neg hne]
    exact h.resolveComponents hwalk

end WalkSimulates

/-- The root of a disk at rest. -/
theorem AtRest.resolve_root {d : Disk} {sb : Superblock} {a : BlockAllocator}
    {inodes : List PersistedInode} {entries : List PersistedDirectoryEntry}
    (h : AtRest d sb a inodes entries) {root : PersistedInode}
    (hroot : requireInode inodes 1 = .ok root) :
    resolvePathFollowingSymlinks d sb "/" = .ok 1 := by
  have hid := (findInode_eq_some (okOr_eq_ok.mp hroot)).2
  have hparse : parseComponents "/" = .ok [] := by decide
  rw [resolvePathFollowingSymlinks, resolvePath, rejectIf_of_not (by decide),
    Except.ok_bind, h.inodeTable, Except.ok_bind, h.directoryTable,
    Except.ok_bind, hparse, Except.ok_bind, if_pos rfl, hroot]
  exact congrArg Except.ok hid

end FilesystemLab
