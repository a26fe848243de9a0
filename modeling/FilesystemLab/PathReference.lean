import FilesystemLab.Create

/-!
# What a path means

The reference semantics of the paths of `path_lookup.rs`, and that
`resolve_path` computes it.

The loop of `resolve_path` keeps one queue of components: it puts the components
of a link in front of those that are left, and carries one flag for the slash
behind the path or behind the target of a final link.  The reference has neither:
`Reaches` walks the target of a link on its own, to its end, with its own slash,
and then goes on with the rest of the path.

* `walkStep_eq_go` and `walkStep_eq_stop` say once what one turn of the loop does.
* `Reaches.append` and `Reaches.resolves` run the loop along a reference walk,
  `exists_reaches_append` and `exists_reaches` find the reference walk of a loop.
* `resolvePath_refines` is the result for paths.
-/

namespace FilesystemLab

/-! ## The reference -/

/-- A slash behind a path, or behind the target of a link, asks for a
directory. -/
def asksDirectory (path : String) : Bool := path ≠ "/" && endsWithSlash path

def FoundDirectory (inodes : List PersistedInode) (id : UInt64) : Prop :=
  ∃ inode, findInode inodes id = some inode ∧ inode.kind = .directory

/-- The parent of a directory: the root is its own, and another directory must
have one entry, in a directory. -/
def UniqueParent (inodes : List PersistedInode)
    (entries : List PersistedDirectoryEntry) (directory parent : UInt64) : Prop :=
  directory = 1 ∧ parent = 1 ∨
    directory ≠ 1 ∧ FoundDirectory inodes parent ∧
      ∃ entry, entry.parent = parent ∧
        (entries.filter fun entry => entry.target = directory) = [entry]

/-- The name of a directory stands for an inode. -/
def Names (inodes : List PersistedInode) (entries : List PersistedDirectoryEntry)
    (directory : UInt64) (name : String) (inode : PersistedInode) : Prop :=
  name ≠ "." ∧ name ≠ ".." ∧
    ∃ entry, lookupEntry entries directory name = some entry ∧
      findInode inodes entry.target = some inode

/-- The components that are not links, and where they lead. -/
inductive Hop (inodes : List PersistedInode)
    (entries : List PersistedDirectoryEntry) (directory : UInt64) :
    String → UInt64 → Prop where
  | stay : Hop inodes entries directory "." directory
  | up {parent : UInt64} (h : UniqueParent inodes entries directory parent) :
      Hop inodes entries directory ".." parent
  | down {name : String} {inode : PersistedInode}
      (h : Names inodes entries directory name inode)
      (hkind : inode.kind ≠ .symlink) :
      Hop inodes entries directory name inode.id

/-- **The reference walk** from a directory along some components, which may
expand `links` links and does not expand `left` of them.  With `keep`, a link at
the end is not followed; with `requires`, the end must be a directory.

A link is replaced by what its target reaches from the root or from the
directory of the link, followed and with the slash of the target. -/
inductive Reaches (readLink : UInt64 → Result String)
    (inodes : List PersistedInode) (entries : List PersistedDirectoryEntry) :
    (keep requires : Bool) → (links : Nat) → UInt64 → List String → UInt64 →
      (left : Nat) → Prop where
  | done {keep requires : Bool} {links : Nat} {directory : UInt64}
      {inode : PersistedInode} (h : findInode inodes directory = some inode)
      (hkind : requires = true → inode.kind = .directory) :
      Reaches readLink inodes entries keep requires links directory [] directory
        links
  | hop {keep requires : Bool} {links left : Nat} {directory next id : UInt64}
      {name : String} {rest : List String} (h : FoundDirectory inodes directory)
      (hhop : Hop inodes entries directory name next)
      (hrest : Reaches readLink inodes entries keep requires links next rest id
        left) :
      Reaches readLink inodes entries keep requires links directory
        (name :: rest) id left
  | keep {requires : Bool} {links : Nat} {directory : UInt64} {name : String}
      {link : PersistedInode} (h : FoundDirectory inodes directory)
      (hlink : Names inodes entries directory name link)
      (hkind : link.kind = .symlink) :
      Reaches readLink inodes entries true requires links directory [name]
        link.id links
  | expand {keep requires : Bool} {links mid left : Nat}
      {directory target id : UInt64} {name text : String}
      {rest components : List String} {link : PersistedInode}
      (h : FoundDirectory inodes directory)
      (hlink : Names inodes entries directory name link)
      (hkind : link.kind = .symlink) (hopen : keep = true → rest ≠ [])
      (htext : readLink link.id = .ok text)
      (hparse : parseTargetComponents text = .ok components)
      (htarget : Reaches readLink inodes entries false (asksDirectory text)
        links (if startsWithSlash text then 1 else directory)
        components target mid)
      (hrest : Reaches readLink inodes entries keep requires mid target rest id
        left) :
      Reaches readLink inodes entries keep requires (links + 1) directory
        (name :: rest) id left

/-- The inode that an absolute path stands for.  A link at its end is kept if it
is not to be followed and no slash asks for a directory. -/
def Resolves (readLink : UInt64 → Result String) (inodes : List PersistedInode)
    (entries : List PersistedDirectoryEntry) (path : String) (follow : Bool)
    (id : UInt64) : Prop :=
  startsWithSlash path = true ∧
    ∃ components left, parseComponents path = .ok components ∧
      Reaches readLink inodes entries (!follow && !asksDirectory path)
        (asksDirectory path) MAX_SYMLINK_EXPANSIONS 1 components id
        left

/-- The last component of a path names a link, in the directory that the
components before it reach. -/
def LastNames (readLink : UInt64 → Result String) (inodes : List PersistedInode)
    (entries : List PersistedDirectoryEntry) (path : String)
    (link : PersistedInode) : Prop :=
  ∃ front last directory left, parseComponents path = .ok (front ++ [last]) ∧
    Reaches readLink inodes entries false false MAX_SYMLINK_EXPANSIONS
      1 front directory left ∧
    FoundDirectory inodes directory ∧
    Names inodes entries directory last link ∧ link.kind = .symlink

/-! ## One turn of the loop -/

section Walk

variable {readLink : UInt64 → Result String} {inodes : List PersistedInode}
  {entries : List PersistedDirectoryEntry}
  {follow final keep requires requireDirectory : Bool}
  {expansions expansions' links left : Nat}
  {current current' directory id : UInt64} {component : String}
  {components pending expanded rest : List String}

theorem requireInode_eq_ok {inode : PersistedInode} :
    requireInode inodes id = .ok inode ↔ findInode inodes id = some inode :=
  okOr_eq_ok

theorem parentDirectory_eq_ok {parent : UInt64} :
    parentDirectory inodes entries directory = .ok parent ↔
      UniqueParent inodes entries directory parent := by
  unfold parentDirectory UniqueParent
  by_cases hroot : directory = 1
  · rw [if_pos hroot, Except.pure_eq_ok, Except.ok.injEq]
    simp [hroot, eq_comm]
  · rw [if_neg hroot]
    split
    · rename_i hnil
      simp [hroot, hnil]
    · rename_i hmany
      simp [hroot, hmany]
    · rename_i entry hone
      simp only [Except.bind_eq_ok, requireInode_eq_ok, rejectIf_eq_ok,
        not_ne_iff, Except.pure_eq_ok, Except.ok.injEq, hone, FoundDirectory]
      constructor
      · intro hfacts
        rcases hfacts with ⟨inode, hfind, _, hkind, rfl⟩
        exact .inr ⟨hroot, ⟨inode, hfind, hkind⟩, entry, rfl, rfl⟩
      · intro hfacts
        rcases hfacts with ⟨hroot', _⟩ | ⟨_, ⟨inode, hfind, hkind⟩, other, rfl,
          heq⟩
        · exact absurd hroot' hroot
        · rw [List.singleton_inj] at heq
          subst heq
          exact ⟨inode, hfind, (), hkind, rfl⟩

theorem foundDirectory_iff {P : Prop} :
    (∃ inode, requireInode inodes current = .ok inode ∧
      ¬ inode.kind ≠ .directory ∧ P) ↔ FoundDirectory inodes current ∧ P := by
  simp only [requireInode_eq_ok, not_ne_iff, FoundDirectory]
  constructor
  · intro hfacts
    rcases hfacts with ⟨inode, hfind, hkind, h⟩
    exact ⟨⟨inode, hfind, hkind⟩, h⟩
  · intro hfacts
    rcases hfacts with ⟨⟨inode, hfind, hkind⟩, h⟩
    exact ⟨inode, hfind, hkind, h⟩

theorem hop_iff {next : UInt64} :
    Hop inodes entries current component next ↔
      component = "." ∧ next = current ∨
      component = ".." ∧ UniqueParent inodes entries current next ∨
      ∃ inode, Names inodes entries current component inode ∧
        inode.kind ≠ .symlink ∧ next = inode.id := by
  constructor
  · intro h
    cases h with
    | stay => exact .inl ⟨rfl, rfl⟩
    | up h => exact .inr (.inl ⟨rfl, h⟩)
    | down h hkind => exact .inr (.inr ⟨_, h, hkind, rfl⟩)
  · intro h
    rcases h with ⟨rfl, rfl⟩ | ⟨rfl, h⟩ | ⟨inode, h, hkind, rfl⟩
    · exact .stay
    · exact .up h
    · exact .down h hkind

/-- **What a turn of the loop can do**: it stops at a link that is not followed,
it hops, or it puts the components of a link in front. -/
theorem walkStep_eq_ok {step : WalkStep} :
    walkStep readLink inodes entries final expansions current component =
        .ok step ↔
      FoundDirectory inodes current ∧
        ((∃ next, Hop inodes entries current component next ∧
            step = .go expansions next [] false) ∨
          ∃ link, Names inodes entries current component link ∧
            link.kind = .symlink ∧
            (final = true ∧ step = .stop link.id ∨
              final = false ∧ expansions < MAX_SYMLINK_EXPANSIONS ∧
                ∃ text expanded, readLink link.id = .ok text ∧
                  parseTargetComponents text = .ok expanded ∧
                  step = .go (expansions + 1)
                    (if startsWithSlash text then 1 else current) expanded
                    (asksDirectory text))) := by
  simp only [walkStep, Except.bind_eq_ok, rejectIf_eq_ok, exists_const]
  rw [foundDirectory_iff]
  apply and_congr_right
  intro _
  by_cases hdot : component = "."
  · subst hdot
    rw [if_pos rfl, Except.pure_eq_ok, Except.ok.injEq]
    constructor
    · intro h
      exact .inl ⟨current, .stay, h.symm⟩
    · intro h
      rcases h with ⟨next, hhop, rfl⟩ | ⟨link, hlink, _⟩
      · rcases hop_iff.mp hhop with ⟨_, rfl⟩ | ⟨hne, _⟩ | ⟨_, hnames, _⟩
        · rfl
        · exact absurd hne (by decide)
        · exact absurd rfl hnames.1
      · exact absurd rfl hlink.1
  rw [if_neg hdot]
  by_cases hdots : component = ".."
  · subst hdots
    simp only [if_true, Except.bind_eq_ok, Except.pure_eq_ok, Except.ok.injEq,
      parentDirectory_eq_ok]
    constructor
    · intro h
      rcases h with ⟨parent, hparent, rfl⟩
      exact .inl ⟨parent, .up hparent, rfl⟩
    · intro h
      rcases h with ⟨next, hhop, rfl⟩ | ⟨link, hlink, _⟩
      · rcases hop_iff.mp hhop with ⟨hne, _⟩ | ⟨_, hparent⟩ | ⟨_, hnames, _⟩
        · exact absurd hne (by decide)
        · exact ⟨next, hparent, rfl⟩
        · exact absurd rfl hnames.2.1
      · exact absurd rfl hlink.2.1
  rw [if_neg hdots]
  simp only [Except.bind_eq_ok, okOr_eq_ok, requireInode_eq_ok]
  constructor
  · intro h
    rcases h with ⟨entry, hentry, target, htarget, h⟩
    have hnames : Names inodes entries current component target :=
      ⟨hdot, hdots, entry, hentry, htarget⟩
    by_cases hkind : target.kind = .symlink
    · refine .inr ⟨target, hnames, hkind, ?_⟩
      rw [if_pos hkind] at h
      cases final with
      | true =>
        rw [if_pos rfl, Except.pure_eq_ok, Except.ok.injEq] at h
        exact .inl ⟨rfl, h.symm⟩
      | false =>
        rw [if_neg (by decide)] at h
        by_cases hlimit : expansions < MAX_SYMLINK_EXPANSIONS
        · rw [if_pos hlimit] at h
          simp only [Except.bind_eq_ok, Except.pure_eq_ok, Except.ok.injEq] at h
          obtain ⟨text, htext, expanded, hparse, rfl⟩ := h
          exact .inr ⟨rfl, hlimit, text, expanded, htext, hparse, rfl⟩
        · rw [if_neg hlimit] at h
          cases h
    · rw [if_neg hkind, Except.pure_eq_ok, Except.ok.injEq] at h
      exact .inl ⟨target.id, .down hnames hkind, h.symm⟩
  · intro h
    rcases h with ⟨next, hhop, rfl⟩ | ⟨link, ⟨_, _, entry, hentry, hfind⟩,
      hkind, h⟩
    · rcases hop_iff.mp hhop with ⟨heq, _⟩ | ⟨heq, _⟩ | ⟨inode,
        ⟨_, _, entry, hentry, hfind⟩, hkind, rfl⟩
      · exact absurd heq hdot
      · exact absurd heq hdots
      · exact ⟨entry, hentry, inode, hfind, by rw [if_neg hkind]; rfl⟩
    · refine ⟨entry, hentry, link, hfind, ?_⟩
      rw [if_pos hkind]
      rcases h with ⟨rfl, rfl⟩ | ⟨rfl, hlimit, text, expanded, htext, hparse,
        rfl⟩
      · rfl
      · rw [if_neg (by decide), if_pos hlimit, htext, Except.ok_bind, hparse]
        rfl

/-- The loop over a component that is not a link. -/
theorem resolveComponents_hop {next : UInt64} (h : FoundDirectory inodes current)
    (hhop : Hop inodes entries current component next) :
    resolveComponents readLink inodes entries follow requireDirectory expansions
        current (component :: pending) =
      resolveComponents readLink inodes entries follow requireDirectory
        expansions next pending := by
  rw [resolveComponents_cons,
    walkStep_eq_ok.mpr ⟨h, .inl ⟨next, hhop, rfl⟩⟩, Except.ok_bind]
  simp

/-- The loop over a link that is kept. -/
theorem resolveComponents_keep {link : PersistedInode}
    (h : FoundDirectory inodes current)
    (hlink : Names inodes entries current component link)
    (hkind : link.kind = .symlink) :
    resolveComponents readLink inodes entries false false expansions current
      [component] = .ok link.id := by
  rw [resolveComponents_cons, decide_eq_true ⟨rfl, rfl, rfl⟩,
    walkStep_eq_ok.mpr ⟨h, .inr ⟨link, hlink, hkind, .inl ⟨rfl, rfl⟩⟩⟩]
  rfl

/-- The loop over a link that is followed. -/
theorem resolveComponents_expand {link : PersistedInode} {text : String}
    (h : FoundDirectory inodes current)
    (hlink : Names inodes entries current component link)
    (hkind : link.kind = .symlink)
    (hopen : ¬ (pending = [] ∧ follow = false ∧ requireDirectory = false))
    (hlimit : expansions < MAX_SYMLINK_EXPANSIONS)
    (htext : readLink link.id = .ok text)
    (hparse : parseTargetComponents text = .ok components) :
    resolveComponents readLink inodes entries follow requireDirectory expansions
        current (component :: pending) =
      resolveComponents readLink inodes entries follow
        (requireDirectory || (asksDirectory text && pending = []))
        (expansions + 1) (if startsWithSlash text then 1 else current)
        (components ++ pending) := by
  rw [resolveComponents_cons, decide_eq_false hopen,
    walkStep_eq_ok.mpr ⟨h, .inr ⟨link, hlink, hkind, .inr ⟨rfl, hlimit, text,
      components, htext, hparse, rfl⟩⟩⟩, Except.ok_bind]

/-- The end of the loop. -/
theorem resolveComponents_nil_eq_ok :
    resolveComponents readLink inodes entries follow requireDirectory expansions
        current [] = .ok id ↔
      ∃ inode, findInode inodes current = some inode ∧
        (requireDirectory = true → inode.kind = .directory) ∧ id = current := by
  simp only [resolveComponents, Except.bind_eq_ok, requireInode_eq_ok,
    rejectIf_eq_ok, exists_const, Except.pure_eq_ok, Except.ok.injEq, not_and,
    not_not, ne_eq, @eq_comm _ current id]

/-- The turns of a loop that succeeds. -/
theorem resolveComponents_cons_eq_ok
    (hwalk : resolveComponents readLink inodes entries follow requireDirectory
      expansions current (component :: pending) = .ok id) :
    FoundDirectory inodes current ∧
      ((∃ next, Hop inodes entries current component next ∧
          resolveComponents readLink inodes entries follow requireDirectory
            expansions next pending = .ok id) ∨
        ∃ link, Names inodes entries current component link ∧
          link.kind = .symlink ∧
          (pending = [] ∧ follow = false ∧ requireDirectory = false ∧
              id = link.id ∨
            ¬ (pending = [] ∧ follow = false ∧ requireDirectory = false) ∧
              expansions < MAX_SYMLINK_EXPANSIONS ∧
              ∃ text components, readLink link.id = .ok text ∧
                parseTargetComponents text = .ok components ∧
                resolveComponents readLink inodes entries follow
                  (requireDirectory || (asksDirectory text && pending = []))
                  (expansions + 1) (if startsWithSlash text then 1 else current)
                  (components ++ pending) = .ok id)) := by
  rw [resolveComponents_cons, Except.bind_eq_ok] at hwalk
  obtain ⟨step, hstep, hwalk⟩ := hwalk
  obtain ⟨hfound, hcases⟩ := walkStep_eq_ok.mp hstep
  refine ⟨hfound, ?_⟩
  rcases hcases with ⟨next, hhop, rfl⟩ | ⟨link, hlink, hkind, hcases⟩
  · refine .inl ⟨next, hhop, ?_⟩
    simpa using hwalk
  refine .inr ⟨link, hlink, hkind, ?_⟩
  rcases hcases with ⟨hfinal, rfl⟩ | ⟨hfinal, hlimit, text, expanded, htext,
    hparse, rfl⟩
  · obtain ⟨hnil, hfollow, hrequire⟩ := of_decide_eq_true hfinal
    have hend : (.ok link.id : Result UInt64) = .ok id := hwalk
    exact .inl ⟨hnil, hfollow, hrequire, (Except.ok.inj hend).symm⟩
  · exact .inr ⟨of_decide_eq_false hfinal, hlimit, text, expanded, htext, hparse,
      hwalk⟩

/-! ## The loop along a reference walk -/

namespace Reaches

/-- Links are only used up. -/
theorem left_le (h : Reaches readLink inodes entries keep requires links
    directory components id left) : left ≤ links := by
  induction h with
  | done => exact le_rfl
  | hop _ _ _ ih => exact ih
  | keep => exact le_rfl
  | expand _ _ _ _ _ _ _ _ ih ih' => omega

/-- The end of a walk whose links are followed. -/
theorem requires_directory
    (h : Reaches readLink inodes entries keep requires links directory components
      id left) (hkeep : keep = false) (hrequires : requires = true) :
    FoundDirectory inodes id := by
  induction h with
  | done h hkind => exact ⟨_, h, hkind hrequires⟩
  | hop _ _ _ ih => exact ih hkeep hrequires
  | keep => cases hkeep
  | expand _ _ _ _ _ _ _ _ _ ih => exact ih hkeep hrequires

/-- The end of a walk exists. -/
theorem exists_inode
    (h : Reaches readLink inodes entries keep requires links directory components
      id left) : ∃ inode, findInode inodes id = some inode := by
  induction h with
  | done h => exact ⟨_, h⟩
  | hop _ _ _ ih => exact ih
  | keep _ hlink =>
    obtain ⟨_, _, entry, _, hfind⟩ := hlink
    rw [← (findInode_eq_some hfind).2] at hfind
    exact ⟨_, hfind⟩
  | expand _ _ _ _ _ _ _ _ _ ih => exact ih

/-- An end that asks for less. -/
theorem weaken {requires' : Bool}
    (h : Reaches readLink inodes entries keep requires links directory components
      id left) (hless : requires' = true → requires = true) :
    Reaches readLink inodes entries keep requires' links directory components id
      left := by
  induction h with
  | done h hkind => exact .done h fun hrequires => hkind (hless hrequires)
  | hop hfound hhop _ ih => exact .hop hfound hhop (ih hless)
  | keep hfound hlink hkind => exact .keep hfound hlink hkind
  | expand hfound hlink hkind hopen htext hparse htarget _ _ ih =>
    exact .expand hfound hlink hkind hopen htext hparse htarget (ih hless)

/-- **In front of other components, the loop goes where the walk does.** -/
theorem append
    (h : Reaches readLink inodes entries keep requires links directory components
      id left) (hkeep : keep = false) (hlinks : links ≤ MAX_SYMLINK_EXPANSIONS)
    (hrest : rest ≠ []) :
    resolveComponents readLink inodes entries follow requireDirectory
        (MAX_SYMLINK_EXPANSIONS - links) directory (components ++ rest) =
      resolveComponents readLink inodes entries follow requireDirectory
        (MAX_SYMLINK_EXPANSIONS - left) id rest := by
  induction h generalizing rest with
  | done => rfl
  | hop hfound hhop _ ih =>
    rw [List.cons_append, resolveComponents_hop hfound hhop]
    exact ih hkeep hlinks hrest
  | keep => cases hkeep
  | @expand _ _ links mid _ directory target _ name text front components link
      hfound hlink hkind _ htext hparse htarget _ ih ih' =>
    have hmid := htarget.left_le
    have hmore : front ++ rest ≠ [] := by simp [hrest]
    have hnext : MAX_SYMLINK_EXPANSIONS - (links + 1) + 1 =
        MAX_SYMLINK_EXPANSIONS - links := by omega
    rw [List.cons_append, resolveComponents_expand hfound hlink hkind
      (fun hfacts => hmore hfacts.1) (by omega) htext hparse, hnext,
      decide_eq_false hmore, Bool.and_false, Bool.or_false,
      ih rfl (by omega) hmore]
    exact ih' hkeep (by omega) hrest

/-- **At the end of a path, the loop ends where the walk does.** -/
theorem resolves
    (h : Reaches readLink inodes entries keep requires links directory components
      id left) (hlinks : links ≤ MAX_SYMLINK_EXPANSIONS)
    (hkeep : keep = (!follow && !requireDirectory))
    (hdirectory : requireDirectory = true → FoundDirectory inodes id) :
    resolveComponents readLink inodes entries follow requireDirectory
      (MAX_SYMLINK_EXPANSIONS - links) directory components = .ok id := by
  induction h generalizing requireDirectory with
  | @done _ _ _ _ inode h =>
    refine resolveComponents_nil_eq_ok.mpr ⟨inode, h, ?_, rfl⟩
    intro hrequire
    obtain ⟨other, hother, hkind⟩ := hdirectory hrequire
    rw [h, Option.some.injEq] at hother
    rw [hother]
    exact hkind
  | hop hfound hhop _ ih =>
    rw [resolveComponents_hop hfound hhop]
    exact ih hlinks hkeep hdirectory
  | keep hfound hlink hkind =>
    obtain ⟨hfollow, hrequire⟩ : follow = false ∧ requireDirectory = false := by
      simpa using hkeep.symm
    rw [hfollow, hrequire]
    exact resolveComponents_keep hfound hlink hkind
  | @expand keep _ links mid _ directory target id name text rest components
      link hfound hlink hkind hopen htext hparse htarget hrest ih ih' =>
    have hmid := htarget.left_le
    have hnext : MAX_SYMLINK_EXPANSIONS - (links + 1) + 1 =
        MAX_SYMLINK_EXPANSIONS - links := by omega
    rw [resolveComponents_expand hfound hlink hkind ?_ (by omega) htext hparse,
      hnext]
    · by_cases hnil : rest = []
      · -- the target is the end of the path
        subst hnil
        have hopen : keep = false := by
          cases keep with
          | true => exact absurd rfl (hopen rfl)
          | false => rfl
        cases hrest
        rw [List.append_nil, decide_eq_true rfl, Bool.and_true]
        apply ih (by omega)
        · rw [hopen] at hkeep
          revert hkeep
          cases follow <;> cases requireDirectory <;> simp
        · intro hrequire
          rcases Bool.or_eq_true_iff.mp hrequire with houter | htrail
          · exact hdirectory houter
          · exact htarget.requires_directory rfl htrail
      · rw [decide_eq_false hnil, Bool.and_false, Bool.or_false,
          htarget.append rfl (by omega) hnil]
        exact ih' (by omega) hkeep hdirectory
    · intro hfacts
      rcases hfacts with ⟨hnil, hfollow, hrequire⟩
      rw [hfollow, hrequire] at hkeep
      exact hopen hkeep hnil

end Reaches

end Walk

/-! ## The reference walk of a loop -/

section Loop

variable {readLink : UInt64 → Result String} {inodes : List PersistedInode}
  {entries : List PersistedDirectoryEntry} {follow : Bool} {id : UInt64}

/-- **Before other components, the loop has a reference walk**, which meets
whatever its end is asked for: the loop goes on from a directory. -/
theorem exists_reaches_append {requireDirectory : Bool} {expansions : Nat}
    {current : UInt64} {rest : List String} (components : List String)
    (hrest : rest ≠ []) (hle : expansions ≤ MAX_SYMLINK_EXPANSIONS)
    (hwalk : resolveComponents readLink inodes entries follow requireDirectory
      expansions current (components ++ rest) = .ok id) (requires : Bool) :
    ∃ mid left, Reaches readLink inodes entries false requires
        (MAX_SYMLINK_EXPANSIONS - expansions) current components mid left ∧
      resolveComponents readLink inodes entries follow requireDirectory
        (MAX_SYMLINK_EXPANSIONS - left) mid rest = .ok id := by
  match components with
  | [] =>
    obtain ⟨component, rest, rfl⟩ := List.exists_cons_of_ne_nil hrest
    rw [List.nil_append] at hwalk
    obtain ⟨⟨inode, hfind, hkind⟩, _⟩ := resolveComponents_cons_eq_ok hwalk
    refine ⟨current, _, .done hfind fun _ => hkind, ?_⟩
    rw [Nat.sub_sub_self hle]
    exact hwalk
  | name :: front =>
    rw [List.cons_append] at hwalk
    obtain ⟨hfound, hcases⟩ := resolveComponents_cons_eq_ok hwalk
    rcases hcases with ⟨next, hhop, hnext⟩ | ⟨link, hlink, hkind,
      ⟨hnil, _⟩ | ⟨_, hlimit, text, expanded, htext, hparse, hnext⟩⟩
    · obtain ⟨mid, left, hreaches, hend⟩ :=
        exists_reaches_append front hrest hle hnext requires
      exact ⟨mid, left, .hop hfound hhop hreaches, hend⟩
    · exact absurd (List.append_eq_nil_iff.mp hnil).2 hrest
    · have hmore : front ++ rest ≠ [] := by simp [hrest]
      rw [decide_eq_false hmore, Bool.and_false, Bool.or_false] at hnext
      obtain ⟨target, mid, htarget, hfront⟩ :=
        exists_reaches_append expanded hmore hlimit hnext (asksDirectory text)
      have hmid := htarget.left_le
      obtain ⟨last, left, hreaches, hend⟩ := exists_reaches_append front hrest
        (Nat.sub_le _ mid) hfront requires
      rw [Nat.sub_sub_self (by omega)] at hreaches
      have hlinks : MAX_SYMLINK_EXPANSIONS - expansions =
          MAX_SYMLINK_EXPANSIONS - (expansions + 1) + 1 := by omega
      rw [hlinks]
      exact ⟨last, left, .expand hfound hlink hkind (fun hkeep => by cases hkeep)
        htext hparse htarget hreaches, hend⟩
termination_by (MAX_SYMLINK_EXPANSIONS - expansions, components.length)
decreasing_by
  · exact Prod.Lex.right _ (by simp)
  · exact Prod.Lex.left _ _ (by omega)
  · exact Prod.Lex.left _ _ (by omega)

/-- **A loop that ends has a reference walk.** -/
theorem exists_reaches {requireDirectory : Bool} {expansions : Nat}
    {current : UInt64} (components : List String)
    (hle : expansions ≤ MAX_SYMLINK_EXPANSIONS)
    (hwalk : resolveComponents readLink inodes entries follow requireDirectory
      expansions current components = .ok id) :
    ∃ left, Reaches readLink inodes entries (!follow && !requireDirectory)
      requireDirectory (MAX_SYMLINK_EXPANSIONS - expansions) current components
      id left := by
  match components with
  | [] =>
    obtain ⟨inode, hfind, hkind, rfl⟩ := resolveComponents_nil_eq_ok.mp hwalk
    exact ⟨_, .done hfind hkind⟩
  | name :: rest =>
    obtain ⟨hfound, hcases⟩ := resolveComponents_cons_eq_ok hwalk
    rcases hcases with ⟨next, hhop, hnext⟩ | ⟨link, hlink, hkind,
      ⟨rfl, rfl, rfl, rfl⟩ | ⟨hopen, hlimit, text, expanded, htext, hparse,
        hnext⟩⟩
    · obtain ⟨left, hreaches⟩ := exists_reaches rest hle hnext
      exact ⟨left, .hop hfound hhop hreaches⟩
    · exact ⟨_, .keep hfound hlink hkind⟩
    have hlinks : MAX_SYMLINK_EXPANSIONS - expansions =
        MAX_SYMLINK_EXPANSIONS - (expansions + 1) + 1 := by omega
    have hkeep : (!follow && !requireDirectory) = true → rest ≠ [] := by
      intro hkeep hnil
      rw [Bool.and_eq_true, Bool.not_eq_true', Bool.not_eq_true'] at hkeep
      exact hopen ⟨hnil, hkeep⟩
    rw [hlinks]
    by_cases hnil : rest = []
    · -- the target is the end of the path, and is asked for both
      subst hnil
      rw [List.append_nil, decide_eq_true rfl, Bool.and_true] at hnext
      obtain ⟨left, htarget⟩ := exists_reaches expanded hlimit hnext
      have hfollowed : (!follow &&
          !(requireDirectory || asksDirectory text)) = false := by
        cases follow with
        | true => rfl
        | false =>
          cases requireDirectory with
          | true => rfl
          | false => exact absurd rfl (hkeep rfl)
      rw [hfollowed] at htarget
      obtain ⟨inode, hfind, hdirectory⟩ :
          ∃ inode, findInode inodes id = some inode ∧
            (requireDirectory = true → inode.kind = .directory) := by
        by_cases hrequire : requireDirectory = true
        · obtain ⟨inode, hfind, hdirectory⟩ :=
            htarget.requires_directory rfl (by rw [hrequire]; rfl)
          exact ⟨inode, hfind, fun _ => hdirectory⟩
        · obtain ⟨inode, hfind⟩ := htarget.exists_inode
          exact ⟨inode, hfind, fun h => absurd h hrequire⟩
      refine ⟨left, .expand hfound hlink hkind hkeep htext hparse
        (htarget.weaken ?_) (.done hfind hdirectory)⟩
      intro htrail
      rw [htrail, Bool.or_true]
    · rw [decide_eq_false hnil, Bool.and_false, Bool.or_false] at hnext
      obtain ⟨target, mid, htarget, hrest⟩ := exists_reaches_append expanded hnil
        hlimit hnext (asksDirectory text)
      have hmid := htarget.left_le
      obtain ⟨left, hreaches⟩ := exists_reaches rest (Nat.sub_le _ mid) hrest
      rw [Nat.sub_sub_self (by omega)] at hreaches
      exact ⟨left, .expand hfound hlink hkind hkeep htext hparse htarget
        hreaches⟩
termination_by (MAX_SYMLINK_EXPANSIONS - expansions, components.length)
decreasing_by
  · exact Prod.Lex.right _ (by simp)
  · exact Prod.Lex.left _ _ (by omega)
  · exact Prod.Lex.left _ _ (by omega)

/-! ## The two modes -/

/-- A turn that fails does so in both modes. -/
theorem walkStep_final_of_error {expansions : Nat} {current : UInt64}
    {component : String} {e : IoError}
    (h : walkStep readLink inodes entries true expansions current component =
      .error e) :
    walkStep readLink inodes entries false expansions current component =
      .error e := by
  rw [walkStep] at h ⊢
  cases hinode : requireInode inodes current with
  | error e' =>
    rw [hinode] at h
    exact h
  | ok inode =>
    rw [hinode, Except.ok_bind] at h
    rw [Except.ok_bind]
    by_cases hkind : inode.kind ≠ .directory
    · rw [rejectIf_of hkind] at h ⊢
      exact h
    rw [rejectIf_of_not hkind, Except.ok_bind] at h ⊢
    split at h
    · cases h
    · rename_i hdot
      rw [if_neg hdot]
      split at h
      · rename_i hdots
        rw [if_pos hdots]
        exact h
      · rename_i hdots
        rw [if_neg hdots]
        cases hentry : lookupEntry entries current component with
        | none =>
          rw [hentry] at h
          exact h
        | some entry =>
          rw [hentry, okOr_some, Except.ok_bind] at h
          rw [okOr_some, Except.ok_bind]
          cases htarget : requireInode inodes entry.target with
          | error e' =>
            rw [htarget] at h
            exact h
          | ok target =>
            rw [htarget, Except.ok_bind] at h
            split at h <;> cases h

/-- **The two modes agree**, unless the loop stops at a link. -/
theorem resolveComponents_modes (requireDirectory : Bool) (expansions : Nat)
    (current : UInt64) (pending : List String) :
    resolveComponents readLink inodes entries true requireDirectory expansions
        current pending =
      resolveComponents readLink inodes entries false requireDirectory expansions
        current pending ∨
    requireDirectory = false ∧ ∃ id,
      resolveComponents readLink inodes entries false requireDirectory expansions
        current pending = .ok id := by
  induction requireDirectory, expansions, current, pending using
    @walk_induction readLink inodes entries with
  | nil requireDirectory expansions current =>
    rw [resolveComponents, resolveComponents]
    exact .inl rfl
  | cons requireDirectory expansions current component pending ih =>
    rw [resolveComponents_cons, resolveComponents_cons]
    have hfollow : decide (pending = [] ∧ true = false ∧
        requireDirectory = false) = false := decide_eq_false (by simp)
    rw [hfollow]
    by_cases hfinal : pending = [] ∧ false = false ∧ requireDirectory = false
    · obtain ⟨rfl, _, rfl⟩ := hfinal
      have hstops : decide (([] : List String) = [] ∧ false = false ∧
          false = false) = true := by decide
      rw [hstops]
      cases hstep : walkStep readLink inodes entries true expansions current
          component with
      | error e =>
        rw [walkStep_final_of_error hstep]
        exact .inl rfl
      | ok step =>
        cases step with
        | stop id => exact .inr ⟨rfl, id, rfl⟩
        | go expansions' current' expanded requires =>
          obtain ⟨hfound, ⟨next, hhop, heq⟩ | ⟨_, _, _, ⟨_, heq⟩ | ⟨hno, _⟩⟩⟩ :=
            walkStep_eq_ok.mp hstep
          · rw [walkStep_eq_ok.mpr ⟨hfound, .inl ⟨next, hhop, heq⟩⟩]
            injection heq with _ _ _ hrequires
            rcases ih _ _ _ _ _ hstep with hsame | ⟨_, hok⟩
            · exact .inl hsame
            · exact .inr ⟨rfl, hok⟩
          · cases heq
          · cases hno
    · rw [decide_eq_false hfinal]
      cases hstep : walkStep readLink inodes entries false expansions current
          component with
      | error e => exact .inl rfl
      | ok step =>
        cases step with
        | stop id => exact absurd hstep walkStep_ne_stop
        | go expansions' current' expanded requires =>
          rcases ih _ _ _ _ _ hstep with hsame | ⟨hrequire, hok⟩
          · exact .inl hsame
          · exact .inr ⟨(Bool.or_eq_false_iff.mp hrequire).1, hok⟩

/-- **When the modes differ**, the last component names a link, and the mode that
does not follow it returns it. -/
theorem resolveComponents_last {current : UInt64} {front : List String}
    {last : String} (requireDirectory : Bool) :
    resolveComponents readLink inodes entries true requireDirectory 0 current
        (front ++ [last]) =
      resolveComponents readLink inodes entries false requireDirectory 0 current
        (front ++ [last]) ∨
    requireDirectory = false ∧ ∃ directory left link,
      Reaches readLink inodes entries false false MAX_SYMLINK_EXPANSIONS current
        front directory left ∧
      FoundDirectory inodes directory ∧
      Names inodes entries directory last link ∧ link.kind = .symlink ∧
      resolveComponents readLink inodes entries false requireDirectory 0 current
        (front ++ [last]) = .ok link.id := by
  rcases resolveComponents_modes requireDirectory 0 current (front ++ [last])
    with hsame | ⟨rfl, id, hwalk⟩
  · exact .inl hsame
  obtain ⟨directory, left, hreaches, hlast⟩ := exists_reaches_append front
    (List.cons_ne_nil last []) (Nat.zero_le _) hwalk false
  have hfollow := @Reaches.append _ _ _ true _ _ false _ _ _ _ _ _ hreaches rfl
    (Nat.sub_le _ _) (List.cons_ne_nil last [])
  rw [Nat.sub_zero, Nat.sub_self] at hfollow
  obtain ⟨hfound, ⟨next, hhop, hend⟩ | ⟨link, hlink, hkind,
    ⟨_, _, _, rfl⟩ | ⟨hopen, _⟩⟩⟩ := resolveComponents_cons_eq_ok hlast
  · refine .inl ?_
    rw [hwalk, hfollow, resolveComponents_hop hfound hhop,
      resolveComponents_nil_eq_ok]
    exact resolveComponents_nil_eq_ok.mp hend
  · exact .inr ⟨rfl, directory, left, link, hreaches, hfound, hlink, hkind,
      hwalk⟩
  · exact absurd ⟨rfl, rfl, rfl⟩ hopen

/-! ## Links are not returned -/

/-- The inode with an identifier, if there is one, is not a link. -/
def NotLink (inodes : List PersistedInode) (id : UInt64) : Prop :=
  ∀ inode, findInode inodes id = some inode → inode.kind ≠ .symlink

theorem FoundDirectory.notLink (h : FoundDirectory inodes id) :
    NotLink inodes id := by
  obtain ⟨inode, hfind, hkind⟩ := h
  intro other hother
  rw [hfind, Option.some.injEq] at hother
  rw [← hother, hkind]
  decide

/-- No hop ends at a link. -/
theorem Hop.notLink {directory next : UInt64} {name : String}
    (h : Hop inodes entries directory name next)
    (hroot : NotLink inodes 1) (hfound : FoundDirectory inodes directory) :
    NotLink inodes next := by
  rcases hop_iff.mp h with ⟨_, rfl⟩ | ⟨_, ⟨_, rfl⟩ | ⟨_, hparent, _⟩⟩ |
    ⟨inode, ⟨_, _, entry, _, hfind⟩, hkind, rfl⟩
  · exact hfound.notLink
  · exact hroot
  · exact hparent.notLink
  · intro other hother
    rw [(findInode_eq_some hfind).2, hfind, Option.some.injEq] at hother
    rw [← hother]
    exact hkind

/-- **A walk that follows links does not end at one.** -/
theorem Reaches.notLink {keep requires : Bool} {links left : Nat}
    {directory : UInt64} {components : List String}
    (h : Reaches readLink inodes entries keep requires links directory components
      id left) (hkeep : keep = false) (hroot : NotLink inodes 1)
    (hstart : NotLink inodes directory) : NotLink inodes id := by
  induction h with
  | done => exact hstart
  | hop hfound hhop _ ih => exact ih hkeep (hhop.notLink hroot hfound)
  | keep => cases hkeep
  | expand hfound _ _ _ _ _ _ _ ih ih' =>
    apply ih' hkeep
    apply ih rfl
    split
    · exact hroot
    · exact hfound.notLink

end Loop

/-! ## The loop ends -/

/-- The variables of the loop. -/
structure LoopState where
  requireDirectory : Bool
  expansions : Nat
  current : UInt64
  pending : List String

/-- One turn of the loop that goes on. -/
inductive LoopTurn (readLink : UInt64 → Result String)
    (inodes : List PersistedInode) (entries : List PersistedDirectoryEntry)
    (follow : Bool) : LoopState → LoopState → Prop where
  | turn {requireDirectory requires : Bool} {expansions expansions' : Nat}
      {current current' : UInt64} {component : String}
      {pending expanded : List String}
      (h : walkStep readLink inodes entries
        (pending = [] ∧ follow = false ∧ requireDirectory = false) expansions
        current component = .ok (.go expansions' current' expanded requires)) :
      LoopTurn readLink inodes entries follow
        ⟨requireDirectory, expansions, current, component :: pending⟩
        ⟨requireDirectory || (requires && pending = []), expansions', current',
          expanded ++ pending⟩

/-- **The loop cannot turn for ever**: an expansion may put any number of
components in front, but uses up one of the links. -/
theorem wellFounded_loopTurn (readLink : UInt64 → Result String)
    (inodes : List PersistedInode) (entries : List PersistedDirectoryEntry)
    (follow : Bool) :
    WellFounded fun s' s => LoopTurn readLink inodes entries follow s s' := by
  have hmeasure : WellFounded (Prod.Lex (· < ·) (· < ·) :
      Nat × Nat → Nat × Nat → Prop) := WellFounded.prod_lex Nat.lt_wfRel.wf
        Nat.lt_wfRel.wf
  apply Subrelation.wf (r := InvImage (Prod.Lex (· < ·) (· < ·))
    fun s : LoopState => (MAX_SYMLINK_EXPANSIONS - s.expansions,
      s.pending.length)) _ (InvImage.wf _ hmeasure)
  intro s' s hturn
  cases hturn with
  | turn h =>
    rcases walkStep_go h with ⟨rfl, rfl⟩ | ⟨rfl, hlimit⟩
    · exact Prod.Lex.right _ (by simp)
    · exact Prod.Lex.left _ _ (by simp only; omega)

/-- No run of the loop is infinite. -/
theorem not_loop_forever (readLink : UInt64 → Result String)
    (inodes : List PersistedInode) (entries : List PersistedDirectoryEntry)
    (follow : Bool) (run : Nat → LoopState) :
    ¬ ∀ n, LoopTurn readLink inodes entries follow (run n) (run (n + 1)) := by
  intro hrun
  obtain ⟨s, ⟨n, rfl⟩, hmin⟩ := (wellFounded_loopTurn readLink inodes entries
    follow).has_min (Set.range run) ⟨run 0, 0, rfl⟩
  exact hmin (run (n + 1)) ⟨n + 1, rfl⟩ (hrun n)

/-! ## Paths -/

/-- Only the root has no components. -/
theorem parseComponents_eq_nil {path : String}
    (h : parseComponents path = .ok []) : path = "/" := by
  unfold parseComponents at h
  split at h
  · assumption
  · exfalso
    split at h
    · rename_i body _
      simp only [parseComponentSequence, Except.bind_eq_ok, Except.pure_eq_ok,
        Except.ok.injEq, List.map_eq_nil_iff] at h
      obtain ⟨_, _, _, _, hnil⟩ := h
      exact List.splitOn_ne_nil _ _ hnil
    · cases h

section Path

variable {σ : Type} [BlockDevice σ] {device : σ} {sb : Superblock}
  {inodes : List PersistedInode} {entries : List PersistedDirectoryEntry}
  {path : String}

/-- `resolve_path` is its loop, also for the root. -/
theorem resolvePath_eq_loop (hinodes : loadInodeTable device sb = .ok inodes)
    (hentries : loadDirectoryTable device sb = .ok entries) (path : String)
    (follow : Bool) :
    resolvePath device sb path follow = (do
      rejectIf (startsWithSlash path = false)
        (invalidInput "path must be absolute")
      let components ← parseComponents path
      resolveComponents (readSymlink device sb) inodes entries follow
        (asksDirectory path) 0 1 components : Result UInt64) := by
  rw [resolvePath, hinodes, hentries]
  congr 1
  funext _
  rw [Except.ok_bind, Except.ok_bind]
  cases hparse : parseComponents path with
  | error e => rfl
  | ok components =>
    rw [Except.ok_bind, Except.ok_bind]
    by_cases hnil : components = []
    · subst hnil
      rw [if_pos rfl, resolveComponents, parseComponents_eq_nil hparse]
      cases hroot : requireInode inodes 1 with
      | error e => rfl
      | ok root =>
        rw [Except.ok_bind, rejectIf_of_not (fun h => absurd h.1 (by decide))]
        exact congrArg Except.ok
          (findInode_eq_some (requireInode_eq_ok.mp hroot)).2
    · rw [if_neg hnil]
      rfl

/-- **`resolve_path` computes the reference.** -/
theorem resolvePath_eq_ok_iff (hinodes : loadInodeTable device sb = .ok inodes)
    (hentries : loadDirectoryTable device sb = .ok entries) {follow : Bool}
    {id : UInt64} :
    resolvePath device sb path follow = .ok id ↔
      Resolves (readSymlink device sb) inodes entries path follow id := by
  rw [resolvePath_eq_loop hinodes hentries]
  simp only [Except.bind_eq_ok, rejectIf_eq_ok, exists_const, Resolves,
    Bool.not_eq_false]
  apply and_congr_right
  intro _
  constructor
  · intro hfacts
    rcases hfacts with ⟨components, hparse, hwalk⟩
    obtain ⟨left, hreaches⟩ := exists_reaches components (Nat.zero_le _) hwalk
    exact ⟨components, left, hparse, hreaches⟩
  · intro hfacts
    rcases hfacts with ⟨components, left, hparse, hreaches⟩
    refine ⟨components, hparse, ?_⟩
    have hwalk := hreaches.resolves le_rfl rfl fun hrequires =>
      hreaches.requires_directory (by rw [hrequires, Bool.not_true,
        Bool.and_false]) hrequires
    rw [Nat.sub_self] at hwalk
    exact hwalk

/-- **The modes of a path agree** unless its last component names a link, and no
slash follows. -/
theorem resolvePath_modes (hinodes : loadInodeTable device sb = .ok inodes)
    (hentries : loadDirectoryTable device sb = .ok entries) (path : String) :
    resolvePath device sb path true = resolvePath device sb path false ∨
      asksDirectory path = false ∧ ∃ link,
        LastNames (readSymlink device sb) inodes entries path link ∧
        resolvePath device sb path false = .ok link.id := by
  rw [resolvePath_eq_loop hinodes hentries, resolvePath_eq_loop hinodes hentries]
  by_cases hstart : startsWithSlash path = false
  · rw [rejectIf_of hstart]
    exact .inl rfl
  rw [rejectIf_of_not hstart, Except.ok_bind, Except.ok_bind]
  cases hparse : parseComponents path with
  | error e => exact .inl rfl
  | ok components =>
    rw [Except.ok_bind, Except.ok_bind]
    rcases List.eq_nil_or_concat components with rfl | ⟨front, last, hconcat⟩
    · rw [resolveComponents, resolveComponents]
      exact .inl rfl
    · rw [List.concat_eq_append] at hconcat
      subst hconcat
      rcases resolveComponents_last (asksDirectory path) with
        hsame | ⟨hasks, directory, left, link, hreaches, hfound, hlink, hkind,
          hkept⟩
      · exact .inl hsame
      · exact .inr ⟨hasks, link, ⟨front, last, directory, left, hparse, hreaches,
          hfound, hlink, hkind⟩, hkept⟩

/-- The root of a device that the check accepts is not a link. -/
theorem notLink_root (hsb : readSuperblock device = .ok sb)
    (hinodes : loadInodeTable device sb = .ok inodes) {report : FsckReport}
    (hcheck : checkDevice device = .ok report) : NotLink inodes 1 := by
  obtain ⟨sb', a, inodes', entries', journal, hc, _, _⟩ :=
    checkDevice_iff.mp hcheck
  have hsame := hc.superblock
  rw [hsb, Except.ok.injEq] at hsame
  subst hsame
  have hload := hc.inodeTable
  rw [hinodes, Except.ok.injEq] at hload
  subst hload
  have hnodup : (inodes.map PersistedInode.id).Nodup :=
    TableFormat.nodup_of_load inodeFormat_lawful hinodes
  intro root hfind
  have hroot := hc.tree.root (List.ne_nil_of_mem (findInode_eq_some hfind).1)
  rw [show ROOT_INODE_ID = 1 from rfl, kindOf_of_findInode hnodup hfind,
    Option.some.injEq] at hroot
  rw [hroot]
  decide

end Path

/-- **`resolve_path` terminates and is the reference.**  On a device whose tables
load, its loop cannot turn for ever, and it returns an inode exactly if the path
stands for it.  The inode exists; the two modes differ only at a path whose last
component names a link, without a slash behind it; and on a device that the check
accepts, a path is not followed to a link. -/
theorem resolvePath_refines {σ : Type} [BlockDevice σ] {device : σ}
    {sb : Superblock} {inodes : List PersistedInode}
    {entries : List PersistedDirectoryEntry}
    (hinodes : loadInodeTable device sb = .ok inodes)
    (hentries : loadDirectoryTable device sb = .ok entries) :
    (∀ (follow : Bool) (run : Nat → LoopState),
      ¬ ∀ n, LoopTurn (readSymlink device sb) inodes entries follow (run n)
        (run (n + 1))) ∧
    ∀ path : String,
      (∀ (follow : Bool) (id : UInt64),
        resolvePath device sb path follow = .ok id ↔
          Resolves (readSymlink device sb) inodes entries path follow id) ∧
      (∀ (follow : Bool) (id : UInt64),
        resolvePath device sb path follow = .ok id →
        ∃ inode ∈ inodes, inode.id = id) ∧
      (resolvePath device sb path true = resolvePath device sb path false ∨
        asksDirectory path = false ∧ ∃ link,
          LastNames (readSymlink device sb) inodes entries path link ∧
          resolvePath device sb path false = .ok link.id) ∧
      ∀ (report : FsckReport) (id : UInt64),
        readSuperblock device = .ok sb → checkDevice device = .ok report →
        resolvePath device sb path true = .ok id →
        ∃ inode, findInode inodes id = some inode ∧ inode.kind ≠ .symlink := by
  refine ⟨not_loop_forever (readSymlink device sb) inodes entries, ?_⟩
  intro path
  refine ⟨fun _ _ => resolvePath_eq_ok_iff hinodes hentries, ?_,
    resolvePath_modes hinodes hentries path, ?_⟩
  · intro follow id hpath
    obtain ⟨_, components, left, _, hreaches⟩ :=
      (resolvePath_eq_ok_iff hinodes hentries).mp hpath
    obtain ⟨inode, hfind⟩ := hreaches.exists_inode
    exact ⟨inode, findInode_eq_some hfind⟩
  · intro report id hsb hcheck hpath
    have hresolves := (resolvePath_eq_ok_iff hinodes hentries).mp hpath
    obtain ⟨_, components, left, _, hreaches⟩ := hresolves
    obtain ⟨inode, hfind⟩ := hreaches.exists_inode
    have hroot := notLink_root hsb hinodes hcheck
    exact ⟨inode, hfind, hreaches.notLink rfl hroot hroot inode hfind⟩

/-! ## A sample link -/

/-- The allocator of the sample geometry with one owned block. -/
def linkAllocator : BlockAllocator :=
  .ofFlags 10 (List.replicate 10 false ++ true :: List.replicate 5 false)
    (by decide)

/-- A directory, and a link to it. -/
def linkInodes : List PersistedInode :=
  [⟨1, .directory, [], 0⟩, ⟨2, .directory, [], 0⟩, ⟨3, .symlink, [10], 0⟩]

def linkEntries : List PersistedDirectoryEntry := [⟨1, 2, "d"⟩, ⟨1, 3, "l"⟩]

/-- The sample disk with the link; `image` is its payload. -/
def linkDisk (image : Block) : Disk :=
  formatted treeSuperblock linkAllocator linkInodes linkEntries fun _ => image

theorem atRest_linkDisk (image : Block) :
    AtRest (linkDisk image) treeSuperblock linkAllocator linkInodes
      linkEntries := by
  obtain ⟨inodeImage, hinodeImage⟩ :
      ∃ image, inodeFormat.encodeImage 1 linkInodes = .ok image :=
    exists_inodeImage (by decide) (by decide) (by decide) (by decide)
      (by decide)
  obtain ⟨directoryImage, hdirectoryImage⟩ :
      ∃ image, directoryFormat.encodeImage 1 linkEntries = .ok image :=
    exists_directoryImage (by decide) (by decide) (by decide) (by decide)
      (by decide)
  exact atRest_formatted _ rfl rfl hinodeImage (by decide) hdirectoryImage

/-- The link leads to the directory, with a slash. -/
theorem exists_linkDisk :
    ∃ image, readSymlink (linkDisk image) treeSuperblock 3 = .ok "d/" := by
  obtain ⟨image, himage⟩ : ∃ image, encodeTargetBlocks "d/" = .ok [image] := by
    unfold encodeTargetBlocks encodeV1Target
    dsimp only
    rw [rejectIf_of_not (by decide), Except.ok_bind, if_pos (by decide),
      rejectIf_of_not (by decide), Except.ok_bind]
    exact ⟨_, rfl⟩
  refine ⟨image, ?_⟩
  have hread : readBlocks (linkDisk image) [10] = .ok [image] := by
    apply readBlocks_of_held rfl
    · intro block hblock
      rw [List.mem_singleton.mp hblock]
      exact show 10 < 16 by omega
    · intro w hw
      rw [List.mem_singleton.mp hw]
      rfl
  rw [readSymlink, (atRest_linkDisk image).inodeTable, Except.ok_bind]
  exact (@readSymlinkInode_eq_ok _ _ (linkDisk image) ⟨3, .symlink, [10], 0⟩
    "d/").mpr ⟨[image], hread, himage⟩

/-- The link is followed to the directory, or kept. -/
theorem resolvePath_refines_linkDisk :
    ∃ image, resolvePath (linkDisk image) treeSuperblock "/l" true = .ok 2 ∧
      resolvePath (linkDisk image) treeSuperblock "/l" false = .ok 3 := by
  obtain ⟨image, hread⟩ := exists_linkDisk
  have h := atRest_linkDisk image
  have hpaths := (resolvePath_refines h.inodeTable h.directoryTable).2 "/l"
  have hroot : FoundDirectory linkInodes 1 :=
    ⟨⟨1, .directory, [], 0⟩, rfl, rfl⟩
  have hlink : Names linkInodes linkEntries 1 "l" ⟨3, .symlink, [10], 0⟩ :=
    ⟨by decide, by decide, ⟨1, 3, "l"⟩, by decide, rfl⟩
  have hdirectory : Names linkInodes linkEntries 1 "d" ⟨2, .directory, [], 0⟩ :=
    ⟨by decide, by decide, ⟨1, 2, "d"⟩, by decide, rfl⟩
  have htarget : Reaches (readSymlink (linkDisk image) treeSuperblock)
      linkInodes linkEntries false true 39 1 ["d"] 2 39 :=
    .hop hroot (.down hdirectory (by decide)) (.done rfl fun _ => rfl)
  refine ⟨image, (hpaths.1 true 2).mpr ⟨by decide, ["l"], 39, by decide, ?_⟩,
    (hpaths.1 false 3).mpr ⟨by decide, ["l"], 40, by decide, ?_⟩⟩
  · exact .expand hroot hlink rfl (by decide) hread
      (show parseTargetComponents "d/" = .ok ["d"] by decide) htarget
      (.done rfl (by decide))
  · exact .keep hroot hlink rfl

end FilesystemLab
