import FilesystemLab.Volume
import Mathlib.Logic.Relation

/-!
# Changes of the names of a volume

What the calls on names do to a volume: a new node, another name for a node, a
name less, a name that moves, two names that change places, and the removal of
what is below a directory.  A node that loses its last name goes (`swept`).

`Treelike` says that no directory has two names.  It holds of a new volume and
every change keeps it.
-/

namespace FilesystemLab

open Function Relation

namespace Volume

/-! ## Keys -/

/-- The key that a path ends in: the final component, in the directory that the
path of the parent leads to. -/
def KeyAt (v : Volume) (path : String) (key : UInt64 × String) : Prop :=
  ∃ messages parentPath, splitPath messages path = .ok (parentPath, key.2) ∧
    v.Resolves parentPath true key.1

/-- The same, of a path that may have one slash at its end. -/
def SlashKeyAt (v : Volume) (path : String) (key : UInt64 × String) : Prop :=
  ∃ label stripped intent,
    normalizeDirectoryIntent path label = .ok (stripped, intent) ∧
    v.KeyAt stripped key

/-! ## Changes -/

/-- A new node with one name. -/
structure Creates (v v' : Volume) (key : UInt64 × String) (id : UInt64)
    (n : Node) : Prop where
  parent : v.node key.1 = some .directory
  free : v.name key = none
  fresh : v.node id = none
  unnamed : ∀ other, v.name other ≠ some id
  eq : v' = (v.setNode id n).bind key id

/-- Another name for a node that is no directory. -/
structure Links (v v' : Volume) (key : UInt64 × String) (id : UInt64) :
    Prop where
  parent : v.node key.1 = some .directory
  free : v.name key = none
  leaf : ∃ n, v.node id = some n ∧ n ≠ .directory
  eq : v' = v.bind key id

/-- A name less. -/
structure Unlinks (v v' : Volume) (key : UInt64 × String) : Prop where
  bound : v.name key ≠ none
  eq : v' = (v.unbind key).swept

/-- The names after a rename of `s` to `t`. -/
def renamed (v : Volume) (s t : UInt64 × String) : Volume :=
  { v with name := update (update v.name s none) t (v.name s) }

/-- A rename of `s` to `t`, which changes nothing if both are names of one
node. -/
structure Renames (v v' : Volume) (s t : UInt64 × String) : Prop where
  bound : v.name s ≠ none
  same : v.name s = v.name t → v' = v
  eq : v.name s ≠ v.name t → v' = (v.renamed s t).swept

/-- The names `s` and `t` change places. -/
def exchanged (v : Volume) (s t : UInt64 × String) : Volume :=
  { v with name := update (update v.name s (v.name t)) t (v.name s) }

/-- A directory is above another one, or is it. -/
def Above (v : Volume) : UInt64 → UInt64 → Prop :=
  ReflTransGen fun parent id => ∃ text, v.name (parent, text) = some id

open Classical in
/-- The volume without the name `key` of `id` and without the names below `id`. -/
noncomputable def pruned (v : Volume) (key : UInt64 × String) (id : UInt64) :
    Volume :=
  { v with name := fun other =>
      if other = key ∨ v.Above id other.1 then none else v.name other }

/-- The removal of a directory with all that is below it. -/
def Prunes (v v' : Volume) (key : UInt64 × String) : Prop :=
  ∃ id, v.name key = some id ∧ v.node id = some .directory ∧
    v' = (v.pruned key id).swept

/-! ## Volumes whose directories have one name -/

/-- No directory has two names. -/
def Treelike (v : Volume) : Prop :=
  ∀ id key key', v.node id = some .directory → v.name key = some id →
    v.name key' = some id → key = key'

open Classical in
theorem swept_node_eq_some {v : Volume} {id : UInt64} {n : Node} :
    v.swept.node id = some n ↔ v.Named id ∧ v.node id = some n := by
  show (if v.Named id then v.node id else none) = some n ↔ _
  split
  · rename_i h
    exact ⟨fun hn => ⟨h, hn⟩, And.right⟩
  · rename_i h
    exact ⟨nofun, fun hn => absurd hn.1 h⟩

theorem bind_name_eq_some {v : Volume} {key other : UInt64 × String}
    {id target : UInt64} : (v.bind key id).name other = some target ↔
      other = key ∧ id = target ∨ other ≠ key ∧ v.name other = some target := by
  show update v.name key (some id) other = some target ↔ _
  rw [update_apply]
  split <;> simp_all

theorem unbind_name_eq_some {v : Volume} {key other : UInt64 × String}
    {target : UInt64} : (v.unbind key).name other = some target ↔
      other ≠ key ∧ v.name other = some target := by
  show update v.name key none other = some target ↔ _
  rw [update_apply]
  split <;> simp_all

theorem renamed_name_eq_some {v : Volume} {s t other : UInt64 × String}
    {target : UInt64} : (v.renamed s t).name other = some target ↔
      other = t ∧ v.name s = some target ∨
        other ≠ t ∧ other ≠ s ∧ v.name other = some target := by
  show update (update v.name s none) t (v.name s) other = some target ↔ _
  rw [update_apply, update_apply]
  split
  · simp_all
  · split <;> simp_all

/-- The names of an exchange are those of before, in other places. -/
theorem exchanged_name (v : Volume) (s t other : UInt64 × String) :
    (v.exchanged s t).name other = v.name (Equiv.swap s t other) := by
  show update (update v.name s (v.name t)) t (v.name s) other = _
  rw [update_apply, update_apply]
  by_cases ht : other = t
  · rw [if_pos ht, ht, Equiv.swap_apply_right]
  · rw [if_neg ht]
    by_cases hs : other = s
    · rw [if_pos hs, hs, Equiv.swap_apply_left]
    · rw [if_neg hs, Equiv.swap_apply_of_ne_of_ne hs ht]

open Classical in
theorem pruned_name_eq_some {v : Volume} {key other : UInt64 × String}
    {id target : UInt64} : (v.pruned key id).name other = some target ↔
      ¬ (other = key ∨ v.Above id other.1) ∧ v.name other = some target := by
  show (if other = key ∨ v.Above id other.1 then none else v.name other) =
    some target ↔ _
  split <;> simp_all

/-- Fewer directories and fewer names. -/
theorem Treelike.of_le {v v' : Volume} (h : v.Treelike)
    (hnode : ∀ id, v'.node id = some .directory → v.node id = some .directory)
    (hname : ∀ key id, v'.node id = some .directory → v'.name key = some id →
      v.name key = some id) : v'.Treelike := by
  intro id key key' hdirectory hkey hkey'
  exact h id key key' (hnode id hdirectory) (hname key id hdirectory hkey)
    (hname key' id hdirectory hkey')

theorem Treelike.swept {v : Volume} (h : v.Treelike) : v.swept.Treelike := by
  apply Treelike.of_le h
  · intro id hid
    exact (swept_node_eq_some.mp hid).2
  · exact fun _ _ _ hkey => hkey

theorem Treelike.setFile {v : Volume} (h : v.Treelike) (id : UInt64)
    (f : FileData) : (v.setFile id f).Treelike := by
  apply Treelike.of_le h
  · intro other hother
    by_cases hid : other = id
    · rw [hid, setFile_node_self] at hother
      cases hother
    · rw [setFile_node_of_ne _ _ hid] at hother
      exact hother
  · exact fun _ _ _ hkey => hkey

theorem Creates.treelike {v v' : Volume} {key : UInt64 × String} {id : UInt64}
    {n : Node} (hc : v.Creates v' key id n) (h : v.Treelike) : v'.Treelike := by
  obtain ⟨_, _, _, hunnamed, rfl⟩ := hc
  intro other k k' hother hk hk'
  rw [bind_name_eq_some] at hk hk'
  rcases hk with ⟨rfl, rfl⟩ | ⟨_, hold⟩
  · rcases hk' with ⟨rfl, _⟩ | ⟨_, hold'⟩
    · rfl
    · exact absurd hold' (hunnamed k')
  · have hne : other ≠ id := fun heq => hunnamed k (heq ▸ hold)
    rcases hk' with ⟨_, heq⟩ | ⟨_, hold'⟩
    · exact absurd heq.symm hne
    · rw [bind_node, setNode_node_of_ne v n hne] at hother
      exact h other k k' hother hold hold'

theorem Links.treelike {v v' : Volume} {key : UInt64 × String} {id : UInt64}
    (hl : v.Links v' key id) (h : v.Treelike) : v'.Treelike := by
  obtain ⟨_, _, ⟨n, hn, hleaf⟩, rfl⟩ := hl
  apply Treelike.of_le h
  · exact fun _ hid => hid
  · intro x other hother hx
    rw [bind_node] at hother
    rcases bind_name_eq_some.mp hx with ⟨_, rfl⟩ | ⟨_, hold⟩
    · rw [hn, Option.some.injEq] at hother
      exact absurd hother hleaf
    · exact hold

theorem Unlinks.treelike {v v' : Volume} {key : UInt64 × String}
    (hu : v.Unlinks v' key) (h : v.Treelike) : v'.Treelike := by
  rw [hu.eq]
  apply Treelike.swept
  apply Treelike.of_le h
  · exact fun _ hid => hid
  · exact fun _ _ _ hx => (unbind_name_eq_some.mp hx).2

/-- A rename moves the name that a directory has. -/
theorem Treelike.renamed {v : Volume} (h : v.Treelike)
    (s t : UInt64 × String) : (v.renamed s t).Treelike := by
  intro id k k' hid hk hk'
  have hid : v.node id = some .directory := hid
  rcases renamed_name_eq_some.mp hk with ⟨rfl, hold⟩ | ⟨_, hs, hold⟩
  · rcases renamed_name_eq_some.mp hk' with ⟨rfl, _⟩ | ⟨_, hs', hold'⟩
    · rfl
    · exact absurd (h id _ _ hid hold' hold) hs'
  · rcases renamed_name_eq_some.mp hk' with ⟨rfl, hold'⟩ | ⟨_, _, hold'⟩
    · exact absurd (h id _ _ hid hold hold') hs
    · exact h id k k' hid hold hold'

theorem Renames.treelike {v v' : Volume} {s t : UInt64 × String}
    (hr : v.Renames v' s t) (h : v.Treelike) : v'.Treelike := by
  by_cases hsame : v.name s = v.name t
  · rw [hr.same hsame]
    exact h
  · rw [hr.eq hsame]
    exact (h.renamed s t).swept

/-- An exchange moves the names that two directories have. -/
theorem Treelike.exchanged {v : Volume} (h : v.Treelike)
    (s t : UInt64 × String) : (v.exchanged s t).Treelike := by
  intro id k k' hid hk hk'
  rw [exchanged_name] at hk hk'
  exact (Equiv.swap s t).injective (h id _ _ hid hk hk')

theorem Prunes.treelike {v v' : Volume} {key : UInt64 × String}
    (hp : v.Prunes v' key) (h : v.Treelike) : v'.Treelike := by
  obtain ⟨id, _, _, rfl⟩ := hp
  apply Treelike.swept
  apply Treelike.of_le h
  · exact fun _ hid => hid
  · exact fun _ _ _ hx => (pruned_name_eq_some.mp hx).2

end Volume

end FilesystemLab
