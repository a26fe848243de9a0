import FilesystemLab.Lib.Splice
import FilesystemLab.FileResize
import FilesystemLab.PathReference
import Mathlib.Logic.Function.Basic

/-!
# The volume that a disk stands for

What the filesystem is for, without blocks, tables and a journal.  A volume has
nodes, which are files, directories and symbolic links, and names: a name is in
a directory and stands for a node.  A file is the images of its blocks and its
length in bytes.

* `FileData` has the contents of one file and what may happen to them.
* `Volume` has the nodes and the names, and the updates of both.
* `Volume.Reaches` and `Volume.Resolves` say which node a path stands for.

The modules below this one show that each call of the library does to the volume
of a disk what is said here.
-/

namespace FilesystemLab

open Bytes

/-! ## Files -/

/-- The contents of a file: the images of its blocks, and how many of their
bytes belong to it. -/
@[ext] structure FileData where
  images : List Block
  byteLen : Nat

namespace FileData

/-- All bytes of the blocks. -/
def space (f : FileData) : List UInt8 := f.images.flatMap Block.bytes

/-- The bytes of the file. -/
def bytes (f : FileData) : List UInt8 := f.space.take f.byteLen

/-- The bytes behind the end of the file. -/
def tail (f : FileData) : List UInt8 := f.space.drop f.byteLen

/-- How many bytes of its blocks the file does not use. -/
def slack (f : FileData) : Nat := f.images.length * BLOCK_SIZE - f.byteLen

/-- The file with other blocks, which leaves as many bytes unused as before. -/
def withImages (f : FileData) (images : List Block) : FileData :=
  ⟨images, if images = [] then 0 else images.length * BLOCK_SIZE - f.slack⟩

@[simp] theorem withImages_images (f : FileData) (images : List Block) :
    (f.withImages images).images = images := rfl

/-- The file with `images` in the place of its blocks from `start` up to
`stop`. -/
def splice (f : FileData) (start stop : Nat) (images : List Block) : FileData :=
  f.withImages (Splice.splice f.images start stop images)

/-- Blocks in their own place. -/
theorem splice_segment {f : FileData}
    (hend : f.byteLen ≤ f.images.length * BLOCK_SIZE) {start stop : Nat}
    (hle : start ≤ stop) :
    f.splice start stop (Splice.segment f.images start stop) = f := by
  have himages : Splice.splice f.images start stop _ = f.images :=
    Splice.splice_segment hle
  apply FileData.ext himages
  show (if Splice.splice _ _ _ _ = [] then 0 else _ - f.slack) = f.byteLen
  rw [himages]
  unfold slack
  split
  · rename_i hnil
    rw [hnil, List.length_nil, Nat.zero_mul] at hend
    omega
  · omega

/-- The file with other blocks and the same end. -/
def setImages (f : FileData) (images : List Block) : FileData :=
  { f with images }

/-- The file with some of its blocks overwritten. -/
def setBlocks (f : FileData) (writes : List (Nat × Block)) : FileData :=
  f.setImages (Splice.setAll f.images writes)

/-- Bytes are written over bytes of the file. -/
structure Overwritten (f f' : FileData) (start : Nat) (data : List UInt8) :
    Prop where
  inside : start + data.length ≤ f.byteLen
  byteLen_eq : f'.byteLen = f.byteLen
  space_eq : f'.space = overwrite f.space start data

/-- What is written is read back. -/
theorem Overwritten.slice {f f' : FileData} {start : Nat} {data : List UInt8}
    (h : f.Overwritten f' start data) (hlen : f.bytes.length = f.byteLen) :
    (f'.bytes.drop start).take data.length = data := by
  have hinside := h.inside
  have hspace : f.byteLen ≤ f.space.length := by
    rw [bytes, List.length_take] at hlen
    omega
  have hfront : (f.bytes.take start).length = start := by
    rw [List.length_take]
    omega
  rw [bytes, h.space_eq, h.byteLen_eq, take_overwrite hinside hspace, overwrite,
    List.append_assoc]
  rw [bytes] at hfront
  rw [List.drop_left' hfront, List.take_left]

/-- Bytes are written over the file and behind it.  If the file grows, its bytes
before them and the rest of its last block become zero. -/
structure Extended (f f' : FileData) (offset : Nat) (data : List UInt8) :
    Prop where
  byteLen_eq : f'.byteLen = max f.byteLen (offset + data.length)
  length_eq : f'.images.length = byteLenToBlockCount f'.byteLen
  space_eq : f'.space = overwrite (if offset + data.length ≤ f.byteLen
    then f.space
    else f.bytes ++ zeros (f'.images.length * BLOCK_SIZE - f.byteLen)) offset data

/-- The file is cut at `n` bytes, or padded to them with zeros. -/
structure Resized (f f' : FileData) (n : Nat) : Prop where
  byteLen_eq : f'.byteLen = n
  length_eq : f'.images.length = byteLenToBlockCount n
  space_eq : f'.space = f.bytes.take n ++
    zeros (f'.images.length * BLOCK_SIZE - min f.byteLen n)

end FileData

/-! ## Volumes -/

/-- What an inode stands for. -/
inductive Node where
  | file (data : FileData)
  | directory
  | symlink (target : String)

/-- The nodes of a volume, and its names: each is in a directory, has a text, and
stands for a node. -/
@[ext] structure Volume where
  node : UInt64 → Option Node
  name : UInt64 × String → Option UInt64

namespace Volume

open Function

/-- The volume with another node. -/
def setNode (v : Volume) (id : UInt64) (n : Node) : Volume :=
  { v with node := update v.node id (some n) }

def setFile (v : Volume) (id : UInt64) (f : FileData) : Volume :=
  v.setNode id (.file f)

/-- The volume with a name for `id`. -/
def bind (v : Volume) (key : UInt64 × String) (id : UInt64) : Volume :=
  { v with name := update v.name key (some id) }

/-- The volume without a name. -/
def unbind (v : Volume) (key : UInt64 × String) : Volume :=
  { v with name := update v.name key none }

/-- The node has a name, or it is the root. -/
def Named (v : Volume) (id : UInt64) : Prop :=
  id = 1 ∨ ∃ key, v.name key = some id

open Classical in
/-- The volume without the nodes that have no name. -/
noncomputable def swept (v : Volume) : Volume :=
  { v with node := fun id => if v.Named id then v.node id else none }

@[simp] theorem setNode_node_self (v : Volume) (id : UInt64) (n : Node) :
    (v.setNode id n).node id = some n := update_self _ _ _

theorem setNode_node_of_ne (v : Volume) {id other : UInt64} (n : Node)
    (h : other ≠ id) : (v.setNode id n).node other = v.node other :=
  update_of_ne h _ _

@[simp] theorem setNode_name (v : Volume) (id : UInt64) (n : Node) :
    (v.setNode id n).name = v.name := rfl

@[simp] theorem setFile_name (v : Volume) (id : UInt64) (f : FileData) :
    (v.setFile id f).name = v.name := rfl

@[simp] theorem setFile_node_self (v : Volume) (id : UInt64) (f : FileData) :
    (v.setFile id f).node id = some (.file f) := update_self _ _ _

theorem setFile_node_of_ne (v : Volume) {id other : UInt64} (f : FileData)
    (h : other ≠ id) : (v.setFile id f).node other = v.node other :=
  update_of_ne h _ _

@[simp] theorem bind_node (v : Volume) (key : UInt64 × String) (id : UInt64) :
    (v.bind key id).node = v.node := rfl

@[simp] theorem unbind_node (v : Volume) (key : UInt64 × String) :
    (v.unbind key).node = v.node := rfl

@[simp] theorem swept_name (v : Volume) : v.swept.name = v.name := rfl

/-- What was at the place of the new file does not count. -/
theorem setFile_congr {v w : Volume} {id : UInt64} (f : FileData)
    (hname : v.name = w.name)
    (hnode : ∀ other, other ≠ id → v.node other = w.node other) :
    v.setFile id f = w.setFile id f := by
  refine Volume.ext ?_ hname
  funext other
  by_cases hother : other = id
  · subst hother
    simp
  · rw [setFile_node_of_ne _ _ hother, setFile_node_of_ne _ _ hother,
      hnode other hother]

/-- A file that is written as it is. -/
theorem setFile_of_node {v : Volume} {id : UInt64} {f : FileData}
    (h : v.node id = some (.file f)) : v.setFile id f = v := by
  unfold setFile setNode
  rw [← h, update_eq_self]

/-! ## Paths -/

/-- The parent of a directory: the root is its own, and another directory has
one name, in a directory. -/
def Parent (v : Volume) (directory parent : UInt64) : Prop :=
  directory = 1 ∧ parent = 1 ∨
    directory ≠ 1 ∧ v.node parent = some .directory ∧
      ∃ text, ∀ key, v.name key = some directory ↔ key = (parent, text)

/-- A name of a directory stands for a node. -/
def Lists (v : Volume) (directory : UInt64) (text : String) (id : UInt64)
    (n : Node) : Prop :=
  text ≠ "." ∧ text ≠ ".." ∧ v.name (directory, text) = some id ∧
    v.node id = some n

/-- The components that are not links, and where they lead. -/
inductive Hop (v : Volume) (directory : UInt64) : String → UInt64 → Prop where
  | stay : Hop v directory "." directory
  | up {parent : UInt64} (h : v.Parent directory parent) :
      Hop v directory ".." parent
  | down {text : String} {id : UInt64} {n : Node}
      (h : v.Lists directory text id n) (hkind : ∀ target, n ≠ .symlink target) :
      Hop v directory text id

/-- The walk from a directory along some components, which may expand `links`
links and does not expand `left` of them.  With `keep`, a link at the end is not
followed; with `requires`, the end must be a directory. -/
inductive Reaches (v : Volume) :
    (keep requires : Bool) → (links : Nat) → UInt64 → List String → UInt64 →
      (left : Nat) → Prop where
  | done {keep requires : Bool} {links : Nat} {directory : UInt64} {n : Node}
      (h : v.node directory = some n)
      (hkind : requires = true → n = .directory) :
      Reaches v keep requires links directory [] directory links
  | hop {keep requires : Bool} {links left : Nat} {directory next id : UInt64}
      {text : String} {rest : List String}
      (h : v.node directory = some .directory)
      (hhop : v.Hop directory text next)
      (hrest : Reaches v keep requires links next rest id left) :
      Reaches v keep requires links directory (text :: rest) id left
  | keep {requires : Bool} {links : Nat} {directory id : UInt64}
      {text target : String} (h : v.node directory = some .directory)
      (hlink : v.Lists directory text id (.symlink target)) :
      Reaches v true requires links directory [text] id links
  | expand {keep requires : Bool} {links mid left : Nat}
      {directory link next id : UInt64} {text target : String}
      {rest components : List String} (h : v.node directory = some .directory)
      (hlink : v.Lists directory text link (.symlink target))
      (hopen : keep = true → rest ≠ [])
      (hparse : parseTargetComponents target = .ok components)
      (htarget : Reaches v false (asksDirectory target) links
        (if startsWithSlash target then 1 else directory) components next mid)
      (hrest : Reaches v keep requires mid next rest id left) :
      Reaches v keep requires (links + 1) directory (text :: rest) id left

/-- The node that an absolute path stands for.  A link at its end is kept if it
is not to be followed and no slash asks for a directory. -/
def Resolves (v : Volume) (path : String) (follow : Bool) (id : UInt64) : Prop :=
  startsWithSlash path = true ∧
    ∃ components left, parseComponents path = .ok components ∧
      v.Reaches (!follow && !asksDirectory path) (asksDirectory path)
        MAX_SYMLINK_EXPANSIONS 1 components id left

/-- A walk ends at a node. -/
theorem Reaches.exists_node {v : Volume} {keep requires : Bool}
    {links left : Nat} {directory id : UInt64} {components : List String}
    (h : v.Reaches keep requires links directory components id left) :
    ∃ n, v.node id = some n := by
  induction h with
  | done hnode _ => exact ⟨_, hnode⟩
  | hop _ _ _ ih => exact ih
  | keep _ hlink => exact ⟨_, hlink.2.2.2⟩
  | expand _ _ _ _ _ _ _ ih => exact ih

/-- The contents of a file do not count for where its name leads. -/
theorem Lists.setFile {v : Volume} {directory id file : UInt64} {text : String}
    {n : Node} (h : v.Lists directory text id n) {f : FileData}
    (hfile : v.node file = some (.file f)) (f' : FileData) :
    ∃ m, (v.setFile file f').Lists directory text id m ∧
      ∀ target, n = .symlink target ↔ m = .symlink target := by
  obtain ⟨hdot, hdots, hname, hnode⟩ := h
  by_cases hid : id = file
  · subst hid
    rw [hfile, Option.some.injEq] at hnode
    subst hnode
    exact ⟨.file f', ⟨hdot, hdots, hname, setFile_node_self v id f'⟩, by simp⟩
  · refine ⟨n, ⟨hdot, hdots, hname, ?_⟩, fun _ => Iff.rfl⟩
    rw [setFile_node_of_ne _ _ hid, hnode]

/-- A directory is not the file. -/
theorem directory_setFile {v : Volume} {id file : UInt64} {f : FileData}
    (h : v.node id = some .directory) (hfile : v.node file = some (.file f))
    (f' : FileData) : (v.setFile file f').node id = some .directory := by
  have hne : id ≠ file := by
    rintro rfl
    rw [hfile] at h
    cases h
  rw [setFile_node_of_ne _ _ hne, h]

theorem Hop.setFile {v : Volume} {directory next file : UInt64} {text : String}
    (h : v.Hop directory text next) {f : FileData}
    (hfile : v.node file = some (.file f)) (f' : FileData) :
    (v.setFile file f').Hop directory text next := by
  cases h with
  | stay => exact .stay
  | up hparent =>
    apply Hop.up
    rcases hparent with hroot | ⟨hne, hnode, hname⟩
    · exact .inl hroot
    · exact .inr ⟨hne, directory_setFile hnode hfile f', hname⟩
  | down hlists hkind =>
    obtain ⟨m, hm, hlinks⟩ := hlists.setFile hfile f'
    exact .down hm fun target htarget => hkind target ((hlinks target).mpr htarget)

/-- **A walk does not depend on the contents of a file.** -/
theorem Reaches.setFile {v : Volume} {keep requires : Bool} {links left : Nat}
    {directory id file : UInt64} {components : List String}
    (h : v.Reaches keep requires links directory components id left)
    {f : FileData} (hfile : v.node file = some (.file f)) (f' : FileData) :
    (v.setFile file f').Reaches keep requires links directory components id
      left := by
  have hlink : ∀ {directory link : UInt64} {text target : String},
      v.Lists directory text link (.symlink target) →
        (v.setFile file f').Lists directory text link (.symlink target) := by
    intro directory link text target hlists
    obtain ⟨m, hm, hlinks⟩ := hlists.setFile hfile f'
    rw [(hlinks target).mp rfl] at hm
    exact hm
  induction h with
  | @done _ requires _ directory n hnode hkind =>
    by_cases hdirectory : directory = file
    · subst hdirectory
      apply Reaches.done (setFile_node_self v directory f')
      intro hrequires
      rw [hfile, Option.some.injEq] at hnode
      rw [← hnode] at hkind
      cases hkind hrequires
    · apply Reaches.done _ hkind
      rw [setFile_node_of_ne _ _ hdirectory, hnode]
  | hop hnode hhop _ ih =>
    exact .hop (directory_setFile hnode hfile f') (hhop.setFile hfile f') ih
  | keep hnode hlists =>
    exact .keep (directory_setFile hnode hfile f') (hlink hlists)
  | expand hnode hlists hopen hparse _ _ ihtarget ihrest =>
    exact .expand (directory_setFile hnode hfile f') (hlink hlists) hopen hparse
      ihtarget ihrest

theorem Resolves.setFile {v : Volume} {path : String} {follow : Bool}
    {id file : UInt64} (h : v.Resolves path follow id) {f : FileData}
    (hfile : v.node file = some (.file f)) (f' : FileData) :
    (v.setFile file f').Resolves path follow id := by
  obtain ⟨hslash, components, left, hparse, hreaches⟩ := h
  exact ⟨hslash, components, left, hparse, hreaches.setFile hfile f'⟩

theorem Resolves.exists_node {v : Volume} {path : String} {follow : Bool}
    {id : UInt64} (h : v.Resolves path follow id) : ∃ n, v.node id = some n := by
  obtain ⟨_, components, left, _, hreaches⟩ := h
  exact hreaches.exists_node

end Volume

end FilesystemLab
