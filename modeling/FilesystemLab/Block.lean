import FilesystemLab.Lib.Bytes
import FilesystemLab.Lib.Effect
import FilesystemLab.Lib.WriteLog

/-!
# Block devices

`src/block.rs`: the `BlockDevice` trait and the device it runs on.

The trait is the class `BlockDevice`.  A read does not change the device, so it
is a function of the device; `writeBlock` and `flush` are effects on it.
Functions of the source that only read take the device as an argument, and
functions that write are `DevM` computations over it, so both stay generic in
the device as the source is.

`Disk` is the durable device.  It stands for `FileBlockDevice` together with
the power: besides the contents that a read sees, it remembers every mutation
since it was last opened, so that `Disk.CrashDuring` can say which contents a
reboot finds when the power fails inside an operation.  An operation of `Disk`
fails only on a block index outside the device.

`usize` and `u64` are both 64-bit words here (`U64_LIMIT`).
-/

namespace FilesystemLab

open WriteLog

/-! ## Errors -/

/-- The `io::ErrorKind`s that the crate returns. -/
inductive ErrorKind where
  | invalidInput
  | invalidData
  | unexpectedEof
  | wouldBlock
  | permissionDenied
  | notFound
  | other
  deriving DecidableEq, Repr

/-- `io::Error`: a kind and a message. -/
structure IoError where
  kind : ErrorKind
  message : String
  deriving DecidableEq, Repr

/-- `io::Result`. -/
abbrev Result (α : Type) := Except IoError α

/-- The helper of the same name in every module of the crate. -/
def invalidInput (message : String) : IoError := ⟨.invalidInput, message⟩

/-- The helper of the same name in every module of the crate. -/
def invalidData (message : String) : IoError := ⟨.invalidData, message⟩

/-- The number of values of a `u64`, and of a `usize`. -/
def U64_LIMIT : Nat := 2 ^ 64

/-- `checked_add` on 64-bit words. -/
def checkedAdd (a b : Nat) : Option Nat :=
  if a + b < U64_LIMIT then some (a + b) else none

/-- `checked_mul` on 64-bit words. -/
def checkedMul (a b : Nat) : Option Nat :=
  if a * b < U64_LIMIT then some (a * b) else none

/-- `checked_sub`. -/
def checkedSub (a b : Nat) : Option Nat :=
  if b ≤ a then some (a - b) else none

@[simp] theorem checkedAdd_eq_some {a b c : Nat} :
    checkedAdd a b = some c ↔ a + b < U64_LIMIT ∧ a + b = c := by
  unfold checkedAdd
  split <;> simp_all

@[simp] theorem checkedMul_eq_some {a b c : Nat} :
    checkedMul a b = some c ↔ a * b < U64_LIMIT ∧ a * b = c := by
  unfold checkedMul
  split <;> simp_all

@[simp] theorem checkedSub_eq_some {a b c : Nat} :
    checkedSub a b = some c ↔ b ≤ a ∧ a - b = c := by
  unfold checkedSub
  split <;> simp_all

/-! ## Blocks -/

/-- Bytes in a logical block. -/
def BLOCK_SIZE : Nat := 4096

theorem blockSize_eq : BLOCK_SIZE = 4096 := rfl

theorem blockSize_pos : 0 < BLOCK_SIZE := by decide

/-- `[u8; BLOCK_SIZE]`. -/
@[ext] structure Block where
  bytes : List UInt8
  length_eq : bytes.length = BLOCK_SIZE
  deriving DecidableEq

namespace Block

/-- The first `BLOCK_SIZE` bytes of a byte string, with zeros behind a shorter
one.  The source fills a zeroed block from a slice, or takes a slice of exactly
one block. -/
def ofBytes (bytes : List UInt8) : Block where
  bytes := (bytes ++ Bytes.zeros (BLOCK_SIZE - bytes.length)).take BLOCK_SIZE
  length_eq := by
    rw [List.length_take, List.length_append, Bytes.length_zeros]
    omega

/-- `[0_u8; BLOCK_SIZE]`. -/
def zero : Block := ⟨Bytes.zeros BLOCK_SIZE, Bytes.length_zeros _⟩

attribute [simp] Block.length_eq

theorem bytes_ofBytes_of_le {bytes : List UInt8}
    (h : bytes.length ≤ BLOCK_SIZE) :
    (ofBytes bytes).bytes =
      bytes ++ Bytes.zeros (BLOCK_SIZE - bytes.length) := by
  refine List.take_of_length_le ?_
  rw [List.length_append, Bytes.length_zeros]
  omega

theorem bytes_ofBytes {bytes : List UInt8} (h : bytes.length = BLOCK_SIZE) :
    (ofBytes bytes).bytes = bytes := by
  rw [bytes_ofBytes_of_le (le_of_eq h), h, Nat.sub_self, Bytes.zeros_zero,
    List.append_nil]

/-- Block `index` of a region image. -/
def ofImage (image : List UInt8) (index : Nat) : Block :=
  ofBytes (Bytes.chunk BLOCK_SIZE image index)

theorem bytes_ofImage {image : List UInt8} {index n : Nat}
    (hlen : image.length = n * BLOCK_SIZE) (h : index < n) :
    (ofImage image index).bytes = Bytes.chunk BLOCK_SIZE image index :=
  bytes_ofBytes (Bytes.length_chunk hlen h)

end Block

/-! ## The trait -/

/-- Effects on a device that may fail with an `io::Error`. -/
abbrev DevM (σ : Type) := Effect IoError σ

/-- The `BlockDevice` trait. -/
class BlockDevice (σ : Type) where
  /-- The number of blocks. -/
  blockCount : σ → Nat
  /-- Reads one logical block. -/
  readBlock : σ → Nat → Result Block
  /-- Writes one logical block. -/
  writeBlock : Nat → Block → DevM σ Unit
  /-- Makes earlier writes durable. -/
  flush : DevM σ Unit

export BlockDevice (blockCount readBlock writeBlock flush)

/-- `device.write_block(block, data)?` for each pair, in order. -/
def writeBlocks {σ : Type} [BlockDevice σ] (ws : List (Nat × Block)) :
    DevM σ Unit :=
  Effect.forEach (fun w => writeBlock w.1 w.2) ws

/-- `if c { device.flush()?; }`. -/
def flushIf {σ : Type} [BlockDevice σ] (c : Prop) [Decidable c] : DevM σ Unit :=
  if c then flush else pure ()

/-- The device shows the contents `f`. -/
def Shows {σ : Type} [BlockDevice σ] (device : σ) (f : Nat → Block) : Prop :=
  ∀ b, b < blockCount device → readBlock device b = .ok (f b)

/-- `device.read_block(start + index)` for each index of a region, appended to
one image. -/
def readImage {σ : Type} [BlockDevice σ] (device : σ) (start : Nat) :
    Nat → Result (List UInt8)
  | 0 => .ok []
  | n + 1 => do
    let image ← readImage device start n
    let block ← readBlock device (start + n)
    pure (image ++ block.bytes)

/-- The bytes of `n` consecutive blocks. -/
def imageOf (f : Nat → Block) (start n : Nat) : List UInt8 :=
  (List.range n).flatMap fun i => (f (start + i)).bytes

@[simp] theorem length_imageOf (f : Nat → Block) (start n : Nat) :
    (imageOf f start n).length = n * BLOCK_SIZE := by
  induction n with
  | zero => simp [imageOf]
  | succ n ih =>
    rw [imageOf, List.range_succ, List.flatMap_append, List.length_append,
      Nat.succ_mul]
    have : ((List.range n).flatMap fun i => (f (start + i)).bytes).length =
        n * BLOCK_SIZE := ih
    rw [this]
    simp

theorem imageOf_succ (f : Nat → Block) (start n : Nat) :
    imageOf f start (n + 1) = imageOf f start n ++ (f (start + n)).bytes := by
  simp [imageOf, List.range_succ]

theorem imageOf_succ_head (f : Nat → Block) (start n : Nat) :
    imageOf f start (n + 1) = (f start).bytes ++ imageOf f (start + 1) n := by
  rw [imageOf, List.range_succ_eq_map, List.flatMap_cons, List.flatMap_map,
    imageOf]
  simp only [Nat.add_zero, Nat.succ_eq_add_one]
  congr 1
  refine List.flatMap_congr fun i _ => ?_
  rw [show start + (i + 1) = start + 1 + i by omega]

/-- The image of blocks that hold the pieces of `image` is `image`. -/
theorem imageOf_ofImage {f : Nat → Block} {image : List UInt8} {start n : Nat}
    (hlen : image.length = n * BLOCK_SIZE)
    (h : ∀ i, i < n → f (start + i) = Block.ofImage image i) :
    imageOf f start n = image := by
  have hpieces : imageOf f start n =
      (List.range n).flatMap (Bytes.chunk BLOCK_SIZE image) := by
    refine List.flatMap_congr fun i hi => ?_
    have hi' := List.mem_range.mp hi
    rw [h i hi', Block.bytes_ofImage hlen hi']
  rw [hpieces, Bytes.flatMap_chunk hlen]

/-- A piece of the image of some blocks is one of the blocks. -/
theorem ofImage_imageOf {f : Nat → Block} {start n i : Nat} (h : i < n) :
    Block.ofImage (imageOf f start n) i = f (start + i) := by
  have hlen := length_imageOf f start n
  have hcut : imageOf f start n =
      imageOf f start i ++ imageOf f (start + i) (n - i) := by
    unfold imageOf
    rw [show n = i + (n - i) by omega, List.range_add, List.flatMap_append,
      List.flatMap_map, show i + (n - i) - i = n - i by omega]
    congr 1
    refine List.flatMap_congr fun j _ => ?_
    rw [Nat.add_assoc]
  have hchunk : Bytes.chunk BLOCK_SIZE (imageOf f start n) i =
      (f (start + i)).bytes := by
    unfold Bytes.chunk
    rw [hcut, List.drop_left' (length_imageOf f start i),
      show n - i = n - i - 1 + 1 by omega, imageOf_succ_head]
    exact List.take_left' (f (start + i)).length_eq
  apply Block.ext
  rw [Block.bytes_ofImage hlen h, hchunk]

/-- The pieces of blocks that are put together are the blocks. -/
theorem map_ofImage_flatMap (blocks : List Block) :
    (List.range blocks.length).map
      (Block.ofImage (blocks.flatMap Block.bytes)) = blocks := by
  have hlen := Bytes.length_flatMap_pieces Block.length_eq blocks
  apply List.ext_getElem
  · rw [List.length_map, List.length_range]
  · intro i _ hi
    rw [List.getElem_map, List.getElem_range]
    apply Block.ext
    rw [Block.bytes_ofImage hlen hi, Bytes.chunk,
      Bytes.drop_flatMap_pieces Block.length_eq, List.drop_eq_getElem_cons hi,
      List.flatMap_cons]
    exact List.take_left' (blocks[i]).length_eq

theorem readImage_eq {σ : Type} [BlockDevice σ] {device : σ} {f : Nat → Block}
    {start n : Nat}
    (h : ∀ b, start ≤ b → b < start + n → readBlock device b = .ok (f b)) :
    readImage device start n = .ok (imageOf f start n) := by
  induction n with
  | zero => rfl
  | succ n ih =>
    rw [readImage, ih fun b h1 h2 => h b h1 (by omega),
      h (start + n) (by omega) (by omega), imageOf_succ]
    rfl

theorem length_readImage {σ : Type} [BlockDevice σ] {device : σ} {start : Nat} :
    ∀ {n : Nat} {image : List UInt8}, readImage device start n = .ok image →
      image.length = n * BLOCK_SIZE := by
  intro n
  induction n with
  | zero =>
    intro image h
    simp only [readImage, Except.ok.injEq] at h
    simp [← h]
  | succ n ih =>
    intro image h
    simp only [readImage, Except.bind_eq_ok, Except.pure_eq_ok,
      Except.ok.injEq] at h
    obtain ⟨front, hfront, block, _, rfl⟩ := h
    rw [List.length_append, ih hfront, block.length_eq, Nat.succ_mul]

/-- Two devices whose reads agree on a region give the same image of it. -/
theorem readImage_congr {σ τ : Type} [BlockDevice σ] [BlockDevice τ]
    {device : σ} {other : τ} {start n : Nat}
    (h : ∀ b, start ≤ b → b < start + n →
      readBlock device b = readBlock other b) :
    readImage device start n = readImage other start n := by
  induction n with
  | zero => rfl
  | succ n ih =>
    rw [readImage, readImage, ih fun b h1 h2 => h b h1 (by omega),
      h (start + n) (by omega) (by omega)]

/-! ## The durable device -/

/-- One mutation of a disk. -/
abbrev DiskEvent := Event Nat Block

/-- A block device and its power: the contents found when it was opened, and
every mutation since. -/
structure Disk where
  size : Nat
  opened : Nat → Block
  trace : List DiskEvent

namespace Disk

/-- The write buffer of the disk. -/
def buffer (d : Disk) : Buffer Nat Block := (Buffer.clean d.opened).run d.trace

/-- The contents that a read sees. -/
def blocks (d : Disk) : Nat → Block := d.buffer.current

/-- Nothing is pending: every write has crossed a flush. -/
def Settled (d : Disk) : Prop := d.buffer.Settled

/-- A disk as a reboot finds it. -/
def boot (size : Nat) (contents : Nat → Block) : Disk := ⟨size, contents, []⟩

/-- The disk after further mutations. -/
def extend (d : Disk) (es : List DiskEvent) : Disk :=
  { d with trace := d.trace ++ es }

instance : BlockDevice Disk where
  blockCount d := d.size
  readBlock d b :=
    if b < d.size then .ok (d.blocks b)
    else .error ⟨.unexpectedEof, "block index is outside the device"⟩
  writeBlock b v := fun d =>
    if b < d.size then (.ok (), d.extend [.write b v])
    else (.error ⟨.unexpectedEof, "block index is outside the device"⟩, d)
  flush := fun d => (.ok (), d.extend [.flush])

@[simp] theorem blockCount_eq (d : Disk) : blockCount d = d.size := rfl

theorem readBlock_of_lt {d : Disk} {b : Nat} (h : b < d.size) :
    readBlock d b = .ok (d.blocks b) := if_pos h

theorem shows (d : Disk) : Shows d d.blocks := fun _ h => readBlock_of_lt h

theorem writeBlock_of_lt {d : Disk} {b : Nat} {v : Block} (h : b < d.size) :
    writeBlock b v d = (.ok (), d.extend [.write b v]) := if_pos h

theorem flush_apply (d : Disk) : flush d = (.ok (), d.extend [.flush]) := rfl

@[simp] theorem extend_size (d : Disk) (es : List DiskEvent) :
    (d.extend es).size = d.size := rfl

@[simp] theorem extend_nil (d : Disk) : d.extend [] = d := by
  simp [extend]

@[simp] theorem extend_extend (d : Disk) (es fs : List DiskEvent) :
    (d.extend es).extend fs = d.extend (es ++ fs) := by
  simp [extend]

@[simp] theorem boot_size (n : Nat) (f : Nat → Block) : (boot n f).size = n :=
  rfl

@[simp] theorem boot_blocks (n : Nat) (f : Nat → Block) :
    (boot n f).blocks = f := rfl

theorem boot_settled (n : Nat) (f : Nat → Block) : (boot n f).Settled := rfl

theorem buffer_extend (d : Disk) (es : List DiskEvent) :
    (d.extend es).buffer = d.buffer.run es := by
  simp only [buffer, extend, Buffer.run_append]

theorem buffer_eq_clean {d : Disk} (h : d.Settled) :
    d.buffer = Buffer.clean d.blocks :=
  Buffer.eq_clean_of_settled h

/-- The disk after a list of flushed epochs of writes. -/
def commit (d : Disk) (epochs : List (List (Nat × Block))) : Disk :=
  d.extend (barriers epochs)

@[simp] theorem commit_size (d : Disk) (eps : List (List (Nat × Block))) :
    (d.commit eps).size = d.size := rfl

@[simp] theorem commit_nil (d : Disk) : d.commit [] = d := by
  simp [commit]

theorem commit_commit (d : Disk) (eps eps' : List (List (Nat × Block))) :
    (d.commit eps).commit eps' = d.commit (eps ++ eps') := by
  rw [commit, commit, commit, extend_extend, barriers_append]

theorem buffer_commit {d : Disk} (h : d.Settled)
    (eps : List (List (Nat × Block))) :
    (d.commit eps).buffer = Buffer.clean (settle d.blocks eps) := by
  rw [commit, buffer_extend, buffer_eq_clean h, run_barriers]

theorem commit_settled {d : Disk} (h : d.Settled)
    (eps : List (List (Nat × Block))) : (d.commit eps).Settled := by
  rw [Settled, buffer_commit h]
  rfl

theorem blocks_commit (d : Disk) (eps : List (List (Nat × Block))) :
    (d.commit eps).blocks = settle d.blocks eps := by
  rw [blocks, commit, buffer_extend, current_run_barriers]
  rfl

/-! ## Running writes -/

theorem writeBlocks_apply {d : Disk} {ws : List (Nat × Block)}
    (h : ∀ w ∈ ws, w.1 < d.size) :
    writeBlocks ws d = (.ok (), d.extend (ws.map fun w => .write w.1 w.2)) := by
  induction ws generalizing d with
  | nil => simp [writeBlocks]
  | cons w ws ih =>
    have hw : w.1 < d.size := h w List.mem_cons_self
    rw [writeBlocks, Effect.forEach_cons,
      Effect.bind_of_ok (writeBlock_of_lt hw)]
    have hrest : ∀ v ∈ ws, v.1 < (d.extend [.write w.1 w.2]).size :=
      fun v hv => h v (List.mem_cons_of_mem _ hv)
    have := ih hrest
    rw [writeBlocks] at this
    rw [this, extend_extend]
    rfl

/-- One epoch: writes in order, then a flush. -/
theorem writeBlocks_flush_apply {d : Disk} {ws : List (Nat × Block)}
    (h : ∀ w ∈ ws, w.1 < d.size) :
    (do writeBlocks ws; flush : DevM Disk Unit) d = (.ok (), d.commit [ws]) := by
  rw [Effect.bind_of_ok (writeBlocks_apply h), flush_apply, extend_extend,
    commit]
  simp [barriers, epoch]

/-! ## Power failures -/

/-- `img` is a disk that a reboot may find when the power fails inside the
operation `op`, run on `d`.  Every block holds its contents at the last flush
before the failure, or any value written to it since. -/
def CrashDuring {α : Type} (d : Disk) (op : DevM Disk α) (img : Disk) : Prop :=
  ∃ p contents, d.trace <+: p ∧ p <+: (op d).2.trace ∧
    ((Buffer.clean d.opened).run p).MayHold contents ∧
    img = boot d.size contents

/-- A crash inside an operation whose mutations are a list of epochs. -/
theorem crashDuring_iff {α : Type} {d : Disk} {op : DevM Disk α} {img : Disk}
    {es : List DiskEvent} (h : (op d).2 = d.extend es) (hd : d.Settled) :
    d.CrashDuring op img ↔
      ∃ contents, CrashImage d.blocks es contents ∧
        img = boot d.size contents := by
  have hbuf : (Buffer.clean d.opened).run d.trace = Buffer.clean d.blocks :=
    buffer_eq_clean hd
  constructor
  · intro hfacts
    rcases hfacts with ⟨p, contents, ⟨q, rfl⟩, hp, hold, rfl⟩
    refine ⟨contents, ⟨q, ?_, ?_⟩, rfl⟩
    · rw [h, extend] at hp
      exact (List.prefix_append_right_inj _).mp hp
    · rwa [Buffer.run_append, hbuf] at hold
  · intro hfacts
    rcases hfacts with ⟨contents, ⟨q, hq, hold⟩, rfl⟩
    refine ⟨d.trace ++ q, contents, List.prefix_append _ _, ?_, ?_, rfl⟩
    · rw [h, extend]
      exact (List.prefix_append_right_inj _).mpr hq
    · rwa [Buffer.run_append, hbuf]

/-- An operation that issues no mutation crashes into the disk as it is. -/
theorem crashDuring_of_unchanged {α : Type} {d : Disk} {op : DevM Disk α}
    {img : Disk} (h : (op d).2 = d) (hd : d.Settled)
    (hc : d.CrashDuring op img) : img = boot d.size d.blocks := by
  have hnone : (op d).2 = d.extend (barriers []) := by simpa using h
  obtain ⟨contents, hcrash, rfl⟩ := (crashDuring_iff hnone hd).mp hc
  rw [crashImage_barriers_nil hcrash]

end Disk

end FilesystemLab
