import FilesystemLab.Allocation
import FilesystemLab.Lib.Abort
import Mathlib.Order.Bounds.Basic

/-!
# Runs of the block allocator

`BlockAllocator` of `src/allocation.rs` one assignment at a time.  Here the
fields are what the source declares and nothing more, `+` and `-` panic when
they leave the 64-bit range, and so does an index or a slice out of bounds; a
call that fails leaves what it has assigned so far.

* `RawAllocator` is this allocator.
* `allocateContiguous_raw` and `free_raw`: on the fields of a `BlockAllocator`
  the calls do what the functions of `Allocation` say, and do not panic.
* `allocator_runs`: what holds after any calls on a new allocator.
-/

namespace FilesystemLab

open BlockAllocator

/-! ## The allocator of the source -/

section Words

variable {ε : Type}

/-- `a + b` on 64-bit words. -/
def addOrPanic (a b : Nat) : Except (Abort ε) Nat := okOr (checkedAdd a b) Abort.panic

/-- `a - b` on 64-bit words. -/
def subOrPanic (a b : Nat) : Except (Abort ε) Nat := okOr (checkedSub a b) Abort.panic

/-- `xs[start..]`. -/
def sliceOrPanic {α : Type} (xs : List α) (start : Nat) :
    Except (Abort ε) (List α) := do
  rejectIf (start > xs.length) Abort.panic
  pure (xs.drop start)

theorem addOrPanic_of_lt {a b : Nat} (h : a + b < U64_LIMIT) :
    (addOrPanic a b : Except (Abort ε) Nat) = .ok (a + b) := by
  rw [addOrPanic, checkedAdd_eq_some.mpr ⟨h, rfl⟩, okOr_some]

theorem subOrPanic_of_le {a b : Nat} (h : b ≤ a) :
    (subOrPanic a b : Except (Abort ε) Nat) = .ok (a - b) := by
  rw [subOrPanic, checkedSub_eq_some.mpr ⟨h, rfl⟩, okOr_some]

theorem sliceOrPanic_of_le {α : Type} {xs : List α} {start : Nat}
    (h : start ≤ xs.length) :
    (sliceOrPanic xs start : Except (Abort ε) (List α)) =
      .ok (xs.drop start) := by
  rw [sliceOrPanic, rejectIf_of_not (by omega)]
  rfl

end Words

/-- The fields of `BlockAllocator`. -/
structure RawAllocator where
  totalBlocks : Nat
  reservedBlocks : Nat
  allocated : List Bool
  allocatedBlocks : Nat
  deriving DecidableEq

/-- A method that takes `&mut self`. -/
abbrev AllocM (α : Type) := Effect (Abort AllocationError) RawAllocator α

namespace RawAllocator

/-- `BlockAllocator::new`. -/
def new (totalBlocks reservedBlocks : Nat) :
    Except AllocationError RawAllocator := do
  rejectIf (reservedBlocks > totalBlocks)
    (.invalidLayout totalBlocks reservedBlocks)
  pure {
    totalBlocks, reservedBlocks
    allocated := List.replicate totalBlocks false
    allocatedBlocks := 0 }

/-- `BlockAllocator::free_blocks`. -/
def freeBlocks {ε : Type} (a : RawAllocator) : Except (Abort ε) Nat := do
  let dataBlocks ← subOrPanic a.totalBlocks a.reservedBlocks
  subOrPanic dataBlocks a.allocatedBlocks

/-- The part of `allocate_contiguous` in front of its first assignment: the run
that is taken, from its start to its end. -/
def contiguousRange (a : RawAllocator) (blockCount : Nat) :
    Except (Abort AllocationError) (Nat × Nat) := do
  rejectIf (blockCount = 0) (Abort.error (.invalidRunLength blockCount))
  rejectIf (blockCount > a.allocated.length - a.reservedBlocks)
    (Abort.error .exhausted)
  let bits ← sliceOrPanic a.allocated a.reservedBlocks
  let relativeStart ← okOr (findRun blockCount bits) (Abort.error .exhausted)
  let absoluteStart ← addOrPanic a.reservedBlocks relativeStart
  let absoluteEnd ← addOrPanic absoluteStart blockCount
  rejectIf (absoluteEnd > a.allocated.length) Abort.panic
  pure (absoluteStart, absoluteEnd)

/-- `BlockAllocator::allocate_contiguous`. -/
def allocateContiguous (blockCount : Nat) : AllocM Nat := do
  let range ← Effect.query (contiguousRange · blockCount)
  Effect.modify fun a => { a with
    allocated := fillRun a.allocated range.1 (range.2 - range.1) }
  let allocatedBlocks ← Effect.query fun a =>
    addOrPanic a.allocatedBlocks blockCount
  Effect.modify fun a => { a with allocatedBlocks }
  pure range.1

/-- `BlockAllocator::allocate`. -/
def allocate : AllocM Nat := allocateContiguous 1

/-- `ensure_in_range`. -/
def ensureInRange (a : RawAllocator) (block : Nat) :
    Except (Abort AllocationError) Unit :=
  rejectIf (block ≥ a.totalBlocks) (Abort.error (.outOfRange block a.totalBlocks))

/-- `data_index`. -/
def dataIndex (a : RawAllocator) (block : Nat) :
    Except (Abort AllocationError) Nat := do
  a.ensureInRange block
  rejectIf (block < a.reservedBlocks) (Abort.error (.reservedBlock block))
  pure block

/-- The part of `free` in front of its first assignment. -/
def ownedIndex (a : RawAllocator) (block : Nat) :
    Except (Abort AllocationError) Nat := do
  let index ← a.dataIndex block
  let bit ← indexOrPanic a.allocated index
  rejectIf (bit = false) (Abort.error (.alreadyFree block))
  pure index

/-- `BlockAllocator::free`. -/
def free (block : Nat) : AllocM Unit := do
  let index ← Effect.query (ownedIndex · block)
  Effect.modify fun a => { a with allocated := a.allocated.set index false }
  let allocatedBlocks ← Effect.query fun a => subOrPanic a.allocatedBlocks 1
  Effect.modify fun a => { a with allocatedBlocks }

/-- `BlockAllocator::is_owned`. -/
def isOwned (a : RawAllocator) (block : Nat) :
    Except (Abort AllocationError) Bool := do
  a.ensureInRange block
  if block < a.reservedBlocks then pure true
  else indexOrPanic a.allocated block

/-- `BlockAllocator::validate`. -/
def validate (a : RawAllocator) : Except (Abort InvariantError) Unit := do
  let bits ← sliceOrPanic a.allocated a.reservedBlocks
  let observed := bits.count true
  rejectIf (observed ≠ a.allocatedBlocks)
    (Abort.error (.allocatedCountMismatch a.allocatedBlocks observed))
  let used ← okOr (checkedAdd a.reservedBlocks a.allocatedBlocks)
    (Abort.error .accountingOverflow)
  let free ← a.freeBlocks
  let accounted ← okOr (checkedAdd used free) (Abort.error .accountingOverflow)
  rejectIf (accounted ≠ a.totalBlocks) (Abort.error (.accountingMismatch
    a.totalBlocks a.reservedBlocks a.allocatedBlocks free))

end RawAllocator

/-! ## On the fields of a `BlockAllocator` -/

namespace BlockAllocator

variable {a a' : BlockAllocator}

/-- The fields, without the facts about them. -/
def raw (a : BlockAllocator) : RawAllocator :=
  ⟨a.totalBlocks, a.reservedBlocks, a.allocated, a.allocatedBlocks⟩

/-- The result of a function that returns the new allocator, as the result of a
method that assigns to it. -/
def assigned {α : Type} (a : BlockAllocator) :
    Except AllocationError (α × BlockAllocator) →
      Except (Abort AllocationError) α × RawAllocator
  | .ok (r, a') => (.ok r, a'.raw)
  | .error e => (.error (.error e), a.raw)

/-- Nothing in front of the first assignment of `allocate_contiguous` panics. -/
theorem contiguousRange_raw (hlt : a.totalBlocks < U64_LIMIT) (n : Nat) :
    RawAllocator.contiguousRange a.raw n =
      Abort.lift ((a.contiguousRun n).map fun run =>
        (a.reservedBlocks + run.1, a.reservedBlocks + run.1 + n)) := by
  have hlength : a.raw.allocated.length = a.totalBlocks := a.length_eq
  have hreserved : a.raw.reservedBlocks ≤ a.totalBlocks := a.reserved_le
  unfold RawAllocator.contiguousRange contiguousRun
  by_cases hn : n = 0
  · rw [rejectIf_of hn, rejectIf_of hn]
    rfl
  rw [rejectIf_of_not hn, rejectIf_of_not hn, Except.ok_bind, Except.ok_bind]
  by_cases hlong : n > a.allocated.length - a.reservedBlocks
  · have hrawLong : n > a.raw.allocated.length - a.raw.reservedBlocks := hlong
    rw [rejectIf_of hrawLong, rejectIf_of hlong]
    rfl
  have hrawLong : ¬ n > a.raw.allocated.length - a.raw.reservedBlocks := hlong
  rw [rejectIf_of_not hrawLong, rejectIf_of_not hlong, Except.ok_bind,
    Except.ok_bind, sliceOrPanic_of_le (by omega), Except.ok_bind]
  split
  · rename_i hnone
    have hfound : findRun n (a.raw.allocated.drop a.raw.reservedBlocks) =
        none := hnone
    rw [hfound]
    rfl
  · rename_i i hi
    have hfound : findRun n (a.raw.allocated.drop a.raw.reservedBlocks) =
        some i := hi
    obtain ⟨hrun, _⟩ := findRun_eq_some hfound
    rw [List.length_drop] at hrun
    rw [hfound, okOr_some, Except.ok_bind, addOrPanic_of_lt (by omega),
      Except.ok_bind, addOrPanic_of_lt (by omega), Except.ok_bind,
      rejectIf_of_not (by omega)]
    rfl

/-- `allocate_contiguous` assigns what the function of `Allocation` returns.
The counter does not overflow, because the new one counts blocks too. -/
theorem allocateContiguous_raw (hlt : a.totalBlocks < U64_LIMIT) (n : Nat) :
    RawAllocator.allocateContiguous n a.raw =
      a.assigned (a.allocateContiguous n) := by
  rw [RawAllocator.allocateContiguous, Effect.query_bind,
    contiguousRange_raw hlt n, allocateContiguous]
  cases hrun : a.contiguousRun n with
  | error e => rfl
  | ok run =>
    obtain ⟨a', htotal, hcount⟩ : ∃ a' : BlockAllocator,
        a.reservedBlocks + a'.allocatedBlocks ≤ a.totalBlocks ∧
          a'.allocatedBlocks = a.allocatedBlocks + n := by
      have hok : ∃ r, a.allocateContiguous n = .ok r ∧
          r.2.totalBlocks = a.totalBlocks ∧
          r.2.reservedBlocks = a.reservedBlocks ∧
          r.2.allocatedBlocks = a.allocatedBlocks + n := by
        rw [allocateContiguous, hrun, Except.ok_bind]
        exact ⟨_, rfl, rfl, rfl, rfl⟩
      obtain ⟨r, _, htotal, hreserved, hcount⟩ := hok
      have hle := r.2.allocatedBlocks_le
      rw [htotal, hreserved] at hle
      exact ⟨r.2, hle, hcount⟩
    have hadd : (addOrPanic a.allocatedBlocks n :
        Except (Abort AllocationError) Nat) = .ok (a.allocatedBlocks + n) :=
      addOrPanic_of_lt (by omega)
    have hwidth : a.reservedBlocks + run.1 + n - (a.reservedBlocks + run.1) =
        n := by omega
    simp only [Except.map, Abort.lift, Except.mapError, Effect.modify_bind,
      Effect.query_bind, hadd, hwidth, raw]
    rfl

theorem ensureInRange_raw (block : Nat) :
    RawAllocator.ensureInRange a.raw block =
      Abort.lift (a.ensureInRange block) :=
  (Abort.lift_rejectIf (block ≥ a.totalBlocks)
    (AllocationError.outOfRange block a.totalBlocks)).symm

/-- `data_index` panics on no block. -/
theorem dataIndex_raw (block : Nat) :
    RawAllocator.dataIndex a.raw block =
      Abort.lift (a.dataIndex block >>= fun _ => pure block) := by
  rw [RawAllocator.dataIndex, ensureInRange_raw, dataIndex, bind_assoc,
    Abort.lift_bind]
  apply Except.bind_congr_of_ok
  intro _ _
  rw [Abort.lift_bind, Abort.lift_rejectIf]
  rfl

/-- The blocks that `data_index` accepts have a flag. -/
theorem getElem?_of_dataIndex {block : Nat} (h : a.dataIndex block = .ok ()) :
    a.allocated[block]? = some (a.flag block) := by
  have hlength := a.length_eq
  simp only [dataIndex, ensureInRange, Except.bind_eq_ok, rejectIf_eq_ok] at h
  obtain ⟨_, hrange, _⟩ := h
  rw [flag, List.getElem?_eq_getElem (by omega)]
  rfl

/-- `free` assigns what the function of `Allocation` returns. -/
theorem free_raw (block : Nat) :
    RawAllocator.free block a.raw =
      a.assigned ((a.free block).map fun a' => ((), a')) := by
  rw [RawAllocator.free, Effect.query_bind, RawAllocator.ownedIndex,
    dataIndex_raw]
  unfold free
  cases hindex : a.dataIndex block with
  | error e => rfl
  | ok u =>
    have hbit : (indexOrPanic a.raw.allocated block :
        Except (Abort AllocationError) Bool) = .ok (a.flag block) := by
      rw [indexOrPanic, show a.raw.allocated[block]? = _ from
        getElem?_of_dataIndex hindex]
      rfl
    simp only [Except.map, Abort.lift, Except.mapError, Except.ok_bind,
      Except.pure_eq_ok, hbit]
    by_cases hflag : a.flag block = true
    · have hpos : 0 < a.allocatedBlocks := by
        rw [allocatedBlocks_eq]
        apply List.length_pos_of_mem
        rw [List.mem_filter, List.mem_range, decide_eq_true_eq]
        exact ⟨(range_of_flag hflag).2, hflag⟩
      have hsub : (subOrPanic a.allocatedBlocks 1 :
          Except (Abort AllocationError) Nat) = .ok (a.allocatedBlocks - 1) :=
        subOrPanic_of_le hpos
      have hset : ¬ a.flag block = false := by
        rw [hflag]
        decide
      rw [rejectIf_of_not hset, dif_pos hflag]
      simp only [Except.ok_bind, Effect.modify_bind, Effect.query_bind, hsub,
        raw]
      rfl
    · have hclear : a.flag block = false := Bool.eq_false_iff.mpr hflag
      rw [rejectIf_of hclear, dif_neg hflag]
      rfl

theorem isOwned_raw (block : Nat) :
    RawAllocator.isOwned a.raw block = Abort.lift (a.isOwned block) := by
  rw [RawAllocator.isOwned, ensureInRange_raw, isOwned, Abort.lift_bind]
  apply Except.bind_congr_of_ok
  intro _ hrange
  by_cases hreserved : block < a.reservedBlocks
  · have hraw : block < a.raw.reservedBlocks := hreserved
    rw [if_pos hraw, if_pos hreserved]
    rfl
  · have hraw : ¬ block < a.raw.reservedBlocks := hreserved
    have hget : a.raw.allocated[block]? = some (a.flag block) := by
      apply getElem?_of_dataIndex
      rw [dataIndex, Abort.lift_eq_ok.mp hrange, Except.ok_bind,
        rejectIf_of_not hreserved]
    rw [if_neg hraw, if_neg hreserved, indexOrPanic, hget]
    rfl

theorem freeBlocks_raw {ε : Type} :
    (a.raw.freeBlocks : Except (Abort ε) Nat) = .ok a.freeBlocks := by
  have hreserved : a.raw.reservedBlocks ≤ a.raw.totalBlocks := a.reserved_le
  have hcount := a.allocatedBlocks_le
  have hleft : a.raw.allocatedBlocks ≤ a.raw.totalBlocks - a.raw.reservedBlocks :=
    by
      show a.allocatedBlocks ≤ a.totalBlocks - a.reservedBlocks
      omega
  rw [RawAllocator.freeBlocks, subOrPanic_of_le hreserved, Except.ok_bind,
    subOrPanic_of_le hleft]
  rfl

theorem validate_raw (hlt : a.totalBlocks < U64_LIMIT) :
    a.raw.validate = .ok () := by
  have hcount := a.allocatedBlocks_le
  have hlength : a.raw.allocated.length = a.totalBlocks := a.length_eq
  have hreserved : a.raw.reservedBlocks ≤ a.totalBlocks := a.reserved_le
  have hobserved : ¬ (a.raw.allocated.drop a.raw.reservedBlocks).count true ≠
      a.raw.allocatedBlocks := not_ne_iff.mpr a.count_eq.symm
  have hused : checkedAdd a.raw.reservedBlocks a.raw.allocatedBlocks =
      some (a.reservedBlocks + a.allocatedBlocks) :=
    checkedAdd_eq_some.mpr ⟨lt_of_le_of_lt hcount hlt, rfl⟩
  have hsum : a.reservedBlocks + a.allocatedBlocks + a.freeBlocks =
      a.totalBlocks := by
    unfold freeBlocks
    omega
  have haccounted : checkedAdd (a.reservedBlocks + a.allocatedBlocks)
      a.freeBlocks = some a.totalBlocks :=
    checkedAdd_eq_some.mpr ⟨by omega, hsum⟩
  rw [RawAllocator.validate, sliceOrPanic_of_le (by omega), Except.ok_bind]
  simp only
  rw [rejectIf_of_not hobserved, Except.ok_bind, hused, okOr_some,
    Except.ok_bind, freeBlocks_raw, Except.ok_bind, haccounted, okOr_some,
    Except.ok_bind]
  exact rejectIf_of_not (not_ne_iff.mpr rfl)

theorem new_raw (totalBlocks reservedBlocks : Nat) :
    RawAllocator.new totalBlocks reservedBlocks =
      (new totalBlocks reservedBlocks).map raw := by
  unfold RawAllocator.new new
  by_cases hlarge : reservedBlocks > totalBlocks
  · rw [rejectIf_of hlarge, dif_pos hlarge]
    rfl
  · rw [rejectIf_of_not hlarge, dif_neg hlarge]
    rfl

end BlockAllocator

/-! ## Calls -/

/-- A call of a method that changes the allocator. -/
inductive AllocatorCall where
  | allocate
  | allocateContiguous (blockCount : UInt64)
  | free (block : UInt64)
  deriving DecidableEq

namespace AllocatorCall

/-- The call, with the blocks that it grants. -/
def run : AllocatorCall → AllocM (List Nat)
  | .allocate => do
    let start ← RawAllocator.allocate
    pure [start]
  | .allocateContiguous blockCount => do
    let start ← RawAllocator.allocateContiguous blockCount.toNat
    pure (List.range' start blockCount.toNat)
  | .free block => do
    RawAllocator.free block.toNat
    pure []

/-- The call as a function of a `BlockAllocator`. -/
def runPure (a : BlockAllocator) :
    AllocatorCall → Except AllocationError (List Nat × BlockAllocator)
  | .allocate => a.allocate.map fun r => ([r.1], r.2)
  | .allocateContiguous blockCount =>
    (a.allocateContiguous blockCount.toNat).map fun r =>
      (List.range' r.1 blockCount.toNat, r.2)
  | .free block => (a.free block.toNat).map fun a' => ([], a')

variable {a a' : BlockAllocator} {call : AllocatorCall} {granted : List Nat}

/-- A call ends without a panic, and without a trace if it fails. -/
theorem run_raw (hlt : a.totalBlocks < U64_LIMIT) (call : AllocatorCall) :
    call.run a.raw = a.assigned (call.runPure a) := by
  cases call with
  | allocate =>
    have h := BlockAllocator.allocateContiguous_raw hlt 1
    rw [run, RawAllocator.allocate, Effect.bind_apply, h, runPure,
      BlockAllocator.allocate]
    cases a.allocateContiguous 1 <;> rfl
  | allocateContiguous blockCount =>
    have h := BlockAllocator.allocateContiguous_raw hlt blockCount.toNat
    rw [run, Effect.bind_apply, h, runPure]
    cases a.allocateContiguous blockCount.toNat <;> rfl
  | free block =>
    have h := @BlockAllocator.free_raw a block.toNat
    rw [run, Effect.bind_apply, h, runPure]
    cases a.free block.toNat <;> rfl

/-- What a call does that succeeds. -/
theorem runPure_cases (h : call.runPure a = .ok (granted, a')) :
    (∃ first n, granted = List.range' first n ∧
      a.allocateContiguous n = .ok (first, a')) ∨
    ∃ block, call = .free block ∧ granted = [] ∧
      a.free block.toNat = .ok a' := by
  cases call with
  | allocate =>
    obtain ⟨⟨first, mid⟩, hok, heq⟩ := Except.map_eq_ok.mp h
    cases heq
    exact .inl ⟨first, 1, rfl, hok⟩
  | allocateContiguous blockCount =>
    obtain ⟨⟨first, mid⟩, hok, heq⟩ := Except.map_eq_ok.mp h
    cases heq
    exact .inl ⟨first, blockCount.toNat, rfl, hok⟩
  | free block =>
    obtain ⟨mid, hok, heq⟩ := Except.map_eq_ok.mp h
    cases heq
    exact .inr ⟨block, rfl, rfl, hok⟩

/-- No call changes the geometry. -/
theorem runPure_geometry (h : call.runPure a = .ok (granted, a')) :
    a'.totalBlocks = a.totalBlocks ∧ a'.reservedBlocks = a.reservedBlocks := by
  rcases runPure_cases h with ⟨first, n, _, hok⟩ | ⟨block, _, _, hok⟩
  · obtain ⟨htotal, hreserved, _⟩ := BlockAllocator.allocateContiguous_eq_ok hok
    exact ⟨htotal, hreserved⟩
  · obtain ⟨htotal, hreserved, _⟩ := BlockAllocator.free_eq_ok hok
    exact ⟨htotal, hreserved⟩

/-- The blocks that a call grants: free data blocks, which it takes. -/
theorem runPure_granted (h : call.runPure a = .ok (granted, a')) {block : Nat}
    (hmem : block ∈ granted) :
    a.reservedBlocks ≤ block ∧ block < a.totalBlocks ∧
      a.flag block = false ∧ a'.flag block = true := by
  rcases runPure_cases h with ⟨first, n, rfl, hok⟩ | ⟨_, _, rfl, _⟩
  · obtain ⟨_, _, hfirst, hend, hfree, hflag⟩ :=
      BlockAllocator.allocateContiguous_eq_ok hok
    rw [List.mem_range'_1] at hmem
    refine ⟨by omega, by omega, hfree block hmem.1 hmem.2, ?_⟩
    rw [hflag, decide_eq_true hmem, Bool.true_or]
  · cases hmem

/-- Only `free` releases a block. -/
theorem runPure_kept (h : call.runPure a = .ok (granted, a')) {block : Nat}
    (hflag : a.flag block = true)
    (hkeep : ∀ b, call = .free b → b.toNat ≠ block) : a'.flag block = true := by
  rcases runPure_cases h with ⟨first, n, _, hok⟩ | ⟨b, rfl, _, hok⟩
  · obtain ⟨_, _, _, _, _, hflags⟩ := BlockAllocator.allocateContiguous_eq_ok hok
    rw [hflags, hflag, Bool.or_true]
  · obtain ⟨_, _, _, hflags⟩ := BlockAllocator.free_eq_ok hok
    have hne : block ≠ b.toNat := (hkeep b rfl).symm
    rw [hflags, hflag, decide_eq_true hne, Bool.true_and]

end AllocatorCall

/-! ## Runs -/

/-- A call and how it ended. -/
structure AllocatorEvent where
  call : AllocatorCall
  result : Except (Abort AllocationError) (List Nat)

namespace AllocatorEvent

/-- The call was granted a block. -/
def Grants (e : AllocatorEvent) (block : Nat) : Prop :=
  ∃ granted, e.result = .ok granted ∧ block ∈ granted

/-- The call has freed a block. -/
def Frees (e : AllocatorEvent) (block : Nat) : Prop :=
  ∃ b granted, e.call = .free b ∧ b.toNat = block ∧ e.result = .ok granted

end AllocatorEvent

/-- One call after the other. -/
def runCalls : List AllocatorCall → RawAllocator →
    List AllocatorEvent × RawAllocator
  | [], s => ([], s)
  | call :: calls, s =>
    let step := call.run s
    let rest := runCalls calls step.2
    (⟨call, step.1⟩ :: rest.1, rest.2)

section Runs

variable {a : BlockAllocator}

/-- The first call of a run from the fields of an allocator: it fails without a
trace, or the run goes on from the fields of the next one. -/
theorem runCalls_cons (hlt : a.totalBlocks < U64_LIMIT) (call : AllocatorCall)
    (calls : List AllocatorCall) :
    (∃ e, call.runPure a = .error e ∧ runCalls (call :: calls) a.raw =
      (⟨call, .error (.error e)⟩ :: (runCalls calls a.raw).1,
        (runCalls calls a.raw).2)) ∨
    ∃ granted a', call.runPure a = .ok (granted, a') ∧
      runCalls (call :: calls) a.raw =
        (⟨call, .ok granted⟩ :: (runCalls calls a'.raw).1,
          (runCalls calls a'.raw).2) := by
  have hstep := AllocatorCall.run_raw hlt call
  simp only [runCalls, hstep]
  cases hpure : call.runPure a with
  | error e => exact .inl ⟨e, rfl, rfl⟩
  | ok r => exact .inr ⟨r.1, r.2, rfl, rfl⟩

/-- The state after a run is that of an allocator, and no call panics. -/
theorem runCalls_raw (hlt : a.totalBlocks < U64_LIMIT)
    (calls : List AllocatorCall) :
    ∃ a' : BlockAllocator, (runCalls calls a.raw).2 = a'.raw ∧
      a'.totalBlocks = a.totalBlocks ∧ a'.reservedBlocks = a.reservedBlocks ∧
      ∀ e ∈ (runCalls calls a.raw).1, NoPanic e.result := by
  induction calls generalizing a with
  | nil =>
    refine ⟨a, rfl, rfl, rfl, ?_⟩
    intro e he
    cases he
  | cons call calls ih =>
    rcases runCalls_cons hlt call calls with
      ⟨err, _, hrun⟩ | ⟨granted, mid, hpure, hrun⟩
    · obtain ⟨a', hstate, htotal, hreserved, hpanic⟩ := ih hlt
      rw [hrun]
      refine ⟨a', hstate, htotal, hreserved, ?_⟩
      rw [List.forall_mem_cons]
      refine ⟨?_, hpanic⟩
      intro h
      cases h
    · obtain ⟨hmidTotal, hmidReserved⟩ := AllocatorCall.runPure_geometry hpure
      obtain ⟨a', hstate, htotal, hreserved, hpanic⟩ := @ih mid (by omega)
      rw [hrun]
      refine ⟨a', hstate, by omega, by omega, ?_⟩
      rw [List.forall_mem_cons]
      exact ⟨noPanic_ok granted, hpanic⟩

/-- A block that is owned is not granted before it is freed. -/
theorem frees_of_owned (hlt : a.totalBlocks < U64_LIMIT) {block : Nat}
    (hflag : a.flag block = true) {calls : List AllocatorCall}
    {mid post : List AllocatorEvent} {f : AllocatorEvent}
    (hevents : (runCalls calls a.raw).1 = mid ++ f :: post)
    (hgrants : f.Grants block) : ∃ m ∈ mid, m.Frees block := by
  induction calls generalizing a mid with
  | nil => exact absurd hevents.symm (List.append_ne_nil_of_right_ne_nil _ (by simp))
  | cons call calls ih =>
    rcases runCalls_cons hlt call calls with
      ⟨err, _, hrun⟩ | ⟨granted, a', hpure, hrun⟩
    · rw [hrun] at hevents
      cases mid with
      | nil =>
        obtain ⟨rfl, _⟩ := List.cons.inj hevents
        obtain ⟨_, hresult, _⟩ := hgrants
        cases hresult
      | cons m mid =>
        obtain ⟨_, hrest⟩ := List.cons.inj hevents
        obtain ⟨m', hm', hfrees⟩ := ih hlt hflag hrest
        exact ⟨m', List.mem_cons_of_mem _ hm', hfrees⟩
    · obtain ⟨htotal, _⟩ := AllocatorCall.runPure_geometry hpure
      rw [hrun] at hevents
      cases mid with
      | nil =>
        obtain ⟨rfl, _⟩ := List.cons.inj hevents
        obtain ⟨_, hresult, hmem⟩ := hgrants
        cases hresult
        obtain ⟨_, _, hfree, _⟩ := AllocatorCall.runPure_granted hpure hmem
        rw [hflag] at hfree
        cases hfree
      | cons m mid =>
        obtain ⟨rfl, hrest⟩ := List.cons.inj hevents
        by_cases hfreed : ∃ b, call = .free b ∧ b.toNat = block
        · obtain ⟨b, hcall, hb⟩ := hfreed
          exact ⟨_, List.mem_cons_self, b, granted, hcall, hb, rfl⟩
        · have hkept := AllocatorCall.runPure_kept hpure hflag
            fun b hcall hb => hfreed ⟨b, hcall, hb⟩
          obtain ⟨m', hm', hfrees⟩ := @ih a' (by omega) hkept mid hrest
          exact ⟨m', List.mem_cons_of_mem _ hm', hfrees⟩

/-- No block is granted twice without being freed in between. -/
theorem frees_between (hlt : a.totalBlocks < U64_LIMIT) {block : Nat}
    {calls : List AllocatorCall} {pre mid post : List AllocatorEvent}
    {e f : AllocatorEvent}
    (hevents : (runCalls calls a.raw).1 = pre ++ e :: (mid ++ f :: post))
    (hfirst : e.Grants block) (hsecond : f.Grants block) :
    ∃ m ∈ mid, m.Frees block := by
  induction calls generalizing a pre with
  | nil => exact absurd hevents.symm (List.append_ne_nil_of_right_ne_nil _ (by simp))
  | cons call calls ih =>
    rcases runCalls_cons hlt call calls with
      ⟨err, _, hrun⟩ | ⟨granted, a', hpure, hrun⟩
    · rw [hrun] at hevents
      cases pre with
      | nil =>
        obtain ⟨rfl, _⟩ := List.cons.inj hevents
        obtain ⟨_, hresult, _⟩ := hfirst
        cases hresult
      | cons p pre => exact ih hlt (List.cons.inj hevents).2
    · obtain ⟨htotal, _⟩ := AllocatorCall.runPure_geometry hpure
      rw [hrun] at hevents
      cases pre with
      | nil =>
        obtain ⟨rfl, hrest⟩ := List.cons.inj hevents
        obtain ⟨_, hresult, hmem⟩ := hfirst
        cases hresult
        obtain ⟨_, _, _, hflag⟩ := AllocatorCall.runPure_granted hpure hmem
        exact frees_of_owned (by omega) hflag hrest hsecond
      | cons p pre => exact @ih a' (by omega) pre (List.cons.inj hevents).2

end Runs

/-! ## What a run leaves -/

/-- A run of `blockCount` free data blocks. -/
def RawAllocator.FreeRun (s : RawAllocator) (blockCount start : Nat) : Prop :=
  s.reservedBlocks ≤ start ∧ start + blockCount ≤ s.totalBlocks ∧
    ∀ block, start ≤ block → block < start + blockCount →
      s.isOwned block = .ok false

/-- What holds of an allocator of the given geometry after the calls of
`events`. -/
structure AllocatorSound (totalBlocks reservedBlocks : Nat)
    (events : List AllocatorEvent) (s : RawAllocator) : Prop where
  geometry : s.totalBlocks = totalBlocks ∧ s.reservedBlocks = reservedBlocks
  valid : s.validate = .ok ()
  counts : ∃ n, (s.freeBlocks : Except (Abort AllocationError) Nat) = .ok n
  noPanic : ∀ e ∈ events, NoPanic e.result
  unchanged : ∀ (call : AllocatorCall) e s',
    call.run s = (.error e, s') → s' = s
  granted : ∀ (call : AllocatorCall) granted s',
    call.run s = (.ok granted, s') → ∀ block ∈ granted,
      reservedBlocks ≤ block ∧ block < totalBlocks ∧
        s.isOwned block = .ok false
  exclusive : ∀ pre e mid f post block,
    events = pre ++ e :: (mid ++ f :: post) →
      e.Grants block → f.Grants block → ∃ m ∈ mid, m.Frees block
  succeeds : ∀ blockCount : UInt64,
    (∃ start s', RawAllocator.allocateContiguous blockCount.toNat s =
      (.ok start, s')) ↔
        0 < blockCount.toNat ∧ ∃ start, s.FreeRun blockCount.toNat start
  lowest : ∀ (blockCount : UInt64) start s',
    RawAllocator.allocateContiguous blockCount.toNat s = (.ok start, s') →
      IsLeast {first | s.FreeRun blockCount.toNat first} start
  restored : ∀ (blockCount : UInt64) start s' order,
    RawAllocator.allocateContiguous blockCount.toNat s = (.ok start, s') →
      order.Perm (List.range' start blockCount.toNat) →
        Effect.forEach RawAllocator.free order s' = (.ok (), s)

namespace BlockAllocator

variable {a a' : BlockAllocator} {n start : Nat} {s' : RawAllocator}

/-- A successful method was called on an allocator where the function of
`Allocation` succeeds. -/
theorem ok_of_assigned {α : Type} {x : Except AllocationError (α × BlockAllocator)}
    {r : α} (h : a.assigned x = (.ok r, s')) :
    ∃ a', x = .ok (r, a') ∧ s' = a'.raw := by
  cases x with
  | error e => cases h
  | ok r' =>
    cases h
    exact ⟨r'.2, rfl, rfl⟩

theorem isOwned_raw_eq_false {block : Nat} (h : block < a.totalBlocks) :
    a.raw.isOwned block = .ok false ↔
      a.reservedBlocks ≤ block ∧ a.flag block = false := by
  rw [isOwned_raw, Abort.lift_eq_ok]
  by_cases hdata : a.reservedBlocks ≤ block
  · rw [isOwned_of_data hdata h, Except.ok.injEq]
    exact ⟨fun hflag => ⟨hdata, hflag⟩, fun hfacts => hfacts.2⟩
  · rw [isOwned, ensureInRange, rejectIf_of_not (by omega), Except.ok_bind,
      if_pos (by omega)]
    constructor
    · intro hok
      cases hok
    · exact fun hfacts => absurd hfacts.1 hdata

theorem freeRun_raw : a.raw.FreeRun n start ↔
    a.reservedBlocks ≤ start ∧ start + n ≤ a.totalBlocks ∧
      ∀ block, start ≤ block → block < start + n → a.flag block = false := by
  constructor
  · intro h
    obtain ⟨hstart, hend, hfree⟩ := h
    have hstop : start + n ≤ a.totalBlocks := hend
    refine ⟨hstart, hend, ?_⟩
    intro block h1 h2
    exact ((isOwned_raw_eq_false (by omega)).mp (hfree block h1 h2)).2
  · intro h
    obtain ⟨hstart, hend, hfree⟩ := h
    refine ⟨hstart, hend, ?_⟩
    intro block h1 h2
    exact (isOwned_raw_eq_false (by omega)).mpr ⟨by omega, hfree block h1 h2⟩

theorem allocateContiguous_pos {r : Nat × BlockAllocator}
    (h : a.allocateContiguous n = .ok r) : 0 < n := by
  simp only [allocateContiguous, contiguousRun, Except.bind_eq_ok,
    rejectIf_eq_ok] at h
  obtain ⟨_, ⟨_, hne, _⟩, _⟩ := h
  exact Nat.pos_of_ne_zero hne

/-- The blocks of a successful allocation are the lowest free run. -/
theorem isLeast_of_allocateContiguous
    (h : a.allocateContiguous n = .ok (start, a')) :
    IsLeast {first | a.raw.FreeRun n first} start := by
  obtain ⟨_, _, hstart, hend, hfree, _⟩ := allocateContiguous_eq_ok h
  constructor
  · exact freeRun_raw.mpr ⟨hstart, hend, hfree⟩
  · intro other hother
    obtain ⟨hlo, hhi, hclear⟩ := freeRun_raw.mp hother
    obtain ⟨first, b, hok, hle⟩ :=
      exists_allocateContiguous (allocateContiguous_pos h) hlo hhi hclear
    rw [h, Except.ok.injEq, Prod.mk.injEq] at hok
    omega

/-- A loop of `free` assigns what the loop of `Allocation` returns. -/
theorem forEach_free_raw {blocks : List Nat}
    (h : a.freeAll blocks = .ok a') :
    Effect.forEach RawAllocator.free blocks a.raw = (.ok (), a'.raw) := by
  induction blocks generalizing a with
  | nil =>
    cases h
    rfl
  | cons block blocks ih =>
    simp only [freeAll, Except.bind_eq_ok] at h
    obtain ⟨mid, hfree, hrest⟩ := h
    have hstep : RawAllocator.free block a.raw = (.ok (), mid.raw) := by
      rw [free_raw, hfree]
      rfl
    rw [Effect.forEach_cons, Effect.bind_of_ok hstep]
    exact ih hrest

/-- Freeing the blocks of an allocation undoes it. -/
theorem freeAll_of_allocateContiguous {order : List Nat}
    (h : a.allocateContiguous n = .ok (start, a'))
    (hperm : order.Perm (List.range' start n)) :
    a'.freeAll order = .ok a := by
  obtain ⟨htotal, hreserved, _, _, hfree, hflag⟩ := allocateContiguous_eq_ok h
  have hmem : ∀ block, block ∈ order ↔ start ≤ block ∧ block < start + n := by
    intro block
    rw [hperm.mem_iff, List.mem_range'_1]
  have howned : ∀ block ∈ order, a'.flag block = true := by
    intro block hblock
    rw [hflag, decide_eq_true ((hmem block).mp hblock), Bool.true_or]
  obtain ⟨b, hb⟩ := exists_freeAll (hperm.nodup_iff.mpr List.nodup_range') howned
  obtain ⟨hbTotal, hbReserved, _, _, hbFlag⟩ := freeAll_eq_ok hb
  have hsame : b = a := by
    refine ext_flag (by omega) (by omega) ?_
    intro block _ _
    rw [hbFlag, hflag]
    by_cases hin : start ≤ block ∧ block < start + n
    · rw [hfree block hin.1 hin.2, decide_eq_false
        (not_not.mpr ((hmem block).mpr hin)), Bool.false_and]
    · have hout : block ∉ order := fun hblock => hin ((hmem block).mp hblock)
      rw [decide_eq_true hout, decide_eq_false hin, Bool.false_or,
        Bool.true_and]
  rw [hb, hsame]

/-- The fields of an allocator after some events. -/
theorem sound_raw (hlt : a.totalBlocks < U64_LIMIT)
    {events : List AllocatorEvent} (hpanic : ∀ e ∈ events, NoPanic e.result)
    (hexclusive : ∀ pre e mid f post block,
      events = pre ++ e :: (mid ++ f :: post) →
        e.Grants block → f.Grants block → ∃ m ∈ mid, m.Frees block) :
    AllocatorSound a.totalBlocks a.reservedBlocks events a.raw where
  geometry := ⟨rfl, rfl⟩
  valid := validate_raw hlt
  counts := ⟨_, freeBlocks_raw⟩
  noPanic := hpanic
  exclusive := hexclusive
  unchanged := by
    intro call e s' h
    rw [AllocatorCall.run_raw hlt] at h
    cases hpure : call.runPure a with
    | error e' =>
      rw [hpure] at h
      cases h
      rfl
    | ok r =>
      rw [hpure] at h
      cases h
  granted := by
    intro call granted s' h block hmem
    rw [AllocatorCall.run_raw hlt] at h
    obtain ⟨a', hpure, _⟩ := ok_of_assigned h
    obtain ⟨hlo, hhi, hfree, _⟩ := AllocatorCall.runPure_granted hpure hmem
    exact ⟨hlo, hhi, (isOwned_raw_eq_false hhi).mpr ⟨hlo, hfree⟩⟩
  succeeds := by
    intro blockCount
    constructor
    · intro h
      obtain ⟨start, s', h⟩ := h
      rw [allocateContiguous_raw hlt] at h
      obtain ⟨a', hok, _⟩ := ok_of_assigned h
      exact ⟨allocateContiguous_pos hok, start,
        (isLeast_of_allocateContiguous hok).1⟩
    · intro h
      obtain ⟨hpos, start, hrun⟩ := h
      obtain ⟨hlo, hhi, hfree⟩ := freeRun_raw.mp hrun
      obtain ⟨first, a', hok, _⟩ :=
        exists_allocateContiguous hpos hlo hhi hfree
      refine ⟨first, a'.raw, ?_⟩
      rw [allocateContiguous_raw hlt, hok]
      rfl
  lowest := by
    intro blockCount start s' h
    rw [allocateContiguous_raw hlt] at h
    obtain ⟨a', hok, _⟩ := ok_of_assigned h
    exact isLeast_of_allocateContiguous hok
  restored := by
    intro blockCount start s' order h hperm
    rw [allocateContiguous_raw hlt] at h
    obtain ⟨a', hok, rfl⟩ := ok_of_assigned h
    exact forEach_free_raw (freeAll_of_allocateContiguous hok hperm)

end BlockAllocator

/-- After any calls on a new allocator, its accounting is right and nothing has
panicked, and the next call does what its documentation says. -/
theorem allocator_runs (totalBlocks reservedBlocks : UInt64) {s : RawAllocator}
    (hnew : RawAllocator.new totalBlocks.toNat reservedBlocks.toNat = .ok s)
    (calls : List AllocatorCall) :
    AllocatorSound totalBlocks.toNat reservedBlocks.toNat (runCalls calls s).1
      (runCalls calls s).2 := by
  rw [BlockAllocator.new_raw] at hnew
  obtain ⟨a, hok, rfl⟩ := Except.map_eq_ok.mp hnew
  have hle : reservedBlocks.toNat ≤ totalBlocks.toNat := by
    by_contra hlarge
    rw [BlockAllocator.new, dif_pos (by omega)] at hok
    cases hok
  obtain ⟨b, hb, htotal, hreserved, _⟩ := BlockAllocator.new_eq_ok hle
  rw [hok, Except.ok.injEq] at hb
  subst hb
  have hlt : a.totalBlocks < U64_LIMIT := by
    rw [htotal]
    exact totalBlocks.toNat_lt
  obtain ⟨a', hstate, htotal', hreserved', hpanic⟩ := runCalls_raw hlt calls
  rw [hstate, ← htotal, ← hreserved, ← htotal', ← hreserved']
  refine BlockAllocator.sound_raw (by omega) hpanic ?_
  intro pre e mid f post block hevents hfirst hsecond
  exact frees_between hlt hevents hfirst hsecond

/-- Two blocks are taken, one of them is freed, and a longer run is not found. -/
theorem allocator_runs_sample :
    ∃ s, RawAllocator.new (5 : UInt64).toNat (2 : UInt64).toNat = .ok s ∧
      (runCalls [.allocateContiguous 2, .free 2, .allocateContiguous 2] s).2 =
        ⟨5, 2, [false, false, false, true, false], 1⟩ ∧
      AllocatorSound (5 : UInt64).toNat (2 : UInt64).toNat
        (runCalls [.allocateContiguous 2, .free 2, .allocateContiguous 2] s).1
        (runCalls [.allocateContiguous 2, .free 2, .allocateContiguous 2]
          s).2 := by
  refine ⟨⟨5, 2, List.replicate 5 false, 0⟩, rfl, by decide, ?_⟩
  exact allocator_runs 5 2 rfl _

end FilesystemLab
