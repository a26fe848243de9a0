import FilesystemLab.Format

/-!
# The block allocator

`src/allocation.rs`: a first-fit allocator over one ownership flag per block.
The fields of the Rust type are private and its operations keep a few facts
about them; `BlockAllocator` carries these facts, so an allocator whose counter
disagrees with its flags cannot be built.
-/

namespace FilesystemLab

/-- `AllocationError`. -/
inductive AllocationError where
  | invalidLayout (totalBlocks reservedBlocks : Nat)
  | outOfRange (block totalBlocks : Nat)
  | reservedBlock (block : Nat)
  | alreadyFree (block : Nat)
  | invalidRunLength (length : Nat)
  | exhausted
  deriving DecidableEq, Repr

/-- The `Display` text of an allocation error. -/
def AllocationError.message : AllocationError → String
  | .invalidLayout total reserved =>
    s!"invalid allocation layout: {reserved} reserved blocks exceed {total} total blocks"
  | .outOfRange block total =>
    s!"block {block} is outside allocator range 0..{total}"
  | .reservedBlock block => s!"block {block} is reserved metadata"
  | .alreadyFree block => s!"block {block} is already free"
  | .invalidRunLength length =>
    s!"allocation run length must be non-zero, got {length}"
  | .exhausted => "no free data blocks remain"

/-- `BlockAllocator`. -/
structure BlockAllocator where
  totalBlocks : Nat
  reservedBlocks : Nat
  allocated : List Bool
  allocatedBlocks : Nat
  reserved_le : reservedBlocks ≤ totalBlocks
  length_eq : allocated.length = totalBlocks
  reserved_clear : ∀ block, block < reservedBlocks →
    allocated[block]? = some false
  count_eq : allocatedBlocks = (allocated.drop reservedBlocks).count true
  deriving DecidableEq

namespace BlockAllocator

/-- Two allocators with the same flags over the same layout are equal: the
counter is the number of flags. -/
theorem ext_allocated {a b : BlockAllocator}
    (htotal : a.totalBlocks = b.totalBlocks)
    (hreserved : a.reservedBlocks = b.reservedBlocks)
    (hflags : a.allocated = b.allocated) : a = b := by
  have ha := a.count_eq
  have hb := b.count_eq
  cases a
  cases b
  simp only at htotal hreserved hflags ha hb
  subst htotal hreserved hflags
  simp only [mk.injEq, true_and]
  rw [ha, hb]

/-- The allocator with these flags, the first of which are reserved. -/
def ofFlags (reservedBlocks : Nat) (allocated : List Bool)
    (h : reservedBlocks ≤ allocated.length ∧ ∀ block,
      block < reservedBlocks → allocated[block]? = some false) :
    BlockAllocator where
  totalBlocks := allocated.length
  reservedBlocks
  allocated
  allocatedBlocks := (allocated.drop reservedBlocks).count true
  reserved_le := h.1
  length_eq := rfl
  reserved_clear := h.2
  count_eq := rfl

@[simp] theorem ofFlags_allocated {reserved : Nat} {flags : List Bool}
    (h : reserved ≤ flags.length ∧ ∀ block, block < reserved →
      flags[block]? = some false) : (ofFlags reserved flags h).allocated = flags :=
  rfl

/-- `BlockAllocator::new`. -/
def new (totalBlocks reservedBlocks : Nat) :
    Except AllocationError BlockAllocator :=
  if h : reservedBlocks > totalBlocks then
    .error (.invalidLayout totalBlocks reservedBlocks)
  else
    .ok {
      totalBlocks, reservedBlocks
      allocated := List.replicate totalBlocks false
      allocatedBlocks := 0
      reserved_le := Nat.le_of_not_lt h
      length_eq := List.length_replicate
      reserved_clear := by
        intro block hblock
        rw [List.getElem?_replicate, if_pos (by omega)]
      count_eq := by
        rw [List.drop_replicate, List.count_replicate]
        rfl }

/-- `BlockAllocator::free_blocks`. -/
def freeBlocks (a : BlockAllocator) : Nat :=
  a.totalBlocks - a.reservedBlocks - a.allocatedBlocks

/-- `bits.windows(n).position(|run| run.iter().all(|allocated| !allocated))`. -/
def findRun (n : Nat) : List Bool → Option Nat
  | [] => none
  | bit :: bits =>
    if n ≤ (bit :: bits).length ∧ ((bit :: bits).take n).all (!·) = true then
      some 0
    else
      (findRun n bits).map (· + 1)

/-- A run that is found lies inside the flags and is free. -/
theorem findRun_eq_some {n : Nat} {bits : List Bool} {i : Nat}
    (h : findRun n bits = some i) :
    i + n ≤ bits.length ∧
      (bits.drop i).take n = List.replicate n false := by
  induction bits generalizing i with
  | nil => simp [findRun] at h
  | cons bit bits ih =>
    unfold findRun at h
    split at h
    · rename_i hrun
      cases h
      refine ⟨by omega, ?_⟩
      rw [List.drop_zero]
      apply List.eq_replicate_iff.mpr
      constructor
      · rw [List.length_take]
        omega
      · intro b hb
        simpa using List.all_eq_true.mp hrun.2 b hb
    · simp only [Option.map_eq_some_iff] at h
      obtain ⟨j, hj, rfl⟩ := h
      obtain ⟨hlen, hfree⟩ := ih hj
      refine ⟨by rw [List.length_cons]; omega, ?_⟩
      rw [List.drop_succ_cons]
      exact hfree

/-- `bits[i..i + n].fill(true)`. -/
def fillRun (bits : List Bool) (i n : Nat) : List Bool :=
  bits.take i ++ List.replicate n true ++ bits.drop (i + n)

theorem length_fillRun {bits : List Bool} {i n : Nat}
    (h : i + n ≤ bits.length) : (fillRun bits i n).length = bits.length := by
  unfold fillRun
  simp only [List.length_append, List.length_take, List.length_replicate,
    List.length_drop]
  omega

/-- Filling a free run of the data area adds its length to the count. -/
theorem count_fillRun {bits : List Bool} {start i n : Nat}
    (hlen : start + i + n ≤ bits.length)
    (hfree : ((bits.drop start).drop i).take n = List.replicate n false) :
    ((fillRun bits (start + i) n).drop start).count true =
      (bits.drop start).count true + n := by
  have hsplit : bits.drop start = (bits.drop start).take i ++
      List.replicate n false ++ bits.drop (start + i + n) := by
    have h2 := List.take_append_drop n ((bits.drop start).drop i)
    rw [hfree, List.drop_drop, List.drop_drop] at h2
    rw [show start + (i + n) = start + i + n by omega] at h2
    rw [List.append_assoc, h2, List.take_append_drop]
  have hfill : (fillRun bits (start + i) n).drop start =
      (bits.drop start).take i ++ List.replicate n true ++
        bits.drop (start + i + n) := by
    unfold fillRun
    rw [List.append_assoc, List.drop_append_of_le_length
      (by rw [List.length_take]; omega), List.append_assoc]
    rw [List.drop_take, show start + i - start = i by omega]
  rw [hfill]
  conv => rhs; rw [hsplit]
  simp only [List.count_append, List.count_replicate]
  simp
  omega

/-- The part of `allocate_contiguous` that finds the run. -/
def contiguousRun (a : BlockAllocator) (blockCount : Nat) :
    Except AllocationError { i // findRun blockCount
      (a.allocated.drop a.reservedBlocks) = some i } := do
  rejectIf (blockCount = 0) (.invalidRunLength blockCount)
  rejectIf (blockCount > a.allocated.length - a.reservedBlocks) .exhausted
  match h : findRun blockCount (a.allocated.drop a.reservedBlocks) with
  | none => .error .exhausted
  | some i => pure ⟨i, h⟩

/-- `BlockAllocator::allocate_contiguous`. -/
def allocateContiguous (a : BlockAllocator) (blockCount : Nat) :
    Except AllocationError (Nat × BlockAllocator) := do
  let run ← a.contiguousRun blockCount
  let first := a.reservedBlocks + run.1
  have hrun : a.reservedBlocks + run.1 + blockCount ≤ a.allocated.length := by
    have hlen := (findRun_eq_some run.2).1
    have hreserved := a.reserved_le
    have htotal := a.length_eq
    rw [List.length_drop] at hlen
    omega
  pure (first, {
    a with
    allocated := fillRun a.allocated first blockCount
    allocatedBlocks := a.allocatedBlocks + blockCount
    length_eq := by rw [length_fillRun hrun, a.length_eq]
    reserved_clear := by
      intro block hblock
      have hreserved := a.reserved_le
      have htotal := a.length_eq
      unfold fillRun
      rw [List.append_assoc, List.getElem?_append_left
        (by rw [List.length_take]; omega), List.getElem?_take_of_lt (by omega)]
      exact a.reserved_clear block hblock
    count_eq := by
      rw [count_fillRun hrun (findRun_eq_some run.2).2, ← a.count_eq] })

/-- `BlockAllocator::allocate`. -/
def allocate (a : BlockAllocator) :
    Except AllocationError (Nat × BlockAllocator) :=
  a.allocateContiguous 1

/-- `ensure_in_range`. -/
def ensureInRange (a : BlockAllocator) (block : Nat) :
    Except AllocationError Unit :=
  rejectIf (block ≥ a.totalBlocks) (.outOfRange block a.totalBlocks)

/-- `data_index`. -/
def dataIndex (a : BlockAllocator) (block : Nat) :
    Except AllocationError Unit := do
  a.ensureInRange block
  rejectIf (block < a.reservedBlocks) (.reservedBlock block)

/-- The ownership flag of a block. -/
def flag (a : BlockAllocator) (block : Nat) : Bool :=
  a.allocated[block]?.getD false

/-- `BlockAllocator::is_owned`. -/
def isOwned (a : BlockAllocator) (block : Nat) :
    Except AllocationError Bool := do
  a.ensureInRange block
  if block < a.reservedBlocks then pure true
  else pure (a.flag block)

theorem flag_eq_false_of_reserved {a : BlockAllocator} {block : Nat}
    (h : block < a.reservedBlocks) : a.flag block = false := by
  unfold flag
  rw [a.reserved_clear block h]
  rfl

theorem flag_eq_false_of_le {a : BlockAllocator} {block : Nat}
    (h : a.totalBlocks ≤ block) : a.flag block = false := by
  unfold flag
  rw [List.getElem?_eq_none (by rw [a.length_eq]; omega)]
  rfl

theorem range_of_flag {a : BlockAllocator} {block : Nat}
    (h : a.flag block = true) :
    a.reservedBlocks ≤ block ∧ block < a.totalBlocks := by
  constructor
  · by_contra hlt
    rw [flag_eq_false_of_reserved (by omega)] at h
    simp at h
  · by_contra hge
    rw [flag_eq_false_of_le (by omega)] at h
    simp at h

theorem isOwned_of_data {a : BlockAllocator} {block : Nat}
    (h1 : a.reservedBlocks ≤ block) (h2 : block < a.totalBlocks) :
    a.isOwned block = .ok (a.flag block) := by
  unfold isOwned ensureInRange
  rw [rejectIf_of_not (by omega), Except.ok_bind, if_neg (by omega)]
  rfl

/-- An allocator is its layout and its flags. -/
theorem ext_flag {a b : BlockAllocator} (htotal : a.totalBlocks = b.totalBlocks)
    (hreserved : a.reservedBlocks = b.reservedBlocks)
    (h : ∀ block, a.reservedBlocks ≤ block → block < a.totalBlocks →
      a.flag block = b.flag block) : a = b := by
  apply ext_allocated htotal hreserved
  apply List.ext_getElem (by rw [a.length_eq, b.length_eq, htotal])
  intro i hi hi'
  have hflag : a.flag i = b.flag i := by
    by_cases hdata : a.reservedBlocks ≤ i
    · exact h i hdata (by rw [← a.length_eq]; exact hi)
    · rw [flag_eq_false_of_reserved (by omega),
        flag_eq_false_of_reserved (by omega)]
  unfold flag at hflag
  rw [List.getElem?_eq_getElem hi, List.getElem?_eq_getElem hi'] at hflag
  exact hflag

theorem count_set_false {bits : List Bool} {i : Nat}
    (h : bits[i]? = some true) :
    (bits.set i false).count true + 1 = bits.count true := by
  induction bits generalizing i with
  | nil => simp at h
  | cons bit bits ih =>
    cases i with
    | zero =>
      simp only [List.getElem?_cons_zero, Option.some.injEq] at h
      subst h
      simp
    | succ i =>
      simp only [List.getElem?_cons_succ] at h
      simp only [List.set_cons_succ, List.count_cons]
      have := ih h
      omega

/-- `BlockAllocator::free`. -/
def free (a : BlockAllocator) (block : Nat) :
    Except AllocationError BlockAllocator := do
  a.dataIndex block
  if h : a.flag block = true then
    have hrange : a.reservedBlocks ≤ block ∧ block < a.totalBlocks :=
      range_of_flag h
    pure {
      a with
      allocated := a.allocated.set block false
      allocatedBlocks := a.allocatedBlocks - 1
      length_eq := by rw [List.length_set, a.length_eq]
      reserved_clear := by
        intro other hother
        rw [List.getElem?_set_ne (by omega)]
        exact a.reserved_clear other hother
      count_eq := by
        have hbit : (a.allocated.drop a.reservedBlocks)[block -
            a.reservedBlocks]? = some true := by
          rw [List.getElem?_drop,
            show a.reservedBlocks + (block - a.reservedBlocks) = block by omega]
          unfold flag at h
          cases hget : a.allocated[block]? with
          | none => simp [hget] at h
          | some bit => simpa [hget] using h
        have hcount := count_set_false hbit
        rw [List.drop_set, if_neg (by omega), a.count_eq]
        omega }
  else
    .error (.alreadyFree block)

/-- `AllocationInvariantError`. -/
inductive InvariantError where
  | allocatedCountMismatch (recorded observed : Nat)
  | accountingOverflow
  | accountingMismatch (total reserved allocated free : Nat)
  deriving DecidableEq, Repr

/-- The `Display` text of an invariant error. -/
def InvariantError.message : InvariantError → String
  | .allocatedCountMismatch recorded observed =>
    s!"allocated-block count mismatch: recorded {recorded}, observed {observed}"
  | .accountingOverflow => "allocation accounting overflow"
  | .accountingMismatch total reserved allocated free =>
    s!"allocation accounting mismatch: total={total}, reserved={reserved}, " ++
      s!"allocated={allocated}, free={free}"

/-- `BlockAllocator::validate`. -/
def validate (a : BlockAllocator) : Except InvariantError Unit := do
  let observed := (a.allocated.drop a.reservedBlocks).count true
  rejectIf (observed ≠ a.allocatedBlocks)
    (.allocatedCountMismatch a.allocatedBlocks observed)
  let accounted ← okOr ((checkedAdd a.reservedBlocks a.allocatedBlocks).bind
    (checkedAdd · a.freeBlocks)) .accountingOverflow
  rejectIf (accounted ≠ a.totalBlocks)
    (.accountingMismatch a.totalBlocks a.reservedBlocks a.allocatedBlocks
      a.freeBlocks)

theorem allocatedBlocks_le (a : BlockAllocator) :
    a.reservedBlocks + a.allocatedBlocks ≤ a.totalBlocks := by
  have hreserved := a.reserved_le
  have hlen := a.length_eq
  have hcount := List.count_le_length (a := true)
    (l := a.allocated.drop a.reservedBlocks)
  rw [List.length_drop, ← a.count_eq] at hcount
  omega

/-- The facts that an allocator carries are what `validate` checks. -/
theorem validate_eq_ok {a : BlockAllocator} (h : a.totalBlocks < U64_LIMIT) :
    a.validate = .ok () := by
  have hle := a.allocatedBlocks_le
  have hfree : a.reservedBlocks + a.allocatedBlocks + a.freeBlocks =
      a.totalBlocks := by
    unfold freeBlocks
    omega
  have hadd : (checkedAdd a.reservedBlocks a.allocatedBlocks).bind
      (checkedAdd · a.freeBlocks) = some a.totalBlocks := by
    simp only [Option.bind_eq_some_iff, checkedAdd_eq_some]
    exact ⟨_, ⟨by omega, rfl⟩, by omega, hfree⟩
  simp only [validate]
  rw [rejectIf_of_not (by rw [a.count_eq]; simp), Except.ok_bind, hadd,
    okOr_some, Except.ok_bind, rejectIf_of_not (by simp)]

/-- The counter counts the flags that are set. -/
theorem allocatedBlocks_eq (a : BlockAllocator) :
    a.allocatedBlocks =
      ((List.range a.totalBlocks).filter fun b => a.flag b = true).length := by
  have hflags : ∀ bits : List Bool, ((List.range bits.length).filter fun b =>
      bits[b]?.getD false = true).length = bits.count true := by
    intro bits
    induction bits with
    | nil => rfl
    | cons bit bits ih =>
      rw [List.length_cons, List.range_succ_eq_map, List.filter_cons,
        List.filter_map, List.count_cons, ← ih]
      cases bit <;> simp [Function.comp_def]
  have hreserved : (a.allocated.take a.reservedBlocks).count true = 0 := by
    rw [List.count_eq_zero]
    intro hmem
    obtain ⟨i, hi⟩ := List.mem_iff_getElem?.mp hmem
    have hlt : i < a.reservedBlocks := by
      by_contra hge
      rw [List.getElem?_take_eq_none (by omega)] at hi
      cases hi
    rw [List.getElem?_take_of_lt hlt, a.reserved_clear i hlt] at hi
    cases hi
  rw [a.count_eq, ← a.length_eq]
  show _ = ((List.range a.allocated.length).filter fun b =>
    a.allocated[b]?.getD false = true).length
  rw [hflags, ← List.take_append_drop a.reservedBlocks a.allocated,
    List.count_append, hreserved]
  simp

/-! ## What the operations do to the flags -/

/-- `new` gives an allocator without owned data blocks. -/
theorem new_eq_ok {total reserved : Nat} (h : reserved ≤ total) :
    ∃ a, new total reserved = .ok a ∧ a.totalBlocks = total ∧
      a.reservedBlocks = reserved ∧
      a.allocated = List.replicate total false := by
  unfold new
  rw [dif_neg (by omega)]
  exact ⟨_, rfl, rfl, rfl, rfl⟩

theorem flag_fillRun {bits : List Bool} {i n : Nat}
    (h : i + n ≤ bits.length) (block : Nat) :
    (fillRun bits i n)[block]?.getD false =
      (decide (i ≤ block ∧ block < i + n) || bits[block]?.getD false) := by
  unfold fillRun
  by_cases h1 : block < i
  · rw [List.append_assoc, List.getElem?_append_left
      (by rw [List.length_take]; omega), List.getElem?_take_of_lt h1]
    simp [show ¬ i ≤ block by omega]
  · rw [List.append_assoc, List.getElem?_append_right
      (by rw [List.length_take]; omega), List.length_take,
      Nat.min_eq_left (by omega)]
    by_cases h2 : block < i + n
    · rw [List.getElem?_append_left (by rw [List.length_replicate]; omega),
        List.getElem?_replicate, if_pos (by omega)]
      simp [h2, show i ≤ block by omega]
    · rw [List.getElem?_append_right (by rw [List.length_replicate]; omega),
        List.length_replicate, List.getElem?_drop,
        show i + n + (block - i - n) = block by omega]
      simp [h2]

/-- A successful allocation takes a free run of data blocks. -/
theorem allocateContiguous_eq_ok {a a' : BlockAllocator} {n first : Nat}
    (h : a.allocateContiguous n = .ok (first, a')) :
    a'.totalBlocks = a.totalBlocks ∧ a'.reservedBlocks = a.reservedBlocks ∧
      a.reservedBlocks ≤ first ∧ first + n ≤ a.totalBlocks ∧
      (∀ block, first ≤ block → block < first + n → a.flag block = false) ∧
      ∀ block, a'.flag block =
        (decide (first ≤ block ∧ block < first + n) || a.flag block) := by
  simp only [allocateContiguous, Except.bind_eq_ok, Except.pure_eq_ok,
    Except.ok.injEq, Prod.mk.injEq] at h
  obtain ⟨run, _, rfl, rfl⟩ := h
  obtain ⟨hlen, hfree⟩ := findRun_eq_some run.2
  have hreserved := a.reserved_le
  have htotal := a.length_eq
  rw [List.length_drop] at hlen
  refine ⟨rfl, rfl, by omega, by omega, ?_, ?_⟩
  · intro block h1 h2
    unfold flag
    have hget : a.allocated[block]? =
        (((a.allocated.drop a.reservedBlocks).drop run.1).take n)[block -
          (a.reservedBlocks + run.1)]? := by
      rw [List.getElem?_take_of_lt (by omega), List.getElem?_drop,
        List.getElem?_drop]
      congr 1
      omega
    rw [hget, hfree, List.getElem?_replicate, if_pos (by omega)]
    rfl
  · intro block
    exact flag_fillRun (by omega) block

/-- A successful free clears one flag of the data area. -/
theorem free_eq_ok {a a' : BlockAllocator} {block : Nat}
    (h : a.free block = .ok a') :
    a'.totalBlocks = a.totalBlocks ∧ a'.reservedBlocks = a.reservedBlocks ∧
      a.flag block = true ∧
      ∀ other, a'.flag other = (decide (other ≠ block) && a.flag other) := by
  simp only [free, Except.bind_eq_ok] at h
  obtain ⟨_, _, h⟩ := h
  split at h
  · rename_i hflag
    simp only [Except.pure_eq_ok, Except.ok.injEq] at h
    subst h
    refine ⟨rfl, rfl, hflag, ?_⟩
    intro other
    unfold flag
    by_cases heq : other = block
    · subst heq
      have hrange := range_of_flag hflag
      rw [List.getElem?_set_self (by rw [a.length_eq]; omega)]
      simp
    · rw [List.getElem?_set_ne (fun h => heq h.symm)]
      simp [heq]
  · simp at h

/-- A data block with its flag set can be freed. -/
theorem free_of_flag {a : BlockAllocator} {block : Nat}
    (h : a.flag block = true) : ∃ a', a.free block = .ok a' := by
  have hrange := range_of_flag h
  unfold free dataIndex ensureInRange
  rw [rejectIf_of_not (by omega), Except.ok_bind, rejectIf_of_not (by omega),
    Except.ok_bind, dif_pos h]
  exact ⟨_, rfl⟩

/-- A single free block is found if there is one. -/
theorem findRun_one {bits : List Bool} (h : false ∈ bits) :
    ∃ i, findRun 1 bits = some i := by
  induction bits with
  | nil => simp at h
  | cons bit bits ih =>
    unfold findRun
    cases bit with
    | false => exact ⟨0, by simp⟩
    | true =>
      obtain ⟨i, hi⟩ := ih (by simpa using h)
      exact ⟨i + 1, by simp [hi]⟩

/-- `allocate` takes one more block while there is one. -/
theorem allocate_of_free {a : BlockAllocator}
    (h : a.reservedBlocks + a.allocatedBlocks < a.totalBlocks) :
    ∃ first a', a.allocate = .ok (first, a') ∧
      a'.totalBlocks = a.totalBlocks ∧ a'.reservedBlocks = a.reservedBlocks ∧
      a'.allocatedBlocks = a.allocatedBlocks + 1 := by
  have hlen : (a.allocated.drop a.reservedBlocks).length =
      a.totalBlocks - a.reservedBlocks := by
    rw [List.length_drop, a.length_eq]
  have hfree : false ∈ a.allocated.drop a.reservedBlocks := by
    by_contra hno
    have hall : ∀ b ∈ a.allocated.drop a.reservedBlocks, true = b := by
      intro b hb
      cases b with
      | false => exact absurd hb hno
      | true => rfl
    have hcount := List.count_eq_length.mpr hall
    rw [← a.count_eq, hlen] at hcount
    omega
  obtain ⟨i, hi⟩ := findRun_one hfree
  have hrun : ∃ run, a.contiguousRun 1 = .ok run := by
    unfold contiguousRun
    rw [rejectIf_of_not (by decide), Except.ok_bind,
      rejectIf_of_not (by rw [a.length_eq]; omega), Except.ok_bind]
    split
    · rename_i hnone
      rw [hi] at hnone
      cases hnone
    · exact ⟨_, rfl⟩
  obtain ⟨run, hrun⟩ := hrun
  unfold allocate allocateContiguous
  rw [hrun, Except.ok_bind]
  exact ⟨_, _, rfl, rfl, rfl, rfl⟩

/-- A free window is found, or one before it. -/
theorem exists_findRun {n : Nat} {bits : List Bool} {j : Nat} (hn : 0 < n)
    (hlen : j + n ≤ bits.length)
    (hfree : ((bits.drop j).take n).all (!·) = true) :
    ∃ i, findRun n bits = some i ∧ i ≤ j := by
  induction bits generalizing j with
  | nil =>
    rw [List.length_nil] at hlen
    omega
  | cons bit bits ih =>
    rw [findRun]
    split
    · exact ⟨0, rfl, Nat.zero_le j⟩
    · rename_i hnot
      cases j with
      | zero =>
        rw [Nat.zero_add] at hlen
        rw [List.drop_zero] at hfree
        exact absurd ⟨hlen, hfree⟩ hnot
      | succ j =>
        rw [List.length_cons] at hlen
        rw [List.drop_succ_cons] at hfree
        obtain ⟨i, hi, hle⟩ := ih (by omega) hfree
        rw [hi]
        exact ⟨i + 1, rfl, by omega⟩

/-- An allocation succeeds if there is a window, and takes none behind it. -/
theorem exists_allocateContiguous {a : BlockAllocator} {n s : Nat}
    (hn : 0 < n) (hs : a.reservedBlocks ≤ s)
    (hstop : s + n ≤ a.totalBlocks)
    (hfree : ∀ b, s ≤ b → b < s + n → a.flag b = false) :
    ∃ first a', a.allocateContiguous n = .ok (first, a') ∧ first ≤ s := by
  have hlength := a.length_eq
  have hwindow : (((a.allocated.drop a.reservedBlocks).drop
      (s - a.reservedBlocks)).take n).all (!·) = true := by
    rw [List.drop_drop, Nat.add_sub_cancel' hs, List.all_eq_true]
    intro bit hbit
    obtain ⟨i, hi, rfl⟩ := List.mem_iff_getElem.mp hbit
    rw [List.length_take, List.length_drop] at hi
    have hclear := hfree (s + i) (by omega) (by omega)
    rw [flag, List.getElem?_eq_getElem (by omega), Option.getD_some] at hclear
    rw [List.getElem_take, List.getElem_drop, hclear]
    rfl
  obtain ⟨i, hi, hle⟩ := exists_findRun hn (by
    rw [List.length_drop]
    omega) hwindow
  obtain ⟨run, hrun, hfirst⟩ : ∃ run, a.contiguousRun n = .ok run ∧
      run.1 = i := by
    unfold contiguousRun
    rw [rejectIf_of_not (by omega), Except.ok_bind, rejectIf_of_not (by omega),
      Except.ok_bind]
    split
    · rename_i hnone
      rw [hi] at hnone
      cases hnone
    · rename_i other hother
      rw [hi, Option.some.injEq] at hother
      exact ⟨_, rfl, hother.symm⟩
  rw [allocateContiguous, hrun, Except.ok_bind]
  refine ⟨a.reservedBlocks + run.1, _, rfl, ?_⟩
  omega

/-- An allocator with no free block has every data flag set. -/
theorem flag_of_full {a : BlockAllocator}
    (h : a.reservedBlocks + a.allocatedBlocks = a.totalBlocks) {block : Nat}
    (h1 : a.reservedBlocks ≤ block) (h2 : block < a.totalBlocks) :
    a.flag block = true := by
  have hlen : (a.allocated.drop a.reservedBlocks).length =
      a.totalBlocks - a.reservedBlocks := by
    rw [List.length_drop, a.length_eq]
  have hcount : (a.allocated.drop a.reservedBlocks).count true =
      (a.allocated.drop a.reservedBlocks).length := by
    rw [← a.count_eq, hlen]
    omega
  have hget : block < a.allocated.length := by
    rw [a.length_eq]
    exact h2
  have hmem : a.allocated[block] ∈ a.allocated.drop a.reservedBlocks := by
    rw [List.mem_iff_getElem]
    refine ⟨block - a.reservedBlocks, by rw [hlen]; omega, ?_⟩
    rw [List.getElem_drop]
    congr 1
    omega
  unfold flag
  rw [List.getElem?_eq_getElem hget]
  exact (List.count_eq_length.mp hcount _ hmem).symm

/-! ## Freeing a list of blocks -/

/-- A loop of `free` over some blocks. -/
def freeAll (a : BlockAllocator) :
    List Nat → Except AllocationError BlockAllocator
  | [] => pure a
  | block :: blocks => do
    let a ← a.free block
    freeAll a blocks

/-- A loop that succeeds has freed distinct owned blocks, and no others. -/
theorem freeAll_eq_ok {a a' : BlockAllocator} {blocks : List Nat}
    (h : a.freeAll blocks = .ok a') :
    a'.totalBlocks = a.totalBlocks ∧ a'.reservedBlocks = a.reservedBlocks ∧
      blocks.Nodup ∧ (∀ b ∈ blocks, a.flag b = true) ∧
      ∀ b, a'.flag b = (decide (b ∉ blocks) && a.flag b) := by
  induction blocks generalizing a with
  | nil =>
    simp only [freeAll, Except.pure_eq_ok, Except.ok.injEq] at h
    subst h
    exact ⟨rfl, rfl, List.nodup_nil, by simp, fun b => by simp⟩
  | cons c cs ih =>
    simp only [freeAll, Except.bind_eq_ok] at h
    obtain ⟨mid, hfree, h⟩ := h
    obtain ⟨htotal, hreserved, hc, hmid⟩ := free_eq_ok hfree
    obtain ⟨htotal', hreserved', hnodup, hset, hflag⟩ := ih h
    refine ⟨by omega, by omega, ?_, ?_, ?_⟩
    · rw [List.nodup_cons]
      refine ⟨?_, hnodup⟩
      intro hmem
      have := hset c hmem
      simp [hmid] at this
    · rw [List.forall_mem_cons]
      refine ⟨hc, ?_⟩
      intro b hb
      have := hset b hb
      rw [hmid, Bool.and_eq_true] at this
      exact this.2
    · intro b
      rw [hflag, hmid]
      by_cases hb : b = c
      · simp [hb]
      · simp [hb]

/-- Distinct owned blocks can be freed. -/
theorem exists_freeAll {a : BlockAllocator} {blocks : List Nat}
    (hnodup : blocks.Nodup) (hset : ∀ b ∈ blocks, a.flag b = true) :
    ∃ a', a.freeAll blocks = .ok a' := by
  induction blocks generalizing a with
  | nil => exact ⟨a, rfl⟩
  | cons c cs ih =>
    rw [List.nodup_cons] at hnodup
    obtain ⟨mid, hfree⟩ := free_of_flag (hset c List.mem_cons_self)
    obtain ⟨_, _, _, hmid⟩ := free_eq_ok hfree
    have hrest : ∀ b ∈ cs, mid.flag b = true := by
      intro b hb
      have hne : b ≠ c := by
        intro heq
        subst heq
        exact hnodup.1 hb
      rw [hmid, hset b (List.mem_cons_of_mem _ hb)]
      simp [hne]
    obtain ⟨a', ha'⟩ := ih hnodup.2 hrest
    refine ⟨a', ?_⟩
    rw [freeAll, hfree, Except.ok_bind]
    exact ha'

end BlockAllocator

end FilesystemLab
