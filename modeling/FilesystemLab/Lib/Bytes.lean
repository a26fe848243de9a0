import Mathlib.Algebra.GroupWithZero.Nat
import Mathlib.Data.List.Basic
import Mathlib.Tactic.Common

/-!
# Byte strings of fixed layouts

A fixed on-disk layout is a byte string with fields at fixed offsets.  This
module has the operations that such a codec uses, over `List UInt8`:

* `slice bytes i j` is the Rust `bytes[i..j]`;
* `zeroFill bytes i j` is `bytes[i..j].fill(0)`;
* `leBytes` and `ofLeBytes` are `to_le_bytes` and `from_le_bytes` at any width;
* `crc32` is the reflected IEEE CRC-32;
* `chunk k bytes i` is the `i`-th piece of `k` bytes.

An encoder is written as a concatenation of fields, so a decoder that reads the
fields back by offset is evaluated by `slice_append_left` and
`slice_append_right`: `simp` finds the field that an offset falls into from the
lengths of the fields before it.  In the other direction,
`eq_append_slice_append` cuts an accepted byte string at the offsets that the
decoder has checked.
-/

namespace Bytes

/-! ## Zeros -/

/-- `n` zero bytes. -/
def zeros (n : Nat) : List UInt8 := List.replicate n 0

@[simp] theorem length_zeros (n : Nat) : (zeros n).length = n := by
  simp [zeros]

@[simp] theorem zeros_zero : zeros 0 = [] := rfl

theorem zeros_append (m n : Nat) : zeros m ++ zeros n = zeros (m + n) := by
  simp [zeros, List.replicate_append_replicate]

theorem take_zeros (m n : Nat) : (zeros n).take m = zeros (min m n) := by
  simp [zeros, List.take_replicate]

theorem drop_zeros (m n : Nat) : (zeros n).drop m = zeros (n - m) := by
  simp [zeros, List.drop_replicate]

/-- `bytes.iter().all(|byte| *byte == 0)`. -/
def allZero (bytes : List UInt8) : Bool := bytes.all (· == 0)

@[simp] theorem allZero_zeros (n : Nat) : allZero (zeros n) = true := by
  simp [allZero, zeros, List.all_replicate]

theorem allZero_append (xs ys : List UInt8) :
    allZero (xs ++ ys) = (allZero xs && allZero ys) := by
  simp [allZero]

/-- A byte string with only zero bytes is determined by its length. -/
theorem eq_zeros_of_allZero {bytes : List UInt8} (h : allZero bytes = true) :
    bytes = zeros bytes.length := by
  simp only [allZero, List.all_eq_true, beq_iff_eq] at h
  exact List.eq_replicate_iff.mpr ⟨rfl, h⟩

/-! ## Slices -/

/-- The bytes from offset `i` up to offset `j`. -/
def slice (bytes : List UInt8) (i j : Nat) : List UInt8 := (bytes.take j).drop i

theorem length_slice (bytes : List UInt8) (i j : Nat) :
    (slice bytes i j).length = min j bytes.length - i := by
  simp [slice]

theorem length_slice_of_le {bytes : List UInt8} {i j : Nat}
    (hj : j ≤ bytes.length) : (slice bytes i j).length = j - i := by
  rw [length_slice, Nat.min_eq_left hj]

@[simp] theorem slice_append_left {xs ys : List UInt8} {i j : Nat}
    (h : j ≤ xs.length) : slice (xs ++ ys) i j = slice xs i j := by
  rw [slice, slice, List.take_append_of_le_length h]

@[simp] theorem slice_append_right {xs ys : List UInt8} {i j : Nat}
    (h : xs.length ≤ i) :
    slice (xs ++ ys) i j = slice ys (i - xs.length) (j - xs.length) := by
  rw [slice, slice, List.take_append, List.drop_append]
  have hnil : (xs.take j).drop i = [] := by
    rw [List.drop_eq_nil_iff, List.length_take]
    omega
  rw [hnil, List.nil_append, List.length_take]
  by_cases hj : j ≤ xs.length
  · have h0 : j - xs.length = 0 := by omega
    simp [h0]
  · rw [Nat.min_eq_right (by omega)]

@[simp] theorem slice_full {xs : List UInt8} {n : Nat} (h : xs.length = n) :
    slice xs 0 n = xs := by
  rw [slice, List.drop_zero, ← h, List.take_length]

theorem slice_zero_eq_take (xs : List UInt8) (n : Nat) :
    slice xs 0 n = xs.take n := rfl

/-- Two adjacent slices are one slice. -/
theorem slice_append_slice {bytes : List UInt8} {i j k : Nat} (hij : i ≤ j)
    (hjk : j ≤ k) :
    slice bytes i j ++ slice bytes j k = slice bytes i k := by
  have hsplit : bytes.take k = bytes.take j ++ (bytes.take k).drop j := by
    have := (List.take_append_drop j (bytes.take k)).symm
    rwa [List.take_take, Nat.min_eq_left hjk] at this
  by_cases hj : j ≤ bytes.length
  · rw [slice, slice, slice]
    conv => rhs; rw [hsplit]
    rw [List.drop_append_of_le_length]
    rw [List.length_take]
    omega
  · have htake : bytes.take j = bytes := List.take_of_length_le (by omega)
    have htake' : bytes.take k = bytes := List.take_of_length_le (by omega)
    rw [slice, slice, slice, htake, htake',
      List.drop_eq_nil_iff.mpr (by omega : bytes.length ≤ j), List.append_nil]

/-- A byte string cut at two offsets. -/
theorem eq_append_slice_append (bytes : List UInt8) {i j : Nat}
    (hij : i ≤ j) :
    bytes = bytes.take i ++ slice bytes i j ++ bytes.drop j := by
  have h1 : bytes.take i ++ slice bytes i j = bytes.take j := by
    rw [slice]
    have := List.take_append_drop i (bytes.take j)
    rwa [List.take_take, Nat.min_eq_left hij] at this
  rw [h1, List.take_append_drop]

/-- A slice of a prefix. -/
theorem slice_take {bytes : List UInt8} {i j n : Nat} (h : j ≤ n) :
    slice (bytes.take n) i j = slice bytes i j := by
  rw [slice, slice, List.take_take, Nat.min_eq_left h]

theorem slice_zeros (n i j : Nat) :
    slice (zeros n) i j = zeros (min j n - i) := by
  rw [slice, take_zeros, drop_zeros]

/-- `bytes[i..j].fill(0)`. -/
def zeroFill (bytes : List UInt8) (i j : Nat) : List UInt8 :=
  bytes.take i ++ zeros (j - i) ++ bytes.drop j

/-- A field that is filled with zeros between two other parts. -/
theorem zeroFill_append {xs ys zs : List UInt8} {i j : Nat}
    (hi : xs.length = i) (hj : xs.length + ys.length = j) :
    zeroFill (xs ++ ys ++ zs) i j = xs ++ zeros ys.length ++ zs := by
  have hdrop : (xs ++ ys ++ zs).drop j = zs :=
    List.drop_left' (by rw [List.length_append, hj])
  have htake : (xs ++ ys ++ zs).take i = xs := by
    rw [List.append_assoc]
    exact List.take_left' hi
  rw [zeroFill, hdrop, htake, show j - i = ys.length by omega]

theorem getElem?_zeros (n i : Nat) :
    (zeros n)[i]? = if i < n then some 0 else none :=
  List.getElem?_replicate

/-- A byte string with `data` written over it from a position on. -/
def overwrite (bytes : List UInt8) (offset : Nat) (data : List UInt8) :
    List UInt8 :=
  bytes.take offset ++ data ++ bytes.drop (offset + data.length)

section Overwrite

variable {bytes data : List UInt8} {offset : Nat}

theorem length_overwrite (h : offset + data.length ≤ bytes.length) :
    (overwrite bytes offset data).length = bytes.length := by
  simp only [overwrite, List.length_append, List.length_take, List.length_drop]
  omega

/-- A position of a byte string that is overwritten in part. -/
theorem getElem?_overwrite (h : offset + data.length ≤ bytes.length) (n : Nat) :
    (overwrite bytes offset data)[n]? =
      if offset ≤ n ∧ n < offset + data.length then data[n - offset]?
      else bytes[n]? := by
  have htake : (bytes.take offset).length = offset := by
    rw [List.length_take]
    omega
  have hfront : (bytes.take offset ++ data).length = offset + data.length := by
    rw [List.length_append, htake]
  unfold overwrite
  by_cases hbefore : n < offset
  · rw [if_neg (by omega), List.getElem?_append_left (by omega),
      List.getElem?_append_left (by omega), List.getElem?_take_of_lt hbefore]
  by_cases hinside : n < offset + data.length
  · rw [if_pos (by omega), List.getElem?_append_left (by omega),
      List.getElem?_append_right (by omega), htake]
  · rw [if_neg (by omega), List.getElem?_append_right (by omega), hfront,
      List.getElem?_drop, Nat.add_sub_cancel' (by omega)]

/-- What is written lies before a position. -/
theorem take_overwrite {n : Nat} (h : offset + data.length ≤ n)
    (hn : n ≤ bytes.length) :
    (overwrite bytes offset data).take n =
      overwrite (bytes.take n) offset data := by
  have hfront : (bytes.take offset ++ data).length = offset + data.length := by
    rw [List.length_append, List.length_take]
    omega
  rw [overwrite, overwrite, List.take_append, hfront,
    List.take_of_length_le (by omega), List.take_take, List.drop_take,
    Nat.min_eq_left (by omega)]

theorem drop_overwrite {n : Nat} (h : offset + data.length ≤ n)
    (hn : n ≤ bytes.length) :
    (overwrite bytes offset data).drop n = bytes.drop n := by
  have hfront : (bytes.take offset ++ data).length = offset + data.length := by
    rw [List.length_append, List.length_take]
    omega
  rw [overwrite, List.drop_append, hfront, List.drop_eq_nil_of_le (by omega),
    List.nil_append, List.drop_drop, Nat.add_sub_cancel' h]

end Overwrite

/-- A part that is cleared is overwritten with zeros. -/
theorem zeroFill_eq_overwrite {bytes : List UInt8} {i j : Nat} (hij : i ≤ j) :
    zeroFill bytes i j = overwrite bytes i (zeros (j - i)) := by
  rw [zeroFill, overwrite, length_zeros, Nat.add_sub_cancel' hij]

theorem length_zeroFill {bytes : List UInt8} {i j : Nat} (hij : i ≤ j)
    (hj : j ≤ bytes.length) : (zeroFill bytes i j).length = bytes.length := by
  rw [zeroFill_eq_overwrite hij, length_overwrite]
  rw [length_zeros]
  omega

/-- A position of a byte string that is cleared in part. -/
theorem getElem?_zeroFill {bytes : List UInt8} {i j : Nat} (hij : i ≤ j)
    (hj : j ≤ bytes.length) (n : Nat) :
    (zeroFill bytes i j)[n]? =
      if i ≤ n ∧ n < j then some 0 else bytes[n]? := by
  have hlen : i + (zeros (j - i)).length = j := by
    rw [length_zeros]
    omega
  rw [zeroFill_eq_overwrite hij, getElem?_overwrite (by omega), hlen]
  by_cases hinside : i ≤ n ∧ n < j
  · rw [if_pos hinside, if_pos hinside, getElem?_zeros, if_pos (by omega)]
  · rw [if_neg hinside, if_neg hinside]

/-! ## Little-endian numbers -/

/-- The `w` little-endian bytes of `n`, as `to_le_bytes` of a `w`-byte word. -/
def leBytes : Nat → Nat → List UInt8
  | 0, _ => []
  | w + 1, n => UInt8.ofNat n :: leBytes w (n / 256)

/-- `from_le_bytes` at the width of the byte string. -/
def ofLeBytes : List UInt8 → Nat
  | [] => 0
  | b :: bs => b.toNat + 256 * ofLeBytes bs

@[simp] theorem length_leBytes (w n : Nat) : (leBytes w n).length = w := by
  induction w generalizing n with
  | zero => rfl
  | succ w ih => simp [leBytes, ih]

theorem ofLeBytes_leBytes (w n : Nat) (h : n < 256 ^ w) :
    ofLeBytes (leBytes w n) = n := by
  induction w generalizing n with
  | zero => simp only [Nat.pow_zero, Nat.lt_one_iff] at h; simp [leBytes, ofLeBytes, h]
  | succ w ih =>
    have hdiv : n / 256 < 256 ^ w := by
      rw [Nat.div_lt_iff_lt_mul (by decide), ← Nat.pow_succ]
      exact h
    rw [leBytes, ofLeBytes, ih _ hdiv, UInt8.toNat_ofNat']
    omega

theorem leBytes_ofLeBytes (bs : List UInt8) :
    leBytes bs.length (ofLeBytes bs) = bs := by
  induction bs with
  | nil => rfl
  | cons b bs ih =>
    have hb := b.toNat_lt
    rw [List.length_cons, leBytes, ofLeBytes,
      show (b.toNat + 256 * ofLeBytes bs) / 256 = ofLeBytes bs by omega, ih]
    congr 1
    apply UInt8.toNat_inj.mp
    rw [UInt8.toNat_ofNat']
    omega

theorem ofLeBytes_lt (bs : List UInt8) : ofLeBytes bs < 256 ^ bs.length := by
  induction bs with
  | nil => simp [ofLeBytes]
  | cons b bs ih =>
    have hb := b.toNat_lt
    rw [ofLeBytes, List.length_cons, Nat.pow_succ]
    omega

/-- The number stored in the `w` bytes at offset `i`. -/
def readLe (bytes : List UInt8) (i w : Nat) : Nat :=
  ofLeBytes (slice bytes i (i + w))

theorem readLe_lt (bytes : List UInt8) (i w : Nat)
    (h : i + w ≤ bytes.length) : readLe bytes i w < 256 ^ w := by
  have hlt := ofLeBytes_lt (slice bytes i (i + w))
  rwa [length_slice_of_le h, Nat.add_sub_cancel_left] at hlt

/-- The bytes of a field, from the number a decoder reads there. -/
theorem slice_eq_leBytes (bytes : List UInt8) (i w : Nat)
    (h : i + w ≤ bytes.length) :
    slice bytes i (i + w) = leBytes w (readLe bytes i w) := by
  have hlen : (slice bytes i (i + w)).length = w := by
    rw [length_slice_of_le h]
    omega
  have := leBytes_ofLeBytes (slice bytes i (i + w))
  rw [hlen] at this
  exact this.symm

/-! ## CRC-32 -/

/-- One bit of the reflected CRC-32. -/
def crcBit (crc : UInt32) : UInt32 :=
  (crc >>> 1) ^^^ (0xedb88320 &&& (0 - (crc &&& 1)))

/-- One byte of the reflected CRC-32. -/
def crcByte (crc : UInt32) (byte : UInt8) : UInt32 :=
  (List.range 8).foldl (fun crc _ => crcBit crc) (crc ^^^ byte.toUInt32)

/-- The IEEE CRC-32 of a byte string. -/
def crc32 (bytes : List UInt8) : UInt32 :=
  ~~~ (bytes.foldl crcByte 0xffffffff)

theorem toNat_crc32_lt (bytes : List UInt8) : (crc32 bytes).toNat < 256 ^ 4 :=
  (crc32 bytes).toNat_lt

/-- Two parts with the checksum of the whole between them, taken while its own
field is zero. -/
def sealed (front rest : List UInt8) : List UInt8 :=
  front ++ leBytes 4 (crc32 (front ++ zeros 4 ++ rest)).toNat ++ rest

@[simp] theorem length_sealed (front rest : List UInt8) :
    (sealed front rest).length = front.length + 4 + rest.length := by
  simp [sealed, Nat.add_assoc]

theorem slice_sealed_front {front rest : List UInt8} {i j : Nat}
    (h : j ≤ front.length) : slice (sealed front rest) i j = slice front i j := by
  unfold sealed
  rw [slice_append_left (by simp; omega), slice_append_left h]

theorem drop_sealed {front rest : List UInt8} {n : Nat}
    (h : front.length + 4 = n) : (sealed front rest).drop n = rest :=
  List.drop_left' (by simpa using h)

/-- The stored checksum is the one that a reader computes. -/
theorem readLe_sealed {front rest : List UInt8} {i : Nat}
    (h : front.length = i) :
    readLe (sealed front rest) i 4 =
      (crc32 (zeroFill (sealed front rest) i (i + 4))).toNat := by
  have hfill : zeroFill (sealed front rest) i (i + 4) =
      front ++ zeros 4 ++ rest := by
    unfold sealed
    rw [zeroFill_append h (by simp [h]), length_leBytes]
  rw [hfill]
  unfold readLe sealed
  rw [slice_append_left (by simp [h]), slice_append_right (by omega),
    show i - front.length = 0 by omega, slice_full (by rw [length_leBytes]; omega)]
  exact ofLeBytes_leBytes 4 _ (toNat_crc32_lt _)

/-- A byte string whose checksum is right is sealed. -/
theorem eq_sealed (bytes : List UInt8) (i : Nat) (hlen : i + 4 ≤ bytes.length)
    (h : readLe bytes i 4 = (crc32 (zeroFill bytes i (i + 4))).toNat) :
    bytes = sealed (bytes.take i) (bytes.drop (i + 4)) := by
  have hcut := eq_append_slice_append bytes (Nat.le_add_right i 4)
  have hfill : zeroFill bytes i (i + 4) =
      bytes.take i ++ zeros 4 ++ bytes.drop (i + 4) := by
    unfold zeroFill
    rw [Nat.add_sub_cancel_left]
  rw [slice_eq_leBytes bytes i 4 hlen, h, hfill] at hcut
  exact hcut

/-! ## Arrays of words -/

/-- The little-endian bytes of 64-bit words, one after another. -/
def wordBytes (ws : List UInt64) : List UInt8 :=
  ws.flatMap fun w => leBytes 8 w.toNat

/-- The first `n` words of a byte string. -/
def readWords (bytes : List UInt8) (n : Nat) : List UInt64 :=
  (List.range n).map fun i => UInt64.ofNat (readLe bytes (i * 8) 8)

@[simp] theorem length_wordBytes (ws : List UInt64) :
    (wordBytes ws).length = ws.length * 8 := by
  induction ws with
  | nil => rfl
  | cons w ws ih =>
    show (leBytes 8 w.toNat ++ wordBytes ws).length = _
    rw [List.length_append, ih, length_leBytes, List.length_cons]
    omega

@[simp] theorem length_readWords (bytes : List UInt8) (n : Nat) :
    (readWords bytes n).length = n := by
  simp [readWords]

theorem readWords_succ (bytes : List UInt8) (n : Nat) :
    readWords bytes (n + 1) =
      UInt64.ofNat (readLe bytes 0 8) :: readWords (bytes.drop 8) n := by
  unfold readWords
  rw [List.range_succ_eq_map, List.map_cons, List.map_map]
  simp only [Nat.zero_mul, List.cons.injEq, true_and]
  apply List.map_congr_left
  intro i _
  show UInt64.ofNat (readLe bytes ((i + 1) * 8) 8) = _
  congr 1
  unfold readLe slice
  rw [List.take_drop, List.drop_drop]
  congr 1
  rw [show 8 + (i * 8 + 8) = (i + 1) * 8 + 8 by omega,
    show 8 + i * 8 = (i + 1) * 8 by omega]

theorem readWords_wordBytes (ws : List UInt64) :
    readWords (wordBytes ws) ws.length = ws := by
  induction ws with
  | nil => rfl
  | cons w ws ih =>
    have hbytes : wordBytes (w :: ws) = leBytes 8 w.toNat ++ wordBytes ws := rfl
    have hhead : readLe (leBytes 8 w.toNat ++ wordBytes ws) 0 8 = w.toNat := by
      unfold readLe
      rw [slice_append_left (by simp), slice_full (by simp)]
      exact ofLeBytes_leBytes 8 _ (lt_of_lt_of_eq w.toNat_lt (by decide))
    rw [List.length_cons, readWords_succ, hbytes, hhead,
      List.drop_left' (length_leBytes 8 _), ih, UInt64.ofNat_toNat]

theorem wordBytes_readWords {bytes : List UInt8} {n : Nat}
    (h : bytes.length = n * 8) : wordBytes (readWords bytes n) = bytes := by
  induction n generalizing bytes with
  | zero =>
    have hnil : bytes = [] := List.length_eq_zero_iff.mp (by omega)
    simp [hnil, readWords, wordBytes]
  | succ n ih =>
    have hlen : (bytes.drop 8).length = n * 8 := by
      rw [List.length_drop]
      omega
    have hlt := readLe_lt bytes 0 8 (by omega)
    have hword : (UInt64.ofNat (readLe bytes 0 8)).toNat = readLe bytes 0 8 := by
      rw [UInt64.toNat_ofNat']
      exact Nat.mod_eq_of_lt (lt_of_lt_of_eq hlt (by decide))
    have hhead : leBytes 8 (readLe bytes 0 8) = bytes.take 8 :=
      (slice_eq_leBytes bytes 0 8 (by omega)).symm
    unfold wordBytes at ih ⊢
    rw [readWords_succ, List.flatMap_cons, ih hlen, hword, hhead]
    exact List.take_append_drop 8 bytes

/-! ## Chunks -/

/-- The `i`-th piece of `k` bytes. -/
def chunk (k : Nat) (bytes : List UInt8) (i : Nat) : List UInt8 :=
  (bytes.drop (i * k)).take k

theorem length_chunk {k : Nat} {bytes : List UInt8} {i n : Nat}
    (hlen : bytes.length = n * k) (hi : i < n) :
    (chunk k bytes i).length = k := by
  have hle : (i + 1) * k ≤ n * k := Nat.mul_le_mul_right k hi
  rw [Nat.succ_mul] at hle
  rw [chunk, List.length_take, List.length_drop]
  omega

/-- The chunks of a byte string, in order, are the byte string. -/
theorem flatMap_chunk {k : Nat} {bytes : List UInt8} {n : Nat}
    (hlen : bytes.length = n * k) :
    (List.range n).flatMap (chunk k bytes) = bytes := by
  induction n generalizing bytes with
  | zero =>
    simp only [Nat.zero_mul, List.length_eq_zero_iff] at hlen
    simp [hlen]
  | succ n ih =>
    rw [Nat.succ_mul] at hlen
    have hrest : (bytes.drop k).length = n * k := by
      rw [List.length_drop]
      omega
    rw [List.range_succ_eq_map, List.flatMap_cons, List.flatMap_map]
    have hshift : ∀ i, chunk k bytes (i + 1) = chunk k (bytes.drop k) i := by
      intro i
      rw [chunk, chunk, List.drop_drop]
      congr 2
      rw [Nat.succ_mul]
      omega
    simp only [Nat.succ_eq_add_one, hshift]
    rw [ih hrest, chunk, Nat.zero_mul, List.drop_zero, List.take_append_drop]

/-! ## Pieces of one length -/

section Pieces

variable {α β : Type} {f : α → List β} {n : Nat}

theorem length_flatMap_pieces (h : ∀ x, (f x).length = n) (xs : List α) :
    (xs.flatMap f).length = xs.length * n := by
  induction xs with
  | nil => simp
  | cons x xs ih =>
    rw [List.flatMap_cons, List.length_append, h, ih, List.length_cons,
      Nat.succ_mul]
    omega

/-- Dropping whole pieces. -/
theorem drop_flatMap_pieces (h : ∀ x, (f x).length = n) (xs : List α)
    (k : Nat) : (xs.flatMap f).drop (k * n) = (xs.drop k).flatMap f := by
  induction xs generalizing k with
  | nil => simp
  | cons x xs ih =>
    cases k with
    | zero => simp
    | succ k =>
      rw [List.flatMap_cons, List.drop_append, h, List.drop_succ_cons, ← ih k,
        Nat.succ_mul, List.drop_eq_nil_of_le (by rw [h]; omega),
        List.nil_append, Nat.add_sub_cancel]

/-- Taking whole pieces. -/
theorem take_flatMap_pieces (h : ∀ x, (f x).length = n) (xs : List α)
    (k : Nat) : (xs.flatMap f).take (k * n) = (xs.take k).flatMap f := by
  induction xs generalizing k with
  | nil => simp
  | cons x xs ih =>
    cases k with
    | zero => simp
    | succ k =>
      rw [List.flatMap_cons, List.take_append, h, List.take_succ_cons,
        List.flatMap_cons, ← ih k, Nat.succ_mul, Nat.add_sub_cancel,
        List.take_of_length_le (by rw [h]; omega)]

/-- A position of the pieces, one after the other. -/
theorem getElem?_flatMap_pieces (h : ∀ x, (f x).length = n) (xs : List α)
    (i : Nat) {j : Nat} (hj : j < n) :
    (xs.flatMap f)[i * n + j]? = (xs[i]?).bind fun x => (f x)[j]? := by
  rw [← List.getElem?_drop, drop_flatMap_pieces h]
  cases hx : xs[i]? with
  | none =>
    rw [List.drop_eq_nil_of_le (List.getElem?_eq_none_iff.mp hx)]
    rfl
  | some x =>
    obtain ⟨hi, hget⟩ := List.getElem?_eq_some_iff.mp hx
    rw [List.drop_eq_getElem_cons hi, hget, List.flatMap_cons,
      List.getElem?_append_left (by rw [h]; exact hj)]
    rfl

/-- A byte string is the pieces that agree with it in every position. -/
theorem flatMap_pieces_eq (h : ∀ x, (f x).length = n) {xs : List α}
    {ys : List β} (hlen : ys.length = xs.length * n)
    (heq : ∀ i x, xs[i]? = some x → ∀ j, j < n → (f x)[j]? = ys[i * n + j]?) :
    xs.flatMap f = ys := by
  apply List.ext_getElem?
  intro p
  by_cases hp : p < xs.length * n
  · have hpos : 0 < n := Nat.pos_of_mul_pos_left (Nat.zero_lt_of_lt hp)
    have hi : p / n < xs.length := (Nat.div_lt_iff_lt_mul hpos).mpr hp
    have hj : p % n < n := Nat.mod_lt p hpos
    have hsplit : p / n * n + p % n = p := Nat.div_add_mod' p n
    have hx := List.getElem?_eq_getElem hi
    have hstep := heq _ _ hx _ hj
    rw [← hsplit, getElem?_flatMap_pieces h xs (p / n) hj, hx,
      Option.bind_some, hstep]
  · rw [List.getElem?_eq_none (by rw [length_flatMap_pieces h]; omega),
      List.getElem?_eq_none (by omega)]

end Pieces

end Bytes
