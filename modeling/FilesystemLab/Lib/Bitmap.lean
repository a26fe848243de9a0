import FilesystemLab.Lib.Bytes
import Mathlib.Data.Nat.Bitwise

/-!
# Bits of byte strings

A bitmap is a byte string; bit `n` is bit `n % 8` of byte `n / 8`.  `setBits`
sets a list of bits in a cleared bitmap.  `eq_of_bitAt` says that a bitmap has
nothing but its length and its bits, which is what makes an encoded bitmap
canonical.
-/

namespace Bytes

/-- `byte & (1_u8 << k) != 0`. -/
def testBit (byte : UInt8) (k : Nat) : Bool := byte &&& (1 <<< UInt8.ofNat k) != 0

/-- `byte | (1_u8 << k)`. -/
def orBit (byte : UInt8) (k : Nat) : UInt8 := byte ||| (1 <<< UInt8.ofNat k)

/-- Bit `n` of a bitmap, clear behind its end. -/
def bitAt (bytes : List UInt8) (n : Nat) : Bool :=
  match bytes[n / 8]? with
  | some byte => testBit byte (n % 8)
  | none => false

/-- `bytes[n / 8] |= 1_u8 << (n % 8)`. -/
def setBit (bytes : List UInt8) (n : Nat) : List UInt8 :=
  bytes.modify (n / 8) fun byte => orBit byte (n % 8)

/-- The mask of one bit. -/
theorem toNat_one_shiftLeft {k : Nat} (hk : k < 8) :
    (1 <<< UInt8.ofNat k : UInt8).toNat = 2 ^ k := by
  have hlt : 2 ^ k < 2 ^ 8 := Nat.pow_lt_pow_right (by decide) hk
  rw [UInt8.toNat_shiftLeft, UInt8.toNat_ofNat', Nat.shiftLeft_eq]
  rw [show k % 2 ^ 8 = k by omega, show k % 8 = k by omega]
  simp only [UInt8.toNat_one, Nat.one_mul]
  exact Nat.mod_eq_of_lt hlt

theorem testBit_eq {byte : UInt8} {k : Nat} (hk : k < 8) :
    testBit byte k = byte.toNat.testBit k := by
  have hmask : (byte &&& (1 <<< UInt8.ofNat k)).toNat =
      (byte.toNat.testBit k).toNat * 2 ^ k := by
    rw [UInt8.toNat_and, toNat_one_shiftLeft hk, Nat.and_two_pow]
  unfold testBit
  cases hbit : byte.toNat.testBit k with
  | false =>
    rw [hbit] at hmask
    have hzero : byte &&& (1 <<< UInt8.ofNat k) = 0 := by
      apply UInt8.toNat_inj.mp
      rw [hmask]
      simp
    simp [hzero]
  | true =>
    rw [hbit] at hmask
    have hne : byte &&& (1 <<< UInt8.ofNat k) ≠ 0 := by
      intro hzero
      rw [hzero] at hmask
      have := Nat.two_pow_pos k
      simp at hmask
      omega
    simpa using hne

theorem testBit_orBit {byte : UInt8} {j k : Nat} (hj : j < 8) (hk : k < 8) :
    testBit (orBit byte k) j = (decide (k = j) || testBit byte j) := by
  rw [testBit_eq hj, testBit_eq hj, orBit, UInt8.toNat_or, Nat.testBit_or,
    toNat_one_shiftLeft hk, Nat.testBit_two_pow, Bool.or_comm]

/-- A byte is determined by its eight bits. -/
theorem eq_of_testBit {a b : UInt8}
    (h : ∀ k, k < 8 → testBit a k = testBit b k) : a = b := by
  apply UInt8.toNat_inj.mp
  apply Nat.eq_of_testBit_eq
  intro k
  by_cases hk : k < 8
  · rw [← testBit_eq hk, ← testBit_eq hk, h k hk]
  · have hpow : 2 ^ 8 ≤ 2 ^ k := Nat.pow_le_pow_right (by decide) (by omega)
    have ha := a.toNat_lt
    have hb := b.toNat_lt
    rw [Nat.testBit_lt_two_pow (by omega), Nat.testBit_lt_two_pow (by omega)]

@[simp] theorem length_setBit (bytes : List UInt8) (n : Nat) :
    (setBit bytes n).length = bytes.length := by
  simp [setBit]

theorem bitAt_setBit {bytes : List UInt8} {n : Nat} (m : Nat)
    (h : n / 8 < bytes.length) :
    bitAt (setBit bytes n) m = (decide (n = m) || bitAt bytes m) := by
  have hm : m % 8 < 8 := Nat.mod_lt _ (by decide)
  have hn : n % 8 < 8 := Nat.mod_lt _ (by decide)
  unfold bitAt setBit
  rw [List.getElem?_modify]
  by_cases hsame : n / 8 = m / 8
  · have hlt : m / 8 < bytes.length := by omega
    rw [List.getElem?_eq_getElem hlt]
    simp only [hsame, if_true, Option.map_eq_map, Option.map_some]
    rw [testBit_orBit hm hn]
    have hiff : decide (n % 8 = m % 8) = decide (n = m) := by
      apply decide_eq_decide.mpr
      omega
    rw [hiff]
  · have hne : ¬ n = m := by
      intro heq
      rw [heq] at hsame
      exact hsame rfl
    simp [hsame, hne]

/-- Sets the bits of a list, in order. -/
def setBits (bytes : List UInt8) (ns : List Nat) : List UInt8 :=
  ns.foldl setBit bytes

@[simp] theorem length_setBits (bytes : List UInt8) (ns : List Nat) :
    (setBits bytes ns).length = bytes.length := by
  induction ns generalizing bytes with
  | nil => rfl
  | cons n ns ih =>
    show (setBits (setBit bytes n) ns).length = bytes.length
    rw [ih, length_setBit]

theorem bitAt_setBits {bytes : List UInt8} {ns : List Nat} (m : Nat)
    (h : ∀ n ∈ ns, n / 8 < bytes.length) :
    bitAt (setBits bytes ns) m = (decide (m ∈ ns) || bitAt bytes m) := by
  induction ns generalizing bytes with
  | nil => simp [setBits]
  | cons n ns ih =>
    show bitAt (setBits (setBit bytes n) ns) m = _
    have hn := h n List.mem_cons_self
    have hns : ∀ k ∈ ns, k / 8 < (setBit bytes n).length := by
      intro k hk
      rw [length_setBit]
      exact h k (List.mem_cons_of_mem _ hk)
    rw [ih hns, bitAt_setBit m hn]
    by_cases heq : n = m
    · simp [heq]
    · have heq' : ¬ m = n := fun h => heq h.symm
      simp [heq, heq']

theorem bitAt_zeros (k n : Nat) : bitAt (zeros k) n = false := by
  unfold bitAt zeros
  by_cases h : n / 8 < k
  · rw [List.getElem?_replicate, if_pos h]
    simp [testBit]
  · rw [List.getElem?_replicate, if_neg h]

/-- Zeros behind a bitmap set no bits. -/
theorem bitAt_append_zeros (bytes : List UInt8) (k n : Nat) :
    bitAt (bytes ++ zeros k) n = bitAt bytes n := by
  by_cases h : n / 8 < bytes.length
  · unfold bitAt
    rw [List.getElem?_append_left h]
  · have hzero := bitAt_zeros k (n - 8 * bytes.length)
    unfold bitAt at hzero ⊢
    rw [show (n - 8 * bytes.length) / 8 = n / 8 - bytes.length by omega,
      show (n - 8 * bytes.length) % 8 = n % 8 by omega] at hzero
    rw [List.getElem?_append_right (by omega), hzero,
      List.getElem?_eq_none (by omega)]

/-- Two bitmaps of one length with the same bits are equal. -/
theorem eq_of_bitAt {xs ys : List UInt8} (hlen : xs.length = ys.length)
    (h : ∀ n, n < 8 * xs.length → bitAt xs n = bitAt ys n) : xs = ys := by
  apply List.ext_getElem hlen
  intro i hi hi'
  apply eq_of_testBit
  intro k hk
  have hbit := h (8 * i + k) (by omega)
  unfold bitAt at hbit
  rw [show (8 * i + k) / 8 = i by omega, show (8 * i + k) % 8 = k by omega,
    List.getElem?_eq_getElem hi, List.getElem?_eq_getElem hi'] at hbit
  exact hbit

end Bytes
