import Mathlib.Data.List.Basic
import Mathlib.Data.List.Perm.Basic
import Mathlib.Tactic.Common

/-!
# Segments of lists

Lists that are rearranged by index ranges, over any type.

* `segment xs i j` is `xs[i..j]`, and `splice xs i j ys` is `xs` with this
  segment replaced by `ys`.
* `swapSegments xs a b c d` exchanges the segments `a..b` and `c..d`.

Each rearrangement loses nothing, which is a permutation (`splice_perm`,
`exchange_perm`, `transfer_perm`, `move_perm`, `swapSegments_perm`), and is
undone by one of the same kind (`exchange_exchange`,
`swapSegments_swapSegments`).
-/

namespace Splice

variable {α : Type} {xs ys zs : List α} {i j k l : Nat}

/-- `xs[i..j]`. -/
def segment (xs : List α) (i j : Nat) : List α := (xs.drop i).take (j - i)

/-- `xs` with `ys` in the place of `xs[i..j]`. -/
def splice (xs : List α) (i j : Nat) (ys : List α) : List α :=
  xs.take i ++ ys ++ xs.drop j

/-! ## Segments and splices -/

theorem length_segment (h : j ≤ xs.length) :
    (segment xs i j).length = j - i := by
  rw [segment, List.length_take, List.length_drop]
  omega

theorem length_splice (hij : i ≤ j) (hj : j ≤ xs.length) (ys : List α) :
    (splice xs i j ys).length + (j - i) = xs.length + ys.length := by
  simp only [splice, List.length_append, List.length_take, List.length_drop]
  omega

@[simp] theorem segment_self (xs : List α) (i : Nat) : segment xs i i = [] := by
  rw [segment, Nat.sub_self, List.take_zero]

/-- A segment of the whole length. -/
theorem segment_length (xs : List α) : segment xs 0 xs.length = xs := by
  rw [segment, List.drop_zero, Nat.sub_zero, List.take_length]

/-- A splice of the whole length. -/
theorem splice_length (xs ys : List α) : splice xs 0 xs.length ys = ys := by
  rw [splice, List.take_zero, List.drop_length, List.nil_append, List.append_nil]

theorem mem_of_mem_segment {x : α} (h : x ∈ segment xs i j) : x ∈ xs :=
  List.mem_of_mem_drop (List.mem_of_mem_take h)

/-- A list is what comes before a segment, the segment, and what comes behind. -/
theorem splice_segment (hij : i ≤ j) : splice xs i j (segment xs i j) = xs := by
  have hbehind : xs.drop j = (xs.drop i).drop (j - i) := by
    rw [List.drop_drop, Nat.add_sub_cancel' hij]
  rw [splice, segment, hbehind, List.append_assoc, List.take_append_drop,
    List.take_append_drop]

/-- The first item of a segment. -/
theorem getElem?_segment_zero (h : i < j) : (segment xs i j)[0]? = xs[i]? := by
  rw [segment, List.getElem?_take_of_lt (by omega), List.getElem?_drop,
    Nat.add_zero]

/-- Where the new part of a splice begins. -/
theorem getElem?_splice_start (hi : i ≤ xs.length) (hys : ys ≠ []) :
    (splice xs i j ys)[i]? = ys[0]? := by
  have hfront : (xs.take i).length = i := by
    rw [List.length_take]
    omega
  rw [splice, List.append_assoc, List.getElem?_append_right (by omega), hfront,
    Nat.sub_self, List.getElem?_append_left (List.length_pos_iff.mpr hys)]

/-- The new part of a splice. -/
theorem segment_splice (hi : i ≤ xs.length) (j : Nat) (ys : List α) :
    segment (splice xs i j ys) i (i + ys.length) = ys := by
  have hfront : (xs.take i).length = i := by
    rw [List.length_take]
    omega
  rw [segment, splice, List.append_assoc, List.drop_append,
    List.drop_eq_nil_of_le (by omega), hfront, Nat.sub_self, List.nil_append,
    List.drop_zero, Nat.add_sub_cancel_left, List.take_left]

/-- The new part of a splice can be replaced again. -/
theorem splice_splice (hi : i ≤ xs.length) (j : Nat) (ys zs : List α) :
    splice (splice xs i j ys) i (i + ys.length) zs = splice xs i j zs := by
  have hfront : (xs.take i).length = i := by
    rw [List.length_take]
    omega
  have hbefore : (splice xs i j ys).take i = xs.take i := by
    rw [splice, List.append_assoc, List.take_append_of_le_length (by omega),
      List.take_of_length_le (by omega)]
  have hbehind : (splice xs i j ys).drop (i + ys.length) = xs.drop j := by
    rw [splice, List.drop_append, List.drop_eq_nil_of_le (by
      rw [List.length_append]
      omega), List.length_append, hfront, Nat.sub_self]
    rfl
  rw [splice, hbefore, hbehind]
  rfl

/-- A splice of something new is another list. -/
theorem splice_ne (i j : Nat) (hys : ys ≠ []) (hnew : ∀ y ∈ ys, y ∉ xs) :
    splice xs i j ys ≠ xs := by
  intro hsame
  obtain ⟨y, hy⟩ := List.exists_mem_of_ne_nil ys hys
  apply hnew y hy
  rw [← hsame]
  exact List.mem_append_left _ (List.mem_append_right _ hy)

theorem segment_ne_nil (hij : i < j) (hj : j ≤ xs.length) :
    segment xs i j ≠ [] := by
  intro hnil
  have hlen := length_segment (i := i) hj
  rw [hnil, List.length_nil] at hlen
  omega

/-! ## Nothing is lost -/

/-- A splice and what it replaced are the list and what was put in. -/
theorem splice_perm (xs : List α) (hij : i ≤ j) (ys : List α) :
    (splice xs i j ys ++ segment xs i j).Perm (xs ++ ys) := by
  have hwhole := @splice_segment α xs i j hij
  calc (splice xs i j ys ++ segment xs i j).Perm
        (xs.take i ++ (ys ++ (xs.drop j ++ segment xs i j))) := by
        rw [splice, List.append_assoc, List.append_assoc]
    _ |>.Perm (xs.take i ++ (ys ++ (segment xs i j ++ xs.drop j))) :=
        (List.perm_append_comm.append_left ys).append_left _
    _ |>.Perm (xs.take i ++ ((segment xs i j ++ xs.drop j) ++ ys)) :=
        List.perm_append_comm.append_left _
    _ |>.Perm (xs ++ ys) := by
        rw [← List.append_assoc, ← List.append_assoc]
        show (splice xs i j (segment xs i j) ++ ys).Perm (xs ++ ys)
        rw [hwhole]

/-- The parts of two lists that change their partners. -/
theorem perm_middle (xs ys zs ws : List α) :
    (xs ++ ys ++ (zs ++ ws)).Perm (xs ++ zs ++ (ys ++ ws)) := by
  have hinner : (ys ++ (zs ++ ws)).Perm (zs ++ (ys ++ ws)) := by
    rw [← List.append_assoc, ← List.append_assoc]
    exact List.perm_append_comm.append_right ws
  rw [List.append_assoc, List.append_assoc]
  exact hinner.append_left xs

/-- Segments of two lists that change places. -/
theorem exchange_perm (xs ys : List α) (hij : i ≤ j) (hkl : k ≤ l) :
    (splice xs i j (segment ys k l) ++ splice ys k l (segment xs i j)).Perm
      (xs ++ ys) := by
  have hfirst := splice_perm xs hij (segment ys k l)
  have hsecond := splice_perm ys hkl (segment xs i j)
  -- both splices beside what they replaced, which is what they put in
  rw [← List.perm_append_right_iff (segment xs i j ++ segment ys k l)]
  calc (splice xs i j (segment ys k l) ++ splice ys k l (segment xs i j) ++
        (segment xs i j ++ segment ys k l)).Perm
        (splice xs i j (segment ys k l) ++ segment xs i j ++
          (splice ys k l (segment xs i j) ++ segment ys k l)) :=
        perm_middle _ _ _ _
    _ |>.Perm (xs ++ segment ys k l ++ (ys ++ segment xs i j)) :=
        hfirst.append hsecond
    _ |>.Perm (xs ++ ys ++ (segment ys k l ++ segment xs i j)) :=
        perm_middle _ _ _ _
    _ |>.Perm (xs ++ ys ++ (segment xs i j ++ segment ys k l)) :=
        List.perm_append_comm.append_left _

/-- **An exchange of segments is undone by the exchange at their new
places.** -/
theorem exchange_exchange (xs ys : List α) (hij : i ≤ j) (hj : j ≤ xs.length)
    (hkl : k ≤ l) (hl : l ≤ ys.length) :
    splice (splice xs i j (segment ys k l)) i (i + (l - k))
      (segment (splice ys k l (segment xs i j)) k (k + (j - i))) = xs := by
  have hback := segment_splice (show k ≤ ys.length by omega) l (segment xs i j)
  rw [length_segment hj] at hback
  have hagain := splice_splice (show i ≤ xs.length by omega) j (segment ys k l)
    (segment xs i j)
  rw [length_segment hl] at hagain
  rw [hback, hagain, splice_segment hij]

/-- A segment that goes from one list to another. -/
theorem transfer_perm (xs ys : List α) (hij : i ≤ j) (k : Nat) :
    (splice xs i j [] ++ splice ys k k (segment xs i j)).Perm (xs ++ ys) := by
  have hboth := exchange_perm xs ys hij (Nat.le_refl k)
  rw [segment_self] at hboth
  exact hboth

/-- A segment that is taken out and put in again elsewhere. -/
theorem move_perm (xs : List α) (hij : i ≤ j) (k : Nat) :
    (splice (splice xs i j []) k k (segment xs i j)).Perm xs := by
  have hout := splice_perm xs hij []
  have hin := splice_perm (splice xs i j []) (Nat.le_refl k)
    (segment xs i j)
  rw [segment_self, List.append_nil] at hin
  rw [List.append_nil] at hout
  exact hin.trans hout

/-- A segment of distinct items that is put in elsewhere leaves another list. -/
theorem move_ne (hnodup : xs.Nodup) (hij : i < j) (hj : j ≤ xs.length)
    (hk : k + (j - i) ≤ xs.length) (hne : k ≠ i) :
    splice (splice xs i j []) k k (segment xs i j) ≠ xs := by
  intro hsame
  have hlen := length_splice (Nat.le_of_lt hij) hj ([] : List α)
  rw [List.length_nil, Nat.add_zero] at hlen
  have hstart : (splice (splice xs i j []) k k (segment xs i j))[k]? = xs[i]? := by
    rw [getElem?_splice_start (by omega) (segment_ne_nil hij hj),
      getElem?_segment_zero hij]
  rw [hsame] at hstart
  have hlt : k < xs.length := by omega
  exact hne ((List.getElem?_inj hlt hnodup).mp hstart)

/-! ## Two segments of one list -/

/-- `xs` with `xs[a..b]` and `xs[c..d]` exchanged. -/
def swapSegments (xs : List α) (a b c d : Nat) : List α :=
  xs.take a ++ segment xs c d ++ segment xs b c ++ segment xs a b ++ xs.drop d

variable {a b c d : Nat}

/-- The parts that an exchange of segments is about. -/
theorem append_segments (hab : a ≤ b) (hbc : b ≤ c) (hcd : c ≤ d) :
    xs.take a ++ segment xs a b ++ segment xs b c ++ segment xs c d ++
      xs.drop d = xs := by
  have hjoin : ∀ {i j : Nat}, i ≤ j → segment xs i j ++ xs.drop j =
      xs.drop i := by
    intro i j hij
    have hbehind : xs.drop j = (xs.drop i).drop (j - i) := by
      rw [List.drop_drop, Nat.add_sub_cancel' hij]
    rw [segment, hbehind, List.take_append_drop]
  rw [List.append_assoc, hjoin hcd, List.append_assoc, hjoin hbc,
    List.append_assoc, hjoin hab, List.take_append_drop]

theorem swapSegments_perm (hab : a ≤ b) (hbc : b ≤ c) (hcd : c ≤ d) :
    (swapSegments xs a b c d).Perm xs := by
  have hwhole := @append_segments α xs a b c d hab hbc hcd
  have hinner : (segment xs c d ++ (segment xs b c ++ segment xs a b)).Perm
      (segment xs a b ++ (segment xs b c ++ segment xs c d)) :=
    (List.perm_append_comm.append_left _).trans
      (List.perm_append_comm.trans (by rw [List.append_assoc]))
  conv_rhs => rw [← hwhole]
  unfold swapSegments
  apply List.Perm.append_right
  rw [List.append_assoc, List.append_assoc, List.append_assoc, List.append_assoc]
  exact hinner.append_left _

/-- The part of a list between two others. -/
theorem segment_append (front part rest : List α) {whole : List α} {i j : Nat}
    (hwhole : whole = front ++ part ++ rest) (hi : i = front.length)
    (hj : j = front.length + part.length) : segment whole i j = part := by
  subst hwhole hi hj
  rw [segment, List.append_assoc, List.drop_left, Nat.add_sub_cancel_left,
    List.take_left]

/-- The exchange of two parts of a list by their lengths. -/
theorem swapSegments_append (front first middle second rest : List α) :
    swapSegments (front ++ first ++ middle ++ second ++ rest) front.length
      (front.length + first.length)
      (front.length + first.length + middle.length)
      (front.length + first.length + middle.length + second.length) =
      front ++ second ++ middle ++ first ++ rest := by
  have hfirst : segment (front ++ first ++ middle ++ second ++ rest)
      front.length (front.length + first.length) = first :=
    segment_append front first (middle ++ second ++ rest)
      (by simp only [List.append_assoc]) rfl rfl
  have hmiddle : segment (front ++ first ++ middle ++ second ++ rest)
      (front.length + first.length)
      (front.length + first.length + middle.length) = middle :=
    segment_append (front ++ first) middle (second ++ rest)
      (by simp only [List.append_assoc]) (by rw [List.length_append])
      (by rw [List.length_append])
  have hsecond : segment (front ++ first ++ middle ++ second ++ rest)
      (front.length + first.length + middle.length)
      (front.length + first.length + middle.length + second.length) = second :=
    segment_append (front ++ first ++ middle) second rest rfl
      (by rw [List.length_append, List.length_append])
      (by rw [List.length_append, List.length_append])
  have hfront : (front ++ first ++ middle ++ second ++ rest).take
      front.length = front := by
    simp only [List.append_assoc, List.take_left]
  have hrest : (front ++ first ++ middle ++ second ++ rest).drop
      (front.length + first.length + middle.length + second.length) = rest := by
    apply List.drop_left'
    simp only [List.length_append]
  rw [swapSegments, hfirst, hmiddle, hsecond, hfront, hrest]

/-- **An exchange of segments is undone by the exchange at their new
places.** -/
theorem swapSegments_swapSegments (hab : a ≤ b) (hbc : b ≤ c) (hcd : c ≤ d)
    (hd : d ≤ xs.length) :
    swapSegments (swapSegments xs a b c d) a (a + (d - c)) (d - (b - a)) d =
      xs := by
  have hfront : (xs.take a).length = a := by
    rw [List.length_take]
    omega
  have hundo := swapSegments_append (xs.take a) (segment xs c d)
    (segment xs b c) (segment xs a b) (xs.drop d)
  rw [hfront, length_segment hd, length_segment (by omega),
    length_segment (by omega), show a + (d - c) + (c - b) = d - (b - a) by omega,
    show d - (b - a) + (b - a) = d by omega] at hundo
  unfold swapSegments at hundo ⊢
  rw [hundo]
  exact append_segments hab hbc hcd

/-- The first of the exchanged segments is where the other one was. -/
theorem getElem?_swapSegments (hab : a ≤ b) (hbc : b ≤ c) (hcd : c < d)
    (hd : d ≤ xs.length) : (swapSegments xs a b c d)[a]? = xs[c]? := by
  have hfront : (xs.take a).length = a := by
    rw [List.length_take]
    omega
  rw [← getElem?_segment_zero hcd, swapSegments, List.append_assoc,
    List.append_assoc, List.append_assoc,
    List.getElem?_append_right (by omega), hfront, Nat.sub_self,
    List.getElem?_append_left (by rw [length_segment hd]; omega)]

/-- Distinct items that change their places leave another list. -/
theorem swapSegments_ne (hnodup : xs.Nodup) (hab : a < b) (hbc : b ≤ c)
    (hcd : c < d) (hd : d ≤ xs.length) : swapSegments xs a b c d ≠ xs := by
  intro hsame
  have hstart := getElem?_swapSegments (Nat.le_of_lt hab) hbc hcd hd
  rw [hsame] at hstart
  have hlt : a < xs.length := by omega
  have hsame := (List.getElem?_inj hlt hnodup).mp hstart
  omega

/-! ## Images of lists -/

section Map

variable {β : Type} (f : α → β)

theorem map_segment (xs : List α) (i j : Nat) :
    (segment xs i j).map f = segment (xs.map f) i j := by
  unfold segment
  rw [List.map_take, List.map_drop]

theorem map_splice (xs : List α) (i j : Nat) (ys : List α) :
    (splice xs i j ys).map f = splice (xs.map f) i j (ys.map f) := by
  unfold splice
  rw [List.map_append, List.map_append, List.map_take, List.map_drop]

theorem map_swapSegments (xs : List α) (a b c d : Nat) :
    (swapSegments xs a b c d).map f = swapSegments (xs.map f) a b c d := by
  unfold swapSegments
  simp only [List.map_append, map_segment, List.map_take, List.map_drop]

end Map

/-! ## Elements written one after the other -/

/-- The list with the elements of `ws` at their positions. -/
def setAll (xs : List α) (ws : List (Nat × α)) : List α :=
  ws.foldl (fun xs w => xs.set w.1 w.2) xs

@[simp] theorem setAll_nil (xs : List α) : setAll xs [] = xs := rfl

@[simp] theorem setAll_cons (xs : List α) (w : Nat × α) (ws : List (Nat × α)) :
    setAll xs (w :: ws) = setAll (xs.set w.1 w.2) ws := rfl

@[simp] theorem length_setAll (xs : List α) (ws : List (Nat × α)) :
    (setAll xs ws).length = xs.length := by
  induction ws generalizing xs with
  | nil => rfl
  | cons w ws ih => rw [setAll_cons, ih, List.length_set]

theorem getElem?_setAll_of_notMem {ws : List (Nat × α)}
    (h : i ∉ ws.map Prod.fst) (xs : List α) : (setAll xs ws)[i]? = xs[i]? := by
  induction ws generalizing xs with
  | nil => rfl
  | cons w ws ih =>
    rw [List.map_cons, List.mem_cons, not_or] at h
    rw [setAll_cons, ih h.2, List.getElem?_set_ne (Ne.symm h.1)]

theorem getElem?_setAll_of_mem {ws : List (Nat × α)} {x : α}
    (hnodup : (ws.map Prod.fst).Nodup) (hmem : (i, x) ∈ ws)
    (hi : i < xs.length) : (setAll xs ws)[i]? = some x := by
  induction ws generalizing xs with
  | nil => cases hmem
  | cons w ws ih =>
    rw [List.map_cons, List.nodup_cons] at hnodup
    rw [setAll_cons]
    rcases List.mem_cons.mp hmem with rfl | hrest
    · rw [getElem?_setAll_of_notMem hnodup.1, List.getElem?_set_self hi]
    · exact ih hnodup.2 hrest (by rw [List.length_set]; exact hi)

end Splice
