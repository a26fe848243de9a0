import Mathlib.Data.List.Basic
import Mathlib.Order.Lattice
import Mathlib.Tactic.Common

/-!
# Pages

A sorted list that is read in pages, over any type of items and any linear order
of cursors.  A cursor is exclusive: its page starts behind it.

* `Follows page c items` says that the pages from the cursor `c` come to an end
  and are `items` together.
* `IsPage` says what one page has to be: a front of what is behind the cursor,
  with the position of its last cell as the next cursor if something is left.

`follows_of_isPage` puts them together: if every page is one in this sense, then
following the cursors gives exactly what is behind the first one.
-/

namespace Pages

variable {κ α β ε : Type}

/-! ## Following cursors -/

/-- The pages from `c` on, up to the first without a cursor, are `items`. -/
inductive Follows (page : Option κ → Except ε (List α × Option κ)) :
    Option κ → List α → Prop
  | last {c : Option κ} {items : List α} :
    page c = .ok (items, none) → Follows page c items
  | more {c : Option κ} {n : κ} {items rest : List α} :
    page c = .ok (items, some n) → Follows page (some n) rest →
      Follows page c (items ++ rest)

/-! ## What is behind a cursor -/

section Sorted

variable [LinearOrder κ] {pos : β → κ} {cells front rest : List β} {c : Option κ}

/-- The cells behind a cursor. -/
def after (pos : β → κ) (cells : List β) : Option κ → List β
  | none => cells
  | some n => cells.filter fun x => n < pos x

@[simp] theorem after_none (pos : β → κ) (cells : List β) :
    after pos cells none = cells := rfl

theorem after_some (pos : β → κ) (cells : List β) (n : κ) :
    after pos cells (some n) = cells.filter fun x => n < pos x := rfl

theorem after_sublist (pos : β → κ) (cells : List β) (c : Option κ) :
    (after pos cells c).Sublist cells := by
  cases c with
  | none => exact List.Sublist.refl cells
  | some n => exact List.filter_sublist

/-- A cursor behind what is behind another is behind it. -/
theorem after_after {n : κ} (hc : ∀ m ∈ c, m ≤ n) :
    after pos (after pos cells c) (some n) = after pos cells (some n) := by
  cases c with
  | none => rfl
  | some m =>
    rw [after_some, after_some, after_some, List.filter_filter]
    apply List.filter_congr
    intro x _
    have hle := hc m rfl
    by_cases hx : n < pos x
    · rw [decide_eq_true hx, decide_eq_true (hle.trans_lt hx), Bool.and_true]
    · rw [decide_eq_false hx, Bool.false_and]

/-- Behind the last cell of a front is the rest. -/
theorem after_last (hsorted : cells.Pairwise fun x y => pos x < pos y)
    (hfront : front ++ rest = after pos cells c) {x : β}
    (hlast : front.getLast? = some x) :
    after pos cells (some (pos x)) = rest := by
  obtain ⟨before, rfl⟩ := List.getLast?_eq_some_iff.mp hlast
  have hpairs : (before ++ [x] ++ rest).Pairwise fun x y => pos x < pos y := by
    rw [hfront]
    exact hsorted.sublist (after_sublist pos cells c)
  rw [List.pairwise_append] at hpairs
  rcases hpairs with ⟨hbefore, _, hacross⟩
  rw [List.pairwise_append] at hbefore
  have hx : x ∈ after pos cells c := by
    rw [← hfront]
    simp
  have hc : ∀ m ∈ c, m ≤ pos x := by
    intro m hm
    rw [Option.mem_def] at hm
    subst hm
    rw [after_some, List.mem_filter, decide_eq_true_eq] at hx
    exact hx.2.le
  rw [← after_after hc, ← hfront, after_some, List.filter_append, List.filter_eq_nil_iff.mpr,
    List.nil_append, List.filter_eq_self.mpr]
  · intro y hy
    rw [decide_eq_true_eq]
    exact hacross x (by simp) y hy
  · intro y hy
    rw [decide_eq_true_eq, not_lt]
    rcases List.mem_append.mp hy with hmem | hmem
    · exact (hbefore.2.2 y hmem x (by simp)).le
    · rw [List.mem_singleton.mp hmem]

/-! ## Pages of a sorted list -/

/-- One page behind the cursor `c`: each item stands for the cells that `expand`
gives. -/
structure IsPage (pos : β → κ) (expand : α → List β) (cells : List β)
    (c : Option κ) (items : List α) (next : Option κ) : Prop where
  front : ∃ rest, items.flatMap expand ++ rest = after pos cells c ∧
    (next = none ↔ rest = [])
  last : ∀ n ∈ next, ∃ x, (items.flatMap expand).getLast? = some x ∧ pos x = n

/-- **The pages of a sorted list are the list.**  `good` are the cursors that
occur. -/
theorem follows_of_isPage {page : Option κ → Except ε (List α × Option κ)}
    {expand : α → List β} {good : Option κ → Prop}
    (hsorted : cells.Pairwise fun x y => pos x < pos y)
    (hpage : ∀ c, good c → ∃ items next, page c = .ok (items, next) ∧
      IsPage pos expand cells c items next ∧ ∀ n ∈ next, good (some n))
    (hgood : good c) :
    ∃ items, Follows page c items ∧
      items.flatMap expand = after pos cells c := by
  -- every page has a cell if another one follows, so fewer are left behind it
  induction hlen : (after pos cells c).length using Nat.strongRecOn
    generalizing c with
  | ind left ih =>
    obtain ⟨items, next, hok, his, hnext⟩ := hpage c hgood
    obtain ⟨rest, hfront, hnone⟩ := his.front
    cases next with
    | none =>
      rw [hnone.mp rfl, List.append_nil] at hfront
      exact ⟨items, .last hok, hfront⟩
    | some n =>
      obtain ⟨x, hlast, rfl⟩ := his.last n rfl
      have hrest := after_last hsorted hfront hlast
      have hsome : items.flatMap expand ≠ [] := by
        intro hnil
        rw [hnil] at hlast
        cases hlast
      have hless : (after pos cells (some (pos x))).length < left := by
        have hlength := congrArg List.length hfront
        rw [List.length_append, hlen] at hlength
        have hpositive := List.length_pos_iff.mpr hsome
        rw [hrest]
        omega
      obtain ⟨others, hfollows, hexpand⟩ := ih _ hless (hnext _ rfl) rfl
      refine ⟨items ++ others, .more hok hfollows, ?_⟩
      rw [List.flatMap_append, hexpand, hrest, hfront]

end Sorted

end Pages
