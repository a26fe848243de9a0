import Mathlib.Data.List.Basic
import Mathlib.Data.List.Nodup
import Mathlib.Logic.Function.Basic
import Mathlib.Tactic.Common

/-!
# Lists of items and the index of their owners

A store of lists, one for each key that is present, beside an index that gives
the key of an item.  `Inverse lists owners` says that the index is the inverse
of the lists, and that no list has an item twice; then no item is in two lists
either.

Both sides are functions with an update for each assignment, and the lemmas
below take one update of each side at a time: a new key, an item behind a list,
an item out of a list, and a key with nothing left.
-/

namespace ReverseIndex

variable {K B : Type}

/-- The index `owners` is the inverse of the lists. -/
structure Inverse (lists : K → Option (List B)) (owners : B → Option K) :
    Prop where
  owner_iff : ∀ b k, owners b = some k ↔ ∃ xs, lists k = some xs ∧ b ∈ xs
  nodup : ∀ k xs, lists k = some xs → xs.Nodup

namespace Inverse

variable {lists : K → Option (List B)} {owners : B → Option K}
  {k : K} {b : B} {xs : List B}

theorem empty : Inverse (fun _ : K => none) (fun _ : B => none) where
  owner_iff := by
    intro b k
    simp only [reduceCtorEq, false_and, exists_false]
  nodup := by
    intro k xs h
    cases h

theorem owner (h : Inverse lists owners) (hk : lists k = some xs)
    (hb : b ∈ xs) : owners b = some k :=
  (h.owner_iff b k).mpr ⟨xs, hk, hb⟩

/-- An item without an owner is in no list. -/
theorem not_mem (h : Inverse lists owners) (hb : owners b = none)
    (hk : lists k = some xs) : b ∉ xs := by
  intro hmem
  rw [h.owner hk hmem] at hb
  cases hb

/-- No item is in two lists. -/
theorem key_unique (h : Inverse lists owners) {j : K} {ys : List B}
    (hk : lists k = some xs) (hb : b ∈ xs) (hj : lists j = some ys)
    (hb' : b ∈ ys) : k = j := by
  have howner := h.owner hk hb
  rw [h.owner hj hb', Option.some.injEq] at howner
  exact howner.symm

variable [DecidableEq K]

/-- A key that was absent gets an empty list. -/
theorem create (h : Inverse lists owners) (hk : lists k = none) :
    Inverse (Function.update lists k (some [])) owners where
  owner_iff := by
    intro b j
    rw [h.owner_iff, Function.update_apply]
    by_cases hj : j = k
    · subst hj
      rw [if_pos rfl, hk]
      simp
    · rw [if_neg hj]
  nodup := by
    intro j xs hlist
    rw [Function.update_apply] at hlist
    split at hlist
    · cases hlist
      exact List.nodup_nil
    · exact h.nodup j xs hlist

/-- A key whose list is empty goes. -/
theorem remove (h : Inverse lists owners) (hk : lists k = some []) :
    Inverse (Function.update lists k none) owners where
  owner_iff := by
    intro b j
    rw [h.owner_iff, Function.update_apply]
    by_cases hj : j = k
    · subst hj
      rw [if_pos rfl, hk]
      simp
    · rw [if_neg hj]
  nodup := by
    intro j xs hlist
    rw [Function.update_apply] at hlist
    split at hlist
    · cases hlist
    · exact h.nodup j xs hlist

variable [DecidableEq B]

/-- An item without an owner goes behind the list of a key. -/
theorem push (h : Inverse lists owners) (hk : lists k = some xs)
    (hb : owners b = none) :
    Inverse (Function.update lists k (some (xs ++ [b])))
      (Function.update owners b (some k)) where
  owner_iff := by
    intro a j
    rw [Function.update_apply, Function.update_apply]
    by_cases ha : a = b
    · subst ha
      rw [if_pos rfl, Option.some.injEq]
      constructor
      · intro hkj
        rw [if_pos hkj.symm]
        exact ⟨_, rfl, List.mem_append_right _ List.mem_cons_self⟩
      · intro hlisted
        obtain ⟨ys, hlist, hmem⟩ := hlisted
        by_contra hne
        rw [if_neg fun hjk => hne hjk.symm] at hlist
        exact h.not_mem hb hlist hmem
    · rw [if_neg ha, h.owner_iff]
      by_cases hj : j = k
      · subst hj
        rw [if_pos rfl, hk]
        simp [ha]
      · rw [if_neg hj]
  nodup := by
    intro j ys hlist
    rw [Function.update_apply] at hlist
    split at hlist
    · cases hlist
      rw [← List.concat_eq_append]
      exact (h.nodup k xs hk).concat (h.not_mem hb hk)
    · exact h.nodup j ys hlist

/-- An item goes out of the list of its owner. -/
theorem erase (h : Inverse lists owners) (hk : lists k = some xs)
    (hb : b ∈ xs) :
    Inverse (Function.update lists k (some (xs.erase b)))
      (Function.update owners b none) where
  owner_iff := by
    intro a j
    have hnodup := h.nodup k xs hk
    rw [Function.update_apply, Function.update_apply]
    by_cases ha : a = b
    · subst ha
      rw [if_pos rfl]
      simp only [reduceCtorEq, false_iff, not_exists, not_and]
      intro ys hlist hmem
      split at hlist
      · cases hlist
        exact (hnodup.mem_erase_iff.mp hmem).1 rfl
      · rename_i hne
        exact hne (h.key_unique hlist hmem hk hb)
    · rw [if_neg ha, h.owner_iff]
      by_cases hj : j = k
      · subst hj
        rw [if_pos rfl, hk]
        simp [hnodup.mem_erase_iff, ha]
      · rw [if_neg hj]
  nodup := by
    intro j ys hlist
    rw [Function.update_apply] at hlist
    split at hlist
    · cases hlist
      exact (h.nodup k xs hk).erase b
    · exact h.nodup j ys hlist

end Inverse

end ReverseIndex
