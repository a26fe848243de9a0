import Mathlib.Data.List.Basic
import Mathlib.Tactic.Common

/-!
# Lists of intervals

Ascending intervals of numbers with gaps between them, over any type with a start
and a count.  A window of covered numbers lies in one of the intervals
(`window_iff`), so that the first interval that is long enough is the lowest
window of its length (`window_of_find`, `exists_find_of_window`).
-/

namespace Intervals

variable {E : Type} {start count : E → Nat} {es : List E} {s n : Nat}

/-- The intervals are ascending, with a gap behind each. -/
structure Separated (start count : E → Nat) (es : List E) : Prop where
  count_pos : ∀ e ∈ es, 0 < count e
  gaps : es.Pairwise fun e f => start e + count e < start f

/-- All numbers of `s..s + n` are in some interval. -/
def Window (start count : E → Nat) (es : List E) (s n : Nat) : Prop :=
  ∀ b, s ≤ b → b < s + n → ∃ e ∈ es, start e ≤ b ∧ b < start e + count e

theorem Separated.tail {e : E} (h : Separated start count (e :: es)) :
    Separated start count es :=
  ⟨fun f hf => h.count_pos f (List.mem_cons_of_mem e hf), h.gaps.of_cons⟩

/-- One more interval behind the others. -/
theorem Separated.concat {e : E} (h : Separated start count es)
    (hcount : 0 < count e) (hgap : ∀ f ∈ es, start f + count f < start e) :
    Separated start count (es ++ [e]) := by
  constructor
  · intro f hf
    cases List.mem_append.mp hf with
    | inl hmem => exact h.count_pos f hmem
    | inr hmem =>
      rw [List.mem_singleton.mp hmem]
      exact hcount
  · rw [List.pairwise_append]
    refine ⟨h.gaps, List.pairwise_singleton _ _, ?_⟩
    intro f hf g hg
    rw [List.mem_singleton.mp hg]
    exact hgap f hf

/-- **A window lies in one interval.** -/
theorem window_iff (h : Separated start count es) (hn : 0 < n) :
    Window start count es s n ↔
      ∃ e ∈ es, start e ≤ s ∧ s + n ≤ start e + count e := by
  constructor
  · intro hwindow
    induction es with
    | nil =>
      obtain ⟨e, he, _⟩ := hwindow s (Nat.le_refl s) (by omega)
      cases he
    | cons e es ih =>
      have hbehind : ∀ f ∈ es, start e + count e < start f :=
        fun f hf => List.rel_of_pairwise_cons h.gaps hf
      by_cases hs : s < start e + count e
      · -- the window starts in the first interval, and a gap is behind it
        refine ⟨e, List.mem_cons_self, ?_, ?_⟩
        · obtain ⟨f, hf, hle, hlt⟩ := hwindow s (Nat.le_refl s) (by omega)
          cases List.mem_cons.mp hf with
          | inl heq => rw [← heq]; exact hle
          | inr hmem =>
            have hgap := hbehind f hmem
            omega
        · by_contra hlong
          obtain ⟨f, hf, hle, hlt⟩ :=
            hwindow (start e + count e) (Nat.le_of_lt hs) (by omega)
          cases List.mem_cons.mp hf with
          | inl heq => rw [heq] at hlt; omega
          | inr hmem =>
            have hgap := hbehind f hmem
            omega
      · obtain ⟨f, hf, hinside⟩ := ih h.tail (by
          intro b hle hlt
          obtain ⟨f, hf, hin⟩ := hwindow b hle hlt
          cases List.mem_cons.mp hf with
          | inl heq => rw [heq] at hin; omega
          | inr hmem => exact ⟨f, hmem, hin⟩)
        exact ⟨f, List.mem_cons_of_mem e hf, hinside⟩
  · intro hexists b hle hlt
    obtain ⟨e, he, hstart, hstop⟩ := hexists
    exact ⟨e, he, by omega, by omega⟩

/-- The first interval that is long enough starts with a window. -/
theorem window_of_find {e : E}
    (hfind : es.find? (fun e => n ≤ count e) = some e) :
    Window start count es (start e) n := by
  have hlong := List.find?_some hfind
  rw [decide_eq_true_eq] at hlong
  intro b hle hlt
  exact ⟨e, List.mem_of_find?_eq_some hfind, hle, by omega⟩

/-- No window is before the first interval that is long enough. -/
theorem exists_find_of_window (h : Separated start count es) (hn : 0 < n)
    (hwindow : Window start count es s n) :
    ∃ e, es.find? (fun e => n ≤ count e) = some e ∧ start e ≤ s := by
  obtain ⟨f, hf, hstart, hstop⟩ := (window_iff h hn).mp hwindow
  clear hwindow
  induction es with
  | nil => cases hf
  | cons e es ih =>
    by_cases hlong : n ≤ count e
    · refine ⟨e, ?_, ?_⟩
      · rw [List.find?_cons_of_pos (by rw [decide_eq_true_eq]; exact hlong)]
      · cases List.mem_cons.mp hf with
        | inl heq => rw [← heq]; exact hstart
        | inr hmem =>
          have hgap := List.rel_of_pairwise_cons h.gaps hmem
          omega
    · rw [List.find?_cons_of_neg (by rw [decide_eq_true_eq]; exact hlong)]
      cases List.mem_cons.mp hf with
      | inl heq =>
        rw [heq] at hstart hstop
        omega
      | inr hmem => exact ih h.tail hmem

end Intervals
