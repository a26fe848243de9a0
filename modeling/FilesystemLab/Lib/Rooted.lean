import FilesystemLab.Lib.Digraph

/-!
# Edits of an acyclic relation that a root reaches

What may be done to the edges of a graph so that it stays acyclic and its
vertices stay reachable from a root.

* `WithEdge` adds one edge.  `acyclic_withEdge_iff` says when that closes a
  cycle, and `acyclic_exchange_iff` when two edges may exchange their targets.
* `acyclic_of_rooted` adds edges from the root, and `reach_of_predecessors`
  says when the root reaches every vertex.
-/

namespace Digraph

open Relation

variable {α : Type}

/-- There is no path from a vertex to itself. -/
def Acyclic (r : α → α → Prop) : Prop := ∀ x, ¬ TransGen r x x

theorem Acyclic.mono {r s : α → α → Prop} (h : Acyclic s)
    (hrs : ∀ x y, r x y → s x y) : Acyclic r :=
  fun x hcycle => h x (TransGen.mono hrs _ _ hcycle)

/-! ## One more edge -/

/-- The relation with one more edge. -/
def WithEdge (r : α → α → Prop) (p t : α) (x y : α) : Prop :=
  r x y ∨ x = p ∧ y = t

section WithEdge

variable {r : α → α → Prop} {p q t root v : α}

theorem withEdge_self (r : α → α → Prop) (p t : α) : WithEdge r p t p t :=
  .inr ⟨rfl, rfl⟩

theorem withEdge_mono {x y : α} (h : r x y) : WithEdge r p t x y := .inl h

/-- The paths of a relation are paths with one more edge. -/
theorem reflTransGen_withEdge_of {x y : α} (h : ReflTransGen r x y) :
    ReflTransGen (WithEdge r p t) x y :=
  ReflTransGen.mono (fun _ _ => withEdge_mono) _ _ h

/-- A path takes the new edge or does not. -/
theorem reflTransGen_withEdge {x y : α} :
    ReflTransGen (WithEdge r p t) x y ↔
      ReflTransGen r x y ∨ ReflTransGen r x p ∧ ReflTransGen r t y := by
  constructor
  · intro h
    induction h with
    | refl => exact .inl .refl
    | tail _ hbc ih =>
      rcases hbc with hbc | ⟨rfl, rfl⟩
      · rcases ih with ih | ⟨hxp, hty⟩
        · exact .inl (ih.tail hbc)
        · exact .inr ⟨hxp, hty.tail hbc⟩
      · rcases ih with ih | ⟨hxp, _⟩
        · exact .inr ⟨ih, .refl⟩
        · exact .inr ⟨hxp, .refl⟩
  · intro hcases
    rcases hcases with h | ⟨hxp, hty⟩
    · exact reflTransGen_withEdge_of h
    · exact ((reflTransGen_withEdge_of hxp).tail (withEdge_self r p t)).trans
        (reflTransGen_withEdge_of hty)

/-- An edge closes a cycle exactly if its target reaches its source. -/
theorem acyclic_withEdge_iff :
    Acyclic (WithEdge r p t) ↔ Acyclic r ∧ ¬ ReflTransGen r t p := by
  constructor
  · intro h
    refine ⟨h.mono fun _ _ => withEdge_mono, ?_⟩
    intro hpath
    exact h p (TransGen.head' (withEdge_self r p t)
      (reflTransGen_withEdge_of hpath))
  · rintro ⟨hacyclic, hno⟩ x hcycle
    obtain ⟨y, hxy, hyx⟩ := TransGen.head'_iff.mp hcycle
    rw [reflTransGen_withEdge] at hyx
    rcases hxy with hxy | ⟨rfl, rfl⟩
    · rcases hyx with hyx | ⟨hyp, htx⟩
      · exact hacyclic x (TransGen.head' hxy hyx)
      · exact hno (htx.trans (.head hxy hyp))
    · rcases hyx with hyx | ⟨htp, _⟩
      · exact hno hyx
      · exact hno htp

/-- Two edges may exchange their targets exactly if neither target reaches the
source that it gets by other edges. -/
theorem acyclic_exchange_iff {t' : α}
    (h : Acyclic (WithEdge (WithEdge r p t) q t')) :
    Acyclic (WithEdge (WithEdge r p t') q t) ↔
      ¬ ReflTransGen r t' p ∧ ¬ ReflTransGen r t q := by
  have hold := acyclic_withEdge_iff.mp (acyclic_withEdge_iff.mp h).1
  rw [acyclic_withEdge_iff, acyclic_withEdge_iff, reflTransGen_withEdge]
  constructor
  · intro hfacts
    rcases hfacts with ⟨⟨_, hno⟩, hno'⟩
    exact ⟨hno, fun hpath => hno' (.inl hpath)⟩
  · intro hfacts
    rcases hfacts with ⟨hno, hno'⟩
    refine ⟨⟨hold.1, hno⟩, ?_⟩
    intro hcases
    rcases hcases with hpath | ⟨hpath, _⟩
    · exact hno' hpath
    · exact hold.2 hpath

end WithEdge

/-! ## Edges from the root -/

section Root

variable {r s : α → α → Prop} {root : α}

/-- New edges from a root without predecessors close no cycle. -/
theorem acyclic_of_rooted (hr : Acyclic r)
    (hnew : ∀ x y, s x y → r x y ∨ x = root) (hroot : ∀ x, ¬ s x root) :
    Acyclic s := by
  -- a path from a vertex with a predecessor avoids the root
  have hpath : ∀ {x y : α}, (∃ z, s z x) → TransGen s x y → TransGen r x y := by
    intro x y hpred h
    have hold : ∀ {x z : α}, (∃ w, s w x) → s x z → r x z := by
      rintro x z ⟨w, hw⟩ hxz
      rcases hnew x z hxz with hxz | rfl
      · exact hxz
      · exact absurd hw (hroot w)
    induction h using TransGen.head_induction_on with
    | single hxy => exact .single (hold hpred hxy)
    | head hxz _ ih => exact .head (hold hpred hxz) (ih ⟨_, hxz⟩)
  intro x hcycle
  obtain ⟨z, _, hzx⟩ := TransGen.tail'_iff.mp hcycle
  exact hr x (hpath ⟨z, hzx⟩ hcycle)

/-- An acyclic relation whose edges start in a finite set is well founded. -/
theorem acc_of_acyclic_sources [DecidableEq α] {nodes : List α}
    (hnodes : ∀ x y, r x y → x ∈ nodes) (hr : Acyclic r) (y : α) : Acc r y := by
  classical
  let next : α → List α := fun y => nodes.filter fun x => decide (r x y)
  have hnext : ∀ x y, x ∈ next y ↔ r x y := by
    intro x y
    simp only [next, List.mem_filter, decide_eq_true_eq]
    exact ⟨And.right, fun h => ⟨hnodes x y h, h⟩⟩
  have hrel : Next next = r := by
    funext x y
    exact propext (hnext x y)
  have hsub : ∀ x, ∀ y ∈ next x, y ∈ nodes :=
    fun _ _ hy => (List.mem_filter.mp hy).1
  rw [← hrel]
  apply acc_of_acyclic hsub
  intro x hcycle
  apply hr x
  have hswap : TransGen (fun a b => a ∈ next b) x x := transGen_swap.mp hcycle
  exact TransGen.mono (fun a b hab => (hnext a b).mp hab) _ _ hswap

/-- Every member of a set has an ancestor in the set without a parent in it. -/
theorem exists_source {member : α → Prop} {y : α} (hacc : Acc r y)
    (hy : member y) :
    ∃ x, member x ∧ (∀ z, member z → ¬ r z x) ∧ ReflTransGen r x y := by
  induction hacc with
  | intro y _ ih =>
    by_cases hparent : ∃ z, member z ∧ r z y
    · obtain ⟨z, hz, hzy⟩ := hparent
      obtain ⟨x, hx, hsource, hpath⟩ := ih z hzy hz
      exact ⟨x, hx, hsource, hpath.tail hzy⟩
    · refine ⟨y, hy, ?_, .refl⟩
      intro z hz hzy
      exact hparent ⟨z, hz, hzy⟩

/-- Where every vertex but the root has a predecessor, the root reaches all. -/
theorem reach_of_predecessors {member : α → Prop} {y : α} (hacc : Acc r y)
    (hpred : ∀ x, member x → x ≠ root → ∃ z, member z ∧ r z x)
    (hy : member y) : ReflTransGen r root y := by
  induction hacc with
  | intro y _ ih =>
    by_cases hroot : y = root
    · rw [hroot]
    · obtain ⟨z, hz, hzy⟩ := hpred y hy hroot
      exact (ih z hzy hz).tail hzy

end Root

end Digraph
