import Mathlib.Data.List.Basic
import Mathlib.Logic.Function.Basic
import Mathlib.Logic.Relation
import Mathlib.Order.WellFounded
import Mathlib.Data.Fintype.Basic
import Mathlib.Data.Finite.Defs
import Mathlib.Order.Preorder.Finite
import Mathlib.Tactic.Common

/-!
# Finite directed graphs

Searches of a graph that is given as a list of edges, and what they decide.

* `reach` is the worklist algorithm and `explore` the breadth-first search:
  `mem_reach_iff` and `mem_explore_iff` say that they collect the vertices on a
  path from their root.
* `visitAll` is the depth-first search with three colours that looks for a
  cycle: `visitAll_eq_ok_iff` says that it succeeds exactly if every root is
  accessible, that is, if no infinite path starts there.

On a finite graph accessibility and the absence of cycles are the same
(`acc_of_acyclic`, `not_transGen_of_acc`), so all of them are stated in terms of
paths.
-/

namespace Digraph

open Relation

variable {α : Type} [DecidableEq α]

/-! ## Edges and paths -/

/-- The targets of the edges that leave `x`, in the order of the list. -/
def succ (edges : List (α × α)) (x : α) : List α :=
  (edges.filter fun e => e.1 = x).map Prod.snd

/-- The edges as a relation. -/
def Edge (edges : List (α × α)) (x y : α) : Prop := (x, y) ∈ edges

theorem mem_succ {edges : List (α × α)} {x y : α} :
    y ∈ succ edges x ↔ Edge edges x y := by
  unfold succ Edge
  simp only [List.mem_map, List.mem_filter, decide_eq_true_eq, Prod.exists]
  constructor
  · intro hfacts
    rcases hfacts with ⟨a, b, ⟨hmem, rfl⟩, rfl⟩
    exact hmem
  · intro h
    exact ⟨x, y, ⟨h, rfl⟩, rfl⟩

/-! ## The worklist algorithm -/

/-- The number of edges that leave an unreached vertex. -/
def unreached (edges : List (α × α)) (reached : List α) : Nat :=
  edges.countP fun e => e.1 ∉ reached

theorem unreached_cons (edges : List (α × α)) {reached : List α} {x : α}
    (h : x ∉ reached) :
    unreached edges (x :: reached) + (succ edges x).length =
      unreached edges reached := by
  unfold unreached succ
  rw [List.length_map, ← List.countP_eq_length_filter]
  induction edges with
  | nil => rfl
  | cons e es ih =>
    simp only [List.countP_cons, decide_eq_true_eq, List.mem_cons] at ih ⊢
    by_cases hx : e.1 = x
    · subst hx
      simp only [h, not_true_eq_false, not_false_eq_true, if_true, if_false,
        true_or]
      omega
    · by_cases hr : e.1 ∈ reached
      · simp only [hx, hr, not_true_eq_false, if_false, or_true]
        omega
      · simp only [hx, hr, not_false_eq_true, if_true, if_false, or_self]
        omega

/-- The vertices reached from the pending ones.  The top of the stack is the
head of the list. -/
def reach (edges : List (α × α)) (pending reached : List α) : List α :=
  match pending with
  | [] => reached
  | x :: rest =>
    if _h : x ∈ reached then reach edges rest reached
    else reach edges ((succ edges x).reverse ++ rest) (x :: reached)
termination_by unreached edges reached + pending.length
decreasing_by
  · rw [List.length_cons]
    omega
  · have := unreached_cons edges _h
    rw [List.length_append, List.length_reverse, List.length_cons]
    omega

omit [DecidableEq α] in
/-- A path out of the reached vertices stays there or meets a pending one. -/
theorem mem_or_path {edges : List (α × α)} {pending reached : List α} {x y : α}
    (hclosed : ∀ x ∈ reached, ∀ z, Edge edges x z → z ∈ reached ∨ z ∈ pending)
    (hx : x ∈ reached) (hpath : ReflTransGen (Edge edges) x y) :
    y ∈ reached ∨ ∃ z ∈ pending, ReflTransGen (Edge edges) z y := by
  induction hpath using ReflTransGen.head_induction_on with
  | refl => exact .inl hx
  | head hedge hpath ih =>
    rcases hclosed _ hx _ hedge with hz | hz
    · exact ih hz
    · exact .inr ⟨_, hz, hpath⟩

/-- The reached vertices are those behind a pending one, if every edge out of
them is accounted for. -/
theorem mem_reach {edges : List (α × α)} {pending reached : List α} {y : α}
    (hclosed : ∀ x ∈ reached, ∀ z, Edge edges x z → z ∈ reached ∨ z ∈ pending) :
    y ∈ reach edges pending reached ↔
      y ∈ reached ∨ ∃ x ∈ pending, ReflTransGen (Edge edges) x y := by
  induction pending, reached using reach.induct edges with
  | case1 reached =>
    unfold reach
    simp
  | case2 reached x rest hx ih =>
    have hrest : ∀ z ∈ reached, ∀ w, Edge edges z w → w ∈ reached ∨ w ∈ rest := by
      intro z hz w hw
      rcases hclosed z hz w hw with h | h
      · exact .inl h
      · rcases List.mem_cons.mp h with rfl | h
        · exact .inl hx
        · exact .inr h
    unfold reach
    rw [dif_pos hx, ih]
    · constructor
      · intro hcases
        rcases hcases with h | ⟨z, hz, hpath⟩
        · exact .inl h
        · exact .inr ⟨z, List.mem_cons_of_mem _ hz, hpath⟩
      · intro hcases
        rcases hcases with h | ⟨z, hz, hpath⟩
        · exact .inl h
        · rcases List.mem_cons.mp hz with rfl | hz
          · exact mem_or_path hrest hx hpath
          · exact .inr ⟨z, hz, hpath⟩
    · exact hrest
  | case3 reached x rest hx ih =>
    unfold reach
    rw [dif_neg hx, ih]
    · constructor
      · intro hcases
        rcases hcases with h | ⟨z, hz, hpath⟩
        · rcases List.mem_cons.mp h with rfl | h
          · exact .inr ⟨y, List.mem_cons_self, .refl⟩
          · exact .inl h
        · rcases List.mem_append.mp hz with hz | hz
          · rw [List.mem_reverse, mem_succ] at hz
            exact .inr ⟨x, List.mem_cons_self, .head hz hpath⟩
          · exact .inr ⟨z, List.mem_cons_of_mem _ hz, hpath⟩
      · intro hcases
        rcases hcases with h | ⟨z, hz, hpath⟩
        · exact .inl (List.mem_cons_of_mem _ h)
        · rcases List.mem_cons.mp hz with rfl | hz
          · rcases hpath.cases_head with rfl | ⟨w, hw, hpath⟩
            · exact .inl List.mem_cons_self
            · refine .inr ⟨w, ?_, hpath⟩
              rw [List.mem_append, List.mem_reverse, mem_succ]
              exact .inl hw
          · exact .inr ⟨z, List.mem_append.mpr (.inr hz), hpath⟩
    · intro z hz w hw
      rcases List.mem_cons.mp hz with rfl | hz
      · right
        rw [List.mem_append, List.mem_reverse, mem_succ]
        exact .inl hw
      · rcases hclosed z hz w hw with h | h
        · exact .inl (List.mem_cons_of_mem _ h)
        · rcases List.mem_cons.mp h with rfl | h
          · exact .inl List.mem_cons_self
          · exact .inr (List.mem_append.mpr (.inr h))

/-- `reach` collects the vertices on a path from its root. -/
theorem mem_reach_iff {edges : List (α × α)} {root y : α} :
    y ∈ reach edges [root] [] ↔ ReflTransGen (Edge edges) root y := by
  rw [mem_reach (by simp)]
  simp

/-! ## Following parents -/

/-- The keys of a map that are not yet seen. -/
theorem countP_unseen_lt {parents : List (α × α)} {seen : List α} {x y : α}
    (hlookup : parents.lookup x = some y) (hx : x ∉ seen) :
    parents.countP (fun pair => pair.1 ∉ x :: seen) <
      parents.countP fun pair => pair.1 ∉ seen := by
  induction parents with
  | nil => cases hlookup
  | cons pair rest ih =>
    have hle : rest.countP (fun pair => pair.1 ∉ x :: seen) ≤
        rest.countP fun pair => pair.1 ∉ seen := by
      apply List.countP_mono_left
      intro other _ hother
      simp only [List.mem_cons, not_or, decide_eq_true_eq] at hother ⊢
      exact hother.2
    rw [List.countP_cons, List.countP_cons]
    by_cases hsame : pair.1 = x
    · rw [if_neg (by simp [hsame]), if_pos (by simp [hsame, hx])]
      omega
    · rw [List.lookup_cons, beq_eq_false_iff_ne.mpr (Ne.symm hsame)] at hlookup
      have hlt := ih hlookup
      by_cases hseen : pair.1 ∈ seen
      · rw [if_neg (by simp [hseen]), if_neg (by simp [hseen])]
        omega
      · rw [if_pos (by simp [hseen, hsame]), if_pos (by simp [hseen])]
        omega

/-- Follow the parents of a vertex: `true` at a vertex without parent, `false`
at one that was seen before. -/
def climbs (parents : List (α × α)) (seen : List α) (x : α) : Bool :=
  match _h : parents.lookup x with
  | none => true
  | some parent =>
    if _hx : x ∈ seen then false else climbs parents (x :: seen) parent
termination_by parents.countP fun pair => pair.1 ∉ seen
decreasing_by exact countP_unseen_lt _h _hx

theorem climbs_of_none {parents : List (α × α)} {seen : List α} {x : α}
    (h : parents.lookup x = none) : climbs parents seen x = true := by
  rw [climbs]
  split
  · rfl
  · next hsome =>
    rw [h] at hsome
    cases hsome

theorem climbs_of_some {parents : List (α × α)} {seen : List α} {x y : α}
    (h : parents.lookup x = some y) (hx : x ∉ seen) :
    climbs parents seen x = climbs parents (x :: seen) y := by
  rw [climbs]
  split
  · next hnone =>
    rw [h] at hnone
    cases hnone
  · next hsome =>
    rw [h, Option.some.injEq] at hsome
    rw [dif_neg hx, hsome]

omit [DecidableEq α] in
/-- No cycle goes through an accessible element. -/
theorem not_transGen_self {r : α → α → Prop} {x : α} (h : Acc r x) :
    ¬ TransGen r x x := by
  intro hcycle
  have hacc := h.transGen
  induction hacc with
  | intro y hy ih => exact ih y hcycle (h.inv_of_transGen hcycle) hcycle

/-- A vertex whose climb ends has no infinite line of parents. -/
theorem acc_of_climbs {parents : List (α × α)} {seen : List α} {x : α}
    (h : climbs parents seen x = true) :
    Acc (fun parent id => parents.lookup id = some parent) x := by
  induction seen, x using climbs.induct parents with
  | case1 seen x hnone =>
    constructor
    intro y hy
    rw [hnone] at hy
    cases hy
  | case2 seen x parent hsome hseen =>
    rw [climbs] at h
    split at h
    · next hnone =>
      rw [hsome] at hnone
      cases hnone
    · rw [dif_pos hseen] at h
      cases h
  | case3 seen x parent hsome hseen ih =>
    rw [climbs_of_some hsome hseen] at h
    constructor
    intro y hy
    rw [hsome, Option.some.injEq] at hy
    rw [← hy]
    exact ih h

/-- The value of a key that has only one. -/
theorem lookup_of_unique {parents : List (α × α)} {x y : α}
    (hmem : (x, y) ∈ parents)
    (hunique : ∀ pair ∈ parents, pair.1 = x → pair.2 = y) :
    parents.lookup x = some y := by
  induction parents with
  | nil => cases hmem
  | cons pair rest ih =>
    rw [List.lookup_cons]
    by_cases hsame : x = pair.1
    · rw [beq_iff_eq.mpr hsame]
      have hvalue := hunique pair List.mem_cons_self hsame.symm
      simp [hvalue]
    · rw [beq_eq_false_iff_ne.mpr hsame]
      apply ih
      · rcases List.mem_cons.mp hmem with rfl | hrest
        · exact absurd rfl hsame
        · exact hrest
      · intro other hother
        exact hunique other (List.mem_cons_of_mem _ hother)

/-! ## The breadth-first search -/

/-- The elements of a list that are not yet seen, each once, in order. -/
def discover (seen : List α) : List α → List α
  | [] => []
  | y :: ys =>
    if y ∈ seen then discover seen ys else y :: discover (y :: seen) ys

theorem mem_discover {seen ys : List α} {y : α} :
    y ∈ discover seen ys ↔ y ∈ ys ∧ y ∉ seen := by
  induction ys generalizing seen with
  | nil => simp [discover]
  | cons z zs ih =>
    rw [discover]
    split
    next hz =>
      rw [ih, List.mem_cons]
      constructor
      · intro hfacts
        rcases hfacts with ⟨hy, hno⟩
        exact ⟨.inr hy, hno⟩
      · intro hfacts
        rcases hfacts with ⟨rfl | hy, hno⟩
        · exact absurd hz hno
        · exact ⟨hy, hno⟩
    next hz =>
      rw [List.mem_cons, ih, List.mem_cons, List.mem_cons]
      by_cases hy : y = z
      · simp [hy, hz]
      · simp [hy]

theorem nodup_discover (seen ys : List α) : (discover seen ys).Nodup := by
  induction ys generalizing seen with
  | nil => exact List.nodup_nil
  | cons z zs ih =>
    rw [discover]
    split
    · exact ih seen
    · rw [List.nodup_cons]
      refine ⟨?_, ih _⟩
      rw [mem_discover]
      intro hfacts
      rcases hfacts with ⟨_, hno⟩
      exact hno List.mem_cons_self

/-- The number of vertices with an edge to them that are not yet seen. -/
def unseen (edges : List (α × α)) (seen : List α) : Nat :=
  ((edges.map Prod.snd).dedup.filter fun y => y ∉ seen).length

theorem unseen_discover (edges : List (α × α)) (seen : List α) (x : α) :
    unseen edges (seen ++ discover seen (succ edges x)) +
        (discover seen (succ edges x)).length ≤ unseen edges seen := by
  unfold unseen
  rw [← List.length_append]
  apply List.Subperm.length_le
  apply List.subperm_of_subset
  · rw [List.nodup_append]
    refine ⟨(List.nodup_dedup _).filter _, nodup_discover _ _, ?_⟩
    intro y hy z hz heq
    subst heq
    rw [List.mem_filter, decide_eq_true_eq, List.mem_append] at hy
    exact hy.2 (.inr hz)
  · intro y hy
    rw [List.mem_append] at hy
    rw [List.mem_filter, decide_eq_true_eq, List.mem_dedup]
    rcases hy with hy | hy
    · rw [List.mem_filter, decide_eq_true_eq, List.mem_dedup,
        List.mem_append] at hy
      exact ⟨hy.1, fun hseen => hy.2 (.inl hseen)⟩
    · rw [mem_discover, mem_succ] at hy
      exact ⟨List.mem_map_of_mem hy.1, hy.2⟩

/-- The vertices seen from the pending ones, which are a queue. -/
def explore (edges : List (α × α)) (pending seen : List α) : List α :=
  match pending with
  | [] => seen
  | x :: rest =>
    explore edges (rest ++ discover seen (succ edges x))
      (seen ++ discover seen (succ edges x))
termination_by unseen edges seen + pending.length
decreasing_by
  have := unseen_discover edges seen x
  rw [List.length_append, List.length_cons]
  omega

/-- The search ends with everything behind the vertices it has seen, if the
pending ones are those whose edges it has still to follow. -/
theorem mem_explore {edges : List (α × α)} {pending seen : List α} {y : α}
    (hpending : ∀ x ∈ pending, x ∈ seen)
    (hclosed : ∀ x ∈ seen, x ∈ pending ∨ ∀ z, Edge edges x z → z ∈ seen) :
    y ∈ explore edges pending seen ↔
      ∃ x ∈ seen, ReflTransGen (Edge edges) x y := by
  induction pending, seen using explore.induct edges with
  | case1 seen =>
    rw [explore]
    constructor
    · exact fun hy => ⟨y, hy, .refl⟩
    · intro hfacts
      rcases hfacts with ⟨x, hx, hpath⟩
      induction hpath with
      | refl => exact hx
      | tail _ hedge ih =>
        rcases hclosed _ ih with hmem | hsucc
        · cases hmem
        · exact hsucc _ hedge
  | case2 seen x rest ih =>
    rw [explore, ih]
    · constructor
      · intro hfacts
        rcases hfacts with ⟨z, hz, hpath⟩
        rcases List.mem_append.mp hz with hz | hz
        · exact ⟨z, hz, hpath⟩
        · rw [mem_discover, mem_succ] at hz
          exact ⟨x, hpending x List.mem_cons_self, .head hz.1 hpath⟩
      · intro hfacts
        rcases hfacts with ⟨z, hz, hpath⟩
        exact ⟨z, List.mem_append_left _ hz, hpath⟩
    · intro z hz
      rcases List.mem_append.mp hz with hz | hz
      · exact List.mem_append_left _ (hpending z (List.mem_cons_of_mem _ hz))
      · exact List.mem_append_right _ hz
    · intro z hz
      rcases List.mem_append.mp hz with hz | hz
      · rcases hclosed z hz with hz | hsucc
        · rcases List.mem_cons.mp hz with rfl | hz
          · right
            intro w hw
            by_cases hseen : w ∈ seen
            · exact List.mem_append_left _ hseen
            · apply List.mem_append_right
              rw [mem_discover, mem_succ]
              exact ⟨hw, hseen⟩
          · exact .inl (List.mem_append_left _ hz)
        · right
          intro w hw
          exact List.mem_append_left _ (hsucc w hw)
      · exact .inl (List.mem_append_right _ hz)

/-- `explore` collects the vertices on a path from its root. -/
theorem mem_explore_iff {edges : List (α × α)} {root y : α} :
    y ∈ explore edges [root] [root] ↔ ReflTransGen (Edge edges) root y := by
  rw [mem_explore (fun _ hx => hx) (fun _ hx => .inl hx)]
  simp

/-! ## The search for a cycle -/

/-- The state of a vertex in a depth-first search. -/
inductive Color where
  | white
  | grey
  | black
  deriving DecidableEq, Repr

/-- A depth-first visit of `x`, which fails with a vertex on a cycle.  The fuel
bounds the depth of the recursion: every visit in progress has coloured another
vertex. -/
def visit (next : α → List α) : Nat → (α → Color) → α → Except α (α → Color)
  | 0, _, x => .error x
  | fuel + 1, states, x =>
    match states x with
    | .grey => .error x
    | .black => .ok states
    | .white =>
      match (next x).foldlM (visit next fuel)
          (Function.update states x .grey) with
      | .error y => .error y
      | .ok states => .ok (Function.update states x .black)

/-- A visit of each root in turn. -/
def visitAll (next : α → List α) (fuel : Nat) (roots : List α)
    (states : α → Color) : Except α (α → Color) :=
  roots.foldlM (visit next fuel) states

/-- The relation of a successor function, from the far end. -/
def Next (next : α → List α) (y x : α) : Prop := y ∈ next x

/-- What a successful visit leaves behind: vertices are only turned from white
to black, and every black vertex is accessible. -/
structure Progress (next : α → List α) (before after : α → Color) : Prop where
  grey : ∀ y, after y = .grey ↔ before y = .grey
  black : ∀ y, before y = .black → after y = .black
  acc : (∀ y, before y = .black → Acc (Next next) y) →
    ∀ y, after y = .black → Acc (Next next) y

omit [DecidableEq α] in
theorem Progress.refl (next : α → List α) (states : α → Color) :
    Progress next states states :=
  ⟨fun _ => Iff.rfl, fun _ h => h, fun h => h⟩

omit [DecidableEq α] in
theorem Progress.trans {next : α → List α} {a b c : α → Color}
    (h : Progress next a b) (h' : Progress next b c) : Progress next a c where
  grey y := (h'.grey y).trans (h.grey y)
  black y hy := h'.black y (h.black y hy)
  acc hacc := h'.acc (h.acc hacc)

omit [DecidableEq α] in
/-- White vertices only become fewer. -/
theorem Progress.white {next : α → List α} {a b : α → Color}
    (h : Progress next a b) {y : α} (hy : b y = .white) : a y = .white := by
  cases hc : a y with
  | white => rfl
  | grey =>
    rw [(h.grey y).mpr hc] at hy
    cases hy
  | black =>
    rw [h.black y hc] at hy
    cases hy

omit [DecidableEq α] in
/-- A run over a list of vertices, from a statement about one visit. -/
theorem progress_foldlM {next : α → List α}
    {f : (α → Color) → α → Except α (α → Color)}
    (hf : ∀ states x after, f states x = .ok after →
      Progress next states after ∧ after x = .black)
    {xs : List α} {states after : α → Color}
    (h : xs.foldlM f states = .ok after) :
    Progress next states after ∧ ∀ x ∈ xs, after x = .black := by
  induction xs generalizing states with
  | nil =>
    cases h
    exact ⟨Progress.refl next _, by simp⟩
  | cons x xs ih =>
    rw [List.foldlM_cons] at h
    cases hx : f states x with
    | error y =>
      rw [hx] at h
      cases h
    | ok mid =>
      rw [hx] at h
      obtain ⟨hprogress, hblack⟩ := hf _ _ _ hx
      obtain ⟨hprogress', hblack'⟩ := ih h
      refine ⟨hprogress.trans hprogress', ?_⟩
      intro y hy
      rcases List.mem_cons.mp hy with rfl | hy
      · exact hprogress'.black _ hblack
      · exact hblack' y hy

/-- A successful visit blackens its vertex. -/
theorem progress_visit {next : α → List α} {fuel : Nat} {states : α → Color}
    {x : α} {after : α → Color} (h : visit next fuel states x = .ok after) :
    Progress next states after ∧ after x = .black := by
  induction fuel generalizing states x after with
  | zero => cases h
  | succ fuel ih =>
    unfold visit at h
    split at h
    · cases h
    · rename_i hx
      cases h
      exact ⟨Progress.refl next _, hx⟩
    · rename_i hx
      split at h
      · cases h
      · rename_i mid hmid
        cases h
        obtain ⟨hprogress, hblack⟩ :=
          progress_foldlM (fun _ _ _ hv => ih hv) hmid
        refine ⟨⟨?_, ?_, ?_⟩, Function.update_self ..⟩
        · intro y
          by_cases hy : y = x
          · subst hy
            simp [hx]
          · rw [Function.update_of_ne hy, hprogress.grey,
              Function.update_of_ne hy]
        · intro y hy
          by_cases hyx : y = x
          · subst hyx
            exact Function.update_self ..
          · rw [Function.update_of_ne hyx]
            apply hprogress.black
            rw [Function.update_of_ne hyx]
            exact hy
        · intro hacc y hy
          have hmidAcc : ∀ y, mid y = .black → Acc (Next next) y := by
            apply hprogress.acc
            intro z hz
            by_cases hzx : z = x
            · subst hzx
              simp at hz
            · rw [Function.update_of_ne hzx] at hz
              exact hacc z hz
          by_cases hyx : y = x
          · subst hyx
            exact Acc.intro _ fun z hz => hmidAcc z (hblack z hz)
          · rw [Function.update_of_ne hyx] at hy
            exact hmidAcc y hy

/-! ## Enough fuel -/

/-- The number of white vertices of a list. -/
def whites (nodes : List α) (states : α → Color) : Nat :=
  nodes.countP fun x => states x = .white

omit [DecidableEq α] in
theorem whites_le {next : α → List α} (nodes : List α) {a b : α → Color}
    (h : Progress next a b) : whites nodes b ≤ whites nodes a := by
  apply List.countP_mono_left
  intro x _ hx
  simp only [decide_eq_true_eq] at hx ⊢
  exact h.white hx

theorem whites_update_lt {nodes : List α} {states : α → Color} {x : α}
    (hx : x ∈ nodes) (hwhite : states x = .white) :
    whites nodes (Function.update states x .grey) < whites nodes states := by
  unfold whites
  induction nodes with
  | nil => simp at hx
  | cons n ns ih =>
    have hle : ns.countP (fun y =>
        Function.update states x Color.grey y = Color.white) ≤
          ns.countP fun y => states y = Color.white := by
      apply List.countP_mono_left
      intro y _ hy
      simp only [decide_eq_true_eq] at hy ⊢
      by_cases hyx : y = x
      · rw [hyx]
        exact hwhite
      · rwa [Function.update_of_ne hyx] at hy
    simp only [List.countP_cons, decide_eq_true_eq]
    by_cases hn : n = x
    · subst hn
      simp [hwhite]
      omega
    · have hns : x ∈ ns := by
        rcases List.mem_cons.mp hx with h | h
        · exact absurd h.symm hn
        · exact h
      rw [Function.update_of_ne hn]
      have := ih hns
      split <;> omega

/-- The vertices that a search colours grey lead to the visited one. -/
def OnPath (next : α → List α) (states : α → Color) (x : α) : Prop :=
  ∀ g, states g = .grey → TransGen (fun a b => b ∈ next a) g x

omit [DecidableEq α] in
/-- There is no cycle through an accessible vertex. -/
theorem not_transGen_of_acc {next : α → List α} {x : α}
    (h : Acc (Next next) x) : ¬ TransGen (fun a b => b ∈ next a) x x := by
  intro hcycle
  exact not_transGen_self h (transGen_swap.mp hcycle)

/-- A visit of an accessible vertex succeeds, if there is more fuel than there
are white vertices. -/
theorem visit_of_acc {next : α → List α} {nodes : List α}
    (hnodes : ∀ x ∈ nodes, ∀ y ∈ next x, y ∈ nodes) {fuel : Nat}
    {states : α → Color} {x : α} (hx : x ∈ nodes) (hacc : Acc (Next next) x)
    (hpath : OnPath next states x) (hfuel : whites nodes states < fuel) :
    ∃ after, visit next fuel states x = .ok after := by
  induction fuel generalizing states x with
  | zero => omega
  | succ fuel ih =>
    unfold visit
    split
    · rename_i hgrey
      exact absurd (hpath x hgrey) (not_transGen_of_acc hacc)
    · exact ⟨_, rfl⟩
    · rename_i hwhite
      have hlt := whites_update_lt hx hwhite
      -- the successors are visited in turn; the path to each ends in `x`
      have hrun : ∀ (ys : List α) (mid : α → Color), (∀ y ∈ ys, y ∈ next x) →
          Progress next (Function.update states x .grey) mid →
          ∃ after, ys.foldlM (visit next fuel) mid = .ok after := by
        intro ys
        induction ys with
        | nil => exact fun mid _ _ => ⟨mid, rfl⟩
        | cons y ys ihys =>
          intro mid hys hmid
          have hy := hys y List.mem_cons_self
          have hle := whites_le nodes hmid
          have hpathY : OnPath next mid y := by
            intro g hg
            rw [hmid.grey] at hg
            by_cases hgx : g = x
            · rw [hgx]
              exact .single hy
            · rw [Function.update_of_ne hgx] at hg
              exact (hpath g hg).tail hy
          obtain ⟨after, hafter⟩ := ih (hnodes x hx y hy) (hacc.inv hy) hpathY
            (by omega)
          have hprogress := (progress_visit hafter).1
          obtain ⟨final, hfinal⟩ := ihys after
            (fun z hz => hys z (List.mem_cons_of_mem _ hz))
            (hmid.trans hprogress)
          refine ⟨final, ?_⟩
          rw [List.foldlM_cons, hafter]
          exact hfinal
      obtain ⟨after, hafter⟩ := hrun (next x) _ (fun _ h => h)
        (Progress.refl next _)
      rw [hafter]
      exact ⟨_, rfl⟩

/-- The search from white states succeeds exactly if every root is
accessible. -/
theorem visitAll_eq_ok_iff {next : α → List α} {nodes roots : List α}
    (hnodes : ∀ x ∈ nodes, ∀ y ∈ next x, y ∈ nodes)
    (hroots : ∀ r ∈ roots, r ∈ nodes) (fuel : Nat)
    (hfuel : nodes.length < fuel) :
    (∃ after, visitAll next fuel roots (fun _ => .white) = .ok after) ↔
      ∀ r ∈ roots, Acc (Next next) r := by
  constructor
  · rintro ⟨after, h⟩ r hr
    obtain ⟨hprogress, hblack⟩ :=
      progress_foldlM (fun _ _ _ hv => progress_visit hv) h
    exact hprogress.acc (by simp) r (hblack r hr)
  · intro hacc
    have hrun : ∀ (rs : List α) (states : α → Color), (∀ r ∈ rs, r ∈ roots) →
        Progress next (fun _ => .white) states →
        ∃ after, visitAll next fuel rs states = .ok after := by
      intro rs
      induction rs with
      | nil => exact fun states _ _ => ⟨states, rfl⟩
      | cons r rs ih =>
        intro states hrs hstates
        have hr := hrs r List.mem_cons_self
        have hpath : OnPath next states r := by
          intro g hg
          rw [hstates.grey] at hg
          cases hg
        have hle : whites nodes states ≤ nodes.length := List.countP_le_length
        obtain ⟨after, hafter⟩ := visit_of_acc hnodes (hroots r hr) (hacc r hr)
          hpath (lt_of_le_of_lt hle hfuel)
        obtain ⟨final, hfinal⟩ := ih after
          (fun s hs => hrs s (List.mem_cons_of_mem _ hs))
          (hstates.trans (progress_visit hafter).1)
        refine ⟨final, ?_⟩
        unfold visitAll at hfinal ⊢
        rw [List.foldlM_cons, hafter]
        exact hfinal
    exact hrun roots _ (fun _ h => h) (Progress.refl next _)

omit [DecidableEq α] in
/-- In a finite graph without cycles every vertex is accessible. -/
theorem acc_of_acyclic {next : α → List α} {nodes : List α}
    (hnodes : ∀ x, ∀ y ∈ next x, y ∈ nodes)
    (hacyclic : ∀ x, ¬ TransGen (fun a b => b ∈ next a) x x) (x : α) :
    Acc (Next next) x := by
  let r : { y // y ∈ nodes } → { y // y ∈ nodes } → Prop :=
    fun a b => TransGen (fun a b => b ∈ next a) b.1 a.1
  have htrans : IsTrans _ r := ⟨fun a b c hab hbc => hbc.trans hab⟩
  have hirrefl : Std.Irrefl r := ⟨fun a => hacyclic a.1⟩
  have hfinite : Finite { y // y ∈ nodes } := List.finite_toSet nodes
  have hwf : WellFounded r := Finite.wellFounded_of_trans_of_irrefl r
  have hmem : ∀ a : { y // y ∈ nodes }, Acc (Next next) a.1 := by
    intro a
    induction a using hwf.induction with
    | _ a ih =>
      apply Acc.intro
      intro y hy
      exact ih ⟨y, hnodes a.1 y hy⟩ (.single hy)
  exact Acc.intro _ fun y hy => hmem ⟨y, hnodes x y hy⟩

end Digraph
