import Mathlib.Data.List.Basic

/-!
# Runs of calls that a failure may cut

A machine with states `σ` takes calls from `κ` and replies with `ρ`.  A call is
acknowledged with a reply, it is rejected, or a failure of the power cuts it
short.  `Refines` says what each of the three may do to an abstract state: an
acknowledged call does what its specification says, with its reply, a rejected
one does nothing, and one that is cut does either.

`Refines.run` lifts this from one call to a run, by induction on the run: the
calls that took effect, in their order and with their replies, are a run of the
specification.  `TookEffect` says which calls these may be, and
`Specified.keeps` carries a property along a run of the specification.
-/

namespace CallRun

variable {σ τ κ ρ : Type}

/-- How a call ends. -/
inductive Ending (ρ : Type) where
  | acknowledged (r : ρ)
  | rejected
  | cut

/-- A machine, by what a call with each of the three endings may do. -/
structure Machine (σ κ ρ : Type) where
  acknowledged : κ → ρ → σ → σ → Prop
  rejected : κ → σ → σ → Prop
  cut : κ → σ → σ → Prop

/-- One call with its ending. -/
def Machine.Step (m : Machine σ κ ρ) : κ × Ending ρ → σ → σ → Prop
  | (k, .acknowledged r) => m.acknowledged k r
  | (k, .rejected) => m.rejected k
  | (k, .cut) => m.cut k

/-- Calls with their endings, one after the other. -/
inductive Machine.Run (m : Machine σ κ ρ) :
    List (κ × Ending ρ) → σ → σ → Prop where
  | nil (s : σ) : Run m [] s s
  | cons {e : κ × Ending ρ} {es : List (κ × Ending ρ)} {s t u : σ}
      (h : m.Step e s t) (hrest : Run m es t u) : Run m (e :: es) s u

/-- The calls `ks` are the ones of a run that took effect, with their replies:
all that were acknowledged, none that was rejected, and some of those that were
cut. -/
inductive TookEffect : List (κ × Ending ρ) → List (κ × ρ) → Prop where
  | nil : TookEffect [] []
  | acknowledged {k : κ} {r : ρ} {es : List (κ × Ending ρ)}
      {ks : List (κ × ρ)} (h : TookEffect es ks) :
      TookEffect ((k, .acknowledged r) :: es) ((k, r) :: ks)
  | rejected {k : κ} {es : List (κ × Ending ρ)} {ks : List (κ × ρ)}
      (h : TookEffect es ks) : TookEffect ((k, .rejected) :: es) ks
  | lost {k : κ} {es : List (κ × Ending ρ)} {ks : List (κ × ρ)}
      (h : TookEffect es ks) : TookEffect ((k, .cut) :: es) ks
  | kept {k : κ} {r : ρ} {es : List (κ × Ending ρ)} {ks : List (κ × ρ)}
      (h : TookEffect es ks) : TookEffect ((k, .cut) :: es) ((k, r) :: ks)

/-- Nothing takes effect that was not called, and in no other order. -/
theorem TookEffect.sublist {es : List (κ × Ending ρ)} {ks : List (κ × ρ)}
    (h : TookEffect es ks) : (ks.map Prod.fst).Sublist (es.map Prod.fst) := by
  induction h with
  | nil => exact List.Sublist.slnil
  | acknowledged _ ih => exact ih.cons_cons _
  | rejected _ ih => exact ih.cons _
  | lost _ ih => exact ih.cons _
  | kept _ ih => exact ih.cons_cons _

/-- The abstract states that a list of calls with replies leads through. -/
inductive Specified (spec : κ → ρ → τ → τ → Prop) :
    List (κ × ρ) → τ → τ → Prop where
  | nil (t : τ) : Specified spec [] t t
  | cons {k : κ} {r : ρ} {ks : List (κ × ρ)} {t u v : τ} (h : spec k r t u)
      (hrest : Specified spec ks u v) : Specified spec ((k, r) :: ks) t v

section Specified

variable {spec : κ → ρ → τ → τ → Prop} {ks : List (κ × ρ)} {t t' : τ}

/-- What each of the calls keeps, the run keeps. -/
theorem Specified.keeps {P : τ → Prop} (h : Specified spec ks t t')
    (hstep : ∀ k r, (k, r) ∈ ks → ∀ u u', spec k r u u' → P u → P u')
    (ht : P t) : P t' := by
  induction h with
  | nil => exact ht
  | cons hfirst _ ih =>
    apply ih fun k r hk => hstep k r (List.mem_cons_of_mem _ hk)
    exact hstep _ _ List.mem_cons_self _ _ hfirst ht

end Specified

/-- The machine refines the specification under the relation `R`. -/
structure Refines (m : Machine σ κ ρ) (spec : κ → ρ → τ → τ → Prop)
    (R : σ → τ → Prop) : Prop where
  acknowledged : ∀ {k r s s' t}, R s t → m.acknowledged k r s s' →
    ∃ t', spec k r t t' ∧ R s' t'
  rejected : ∀ {k s s' t}, R s t → m.rejected k s s' → R s' t
  cut : ∀ {k s s' t}, R s t → m.cut k s s' →
    R s' t ∨ ∃ r t', spec k r t t' ∧ R s' t'

/-- **Refinement of runs**: what a run leaves is what the calls that took effect
leave of the abstract state, and their replies are those of the
specification. -/
theorem Refines.run {m : Machine σ κ ρ} {spec : κ → ρ → τ → τ → Prop}
    {R : σ → τ → Prop} (h : Refines m spec R) {es : List (κ × Ending ρ)}
    {s s' : σ} {t : τ} (hrun : m.Run es s s') (ht : R s t) :
    ∃ ks t', TookEffect es ks ∧ Specified spec ks t t' ∧ R s' t' := by
  induction hrun generalizing t with
  | nil s => exact ⟨[], t, .nil, .nil t, ht⟩
  | @cons e es s u s' hstep _ ih =>
    obtain ⟨k, ending⟩ := e
    -- the call took effect, or the abstract state is the one of before
    have hdone : ∀ r u', spec k r t u' → R u u' → ∃ ks t',
        TookEffect es ks ∧ Specified spec ((k, r) :: ks) t t' ∧ R s' t' := by
      intro r u' hspec hu'
      obtain ⟨ks, t', htook, hrest, hfinal⟩ := ih hu'
      exact ⟨ks, t', htook, .cons hspec hrest, hfinal⟩
    cases ending with
    | acknowledged r =>
      obtain ⟨u', hspec, hu'⟩ := h.acknowledged ht hstep
      obtain ⟨ks, t', htook, hrest, hfinal⟩ := hdone r u' hspec hu'
      exact ⟨(k, r) :: ks, t', htook.acknowledged, hrest, hfinal⟩
    | rejected =>
      obtain ⟨ks, t', htook, hrest, hfinal⟩ := ih (h.rejected ht hstep)
      exact ⟨ks, t', htook.rejected, hrest, hfinal⟩
    | cut =>
      rcases h.cut ht hstep with hsame | ⟨r, u', hspec, hu'⟩
      · obtain ⟨ks, t', htook, hrest, hfinal⟩ := ih hsame
        exact ⟨ks, t', htook.lost, hrest, hfinal⟩
      · obtain ⟨ks, t', htook, hrest, hfinal⟩ := hdone r u' hspec hu'
        exact ⟨(k, r) :: ks, t', htook.kept, hrest, hfinal⟩

end CallRun
