import FilesystemLab.Lib.Effect

/-!
# Pre- and postconditions of effects

`Triple pre x post failed` says what a computation that may fail does from a
state with `pre`: it ends with a result and a state that `post` accepts, or it
fails in a state that `failed` accepts.  Every computation here ends, so a
triple is total.

There is one rule for each way to build an effect.  A state invariant is a
triple whose three assertions agree on it.
-/

namespace Effect

variable {ε σ α β : Type}

/-- From a state with `pre`, `x` ends in `post` or fails in `failed`. -/
def Triple (pre : σ → Prop) (x : Effect ε σ α) (post : α → σ → Prop)
    (failed : σ → Prop) : Prop :=
  ∀ s, pre s → (∀ a s', x s = (.ok a, s') → post a s') ∧
    ∀ e s', x s = (.error e, s') → failed s'

namespace Triple

variable {pre pre' failed : σ → Prop} {x : Effect ε σ α} {post : α → σ → Prop}

/-- A triple from its two outcomes. -/
theorem of_apply (h : ∀ s, pre s → (∃ a s', x s = (.ok a, s') ∧ post a s') ∨
    ∃ e s', x s = (.error e, s') ∧ failed s') : Triple pre x post failed := by
  intro s hs
  rcases h s hs with ⟨a, s', hx, hpost⟩ | ⟨e, s', hx, hfailed⟩
  · constructor
    · intro b t hb
      rw [hx] at hb
      cases hb
      exact hpost
    · intro e t he
      rw [hx] at he
      cases he
  · constructor
    · intro b t hb
      rw [hx] at hb
      cases hb
    · intro e' t he
      rw [hx] at he
      cases he
      exact hfailed

theorem pure {a : α} (h : ∀ s, pre s → post a s) :
    Triple pre (Pure.pure a : Effect ε σ α) post failed :=
  of_apply fun s hs => .inl ⟨a, s, rfl, h s hs⟩

/-- A check that does not depend on the state. -/
theorem lift {c : Except ε α} (hpost : ∀ s, pre s → ∀ a, c = .ok a → post a s)
    (hfailed : ∀ s, pre s → failed s) :
    Triple pre (Effect.lift c) post failed := by
  apply of_apply
  intro s hs
  cases c with
  | error e => exact .inr ⟨e, s, rfl, hfailed s hs⟩
  | ok a => exact .inl ⟨a, s, rfl, hpost s hs a rfl⟩

/-- A read-only function of the state. -/
theorem query {q : σ → Except ε α}
    (hpost : ∀ s, pre s → ∀ a, q s = .ok a → post a s)
    (hfailed : ∀ s, pre s → failed s) :
    Triple pre (Effect.query q) post failed := by
  apply of_apply
  intro s hs
  cases hq : q s with
  | error e => exact .inr ⟨e, s, by rw [query_apply, hq], hfailed s hs⟩
  | ok a => exact .inl ⟨a, s, by rw [query_apply, hq], hpost s hs a hq⟩

/-- Sequencing, with the assertion between the two computations. -/
theorem bind {f : α → Effect ε σ β} {post : β → σ → Prop} (mid : α → σ → Prop)
    (hx : Triple pre x mid failed)
    (hf : ∀ a, Triple (mid a) (f a) post failed) :
    Triple pre (x >>= f) post failed := by
  intro s hs
  obtain ⟨hok, herr⟩ := hx s hs
  rw [bind_apply]
  rcases hstep : x s with ⟨e | a, t⟩
  · constructor
    · intro b s' h
      cases h
    · intro e' s' h
      cases h
      exact herr e t hstep
  · exact hf a t (hok a t hstep)

theorem mono {post' : α → σ → Prop} (h : Triple pre x post failed)
    (hpre : ∀ s, pre' s → pre s) (hpost : ∀ a s, post a s → post' a s) :
    Triple pre' x post' failed := by
  intro s hs
  obtain ⟨hok, herr⟩ := h s (hpre s hs)
  exact ⟨fun a s' ha => hpost a s' (hok a s' ha), herr⟩

/-- An invariant holds in whatever state the computation ends. -/
theorem keeps {inv : σ → Prop} (h : Triple inv x (fun _ => inv) inv) {s : σ}
    (hs : inv s) : inv (x s).2 := by
  obtain ⟨hok, herr⟩ := h s hs
  rcases hx : x s with ⟨e | a, t⟩
  · exact herr e t hx
  · exact hok a t hx

/-- A loop with an invariant that knows which elements are left. -/
theorem forEach {f : α → Effect ε σ Unit} (inv : List α → σ → Prop)
    (h : ∀ a as, Triple (inv (a :: as)) (f a) (fun _ => inv as) failed)
    (as : List α) :
    Triple (inv as) (Effect.forEach f as) (fun _ => inv []) failed := by
  induction as with
  | nil => exact pure fun _ hs => hs
  | cons a as ih => exact bind _ (h a as) fun _ => ih

end Triple

end Effect
