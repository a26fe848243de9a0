import Mathlib.Data.List.Basic
import Mathlib.Tactic.Common

/-!
# Checks and effects that may fail

Two small layers for code that returns early.

* `rejectIf c e` is `if c { return Err(e) }` in the `Except` monad, and
  `bind_eq_ok` and `rejectIf_eq_ok` read a successful chain of checks as a
  conjunction of facts.
* `Effect ε σ α` is a state-passing computation that may fail.  A failure keeps
  the state it was raised in, as a Rust function that returns `Err` keeps what
  it already did to its `&mut` argument.

`query` runs a read-only function of the state.  The lemmas below evaluate a
chain of effects one bind at a time, from the result of its first step.
-/

section Except

variable {ε α β : Type}

/-- `if c { return Err(e) }`. -/
def rejectIf (c : Prop) [Decidable c] (e : ε) : Except ε Unit :=
  if c then .error e else .ok ()

@[simp] theorem rejectIf_eq_ok {c : Prop} [Decidable c] {e : ε} {u : Unit} :
    rejectIf c e = .ok u ↔ ¬ c := by
  unfold rejectIf
  split <;> simp_all

theorem rejectIf_of_not {c : Prop} [Decidable c] {e : ε} (h : ¬ c) :
    rejectIf c e = .ok () := by
  rw [rejectIf, if_neg h]

theorem rejectIf_of {c : Prop} [Decidable c] {e : ε} (h : c) :
    rejectIf c e = .error e := by
  rw [rejectIf, if_pos h]

namespace Except

@[simp] theorem bind_eq_ok {x : Except ε α} {f : α → Except ε β} {b : β} :
    (x >>= f) = .ok b ↔ ∃ a, x = .ok a ∧ f a = .ok b := by
  cases x with
  | error e => simp [bind, Except.bind]
  | ok a => simp [bind, Except.bind]

@[simp] theorem ok_bind (a : α) (f : α → Except ε β) :
    ((.ok a : Except ε α) >>= f) = f a := rfl

@[simp] theorem error_bind (e : ε) (f : α → Except ε β) :
    ((.error e : Except ε α) >>= f) = .error e := rfl

@[simp] theorem pure_eq_ok (a : α) : (pure a : Except ε α) = .ok a := rfl

@[simp] theorem map_eq_ok {x : Except ε α} {f : α → β} {b : β} :
    x.map f = .ok b ↔ ∃ a, x = .ok a ∧ f a = b := by
  cases x <;> simp [Except.map]

/-- What follows matters only for the value that the first step returns. -/
theorem bind_congr_of_ok {x : Except ε α} {f g : α → Except ε β}
    (h : ∀ a, x = .ok a → f a = g a) : (x >>= f) = (x >>= g) := by
  cases x with
  | error e => rfl
  | ok a => exact h a rfl

/-- A branch that fails is not taken. -/
theorem dite_eq_ok {c : Prop} [Decidable c] {e : ε} {f : ¬ c → Except ε α}
    {a : α} : (if h : c then .error e else f h) = .ok a ↔
      ∃ h : ¬ c, f h = .ok a := by
  by_cases h : c
  · rw [dif_pos h]
    exact ⟨nofun, fun hf => absurd h hf.1⟩
  · rw [dif_neg h]
    exact ⟨fun hf => ⟨h, hf⟩, fun hf => hf.2⟩

/-- A loop whose invariant, over what is left of the list, lets every step
succeed. -/
theorem foldlM_of_rest {f : β → α → Except ε β} (inv : List α → β → Prop)
    (hstep : ∀ a as b, inv (a :: as) b → ∃ b', f b a = .ok b' ∧ inv as b')
    (as : List α) (b : β) (h : inv as b) :
    ∃ b', as.foldlM f b = .ok b' ∧ inv [] b' := by
  induction as generalizing b with
  | nil => exact ⟨b, rfl, h⟩
  | cons a as ih =>
    obtain ⟨mid, hmid, hrest⟩ := hstep a as b h
    rw [List.foldlM_cons, hmid, ok_bind]
    exact ih mid hrest

/-- A loop of checks that all succeed. -/
theorem forM_of_forall {f : α → Except ε Unit} {as : List α}
    (h : ∀ a ∈ as, f a = .ok ()) : as.forM f = .ok () := by
  induction as with
  | nil => rfl
  | cons a as ih =>
    rw [List.forM, h a List.mem_cons_self, ok_bind]
    exact ih fun x hx => h x (List.mem_cons_of_mem a hx)

/-- A loop of checks succeeds when all of them do. -/
theorem forM_eq_ok {f : α → Except ε Unit} {as : List α} :
    as.forM f = .ok () ↔ ∀ a ∈ as, f a = .ok () := by
  refine ⟨?_, forM_of_forall⟩
  intro h
  induction as with
  | nil => exact List.forall_mem_nil _
  | cons a as ih =>
    rw [List.forM, bind_eq_ok] at h
    obtain ⟨_, ha, h⟩ := h
    exact List.forall_mem_cons.mpr ⟨ha, ih h⟩

/-- A loop whose steps commute with a map of its variables. -/
theorem foldlM_commute {f : β → α → Except ε β} (g : β → β)
    (hstep : ∀ b a, f (g b) a = (f b a).map g) (as : List α) (b : β) :
    as.foldlM f (g b) = (as.foldlM f b).map g := by
  induction as generalizing b with
  | nil => rfl
  | cons a as ih =>
    rw [List.foldlM_cons, List.foldlM_cons, hstep]
    cases f b a with
    | error e => rfl
    | ok b' => exact ih b'

@[simp] theorem toOption_eq_some {x : Except ε α} {a : α} :
    x.toOption = some a ↔ x = .ok a := by
  cases x <;> simp [Except.toOption]

/-- Whether a loop ends, and in what, without its errors. -/
theorem toOption_foldlM (f : β → α → Except ε β) (as : List α) (b : β) :
    (as.foldlM f b).toOption = as.foldlM (fun b a => (f b a).toOption) b := by
  induction as generalizing b with
  | nil => rfl
  | cons a as ih =>
    rw [List.foldlM_cons, List.foldlM_cons]
    cases f b a with
    | error e => rfl
    | ok b' => exact ih b'

/-- A loop that does what another one does, up to a projection of its
variables. -/
theorem foldlM_project {γ : Type} {f : β → α → Except ε β}
    {g : γ → α → Option γ} (proj : β → γ)
    (hstep : ∀ b a, (f b a).toOption.map proj = g (proj b) a)
    (as : List α) (b : β) :
    (as.foldlM f b).toOption.map proj = as.foldlM g (proj b) := by
  rw [toOption_foldlM]
  induction as generalizing b with
  | nil => rfl
  | cons a as ih =>
    rw [List.foldlM_cons, List.foldlM_cons, ← hstep]
    cases f b a with
    | error e => rfl
    | ok b' => exact ih b'

/-- `map_err`: a new error for every failure. -/
def mapErr (g : ε → ε) (x : Except ε α) : Except ε α := x.mapError g

@[simp] theorem mapErr_eq_ok {g : ε → ε} {x : Except ε α} {a : α} :
    mapErr g x = .ok a ↔ x = .ok a := by
  cases x <;> simp [mapErr, Except.mapError]

@[simp] theorem mapErr_ok {g : ε → ε} {a : α} :
    mapErr g (.ok a) = (.ok a : Except ε α) := rfl

end Except

/-- `ok_or`: the value of an option, or an error. -/
def okOr (x : Option α) (e : ε) : Except ε α :=
  match x with
  | some a => .ok a
  | none => .error e

@[simp] theorem okOr_eq_ok {x : Option α} {e : ε} {a : α} :
    okOr x e = .ok a ↔ x = some a := by
  cases x <;> simp [okOr]

@[simp] theorem okOr_some {e : ε} {a : α} :
    okOr (some a) e = (.ok a : Except ε α) := rfl

end Except

/-- A computation over the state `σ` that may fail with `ε`. -/
def Effect (ε σ α : Type) : Type := σ → Except ε α × σ

namespace Effect

variable {ε σ α β γ : Type}

instance : Monad (Effect ε σ) where
  pure a := fun s => (.ok a, s)
  bind x f := fun s =>
    match x s with
    | (.ok a, s') => f a s'
    | (.error e, s') => (.error e, s')

/-- Fail without touching the state. -/
def fail (e : ε) : Effect ε σ α := fun s => (.error e, s)

/-- A check that does not depend on the state. -/
def lift (x : Except ε α) : Effect ε σ α := fun s => (x, s)

/-- A read-only function of the state. -/
def query (f : σ → Except ε α) : Effect ε σ α := fun s => (f s, s)

/-- An assignment to the state. -/
def modify (f : σ → σ) : Effect ε σ Unit := fun s => (.ok (), f s)

instance : MonadLift (Except ε) (Effect ε σ) := ⟨lift⟩

/-- Run an effect for each element, in order. -/
def forEach (f : α → Effect ε σ Unit) : List α → Effect ε σ Unit
  | [] => pure ()
  | a :: as => do
    f a
    forEach f as

@[simp] theorem pure_apply (a : α) (s : σ) :
    (pure a : Effect ε σ α) s = (.ok a, s) := rfl

@[simp] theorem lift_apply (x : Except ε α) (s : σ) :
    (lift x : Effect ε σ α) s = (x, s) := rfl

@[simp] theorem monadLift_apply (x : Except ε α) (s : σ) :
    (MonadLift.monadLift x : Effect ε σ α) s = (x, s) := rfl

@[simp] theorem liftM_apply (x : Except ε α) (s : σ) :
    (liftM x : Effect ε σ α) s = (x, s) := rfl

@[simp] theorem query_apply (f : σ → Except ε α) (s : σ) :
    (query f : Effect ε σ α) s = (f s, s) := rfl

@[simp] theorem modify_apply (f : σ → σ) (s : σ) :
    (modify f : Effect ε σ Unit) s = (.ok (), f s) := rfl

@[simp] theorem fail_apply (e : ε) (s : σ) :
    (fail e : Effect ε σ α) s = (.error e, s) := rfl

/-- A bind whose first step succeeds. -/
theorem bind_of_ok {x : Effect ε σ α} {f : α → Effect ε σ β} {s s' : σ} {a : α}
    (h : x s = (.ok a, s')) : (x >>= f) s = f a s' := by
  simp only [bind, h]

/-- A bind whose first step fails. -/
theorem bind_of_error {x : Effect ε σ α} {f : α → Effect ε σ β} {s s' : σ}
    {e : ε} (h : x s = (.error e, s')) : (x >>= f) s = (.error e, s') := by
  simp only [bind, h]

/-- The two ways a bind may go. -/
theorem bind_apply (x : Effect ε σ α) (f : α → Effect ε σ β) (s : σ) :
    (x >>= f) s =
      match x s with
      | (.ok a, s') => f a s'
      | (.error e, s') => (.error e, s') := rfl

/-- A check that does not depend on the state, then the rest. -/
theorem lift_bind (x : Except ε α) (f : α → Effect ε σ β) (s : σ) :
    (liftM x >>= f : Effect ε σ β) s =
      match x with
      | .ok a => f a s
      | .error e => (.error e, s) := by
  cases x <;> rfl

/-- A read, then the rest. -/
theorem query_bind (q : σ → Except ε α) (f : α → Effect ε σ β) (s : σ) :
    (query q >>= f) s =
      match q s with
      | .ok a => f a s
      | .error e => (.error e, s) := by
  rw [bind_apply, query_apply]
  cases q s <;> rfl

/-- A read that succeeds, then the rest. -/
theorem query_bind_of_ok {q : σ → Except ε α} {f : α → Effect ε σ β} {s : σ}
    {a : α} (h : q s = .ok a) : (query q >>= f) s = f a s := by
  rw [query_bind, h]

/-- An assignment, then the rest. -/
theorem modify_bind (f : σ → σ) (g : Unit → Effect ε σ β) (s : σ) :
    (modify f >>= g) s = g () (f s) := rfl

/-- A check that succeeds, then the rest. -/
theorem lift_bind_of_ok {x : Except ε α} {f : α → Effect ε σ β} {s : σ} {a : α}
    (h : x = .ok a) : (liftM x >>= f : Effect ε σ β) s = f a s := by
  rw [lift_bind, h]

/-- What a successful bind did. -/
theorem bind_eq_ok_iff {x : Effect ε σ α} {f : α → Effect ε σ β} {s s' : σ}
    {b : β} :
    (x >>= f) s = (.ok b, s') ↔
      ∃ a t, x s = (.ok a, t) ∧ f a t = (.ok b, s') := by
  rw [bind_apply]
  rcases hx : x s with ⟨_ | a, t⟩
  · simp
  · constructor
    · exact fun h => ⟨a, t, rfl, h⟩
    · intro hfacts
      rcases hfacts with ⟨a', t', ha, h⟩
      simp only [Prod.mk.injEq, Except.ok.injEq] at ha
      obtain ⟨rfl, rfl⟩ := ha
      exact h

@[simp] theorem forEach_nil (f : α → Effect ε σ Unit) :
    forEach f [] = pure () := rfl

@[simp] theorem forEach_cons (f : α → Effect ε σ Unit) (a : α) (as : List α) :
    forEach f (a :: as) = (do f a; forEach f as) := rfl

theorem bind_assoc {γ : Type} (x : Effect ε σ α) (f : α → Effect ε σ β)
    (g : β → Effect ε σ γ) :
    x >>= f >>= g = x >>= fun a => f a >>= g := by
  funext s
  rw [bind_apply, bind_apply, bind_apply]
  rcases x s with ⟨e | a, s'⟩ <;> rfl

/-- Two parts that leave the state alone. -/
theorem bind_snd_of_unchanged {x : Effect ε σ α} {f : α → Effect ε σ β} {s : σ}
    (hx : (x s).2 = s) (hf : ∀ a, (f a s).2 = s) : ((x >>= f) s).2 = s := by
  rw [bind_apply]
  rcases hrun : x s with ⟨e | a, s'⟩
  · rw [hrun] at hx
    exact hx
  · rw [hrun] at hx
    obtain rfl : s' = s := hx
    exact hf a

/-! ## Steps that fail without a trace -/

/-- From `s`, the step fails and leaves the state alone, or it ends with a
result and a state that `post` accepts. -/
def Atomic (x : Effect ε σ α) (s : σ) (post : α → σ → Prop) : Prop :=
  (∃ e, x s = (.error e, s)) ∨ ∃ a s', x s = (.ok a, s') ∧ post a s'

section Atomic

variable {s : σ} {post : β → σ → Prop}

theorem atomic_pure {a : α} {post : α → σ → Prop} (h : post a s) :
    Atomic (pure a : Effect ε σ α) s post :=
  .inr ⟨a, s, rfl, h⟩

theorem atomic_lift_error {e : ε} {post : α → σ → Prop} :
    Atomic (liftM (.error e : Except ε α) : Effect ε σ α) s post :=
  .inl ⟨e, rfl⟩

/-- A check, then an atomic rest. -/
theorem atomic_lift_bind {x : Except ε α} {f : α → Effect ε σ β}
    (h : ∀ a, x = .ok a → Atomic (f a) s post) :
    Atomic (liftM x >>= f) s post := by
  cases x with
  | error e => exact .inl ⟨e, rfl⟩
  | ok a =>
    have heq : (liftM (.ok a : Except ε α) >>= f : Effect ε σ β) s = f a s :=
      rfl
    unfold Atomic
    rw [heq]
    exact h a rfl

/-- A read, then an atomic rest. -/
theorem atomic_query_bind {q : σ → Except ε α} {f : α → Effect ε σ β}
    (h : ∀ a, q s = .ok a → Atomic (f a) s post) :
    Atomic (query q >>= f) s post := by
  unfold Atomic
  rw [query_bind]
  cases hq : q s with
  | error e => exact .inl ⟨e, rfl⟩
  | ok a => exact h a hq

/-- A read of which the value is known, then an atomic rest. -/
theorem atomic_query_bind_of_ok {q : σ → Except ε α} {f : α → Effect ε σ β}
    {a : α} (hq : q s = .ok a) (h : Atomic (f a) s post) :
    Atomic (query q >>= f) s post := by
  apply atomic_query_bind
  intro b hb
  rw [hq, Except.ok.injEq] at hb
  rw [← hb]
  exact h

/-- A step that finds nothing to do, then an atomic rest. -/
theorem atomic_bind_of_ok {x : Effect ε σ α} {f : α → Effect ε σ β} {a : α}
    (hx : x s = (.ok a, s)) (h : Atomic (f a) s post) :
    Atomic (x >>= f) s post := by
  unfold Atomic
  rw [bind_of_ok hx]
  exact h

/-- An atomic step, then one that always succeeds. -/
theorem Atomic.bind {x : Effect ε σ α} {f : α → Effect ε σ β}
    {mid : α → σ → Prop} (hx : Atomic x s mid)
    (hf : ∀ a s', mid a s' → ∃ b s'', f a s' = (.ok b, s'') ∧ post b s'') :
    Atomic (x >>= f) s post := by
  rcases hx with ⟨e, he⟩ | ⟨a, s', ha, hmid⟩
  · exact .inl ⟨e, bind_of_error he⟩
  · obtain ⟨b, s'', hb, hpost⟩ := hf a s' hmid
    exact .inr ⟨b, s'', (bind_of_ok ha).trans hb, hpost⟩

/-- A step that changes nothing, then an atomic rest. -/
theorem Atomic.bind_unchanged {x : Effect ε σ α} {f : α → Effect ε σ β}
    {good : α → Prop} (hx : Atomic x s fun a s' => s' = s ∧ good a)
    (hf : ∀ a, good a → Atomic (f a) s post) : Atomic (x >>= f) s post := by
  rcases hx with ⟨e, he⟩ | ⟨a, s', ha, rfl, hgood⟩
  · exact .inl ⟨e, bind_of_error he⟩
  · exact atomic_bind_of_ok ha (hf a hgood)

theorem Atomic.mono {x : Effect ε σ α} {post post' : α → σ → Prop}
    (h : Atomic x s post) (hpost : ∀ a s', post a s' → post' a s') :
    Atomic x s post' := by
  rcases h with herr | ⟨a, s', ha, hp⟩
  · exact .inl herr
  · exact .inr ⟨a, s', ha, hpost a s' hp⟩

/-- A step whose result does not count. -/
def ignore (x : Effect ε σ α) : Effect ε σ Unit := do
  let _ ← x
  pure ()

theorem ignore_bind (x : Effect ε σ α) (f : α → Effect ε σ β) :
    ignore (x >>= f) = x >>= fun a => ignore (f a) := by
  funext s
  rw [ignore, bind_apply, bind_apply, bind_apply]
  rcases x s with ⟨e | a, s'⟩ <;> rfl

theorem Atomic.ignore {x : Effect ε σ α} {post : α → σ → Prop}
    (h : Atomic x s post) : Atomic (ignore x) s fun _ s' => ∃ a, post a s' := by
  apply h.bind
  intro a s' hpost
  exact ⟨(), s', rfl, a, hpost⟩

theorem Atomic.ignored {x : Effect ε σ α} {P : σ → Prop}
    (h : Atomic x s fun _ s' => P s') : Atomic (Effect.ignore x) s fun _ s' => P s' := by
  apply h.ignore.mono
  rintro _ s' ⟨_, hpost⟩
  exact hpost

/-- What a successful atomic step leaves. -/
theorem Atomic.of_ok {x : Effect ε σ α} {post : α → σ → Prop}
    (h : Atomic x s post) {a : α} {s' : σ} (ha : x s = (.ok a, s')) :
    post a s' := by
  rcases h with ⟨e, he⟩ | ⟨b, t, hb, hp⟩
  · rw [ha] at he
    cases he
  · rw [ha] at hb
    cases hb
    exact hp

/-- A failed atomic step changes nothing. -/
theorem Atomic.of_error {x : Effect ε σ α} {post : α → σ → Prop}
    (h : Atomic x s post) {e : ε} (he : (x s).1 = .error e) :
    (x s).2 = s := by
  rcases h with ⟨e', he'⟩ | ⟨b, t, hb, _⟩
  · rw [he']
  · rw [hb] at he
    cases he

end Atomic

end Effect
