import FilesystemLab.Lib.Effect

/-!
# Code that may panic

`Abort ε` is how code ends that does not return a value: with an error of type
`ε`, or in a panic, as an index out of bounds does.  `Abort.lift` and
`Effect.abortable` take code that only returns errors into code that may panic.

`NoPanic` says that a computation does not end in a panic.  There is one rule
for each way to build a computation.
-/

/-- An error that is returned, or a panic. -/
inductive Abort (ε : Type) where
  | error (e : ε)
  | panic

section Except

variable {ε α β : Type}

/-- Code that does not panic. -/
def Abort.lift (x : Except ε α) : Except (Abort ε) α := x.mapError Abort.error

/-- `xs[i]`. -/
def indexOrPanic (xs : List α) (i : Nat) : Except (Abort ε) α :=
  okOr xs[i]? .panic

@[simp] theorem Abort.lift_eq_ok {x : Except ε α} {a : α} :
    Abort.lift x = .ok a ↔ x = .ok a := by
  cases x <;> simp [Abort.lift, Except.mapError]

theorem Abort.lift_bind (x : Except ε α) (f : α → Except ε β) :
    Abort.lift (x >>= f) = Abort.lift x >>= fun a => Abort.lift (f a) := by
  cases x <;> rfl

theorem Abort.lift_rejectIf (c : Prop) [Decidable c] (e : ε) :
    Abort.lift (rejectIf c e) = rejectIf c (Abort.error e) := by
  unfold rejectIf
  split <;> rfl

/-- A computation that does not end in a panic. -/
def NoPanic (x : Except (Abort ε) α) : Prop := x ≠ .error .panic

theorem noPanic_ok (a : α) : NoPanic (.ok a : Except (Abort ε) α) := by
  intro h
  cases h

theorem noPanic_lift (x : Except ε α) : NoPanic (Abort.lift x) := by
  cases x with
  | error e =>
    intro h
    cases h
  | ok a => exact noPanic_ok a

theorem noPanic_okOr (x : Option α) (e : ε) :
    NoPanic (okOr x (Abort.error e)) := by
  cases x with
  | none =>
    intro h
    cases h
  | some a => exact noPanic_ok a

theorem noPanic_rejectIf (c : Prop) [Decidable c] (e : ε) :
    NoPanic (rejectIf c (Abort.error e)) := by
  unfold rejectIf
  split
  · intro h
    cases h
  · exact noPanic_ok ()

theorem noPanic_index {xs : List α} {i : Nat} (h : i < xs.length) :
    NoPanic (indexOrPanic xs i : Except (Abort ε) α) := by
  rw [indexOrPanic, List.getElem?_eq_getElem h]
  exact noPanic_ok _

theorem NoPanic.bind {x : Except (Abort ε) α} {f : α → Except (Abort ε) β}
    (hx : NoPanic x) (hf : ∀ a, x = .ok a → NoPanic (f a)) :
    NoPanic (x >>= f) := by
  cases x with
  | error e =>
    intro h
    apply hx
    cases h
    rfl
  | ok a => exact hf a rfl

end Except

namespace Effect

variable {ε σ α β : Type}

/-- An effect that does not panic. -/
def abortable (x : Effect ε σ α) : Effect (Abort ε) σ α :=
  fun s => (Abort.lift (x s).1, (x s).2)

theorem abortable_bind (x : Effect ε σ α) (f : α → Effect ε σ β) :
    abortable (x >>= f) = abortable x >>= fun a => abortable (f a) := by
  funext s
  rw [abortable, bind_apply, bind_apply, abortable]
  rcases x s with ⟨e | a, s'⟩ <;> rfl

/-- A check that fails, or the rest. -/
theorem abortable_lift_bind (r : Except ε α) (f : α → Effect ε σ β) :
    abortable (liftM r >>= f) =
      liftM (Abort.lift r) >>= fun a => abortable (f a) := by
  funext s
  cases r <;> rfl

/-- An effect that does not panic in any state. -/
def NoPanic (x : Effect (Abort ε) σ α) : Prop := ∀ s, (x s).1 ≠ .error .panic

theorem Atomic.abortable {x : Effect ε σ α} {s : σ} {post : α → σ → Prop}
    (h : Atomic x s post) : Atomic (abortable x) s post := by
  rcases h with ⟨e, he⟩ | ⟨a, s', ha, hpost⟩
  · exact .inl ⟨.error e, by rw [Effect.abortable, he]; rfl⟩
  · exact .inr ⟨a, s', by rw [Effect.abortable, ha]; rfl, hpost⟩

theorem noPanic_pure (a : α) : NoPanic (pure a : Effect (Abort ε) σ α) :=
  fun _ => noPanic_ok a

theorem noPanic_abortable (x : Effect ε σ α) : NoPanic (abortable x) :=
  fun s => noPanic_lift (x s).1

theorem NoPanic.bind {x : Effect (Abort ε) σ α} {f : α → Effect (Abort ε) σ β}
    (hx : NoPanic x) (hf : ∀ a, NoPanic (f a)) : NoPanic (x >>= f) := by
  intro s
  have hfirst := hx s
  rw [bind_apply]
  rcases heq : x s with ⟨e | a, s'⟩
  · rw [heq] at hfirst
    intro h
    cases h
    exact hfirst rfl
  · exact hf a s'

theorem noPanic_lift_bind {x : Except (Abort ε) α}
    {f : α → Effect (Abort ε) σ β} (hx : x ≠ .error .panic)
    (hf : ∀ a, x = .ok a → NoPanic (f a)) : NoPanic (liftM x >>= f) := by
  intro s
  rw [lift_bind]
  cases x with
  | error e =>
    intro h
    apply hx
    cases h
    rfl
  | ok a => exact hf a rfl s

theorem noPanic_query {q : σ → Except (Abort ε) α}
    (h : ∀ s, q s ≠ .error .panic) : NoPanic (query q) := h

end Effect
