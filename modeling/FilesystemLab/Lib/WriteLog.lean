import Mathlib.Data.List.Basic
import Mathlib.Data.List.Infix
import Mathlib.Data.List.Nodup
import Mathlib.Data.Set.Function
import Mathlib.Logic.Function.Basic
import Mathlib.Tactic.Common

/-!
# Write logs, flush barriers and crash images

The storage model of a block device with a volatile write buffer, over an
arbitrary address type and an arbitrary type of cell contents.

A *store* is a function from addresses to contents.  `overlay` applies a list
of writes to a store, in order.  A run of a program on the device is a list of
`Event`s: writes and flushes.  `Buffer` is what the device holds at a moment of
such a run: the contents that the last flush made durable, and the writes
issued since.  After a power failure every cell holds, independently of the
others, its durable contents or one of the values written to it since the last
flush; `Buffer.MayHold` is that relation, and `CrashImage` takes it at every
prefix of a run.

A program that orders its writes with flushes issues its events in *epochs*:
`barriers` is the event list of a list of epochs.  `crashImage_barriers_cons` is
the rule every crash argument in this development uses.  A crash inside such a
run shows a store that mixes the contents before some epoch with writes of that
epoch, so a property of all crash images follows from one obligation for each
epoch.
-/

namespace WriteLog

variable {α β : Type}

section Overlay

variable [DecidableEq α]

/-! ## Overlay -/

/-- The store after the writes `ws`, in order. -/
def overlay (s : α → β) (ws : List (α × β)) : α → β :=
  ws.foldl (fun h w => Function.update h w.1 w.2) s

@[simp] theorem overlay_nil (s : α → β) : overlay s [] = s := rfl

@[simp] theorem overlay_cons (s : α → β) (w : α × β) (ws : List (α × β)) :
    overlay s (w :: ws) = overlay (Function.update s w.1 w.2) ws := rfl

theorem overlay_append (s : α → β) (ws vs : List (α × β)) :
    overlay s (ws ++ vs) = overlay (overlay s ws) vs := by
  simp only [overlay, List.foldl_append]

/-- A cell that no write names keeps its contents. -/
theorem overlay_of_notMem {s : α → β} {ws : List (α × β)} {a : α}
    (h : a ∉ ws.map Prod.fst) : overlay s ws a = s a := by
  induction ws generalizing s with
  | nil => rfl
  | cons w ws ih =>
    simp only [List.map_cons, List.mem_cons, not_or] at h
    rw [overlay_cons, ih h.2, Function.update_of_ne h.1]

/-- A cell that some write names holds a value that does not depend on the
store below. -/
theorem overlay_of_mem {s s' : α → β} {ws : List (α × β)} {a : α}
    (h : a ∈ ws.map Prod.fst) : overlay s ws a = overlay s' ws a := by
  induction ws generalizing s s' with
  | nil => simp at h
  | cons w ws ih =>
    rw [overlay_cons, overlay_cons]
    by_cases hws : a ∈ ws.map Prod.fst
    · exact ih hws
    · have haw : a = w.1 := by
        rcases List.mem_cons.mp h with haw | hmem
        · exact haw
        · exact absurd hmem hws
      rw [overlay_of_notMem hws, overlay_of_notMem hws, haw,
        Function.update_self, Function.update_self]

/-- The value of an overwritten cell is one of the values written to it. -/
theorem overlay_mem {s : α → β} {ws : List (α × β)} {a : α}
    (h : a ∈ ws.map Prod.fst) : (a, overlay s ws a) ∈ ws := by
  induction ws generalizing s with
  | nil => simp at h
  | cons w ws ih =>
    rw [overlay_cons]
    by_cases hws : a ∈ ws.map Prod.fst
    · exact List.mem_cons_of_mem _ (ih hws)
    · have haw : a = w.1 := by
        rcases List.mem_cons.mp h with haw | hmem
        · exact haw
        · exact absurd hmem hws
      rw [overlay_of_notMem hws, haw, Function.update_self]
      exact List.mem_cons_self

/-- Two stores that agree on the cells that no write names agree after the
writes. -/
theorem overlay_congr {s s' : α → β} {ws : List (α × β)} {a : α}
    (h : a ∉ ws.map Prod.fst → s a = s' a) :
    overlay s ws a = overlay s' ws a := by
  by_cases ha : a ∈ ws.map Prod.fst
  · exact overlay_of_mem ha
  · rw [overlay_of_notMem ha, overlay_of_notMem ha, h ha]

/-- When the addresses of the writes are distinct, every write survives. -/
theorem overlay_of_nodup {s : α → β} {ws : List (α × β)}
    (hnd : (ws.map Prod.fst).Nodup) {a : α} {v : β} (h : (a, v) ∈ ws) :
    overlay s ws a = v := by
  have hmem : a ∈ ws.map Prod.fst := List.mem_map.mpr ⟨(a, v), h, rfl⟩
  have hval := overlay_mem (s := s) hmem
  have hinj := List.inj_on_of_nodup_map hnd hval h rfl
  exact congrArg Prod.snd hinj

/-- The writes that make a difference to a store. -/
def differing [DecidableEq β] (s : α → β) (ws : List (α × β)) :
    List (α × β) :=
  ws.filter fun w => s w.1 ≠ w.2

omit [DecidableEq α] in
theorem differing_eq_nil [DecidableEq β] {s : α → β} {ws : List (α × β)} :
    differing s ws = [] ↔ ∀ w ∈ ws, s w.1 = w.2 := by
  simp [differing, List.filter_eq_nil_iff]

omit [DecidableEq α] in
theorem differing_append [DecidableEq β] (s : α → β) (ws vs : List (α × β)) :
    differing s (ws ++ vs) = differing s ws ++ differing s vs :=
  List.filter_append ..

/-- Writes to distinct addresses that make no difference may be left out. -/
theorem overlay_differing [DecidableEq β] {s : α → β} {ws : List (α × β)}
    (hnd : (ws.map Prod.fst).Nodup) :
    overlay s (differing s ws) = overlay s ws := by
  have hsub : (differing s ws).Sublist ws := List.filter_sublist
  funext a
  by_cases ha : a ∈ ws.map Prod.fst
  · have hw := overlay_mem (s := s) ha
    by_cases hsame : s a = overlay s ws a
    · rw [← hsame]
      apply overlay_of_notMem
      intro hmem
      obtain ⟨v, hv, rfl⟩ := List.mem_map.mp hmem
      have hdiff : s v.1 ≠ v.2 := by simpa using (List.mem_filter.mp hv).2
      exact hdiff (hsame.trans (overlay_of_nodup hnd (hsub.subset hv)))
    · apply overlay_of_nodup ((hsub.map Prod.fst).nodup hnd)
      exact List.mem_filter.mpr ⟨hw, by simpa using hsame⟩
  · rw [overlay_of_notMem ha]
    apply overlay_of_notMem
    intro hmem
    exact ha ((hsub.map Prod.fst).subset hmem)

/-- Writes that agree on each address, without those that make no difference,
leave the value that was asked for. -/
theorem overlay_differing_mem [DecidableEq β] {s : α → β} {ws : List (α × β)}
    (hagree : ∀ w ∈ ws, ∀ v ∈ ws, w.1 = v.1 → w.2 = v.2) {w : α × β}
    (hw : w ∈ ws) : overlay s (differing s ws) w.1 = w.2 := by
  by_cases ha : w.1 ∈ (differing s ws).map Prod.fst
  · have hmem := overlay_mem (s := s) ha
    exact (hagree w hw _ (List.mem_of_mem_filter hmem) rfl).symm
  · rw [overlay_of_notMem ha]
    by_contra hdiff
    apply ha
    exact List.mem_map_of_mem (List.mem_filter.mpr ⟨hw, by simpa using hdiff⟩)

/-! ## Interrupted overlays -/

/-- `t` mixes the contents of `s` with values of `ws`: every cell holds its old
contents or some value that `ws` writes to it. -/
def Mixed (s : α → β) (ws : List (α × β)) (t : α → β) : Prop :=
  ∀ a, t a = s a ∨ (a, t a) ∈ ws

omit [DecidableEq α] in
theorem Mixed.refl (s : α → β) (ws : List (α × β)) : Mixed s ws s :=
  fun _ => Or.inl rfl

omit [DecidableEq α] in
theorem Mixed.mono {s t : α → β} {ws vs : List (α × β)} (h : Mixed s ws t)
    (hsub : ws ⊆ vs) : Mixed s vs t :=
  fun a => (h a).imp id (fun hm => hsub hm)

theorem mixed_overlay (s : α → β) (ws : List (α × β)) :
    Mixed s ws (overlay s ws) := by
  intro a
  by_cases ha : a ∈ ws.map Prod.fst
  · exact Or.inr (overlay_mem ha)
  · exact Or.inl (overlay_of_notMem ha)

omit [DecidableEq α] in
/-- A cell that no write names is not mixed. -/
theorem Mixed.eq_of_notMem {s t : α → β} {ws : List (α × β)} (h : Mixed s ws t)
    {a : α} (ha : a ∉ ws.map Prod.fst) : t a = s a := by
  rcases h a with heq | hmem
  · exact heq
  · exact absurd (List.mem_map.mpr ⟨_, hmem, rfl⟩) ha

/-- A mixture with a single write is the store before it or after it. -/
theorem Mixed.single {s t : α → β} {a : α} {v : β} (h : Mixed s [(a, v)] t) :
    t = s ∨ t = Function.update s a v := by
  have hrest : ∀ b, b ≠ a → t b = s b := by
    intro b hb
    exact h.eq_of_notMem (by simpa using hb)
  rcases h a with heq | hmem
  · left
    funext b
    by_cases hb : b = a
    · rw [hb, heq]
    · exact hrest b hb
  · right
    funext b
    by_cases hb : b = a
    · subst hb
      simpa using hmem
    · rw [hrest b hb, Function.update_of_ne hb]

/-- Replaying writes over any mixture of them gives the same store as applying
them once.  This is the idempotence of redo recovery. -/
theorem Mixed.overlay_eq {s t : α → β} {ws : List (α × β)} (h : Mixed s ws t) :
    overlay t ws = overlay s ws :=
  funext fun _ => overlay_congr h.eq_of_notMem

theorem overlay_overlay_self (s : α → β) (ws : List (α × β)) :
    overlay (overlay s ws) ws = overlay s ws :=
  (mixed_overlay s ws).overlay_eq

omit [DecidableEq α] in
/-- A mixture of a mixture with the same writes. -/
theorem Mixed.trans {s t u : α → β} {ws : List (α × β)} (h : Mixed s ws t)
    (h' : Mixed t ws u) : Mixed s ws u := by
  intro a
  rcases h' a with heq | hmem
  · rw [heq]
    exact h a
  · exact Or.inr hmem

end Overlay

/-! ## Events and the write buffer -/

/-- One mutation of the device. -/
inductive Event (α β : Type) where
  | write (a : α) (v : β)
  | flush

/-- What the device holds: the durable contents, and the writes issued since
the last flush. -/
structure Buffer (α β : Type) where
  durable : α → β
  pending : List (α × β)

namespace Buffer

/-- A device with nothing pending. -/
def clean (s : α → β) : Buffer α β := ⟨s, []⟩

/-- The store that a crash may leave: every cell holds its durable contents or
some value written to it since the last flush. -/
def MayHold (b : Buffer α β) (img : α → β) : Prop :=
  ∀ a, img a = b.durable a ∨ (a, img a) ∈ b.pending

variable [DecidableEq α]

/-- The effect of one mutation on the buffer. -/
def step (b : Buffer α β) : Event α β → Buffer α β
  | .write a v => { b with pending := b.pending ++ [(a, v)] }
  | .flush => clean (overlay b.durable b.pending)

/-- The buffer after a list of mutations. -/
def run (b : Buffer α β) (es : List (Event α β)) : Buffer α β :=
  es.foldl step b

/-- The contents that a read sees. -/
def current (b : Buffer α β) : α → β := overlay b.durable b.pending

/-- Nothing is pending. -/
def Settled (b : Buffer α β) : Prop := b.pending = []

omit [DecidableEq α] in
@[simp] theorem clean_durable (s : α → β) : (clean s).durable = s := rfl

omit [DecidableEq α] in
@[simp] theorem clean_pending (s : α → β) : (clean s).pending = [] := rfl

@[simp] theorem current_clean (s : α → β) : (clean s).current = s := rfl

theorem run_append (b : Buffer α β) (es fs : List (Event α β)) :
    b.run (es ++ fs) = (b.run es).run fs := by
  simp only [run, List.foldl_append]

@[simp] theorem run_nil (b : Buffer α β) : b.run [] = b := rfl

@[simp] theorem run_cons (b : Buffer α β) (e : Event α β)
    (es : List (Event α β)) : b.run (e :: es) = (b.step e).run es := rfl

theorem eq_clean_of_settled {b : Buffer α β} (h : b.Settled) :
    b = clean b.current := by
  obtain ⟨durable, pending⟩ := b
  simp only [Settled] at h
  subst h
  rfl

/-- A list of writes only grows the pending list. -/
theorem run_writes (b : Buffer α β) (ws : List (α × β)) :
    b.run (ws.map fun w => .write w.1 w.2) =
      { b with pending := b.pending ++ ws } := by
  induction ws generalizing b with
  | nil => simp
  | cons w ws ih =>
    rw [List.map_cons, run_cons, ih]
    simp [step]

end Buffer

/-! ## Crash images -/

/-- A prefix of two lists ends in the first one, or covers it. -/
private theorem prefix_append_cases {γ : Type} {p es fs : List γ}
    (h : p <+: es ++ fs) : p <+: es ∨ ∃ q, p = es ++ q ∧ q <+: fs := by
  obtain ⟨t, ht⟩ := h
  rcases List.append_eq_append_iff.mp ht with ⟨u, hes, _⟩ | ⟨u, hp, hfs⟩
  · exact Or.inl ⟨u, hes.symm⟩
  · exact Or.inr ⟨u, hp, ⟨t, hfs.symm⟩⟩

section Crash

variable [DecidableEq α]

/-- `img` is a store that a power failure inside the run `es` may leave, when
the run starts on a settled device that holds `s`. -/
def CrashImage (s : α → β) (es : List (Event α β)) (img : α → β) : Prop :=
  ∃ p, p <+: es ∧ ((Buffer.clean s).run p).MayHold img

/-- The events of one epoch: its writes, then a flush. -/
def epoch (ws : List (α × β)) : List (Event α β) :=
  (ws.map fun w => .write w.1 w.2) ++ [.flush]

/-- The events of a list of epochs. -/
def barriers (epochs : List (List (α × β))) : List (Event α β) :=
  epochs.flatMap epoch

/-- The store after a list of epochs. -/
def settle (s : α → β) (epochs : List (List (α × β))) : α → β :=
  overlay s epochs.flatten

omit [DecidableEq α] in
@[simp] theorem barriers_nil : barriers ([] : List (List (α × β))) = [] := rfl

omit [DecidableEq α] in
theorem barriers_cons (ws : List (α × β)) (eps : List (List (α × β))) :
    barriers (ws :: eps) = epoch ws ++ barriers eps := rfl

omit [DecidableEq α] in
theorem barriers_append (eps eps' : List (List (α × β))) :
    barriers (eps ++ eps') = barriers eps ++ barriers eps' := by
  simp only [barriers, List.flatMap_append]

theorem settle_append (s : α → β) (eps eps' : List (List (α × β))) :
    settle s (eps ++ eps') = settle (settle s eps) eps' := by
  simp only [settle, List.flatten_append, overlay_append]

/-- An epoch that starts settled ends settled, with its writes applied. -/
theorem run_epoch (s : α → β) (ws : List (α × β)) :
    (Buffer.clean s).run (epoch ws) = Buffer.clean (overlay s ws) := by
  rw [epoch, Buffer.run_append, Buffer.run_writes]
  simp [Buffer.step]

/-- What a read sees after a list of epochs, whatever was pending before. -/
theorem current_run_barriers (b : Buffer α β) (eps : List (List (α × β))) :
    (b.run (barriers eps)).current = settle b.current eps := by
  induction eps generalizing b with
  | nil => rfl
  | cons ws eps ih =>
    have hepoch : (b.run (epoch ws)).current = overlay b.current ws := by
      rw [epoch, Buffer.run_append, Buffer.run_writes]
      simp [Buffer.step, Buffer.current, overlay_append]
    rw [barriers_cons, Buffer.run_append, ih, hepoch]
    simp only [settle, List.flatten_cons, overlay_append]

/-- A list of epochs that starts settled ends settled. -/
theorem run_barriers (s : α → β) (eps : List (List (α × β))) :
    (Buffer.clean s).run (barriers eps) = Buffer.clean (settle s eps) := by
  induction eps generalizing s with
  | nil => rfl
  | cons ws eps ih =>
    rw [barriers_cons, Buffer.run_append, run_epoch, ih]
    simp only [settle, List.flatten_cons, overlay_append]

/-- A crash inside one epoch shows a mixture of the old contents with writes of
the epoch. -/
theorem mixed_of_crashImage_epoch {s : α → β} {ws : List (α × β)} {img : α → β}
    (h : CrashImage s (epoch ws) img) : Mixed s ws img := by
  obtain ⟨p, hp, hold⟩ := h
  rcases prefix_append_cases hp with hp | ⟨q, rfl, hq⟩
  · -- the power fails before the flush: only a prefix of the writes is pending
    obtain ⟨vs, rfl, hvs⟩ : ∃ vs, p = vs.map (fun w => .write w.1 w.2) ∧
        vs <+: ws := by
      rw [List.prefix_map_iff] at hp
      obtain ⟨vs, hvs, rfl⟩ := hp
      exact ⟨vs, rfl, hvs⟩
    rw [Buffer.run_writes] at hold
    intro a
    exact (hold a).imp id fun hmem => hvs.subset (by simpa using hmem)
  · -- the power fails after the writes, possibly after the flush
    rw [Buffer.run_append, Buffer.run_writes] at hold
    rcases List.prefix_cons_iff.mp hq with rfl | ⟨q', rfl, hq'⟩
    · intro a
      exact (hold a).imp id fun hmem => by simpa using hmem
    · rw [List.prefix_nil.mp hq'] at hold
      intro a
      rcases hold a with heq | hmem
      · rw [heq]
        simpa [Buffer.step, Buffer.clean] using mixed_overlay s ws a
      · simp [Buffer.step] at hmem

/-- A crash inside two runs, the first of which ends settled, falls into one of
them. -/
theorem crashImage_append {s : α → β} {es fs : List (Event α β)} {t img : α → β}
    (hes : (Buffer.clean s).run es = Buffer.clean t)
    (h : CrashImage s (es ++ fs) img) :
    CrashImage s es img ∨ CrashImage t fs img := by
  obtain ⟨p, hp, hold⟩ := h
  rcases prefix_append_cases hp with hp | ⟨q, rfl, hq⟩
  · exact Or.inl ⟨p, hp, hold⟩
  · refine Or.inr ⟨q, hq, ?_⟩
    rwa [Buffer.run_append, hes] at hold

/-- A crash inside no epoch at all. -/
theorem crashImage_barriers_nil {s img : α → β}
    (h : CrashImage s (barriers []) img) : img = s := by
  obtain ⟨p, hp, hold⟩ := h
  rw [barriers_nil, List.prefix_nil] at hp
  subst hp
  funext a
  rcases hold a with heq | hmem
  · exact heq
  · simp at hmem

/-- **Crash rule.**  A crash inside a list of epochs falls into the first epoch,
and shows a mixture of the old contents with its writes, or it falls into the
others, which start on the contents that the first one has settled. -/
theorem crashImage_barriers_cons {s img : α → β} {ws : List (α × β)}
    {eps : List (List (α × β))} (h : CrashImage s (barriers (ws :: eps)) img) :
    Mixed s ws img ∨ CrashImage (overlay s ws) (barriers eps) img := by
  rw [barriers_cons] at h
  exact (crashImage_append (run_epoch s ws) h).imp
    mixed_of_crashImage_epoch id

/-- A cell that no epoch names survives every crash. -/
theorem crashImage_of_notMem {s img : α → β} {eps : List (List (α × β))}
    (h : CrashImage s (barriers eps) img) {a : α}
    (ha : ∀ ws ∈ eps, a ∉ ws.map Prod.fst) : img a = s a := by
  induction eps generalizing s with
  | nil => rw [crashImage_barriers_nil h]
  | cons ws eps ih =>
    have hws := ha ws List.mem_cons_self
    rcases crashImage_barriers_cons h with hmix | h
    · exact hmix.eq_of_notMem hws
    · rw [ih h fun vs hvs => ha vs (List.mem_cons_of_mem _ hvs),
        overlay_of_notMem hws]

/-- A crashed cell holds its old value or one that some epoch writes to it. -/
theorem crashImage_mem {s img : α → β} {eps : List (List (α × β))}
    (h : CrashImage s (barriers eps) img) (a : α) :
    img a = s a ∨ ∃ ws ∈ eps, (a, img a) ∈ ws := by
  induction eps generalizing s with
  | nil =>
    rw [crashImage_barriers_nil h]
    exact .inl rfl
  | cons ws eps ih =>
    rcases crashImage_barriers_cons h with hmix | h
    · rcases hmix a with heq | hmem
      · exact .inl heq
      · exact .inr ⟨ws, List.mem_cons_self, hmem⟩
    · rcases ih h with heq | ⟨vs, hvs, hmem⟩
      · by_cases ha : a ∈ ws.map Prod.fst
        · refine .inr ⟨ws, List.mem_cons_self, ?_⟩
          rw [heq]
          exact overlay_mem ha
        · left
          rw [heq, overlay_of_notMem ha]
      · exact .inr ⟨vs, List.mem_cons_of_mem _ hvs, hmem⟩

/-- A write that is not yet flushed may survive a crash on its own. -/
theorem crashImage_first_write {s : α → β} {a : α} {v : β}
    {es : List (Event α β)} :
    CrashImage s (.write a v :: es) (Function.update s a v) := by
  refine ⟨[.write a v], by simp, ?_⟩
  intro b
  by_cases hb : b = a
  · subst hb
    exact Or.inr (by simp [Buffer.step])
  · exact Or.inl (by simp [Buffer.step, hb])

/-- The store at the end of a settled run is one of its crash images. -/
theorem crashImage_settle (s : α → β) (eps : List (List (α × β))) :
    CrashImage s (barriers eps) (settle s eps) := by
  refine ⟨_, List.prefix_rfl, ?_⟩
  rw [run_barriers]
  exact fun _ => Or.inl rfl

end Crash

end WriteLog
