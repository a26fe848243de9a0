import FilesystemLab.CrashSafe
import FilesystemLab.DiskVolume
import FilesystemLab.Lib.CallRun
import FilesystemLab.NamespaceRun
import FilesystemLab.PathFiles

/-!
# Calls on volumes, on disks that may lose their power

A disk stands for a volume also before its journal is recovered: for the volume
of the recovered disk (`StandsFor`).  `Implements sb x spec` says of a call `x`
that it recovers the journal first, that it changes the effective blocks at once,
and that on a mounted disk it does what `spec` says to the volume, or nothing.

`Performs` is weaker: the call may rely on an invariant of volumes, and it may
leave its transaction for the next recovery.

`refines_of_performs` draws the conclusion for every disk: the call does what its
specification says if it is acknowledged, nothing if it is rejected, and one of
both if the power fails during the call.  The calls with their three endings are
a machine on disks (`volumeMachine`), and `CallRun.Refines.run` carries the
conclusion over its runs.
-/

namespace FilesystemLab

open WriteLog

/-! ## Disks and volumes -/

/-- The disk is settled, and its recovery leaves a disk that the check accepts
and whose volume is `v`. -/
structure StandsFor (sb : Superblock) (d : Disk) (v : Volume) : Prop where
  holding : ∃ view, Holding sb d view
  consistent : Consistent sb (recoveredDisk sb d)
  volume_eq : volumeOf sb (recoveredDisk sb d) = v

section StandsFor

variable {sb : Superblock} {d d' img : Disk} {v : Volume}
  {view : Nat → Block} {a : BlockAllocator} {inodes : List PersistedInode}
  {entries : List PersistedDirectoryEntry}

/-- A mounted disk is its own recovery. -/
theorem Mounted.recoveredDisk_eq (h : Mounted d sb a inodes entries) :
    recoveredDisk sb d = d :=
  recoveredDisk_vacant h.size h.vacant

theorem Mounted.standsFor (h : Mounted d sb a inodes entries)
    (hd : Holding sb d view) : StandsFor sb d (volumeOf sb d) := by
  refine ⟨⟨view, hd⟩, ?_, ?_⟩
  · rw [h.recoveredDisk_eq]
    exact ⟨a, inodes, entries, h⟩
  · rw [h.recoveredDisk_eq]

/-- What a disk stands for is decided by its effective blocks. -/
theorem Holding.standsFor_congr (hd : Holding sb d view)
    (himg : Holding sb img view) (h : StandsFor sb d v) :
    StandsFor sb img v := by
  obtain ⟨a, inodes, entries, hmounted⟩ := h.consistent
  have hvacant := himg.vacant_recovered
  have hsame : (recoveredDisk sb img).size = (recoveredDisk sb d).size := by
    rw [← himg.recovered.size, ← hd.recovered.size]
  have hhome : ∀ b, ¬ sb.journalRange b →
      (recoveredDisk sb img).blocks b = (recoveredDisk sb d).blocks b := by
    intro b hb
    rw [himg.recovered.views.of_vacant hvacant hb,
      hd.recovered.views.of_vacant hd.vacant_recovered hb]
  refine ⟨⟨view, himg⟩, ⟨a, inodes, entries, hmounted.congr hsame hvacant hhome⟩,
    ?_⟩
  rw [hmounted.volumeOf_congr hsame hvacant hhome]
  exact h.volume_eq

end StandsFor

/-! ## Calls that implement a specification -/

/-- The call recovers the journal before it does anything else, it changes the
effective blocks of a disk with an empty journal at once, and on a mounted disk
it does what `spec` says or fails and does nothing. -/
structure Implements {α : Type} (sb : Superblock)
    (x : Effect (Abort IoError) Disk α) (spec : α → Volume → Volume → Prop) :
    Prop where
  entered : ∀ {d view}, Holding sb d view → Entered sb x d
  guarded : ∀ {d}, sb.totalBlocks = d.size → journalOf sb d.blocks = .ok [] →
    Guarded sb x d
  atomic : ∀ {d a inodes entries}, Mounted d sb a inodes entries →
    Effect.Atomic x d fun r d' =>
      Consistent sb d' ∧ spec r (volumeOf sb d) (volumeOf sb d')

/-- The disk `d'` is consistent once its journal is recovered, and what `spec`
says has then happened to the volume of `d`. -/
def Leaves (sb : Superblock) (spec : Volume → Volume → Prop) (d d' : Disk) :
    Prop :=
  Consistent sb (recoveredDisk sb d') ∧
    spec (volumeOf sb d) (volumeOf sb (recoveredDisk sb d'))

/-- The weaker property of a call that relies on an invariant of the volume, or
that leaves its transaction in the journal: what it does is what the next
recovery finds. -/
structure Performs {α : Type} (sb : Superblock) (inv : Volume → Prop)
    (x : Effect (Abort IoError) Disk α) (spec : α → Volume → Volume → Prop) :
    Prop where
  entered : ∀ {d view}, Holding sb d view → Entered sb x d
  guarded : ∀ {d a inodes entries}, Mounted d sb a inodes entries →
    inv (volumeOf sb d) → Guarded sb x d
  atomic : ∀ {d a inodes entries}, Mounted d sb a inodes entries →
    inv (volumeOf sb d) → Effect.Atomic x d fun r d' =>
      Leaves sb (fun v v' => spec r v v' ∧ inv v') d d'

/-- The calls `κ` on disks, with what a failure of the power may leave. -/
def volumeMachine {κ ρ : Type} (run : κ → Effect (Abort IoError) Disk ρ) :
    CallRun.Machine Disk κ ρ where
  acknowledged k r d d' := run k d = (.ok r, d')
  rejected k d d' := ∃ e, run k d = (.error e, d')
  cut k d img := d.CutBetween (run k d).2 img

section Performs

variable {sb : Superblock} {α : Type} {inv : Volume → Prop}
  {spec : α → Volume → Volume → Prop} {d d' img : Disk} {v : Volume}
  {x : Effect (Abort IoError) Disk α}

/-- A consistent disk is its own recovery. -/
theorem Consistent.leaves {spec : Volume → Volume → Prop}
    (h : Consistent sb d') (hspec : spec (volumeOf sb d) (volumeOf sb d')) :
    Leaves sb spec d d' := by
  obtain ⟨a, inodes, entries, hmounted⟩ := h
  unfold Leaves
  rw [hmounted.recoveredDisk_eq]
  exact ⟨⟨a, inodes, entries, hmounted⟩, hspec⟩

theorem Implements.performs (h : Implements sb x spec)
    (hinv : ∀ r v v', spec r v v' → inv v → inv v') :
    Performs sb inv x spec where
  entered := h.entered
  guarded hmounted _ := h.guarded hmounted.size hmounted.vacant
  atomic := by
    intro d a inodes entries hmounted hv
    apply (h.atomic hmounted).mono
    intro r d' hpost
    obtain ⟨hconsistent, hspec⟩ := hpost
    exact hconsistent.leaves ⟨hspec, hinv r _ _ hspec hv⟩

/-- A call of a function that does not abort. -/
theorem implements_abortable {op : DevM Disk α}
    (hentered : ∀ {d view}, Holding sb d view → Entered sb op d)
    (hguarded : ∀ {d}, sb.totalBlocks = d.size →
      journalOf sb d.blocks = .ok [] → Guarded sb op d)
    (hatomic : ∀ {d a inodes entries}, Mounted d sb a inodes entries →
      Effect.Atomic op d fun r d' =>
        Consistent sb d' ∧ spec r (volumeOf sb d) (volumeOf sb d')) :
    Implements sb (Effect.abortable op) spec where
  entered hd := (hentered hd).abortable
  guarded hsize hvacant := (hguarded hsize hvacant).abortable
  atomic hmounted := (hatomic hmounted).abortable

/-- The same for the weaker property. -/
theorem performs_abortable {op : DevM Disk α}
    (hinv : ∀ r v v', spec r v v' → inv v → inv v')
    (hentered : ∀ {d view}, Holding sb d view → Entered sb op d)
    (hguarded : ∀ {d a inodes entries}, Mounted d sb a inodes entries →
      Guarded sb op d)
    (hatomic : ∀ {d a inodes entries}, Mounted d sb a inodes entries →
      inv (volumeOf sb d) →
      Effect.Atomic op d fun r d' => Leaves sb (spec r) d d') :
    Performs sb inv (Effect.abortable op) spec where
  entered hd := (hentered hd).abortable
  guarded hmounted _ := (hguarded hmounted).abortable
  atomic := by
    intro d a inodes entries hmounted hv
    apply (hatomic hmounted hv).abortable.mono
    intro r d' hpost
    exact ⟨hpost.1, hpost.2, hinv r _ _ hpost.2 hv⟩

/-- A check before a call. -/
theorem performs_lift {β : Type} {r : Result β} {f : β → DevM Disk α}
    (h : ∀ b, r = .ok b → Performs sb inv (Effect.abortable (f b)) spec) :
    Performs sb inv (Effect.abortable (liftM r >>= f)) spec := by
  cases r with
  | ok b =>
    have hsame : (liftM (Except.ok b : Result β) >>= f) = f b :=
      funext fun d => Effect.lift_bind_of_ok rfl
    rw [hsame]
    exact h b rfl
  | error e =>
    refine ⟨fun _ => ?_, fun _ _ => ?_, fun _ _ => .inl ⟨.error e, rfl⟩⟩
    · exact Entered.abortable (.rejected e rfl)
    · exact Guarded.abortable (guarded_of_unchanged rfl)

/-- The reply in another form. -/
theorem Performs.map {β : Type} {g : α → β} {spec : β → Volume → Volume → Prop}
    (h : Performs sb inv x fun r => spec (g r)) :
    Performs sb inv (g <$> x) spec where
  entered hd := (h.entered hd).bind _
  guarded hmounted hv := guarded_map.mpr (h.guarded hmounted hv)
  atomic := by
    intro d a inodes entries hmounted hv
    exact (h.atomic hmounted hv).bind fun r d' hpost => ⟨_, _, rfl, hpost⟩

/-- A call that succeeds does what its specification says. -/
theorem Performs.acknowledged (h : Performs sb inv x spec) {r : α}
    (hv : StandsFor sb d v) (hinv : inv v) (hrun : x d = (.ok r, d')) :
    ∃ v', spec r v v' ∧ StandsFor sb d' v' ∧ inv v' := by
  obtain ⟨⟨view, hd⟩, ⟨a, inodes, entries, hmounted⟩, rfl⟩ := hv
  rcases h.entered hd with ⟨e, herror⟩ | hdone
  · rw [hrun] at herror
    cases herror
  · obtain ⟨hconsistent, hspec, hinv'⟩ :=
      (h.atomic hmounted hinv).of_ok (hdone.symm.trans hrun)
    refine ⟨_, hspec, ?_, hinv'⟩
    have hcommits := (h.entered hd).commits (h.guarded hmounted hinv) hd
    rw [hrun] at hcommits
    rcases hcommits with hquiet | ⟨_, new, _, hcommits⟩
    · exact ⟨⟨view, hquiet.holding hd⟩, hconsistent, rfl⟩
    · exact ⟨⟨new, hcommits.holding hd⟩, hconsistent, rfl⟩

/-- A call that fails does nothing. -/
theorem Performs.rejected (h : Performs sb inv x spec) {e : Abort IoError}
    (hv : StandsFor sb d v) (hinv : inv v) (hrun : x d = (.error e, d')) :
    StandsFor sb d' v := by
  obtain ⟨⟨view, hd⟩, ⟨a, inodes, entries, hmounted⟩, rfl⟩ := hv
  rcases h.entered hd with ⟨e', herror⟩ | hdone
  · rw [hrun] at herror
    cases herror
    exact ⟨⟨view, hd⟩, ⟨a, inodes, entries, hmounted⟩, rfl⟩
  · have hsame := (h.atomic hmounted hinv).of_error
      (by rw [← hdone, hrun] : (x (recoveredDisk sb d)).1 = .error e)
    rw [← hdone, hrun] at hsame
    obtain rfl : d' = recoveredDisk sb d := hsame
    exact hmounted.standsFor hd.recovered

/-- A call that is cut short does what its specification says, or nothing. -/
theorem Performs.cut (h : Performs sb inv x spec) (hv : StandsFor sb d v)
    (hinv : inv v) (hcut : d.CutBetween (x d).2 img) :
    StandsFor sb img v ∨
      ∃ r v', spec r v v' ∧ StandsFor sb img v' ∧ inv v' := by
  obtain ⟨view, hd⟩ := hv.holding
  obtain ⟨a, inodes, entries, hmounted⟩ := hv.consistent
  have hguarded := h.guarded hmounted (by rw [hv.volume_eq]; exact hinv)
  have hold : Holding sb img view → StandsFor sb img v := fun himg =>
    hd.standsFor_congr himg hv
  rcases (h.entered hd).commits hguarded hd with hquiet | ⟨r, new, hok, hcommits⟩
  · exact .inl (hold ((hquiet.cut hd hcut).elim id id))
  · rcases hcommits.cut hd hcut with himg | himg
    · exact .inl (hold himg)
    · obtain ⟨v', hspec, hv', hinv'⟩ :=
        h.acknowledged hv hinv (Prod.ext hok rfl)
      have hd' := hcommits.holding hd
      exact .inr ⟨r, v', hspec, hd'.standsFor_congr himg hv', hinv'⟩

/-- The power may fail right behind the last write of a call. -/
theorem Performs.cut_end (h : Performs sb inv x spec) (hv : StandsFor sb d v)
    (hinv : inv v) : d.CutBetween (x d).2 (x d).2.rebooted := by
  obtain ⟨view, hd⟩ := hv.holding
  obtain ⟨a, inodes, entries, hmounted⟩ := hv.consistent
  have hguarded := h.guarded hmounted (by rw [hv.volume_eq]; exact hinv)
  rcases (h.entered hd).commits hguarded hd with hquiet | ⟨_, _, _, hcommits⟩
  · exact hquiet.cut_end hd.settled
  · exact hcommits.cut_end hd.settled

theorem Performs.mono {spec' : α → Volume → Volume → Prop}
    (h : Performs sb inv x spec) (hspec : ∀ r v v', spec r v v' → spec' r v v') :
    Performs sb inv x spec' where
  entered := h.entered
  guarded := h.guarded
  atomic := by
    intro d a inodes entries hmounted hinv
    apply (h.atomic hmounted hinv).mono
    intro r d' hpost
    exact ⟨hpost.1, hspec r _ _ hpost.2.1, hpost.2.2⟩

end Performs

/-! ## First parts -/

/-- The first part of a call: it recovers the journal and finds something that
is `good` for the volume. -/
structure Entry {β : Type} (sb : Superblock) (enter : DevM Disk β)
    (good : Volume → β → Prop) : Prop where
  entered : ∀ {d view}, Holding sb d view → Entered sb enter d
  unchanged : ∀ {d}, sb.totalBlocks = d.size → journalOf sb d.blocks = .ok [] →
    (enter d).2 = d
  finds : ∀ {d a inodes entries}, Mounted d sb a inodes entries →
    Effect.Atomic enter d fun b d' => d' = d ∧ good (volumeOf sb d) b

section Entry

variable {sb : Superblock} {α β γ : Type} {spec spec' : α → Volume → Volume → Prop}

/-- A call with a first part. -/
theorem Entry.implements {enter : DevM Disk β} {good : Volume → β → Prop}
    (he : Entry sb enter good) {f : β → Effect (Abort IoError) Disk α}
    (hguarded : ∀ {b d}, sb.totalBlocks = d.size →
      journalOf sb d.blocks = .ok [] → Guarded sb (f b) d)
    (hatomic : ∀ {b d a inodes entries}, Mounted d sb a inodes entries →
      good (volumeOf sb d) b → Effect.Atomic (f b) d fun r d' =>
        Consistent sb d' ∧ spec r (volumeOf sb d) (volumeOf sb d')) :
    Implements sb (Effect.abortable enter >>= f) spec where
  entered hd := (he.entered hd).abortable.bind f
  guarded := by
    intro d hsize hvacant
    have hsame : (Effect.abortable enter d).2 = d := he.unchanged hsize hvacant
    rw [guarded_bind_unchanged hsame]
    intro b _
    exact hguarded hsize hvacant
  atomic := by
    intro d a inodes entries h
    exact (he.finds h).abortable.bind_unchanged fun b hgood => hatomic h hgood

/-- A check before the first part. -/
theorem Implements.check {r : Except (Abort IoError) β}
    {f : β → Effect (Abort IoError) Disk α}
    (h : ∀ b, r = .ok b → Implements sb (f b) spec) :
    Implements sb (liftM r >>= f) spec where
  entered hd := entered_lift_bind fun b hb => (h b hb).entered hd
  guarded := by
    intro d hsize hvacant
    rw [guarded_lift_bind]
    exact fun b hb => (h b hb).guarded hsize hvacant
  atomic := by
    intro d a inodes entries hmounted
    exact Effect.atomic_lift_bind fun b hb => (h b hb).atomic hmounted

theorem Implements.mono {x : Effect (Abort IoError) Disk α}
    (h : Implements sb x spec) (hspec : ∀ r v v', spec r v v' → spec' r v v') :
    Implements sb x spec' where
  entered := h.entered
  guarded := h.guarded
  atomic := by
    intro d a inodes entries hmounted
    apply (h.atomic hmounted).mono
    intro r d' hpost
    exact ⟨hpost.1, hspec r _ _ hpost.2⟩

/-- A part that only reads. -/
structure Finds (sb : Superblock) (rest : DevM Disk β)
    (good : Volume → β → Prop) : Prop where
  unchanged : ∀ d, (rest d).2 = d
  found : ∀ {d a inodes entries b}, Mounted d sb a inodes entries →
    (rest d).1 = .ok b → good (volumeOf sb d) b

theorem Finds.atomic {rest : DevM Disk β} {good : Volume → β → Prop}
    (h : Finds sb rest good) {d : Disk} {a : BlockAllocator}
    {inodes : List PersistedInode} {entries : List PersistedDirectoryEntry}
    (hmounted : Mounted d sb a inodes entries) :
    Effect.Atomic rest d fun b d' => d' = d ∧ good (volumeOf sb d) b := by
  have hsame := h.unchanged d
  rcases hrun : rest d with ⟨e | b, d'⟩
  · rw [hrun] at hsame
    obtain rfl : d' = d := hsame
    exact .inl ⟨e, hrun⟩
  · rw [hrun] at hsame
    exact .inr ⟨b, d', hrun, hsame, h.found hmounted (by rw [hrun])⟩

/-- The recovery, then a part that reads. -/
theorem Finds.entry {rest : DevM Disk β} {good : Volume → β → Prop}
    (h : Finds sb rest good) :
    Entry sb (recoverJournalAndCheckpoint sb >>= fun _ => rest) good where
  entered hd := hd.entered_recover
  unchanged := by
    intro d hsize hvacant
    rw [Effect.bind_of_ok (recover_vacant hsize hvacant)]
    exact h.unchanged d
  finds hmounted := Effect.atomic_bind_of_ok hmounted.recover (h.atomic hmounted)

/-- A call that recovers the journal and then does anything. -/
theorem implements_recover {rest : DevM Disk α} {spec : Volume → Volume → Prop}
    (hguarded : ∀ {d}, sb.totalBlocks = d.size →
      journalOf sb d.blocks = .ok [] → Guarded sb rest d)
    (hatomic : ∀ {d a inodes entries}, Mounted d sb a inodes entries →
      Effect.Atomic (recoverJournalAndCheckpoint sb >>= fun _ => rest) d
        fun _ d' => Consistent sb d' ∧ spec (volumeOf sb d) (volumeOf sb d')) :
    Implements sb (Effect.ignore (Effect.abortable
      (recoverJournalAndCheckpoint sb >>= fun _ => rest))) fun _ => spec where
  entered hd := hd.entered_recover.abortable.bind _
  guarded := by
    intro d hsize hvacant
    apply guarded_map.mpr
    apply Guarded.abortable
    rw [guarded_bind_unchanged (by rw [recover_vacant hsize hvacant])]
    exact fun _ _ => hguarded hsize hvacant
  atomic h := (hatomic h).abortable.ignored

/-- The checked recovery writes nothing if the journal is empty. -/
theorem recoverChecked_unchanged {d : Disk}
    (hvacant : journalOf sb d.blocks = .ok []) :
    (recoverJournalAndCheckpointChecked sb d).2 = d := by
  rcases recoverJournalAndCheckpointChecked_cases sb d with
    ⟨e, hrun, _⟩ | ⟨_, hrun⟩ | ⟨journal, _, _, _, hne, hload, _⟩
  · rw [hrun]
  · rw [hrun]
  · rw [hvacant, Except.ok.injEq] at hload
    exact absurd hload.symm hne

/-- The recovery that checks first, then a part that reads. -/
theorem Finds.entryChecked {rest : DevM Disk β} {good : Volume → β → Prop}
    (h : Finds sb rest good) :
    Entry sb (recoverJournalAndCheckpointChecked sb >>= fun _ => rest)
      good where
  entered hd := hd.entered_recoverChecked
  unchanged := by
    intro d _ hvacant
    have hsame := recoverChecked_unchanged hvacant
    exact Effect.bind_snd_of_unchanged hsame fun _ => h.unchanged d
  finds hmounted :=
    Effect.atomic_bind_of_ok hmounted.recoverChecked (h.atomic hmounted)

/-- The same, where what is found is known for the whole first part. -/
theorem entryChecked_of {rest : DevM Disk β} {good : Volume → β → Prop}
    (hsame : ∀ d, (rest d).2 = d)
    (hfound : ∀ {d a inodes entries b}, Mounted d sb a inodes entries →
      ((recoverJournalAndCheckpointChecked sb >>= fun _ => rest) d).1 = .ok b →
        good (volumeOf sb d) b) :
    Entry sb (recoverJournalAndCheckpointChecked sb >>= fun _ => rest)
      good := by
  apply Finds.entryChecked
  refine ⟨hsame, ?_⟩
  intro d a inodes entries b h hrun
  apply hfound h
  rw [Effect.bind_of_ok h.recoverChecked, hrun]

/-- A check before a first part. -/
theorem Entry.check {r : Result γ} {f : γ → DevM Disk β}
    {good : Volume → β → Prop} (h : ∀ c, r = .ok c → Entry sb (f c) good) :
    Entry sb (liftM r >>= f) good where
  entered hd := entered_lift_bind fun c hc => (h c hc).entered hd
  unchanged := by
    intro d hsize hvacant
    cases r with
    | error e => rfl
    | ok c =>
      rw [Effect.lift_bind_of_ok rfl]
      exact (h c rfl).unchanged hsize hvacant
  finds hmounted :=
    Effect.atomic_lift_bind fun c hc => (h c hc).finds hmounted

/-- A call with a first part, if it relies on an invariant or leaves its
transaction in the journal. -/
theorem Entry.performs {enter : DevM Disk β} {good : Volume → β → Prop}
    (he : Entry sb enter good) {inv : Volume → Prop}
    {spec : Volume → Volume → Prop} {f : β → DevM Disk α}
    (hinv : ∀ v v', spec v v' → inv v → inv v')
    (hguarded : ∀ {b d a inodes entries}, Mounted d sb a inodes entries →
      Guarded sb (f b) d)
    (hatomic : ∀ {b d a inodes entries}, Mounted d sb a inodes entries →
      inv (volumeOf sb d) → good (volumeOf sb d) b →
      Effect.Atomic (f b) d fun _ d' => Leaves sb spec d d') :
    Performs sb inv (Effect.abortable (Effect.ignore (enter >>= f)))
      fun _ => spec := by
  rw [Effect.ignore_bind]
  apply performs_abortable (fun _ => hinv)
  · exact fun hd => (he.entered hd).bind _
  · intro d a inodes entries h
    rw [guarded_bind_unchanged (he.unchanged h.size h.vacant)]
    exact fun b _ => guarded_map.mpr (hguarded h)
  · intro d a inodes entries h hv
    apply (he.finds h).bind_unchanged
    intro b hb
    exact (hatomic h hv hb).ignored

/-- A call that only reads. -/
theorem Entry.reads {enter : DevM Disk β} {good : Volume → β → Prop}
    (he : Entry sb enter good) :
    Implements sb (Effect.abortable enter)
      fun b v v' => v' = v ∧ good v b where
  entered hd := (he.entered hd).abortable
  guarded := by
    intro d hsize hvacant
    exact guarded_of_unchanged (he.unchanged hsize hvacant)
  atomic := by
    intro d a inodes entries h
    apply (he.finds h).abortable.mono
    intro b d' hpost
    obtain ⟨rfl, hgood⟩ := hpost
    exact ⟨⟨a, inodes, entries, h⟩, rfl, hgood⟩

/-- The same with the recovery that checks first. -/
theorem implements_recoverChecked {rest : DevM Disk α} {spec : Volume → Volume → Prop}
    (hguarded : ∀ {d}, sb.totalBlocks = d.size →
      journalOf sb d.blocks = .ok [] → Guarded sb rest d)
    (hatomic : ∀ {d a inodes entries}, Mounted d sb a inodes entries →
      Effect.Atomic (recoverJournalAndCheckpointChecked sb >>= fun _ => rest) d
        fun _ d' => Consistent sb d' ∧ spec (volumeOf sb d) (volumeOf sb d')) :
    Implements sb (Effect.ignore (Effect.abortable
      (recoverJournalAndCheckpointChecked sb >>= fun _ => rest))) fun _ => spec where
  entered hd := hd.entered_recoverChecked.abortable.bind _
  guarded := by
    intro d hsize hvacant
    apply guarded_map.mpr
    apply Guarded.abortable
    rw [guarded_bind_unchanged (recoverChecked_unchanged hvacant)]
    exact fun _ _ => hguarded hsize hvacant
  atomic h := (hatomic h).abortable.ignored

/-- One read. -/
theorem finds_query {q : Disk → Result β} {good : Volume → β → Prop}
    (hq : ∀ {d a inodes entries b}, Mounted d sb a inodes entries →
      q d = .ok b → good (volumeOf sb d) b) : Finds sb (Effect.query q) good :=
  ⟨fun _ => rfl, hq⟩

/-- One read after another. -/
theorem Finds.bind {rest : DevM Disk β} {good : Volume → β → Prop}
    (h : Finds sb rest good) {f : β → DevM Disk γ} {good' : Volume → γ → Prop}
    (hf : ∀ b, Finds sb (f b) fun v c => good v b → good' v c) :
    Finds sb (rest >>= f) good' where
  unchanged d :=
    Effect.bind_snd_of_unchanged (h.unchanged d) fun b => (hf b).unchanged d
  found := by
    intro d a inodes entries c hmounted hrun
    have hsame := h.unchanged d
    rcases hrest : rest d with ⟨e | b, d'⟩
    · rw [Effect.bind_of_error hrest] at hrun
      cases hrun
    · rw [hrest] at hsame
      obtain rfl : d' = d := hsame
      rw [Effect.bind_of_ok hrest] at hrun
      exact (hf b).found hmounted hrun (h.found hmounted (by rw [hrest]))

end Entry

/-- **Calls that perform their specifications refine them**, also if the power
fails. -/
theorem refines_of_performs {κ ρ : Type} {sb : Superblock} {inv : Volume → Prop}
    {run : κ → Effect (Abort IoError) Disk ρ}
    {spec : κ → ρ → Volume → Volume → Prop}
    (h : ∀ k, Performs sb inv (run k) (spec k)) :
    CallRun.Refines (volumeMachine run) spec
      fun d v => StandsFor sb d v ∧ inv v where
  acknowledged := by
    intro k r d d' v hv hrun
    exact (h k).acknowledged hv.1 hv.2 hrun
  rejected := by
    intro k d d' v hv hrun
    obtain ⟨e, hrun⟩ := hrun
    exact ⟨(h k).rejected hv.1 hv.2 hrun, hv.2⟩
  cut := by
    intro k d img v hv hcut
    rcases (h k).cut hv.1 hv.2 hcut with hsame | hdone
    · exact .inl ⟨hsame, hv.2⟩
    · exact .inr hdone

end FilesystemLab
