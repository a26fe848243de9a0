import FilesystemLab.PrefixCheckpoint

/-!
# Runs of the journal layer

Any sequence of publications, recoveries and checkpoints, each of which returns,
is rejected, or is cut by a power failure.

The effective view of a device is its home blocks under the committed writes of
its journal.  `Shown` is the invariant: the journal loads, an empty journal is
the empty anchor, and the home blocks show a given view.  Each call either keeps
the view or extends it by the writes that it publishes (`CallEffect`), and a
power failure picks one of the two.
-/

namespace FilesystemLab

open Bytes JournalCodec WriteLog Transaction

/-! ## Calls and runs -/

/-- A call of the journal layer. -/
inductive JournalCall where
  | store (entries : List JournalEntry)
  | append (entries : List JournalEntry)
  | recover
  | recoverAndCheckpoint
  | partialCheckpoint (maxTransactions : Nat)

namespace JournalCall

/-- The operation of a call, without its report. -/
def run (sb : Superblock) : JournalCall → DevM Disk Unit
  | .store entries => storeJournalImage sb entries
  | .append entries => appendRetainedJournalEntries sb entries
  | .recover => do
    let _ ← recoverJournal sb
    pure ()
  | .recoverAndCheckpoint => do
    let _ ← recoverJournalAndCheckpoint sb
    pure ()
  | .partialCheckpoint maxTransactions => do
    let _ ← recoverRetainedPrefixAndCheckpoint sb maxTransactions
    pure ()

/-- The home writes that a call publishes. -/
def published : JournalCall → List (Nat × Block)
  | .store entries => committedWrites entries
  | .append entries => committedWrites entries
  | _ => []

end JournalCall

/-- How a call ends. -/
inductive Outcome where
  | returned
  | rejected
  | crashed

/-- One call on a disk. -/
inductive JournalStep (sb : Superblock) (d : Disk) :
    JournalCall × Outcome → Disk → Prop where
  | returned {call : JournalCall} {d' : Disk}
      (h : call.run sb d = (.ok (), d')) : JournalStep sb d (call, .returned) d'
  | rejected {call : JournalCall} {e : IoError} {d' : Disk}
      (h : call.run sb d = (.error e, d')) :
      JournalStep sb d (call, .rejected) d'
  | crashed {call : JournalCall} {img : Disk}
      (h : d.CrashDuring (call.run sb) img) :
      JournalStep sb d (call, .crashed) img

/-- A sequence of calls, with how each of them ends. -/
inductive JournalRun (sb : Superblock) (d : Disk) :
    List (JournalCall × Outcome) → Disk → Prop where
  | start : JournalRun sb d [] d
  | step {calls : List (JournalCall × Outcome)} {call : JournalCall × Outcome}
      {d' d'' : Disk} (h : JournalRun sb d calls d')
      (hstep : JournalStep sb d' call d'') :
      JournalRun sb d (calls ++ [call]) d''

/-- The writes that a call may contribute: all that it publishes if it returns,
none if it is rejected, and all or none if it is cut. -/
def Contributes : JournalCall × Outcome → List (Nat × Block) → Prop
  | (call, .returned), ws => ws = call.published
  | (_, .rejected), ws => ws = []
  | (call, .crashed), ws => ws = call.published ∨ ws = []

/-! ## The effective view -/

/-- The contents `f` show the home blocks `view` under their journal. -/
def Shown (sb : Superblock) (f view : Nat → Block) : Prop :=
  ∃ entries, journalOf sb f = .ok entries ∧
    (entries = [] → f sb.journalStart = emptyAnchorBlock) ∧
    ∀ b, ¬ sb.journalRange b → overlay f (committedWrites entries) b = view b

/-- What a call does to contents that show `view`. -/
structure CallEffect (sb : Superblock) (call : JournalCall) (d : Disk)
    (view : Nat → Block) (eps : List (List (Nat × Block))) : Prop where
  commit : (call.run sb d).2 = d.commit eps
  crash : ∀ img, CrashImage d.blocks (barriers eps) img →
    Shown sb img view ∨ Shown sb img (overlay view call.published)
  ok : (call.run sb d).1 = .ok () →
    Shown sb (settle d.blocks eps) (overlay view call.published)
  error : ∀ e, (call.run sb d).1 = .error e → Shown sb (settle d.blocks eps) view

section View

variable {sb : Superblock} {d : Disk} {view : Nat → Block}

/-- A call that fails before its first write. -/
theorem CallEffect.of_unchanged {call : JournalCall} {e : IoError}
    (hview : Shown sb d.blocks view) (h : call.run sb d = (.error e, d)) :
    CallEffect sb call d view [] where
  commit := by rw [h, Disk.commit_nil]
  crash := by
    intro img hc
    rw [crashImage_barriers_nil hc]
    exact .inl hview
  ok := by
    intro hok
    rw [h] at hok
    cases hok
  error := fun _ _ => hview

/-- A call that publishes nothing keeps the view. -/
theorem CallEffect.of_silent {call : JournalCall}
    {eps : List (List (Nat × Block))} (hpub : call.published = [])
    (hcommit : (call.run sb d).2 = d.commit eps)
    (hcrash : ∀ img, CrashImage d.blocks (barriers eps) img →
      Shown sb img view) : CallEffect sb call d view eps where
  commit := hcommit
  crash := fun img hc => .inl (hcrash img hc)
  ok := by
    intro _
    rw [hpub]
    exact hcrash _ (crashImage_settle _ _)
  error := fun _ _ => hcrash _ (crashImage_settle _ _)

/-- Contents with the old home blocks and a longer stream. -/
theorem Shown.of_new {f img : Nat → Block} {old new : List JournalEntry}
    {ws : List (Nat × Block)} (hview : Shown sb f view)
    (hold : journalOf sb f = .ok old) (hne : new ≠ [])
    (hnew : committedWrites new = committedWrites old ++ ws)
    (hhome : ∀ b, ¬ sb.journalRange b → img b = f b)
    (hload : journalOf sb img = .ok new) :
    Shown sb img (overlay view ws) := by
  obtain ⟨entries, hload', _, hshow⟩ := hview
  rw [hold, Except.ok.injEq] at hload'
  subst hload'
  refine ⟨new, hload, fun hnil => absurd hnil hne, ?_⟩
  intro b hb
  rw [hnew, overlay_append]
  apply overlay_congr
  intro _
  rw [overlay_congr fun _ => hhome b hb, hshow b hb]

/-- A publication that leaves the old stream or the new one. -/
theorem Shown.of_published {f img : Nat → Block} {old new : List JournalEntry}
    {ws : List (Nat × Block)} (hview : Shown sb f view)
    (hold : journalOf sb f = .ok old) (hne : new ≠ [])
    (hnew : committedWrites new = committedWrites old ++ ws)
    (hpub : Published sb f old new img) :
    Shown sb img view ∨ Shown sb img (overlay view ws) := by
  rcases hpub.stream with ⟨hanchor, hload⟩ | hload
  · left
    obtain ⟨entries, hload', hfirst, hshow⟩ := hview
    rw [hold, Except.ok.injEq] at hload'
    subst hload'
    refine ⟨old, hload, ?_, ?_⟩
    · intro hnil
      rcases hanchor with hsame | hempty
      · rw [hsame, hfirst hnil]
      · exact hempty
    · intro b hb
      rw [overlay_congr fun _ => hpub.home b hb, hshow b hb]
  · exact .inr (hview.of_new hold hne hnew hpub.home hload)

/-- The effect of an accepted publication. -/
theorem CallEffect.of_publication {call : JournalCall}
    {eps : List (List (Nat × Block))} {old new : List JournalEntry}
    (hview : Shown sb d.blocks view) (hold : journalOf sb d.blocks = .ok old)
    (hne : new ≠ [])
    (hnew : committedWrites new = committedWrites old ++ call.published)
    (hrun : call.run sb d = (.ok (), d.commit eps))
    (hcrash : ∀ img, CrashImage d.blocks (barriers eps) img →
      Published sb d.blocks old new img)
    (hload : journalOf sb (settle d.blocks eps) = .ok new) :
    CallEffect sb call d view eps where
  commit := congrArg Prod.snd hrun
  crash := fun img hc => hview.of_published hold hne hnew (hcrash img hc)
  ok := fun _ => hview.of_new hold hne hnew
    (hcrash _ (crashImage_settle _ _)).home hload
  error := by
    intro e he
    rw [hrun] at he
    cases he

/-- `store_journal_image`. -/
theorem callEffect_store (hview : Shown sb d.blocks view)
    (entries : List JournalEntry) :
    ∃ eps, CallEffect sb (.store entries) d view eps := by
  rcases storeJournalImage_cases sb d entries with ⟨_, e, herr⟩ | ⟨hacc, hrun⟩
  · exact ⟨_, CallEffect.of_unchanged hview herr⟩
  refine ⟨storeEpochs sb entries, ?_⟩
  by_cases hnil : entries = []
  · -- the empty anchor is written over itself
    subst hnil
    refine CallEffect.of_silent rfl (congrArg Prod.snd hrun) ?_
    intro img hc
    have hfirst : d.blocks sb.journalStart = emptyAnchorBlock := by
      obtain ⟨current, hload, hfirst, _⟩ := hview
      rw [hacc.vacant, Except.ok.injEq] at hload
      exact hfirst hload.symm
    have hsame : ∀ g, Mixed d.blocks [(sb.journalStart, emptyAnchorBlock)] g →
        g = d.blocks := by
      intro g hg
      rcases hg.single with rfl | rfl
      · rfl
      · rw [← hfirst, Function.update_eq_self]
    rcases crashImage_barriers_cons hc with hmix | hc
    · rw [hsame img hmix]
      exact hview
    · rw [crashImage_barriers_nil hc, hsame _ (mixed_overlay _ _)]
      exact hview
  · exact CallEffect.of_publication hview hacc.vacant hnil rfl hrun
      (fun img hc => hacc.published hc) hacc.journalOf_settle.1

/-- The committed writes of an appended stream. -/
theorem AppendPlan.committedWrites_append {entries old : List JournalEntry}
    {layout : V3BankLayout} {bank start : Nat} {anchorBlock : Block}
    (h : AppendPlan sb d entries old layout bank start anchorBlock) :
    committedWrites (old ++ entries) =
      committedWrites old ++ committedWrites entries := by
  obtain ⟨txs, _, rfl, _⟩ := validateCompleteEntries_iff.mp h.complete
  rcases h.base with ⟨_, rfl, _⟩ | ⟨_, hcomplete⟩
  · rfl
  · obtain ⟨txs', _, rfl, _⟩ := validateCompleteEntries_iff.mp hcomplete
    rw [← log_append, committedWrites_log, committedWrites_log,
      committedWrites_log, logWrites_append]

/-- `append_retained_journal_entries`. -/
theorem callEffect_append (hview : Shown sb d.blocks view)
    (entries : List JournalEntry) :
    ∃ eps, CallEffect sb (.append entries) d view eps := by
  rcases appendRetainedJournalEntries_cases sb d entries with ⟨e, herr⟩ |
    ⟨old, layout, bank, start, anchorBlock, hplan, hrun⟩
  · exact ⟨_, CallEffect.of_unchanged hview herr⟩
  refine ⟨_, CallEffect.of_publication hview hplan.load ?_
    hplan.committedWrites_append hrun ?_ ?_⟩
  · exact (validate_of_complete hplan.snapshot.fits.1).2
  · intro img hc
    refine hplan.published ?_ hc
    rcases hplan.base with ⟨_, hnil, _⟩ | ⟨⟨anchor, hanchor, _⟩, _⟩
    · obtain ⟨current, hload, hfirst, _⟩ := hview
      rw [hplan.load, Except.ok.injEq] at hload
      exact .inl (hfirst (hload.symm.trans hnil))
    · exact .inr ⟨anchor, hanchor⟩
  · rw [settle_snapshotEpochs]
    exact hplan.snapshot.journalOf_flip _

/-- A replay that is under way keeps the view. -/
theorem Shown.of_mixed {f img : Nat → Block} {entries : List JournalEntry}
    {plan : RecoveryPlan} (h : Plans sb entries plan) (hview : Shown sb f view)
    (hload : journalOf sb f = .ok entries)
    (hmix : Mixed f plan.writes img) : Shown sb img view := by
  obtain ⟨current, hload', hfirst, hshow⟩ := hview
  rw [hload, Except.ok.injEq] at hload'
  subst hload'
  rw [committedWrites_of_plan h.plan_eq] at hshow
  refine ⟨entries, by rw [h.journalOf_mixed hmix, hload], ?_, ?_⟩
  · intro hnil
    rw [hmix.eq_of_notMem (h.notMem_of_journalRange (journalStart_mem sb)),
      hfirst hnil]
  · intro b hb
    rw [committedWrites_of_plan h.plan_eq, hmix.overlay_eq, hshow b hb]

/-- `recover_journal`. -/
theorem callEffect_recover (hsize : sb.totalBlocks = d.size)
    (hview : Shown sb d.blocks view) :
    ∃ eps, CallEffect sb .recover d view eps := by
  obtain ⟨entries, hload, _⟩ := id hview
  obtain ⟨plan, h⟩ := plans_of_journalOf hload
  refine ⟨replayEpochs plan.writes, CallEffect.of_silent rfl ?_ ?_⟩
  · simp only [JournalCall.run,
      Effect.bind_of_ok (h.recoverJournal_apply hsize hload)]
    rfl
  · intro img hc
    exact hview.of_mixed h hload (mixed_of_crash_replay hc)

/-- `recover_journal_and_checkpoint`. -/
theorem callEffect_recoverAndCheckpoint (hsize : sb.totalBlocks = d.size)
    (hview : Shown sb d.blocks view) :
    ∃ eps, CallEffect sb .recoverAndCheckpoint d view eps := by
  obtain ⟨entries, hload, hfirst, hshow⟩ := id hview
  obtain ⟨plan, h⟩ := plans_of_journalOf hload
  refine ⟨Plans.epochs sb entries plan, CallEffect.of_silent rfl ?_ ?_⟩
  · simp only [JournalCall.run,
      Effect.bind_of_ok (h.recoverJournalAndCheckpoint_apply hsize hload)]
    rfl
  · intro img hc
    rcases h.replaying_of_crash (Mixed.refl _ _) hc with hmix | rfl
    · exact hview.of_mixed h hload hmix
    · refine ⟨[], h.journalOf_recovered hload, ?_, ?_⟩
      · intro _
        rw [h.recovered_eq]
        split
        · rename_i hnil
          exact hfirst hnil
        · exact Function.update_self _ _ _
      · intro b hb
        rw [committedWrites_of_plan h.plan_eq] at hshow
        rw [← hshow b hb]
        exact recovered_home h _ hb

/-- A replay of the first transactions that is under way keeps the view. -/
theorem Shown.of_mixed_take {f img : Nat → Block} {anchor : V3Anchor}
    {layout : V3BankLayout} {txs : List Transaction}
    (h : Retained sb f anchor layout txs) (hview : Shown sb f view) {n : Nat}
    (hmix : Mixed f (logWrites (txs.take n)) img) : Shown sb img view := by
  apply hview.of_mixed ⟨planRecovery_log txs, rfl, h.targets⟩ h.load
  exact hmix.mono (logWrites_take_subset txs n)

/-- A partial checkpoint whose replay is finished keeps the view. -/
theorem Shown.of_replaced {f img : Nat → Block} {txs : List Transaction}
    {n : Nat}
    (hshow : ∀ b, ¬ sb.journalRange b → overlay f (logWrites txs) b = view b)
    (hhome : ∀ b, ¬ sb.journalRange b →
      img b = overlay f (logWrites (txs.take n)) b)
    (hload : journalOf sb img = .ok (log (txs.drop n)))
    (hfirst : txs.drop n = [] → img sb.journalStart = emptyAnchorBlock) :
    Shown sb img view := by
  refine ⟨_, hload, fun hnil => hfirst (log_eq_nil.mp hnil), ?_⟩
  intro b hb
  rw [committedWrites_log, overlay_congr fun _ => hhome b hb,
    ← overlay_append, ← logWrites_append, List.take_append_drop, hshow b hb]

/-- `recover_retained_prefix_and_checkpoint`. -/
theorem callEffect_partialCheckpoint (hview : Shown sb d.blocks view)
    (n : Nat) : ∃ eps, CallEffect sb (.partialCheckpoint n) d view eps := by
  rcases recoverRetainedPrefixAndCheckpoint_cases sb n d with ⟨e, herr⟩ |
    ⟨anchor, layout, txs, hsize, h, ⟨e, herr⟩ | ⟨report, eps, hrep, hrun⟩⟩
  · exact ⟨[], CallEffect.of_unchanged hview (Effect.bind_of_error herr)⟩
  · refine ⟨replayEpochs (logWrites (txs.take n)),
      CallEffect.of_silent rfl ?_ ?_⟩
    · simp only [JournalCall.run, Effect.bind_of_error herr]
    · intro img hc
      exact hview.of_mixed_take h (mixed_of_crash_replay hc)
  · refine ⟨replayEpochs (logWrites (txs.take n)) ++ eps,
      CallEffect.of_silent rfl ?_ ?_⟩
    · simp only [JournalCall.run, Effect.bind_of_ok hrun]
      rfl
    intro img hc
    rcases crash_replayEpochs hc with hmix | hc
    · exact hview.of_mixed_take h hmix
    -- the replay is durable, so that the replacement may crash either way
    have hretained := h.replayed n
    rw [Disk.blocks_commit, settle_replayEpochs] at hretained
    obtain ⟨hpub, hnil⟩ := hrep.published hretained hc
    obtain ⟨entries, hload, hfirst, hshow⟩ := hview
    rw [h.load, Except.ok.injEq] at hload
    subst hload
    rw [committedWrites_log] at hshow
    have hold : journalOf sb img = .ok (log txs) → Shown sb img view := by
      intro hload
      refine ⟨_, hload, fun hnil => absurd (log_eq_nil.mp hnil) h.fits.1, ?_⟩
      intro b hb
      have hmix : Mixed d.blocks (logWrites txs)
          (overlay d.blocks (logWrites (txs.take n))) :=
        (mixed_overlay _ _).mono (logWrites_take_subset txs n)
      rw [committedWrites_log, overlay_congr fun _ => hpub.home b hb,
        hmix.overlay_eq, hshow b hb]
    rcases hpub.stream with ⟨_, hload⟩ | hload
    · exact hold hload
    · by_cases hdrop : txs.drop n = []
      · rcases hnil hdrop with hload' | hfirst'
        · exact hold hload'
        · exact Shown.of_replaced hshow hpub.home hload fun _ => hfirst'
      · exact Shown.of_replaced hshow hpub.home hload
          fun hnil => absurd hnil hdrop

/-- Every call keeps the view or extends it by what it publishes. -/
theorem exists_callEffect (hsize : sb.totalBlocks = d.size)
    (hview : Shown sb d.blocks view) (call : JournalCall) :
    ∃ eps, CallEffect sb call d view eps := by
  cases call with
  | store entries => exact callEffect_store hview entries
  | append entries => exact callEffect_append hview entries
  | recover => exact callEffect_recover hsize hview
  | recoverAndCheckpoint =>
    exact callEffect_recoverAndCheckpoint hsize hview
  | partialCheckpoint n => exact callEffect_partialCheckpoint hview n

/-- One step of a run. -/
theorem shown_step {d' : Disk} {call : JournalCall × Outcome}
    (hd : d.Settled) (hsize : sb.totalBlocks = d.size)
    (hview : Shown sb d.blocks view) (hstep : JournalStep sb d call d') :
    ∃ ws, Contributes call ws ∧ d'.Settled ∧ sb.totalBlocks = d'.size ∧
      Shown sb d'.blocks (overlay view ws) := by
  obtain ⟨eps, heffect⟩ := exists_callEffect hsize hview call.1
  have hcommit := heffect.commit
  cases hstep with
  | returned h =>
    rw [h] at hcommit
    simp only at hcommit
    subst hcommit
    refine ⟨_, rfl, Disk.commit_settled hd _, hsize, ?_⟩
    rw [Disk.blocks_commit]
    exact heffect.ok (congrArg Prod.fst h)
  | rejected h =>
    rw [h] at hcommit
    simp only at hcommit
    subst hcommit
    refine ⟨[], rfl, Disk.commit_settled hd _, hsize, ?_⟩
    rw [Disk.blocks_commit]
    exact heffect.error _ (congrArg Prod.fst h)
  | crashed h =>
    obtain ⟨img, hc, rfl⟩ := (Disk.crashDuring_iff hcommit hd).mp h
    rcases heffect.crash img hc with hshown | hshown
    · exact ⟨[], .inr rfl, Disk.boot_settled _ _, hsize, hshown⟩
    · exact ⟨_, .inl rfl, Disk.boot_settled _ _, hsize, hshown⟩

end View

/-- A whole run. -/
theorem shown_run {sb : Superblock} {d d' : Disk} {view : Nat → Block}
    {calls : List (JournalCall × Outcome)} (hd : d.Settled)
    (hsize : sb.totalBlocks = d.size) (hview : Shown sb d.blocks view)
    (hrun : JournalRun sb d calls d') :
    ∃ wss, List.Forall₂ Contributes calls wss ∧ d'.Settled ∧
      sb.totalBlocks = d'.size ∧
      Shown sb d'.blocks (overlay view wss.flatten) := by
  induction hrun with
  | start => exact ⟨[], .nil, hd, hsize, hview⟩
  | step _ hstep ih =>
    obtain ⟨wss, hall, hd', hsize', hview'⟩ := ih
    obtain ⟨ws, hws, hd'', hsize'', hview''⟩ :=
      shown_step hd' hsize' hview' hstep
    refine ⟨wss ++ [ws], List.rel_append hall (.cons hws .nil), hd'', hsize'',
      ?_⟩
    rw [List.flatten_append, overlay_append]
    simpa using hview''

/-- **No committed transaction is lost, duplicated, reordered or half
visible.**  After any run of journal calls from an empty anchor the journal
loads, and the home blocks under its committed writes are the initial ones
under the writes of every publication that returned, in call order, with all or
none of the writes of each publication that was cut. -/
theorem journalRun_view {sb : Superblock} {d d' : Disk}
    {calls : List (JournalCall × Outcome)} (hd : d.Settled)
    (hsize : sb.totalBlocks = d.size)
    (hfirst : d.blocks sb.journalStart = emptyAnchorBlock)
    (hrun : JournalRun sb d calls d') :
    ∃ entries wss, loadJournalImage d' sb = .ok entries ∧
      List.Forall₂ Contributes calls wss ∧
      ∀ b, ¬ sb.journalRange b →
        overlay d'.blocks (committedWrites entries) b =
          overlay d.blocks wss.flatten b := by
  have hview : Shown sb d.blocks d.blocks :=
    ⟨[], journalOf_emptyAnchor hfirst, fun _ => hfirst, fun _ _ => rfl⟩
  obtain ⟨wss, hall, _, hsize', entries, hload, _, hshow⟩ :=
    shown_run hd hsize hview hrun
  exact ⟨entries, wss, by rw [loadJournalImage_disk hsize', hload], hall,
    hshow⟩

/-- Two transactions are appended, a checkpoint of the first one is cut behind
its home write, and the next one returns: block 12 still shows the second
transaction. -/
theorem journalRun_view_sample :
    ∃ d', JournalRun wideSuperblock (wideDisk fun _ => Block.zero)
        [(.append (log twinTransactions), .returned),
          (.partialCheckpoint 1, .crashed),
          (.partialCheckpoint 1, .returned)] d' ∧
      ∃ entries, loadJournalImage d' wideSuperblock = .ok entries ∧
        overlay d'.blocks (committedWrites entries) 12 = Block.ofBytes [2] := by
  obtain ⟨d, anchor, layout, happend, hsettled, h⟩ := append_wideDisk
  have hreturned : ∀ {d : Disk}, RetainsTwins d anchor layout → ∃ eps,
      (JournalCall.partialCheckpoint 1).run wideSuperblock d =
        (.ok (), d.commit ([(12, Block.ofBytes [1])] :: eps)) := by
    intro d h
    obtain ⟨report, eps, hrun⟩ := h.partialCheckpoint
    refine ⟨eps, ?_⟩
    rw [JournalCall.run, Effect.bind_of_ok hrun]
    rfl
  have hfirst : (JournalCall.append (log twinTransactions)).run wideSuperblock
      (wideDisk fun _ => Block.zero) = (.ok (), d) := happend
  obtain ⟨eps, hcut⟩ := hreturned h
  have hcrash : d.CrashDuring ((JournalCall.partialCheckpoint 1).run
      wideSuperblock) (Disk.boot d.size
        (Function.update d.blocks 12 (Block.ofBytes [1]))) := by
    refine (Disk.crashDuring_iff (congrArg Prod.snd hcut) hsettled).mpr
      ⟨_, ?_, rfl⟩
    rw [barriers_cons, epoch]
    exact crashImage_first_write
  obtain ⟨eps', hlast⟩ := hreturned h.rebooted
  have hrun := JournalRun.step (.step (.step .start (.returned hfirst))
    (.crashed hcrash)) (.returned hlast)
  obtain ⟨entries, wss, hload, hall, hshow⟩ :=
    journalRun_view formatted_settled rfl rfl hrun
  refine ⟨_, hrun, entries, hload, ?_⟩
  obtain ⟨ws, _, hws, hcalls, rfl⟩ := List.forall₂_cons_left_iff.mp hall
  obtain ⟨ws', _, hws', hcalls', rfl⟩ := List.forall₂_cons_left_iff.mp hcalls
  obtain ⟨ws'', _, hws'', hnil, rfl⟩ := List.forall₂_cons_left_iff.mp hcalls'
  have hpublished : ws = [(12, Block.ofBytes [1]), (12, Block.ofBytes [2])] :=
    hws
  have hcutNone : ws' = [] := hws'.elim id id
  have hlastNone : ws'' = [] := hws''
  rw [hshow 12 (by decide), List.forall₂_nil_left_iff.mp hnil, hpublished,
    hcutNone, hlastNone]
  simp

end FilesystemLab
