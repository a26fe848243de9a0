import FilesystemLab.JournalAtomic
import Mathlib.Logic.Relation

/-!
# Replay and checkpoint

`src/recovery.rs` and the unchecked half of `src/journal_checkpoint.rs`.
Recovery writes the home blocks of the committed transactions, in log order,
and flushes; the checkpoint then publishes the empty anchor.

`Replaying` is the invariant of interrupted recoveries: until the anchor is
written, every block holds its original contents or some value that the plan
writes to it, so the plan is the same and replaying it gives the same home.
`recovery_converges` is the result over any number of interruptions.
-/

namespace FilesystemLab

open WriteLog

section Device

variable {σ : Type} [BlockDevice σ]

/-- The loop over `plan.writes()` and the flush that follows it. -/
def replay (plan : RecoveryPlan) : DevM σ Unit := do
  writeBlocks plan.writes
  flushIf (plan.report.homeWrites ≠ 0)

/-- `recover_journal`. -/
def recoverJournal (sb : Superblock) : DevM σ RecoveryReport := do
  let entries ← Effect.query (loadJournalImage · sb)
  let plan ← planRecovery entries
  replay plan
  pure plan.report

/-- `checkpoint_journal`. -/
def checkpointJournal (sb : Superblock) : DevM σ Bool := do
  let entries ← Effect.query (loadJournalImage · sb)
  if entries = [] then pure false
  else do
    storeEmptyJournalAnchor sb
    pure true

/-- `recover_journal_and_checkpoint`. -/
def recoverJournalAndCheckpoint (sb : Superblock) : DevM σ RecoveryReport := do
  let report ← recoverJournal sb
  let _ ← checkpointJournal sb
  pure report

end Device

/-! ## What the operations write -/

/-- The epochs of a replay. -/
def replayEpochs (ws : List (Nat × Block)) : List (List (Nat × Block)) :=
  if ws = [] then [] else [ws]

/-- The epochs of a checkpoint of a stream. -/
def checkpointEpochs (sb : Superblock) (entries : List JournalEntry) :
    List (List (Nat × Block)) :=
  if entries = [] then [] else [[(sb.journalStart, emptyAnchorBlock)]]

theorem settle_replayEpochs (f : Nat → Block) (ws : List (Nat × Block)) :
    settle f (replayEpochs ws) = overlay f ws := by
  rw [replayEpochs]
  split
  · rename_i hnil
    rw [hnil]
    rfl
  · simp [settle]

/-- A power failure inside a replay and what follows it. -/
theorem crash_replayEpochs {f img : Nat → Block} {ws : List (Nat × Block)}
    {eps : List (List (Nat × Block))}
    (hc : CrashImage f (barriers (replayEpochs ws ++ eps)) img) :
    Mixed f ws img ∨ CrashImage (overlay f ws) (barriers eps) img := by
  rw [replayEpochs] at hc
  split at hc
  · rename_i hnil
    rw [hnil]
    exact .inr hc
  · exact crashImage_barriers_cons hc

theorem mixed_of_crash_replay {f img : Nat → Block} {ws : List (Nat × Block)}
    (hc : CrashImage f (barriers (replayEpochs ws)) img) : Mixed f ws img := by
  rw [← List.append_nil (replayEpochs ws)] at hc
  rcases crash_replayEpochs hc with hmix | hc
  · exact hmix
  · rw [crashImage_barriers_nil hc]
    exact mixed_overlay f ws

/-- A stream with a plan that writes home blocks of the disk. -/
structure Plans (sb : Superblock) (entries : List JournalEntry)
    (plan : RecoveryPlan) : Prop where
  plan_eq : planRecovery entries = .ok plan
  homeWrites : plan.report.homeWrites = plan.writes.length
  target : ∀ w ∈ plan.writes, sb.homeTarget w.1

/-- Every stream that the loader returns has a plan. -/
theorem plans_of_journalOf {sb : Superblock} {f : Nat → Block}
    {entries : List JournalEntry} (h : journalOf sb f = .ok entries) :
    ∃ plan, Plans sb entries plan := by
  obtain ⟨plan, h1, h2, h3⟩ :=
    planRecovery_of_validate (validate_of_journalOf h)
  exact ⟨plan, h1, h2, h3⟩

theorem replay_apply {sb : Superblock} {d : Disk} {plan : RecoveryPlan}
    (hsize : sb.totalBlocks = d.size)
    (hcount : plan.report.homeWrites = plan.writes.length)
    (htarget : ∀ w ∈ plan.writes, sb.homeTarget w.1) :
    replay plan d = (.ok (), d.commit (replayEpochs plan.writes)) := by
  have hlt : ∀ w ∈ plan.writes, w.1 < d.size := by
    intro w hw
    have := (sb.homeTarget_iff w.1).mp (htarget w hw)
    omega
  rw [replay, Effect.bind_of_ok (Disk.writeBlocks_apply hlt), flushIf, hcount,
    replayEpochs]
  by_cases hnil : plan.writes = []
  · simp [hnil]
  · have hpos := List.length_pos_of_ne_nil hnil
    rw [if_pos (by omega), if_neg hnil, Disk.flush_apply, Disk.extend_extend]
    simp [Disk.commit, barriers, epoch]

/-- A checkpoint publishes the empty anchor, unless the journal is empty
already. -/
theorem checkpointJournal_apply {sb : Superblock} {d : Disk}
    {entries : List JournalEntry} (hsize : sb.totalBlocks = d.size)
    (hload : journalOf sb d.blocks = .ok entries) :
    checkpointJournal sb d =
      if entries = [] then (.ok false, d)
      else (.ok true, d.commit [[(sb.journalStart, emptyAnchorBlock)]]) := by
  simp only [checkpointJournal, Effect.query_bind, loadJournalImage_disk hsize,
    hload]
  split
  · rfl
  · rw [Effect.bind_of_ok (storeEmptyJournalAnchor_apply hsize)]
    rfl

namespace Plans

variable {sb : Superblock} {entries : List JournalEntry} {plan : RecoveryPlan}

/-- The plan does not name the reservation. -/
theorem notMem_of_journalRange (h : Plans sb entries plan) {b : Nat}
    (hb : sb.journalRange b) : b ∉ plan.writes.map Prod.fst := by
  intro hmem
  obtain ⟨w, hw, rfl⟩ := List.mem_map.mp hmem
  exact Superblock.not_journalRange_of_homeTarget (h.target w hw) hb

/-- The plan does not name the superblock. -/
theorem superblock_notMem (h : Plans sb entries plan) :
    SUPERBLOCK_BLOCK ∉ plan.writes.map Prod.fst := by
  intro hmem
  obtain ⟨w, hw, heq⟩ := List.mem_map.mp hmem
  have htarget := (sb.homeTarget_iff w.1).mp (h.target w hw)
  have hlayout := sb.layout
  simp only [SUPERBLOCK_BLOCK] at heq
  omega

/-- Contents that mix the plan's writes hold the same journal. -/
theorem journalOf_mixed (h : Plans sb entries plan) {f g : Nat → Block}
    (hmix : Mixed f plan.writes g) : journalOf sb g = journalOf sb f :=
  journalOf_congr fun _ hb => hmix.eq_of_notMem (h.notMem_of_journalRange hb)

theorem recoverJournal_apply (h : Plans sb entries plan) {d : Disk}
    (hsize : sb.totalBlocks = d.size)
    (hload : journalOf sb d.blocks = .ok entries) :
    recoverJournal sb d =
      (.ok plan.report, d.commit (replayEpochs plan.writes)) := by
  simp only [recoverJournal, Effect.query_bind, Effect.lift_bind,
    loadJournalImage_disk hsize, hload, h.plan_eq]
  rw [Effect.bind_of_ok (replay_apply hsize h.homeWrites h.target)]
  rfl

/-- The epochs of a whole recovery. -/
def epochs (sb : Superblock) (entries : List JournalEntry)
    (plan : RecoveryPlan) : List (List (Nat × Block)) :=
  replayEpochs plan.writes ++ checkpointEpochs sb entries

theorem recoverJournalAndCheckpoint_apply (h : Plans sb entries plan)
    {d : Disk} (hsize : sb.totalBlocks = d.size)
    (hload : journalOf sb d.blocks = .ok entries) :
    recoverJournalAndCheckpoint sb d =
      (.ok plan.report, d.commit (epochs sb entries plan)) := by
  have hload' : journalOf sb
      (d.commit (replayEpochs plan.writes)).blocks = .ok entries := by
    rw [Disk.blocks_commit, settle_replayEpochs,
      h.journalOf_mixed (mixed_overlay _ _), hload]
  rw [recoverJournalAndCheckpoint,
    Effect.bind_of_ok (h.recoverJournal_apply hsize hload), epochs,
    ← Disk.commit_commit, checkpointEpochs]
  generalize hmid : d.commit (replayEpochs plan.writes) = mid at *
  have hsize' : sb.totalBlocks = mid.size := by rw [hsize, ← hmid]; rfl
  have hcheckpoint := checkpointJournal_apply hsize' hload'
  split
  · rename_i hnil
    rw [if_pos hnil] at hcheckpoint
    rw [Effect.bind_of_ok hcheckpoint, Disk.commit_nil]
    rfl
  · rename_i hne
    rw [if_neg hne] at hcheckpoint
    rw [Effect.bind_of_ok hcheckpoint]
    rfl

end Plans

/-- A recovery that succeeds keeps the geometry. -/
theorem recoverJournalAndCheckpoint_size {sb : Superblock} {d final : Disk}
    {report : RecoveryReport} (hsize : sb.totalBlocks = d.size)
    (hrun : recoverJournalAndCheckpoint sb d = (.ok report, final)) :
    sb.totalBlocks = final.size := by
  cases hload : journalOf sb d.blocks with
  | error e =>
    have hfail : recoverJournal sb d = (.error e, d) := by
      rw [recoverJournal, Effect.query_bind, loadJournalImage_disk hsize, hload]
    rw [recoverJournalAndCheckpoint, Effect.bind_of_error hfail] at hrun
    cases hrun
  | ok entries =>
    obtain ⟨plan, hplan⟩ := plans_of_journalOf hload
    rw [hplan.recoverJournalAndCheckpoint_apply hsize hload] at hrun
    cases hrun
    exact hsize

/-! ## Interrupted recoveries -/

/-- The contents after a finished recovery of `f`. -/
def recovered (sb : Superblock) (f : Nat → Block)
    (entries : List JournalEntry) (plan : RecoveryPlan) : Nat → Block :=
  settle f (Plans.epochs sb entries plan)

/-- The contents `g` inside a recovery of `f`: a mixture of `f` with the plan,
with the journal still in place, or the finished recovery. -/
def Replaying (sb : Superblock) (f : Nat → Block) (entries : List JournalEntry)
    (plan : RecoveryPlan) (g : Nat → Block) : Prop :=
  Mixed f plan.writes g ∨ g = recovered sb f entries plan

namespace Plans

variable {sb : Superblock} {entries : List JournalEntry} {plan : RecoveryPlan}

theorem plan_nil {plan : RecoveryPlan} (h : Plans sb [] plan) :
    plan.writes = [] ∧ plan.report = RecoveryReport.default := by
  have hplan := h.plan_eq
  simp only [planRecovery, List.foldlM_nil, Except.pure_eq_ok, Except.ok_bind,
    Except.ok.injEq] at hplan
  rw [← hplan]
  exact ⟨rfl, rfl⟩

theorem epochs_nil {plan : RecoveryPlan} (h : Plans sb [] plan) :
    epochs sb [] plan = [] := by
  rw [epochs, h.plan_nil.1]
  rfl

/-- The finished contents, block by block. -/
theorem recovered_eq (h : Plans sb entries plan) (f : Nat → Block) :
    recovered sb f entries plan =
      if entries = [] then f
      else Function.update (overlay f plan.writes) sb.journalStart
        emptyAnchorBlock := by
  split
  · rename_i hnil
    subst hnil
    rw [recovered, h.epochs_nil]
    rfl
  · rename_i hne
    rw [recovered, epochs, settle_append, settle_replayEpochs,
      checkpointEpochs, if_neg hne]
    rfl

/-- The journal of the finished contents is empty. -/
theorem journalOf_recovered (h : Plans sb entries plan) {f : Nat → Block}
    (hload : journalOf sb f = .ok entries) :
    journalOf sb (recovered sb f entries plan) = .ok [] := by
  rw [h.recovered_eq]
  split
  · rename_i hnil
    rw [hload, hnil]
  · exact journalOf_emptyAnchor (Function.update_self _ _ _)

/-- Recovery of a mixture finishes with the same contents. -/
theorem recovered_mixed (h : Plans sb entries plan) {f g : Nat → Block}
    (hmix : Mixed f plan.writes g) :
    recovered sb g entries plan = recovered sb f entries plan := by
  rw [h.recovered_eq, h.recovered_eq, hmix.overlay_eq]
  split
  · rename_i hnil
    subst hnil
    rw [h.plan_nil.1] at hmix
    funext a
    exact hmix.eq_of_notMem (by simp)
  · rfl

/-- A power failure inside a recovery of a mixture. -/
theorem replaying_of_crash (h : Plans sb entries plan) {f g img : Nat → Block}
    (hmix : Mixed f plan.writes g)
    (hc : CrashImage g (barriers (epochs sb entries plan)) img) :
    Replaying sb f entries plan img := by
  have hanchor : CrashImage (overlay g plan.writes)
      (barriers (checkpointEpochs sb entries)) img →
      Replaying sb f entries plan img := by
    intro hc
    have hdone : Mixed f plan.writes (overlay g plan.writes) := by
      rw [hmix.overlay_eq]
      exact mixed_overlay f plan.writes
    rw [checkpointEpochs] at hc
    split at hc
    · rw [crashImage_barriers_nil hc]
      exact .inl hdone
    · rename_i hne
      have himg : img = overlay g plan.writes ∨ img = Function.update
          (overlay g plan.writes) sb.journalStart emptyAnchorBlock := by
        rcases crashImage_barriers_cons hc with hmix | hc
        · exact hmix.single
        · exact .inr (crashImage_barriers_nil hc)
      rcases himg with rfl | rfl
      · exact .inl hdone
      · right
        rw [h.recovered_eq, if_neg hne, hmix.overlay_eq]
  rcases crash_replayEpochs hc with hmix' | hc
  · exact .inl (hmix.trans hmix')
  · exact hanchor hc

end Plans

/-- One attempt at recovery that the power interrupts. -/
inductive InterruptedRecovery (sb : Superblock) (d img : Disk) : Prop where
  | replay (h : d.CrashDuring (recoverJournal sb) img)
  | checkpoint (h : d.CrashDuring (recoverJournalAndCheckpoint sb) img)

/-- One interrupted attempt keeps the invariant. -/
theorem replaying_step {sb : Superblock} {entries : List JournalEntry}
    {plan : RecoveryPlan} (h : Plans sb entries plan) {f : Nat → Block}
    (hload : journalOf sb f = .ok entries) {d img : Disk} (hd : d.Settled)
    (hsize : sb.totalBlocks = d.size)
    (hinv : Replaying sb f entries plan d.blocks)
    (hstep : InterruptedRecovery sb d img) :
    img.Settled ∧ sb.totalBlocks = img.size ∧
      Replaying sb f entries plan img.blocks := by
  rcases hinv with hmix | hdone
  · have hload' : journalOf sb d.blocks = .ok entries := by
      rw [h.journalOf_mixed hmix, hload]
    cases hstep with
    | replay hcrash =>
      have hext : (recoverJournal sb d).2 =
          d.extend (barriers (replayEpochs plan.writes)) := by
        rw [h.recoverJournal_apply hsize hload']
        rfl
      obtain ⟨contents, hc, rfl⟩ := (Disk.crashDuring_iff hext hd).mp hcrash
      exact ⟨Disk.boot_settled _ _, hsize,
        .inl (hmix.trans (mixed_of_crash_replay hc))⟩
    | checkpoint hcrash =>
      have hext : (recoverJournalAndCheckpoint sb d).2 =
          d.extend (barriers (Plans.epochs sb entries plan)) := by
        rw [h.recoverJournalAndCheckpoint_apply hsize hload']
        rfl
      obtain ⟨contents, hc, rfl⟩ := (Disk.crashDuring_iff hext hd).mp hcrash
      exact ⟨Disk.boot_settled _ _, hsize, h.replaying_of_crash hmix hc⟩
  · -- the journal is empty, so that neither operation writes
    have hempty : journalOf sb d.blocks = .ok [] := by
      rw [hdone, h.journalOf_recovered hload]
    obtain ⟨plan', hplan'⟩ := plans_of_journalOf hempty
    have hsame : (recoverJournal sb d).2 = d ∧
        (recoverJournalAndCheckpoint sb d).2 = d := by
      rw [hplan'.recoverJournal_apply hsize hempty,
        hplan'.recoverJournalAndCheckpoint_apply hsize hempty,
        hplan'.epochs_nil, hplan'.plan_nil.1]
      exact ⟨Disk.commit_nil d, Disk.commit_nil d⟩
    have himg : img = Disk.boot d.size d.blocks := by
      cases hstep with
      | replay hcrash =>
        exact Disk.crashDuring_of_unchanged hsame.1 hd hcrash
      | checkpoint hcrash =>
        exact Disk.crashDuring_of_unchanged hsame.2 hd hcrash
    subst himg
    exact ⟨Disk.boot_settled _ _, hsize, .inr hdone⟩

/-- Any number of interrupted attempts keeps the invariant. -/
theorem replaying_run {sb : Superblock} {entries : List JournalEntry}
    {plan : RecoveryPlan} (h : Plans sb entries plan) {d d' : Disk}
    (hd : d.Settled) (hsize : sb.totalBlocks = d.size)
    (hload : journalOf sb d.blocks = .ok entries)
    (hrun : Relation.ReflTransGen (InterruptedRecovery sb) d d') :
    d'.Settled ∧ sb.totalBlocks = d'.size ∧
      Replaying sb d.blocks entries plan d'.blocks := by
  induction hrun with
  | refl => exact ⟨hd, hsize, .inl (Mixed.refl _ _)⟩
  | tail _ hstep ih =>
    obtain ⟨hd', hsize', hinv⟩ := ih
    exact replaying_step h hload hd' hsize' hinv hstep

/-- **Recovery converges.**  After any number of interrupted attempts, an
uninterrupted recovery succeeds, applies the plan of the original journal to
the original home blocks, and leaves an empty journal; running it once more
does nothing. -/
theorem recovery_converges {sb : Superblock} {d d' : Disk}
    {entries : List JournalEntry} (hd : d.Settled)
    (hload : loadJournalImage d sb = .ok entries)
    (hrun : Relation.ReflTransGen (InterruptedRecovery sb) d d') :
    ∃ plan report final, planRecovery entries = .ok plan ∧
      recoverJournalAndCheckpoint sb d' = (.ok report, final) ∧
      (∀ b, ¬ sb.journalRange b →
        final.blocks b = overlay d.blocks plan.writes b) ∧
      loadJournalImage final sb = .ok [] ∧
      final.blocks SUPERBLOCK_BLOCK = d.blocks SUPERBLOCK_BLOCK ∧
      (∀ b, sb.journalRange b → b ≠ sb.journalStart →
        final.blocks b = d.blocks b) ∧
      recoverJournalAndCheckpoint sb final =
        (.ok RecoveryReport.default, final) := by
  have hsize : sb.totalBlocks = d.size := loadJournalImage_size hload
  rw [loadJournalImage_disk hsize] at hload
  obtain ⟨plan, h⟩ := plans_of_journalOf hload
  obtain ⟨hd', hsize', hinv⟩ := replaying_run h hd hsize hload hrun
  obtain ⟨report, final, hfinal, hsettled, hfsize, hblocks⟩ :
      ∃ report final, recoverJournalAndCheckpoint sb d' = (.ok report, final) ∧
        final.Settled ∧ sb.totalBlocks = final.size ∧
        final.blocks = recovered sb d.blocks entries plan := by
    rcases hinv with hmix | hdone
    · have hload' : journalOf sb d'.blocks = .ok entries := by
        rw [h.journalOf_mixed hmix, hload]
      refine ⟨_, _, h.recoverJournalAndCheckpoint_apply hsize' hload',
        Disk.commit_settled hd' _, hsize', ?_⟩
      rw [Disk.blocks_commit, ← recovered, h.recovered_mixed hmix]
    · have hempty : journalOf sb d'.blocks = .ok [] := by
        rw [hdone, h.journalOf_recovered hload]
      obtain ⟨plan', hplan'⟩ := plans_of_journalOf hempty
      refine ⟨_, _, hplan'.recoverJournalAndCheckpoint_apply hsize' hempty,
        ?_, ?_, ?_⟩
      · rw [hplan'.epochs_nil, Disk.commit_nil]
        exact hd'
      · rw [hplan'.epochs_nil, Disk.commit_nil]
        exact hsize'
      · rw [hplan'.epochs_nil, Disk.commit_nil]
        exact hdone
  have hempty : journalOf sb final.blocks = .ok [] := by
    rw [hblocks, h.journalOf_recovered hload]
  have hlayout := sb.layout
  have hsame : ∀ b, b ≠ sb.journalStart →
      final.blocks b = overlay d.blocks plan.writes b := by
    intro b hb
    rw [hblocks, h.recovered_eq]
    split
    · rename_i hnil
      subst hnil
      rw [h.plan_nil.1]
      rfl
    · rw [Function.update_of_ne hb]
  refine ⟨plan, report, final, h.plan_eq, hfinal, ?_, ?_, ?_, ?_, ?_⟩
  · intro b hb
    refine hsame b ?_
    intro heq
    subst heq
    exact hb (journalStart_mem sb)
  · rw [loadJournalImage_disk hfsize, hempty]
  · rw [hsame _ (by simp only [SUPERBLOCK_BLOCK]; omega),
      overlay_of_notMem h.superblock_notMem]
  · intro b hb hne
    rw [hsame b hne, overlay_of_notMem (h.notMem_of_journalRange hb)]
  · obtain ⟨plan', hplan'⟩ := plans_of_journalOf hempty
    rw [hplan'.recoverJournalAndCheckpoint_apply hfsize hempty,
      hplan'.epochs_nil, Disk.commit_nil, hplan'.plan_nil.2]

/-- The home blocks after a finished recovery. -/
theorem recovered_home {sb : Superblock} {journal : List JournalEntry}
    {plan : RecoveryPlan} (h : Plans sb journal plan) (f : Nat → Block)
    {b : Nat} (hb : ¬ sb.journalRange b) :
    recovered sb f journal plan b = overlay f plan.writes b := by
  have hne : b ≠ sb.journalStart := by
    intro heq
    subst heq
    exact hb (journalStart_mem sb)
  rw [h.recovered_eq]
  split
  · rename_i hnil
    subst hnil
    rw [h.plan_nil.1]
    rfl
  · rw [Function.update_of_ne hne]

/-! ## The effective view -/

/-- The contents `f` show the home blocks `view` under the committed writes of
their journal. -/
def Views (sb : Superblock) (f view : Nat → Block) : Prop :=
  ∃ entries, journalOf sb f = .ok entries ∧
    ∀ b, ¬ sb.journalRange b → overlay f (committedWrites entries) b = view b

theorem Views.congr {sb : Superblock} {f view other : Nat → Block}
    (h : Views sb f view)
    (heq : ∀ b, ¬ sb.journalRange b → view b = other b) : Views sb f other := by
  obtain ⟨entries, hload, hview⟩ := h
  exact ⟨entries, hload, fun b hb => (hview b hb).trans (heq b hb)⟩

/-- Recovery makes the home blocks what the view shows.  In the reservation it
writes the empty anchor, or nothing if the journal is empty. -/
theorem Views.recover {sb : Superblock} {d : Disk} {view : Nat → Block}
    (hsize : sb.totalBlocks = d.size) (h : Views sb d.blocks view) :
    ∃ report final, recoverJournalAndCheckpoint sb d = (.ok report, final) ∧
      sb.totalBlocks = final.size ∧ loadJournalImage final sb = .ok [] ∧
      (∀ b, ¬ sb.journalRange b → final.blocks b = view b) ∧
      (∀ b, sb.journalRange b → b ≠ sb.journalStart →
        final.blocks b = d.blocks b) ∧
      (final.blocks sb.journalStart = emptyAnchorBlock ∨
        journalOf sb d.blocks = .ok [] ∧
          final.blocks sb.journalStart = d.blocks sb.journalStart) := by
  obtain ⟨entries, hload, hview⟩ := h
  obtain ⟨plan, hplan⟩ := plans_of_journalOf hload
  rw [committedWrites_of_plan hplan.plan_eq] at hview
  have hblocks : (d.commit (Plans.epochs sb entries plan)).blocks =
      recovered sb d.blocks entries plan := Disk.blocks_commit d _
  refine ⟨_, _, hplan.recoverJournalAndCheckpoint_apply hsize hload, hsize,
    ?_, ?_, ?_, ?_⟩
  · rw [loadJournalImage_disk (by exact hsize), hblocks]
    exact hplan.journalOf_recovered hload
  · intro b hb
    rw [hblocks, recovered_home hplan _ hb, hview b hb]
  · intro b hb hne
    rw [hblocks, hplan.recovered_eq]
    split
    · rfl
    · rw [Function.update_of_ne hne,
        overlay_of_notMem (hplan.notMem_of_journalRange hb)]
  · rw [hblocks, hplan.recovered_eq]
    split
    · rename_i hnil
      right
      rw [hload, hnil]
      exact ⟨rfl, rfl⟩
    · left
      exact Function.update_self _ _ _

/-- One transaction that writes the first data block of the sample geometry. -/
def sampleTransaction : List JournalEntry :=
  [.begin 0, .write 0 7 (Block.ofBytes [1]), .commit 0]

theorem storeAccepts_sample :
    StoreAccepts sampleSuperblock emptyDisk sampleTransaction := by
  refine ⟨rfl, rfl, journalOf_emptyAnchor rfl, fun _ => ⟨by decide, ?_⟩⟩
  have hb := blockSize_eq
  have hjournal : sampleSuperblock.journalBlocks = 3 := rfl
  simp [sampleTransaction, JournalCodec.stream, JournalCodec.length_encodeEntry,
    JournalCodec.payloadOf, JournalCodec.HEADER_SIZE, hb, hjournal]

/-- The sample disk with the sample transaction in its journal. -/
def pendingDisk : Disk :=
  emptyDisk.commit (storeEpochs sampleSuperblock sampleTransaction)

theorem pendingDisk_settled : pendingDisk.Settled :=
  Disk.commit_settled emptyDisk_settled _

theorem load_pendingDisk :
    loadJournalImage pendingDisk sampleSuperblock = .ok sampleTransaction := by
  rw [loadJournalImage_disk (by rfl), pendingDisk,
    Disk.blocks_commit]
  exact storeAccepts_sample.journalOf_settle.1

/-- The sample disk behind an attempt that the power interrupts between the home
write and the empty anchor. -/
def interruptedDisk : Disk :=
  Disk.boot pendingDisk.size
    (Function.update pendingDisk.blocks 7 (Block.ofBytes [1]))

theorem interruptedRecovery_sample :
    InterruptedRecovery sampleSuperblock pendingDisk interruptedDisk := by
  have hsize : sampleSuperblock.totalBlocks = pendingDisk.size := rfl
  have hload := load_pendingDisk
  rw [loadJournalImage_disk hsize] at hload
  obtain ⟨plan, h⟩ := plans_of_journalOf hload
  have hwrites : plan.writes = [(7, Block.ofBytes [1])] := by
    have hplan : (.ok plan : Result RecoveryPlan) =
        .ok ⟨[(7, Block.ofBytes [1])], ⟨1, 1⟩⟩ := h.plan_eq.symm
    rw [Except.ok.inj hplan]
  have hext : (recoverJournalAndCheckpoint sampleSuperblock pendingDisk).2 =
      pendingDisk.extend
        (barriers (Plans.epochs sampleSuperblock sampleTransaction plan)) := by
    rw [h.recoverJournalAndCheckpoint_apply hsize hload]
    rfl
  refine .checkpoint ((Disk.crashDuring_iff hext pendingDisk_settled).mpr
    ⟨_, ?_, rfl⟩)
  rw [Plans.epochs, hwrites]
  exact crashImage_first_write

/-- The interrupted attempt has written the block and left the journal. -/
theorem load_interruptedDisk : interruptedDisk.blocks 7 = Block.ofBytes [1] ∧
    loadJournalImage interruptedDisk sampleSuperblock =
      .ok sampleTransaction := by
  have hload := load_pendingDisk
  rw [loadJournalImage_disk rfl] at hload
  have hblocks : interruptedDisk.blocks =
      Function.update pendingDisk.blocks 7 (Block.ofBytes [1]) :=
    Disk.boot_blocks _ _
  rw [loadJournalImage_disk rfl, hblocks, ← hload]
  refine ⟨Function.update_self _ _ _, ?_⟩
  apply journalOf_congr
  intro b hb
  apply Function.update_of_ne
  rintro rfl
  exact absurd hb (by decide)

/-- The power interrupts one attempt, and the next one does it all again. -/
theorem recovery_converges_sample :
    ∃ final,
      InterruptedRecovery sampleSuperblock pendingDisk interruptedDisk ∧
      recoverJournalAndCheckpoint sampleSuperblock interruptedDisk =
        (.ok ⟨1, 1⟩, final) ∧
      final.blocks 7 = Block.ofBytes [1] ∧
      loadJournalImage final sampleSuperblock = .ok [] := by
  obtain ⟨plan, report, final, hplan, hrun, hhome, hload, _⟩ :=
    recovery_converges pendingDisk_settled load_pendingDisk
      (.single interruptedRecovery_sample)
  have hplan' : plan = ⟨[(7, Block.ofBytes [1])], ⟨1, 1⟩⟩ := by
    have hsample : planRecovery sampleTransaction =
        .ok ⟨[(7, Block.ofBytes [1])], ⟨1, 1⟩⟩ := rfl
    rw [hsample, Except.ok.injEq] at hplan
    exact hplan.symm
  have hreport : report = ⟨1, 1⟩ := by
    have hsize : sampleSuperblock.totalBlocks = interruptedDisk.size := rfl
    have hload' := load_interruptedDisk.2
    rw [loadJournalImage_disk hsize] at hload'
    obtain ⟨plan', h⟩ := plans_of_journalOf hload'
    rw [h.recoverJournalAndCheckpoint_apply hsize hload',
      Prod.mk.injEq, Except.ok.injEq] at hrun
    rw [h.plan_eq, Except.ok.injEq] at hplan
    rw [← hrun.1, hplan, hplan']
  refine ⟨final, interruptedRecovery_sample, by rw [hrun, hreport], ?_, hload⟩
  rw [hhome 7 (by decide), hplan']
  simp

end FilesystemLab
