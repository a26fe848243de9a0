import FilesystemLab.RecoveryProjection
import FilesystemLab.Tables

/-!
# Checked recovery

`recover_journal_and_checkpoint_checked` of `src/journal_checkpoint.rs`: the
check of the projected device runs before the first write, and the check of the
recovered device after the last one.

`checkedRecovery_exact` says that the preflight is exact.  A replay shows the
same home blocks as the projection did and its checkpoint only empties the
journal, so neither the comparison of the reports nor the second check can fail
once the first one has passed.
-/

namespace FilesystemLab

open WriteLog

/-- `recover_journal_and_checkpoint_checked`. -/
def recoverJournalAndCheckpointChecked {σ : Type} [BlockDevice σ]
    (sb : Superblock) : DevM σ RecoveryReport := do
  let durable ← Effect.query readSuperblock
  rejectIf (durable ≠ sb) (invalidInput
    "checked recovery superblock does not match durable filesystem superblock")
  let entries ← Effect.query (loadJournalImage · sb)
  if entries = [] then pure RecoveryReport.default
  else do
    let projected ← Effect.query checkDeviceAfterRecoveryProjection
    let report ← recoverJournalAndCheckpoint sb
    rejectIf (report ≠ projected.recovery)
      (invalidData "checked recovery report disagrees with projected replay")
    let _ ← Effect.query checkDevice
    pure report

/-- The report of a check with an empty journal. -/
def FsckReport.withEmptyJournal (report : FsckReport) : FsckReport :=
  { report with
    journalEntries := 0
    journalWrites := 0
    committedTransactions := 0
    pendingTransaction := none }

/-- The recovery of a projection that passes the check passes the check. -/
theorem checkDevice_recovered {d : Disk} {sb : Superblock}
    {journal : List JournalEntry} {plan : RecoveryPlan}
    (h : Plans sb journal plan) (hsb : readSuperblock d = .ok sb)
    (hload : journalOf sb d.blocks = .ok journal) {fsck : FsckReport}
    (hcheck : checkDevice (project d plan.writes) = .ok fsck) :
    checkDevice (d.commit (Plans.epochs sb journal plan)) =
      .ok fsck.withEmptyJournal := by
  have hsize : sb.totalBlocks = d.size := readSuperblock_size hsb
  have hblocks : (d.commit (Plans.epochs sb journal plan)).blocks =
      recovered sb d.blocks journal plan := Disk.blocks_commit d _
  have hload' : loadJournalImage (d.commit (Plans.epochs sb journal plan)) sb =
      .ok [] := by
    rw [loadJournalImage_disk (by exact hsize), hblocks]
    exact h.journalOf_recovered hload
  obtain ⟨a, inodes, entries, old, rfl, hfinal⟩ :=
    checkDevice_of_project h.superblock_notMem hsb hcheck
      (Disk.commit_size d _)
      (fun b hb => by rw [hblocks, recovered_home h _ hb]) hload'
  exact hfinal

/-- What checked recovery does to a disk: nothing, or a whole recovery whose
outcome the projection has shown. -/
theorem recoverJournalAndCheckpointChecked_cases (sb : Superblock) (d : Disk) :
    (∃ e, recoverJournalAndCheckpointChecked sb d = (.error e, d) ∧
      ∀ projected, readSuperblock d = .ok sb →
        checkDeviceAfterRecoveryProjection d ≠ .ok projected) ∨
      loadJournalImage d sb = .ok [] ∧
        recoverJournalAndCheckpointChecked sb d =
          (.ok RecoveryReport.default, d) ∨
      ∃ journal plan fsck, readSuperblock d = .ok sb ∧ journal ≠ [] ∧
        journalOf sb d.blocks = .ok journal ∧ Plans sb journal plan ∧
        checkDeviceAfterRecoveryProjection d = .ok ⟨plan.report, fsck⟩ ∧
        checkDevice (project d plan.writes) = .ok fsck ∧
        recoverJournalAndCheckpointChecked sb d =
          (.ok plan.report, d.commit (Plans.epochs sb journal plan)) := by
  simp only [recoverJournalAndCheckpointChecked, Effect.query_bind,
    Effect.lift_bind]
  split
  case h_2 he =>
    refine .inl ⟨_, rfl, ?_⟩
    intro projected hsb
    rw [hsb] at he
    cases he
  rename_i durable hsb
  split
  case h_2 e he =>
    refine .inl ⟨_, rfl, ?_⟩
    intro projected hsb'
    rw [hsb, Except.ok.injEq] at hsb'
    rw [rejectIf_of_not (not_ne_iff.mpr hsb')] at he
    cases he
  rename_i hdurable
  have hsame : durable = sb := not_ne_iff.mp (rejectIf_eq_ok.mp hdurable)
  subst hsame
  have hsize : durable.totalBlocks = d.size := readSuperblock_size hsb
  split
  case h_2 e he =>
    refine .inl ⟨_, rfl, ?_⟩
    intro projected _ hok
    simp only [checkDeviceAfterRecoveryProjection, hsb, Except.ok_bind, he,
      Except.error_bind] at hok
    cases hok
  rename_i journal hload
  have hload' := hload
  rw [loadJournalImage_disk (by exact hsize)] at hload'
  obtain ⟨plan, hplan⟩ := plans_of_journalOf hload'
  split
  · rename_i hnil
    subst hnil
    exact .inr (.inl ⟨hload, rfl⟩)
  rename_i hne
  rw [Effect.query_bind,
    checkDeviceAfterRecoveryProjection_eq hsb hload hplan.plan_eq]
  cases hcheck : checkDevice (project d plan.writes) with
  | error e =>
    refine .inl ⟨e, rfl, ?_⟩
    intro projected _ hok
    cases hok
  | ok fsck =>
    right
    right
    refine ⟨journal, plan, fsck, hsb, hne, hload', hplan, rfl, hcheck, ?_⟩
    simp only [Except.map]
    rw [Effect.bind_of_ok
      (hplan.recoverJournalAndCheckpoint_apply hsize hload')]
    rw [Effect.lift_bind, rejectIf_of_not (by simp)]
    simp only
    rw [Effect.query_bind, checkDevice_recovered hplan hsb hload' hcheck]
    rfl

/-- **The preflight of checked recovery is exact.**  An error leaves the device
as it was.  When the superblock is that of the device, the journal is not empty
and the projection passes the check, recovery succeeds with the projected
report, shows the projected blocks behind an empty journal, and passes the check
with the projected counts. -/
theorem checkedRecovery_exact (d : Disk) (sb : Superblock) :
    (∀ e, (recoverJournalAndCheckpointChecked sb d).1 = .error e →
      (recoverJournalAndCheckpointChecked sb d).2 = d) ∧
    ∀ journal projected, readSuperblock d = .ok sb →
      loadJournalImage d sb = .ok journal → journal ≠ [] →
      checkDeviceAfterRecoveryProjection d = .ok projected →
      ∃ plan final, planRecovery journal = .ok plan ∧
        recoverJournalAndCheckpointChecked sb d =
          (.ok projected.recovery, final) ∧
        loadJournalImage final sb = .ok [] ∧
        (∀ b, b < d.size → ¬ sb.journalRange b →
          readBlock (project d plan.writes) b = .ok (final.blocks b)) ∧
        checkDevice final = .ok projected.fsck.withEmptyJournal := by
  rcases recoverJournalAndCheckpointChecked_cases sb d with
    ⟨e, hrun, hno⟩ | ⟨hempty, hrun⟩ |
      ⟨journal, plan, fsck, hsb, hne, hload, hplan, hproj, hcheck, hrun⟩
  · refine ⟨fun _ _ => by rw [hrun], ?_⟩
    intro journal projected hsb _ _ hproj
    exact absurd hproj (hno projected hsb)
  · refine ⟨fun _ _ => by rw [hrun], ?_⟩
    intro journal projected _ hload hne _
    rw [hempty, Except.ok.injEq] at hload
    exact absurd hload.symm hne
  · constructor
    · intro e he
      rw [hrun] at he
      cases he
    · intro journal' projected _ hload' _ hproj'
      have hsize : sb.totalBlocks = d.size := readSuperblock_size hsb
      rw [loadJournalImage_disk (by exact hsize), hload,
        Except.ok.injEq] at hload'
      rw [hproj, Except.ok.injEq] at hproj'
      subst hload' hproj'
      have hblocks : (d.commit (Plans.epochs sb journal plan)).blocks =
          recovered sb d.blocks journal plan := Disk.blocks_commit d _
      refine ⟨plan, _, hplan.plan_eq, hrun, ?_, ?_,
        checkDevice_recovered hplan hsb hload hcheck⟩
      · rw [loadJournalImage_disk (by exact hsize), hblocks]
        exact hplan.journalOf_recovered hload
      · intro b hb hjournal
        rw [readBlock_project hb, hblocks, recovered_home hplan _ hjournal]

/-! ## A disk with a pending transaction -/

/-- The sample disk whose journal holds the sample transaction. -/
def sampleDiskPending : Disk :=
  (sampleDisk fun _ => Block.zero).commit
    (storeEpochs sampleSuperblock sampleTransaction)

theorem storeAccepts_sampleDisk (data : Nat → Block) :
    StoreAccepts sampleSuperblock (sampleDisk data) sampleTransaction :=
  { storeAccepts_sample with
    size := rfl
    vacant := journalOf_formatted }

theorem load_sampleDiskPending :
    loadJournalImage sampleDiskPending sampleSuperblock =
      .ok sampleTransaction := by
  rw [loadJournalImage_disk (by rfl), sampleDiskPending, Disk.blocks_commit]
  exact (storeAccepts_sampleDisk _).journalOf_settle.1

theorem home_sampleDiskPending {b : Nat}
    (hb : ¬ sampleSuperblock.journalRange b) :
    sampleDiskPending.blocks b = (sampleDisk fun _ => Block.zero).blocks b := by
  rw [sampleDiskPending, Disk.blocks_commit]
  exact ((storeAccepts_sampleDisk fun _ => Block.zero).published
    (crashImage_settle _ _)).home b hb

/-- The projection of the pending transaction shows the sample disk with its
write. -/
theorem checked_sampleDiskPending :
    Checked (project sampleDiskPending [(7, Block.ofBytes [1])])
      sampleSuperblock sampleAllocator [] [] := by
  have hchecked := checked_sampleDisk
    (overlay (fun _ => Block.zero) [(7, Block.ofBytes [1])])
  refine hchecked.congr (by rfl) ?_
  intro b hb hjournal
  rw [readBlock_project (by exact hb), Disk.readBlock_of_lt (by exact hb),
    overlay_congr fun _ => home_sampleDiskPending hjournal]
  unfold sampleDisk
  rw [overlay_formatted (by decide)]

theorem readSuperblock_sampleDiskPending :
    readSuperblock sampleDiskPending = .ok sampleSuperblock := by
  apply readSuperblock_of_encode _ rfl
  rw [home_sampleDiskPending (by decide)]
  rfl

theorem project_sampleDiskPending :
    ∃ fsck, checkDeviceAfterRecoveryProjection sampleDiskPending =
      .ok ⟨⟨1, 1⟩, fsck⟩ := by
  have hplan : planRecovery sampleTransaction =
      .ok ⟨[(7, Block.ofBytes [1])], ⟨1, 1⟩⟩ := rfl
  have hcount : blockCount (project sampleDiskPending
      [(7, Block.ofBytes [1])]) = blockCount sampleDiskPending := rfl
  have hload : loadJournalImage
      (project sampleDiskPending [(7, Block.ofBytes [1])]) sampleSuperblock =
        .ok sampleTransaction := by
    rw [← load_sampleDiskPending]
    apply loadJournalImage_congr hcount
    intro b hb
    have hlt : b < 16 := lt_of_lt_of_le hb.2 (by decide)
    have hne : b ≠ 7 := by
      intro heq
      subst heq
      exact absurd hb (by decide)
    rw [readBlock_project (by exact hlt), Disk.readBlock_of_lt (by exact hlt),
      overlay_of_notMem (by simpa using hne)]
  have hcheck := checkDevice_iff.mpr ⟨sampleSuperblock, sampleAllocator, [], [],
    sampleTransaction, checked_sampleDiskPending, hload, rfl⟩
  refine ⟨fsckReport sampleSuperblock sampleAllocator [] []
    sampleTransaction, ?_⟩
  rw [checkDeviceAfterRecoveryProjection_eq readSuperblock_sampleDiskPending
    load_sampleDiskPending hplan, hcheck]
  rfl

theorem checkedRecovery_exact_sample :
    ∃ fsck final, recoverJournalAndCheckpointChecked sampleSuperblock
        sampleDiskPending = (.ok ⟨1, 1⟩, final) ∧
      loadJournalImage final sampleSuperblock = .ok [] ∧
      checkDevice final = .ok (FsckReport.withEmptyJournal fsck) := by
  obtain ⟨fsck, hproj⟩ := project_sampleDiskPending
  obtain ⟨_, final, _, hrun, hload, _, hcheck⟩ :=
    (checkedRecovery_exact sampleDiskPending sampleSuperblock).2
      sampleTransaction _ readSuperblock_sampleDiskPending
      load_sampleDiskPending (by simp [sampleTransaction]) hproj
  exact ⟨fsck, final, hrun, hload, hcheck⟩

/-- The sample geometry with one more block of inode records. -/
def widerSuperblock : Superblock :=
  .ofSizes 16 3 1 2 1 ⟨rfl, by decide⟩

/-- A superblock with the same journal reservation as the durable one sees the
pending transaction and is rejected all the same. -/
theorem checkedRecovery_other_superblock :
    loadJournalImage sampleDiskPending widerSuperblock =
        .ok sampleTransaction ∧ sampleTransaction ≠ [] ∧
      (∃ projected, checkDeviceAfterRecoveryProjection sampleDiskPending =
        .ok projected) ∧
      ∀ report, (recoverJournalAndCheckpointChecked widerSuperblock
        sampleDiskPending).1 ≠ .ok report := by
  have haccepts : StoreAccepts widerSuperblock
      (sampleDisk fun _ => Block.zero) sampleTransaction :=
    { storeAccepts_sample with
      size := rfl
      valid := rfl
      vacant := journalOf_emptyAnchor rfl }
  have hepochs : storeEpochs sampleSuperblock sampleTransaction =
      storeEpochs widerSuperblock sampleTransaction := by
    have hblock : regionBlock sampleSuperblock = regionBlock widerSuperblock :=
      rfl
    simp only [storeEpochs, publishEpochs, regionTail, hblock]
    rfl
  obtain ⟨fsck, hproj⟩ := project_sampleDiskPending
  refine ⟨?_, by simp [sampleTransaction], ⟨_, hproj⟩, ?_⟩
  · rw [loadJournalImage_disk (by rfl), sampleDiskPending, Disk.blocks_commit,
      hepochs]
    exact haccepts.journalOf_settle.1
  · intro report
    have hne : sampleSuperblock ≠ widerSuperblock := by
      intro heq
      exact absurd (congrArg Superblock.inodeBlocks heq) (by decide)
    simp only [recoverJournalAndCheckpointChecked, Effect.query_bind,
      readSuperblock_sampleDiskPending, Effect.lift_bind, rejectIf_of hne]
    intro h
    cases h

end FilesystemLab
