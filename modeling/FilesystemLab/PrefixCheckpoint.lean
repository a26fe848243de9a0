import FilesystemLab.CheckedRecovery
import FilesystemLab.Transaction

/-!
# Partial checkpoints of a retained journal

`recover_retained_prefix_and_checkpoint` of `src/journal_checkpoint.rs`.  The
first transactions of a retained journal are checked as a projection, replayed
to their home blocks, and dropped from the journal: the remaining ones are
published in the bank that the anchor does not name, or the journal becomes the
empty anchor.

`Retained` says that contents hold an active version-3 snapshot of a list of
transactions.  The four passes over the entries then agree because each is a
function of that list.
-/

namespace FilesystemLab

open Bytes JournalCodec WriteLog Transaction

/-- `RetainedPrefixCheckpointReport`. -/
structure RetainedPrefixCheckpointReport where
  replayed : RecoveryReport
  remainingTransactions : Nat
  deriving DecidableEq, Repr

/-- `recover_retained_prefix_and_checkpoint`. -/
def recoverRetainedPrefixAndCheckpoint {σ : Type} [BlockDevice σ]
    (sb : Superblock) (maxTransactions : Nat) :
    DevM σ RetainedPrefixCheckpointReport := do
  rejectIf (maxTransactions = 0) (invalidInput
    "retained prefix checkpoint requires at least one transaction")
  let retained ← Effect.query (loadRetainedJournalEntries · sb)
  let entries ← okOr retained (invalidInput
    "retained prefix checkpoint requires an active v3 journal")
  let split ← retainedPrefixSplit entries maxTransactions
  let selected := entries.take split
  let suffix := entries.drop split
  let projected ← Effect.query (checkDeviceAfterEntriesProjection · selected)
  let plan ← planRecovery selected
  rejectIf (projected.recovery ≠ plan.report)
    (invalidData "retained prefix projection disagrees with recovery plan")
  replay plan
  replaceRetainedJournalEntries sb suffix
  let remaining ← planRecovery suffix
  pure ⟨plan.report, remaining.report.committedTransactions⟩

/-! ## Retained journals -/

/-- The contents `f` hold an active version-3 snapshot of the transactions
`txs`. -/
structure Retained (sb : Superblock) (f : Nat → Block) (anchor : V3Anchor)
    (layout : V3BankLayout) (txs : List Transaction) : Prop where
  anchor_eq : decodeV3Anchor (f sb.journalStart) = .ok (some anchor)
  layout_eq : v3BankLayout sb = .ok layout
  load : journalOf sb f = .ok (log txs)

/-- Contents that load behind a version-3 anchor have two banks. -/
theorem layout_of_journalOf {sb : Superblock} {f : Nat → Block}
    {anchor : V3Anchor} {entries : List JournalEntry}
    (hanchor : decodeV3Anchor (f sb.journalStart) = .ok (some anchor))
    (hload : journalOf sb f = .ok entries) :
    ∃ layout, v3BankLayout sb = .ok layout := by
  rw [journalOf_eq, Except.bind_eq_ok] at hload
  obtain ⟨empty, hempty, hload⟩ := hload
  cases empty with
  | true =>
    have hfirst := isV2EmptyAnchor_iff.mp hempty
    rw [hfirst, decodeV3Anchor_emptyAnchorBlock] at hanchor
    cases hanchor
  | false =>
    simp only [Bool.false_eq_true, if_false, loadActiveImage, hanchor,
      Except.ok_bind, Except.bind_eq_ok] at hload
    obtain ⟨layout, hlayout, _⟩ := hload
    exact ⟨layout, hlayout⟩

namespace Retained

variable {sb : Superblock} {f : Nat → Block} {anchor : V3Anchor}
  {layout : V3BankLayout} {txs : List Transaction}

theorem targets (h : Retained sb f anchor layout txs) : Targets sb txs := by
  have hvalid := validate_of_journalOf h.load
  simp only [validateEntries, Except.bind_eq_ok] at hvalid
  obtain ⟨active, hfrom, _⟩ := hvalid
  exact (validateEntriesFrom_log.mp hfrom).2

theorem fits (h : Retained sb f anchor layout txs) :
    txs ≠ [] ∧ (stream (log txs)).length ≤ layout.capacity := by
  have hload := h.load
  rw [journalOf_v3 h.anchor_eq h.layout_eq] at hload
  obtain ⟨_, hne, hlen⟩ := validate_of_readV3Entries h.layout_eq hload
  exact ⟨fun hnil => hne (log_eq_nil.mpr hnil), hlen⟩

/-- Home writes do not touch a retained journal. -/
theorem congr (h : Retained sb f anchor layout txs) {g : Nat → Block}
    (hg : ∀ b, sb.journalRange b → g b = f b) :
    Retained sb g anchor layout txs := by
  refine ⟨?_, h.layout_eq, ?_⟩
  · rw [hg _ (journalStart_mem sb), h.anchor_eq]
  · rw [journalOf_congr hg, h.load]

/-- The transactions behind a prefix fit the same bank. -/
theorem fits_drop (h : Retained sb f anchor layout txs) (n : Nat) :
    (stream (log (txs.drop n))).length ≤ layout.capacity := by
  have hcut : stream (log txs) =
      stream (log (txs.take n)) ++ stream (log (txs.drop n)) := by
    rw [← stream_append, ← log_append, List.take_append_drop]
  have hlen := h.fits.2
  rw [hcut, List.length_append] at hlen
  omega

theorem targets_cut (h : Retained sb f anchor layout txs) (n : Nat) :
    Targets sb (txs.take n) ∧ Targets sb (txs.drop n) := by
  apply Targets.of_append
  rw [List.take_append_drop]
  exact h.targets

/-- The plan of a prefix of the transactions. -/
theorem plans_take (h : Retained sb f anchor layout txs) (n : Nat) :
    Plans sb (log (txs.take n)) ⟨logWrites (txs.take n),
      ⟨(txs.take n).length, (logWrites (txs.take n)).length⟩⟩ :=
  ⟨planRecovery_log _, rfl, (h.targets_cut n).1⟩

theorem otherBank_ne (h : Retained sb f anchor layout txs) :
    otherBank anchor ≠ anchor.bank ∧ otherBank anchor ≤ 1 := by
  have hbank := (valid_of_decodeV3Anchor h.anchor_eq).bank_le
  unfold otherBank
  split <;> omega

theorem loadRetainedJournalEntries_disk {d : Disk}
    (h : Retained sb d.blocks anchor layout txs)
    (hsize : sb.totalBlocks = d.size) :
    loadRetainedJournalEntries d sb = .ok (some (log txs)) := by
  have hcomplete : validateCompleteEntries sb (log txs) = .ok () :=
    validateCompleteEntries_iff.mpr ⟨txs, h.fits.1, rfl, h.targets⟩
  rw [loadRetainedJournalEntries, validateRegion_of_size hsize,
    readBlock_journalStart hsize]
  simp only [Except.ok_bind, h.anchor_eq, h.layout_eq,
    readV3Entries_disk hsize h.anchor_eq h.layout_eq, h.load, hcomplete,
    Except.pure_eq_ok]

end Retained

/-- Whatever `load_retained_journal_entries` returns is a retained journal. -/
theorem retained_of_load {sb : Superblock} {d : Disk}
    {entries : List JournalEntry}
    (h : loadRetainedJournalEntries d sb = .ok (some entries)) :
    sb.totalBlocks = d.size ∧ ∃ anchor layout txs,
      entries = log txs ∧ Retained sb d.blocks anchor layout txs := by
  simp only [loadRetainedJournalEntries, Except.bind_eq_ok] at h
  obtain ⟨_, hregion, first, hfirst, anchor, hanchor, h⟩ := h
  have hsize : sb.totalBlocks = d.size := validateRegion_eq_ok.mp hregion
  rw [readBlock_journalStart hsize, Except.ok.injEq] at hfirst
  subst hfirst
  refine ⟨hsize, ?_⟩
  cases anchor with
  | none => cases h
  | some anchor =>
    simp only [Except.bind_eq_ok, Except.pure_eq_ok, Except.ok.injEq,
      Option.some.injEq] at h
    obtain ⟨layout, hlayout, current, hload, _, hcomplete, rfl⟩ := h
    rw [readV3Entries_disk hsize hanchor hlayout] at hload
    obtain ⟨txs, _, rfl, _⟩ := validateCompleteEntries_iff.mp hcomplete
    exact ⟨anchor, layout, txs, rfl, hanchor, hlayout, hload⟩

/-! ## The replacement of a snapshot -/

/-- The epochs that replace the journal by the transactions `rest`. -/
inductive Replaces (sb : Superblock) (anchor : V3Anchor)
    (layout : V3BankLayout) : List Transaction → List (List (Nat × Block)) →
    Prop where
  | vacant : Replaces sb anchor layout [] [[(sb.journalStart, emptyAnchorBlock)]]
  | snapshot {rest : List Transaction} {start : Nat} {anchorBlock : Block}
      (hne : rest ≠ []) (hgen : anchor.generation + 1 < U64_LIMIT)
      (h : Snapshot sb (log rest) layout (otherBank anchor) start
        anchorBlock) :
      Replaces sb anchor layout rest
        (snapshotEpochs sb layout start (stream (log rest)) anchorBlock)

/-- `replace_retained_journal_entries` publishes the remaining transactions,
unless the generations are exhausted. -/
theorem replaceRetainedJournalEntries_cases {sb : Superblock} {d : Disk}
    {anchor : V3Anchor} {layout : V3BankLayout} {txs : List Transaction}
    (h : Retained sb d.blocks anchor layout txs)
    (hsize : sb.totalBlocks = d.size) (n : Nat) :
    (txs.drop n ≠ [] ∧ ¬ anchor.generation + 1 < U64_LIMIT ∧
      ∃ e, replaceRetainedJournalEntries sb (log (txs.drop n)) d =
        (.error e, d)) ∨
      ∃ eps, Replaces sb anchor layout (txs.drop n) eps ∧
        replaceRetainedJournalEntries sb (log (txs.drop n)) d =
          (.ok (), d.commit eps) := by
  rw [replaceRetainedJournalEntries, Effect.query_bind,
    validateRegion_of_size hsize]
  simp only [log_eq_nil]
  by_cases hnil : txs.drop n = []
  · right
    rw [if_pos hnil, hnil]
    exact ⟨_, .vacant, storeEmptyJournalAnchor_apply hsize⟩
  have hcomplete : validateCompleteEntries sb (log (txs.drop n)) = .ok () :=
    validateCompleteEntries_iff.mpr ⟨_, hnil, rfl, (h.targets_cut n).2⟩
  have hactive : activeAnchor d sb = .ok anchor := by
    rw [activeAnchor, readBlock_journalStart hsize, Except.ok_bind,
      h.anchor_eq]
    rfl
  rw [if_neg hnil]
  simp only [Effect.lift_bind, Effect.query_bind, hcomplete, h.layout_eq,
    hactive, nextGeneration]
  by_cases hgen : anchor.generation + 1 < U64_LIMIT
  · rw [checkedAdd, if_pos hgen, okOr_some]
    right
    rcases publishV3Snapshot_cases hsize h.layout_eq h.otherBank_ne.2
      (Nat.succ_ne_zero _) hgen (log (txs.drop n)) with ⟨hno, _⟩ |
        ⟨hfits, start, block, hstart, hblock, hrun⟩
    · exact absurd ⟨hcomplete, h.fits_drop n⟩ hno
    · exact ⟨_, .snapshot hnil hgen
        ⟨h.layout_eq, hstart, hfits, _, hblock⟩, hrun⟩
  · rw [checkedAdd, if_neg hgen]
    exact .inl ⟨hnil, hgen, _, rfl⟩

theorem settle_snapshotEpochs (sb : Superblock) (layout : V3BankLayout)
    (start : Nat) (payload : List UInt8) (anchorBlock : Block)
    (f : Nat → Block) :
    settle f (snapshotEpochs sb layout start payload anchorBlock) =
      Function.update (overlay f (bankWrites start layout payload))
        sb.journalStart anchorBlock := by
  simp [settle, snapshotEpochs, overlay_append]

namespace Replaces

variable {sb : Superblock} {anchor : V3Anchor} {layout : V3BankLayout}
  {rest : List Transaction} {eps : List (List (Nat × Block))}

theorem snapshot_of_ne (h : Replaces sb anchor layout rest eps)
    (hne : rest ≠ []) :
    ∃ start anchorBlock, Snapshot sb (log rest) layout (otherBank anchor)
        start anchorBlock ∧
      eps = snapshotEpochs sb layout start (stream (log rest)) anchorBlock := by
  cases h with
  | vacant => exact absurd rfl hne
  | snapshot _ _ h => exact ⟨_, _, h, rfl⟩

/-- A power failure inside a replacement. -/
theorem published (h : Replaces sb anchor layout rest eps)
    {f img : Nat → Block} {txs : List Transaction}
    (hold : Retained sb f anchor layout txs)
    (hc : CrashImage f (barriers eps) img) :
    Published sb f (log txs) (log rest) img ∧
      (rest = [] → journalOf sb img = .ok (log txs) ∨
        img sb.journalStart = emptyAnchorBlock) := by
  cases h with
  | vacant =>
    have himg : img = f ∨
        img = Function.update f sb.journalStart emptyAnchorBlock := by
      rcases crashImage_barriers_cons hc with hmix | hc
      · exact hmix.single
      · exact .inr (crashImage_barriers_nil hc)
    rcases himg with rfl | rfl
    · exact ⟨Published.refl hold.load, fun _ => .inl hold.load⟩
    · have hfirst := Function.update_self sb.journalStart emptyAnchorBlock f
      refine ⟨⟨?_, .inr (journalOf_emptyAnchor hfirst)⟩, fun _ => .inr hfirst⟩
      intro b hb
      apply Function.update_of_ne
      intro heq
      subst heq
      exact hb (journalStart_mem sb)
  | snapshot hne hgen h =>
    refine ⟨h.published_of_crash hold.load ?_ hc, fun hnil => absurd hnil hne⟩
    exact .inr ⟨anchor, hold.anchor_eq, hold.otherBank_ne.1.symm⟩

/-- The contents after a replacement. -/
theorem journalOf_settle (h : Replaces sb anchor layout rest eps)
    (f : Nat → Block) :
    journalOf sb (settle f eps) = .ok (log rest) ∧
      (∀ b, ¬ sb.journalRange b → settle f eps b = f b) ∧
      (rest = [] → settle f eps sb.journalStart = emptyAnchorBlock) := by
  cases h with
  | vacant =>
    have hfirst := Function.update_self sb.journalStart emptyAnchorBlock f
    refine ⟨journalOf_emptyAnchor hfirst, ?_, fun _ => hfirst⟩
    intro b hb
    apply Function.update_of_ne
    intro heq
    subst heq
    exact hb (journalStart_mem sb)
  | snapshot hne hgen h =>
    refine ⟨?_, ?_, fun hnil => absurd hnil hne⟩
    · rw [settle_snapshotEpochs]
      exact h.journalOf_flip f
    intro b hb
    exact home_of_crash (fun ws hws w hw => h.journalRange_of_mem hws hw)
      (crashImage_settle f _) hb

end Replaces

/-! ## The whole operation -/

namespace Retained

variable {sb : Superblock} {d : Disk} {anchor : V3Anchor}
  {layout : V3BankLayout} {txs : List Transaction}

/-- The contents after the replay of a prefix hold the same journal. -/
theorem replayed (h : Retained sb d.blocks anchor layout txs) (n : Nat) :
    Retained sb (d.commit (replayEpochs (logWrites (txs.take n)))).blocks
      anchor layout txs := by
  apply h.congr
  intro b hb
  rw [Disk.blocks_commit, settle_replayEpochs,
    overlay_of_notMem ((h.plans_take n).notMem_of_journalRange hb)]

/-- What a partial checkpoint does, from the check of its projection on. -/
theorem recoverRetainedPrefixAndCheckpoint_apply
    (h : Retained sb d.blocks anchor layout txs)
    (hsize : sb.totalBlocks = d.size) {n : Nat} (hn : n ≠ 0) :
    (∀ e, checkDevice (project d (logWrites (txs.take n))) = .error e →
      recoverRetainedPrefixAndCheckpoint sb n d = (.error e, d)) ∧
    ∀ fsck, checkDevice (project d (logWrites (txs.take n))) = .ok fsck →
      (txs.drop n ≠ [] ∧ ¬ anchor.generation + 1 < U64_LIMIT ∧
        ∃ e, recoverRetainedPrefixAndCheckpoint sb n d =
          (.error e, d.commit (replayEpochs (logWrites (txs.take n))))) ∨
      ∃ eps, Replaces sb anchor layout (txs.drop n) eps ∧
        recoverRetainedPrefixAndCheckpoint sb n d =
          (.ok ⟨⟨(txs.take n).length, (logWrites (txs.take n)).length⟩,
              (txs.drop n).length⟩,
            d.commit (replayEpochs (logWrites (txs.take n)) ++ eps)) := by
  obtain ⟨htake, hdrop⟩ := split_log txs n
  have hplans := h.plans_take n
  simp only [recoverRetainedPrefixAndCheckpoint, Effect.lift_bind,
    Effect.query_bind, rejectIf_of_not hn,
    h.loadRetainedJournalEntries_disk hsize, okOr_some,
    retainedPrefixSplit_log hn h.fits.1, htake, hdrop, planRecovery_log,
    checkDeviceAfterEntriesProjection, Except.ok_bind]
  constructor
  · intro e he
    rw [he]
    rfl
  · intro fsck hfsck
    rw [hfsck]
    simp only [Except.ok_bind, Except.pure_eq_ok]
    rw [rejectIf_of_not (by simp)]
    simp only
    rw [Effect.bind_of_ok (replay_apply hsize hplans.homeWrites
      hplans.target)]
    rcases replaceRetainedJournalEntries_cases (h.replayed n)
      (by exact hsize) n with ⟨hne, hgen, e, hrun⟩ | ⟨eps, hrep, hrun⟩
    · exact .inl ⟨hne, hgen, e, by rw [Effect.bind_of_error hrun]⟩
    · refine .inr ⟨eps, hrep, ?_⟩
      rw [Effect.bind_of_ok hrun, Disk.commit_commit]
      rfl

end Retained

/-- A partial checkpoint is rejected before its first write, or it replays a
prefix of a retained journal and replaces the journal by the rest. -/
theorem recoverRetainedPrefixAndCheckpoint_cases (sb : Superblock) (n : Nat)
    (d : Disk) :
    (∃ e, recoverRetainedPrefixAndCheckpoint sb n d = (.error e, d)) ∨
      ∃ anchor layout txs, sb.totalBlocks = d.size ∧
        Retained sb d.blocks anchor layout txs ∧
        ((∃ e, recoverRetainedPrefixAndCheckpoint sb n d =
          (.error e, d.commit (replayEpochs (logWrites (txs.take n))))) ∨
        ∃ report eps, Replaces sb anchor layout (txs.drop n) eps ∧
          recoverRetainedPrefixAndCheckpoint sb n d = (.ok report,
            d.commit (replayEpochs (logWrites (txs.take n)) ++ eps))) := by
  by_cases hn : n = 0
  · left
    rw [recoverRetainedPrefixAndCheckpoint, Effect.lift_bind, rejectIf_of hn]
    exact ⟨_, rfl⟩
  cases hload : loadRetainedJournalEntries d sb with
  | error e =>
    left
    simp only [recoverRetainedPrefixAndCheckpoint, Effect.lift_bind,
      Effect.query_bind, rejectIf_of_not hn, hload]
    exact ⟨_, rfl⟩
  | ok retained =>
    cases retained with
    | none =>
      left
      simp only [recoverRetainedPrefixAndCheckpoint, Effect.lift_bind,
        Effect.query_bind, rejectIf_of_not hn, hload, okOr]
      exact ⟨_, rfl⟩
    | some entries =>
      obtain ⟨hsize, anchor, layout, txs, rfl, h⟩ := retained_of_load hload
      obtain ⟨hreject, haccept⟩ :=
        h.recoverRetainedPrefixAndCheckpoint_apply hsize hn
      cases hcheck : checkDevice (project d (logWrites (txs.take n))) with
      | error e => exact .inl ⟨e, hreject e hcheck⟩
      | ok fsck =>
        refine .inr ⟨anchor, layout, txs, hsize, h, ?_⟩
        rcases haccept fsck hcheck with ⟨_, _, hrun⟩ | ⟨eps, hrep, hrun⟩
        · exact .inl hrun
        · exact .inr ⟨_, eps, hrep, hrun⟩

/-- The anchor and the two banks are disjoint parts of the reservation. -/
def BanksDisjoint (sb : Superblock) (layout : V3BankLayout) : Prop :=
  ∃ start start', v3BankStart sb layout 0 = .ok start ∧
    v3BankStart sb layout 1 = .ok start' ∧ sb.journalStart < start ∧
    0 < layout.blocksPerBank ∧ start + layout.blocksPerBank ≤ start' ∧
    start' + layout.blocksPerBank ≤ sb.journalStart + sb.journalBlocks

theorem banksDisjoint {sb : Superblock} {layout : V3BankLayout}
    (hblocks : 3 ≤ sb.journalBlocks)
    (hlayout : layout.blocksPerBank = (sb.journalBlocks - 1) / 2) :
    BanksDisjoint sb layout := by
  refine ⟨_, _, v3BankStart_of_le sb layout (Nat.zero_le 1),
    v3BankStart_of_le sb layout (Nat.le_refl 1), ?_⟩
  omega

/-- **A partial checkpoint replays and drops exactly the selected
transactions.**  A device whose journal is a version-3 snapshot of `txs` and
whose check rejects the first `min n txs.length` transactions is left alone.
Otherwise these transactions reach their home blocks, the others stay in the
journal, and the device passes the check; the snapshot of the others goes to
the bank that is not in use, where it always fits. -/
theorem partialCheckpoint_exact {sb : Superblock} {d : Disk}
    {anchor : V3Anchor} {txs : List Transaction} {n : Nat}
    (hanchor : decodeV3Anchor (d.blocks sb.journalStart) = .ok (some anchor))
    (hload : loadJournalImage d sb = .ok (log txs)) (hn : 1 ≤ n) :
    (∀ e, checkDevice (project d (logWrites
        (txs.take (min n txs.length)))) = .error e →
      recoverRetainedPrefixAndCheckpoint sb n d = (.error e, d)) ∧
    (∀ fsck, checkDevice (project d (logWrites
        (txs.take (min n txs.length)))) = .ok fsck →
      anchor.generation + 1 < U64_LIMIT →
      ∃ report final, recoverRetainedPrefixAndCheckpoint sb n d =
          (.ok report, final) ∧
        report.replayed.committedTransactions = min n txs.length ∧
        report.remainingTransactions = txs.length - min n txs.length ∧
        (∀ b, ¬ sb.journalRange b → final.blocks b =
          overlay d.blocks (logWrites (txs.take (min n txs.length))) b) ∧
        loadJournalImage final sb =
          .ok (log (txs.drop (min n txs.length))) ∧
        (readSuperblock d = .ok sb →
          ∃ fsck', checkDevice final = .ok fsck') ∧
        (min n txs.length < txs.length → ∃ layout start anchorBlock,
          v3BankLayout sb = .ok layout ∧
          v3BankStart sb layout (otherBank anchor) = .ok start ∧
          (stream (log (txs.drop (min n txs.length)))).length ≤
            layout.capacity ∧
          final = d.commit
            (replayEpochs (logWrites (txs.take (min n txs.length))) ++
              snapshotEpochs sb layout start
                (stream (log (txs.drop (min n txs.length)))) anchorBlock))) ∧
    otherBank anchor ≠ anchor.bank ∧
    ∀ (geometry : Superblock) (layout : V3BankLayout),
      3 ≤ geometry.journalBlocks →
      layout.blocksPerBank = (geometry.journalBlocks - 1) / 2 →
      BanksDisjoint geometry layout := by
  have hsize : sb.totalBlocks = d.size := loadJournalImage_size hload
  rw [loadJournalImage_disk hsize] at hload
  obtain ⟨layout, hlayout⟩ := layout_of_journalOf hanchor hload
  have h : Retained sb d.blocks anchor layout txs := ⟨hanchor, hlayout, hload⟩
  obtain ⟨hreject, haccept⟩ :=
    h.recoverRetainedPrefixAndCheckpoint_apply hsize (n := n) (by omega)
  have htake : txs.take (min n txs.length) = txs.take n := by
    rw [← List.take_take, List.take_length]
  have hdrop : txs.drop (min n txs.length) = txs.drop n := by
    rcases Nat.le_total n txs.length with hle | hle
    · rw [Nat.min_eq_left hle]
    · rw [Nat.min_eq_right hle, List.drop_length,
        List.drop_eq_nil_of_le hle]
  rw [htake, hdrop]
  refine ⟨hreject, ?_, h.otherBank_ne.1, fun _ _ => banksDisjoint⟩
  intro fsck hfsck hgen
  rcases haccept fsck hfsck with ⟨_, hno, _⟩ | ⟨eps, hrep, hrun⟩
  · exact absurd hgen hno
  set mid := overlay d.blocks (logWrites (txs.take n)) with hmid
  have hblocks : (d.commit (replayEpochs (logWrites (txs.take n)) ++
      eps)).blocks = settle mid eps := by
    rw [Disk.blocks_commit, settle_append, settle_replayEpochs]
  obtain ⟨hjournal, hhome, _⟩ := hrep.journalOf_settle mid
  have hload' : loadJournalImage (d.commit
      (replayEpochs (logWrites (txs.take n)) ++ eps)) sb =
        .ok (log (txs.drop n)) := by
    rw [loadJournalImage_disk (by exact hsize), hblocks, hjournal]
  have hfinal : ∀ b, ¬ sb.journalRange b → (d.commit
      (replayEpochs (logWrites (txs.take n)) ++ eps)).blocks b = mid b := by
    intro b hb
    rw [hblocks, hhome b hb]
  refine ⟨_, _, hrun, List.length_take, ?_, hfinal, hload', ?_, ?_⟩
  · simp only [List.length_drop]
    omega
  · intro hsb
    obtain ⟨_, _, _, _, _, hok⟩ := checkDevice_of_project
      (h.plans_take n).superblock_notMem hsb hfsck (Disk.commit_size d _)
      hfinal hload'
    exact ⟨_, hok⟩
  · intro hlt
    have hne : txs.drop n ≠ [] := by
      rw [Ne, List.drop_eq_nil_iff]
      omega
    obtain ⟨start, anchorBlock, hsnap, rfl⟩ := hrep.snapshot_of_ne hne
    exact ⟨layout, start, anchorBlock, hlayout, hsnap.start_eq, hsnap.fits.2,
      rfl⟩

/-! ## Two retained transactions -/

/-- Sixteen blocks, of which seven are journal: a bank holds two writes, and the
whole journal six. -/
def wideSuperblock : Superblock :=
  .ofSizes 16 7 1 1 1 ⟨rfl, by decide⟩

def wideAllocator : BlockAllocator :=
  .ofFlags 11 (List.replicate 16 false) (by decide)

/-- A disk without files, with `data` in its data blocks. -/
def wideDisk (data : Nat → Block) : Disk :=
  formatted wideSuperblock wideAllocator [] [] data

theorem checked_wideDisk (data : Nat → Block) :
    Checked (wideDisk data) wideSuperblock wideAllocator [] [] :=
  checked_formatted_nil rfl rfl (flag_ofFlags_replicate _)
    (TableFormat.encodeImage_eq_ok.mpr
      ⟨[], rfl, by decide, by decide, by decide, rfl⟩)
    (TableFormat.encodeImage_eq_ok.mpr
      ⟨[], rfl, by decide, by decide, by decide, rfl⟩)

/-- Two transactions that share an id and write the same block. -/
def twinTransactions : List Transaction :=
  [⟨0, [(12, Block.ofBytes [1])]⟩, ⟨0, [(12, Block.ofBytes [2])]⟩]

theorem appendFits_twinTransactions :
    AppendFits wideSuperblock (log twinTransactions) := by
  have hb := blockSize_eq
  have hlayout : v3BankLayout wideSuperblock = .ok ⟨3, 3 * BLOCK_SIZE⟩ :=
    v3BankLayout_eq_ok.mpr ⟨rfl, by decide, rfl, by decide⟩
  refine ⟨_, hlayout, rfl, ?_⟩
  simp [twinTransactions, entries, writeEntries, stream, length_encodeEntry,
    payloadOf, HEADER_SIZE, hb]

/-- The first snapshot of a disk has the two transactions, over the home blocks
of a disk without files. -/
structure RetainsTwins (d : Disk) (anchor : V3Anchor) (layout : V3BankLayout) :
    Prop where
  size : wideSuperblock.totalBlocks = d.size
  retained : Retained wideSuperblock d.blocks anchor layout twinTransactions
  generation : anchor.generation = 1
  home : ∃ data, ∀ b, ¬ wideSuperblock.journalRange b →
    d.blocks b = (wideDisk data).blocks b

/-- A retained append publishes the two transactions. -/
theorem append_wideDisk :
    ∃ d anchor layout, appendRetainedJournalEntries wideSuperblock
        (log twinTransactions) (wideDisk fun _ => Block.zero) = (.ok (), d) ∧
      d.Settled ∧ RetainsTwins d anchor layout := by
  have hfirst : (wideDisk fun _ => Block.zero).blocks
      wideSuperblock.journalStart = emptyAnchorBlock := rfl
  have hload := journalOf_emptyAnchor hfirst
  have hsize : wideSuperblock.totalBlocks =
      (wideDisk fun _ => Block.zero).size := rfl
  obtain ⟨layout, anchorBlock, hsnap, hanchor, hrun⟩ :=
    append_of_no_snapshot hsize hload
      (by rw [hfirst, decodeV3Anchor_emptyAnchorBlock])
      appendFits_twinTransactions
  refine ⟨_, ⟨0, 1, (stream (log twinTransactions)).length,
      crc32 (stream (log twinTransactions))⟩, layout, hrun,
    Disk.commit_settled formatted_settled _,
    hsize.trans (Disk.commit_size _ _).symm, ⟨?_, hsnap.layout_eq, ?_⟩, rfl,
    fun _ => Block.zero, ?_⟩
  · rw [Disk.blocks_commit, settle_snapshotEpochs, Function.update_self,
      hanchor]
  · rw [Disk.blocks_commit, settle_snapshotEpochs, hsnap.journalOf_flip]
  · intro b hb
    rw [Disk.blocks_commit]
    exact home_of_crash (fun ws hws w hw => hsnap.journalRange_of_mem hws hw)
      (crashImage_settle _ _) hb

namespace RetainsTwins

variable {d : Disk} {anchor : V3Anchor} {layout : V3BankLayout}

theorem load (h : RetainsTwins d anchor layout) :
    loadJournalImage d wideSuperblock = .ok (log twinTransactions) := by
  rw [loadJournalImage_disk h.size, h.retained.load]

theorem not_journalRange : ¬ wideSuperblock.journalRange 12 := by decide

/-- The home blocks with other contents of the block of the two writes. -/
theorem overlay_home (h : RetainsTwins d anchor layout) (v : Block) :
    ∃ data, ∀ b, ¬ wideSuperblock.journalRange b →
      overlay d.blocks [(12, v)] b = (wideDisk data).blocks b := by
  obtain ⟨data, hhome⟩ := h.home
  refine ⟨overlay data [(12, v)], ?_⟩
  intro b hb
  have hdata : ∀ w ∈ [(12, v)], wideSuperblock.reservedBlocks ≤ w.1 := by
    intro w hw
    rw [List.mem_singleton] at hw
    subst hw
    exact (by decide : wideSuperblock.reservedBlocks ≤ 12)
  rw [overlay_congr fun _ => hhome b hb, wideDisk, overlay_formatted hdata]
  rfl

/-- The check accepts the projection of the first transaction. -/
theorem checked (h : RetainsTwins d anchor layout) :
    ∃ fsck, checkDevice (project d [(12, Block.ofBytes [1])]) = .ok fsck := by
  have hsize : d.size = 16 := h.size.symm
  obtain ⟨data, hhome⟩ := h.overlay_home (Block.ofBytes [1])
  have hchecked : Checked (project d [(12, Block.ofBytes [1])]) wideSuperblock
      wideAllocator [] [] := by
    refine (checked_wideDisk data).congr h.size ?_
    intro b hb hjournal
    rw [readBlock_project (by rw [← h.size]; exact hb),
      Disk.readBlock_of_lt (by exact hb), hhome b hjournal]
  have hload : loadJournalImage (project d [(12, Block.ofBytes [1])])
      wideSuperblock = .ok (log twinTransactions) := by
    have hcount : blockCount (project d [(12, Block.ofBytes [1])]) =
      blockCount d := rfl
    rw [← h.load]
    apply loadJournalImage_congr hcount
    intro b hb
    have hlt : b < d.size := by
      rw [hsize]
      exact lt_of_lt_of_le hb.2 (by decide)
    have hne : b ≠ 12 := by
      intro heq
      exact not_journalRange (heq ▸ hb)
    rw [readBlock_project hlt, Disk.readBlock_of_lt hlt,
      overlay_of_notMem (by simpa using hne)]
  exact ⟨_, checkDevice_iff.mpr ⟨_, _, _, _, _, hchecked, hload, rfl⟩⟩

/-- A checkpoint of one transaction returns; its first write is the home write of
this transaction. -/
theorem partialCheckpoint (h : RetainsTwins d anchor layout) :
    ∃ report eps, recoverRetainedPrefixAndCheckpoint wideSuperblock 1 d =
      (.ok report, d.commit ([(12, Block.ofBytes [1])] :: eps)) := by
  obtain ⟨fsck, hfsck⟩ := h.checked
  rcases (h.retained.recoverRetainedPrefixAndCheckpoint_apply h.size
    Nat.one_ne_zero).2 fsck hfsck with ⟨_, hno, _⟩ | ⟨eps, _, hrun⟩
  · rw [h.generation] at hno
    exact absurd (by decide) hno
  · exact ⟨_, eps, hrun⟩

/-- The disk after a power failure that leaves the home write of the first
transaction. -/
theorem rebooted (h : RetainsTwins d anchor layout) :
    RetainsTwins (Disk.boot d.size
      (Function.update d.blocks 12 (Block.ofBytes [1]))) anchor layout where
  size := h.size
  retained := by
    apply h.retained.congr
    intro b hb
    rw [Disk.boot_blocks]
    apply Function.update_of_ne
    intro heq
    exact not_journalRange (heq ▸ hb)
  generation := h.generation
  home := by
    rw [Disk.boot_blocks]
    exact h.overlay_home _

end RetainsTwins

/-- Of two transactions that write block 12, a checkpoint of one puts the first
one home and keeps the second one. -/
theorem partialCheckpoint_exact_sample :
    ∃ (d : Disk) (report : RetainedPrefixCheckpointReport) (final : Disk),
      loadJournalImage d wideSuperblock = .ok (log twinTransactions) ∧
      recoverRetainedPrefixAndCheckpoint wideSuperblock 1 d =
        (.ok report, final) ∧ report.remainingTransactions = 1 ∧
      final.blocks 12 = Block.ofBytes [1] ∧
      loadJournalImage final wideSuperblock =
        .ok (log [⟨0, [(12, Block.ofBytes [2])]⟩]) := by
  obtain ⟨d, anchor, layout, _, _, h⟩ := append_wideDisk
  obtain ⟨fsck, hfsck⟩ := h.checked
  obtain ⟨_, hrun, _⟩ := partialCheckpoint_exact (n := 1)
    h.retained.anchor_eq h.load (Nat.le_refl 1)
  obtain ⟨report, final, h1, _, h2, hhome, h3, _⟩ := hrun fsck hfsck (by
    rw [h.generation]
    decide)
  have htake : logWrites (twinTransactions.take
      (min 1 twinTransactions.length)) = [(12, Block.ofBytes [1])] := rfl
  refine ⟨d, report, final, h.load, h1, h2, ?_, h3⟩
  rw [hhome 12 (by decide), htake]
  simp

end FilesystemLab
