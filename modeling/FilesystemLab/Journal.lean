import FilesystemLab.Format

/-!
# The write-ahead log in memory

`src/journal.rs` and `src/recovery.rs`: journal entries, the log builder
`JournalLog`, and the recovery plan.  A transaction takes effect at its commit
record: `planRecovery` collects the writes of the transactions whose commit is
in the stream, in log order, and drops the tail of an unfinished one.

The counters of the source are `usize` values that count elements of a slice,
so their `checked_add` cannot fail; they are plain numbers here.
-/

namespace FilesystemLab

open WriteLog

/-- `JournalEntry`. -/
inductive JournalEntry where
  | begin (txid : UInt64)
  | write (txid : UInt64) (block : UInt64) (data : Block)
  | commit (txid : UInt64)
  deriving DecidableEq

/-! ## The log builder -/

/-- `JournalLog`. -/
structure JournalLog where
  entries : List JournalEntry
  active : Option UInt64
  nextTxid : UInt64

namespace JournalLog

/-- `JournalLog::new`. -/
def new : JournalLog := ⟨[], none, 0⟩

/-- `JournalLog::begin`. -/
def begin (log : JournalLog) : Result (UInt64 × JournalLog) := do
  rejectIf (log.active.isSome = true)
    ⟨.wouldBlock, "a journal transaction is already active"⟩
  let txid := log.nextTxid
  let next ← okOr (checkedAdd txid.toNat 1)
    ⟨.other, "journal transaction id exhausted"⟩
  pure (txid, {
    entries := log.entries ++ [.begin txid]
    active := some txid
    nextTxid := UInt64.ofNat next })

/-- `JournalLog::require_active`. -/
def requireActive (log : JournalLog) (txid : UInt64) : Result Unit :=
  rejectIf (log.active ≠ some txid) (invalidInput "transaction id is not active")

/-- `JournalLog::write`. -/
def write (log : JournalLog) (txid : UInt64) (block : Nat) (data : Block) :
    Result JournalLog := do
  log.requireActive txid
  pure { log with
    entries := log.entries ++ [.write txid (UInt64.ofNat block) data] }

/-- `JournalLog::commit`. -/
def commit (log : JournalLog) (txid : UInt64) : Result JournalLog := do
  log.requireActive txid
  pure { log with entries := log.entries ++ [.commit txid], active := none }

/-- The loop `for (block, data) in changed { log.write(txid, block, data)?; }`
of the transaction helpers. -/
def writeAll (txid : UInt64) (log : JournalLog) :
    List (Nat × Block) → Result JournalLog
  | [] => pure log
  | w :: ws => do
    let log ← log.write txid w.1 w.2
    writeAll txid log ws

/-- One complete transaction on a fresh log, as every journaled store of the
crate builds it. -/
def transaction (changed : List (Nat × Block)) :
    Result (List JournalEntry) := do
  let (txid, log) ← JournalLog.new.begin
  let log ← log.writeAll txid changed
  let log ← log.commit txid
  pure log.entries

theorem writeAll_eq {txid : UInt64} {log : JournalLog}
    (h : log.active = some txid) (ws : List (Nat × Block)) :
    log.writeAll txid ws = .ok { log with
      entries := log.entries ++
        ws.map fun w => .write txid (UInt64.ofNat w.1) w.2 } := by
  induction ws generalizing log with
  | nil => simp [writeAll]
  | cons w ws ih =>
    have hreq : log.requireActive txid = .ok () :=
      rejectIf_of_not (by simp [h])
    rw [writeAll, write, hreq]
    simp only [Except.ok_bind, Except.pure_eq_ok]
    rw [ih (by simpa using h)]
    simp

/-- The entries of the transaction of a list of home writes. -/
theorem transaction_eq (changed : List (Nat × Block)) :
    transaction changed = .ok (.begin 0 ::
      (changed.map fun w => .write 0 (UInt64.ofNat w.1) w.2) ++
        [.commit 0]) := by
  have hbegin : JournalLog.new.begin =
      .ok (0, ⟨[.begin 0], some 0, UInt64.ofNat 1⟩) := rfl
  rw [transaction, hbegin, Except.ok_bind]
  simp only []
  rw [writeAll_eq rfl]
  simp [commit, requireActive, rejectIf]

end JournalLog

/-! ## Validation of a stream -/

/-- One iteration of the loop of `validate_entries`. -/
def validateEntry (sb : Superblock) (active : Option UInt64) :
    JournalEntry → Result (Option UInt64)
  | .begin txid => do
    rejectIf (active.isSome = true) (invalidData "nested journal transaction")
    pure (some txid)
  | .write txid block _ => do
    rejectIf (active ≠ some txid)
      (invalidData "journal write does not match active transaction")
    rejectIf (¬ sb.homeTarget block.toNat)
      (invalidData "journal write targets forbidden or invalid block")
    pure active
  | .commit txid => do
    rejectIf (active ≠ some txid)
      (invalidData "journal commit does not match active transaction")
    pure none

/-- The loop of `validate_entries`, with its `active` variable at the end. -/
def validateEntriesFrom (sb : Superblock) (active : Option UInt64)
    (entries : List JournalEntry) : Result (Option UInt64) :=
  entries.foldlM (validateEntry sb) active

/-- `validate_entries`. -/
def validateEntries (sb : Superblock) (entries : List JournalEntry) :
    Result Unit := do
  let _ ← validateEntriesFrom sb none entries
  pure ()

/-- One iteration of the second loop of `validate_complete_entries`. -/
def completeStep (state : Option UInt64 × Nat) :
    JournalEntry → Option UInt64 × Nat
  | .begin txid => (some txid, state.2)
  | .write _ _ _ => state
  | .commit _ => (none, state.2 + 1)

/-- `validate_complete_entries`. -/
def validateCompleteEntries (sb : Superblock) (entries : List JournalEntry) :
    Result Unit := do
  validateEntries sb entries
  let state := entries.foldl completeStep (none, 0)
  rejectIf (state.1.isSome = true)
    (invalidData "retained journal append requires complete transactions")
  rejectIf (state.2 = 0)
    (invalidData "retained journal append requires a committed transaction")

/-! ## The recovery plan -/

/-- `RecoveryReport`. -/
structure RecoveryReport where
  committedTransactions : Nat
  homeWrites : Nat
  deriving DecidableEq, Repr

/-- `RecoveryReport::default`. -/
def RecoveryReport.default : RecoveryReport := ⟨0, 0⟩

/-- `RecoveryPlan`. -/
structure RecoveryPlan where
  writes : List (Nat × Block)
  report : RecoveryReport

/-- The variables of the loop of `plan_recovery`. -/
structure PlanState where
  active : Option UInt64
  pending : List (Nat × Block)
  writes : List (Nat × Block)
  committed : Nat

/-- The variables of `plan_recovery` before its loop. -/
def PlanState.initial : PlanState := ⟨none, [], [], 0⟩

/-- One iteration of the loop of `plan_recovery`. -/
def planStep (s : PlanState) : JournalEntry → Result PlanState
  | .begin txid => do
    rejectIf (s.active.isSome = true)
      (invalidData "nested journal transaction during recovery")
    pure { s with active := some txid, pending := [] }
  | .write txid block data => do
    rejectIf (s.active ≠ some txid)
      (invalidData "journal write does not match active recovery transaction")
    pure { s with pending := s.pending ++ [(block.toNat, data)] }
  | .commit txid => do
    rejectIf (s.active ≠ some txid)
      (invalidData "journal commit does not match active recovery transaction")
    pure {
      active := none
      pending := []
      writes := s.writes ++ s.pending
      committed := s.committed + 1 }

/-- `plan_recovery`. -/
def planRecovery (entries : List JournalEntry) : Result RecoveryPlan := do
  let s ← entries.foldlM planStep PlanState.initial
  pure ⟨s.writes, ⟨s.committed, s.writes.length⟩⟩

/-- The home writes of the committed transactions of a stream, in log order. -/
def committedWrites (entries : List JournalEntry) : List (Nat × Block) :=
  match planRecovery entries with
  | .ok plan => plan.writes
  | .error _ => []

/-! ## Validation and the plan agree -/

/-- The plan's loop runs whenever the validation loop does, with the same
`active` variable. -/
theorem planStep_of_validateEntry {sb : Superblock} {s : PlanState}
    {e : JournalEntry} {active : Option UInt64}
    (h : validateEntry sb s.active e = .ok active) :
    ∃ s', planStep s e = .ok s' ∧ s'.active = active := by
  cases e with
  | begin txid =>
    simp only [validateEntry, Except.bind_eq_ok, rejectIf_eq_ok,
      Except.pure_eq_ok, Except.ok.injEq] at h
    obtain ⟨_, hnone, rfl⟩ := h
    exact ⟨_, by simp only [planStep, rejectIf_of_not hnone]; rfl, rfl⟩
  | write txid block data =>
    simp only [validateEntry, Except.bind_eq_ok, rejectIf_eq_ok,
      Except.pure_eq_ok, Except.ok.injEq] at h
    obtain ⟨_, hact, _, _, hactive⟩ := h
    refine ⟨{ s with pending := s.pending ++ [(block.toNat, data)] }, ?_,
      hactive⟩
    simp only [planStep, rejectIf_of_not hact]
    rfl
  | commit txid =>
    simp only [validateEntry, Except.bind_eq_ok, rejectIf_eq_ok,
      Except.pure_eq_ok, Except.ok.injEq] at h
    obtain ⟨_, hact, rfl⟩ := h
    exact ⟨_, by simp only [planStep, rejectIf_of_not hact]; rfl, rfl⟩

/-- Every write collected so far targets a home block. -/
def PlanState.Targets (sb : Superblock) (s : PlanState) : Prop :=
  (∀ w ∈ s.writes, sb.homeTarget w.1) ∧ ∀ w ∈ s.pending, sb.homeTarget w.1

theorem planStep_targets {sb : Superblock} {s s' : PlanState} {e : JournalEntry}
    {active : Option UInt64} (hv : validateEntry sb s.active e = .ok active)
    (h : planStep s e = .ok s') (ht : s.Targets sb) : s'.Targets sb := by
  cases e with
  | begin txid =>
    simp only [planStep, Except.bind_eq_ok, Except.pure_eq_ok,
      Except.ok.injEq] at h
    obtain ⟨_, _, rfl⟩ := h
    exact ⟨ht.1, by simp⟩
  | write txid block data =>
    simp only [planStep, Except.bind_eq_ok, Except.pure_eq_ok,
      Except.ok.injEq] at h
    obtain ⟨_, _, rfl⟩ := h
    simp only [validateEntry, Except.bind_eq_ok, rejectIf_eq_ok,
      not_not] at hv
    obtain ⟨_, _, _, htarget, _⟩ := hv
    refine ⟨ht.1, ?_⟩
    intro w hw
    rcases List.mem_append.mp hw with hw | hw
    · exact ht.2 w hw
    · rw [List.mem_singleton.mp hw]
      exact htarget
  | commit txid =>
    simp only [planStep, Except.bind_eq_ok, Except.pure_eq_ok,
      Except.ok.injEq] at h
    obtain ⟨_, _, rfl⟩ := h
    refine ⟨?_, by simp⟩
    intro w hw
    rcases List.mem_append.mp hw with hw | hw
    · exact ht.1 w hw
    · exact ht.2 w hw

theorem foldlM_planStep_of_validate {sb : Superblock}
    {entries : List JournalEntry} :
    ∀ {s : PlanState} {active : Option UInt64}, s.Targets sb →
      validateEntriesFrom sb s.active entries = .ok active →
      ∃ s', entries.foldlM planStep s = .ok s' ∧ s'.active = active ∧
        s'.Targets sb := by
  induction entries with
  | nil =>
    intro s active ht h
    simp only [validateEntriesFrom, List.foldlM_nil, Except.pure_eq_ok,
      Except.ok.injEq] at h
    exact ⟨s, rfl, h, ht⟩
  | cons e es ih =>
    intro s active ht h
    simp only [validateEntriesFrom, List.foldlM_cons, Except.bind_eq_ok] at h
    obtain ⟨mid, hstep, hrest⟩ := h
    obtain ⟨s', hs', rfl⟩ := planStep_of_validateEntry hstep
    obtain ⟨t, ht', hact, htargets⟩ :=
      ih (planStep_targets hstep hs' ht) hrest
    exact ⟨t, by rw [List.foldlM_cons, hs', Except.ok_bind, ht'], hact,
      htargets⟩

/-- A validated stream has a plan, and the plan writes home blocks only. -/
theorem planRecovery_of_validate {sb : Superblock}
    {entries : List JournalEntry} (h : validateEntries sb entries = .ok ()) :
    ∃ plan, planRecovery entries = .ok plan ∧
      plan.report.homeWrites = plan.writes.length ∧
      ∀ w ∈ plan.writes, sb.homeTarget w.1 := by
  simp only [validateEntries, Except.bind_eq_ok] at h
  obtain ⟨active, hfrom, _⟩ := h
  have ht : PlanState.initial.Targets sb := by
    simp [PlanState.Targets, PlanState.initial]
  obtain ⟨s', hs', _, htargets⟩ := foldlM_planStep_of_validate ht hfrom
  refine ⟨⟨s'.writes, ⟨s'.committed, s'.writes.length⟩⟩, ?_, rfl, htargets.1⟩
  rw [planRecovery, hs']
  rfl

theorem committedWrites_of_plan {entries : List JournalEntry}
    {plan : RecoveryPlan} (h : planRecovery entries = .ok plan) :
    committedWrites entries = plan.writes := by
  rw [committedWrites, h]

end FilesystemLab
