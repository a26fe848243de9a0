import FilesystemLab.Journal

/-!
# Complete transactions

A retained journal holds complete transactions only.  `Transaction` is one of
them, and a stream that passes `validate_complete_entries` is the concatenation
of a list of them (`validateCompleteEntries_iff`).  The passes over the entries
of a retained journal are then functions of that list: the recovery plan
collects its writes, and `retained_prefix_split` finds the end of a prefix of
it.
-/

namespace FilesystemLab

/-- A committed transaction: its id and its writes. -/
structure Transaction where
  txid : UInt64
  writes : List (UInt64 × Block)

namespace Transaction

/-- The write records of a transaction. -/
def writeEntries (txid : UInt64) (ws : List (UInt64 × Block)) :
    List JournalEntry :=
  ws.map fun w => .write txid w.1 w.2

/-- The records of a transaction. -/
def entries (tx : Transaction) : List JournalEntry :=
  .begin tx.txid :: (writeEntries tx.txid tx.writes ++ [.commit tx.txid])

/-- The home writes of a transaction. -/
def homeWrites (tx : Transaction) : List (Nat × Block) :=
  tx.writes.map fun w => (w.1.toNat, w.2)

/-- The records of a list of transactions. -/
def log (txs : List Transaction) : List JournalEntry := txs.flatMap entries

/-- The home writes of a list of transactions, in log order. -/
def logWrites (txs : List Transaction) : List (Nat × Block) :=
  txs.flatMap homeWrites

@[simp] theorem log_nil : log [] = [] := rfl

@[simp] theorem log_cons (tx : Transaction) (txs : List Transaction) :
    log (tx :: txs) = tx.entries ++ log txs := rfl

theorem log_append (txs txs' : List Transaction) :
    log (txs ++ txs') = log txs ++ log txs' := List.flatMap_append

@[simp] theorem logWrites_nil : logWrites [] = [] := rfl

@[simp] theorem logWrites_cons (tx : Transaction) (txs : List Transaction) :
    logWrites (tx :: txs) = tx.homeWrites ++ logWrites txs := rfl

theorem logWrites_append (txs txs' : List Transaction) :
    logWrites (txs ++ txs') = logWrites txs ++ logWrites txs' :=
  List.flatMap_append

theorem logWrites_take_subset (txs : List Transaction) (n : Nat) :
    logWrites (txs.take n) ⊆ logWrites txs := by
  have hcut : logWrites (txs.take n) ++ logWrites (txs.drop n) =
      logWrites txs := by
    rw [← logWrites_append, List.take_append_drop]
  rw [← hcut]
  exact List.subset_append_left _ _

theorem entries_ne_nil (tx : Transaction) : tx.entries ≠ [] := by
  simp [entries]

theorem log_eq_nil {txs : List Transaction} : log txs = [] ↔ txs = [] := by
  cases txs with
  | nil => simp
  | cons tx txs => simp [tx.entries_ne_nil]

/-- Every write of the transactions targets a home block. -/
def Targets (sb : Superblock) (txs : List Transaction) : Prop :=
  ∀ w ∈ logWrites txs, sb.homeTarget w.1

theorem targets_cons {sb : Superblock} {tx : Transaction}
    {txs : List Transaction} :
    Targets sb (tx :: txs) ↔
      (∀ w ∈ tx.writes, sb.homeTarget w.1.toNat) ∧ Targets sb txs := by
  simp only [Targets, logWrites_cons, homeWrites, List.mem_append,
    List.mem_map]
  constructor
  · intro h
    exact ⟨fun w hw => h _ (.inl ⟨w, hw, rfl⟩), fun w hw => h w (.inr hw)⟩
  · rintro ⟨h1, h2⟩ w (⟨v, hv, rfl⟩ | hw)
    · exact h1 v hv
    · exact h2 w hw

theorem Targets.of_append {sb : Superblock} {txs txs' : List Transaction}
    (h : Targets sb (txs ++ txs')) : Targets sb txs ∧ Targets sb txs' := by
  rw [Targets, logWrites_append] at h
  exact ⟨fun w hw => h w (List.mem_append_left _ hw),
    fun w hw => h w (List.mem_append_right _ hw)⟩

/-! ## Validation -/

theorem validateEntriesFrom_append (sb : Superblock) (active : Option UInt64)
    (es es' : List JournalEntry) :
    validateEntriesFrom sb active (es ++ es') =
      (validateEntriesFrom sb active es >>= fun mid =>
        validateEntriesFrom sb mid es') :=
  List.foldlM_append

theorem validateEntriesFrom_writeEntries {sb : Superblock} {txid : UInt64}
    {ws : List (UInt64 × Block)} {active : Option UInt64} :
    validateEntriesFrom sb (some txid) (writeEntries txid ws) = .ok active ↔
      active = some txid ∧ ∀ w ∈ ws, sb.homeTarget w.1.toNat := by
  induction ws with
  | nil =>
    simp only [validateEntriesFrom, writeEntries, List.map_nil,
      List.foldlM_nil, Except.pure_eq_ok, Except.ok.injEq, List.not_mem_nil,
      false_implies, implies_true, and_true]
    exact eq_comm
  | cons w ws ih =>
    simp only [validateEntriesFrom, writeEntries] at ih
    simp only [validateEntriesFrom, writeEntries, List.map_cons,
      List.foldlM_cons, validateEntry, Except.bind_eq_ok, rejectIf_eq_ok,
      not_not, Except.pure_eq_ok, Except.ok.injEq, List.mem_cons,
      forall_eq_or_imp]
    constructor
    · intro hfacts
      rcases hfacts with ⟨_, ⟨_, _, _, hw, rfl⟩, hrest⟩
      obtain ⟨h1, h2⟩ := ih.mp hrest
      exact ⟨h1, hw, h2⟩
    · intro hfacts
      rcases hfacts with ⟨h1, hw, h2⟩
      exact ⟨_, ⟨(), by simp, (), hw, rfl⟩, ih.mpr ⟨h1, h2⟩⟩

/-- A stream of transactions ends outside of a transaction. -/
theorem validateEntriesFrom_log {sb : Superblock} {txs : List Transaction}
    {active : Option UInt64} :
    validateEntriesFrom sb none (log txs) = .ok active ↔
      active = none ∧ Targets sb txs := by
  induction txs with
  | nil =>
    simp only [validateEntriesFrom, log_nil, List.foldlM_nil,
      Except.pure_eq_ok, Except.ok.injEq, Targets, logWrites_nil,
      List.not_mem_nil, false_implies, implies_true, and_true]
    exact eq_comm
  | cons tx txs ih =>
    have hentries : ∀ mid, validateEntriesFrom sb none tx.entries = .ok mid ↔
        mid = none ∧ ∀ w ∈ tx.writes, sb.homeTarget w.1.toNat := by
      intro mid
      have hbegin : validateEntry sb none (.begin tx.txid) =
          .ok (some tx.txid) := rfl
      have hcommit : validateEntriesFrom sb (some tx.txid)
          [.commit tx.txid] = .ok none := by
        simp [validateEntriesFrom, validateEntry, rejectIf]
      rw [entries, validateEntriesFrom, List.foldlM_cons, hbegin,
        Except.ok_bind, ← validateEntriesFrom, validateEntriesFrom_append]
      simp only [Except.bind_eq_ok, validateEntriesFrom_writeEntries]
      constructor
      · intro hfacts
        rcases hfacts with ⟨_, ⟨rfl, hw⟩, h⟩
        rw [hcommit, Except.ok.injEq] at h
        exact ⟨h.symm, hw⟩
      · intro hfacts
        rcases hfacts with ⟨rfl, hw⟩
        exact ⟨_, ⟨rfl, hw⟩, hcommit⟩
    rw [log_cons, validateEntriesFrom_append, targets_cons]
    simp only [Except.bind_eq_ok, hentries]
    constructor
    · intro hfacts
      rcases hfacts with ⟨_, ⟨rfl, hw⟩, hrest⟩
      obtain ⟨h1, h2⟩ := ih.mp hrest
      exact ⟨h1, hw, h2⟩
    · intro hfacts
      rcases hfacts with ⟨h1, hw, h2⟩
      exact ⟨none, ⟨rfl, hw⟩, ih.mpr ⟨h1, h2⟩⟩

/-- A validated stream that ends outside of a transaction is a list of
transactions; one that starts inside of a transaction completes it first. -/
theorem exists_log {sb : Superblock} (es : List JournalEntry) :
    (validateEntriesFrom sb none es = .ok none → ∃ txs, es = log txs) ∧
      ∀ txid, validateEntriesFrom sb (some txid) es = .ok none →
        ∃ ws txs, es = writeEntries txid ws ++ .commit txid :: log txs := by
  induction es with
  | nil =>
    refine ⟨fun _ => ⟨[], rfl⟩, ?_⟩
    intro txid h
    simp [validateEntriesFrom] at h
  | cons e es ih =>
    constructor
    · intro h
      simp only [validateEntriesFrom, List.foldlM_cons,
        Except.bind_eq_ok] at h
      obtain ⟨mid, hstep, hrest⟩ := h
      cases e with
      | begin txid =>
        simp only [validateEntry, Except.bind_eq_ok, Except.pure_eq_ok,
          Except.ok.injEq] at hstep
        obtain ⟨_, _, rfl⟩ := hstep
        obtain ⟨ws, txs, rfl⟩ := ih.2 txid hrest
        exact ⟨⟨txid, ws⟩ :: txs, by simp [entries]⟩
      | write txid block data =>
        simp [validateEntry, rejectIf] at hstep
      | commit txid =>
        simp [validateEntry, rejectIf] at hstep
    · intro txid h
      simp only [validateEntriesFrom, List.foldlM_cons,
        Except.bind_eq_ok] at h
      obtain ⟨mid, hstep, hrest⟩ := h
      cases e with
      | begin other =>
        simp [validateEntry, rejectIf] at hstep
      | write other block data =>
        simp only [validateEntry, Except.bind_eq_ok, rejectIf_eq_ok, not_not,
          Except.pure_eq_ok, Except.ok.injEq, ne_eq,
          Option.some.injEq] at hstep
        obtain ⟨_, rfl, _, _, rfl⟩ := hstep
        obtain ⟨ws, txs, rfl⟩ := ih.2 txid hrest
        exact ⟨(block, data) :: ws, txs, rfl⟩
      | commit other =>
        simp only [validateEntry, Except.bind_eq_ok, rejectIf_eq_ok, not_not,
          Except.pure_eq_ok, Except.ok.injEq, ne_eq,
          Option.some.injEq] at hstep
        obtain ⟨_, rfl, rfl⟩ := hstep
        obtain ⟨txs, rfl⟩ := ih.1 hrest
        exact ⟨[], txs, rfl⟩

/-! ## The second loop of `validate_complete_entries` -/

theorem foldl_completeStep_writeEntries (txid : UInt64)
    (ws : List (UInt64 × Block)) (state : Option UInt64 × Nat) :
    (writeEntries txid ws).foldl completeStep state = state := by
  induction ws generalizing state with
  | nil => rfl
  | cons w ws ih => exact ih state

theorem foldl_completeStep_log (txs : List Transaction) (n : Nat) :
    (log txs).foldl completeStep (none, n) = (none, n + txs.length) := by
  induction txs generalizing n with
  | nil => rfl
  | cons tx txs ih =>
    have hentries : tx.entries.foldl completeStep (none, n) =
        (none, n + 1) := by
      rw [entries, List.foldl_cons, List.foldl_append,
        foldl_completeStep_writeEntries]
      rfl
    rw [log_cons, List.foldl_append, hentries, ih, List.length_cons]
    congr 1
    omega

/-- The loop tracks the `active` variable of the validation. -/
theorem active_completeStep {sb : Superblock} {es : List JournalEntry}
    {state : Option UInt64 × Nat} {active : Option UInt64}
    (h : validateEntriesFrom sb state.1 es = .ok active) :
    (es.foldl completeStep state).1 = active := by
  induction es generalizing state with
  | nil =>
    simp only [validateEntriesFrom, List.foldlM_nil, Except.pure_eq_ok,
      Except.ok.injEq] at h
    exact h
  | cons e es ih =>
    simp only [validateEntriesFrom, List.foldlM_cons, Except.bind_eq_ok] at h
    obtain ⟨mid, hstep, hrest⟩ := h
    have hmid : (completeStep state e).1 = mid := by
      cases e with
      | begin txid =>
        simp only [validateEntry, Except.bind_eq_ok, Except.pure_eq_ok,
          Except.ok.injEq] at hstep
        obtain ⟨_, _, rfl⟩ := hstep
        rfl
      | write txid block data =>
        simp only [validateEntry, Except.bind_eq_ok, Except.pure_eq_ok,
          Except.ok.injEq] at hstep
        obtain ⟨_, _, _, _, rfl⟩ := hstep
        rfl
      | commit txid =>
        simp only [validateEntry, Except.bind_eq_ok, Except.pure_eq_ok,
          Except.ok.injEq] at hstep
        obtain ⟨_, _, rfl⟩ := hstep
        rfl
    rw [List.foldl_cons]
    apply ih
    rw [hmid]
    exact hrest

/-- **A complete stream is a list of transactions** whose writes target home
blocks. -/
theorem validateCompleteEntries_iff {sb : Superblock}
    {es : List JournalEntry} :
    validateCompleteEntries sb es = .ok () ↔
      ∃ txs, txs ≠ [] ∧ es = log txs ∧ Targets sb txs := by
  simp only [validateCompleteEntries, validateEntries, Except.bind_eq_ok,
    rejectIf_eq_ok, Except.pure_eq_ok]
  constructor
  · intro hfacts
    rcases hfacts with ⟨_, ⟨active, hfrom, _⟩, _, hdone, hcount⟩
    have hactive : (es.foldl completeStep (none, 0)).1 = active :=
      active_completeStep hfrom
    rw [hactive] at hdone
    have hnone : active = none := by
      cases active with
      | none => rfl
      | some txid => exact absurd rfl hdone
    subst hnone
    obtain ⟨txs, rfl⟩ := (exists_log es).1 hfrom
    refine ⟨txs, ?_, rfl, (validateEntriesFrom_log.mp hfrom).2⟩
    intro heq
    subst heq
    exact hcount rfl
  · intro hfacts
    rcases hfacts with ⟨txs, hne, rfl, htargets⟩
    have hpos := List.length_pos_of_ne_nil hne
    refine ⟨(), ⟨none, validateEntriesFrom_log.mpr ⟨rfl, htargets⟩,
      trivial⟩, (), ?_, ?_⟩
    · rw [foldl_completeStep_log]
      simp
    · rw [foldl_completeStep_log]
      simp only
      omega

theorem validateEntries_log {sb : Superblock} {txs : List Transaction}
    (h : Targets sb txs) : validateEntries sb (log txs) = .ok () := by
  rw [validateEntries, validateEntriesFrom_log.mpr ⟨rfl, h⟩]
  rfl

/-! ## The plan of a list of transactions -/

theorem foldlM_planStep_writeEntries {s : PlanState} {txid : UInt64}
    (h : s.active = some txid) (ws : List (UInt64 × Block)) :
    (writeEntries txid ws).foldlM planStep s = .ok { s with
      pending := s.pending ++ ws.map fun w => (w.1.toNat, w.2) } := by
  induction ws generalizing s with
  | nil => simp [writeEntries]
  | cons w ws ih =>
    have hstep : planStep s (.write txid w.1 w.2) = .ok { s with
        pending := s.pending ++ [(w.1.toNat, w.2)] } := by
      simp only [planStep, rejectIf_of_not (not_ne_iff.mpr h)]
      rfl
    simp only [writeEntries] at ih
    rw [writeEntries, List.map_cons, List.foldlM_cons, hstep, Except.ok_bind,
      ih (by exact h)]
    simp

theorem foldlM_planStep_log (txs : List Transaction)
    (writes : List (Nat × Block)) (committed : Nat) :
    (log txs).foldlM planStep ⟨none, [], writes, committed⟩ =
      .ok ⟨none, [], writes ++ logWrites txs, committed + txs.length⟩ := by
  induction txs generalizing writes committed with
  | nil => simp
  | cons tx txs ih =>
    have hentries : tx.entries.foldlM planStep ⟨none, [], writes, committed⟩ =
        .ok ⟨none, [], writes ++ tx.homeWrites, committed + 1⟩ := by
      have hbegin : planStep ⟨none, [], writes, committed⟩ (.begin tx.txid) =
          .ok ⟨some tx.txid, [], writes, committed⟩ := rfl
      rw [entries, List.foldlM_cons, hbegin, Except.ok_bind,
        List.foldlM_append, foldlM_planStep_writeEntries rfl, Except.ok_bind]
      simp [planStep, rejectIf, homeWrites]
    rw [log_cons, List.foldlM_append, hentries, Except.ok_bind, ih,
      logWrites_cons, List.append_assoc, List.length_cons]
    congr 2
    omega

/-- The plan of complete transactions collects all their writes. -/
theorem planRecovery_log (txs : List Transaction) :
    planRecovery (log txs) =
      .ok ⟨logWrites txs, ⟨txs.length, (logWrites txs).length⟩⟩ := by
  rw [planRecovery, PlanState.initial, foldlM_planStep_log, Except.ok_bind]
  simp

theorem committedWrites_log (txs : List Transaction) :
    committedWrites (log txs) = logWrites txs :=
  committedWrites_of_plan (planRecovery_log txs)

end Transaction

/-! ## The prefix of a retained journal -/

/-- The loop of `retained_prefix_split`, with its `active` and `committed`
variables and the index of the next entry. -/
def retainedPrefixSplitFrom (maxTransactions : Nat) :
    List JournalEntry → Nat → Option UInt64 → Nat → Result Nat
  | [], index, active, committed => do
    rejectIf (active.isSome = true)
      (invalidData "retained journal ends with an incomplete transaction")
    rejectIf (committed = 0)
      (invalidData "retained journal contains no committed transaction")
    pure index
  | .begin txid :: entries, index, active, committed => do
    rejectIf (active.isSome = true) (invalidData
      "nested retained transaction while selecting checkpoint prefix")
    retainedPrefixSplitFrom maxTransactions entries (index + 1) (some txid)
      committed
  | .write txid _ _ :: entries, index, active, committed => do
    rejectIf (active ≠ some txid) (invalidData
      "retained write does not match active checkpoint transaction")
    retainedPrefixSplitFrom maxTransactions entries (index + 1) active
      committed
  | .commit txid :: entries, index, active, committed => do
    rejectIf (active ≠ some txid) (invalidData
      "retained commit does not match active checkpoint transaction")
    if committed + 1 = maxTransactions then pure (index + 1)
    else
      retainedPrefixSplitFrom maxTransactions entries (index + 1) none
        (committed + 1)

/-- `retained_prefix_split`. -/
def retainedPrefixSplit (entries : List JournalEntry)
    (maxTransactions : Nat) : Result Nat :=
  retainedPrefixSplitFrom maxTransactions entries 0 none 0

namespace Transaction

theorem retainedPrefixSplitFrom_writeEntries {maxTransactions : Nat}
    {txid : UInt64} (ws : List (UInt64 × Block)) (es : List JournalEntry)
    (index committed : Nat) :
    retainedPrefixSplitFrom maxTransactions (writeEntries txid ws ++ es) index
        (some txid) committed =
      retainedPrefixSplitFrom maxTransactions es
        (index + (writeEntries txid ws).length) (some txid) committed := by
  induction ws generalizing index with
  | nil => rfl
  | cons w ws ih =>
    have hcons : writeEntries txid (w :: ws) =
        .write txid w.1 w.2 :: writeEntries txid ws := rfl
    rw [hcons, List.cons_append, retainedPrefixSplitFrom,
      rejectIf_of_not (by simp), Except.ok_bind, ih, List.length_cons]
    congr 1
    omega

/-- The split of complete transactions falls behind the last selected one. -/
theorem retainedPrefixSplitFrom_log {maxTransactions : Nat}
    (txs : List Transaction) (index committed : Nat)
    (hmax : committed < maxTransactions) (hne : committed = 0 → txs ≠ []) :
    retainedPrefixSplitFrom maxTransactions (log txs) index none committed =
      .ok (index + (log (txs.take (maxTransactions - committed))).length) := by
  induction txs generalizing index committed with
  | nil =>
    have hpos : committed ≠ 0 := fun h => hne h rfl
    simp [log_nil, retainedPrefixSplitFrom, rejectIf, hpos]
  | cons tx txs ih =>
    have hlen : tx.entries.length =
        (writeEntries tx.txid tx.writes).length + 2 := by
      simp [entries]
    rw [show maxTransactions - committed =
        maxTransactions - (committed + 1) + 1 by omega, List.take_succ_cons,
      log_cons, log_cons, entries, List.cons_append, retainedPrefixSplitFrom,
      rejectIf_of_not (by simp), Except.ok_bind, List.append_assoc,
      retainedPrefixSplitFrom_writeEntries, List.singleton_append,
      retainedPrefixSplitFrom, rejectIf_of_not (by simp), Except.ok_bind,
      ← entries, List.length_append, hlen]
    split
    · rename_i hlast
      rw [show maxTransactions - (committed + 1) = 0 by omega]
      simp only [List.take_zero, log_nil, List.length_nil, Except.pure_eq_ok]
      congr 1
      omega
    · rename_i hmore
      rw [ih _ _ (by omega) (by omega)]
      congr 1
      omega

/-- **The split of a retained journal** is the length of the entries of the
selected transactions. -/
theorem retainedPrefixSplit_log {maxTransactions : Nat}
    {txs : List Transaction} (hmax : maxTransactions ≠ 0) (hne : txs ≠ []) :
    retainedPrefixSplit (log txs) maxTransactions =
      .ok (log (txs.take maxTransactions)).length := by
  rw [retainedPrefixSplit,
    retainedPrefixSplitFrom_log txs 0 0 (by omega) fun _ => hne]
  simp

/-- The entries before and behind the split. -/
theorem split_log (txs : List Transaction) (n : Nat) :
    (log txs).take (log (txs.take n)).length = log (txs.take n) ∧
      (log txs).drop (log (txs.take n)).length = log (txs.drop n) := by
  have hcut : log txs = log (txs.take n) ++ log (txs.drop n) := by
    rw [← log_append, List.take_append_drop]
  rw [hcut]
  exact ⟨List.take_left, List.drop_left⟩

end Transaction

end FilesystemLab
