import FilesystemLab.JournalReplay

/-!
# Runs of the journal log

The builder `JournalLog` of `src/journal.rs`, one assignment at a time, and what
a replay of it applies if the log is cut at any entry.

* `LogStep` is what a call that succeeds may do: it appends one entry, the
  `record` of the call.
* `commits` and `writesOf` are the transactions of a log as its entries show
  them: the identifiers of its commits, and all writes of an identifier.
* `JournalLog.Sound` holds of the logs that calls build.  The plan of every
  prefix is the writes of the transactions that the prefix commits, where the
  writes are those of the whole log.
* `journal_log_runs`: what holds after any calls on a new log, of which any may
  fail.  The log has the records of those that succeeded, and nothing else.
-/

namespace FilesystemLab

open OrderedMap

/-! ## The log of the source -/

/-- A method that takes `&mut self`. -/
abbrev LogM (α : Type) := Effect IoError JournalLog α

namespace JournalLog

/-- `JournalLog::begin`. -/
def beginMut : LogM UInt64 := do
  Effect.query fun log => rejectIf (log.active.isSome = true)
    ⟨.wouldBlock, "a journal transaction is already active"⟩
  let txid ← Effect.query fun log => .ok log.nextTxid
  let next ← Effect.query fun log => okOr (checkedAdd log.nextTxid.toNat 1)
    ⟨.other, "journal transaction id exhausted"⟩
  Effect.modify fun log => { log with nextTxid := UInt64.ofNat next }
  Effect.modify fun log => { log with entries := log.entries ++ [.begin txid] }
  Effect.modify fun log => { log with active := some txid }
  pure txid

/-- `JournalLog::write`. -/
def writeMut (txid block : UInt64) (data : Block) : LogM Unit := do
  Effect.query fun log => log.requireActive txid
  Effect.modify fun log => { log with
    entries := log.entries ++ [.write txid block data] }

/-- `JournalLog::commit`. -/
def commitMut (txid : UInt64) : LogM Unit := do
  Effect.query fun log => log.requireActive txid
  Effect.modify fun log => { log with entries := log.entries ++ [.commit txid] }
  Effect.modify fun log => { log with active := none }

/-- `JournalLog::crash_prefix`. -/
def crashPrefix (log : JournalLog) (durableEntries : Nat) :
    Result JournalImage := do
  rejectIf (durableEntries > log.entries.length)
    (invalidInput "crash prefix exceeds journal length")
  pure ⟨log.entries.take durableEntries⟩

/-- `JournalLog::durable_image`. -/
def durableImage (log : JournalLog) : JournalImage := ⟨log.entries⟩

end JournalLog

/-- A call on a log. -/
inductive LogCall where
  | begin
  | write (txid block : UInt64) (data : Block)
  | commit (txid : UInt64)

/-- The call, with the identifier that it assigns. -/
def LogCall.run : LogCall → LogM (Option UInt64)
  | .begin => do
    let txid ← JournalLog.beginMut
    pure (some txid)
  | .write txid block data => do
    JournalLog.writeMut txid block data
    pure none
  | .commit txid => do
    JournalLog.commitMut txid
    pure none

/-- The calls of a run with their results. -/
abbrev LogHistory := List (LogCall × Result (Option UInt64))

/-- Some calls, of which any may fail: their results, and the log behind them. -/
def JournalLog.runCalls (log : JournalLog) :
    List LogCall → LogHistory × JournalLog
  | [] => ([], log)
  | call :: calls =>
    let (result, log') := call.run log
    let (history, final) := log'.runCalls calls
    ((call, result) :: history, final)

/-! ## What a call does -/

/-- What a call that succeeds records, with the identifier that it answers. -/
def LogCall.record : LogCall → Option UInt64 → List JournalEntry
  | .begin, txid => txid.toList.map .begin
  | .write txid block data, _ => [.write txid block data]
  | .commit txid, _ => [.commit txid]

/-- The records of the calls that succeeded, in the order of the calls. -/
def LogHistory.records (history : LogHistory) : List JournalEntry :=
  history.flatMap fun
    | (call, .ok answer) => call.record answer
    | (_, .error _) => []

/-- When a call succeeds. -/
def LogCall.Accepted (log : JournalLog) : LogCall → Prop
  | .begin => log.active = none ∧ log.nextTxid.toNat + 1 < U64_LIMIT
  | .write txid _ _ | .commit txid => log.active = some txid

/-- What a call that succeeds with an answer does to a log. -/
inductive LogStep (log : JournalLog) :
    LogCall → Option UInt64 → JournalLog → Prop
  | begin (closed : log.active = none)
      (lt : log.nextTxid.toNat + 1 < U64_LIMIT) :
      LogStep log .begin (some log.nextTxid)
        ⟨log.entries ++ [.begin log.nextTxid], some log.nextTxid,
          UInt64.ofNat (log.nextTxid.toNat + 1)⟩
  | write {txid : UInt64} (active : log.active = some txid) (block : UInt64)
      (data : Block) : LogStep log (.write txid block data) none { log with
        entries := log.entries ++ [.write txid block data] }
  | commit {txid : UInt64} (active : log.active = some txid) :
      LogStep log (.commit txid) none { log with
        entries := log.entries ++ [.commit txid], active := none }

section Step

variable {log log' : JournalLog} {call : LogCall} {answer : Option UInt64}

/-- A step appends the record of its call. -/
theorem LogStep.entries_eq (h : LogStep log call answer log') :
    log'.entries = log.entries ++ call.record answer := by
  cases h <;> rfl

theorem LogStep.accepted (h : LogStep log call answer log') :
    call.Accepted log := by
  cases h with
  | begin closed lt => exact ⟨closed, lt⟩
  | write active block data => exact active
  | commit active => exact active

theorem JournalLog.requireActive_eq_ok {txid : UInt64} {u : Unit} :
    log.requireActive txid = .ok u ↔ log.active = some txid := by
  rw [requireActive, rejectIf_eq_ok, not_not]

/-- The assignments of `begin` are the log that the function of `Journal`
returns. -/
theorem JournalLog.beginMut_apply (log : JournalLog) :
    beginMut log = match log.begin with
      | .ok (txid, log') => (.ok txid, log')
      | .error e => (.error e, log) := by
  rw [beginMut, begin, Effect.query_bind]
  by_cases hactive : log.active.isSome = true
  · rw [rejectIf_of hactive]
    rfl
  · rw [rejectIf_of_not hactive, Except.ok_bind]
    show (Effect.query _ >>= _) log = _
    rw [Effect.query_bind]
    show (Effect.query _ >>= _) log = _
    rw [Effect.query_bind]
    cases hnext : checkedAdd log.nextTxid.toNat 1 with
    | none =>
      simp only [hnext]
      rfl
    | some next =>
      simp only [hnext]
      rfl

/-- The assignment of `write`. -/
theorem JournalLog.writeMut_apply (log : JournalLog) (txid block : UInt64)
    (data : Block) :
    writeMut txid block data log = match log.write txid block.toNat data with
      | .ok log' => (.ok (), log')
      | .error e => (.error e, log) := by
  rw [writeMut, write, Effect.query_bind, UInt64.ofNat_toNat]
  cases log.requireActive txid <;> rfl

/-- The assignments of `commit`. -/
theorem JournalLog.commitMut_apply (log : JournalLog) (txid : UInt64) :
    commitMut txid log = match log.commit txid with
      | .ok log' => (.ok (), log')
      | .error e => (.error e, log) := by
  rw [commitMut, commit, Effect.query_bind]
  cases log.requireActive txid <;> rfl

/-- A call fails and leaves the log alone, or it makes a step. -/
theorem LogCall.run_atomic (call : LogCall) :
    Effect.Atomic call.run log (LogStep log call) := by
  cases call with
  | begin =>
    show Effect.Atomic (JournalLog.beginMut >>= fun txid => pure (some txid))
      log _
    have happly := log.beginMut_apply
    cases hbegin : log.begin with
    | error e =>
      rw [hbegin] at happly
      exact .inl ⟨e, Effect.bind_of_error happly⟩
    | ok r =>
      rw [hbegin] at happly
      refine .inr ⟨some r.1, r.2, Effect.bind_of_ok happly, ?_⟩
      simp only [JournalLog.begin, Except.bind_eq_ok, rejectIf_eq_ok, okOr_eq_ok,
        checkedAdd_eq_some, Except.pure_eq_ok, Except.ok.injEq,
        Bool.not_eq_true, Option.isSome_eq_false_iff,
        Option.isNone_iff_eq_none] at hbegin
      obtain ⟨_, hclosed, _, ⟨hlt, rfl⟩, rfl⟩ := hbegin
      exact .begin hclosed hlt
  | write txid block data =>
    show Effect.Atomic (JournalLog.writeMut txid block data >>= fun _ =>
      pure none) log _
    have happly := log.writeMut_apply txid block data
    cases hwrite : log.write txid block.toNat data with
    | error e =>
      rw [hwrite] at happly
      exact .inl ⟨e, Effect.bind_of_error happly⟩
    | ok log' =>
      rw [hwrite] at happly
      refine .inr ⟨none, log', Effect.bind_of_ok happly, ?_⟩
      simp only [JournalLog.write, Except.bind_eq_ok,
        JournalLog.requireActive_eq_ok, Except.pure_eq_ok, Except.ok.injEq,
        UInt64.ofNat_toNat] at hwrite
      obtain ⟨_, hactive, rfl⟩ := hwrite
      exact .write hactive block data
  | commit txid =>
    show Effect.Atomic (JournalLog.commitMut txid >>= fun _ => pure none) log _
    have happly := log.commitMut_apply txid
    cases hcommit : log.commit txid with
    | error e =>
      rw [hcommit] at happly
      exact .inl ⟨e, Effect.bind_of_error happly⟩
    | ok log' =>
      rw [hcommit] at happly
      refine .inr ⟨none, log', Effect.bind_of_ok happly, ?_⟩
      simp only [JournalLog.commit, Except.bind_eq_ok,
        JournalLog.requireActive_eq_ok, Except.pure_eq_ok,
        Except.ok.injEq] at hcommit
      obtain ⟨_, hactive, rfl⟩ := hcommit
      exact .commit hactive

/-- A call succeeds if and only if the log accepts it. -/
theorem LogCall.succeeds_iff (call : LogCall) :
    (∃ answer, (call.run log).1 = .ok answer) ↔ call.Accepted log := by
  constructor
  · rintro ⟨answer, hok⟩
    exact ((LogCall.run_atomic call).of_ok (Prod.ext hok rfl)).accepted
  · intro haccepted
    cases call with
    | begin =>
      obtain ⟨hclosed, hlt⟩ := haccepted
      have hbegin : log.begin = .ok (log.nextTxid,
          ⟨log.entries ++ [.begin log.nextTxid], some log.nextTxid,
            UInt64.ofNat (log.nextTxid.toNat + 1)⟩) := by
        have hnext : checkedAdd log.nextTxid.toNat 1 =
            some (log.nextTxid.toNat + 1) := checkedAdd_eq_some.mpr ⟨hlt, rfl⟩
        rw [JournalLog.begin, rejectIf_of_not (by simp [hclosed]),
          Except.ok_bind]
        simp only [hnext]
        rfl
      have happly := log.beginMut_apply
      rw [hbegin] at happly
      exact ⟨_, congrArg Prod.fst (Effect.bind_of_ok happly)⟩
    | write txid block data =>
      have hactive : log.requireActive txid = .ok () :=
        JournalLog.requireActive_eq_ok.mpr haccepted
      have happly := log.writeMut_apply txid block data
      rw [JournalLog.write, hactive] at happly
      exact ⟨_, congrArg Prod.fst (Effect.bind_of_ok happly)⟩
    | commit txid =>
      have hactive : log.requireActive txid = .ok () :=
        JournalLog.requireActive_eq_ok.mpr haccepted
      have happly := log.commitMut_apply txid
      rw [JournalLog.commit, hactive] at happly
      exact ⟨_, congrArg Prod.fst (Effect.bind_of_ok happly)⟩

/-- What every step of a run keeps, the run keeps. -/
theorem JournalLog.runCalls_induction {inv : JournalLog → Prop}
    (hstep : ∀ log log' call answer, LogStep log call answer log' → inv log →
      inv log')
    (calls : List LogCall) (h : inv log) : inv (log.runCalls calls).2 := by
  induction calls generalizing log with
  | nil => exact h
  | cons call calls ih =>
    have hnext : inv (call.run log).2 := by
      rcases @LogCall.run_atomic log call with
        ⟨e, he⟩ | ⟨answer, log', hok, hlog'⟩
      · rw [he]
        exact h
      · rw [hok]
        exact hstep log log' call answer hlog' h
    exact ih hnext

/-- A run appends the records of the calls that succeed. -/
theorem JournalLog.runCalls_entries (calls : List LogCall) :
    (log.runCalls calls).2.entries =
      log.entries ++ (log.runCalls calls).1.records := by
  induction calls generalizing log with
  | nil => exact (List.append_nil _).symm
  | cons call calls ih =>
    have hrest := @ih (call.run log).2
    rcases @LogCall.run_atomic log call with
      ⟨e, he⟩ | ⟨answer, log', hok, hlog'⟩
    · rw [he] at hrest
      simp only [JournalLog.runCalls, he]
      exact hrest
    · rw [hok] at hrest
      simp only [JournalLog.runCalls, hok, LogHistory.records,
        List.flatMap_cons, ← List.append_assoc, ← hlog'.entries_eq]
      exact hrest

end Step

/-! ## The transactions of a log -/

namespace JournalEntry

/-- The transaction that the entry names. -/
def txid : JournalEntry → UInt64
  | .begin txid => txid
  | .write txid _ _ => txid
  | .commit txid => txid

/-- The transaction that the entry begins. -/
def begun : JournalEntry → Option UInt64
  | .begin txid => some txid
  | _ => none

/-- The transaction that the entry commits. -/
def committed : JournalEntry → Option UInt64
  | .commit txid => some txid
  | _ => none

/-- What the entry writes in a transaction. -/
def writeOf (txid : UInt64) : JournalEntry → Option (Nat × Block)
  | .write other block data =>
    if other = txid then some (block.toNat, data) else none
  | _ => none

end JournalEntry

/-- The transactions that the entries commit, in commit order. -/
def commits (es : List JournalEntry) : List UInt64 :=
  es.filterMap JournalEntry.committed

/-- The transaction that is begun and not committed. -/
def opened (es : List JournalEntry) : Option UInt64 :=
  match es.getLast? with
  | some (.begin txid) | some (.write txid _ _) => some txid
  | some (.commit _) | none => none

/-- All writes of a transaction, in log order. -/
def writesOf (es : List JournalEntry) (txid : UInt64) : List (Nat × Block) :=
  es.filterMap (JournalEntry.writeOf txid)

section Entries

variable {es : List JournalEntry} {e : JournalEntry} {txid : UInt64}

theorem commits_concat :
    commits (es ++ [e]) = commits es ++ e.committed.toList := by
  rw [commits, List.filterMap_append, ← commits]
  cases e <;> rfl

theorem writesOf_concat :
    writesOf (es ++ [e]) txid = writesOf es txid ++ (e.writeOf txid).toList := by
  rw [writesOf, List.filterMap_append, ← writesOf, List.filterMap_cons]
  cases e.writeOf txid <;> rfl

/-- A commit is an entry of its transaction. -/
theorem exists_of_mem_commits (h : txid ∈ commits es) :
    ∃ e ∈ es, e.txid = txid := by
  obtain ⟨e, hmem, he⟩ := List.mem_filterMap.mp h
  refine ⟨e, hmem, ?_⟩
  cases e with
  | begin other => cases he
  | write other block data => cases he
  | commit other => exact Option.some.inj he

/-- A transaction that no entry names has no writes. -/
theorem writesOf_eq_nil (h : ∀ e ∈ es, e.txid ≠ txid) : writesOf es txid = [] := by
  rw [writesOf, List.filterMap_eq_nil_iff]
  intro e hmem
  cases e with
  | begin other => rfl
  | write other block data => exact if_neg (h _ hmem)
  | commit other => rfl

theorem commits_take_append (k : Nat) :
    commits (es.take k) ++ commits (es.drop k) = commits es := by
  rw [commits, commits, ← List.filterMap_append, List.take_append_drop, commits]

end Entries

/-! ## Sound logs -/

/-- What the loop of the plan holds behind the entries, in terms of the writes
of the whole log `all`. -/
structure Replays (all es : List JournalEntry) (s : PlanState) : Prop where
  run : es.foldlM planStep .initial = .ok s
  committed : s.committed = (commits es).length
  writes : s.writes = (commits es).flatMap (writesOf all)

/-- What the calls keep.  Every prefix has a plan, with the writes of the whole
log; the identifiers increase, and the open transaction is behind those that are
committed. -/
structure JournalLog.Sound (log : JournalLog) : Prop where
  replays : ∀ k, ∃ s, Replays log.entries (log.entries.take k) s
  whole : ∃ s, Replays log.entries log.entries s ∧ s.active = log.active ∧
    ∀ txid, log.active = some txid → s.pending = writesOf log.entries txid
  txid_lt : ∀ e ∈ log.entries, e.txid.toNat < log.nextTxid.toNat
  active_lt : ∀ txid, log.active = some txid →
    txid.toNat < log.nextTxid.toNat
  commits_lt : ∀ txid, log.active = some txid →
    ∀ c ∈ commits log.entries, c < txid
  begins_increase : (log.entries.filterMap JournalEntry.begun).Pairwise (· < ·)
  commits_increase : (commits log.entries).Pairwise (· < ·)

section Sound

variable {log log' : JournalLog} {es : List JournalEntry} {e : JournalEntry}
  {s s' : PlanState}

theorem JournalLog.sound_new : JournalLog.new.Sound where
  replays := by
    intro k
    rw [show JournalLog.new.entries.take k = [] from List.take_nil]
    exact ⟨.initial, rfl, rfl, rfl⟩
  whole := by
    refine ⟨.initial, ⟨rfl, rfl, rfl⟩, rfl, ?_⟩
    intro txid h
    cases h
  txid_lt := by
    intro e he
    cases he
  active_lt := by
    intro txid h
    cases h
  commits_lt := by
    intro txid h
    cases h
  begins_increase := List.Pairwise.nil
  commits_increase := List.Pairwise.nil

/-- The prefixes of a log with one more entry: the old ones, for which nothing
changes if the entry writes in no committed transaction, and the whole log. -/
theorem replays_concat (h : ∀ k, ∃ s, Replays es (es.take k) s)
    (hother : ∀ c ∈ commits es, e.writeOf c = none)
    (hwhole : Replays (es ++ [e]) (es ++ [e]) s) (k : Nat) :
    ∃ s, Replays (es ++ [e]) ((es ++ [e]).take k) s := by
  by_cases hk : k ≤ es.length
  · obtain ⟨s, hrun, hcommitted, hwrites⟩ := h k
    rw [List.take_append_of_le_length hk]
    refine ⟨s, hrun, hcommitted, hwrites.trans ?_⟩
    apply List.flatMap_congr
    intro c hc
    have hall : c ∈ commits es := by
      rw [← commits_take_append k]
      exact List.mem_append_left _ hc
    rw [writesOf_concat, hother c hall]
    exact (List.append_nil _).symm
  · rw [List.take_of_length_le (by
      rw [List.length_append, List.length_singleton]
      omega)]
    exact ⟨s, hwhole⟩

/-- The whole log behind one more entry that is planned. -/
theorem Replays.concat (h : Replays es es s) (hstep : planStep s e = .ok s')
    (hother : ∀ c ∈ commits es, e.writeOf c = none)
    (hcommitted : s'.committed = s.committed + e.committed.toList.length)
    (hwrites : s'.writes = s.writes ++
      e.committed.toList.flatMap (writesOf (es ++ [e]))) :
    Replays (es ++ [e]) (es ++ [e]) s' where
  run := by
    rw [List.foldlM_append, h.run, Except.ok_bind, List.foldlM_cons, hstep]
    rfl
  committed := by
    rw [hcommitted, h.committed, commits_concat, List.length_append]
  writes := by
    have hsame : (commits es).flatMap (writesOf (es ++ [e])) =
        (commits es).flatMap (writesOf es) := by
      apply List.flatMap_congr
      intro c hc
      rw [writesOf_concat, hother c hc]
      exact List.append_nil _
    rw [hwrites, h.writes, commits_concat, List.flatMap_append, hsame]

/-- A begin record: its identifier is larger than those of all entries. -/
theorem JournalLog.Sound.begin (h : log.Sound) (closed : log.active = none)
    (lt : log.nextTxid.toNat + 1 < U64_LIMIT) :
    JournalLog.Sound ⟨log.entries ++ [.begin log.nextTxid], some log.nextTxid,
      UInt64.ofNat (log.nextTxid.toNat + 1)⟩ := by
  obtain ⟨s, hwhole, hactive, _⟩ := h.whole
  have hplan : planStep s (.begin log.nextTxid) =
      .ok { s with active := some log.nextTxid, pending := [] } := by
    rw [planStep, hactive, closed]
    rfl
  have hnext := hwhole.concat hplan (fun _ _ => rfl) rfl (List.append_nil _).symm
  have hcommits : commits (log.entries ++ [.begin log.nextTxid]) =
      commits log.entries := commits_concat.trans (List.append_nil _)
  have hfresh : ∀ e ∈ log.entries, e.txid ≠ log.nextTxid := by
    intro e he heq
    have hlt := h.txid_lt e he
    rw [heq] at hlt
    exact lt_irrefl _ hlt
  have hsucc : (UInt64.ofNat (log.nextTxid.toNat + 1)).toNat =
      log.nextTxid.toNat + 1 := UInt64.toNat_ofNat_of_lt' lt
  constructor
  · exact replays_concat h.replays (fun _ _ => rfl) hnext
  · refine ⟨_, hnext, rfl, ?_⟩
    intro txid htxid
    cases htxid
    rw [writesOf_concat, writesOf_eq_nil hfresh]
    rfl
  · intro e he
    rw [hsucc]
    rcases List.mem_append.mp he with he | he
    · have hlt := h.txid_lt e he
      omega
    · rw [List.mem_singleton.mp he]
      exact Nat.lt_succ_self _
  · intro txid htxid
    cases htxid
    rw [hsucc]
    exact Nat.lt_succ_self _
  · intro txid htxid c hc
    cases htxid
    rw [hcommits] at hc
    obtain ⟨e, he, rfl⟩ := exists_of_mem_commits hc
    exact UInt64.lt_iff_toNat_lt.mpr (h.txid_lt e he)
  · rw [List.filterMap_append, List.pairwise_append]
    refine ⟨h.begins_increase, List.pairwise_singleton _ _, ?_⟩
    intro a ha b hb
    obtain ⟨e, he, hbegun⟩ := List.mem_filterMap.mp ha
    rw [List.mem_singleton.mp hb]
    cases e with
    | begin txid =>
      cases hbegun
      exact UInt64.lt_iff_toNat_lt.mpr (h.txid_lt _ he)
    | write txid block data => cases hbegun
    | commit txid => cases hbegun
  · rw [hcommits]
    exact h.commits_increase

/-- A write record, of a transaction that is not committed. -/
theorem JournalLog.Sound.write (h : log.Sound) {txid : UInt64}
    (active : log.active = some txid) (block : UInt64) (data : Block) :
    JournalLog.Sound { log with
      entries := log.entries ++ [.write txid block data] } := by
  obtain ⟨s, hwhole, hactive, hpending⟩ := h.whole
  have hplan : planStep s (.write txid block data) =
      .ok { s with pending := s.pending ++ [(block.toNat, data)] } := by
    rw [planStep, rejectIf_of_not (not_not.mpr (hactive.trans active))]
    rfl
  have hother : ∀ c ∈ commits log.entries,
      (JournalEntry.write txid block data).writeOf c = none := by
    intro c hc
    have hlt := UInt64.lt_iff_toNat_lt.mp (h.commits_lt txid active c hc)
    apply if_neg
    intro heq
    rw [heq] at hlt
    exact lt_irrefl _ hlt
  have hnext := hwhole.concat hplan hother rfl (List.append_nil _).symm
  have hcommits : commits (log.entries ++ [.write txid block data]) =
      commits log.entries := commits_concat.trans (List.append_nil _)
  constructor
  · exact replays_concat h.replays hother hnext
  · refine ⟨_, hnext, hactive, ?_⟩
    intro other hother
    have hsame : txid = other := Option.some.inj (active.symm.trans hother)
    subst hsame
    rw [writesOf_concat, hpending txid active, JournalEntry.writeOf, if_pos rfl]
    rfl
  · intro e he
    rcases List.mem_append.mp he with he | he
    · exact h.txid_lt e he
    · rw [List.mem_singleton.mp he]
      exact h.active_lt txid active
  · exact h.active_lt
  · intro other hother c hc
    rw [hcommits] at hc
    exact h.commits_lt other hother c hc
  · rw [List.filterMap_append, show [JournalEntry.write txid block data].filterMap
      JournalEntry.begun = [] from rfl, List.append_nil]
    exact h.begins_increase
  · rw [hcommits]
    exact h.commits_increase

/-- A commit record: the pending writes are all of the transaction. -/
theorem JournalLog.Sound.commit (h : log.Sound) {txid : UInt64}
    (active : log.active = some txid) :
    JournalLog.Sound { log with
      entries := log.entries ++ [.commit txid], active := none } := by
  obtain ⟨s, hwhole, hactive, hpending⟩ := h.whole
  have hplan : planStep s (.commit txid) =
      .ok ⟨none, [], s.writes ++ s.pending, s.committed + 1⟩ := by
    rw [planStep, rejectIf_of_not (not_not.mpr (hactive.trans active))]
    rfl
  have hwrites : writesOf (log.entries ++ [.commit txid]) txid = s.pending := by
    rw [writesOf_concat, hpending txid active]
    exact List.append_nil _
  have hnext := hwhole.concat hplan (fun _ _ => rfl) rfl (by
    show s.writes ++ s.pending = s.writes ++ [txid].flatMap _
    rw [List.flatMap_singleton, hwrites])
  constructor
  · exact replays_concat h.replays (fun _ _ => rfl) hnext
  · refine ⟨_, hnext, rfl, ?_⟩
    intro other hother
    cases hother
  · intro e he
    rcases List.mem_append.mp he with he | he
    · exact h.txid_lt e he
    · rw [List.mem_singleton.mp he]
      exact h.active_lt txid active
  · intro other hother
    cases hother
  · intro other hother
    cases hother
  · rw [List.filterMap_append, show [JournalEntry.commit txid].filterMap
      JournalEntry.begun = [] from rfl, List.append_nil]
    exact h.begins_increase
  · rw [commits_concat, List.pairwise_append]
    refine ⟨h.commits_increase, List.pairwise_singleton _ _, ?_⟩
    intro a ha b hb
    rw [List.mem_singleton.mp hb]
    exact h.commits_lt txid active a ha

/-- **A step keeps a log sound.** -/
theorem JournalLog.Sound.step (h : log.Sound) {call : LogCall}
    {answer : Option UInt64} (hstep : LogStep log call answer log') :
    log'.Sound := by
  cases hstep with
  | begin closed lt => exact h.begin closed lt
  | write active block data => exact h.write active block data
  | commit active => exact h.commit active

end Sound

/-! ## Runs -/

/-- What holds of a log after some calls with their results.  It has the records
of the calls that succeeded, with their arguments, and nothing else. -/
structure LogReplays (history : LogHistory) (log : JournalLog) : Prop where
  recorded : log.entries = history.records
  accepts : ∀ call : LogCall,
    (∃ answer, (call.run log).1 = .ok answer) ↔ call.Accepted log
  active_eq : log.active = opened log.entries
  crash : ∀ k ≤ log.entries.length,
    log.crashPrefix k = .ok ⟨log.entries.take k⟩ ∧
      (⟨log.entries.take k⟩ : JournalImage).validate = .ok () ∧
      ∀ home : HomeMap, (⟨log.entries.take k⟩ : JournalImage).replayInto home =
        (.ok (commits (log.entries.take k)).length, insertAll home
          ((commits (log.entries.take k)).flatMap (writesOf log.entries)))
  commits_increase : (commits log.entries).Pairwise (· < ·)
  begins_increase : (log.entries.filterMap JournalEntry.begun).Pairwise (· < ·)
  failed_unchanged : ∀ (call : LogCall) (e : IoError),
    (call.run log).1 = .error e → (call.run log).2 = log
  again : ∀ (k : Nat) (image : JournalImage), log.crashPrefix k = .ok image →
    ∀ home : HomeMap,
      (log.durableImage.replayInto (image.replayInto home).2).2 =
        (log.durableImage.replayInto home).2

/-- The replay of a prefix whose plan is known. -/
theorem Replays.replayInto {all es : List JournalEntry} {s : PlanState}
    (h : Replays all es s) (home : HomeMap) :
    (⟨es⟩ : JournalImage).replayInto home = (.ok (commits es).length,
      insertAll home ((commits es).flatMap (writesOf all))) := by
  rw [replayInto_of_ok home h.run, h.committed, h.writes]

/-- The active transaction is the one that the last entry leaves open. -/
theorem LogStep.active_eq {log log' : JournalLog} {call : LogCall}
    {answer : Option UInt64} (h : LogStep log call answer log') :
    log'.active = opened log'.entries := by
  cases h with
  | begin closed lt => simp [opened]
  | write active block data => simp [opened, active]
  | commit active => simp [opened]

/-- **A commit is the replay boundary**: after any calls on a new log, the log
has the records of those that succeeded, and a prefix of it replays the
transactions whose commit it has, in commit order and each completely, and
nothing else. -/
theorem journal_log_runs (calls : List LogCall) :
    LogReplays (JournalLog.new.runCalls calls).1
      (JournalLog.new.runCalls calls).2 := by
  have hsound : (JournalLog.new.runCalls calls).2.Sound :=
    JournalLog.runCalls_induction (fun _ _ _ _ hstep h => h.step hstep) calls
      JournalLog.sound_new
  have hactive : (JournalLog.new.runCalls calls).2.active =
      opened (JournalLog.new.runCalls calls).2.entries :=
    JournalLog.runCalls_induction (fun _ _ _ _ hstep _ => hstep.active_eq)
      calls rfl
  have hrecorded := JournalLog.new.runCalls_entries calls
  generalize JournalLog.new.runCalls calls = run at hsound hactive hrecorded
  obtain ⟨history, log⟩ := run
  have hcrash : ∀ k ≤ log.entries.length,
      log.crashPrefix k = .ok ⟨log.entries.take k⟩ := by
    intro k hk
    rw [JournalLog.crashPrefix, rejectIf_of_not (by omega)]
    rfl
  constructor
  · exact hrecorded
  · exact LogCall.succeeds_iff
  · exact hactive
  · intro k hk
    obtain ⟨s, hreplays⟩ := hsound.replays k
    exact ⟨hcrash k hk, JournalImage.validate_iff.mpr
      ⟨_, planRecovery_eq_ok.mpr ⟨s, hreplays.run, rfl⟩⟩,
      fun home => hreplays.replayInto home⟩
  · exact hsound.commits_increase
  · exact hsound.begins_increase
  · intro call e he
    exact (LogCall.run_atomic call).of_error he
  · intro k image himage home
    simp only [JournalLog.crashPrefix, Except.bind_eq_ok, Except.pure_eq_ok,
      Except.ok.injEq] at himage
    obtain ⟨_, _, rfl⟩ := himage
    obtain ⟨s, hreplays⟩ := hsound.replays k
    obtain ⟨t, hwhole, _⟩ := hsound.whole
    have hcommits := @commits_take_append log.entries k
    rw [hreplays.replayInto, JournalLog.durableImage, hwhole.replayInto,
      hwhole.replayInto, ← hcommits, List.flatMap_append, insertAll_insertAll]

/-- Two transactions that write the same block, and two calls that fail: a begin
inside the first transaction and a write behind its commit. -/
def sampleCalls (first second : Block) : List LogCall :=
  [.begin, .write 0 7 first, .begin, .commit 0, .write 0 7 second, .begin,
    .write 1 7 second, .commit 1]

/-- The log has six of the eight calls.  A prefix that ends inside the second
transaction replays the first one alone. -/
theorem journal_log_runs_sample :
    ∃ history log image, JournalLog.new.runCalls
        (sampleCalls (Block.ofBytes [1]) (Block.ofBytes [2])) = (history, log) ∧
      history.map (fun c => c.2.toOption) = [some (some 0), some none, none,
        some none, none, some (some 1), some none, some none] ∧
      log.entries = [.begin 0, .write 0 7 (Block.ofBytes [1]), .commit 0,
        .begin 1, .write 1 7 (Block.ofBytes [2]), .commit 1] ∧
      log.crashPrefix 5 = .ok image ∧
      ∀ home : HomeMap,
        image.replayInto home =
          (.ok 1, insertAll home [(7, Block.ofBytes [1])]) ∧
        log.durableImage.replayInto home = (.ok 2, insertAll home
          [(7, Block.ofBytes [1]), (7, Block.ofBytes [2])]) := by
  have h := journal_log_runs
    (sampleCalls (Block.ofBytes [1]) (Block.ofBytes [2]))
  obtain ⟨history, log, hrun⟩ : ∃ history log, JournalLog.new.runCalls
      (sampleCalls (Block.ofBytes [1]) (Block.ofBytes [2])) =
        (history, log) := ⟨_, _, rfl⟩
  have hresults : history.map (fun c => c.2.toOption) = [some (some 0),
      some none, none, some none, none, some (some 1), some none,
      some none] := by
    rw [show history = _ from (congrArg Prod.fst hrun).symm]
    rfl
  rw [hrun] at h
  have hentries : log.entries = [.begin 0, .write 0 7 (Block.ofBytes [1]),
      .commit 0, .begin 1, .write 1 7 (Block.ofBytes [2]), .commit 1] := by
    rw [h.recorded, show history = _ from (congrArg Prod.fst hrun).symm]
    rfl
  obtain ⟨hentries', _, hcut⟩ := h.crash 5 (by rw [hentries]; decide)
  obtain ⟨_, _, hwhole⟩ := h.crash 6 (by rw [hentries]; decide)
  refine ⟨history, log, _, hrun, hresults, hentries, hentries', ?_⟩
  intro home
  have hcut' := hcut home
  have hwhole' := hwhole home
  rw [JournalLog.durableImage]
  rw [hentries] at hcut' hwhole' ⊢
  exact ⟨hcut', hwhole'⟩

end FilesystemLab
