import FilesystemLab.Fsck
import FilesystemLab.Lib.OrderedMap

/-!
# The replay of a journal

`JournalImage::replay_into` of `src/journal.rs`, and why the four loops that
read a journal agree.  The log replays it into a map, recovery plans its writes,
the region checks its entries before they are stored, and the check of the
device audits them.  Each loop has its own variables, and its own errors.

* `follow` is the automaton behind them: which transaction is open behind a
  stream, and how many are committed.
* `planStep_follow`, `validateEntry_follow` and `auditJournalEntry_follow`: each
  loop does what the automaton does, up to a projection of its variables.
* `replayInto_iff`: the replay inserts the writes of the plan.
* `journal_interpreters_agree`: the four loops, on any entries.
-/

namespace FilesystemLab

open OrderedMap

/-! ## The replay -/

/-- A map of home blocks. -/
abbrev HomeMap := Std.ExtTreeMap Nat Block

/-- The variables of the loop of `replay_into`. -/
structure ReplayState where
  active : Option UInt64
  pending : List (Nat × Block)
  replayed : Nat

/-- One iteration of the loop of `replay_into`, which takes `&mut` of the home
map. -/
def replayEntry (s : ReplayState) :
    JournalEntry → Effect IoError HomeMap ReplayState
  | .begin txid => do
    rejectIf (s.active.isSome = true) (invalidData "nested journal transaction")
    pure { s with active := some txid, pending := [] }
  | .write txid block data => do
    rejectIf (s.active ≠ some txid)
      (invalidData "journal write does not match active transaction")
    pure { s with pending := s.pending ++ [(block.toNat, data)] }
  | .commit txid => do
    rejectIf (s.active ≠ some txid)
      (invalidData "journal commit does not match active transaction")
    Effect.modify fun home => insertAll home s.pending
    pure { active := none, pending := [], replayed := s.replayed + 1 }

/-- `JournalImage`. -/
structure JournalImage where
  entries : List JournalEntry

namespace JournalImage

/-- `JournalImage::replay_into`. -/
def replayInto (image : JournalImage) : Effect IoError HomeMap Nat := do
  let s ← image.entries.foldlM replayEntry ⟨none, [], 0⟩
  pure s.replayed

/-- `JournalImage::validate`. -/
def validate (image : JournalImage) : Result Unit :=
  (image.replayInto ∅).1.map fun _ => ()

end JournalImage

/-! ## The automaton -/

/-- What a stream has done: its open transaction, and how many it has
committed. -/
abbrev Progress := Option UInt64 × Nat

/-- The progress behind one more entry, if it may stand there. -/
def followEntry (p : Progress) : JournalEntry → Option Progress
  | .begin txid => if p.1 = none then some (some txid, p.2) else none
  | .write txid _ _ => if p.1 = some txid then some p else none
  | .commit txid => if p.1 = some txid then some (none, p.2 + 1) else none

/-- The progress behind a stream, if it is well formed. -/
def follow (p : Progress) (es : List JournalEntry) : Option Progress :=
  es.foldlM followEntry p

/-- The progress that the recovery plan keeps. -/
def PlanState.progress (s : PlanState) : Progress := (s.active, s.committed)

/-- The progress that the audit keeps. -/
def JournalAudit.progress (s : JournalAudit) : Progress :=
  (s.active, s.committedTransactions)

/-- The entry writes nothing but a home block. -/
def JournalEntry.Targets (sb : Superblock) : JournalEntry → Prop
  | .write _ block _ => sb.homeTarget block.toNat
  | _ => True

instance (sb : Superblock) : DecidablePred (JournalEntry.Targets sb)
  | .begin _ => .isTrue trivial
  | .write _ block _ => inferInstanceAs (Decidable (sb.homeTarget block.toNat))
  | .commit _ => .isTrue trivial

/-- The automaton for streams that write nothing but home blocks. -/
def followHomeEntry (sb : Superblock) (p : Progress) (e : JournalEntry) :
    Option Progress :=
  if e.Targets sb then followEntry p e else none

section Follow

variable {p q : Progress} {es : List JournalEntry} {sb : Superblock}

theorem followHome_eq_some :
    es.foldlM (followHomeEntry sb) p = some q ↔
      follow p es = some q ∧ ∀ e ∈ es, e.Targets sb := by
  induction es generalizing p with
  | nil => simp [follow]
  | cons e es ih =>
    rw [follow, List.foldlM_cons, List.foldlM_cons, followHomeEntry,
      List.forall_mem_cons]
    split
    · rename_i htargets
      cases followEntry p e with
      | none =>
        constructor
        · intro h
          cases h
        · intro h
          cases h.1
      | some mid =>
        show List.foldlM _ mid es = _ ↔ follow mid es = _ ∧ _
        rw [ih]
        exact ⟨fun h => ⟨h.1, htargets, h.2⟩, fun h => ⟨h.1, h.2.2⟩⟩
    · rename_i htargets
      constructor
      · intro h
        cases h
      · intro h
        exact absurd h.2.1 htargets

/-- The plan of the recovery follows the automaton. -/
theorem planStep_follow (s : PlanState) (e : JournalEntry) :
    (planStep s e).toOption.map PlanState.progress =
      followEntry s.progress e := by
  unfold PlanState.progress
  cases e with
  | begin txid =>
    rw [planStep, followEntry]
    cases s.active <;> rfl
  | write txid block data =>
    rw [planStep, followEntry]
    by_cases hactive : s.active = some txid
    · rw [rejectIf_of_not (not_not.mpr hactive), if_pos hactive]
      rfl
    · rw [rejectIf_of hactive, if_neg hactive]
      rfl
  | commit txid =>
    rw [planStep, followEntry]
    by_cases hactive : s.active = some txid
    · rw [rejectIf_of_not (not_not.mpr hactive), if_pos hactive]
      rfl
    · rw [rejectIf_of hactive, if_neg hactive]
      rfl

/-- The audit follows it, and looks at the blocks. -/
theorem auditJournalEntry_follow (s : JournalAudit) (e : JournalEntry) :
    (auditJournalEntry sb s e).toOption.map JournalAudit.progress =
      followHomeEntry sb s.progress e := by
  unfold followHomeEntry JournalAudit.progress
  cases e with
  | begin txid =>
    have htargets : JournalEntry.Targets sb (.begin txid) := trivial
    rw [if_pos htargets, auditJournalEntry, followEntry]
    cases s.active <;> rfl
  | write txid block data =>
    rw [auditJournalEntry, followEntry]
    by_cases hactive : s.active = some txid
    · rw [rejectIf_of_not (not_not.mpr hactive), if_pos hactive]
      by_cases htarget : sb.homeTarget block.toNat
      · have htargets : JournalEntry.Targets sb (.write txid block data) :=
          htarget
        rw [rejectIf_of_not (not_not.mpr htarget), if_pos htargets]
        rfl
      · have htargets : ¬ JournalEntry.Targets sb (.write txid block data) :=
          htarget
        rw [rejectIf_of htarget, if_neg htargets]
        rfl
    · rw [rejectIf_of hactive, if_neg hactive, ite_self]
      rfl
  | commit txid =>
    have htargets : JournalEntry.Targets sb (.commit txid) := trivial
    rw [if_pos htargets, auditJournalEntry, followEntry]
    by_cases hactive : s.active = some txid
    · rw [rejectIf_of_not (not_not.mpr hactive), if_pos hactive]
      rfl
    · rw [rejectIf_of hactive, if_neg hactive]
      rfl

/-- The check of the region does what the audit does, and counts nothing. -/
theorem auditJournalEntry_validateEntry (s : JournalAudit) (e : JournalEntry) :
    (auditJournalEntry sb s e).toOption.map JournalAudit.active =
      (validateEntry sb s.active e).toOption := by
  cases e with
  | begin txid =>
    rw [auditJournalEntry, validateEntry]
    cases s.active <;> rfl
  | write txid block data =>
    rw [auditJournalEntry, validateEntry]
    by_cases hactive : s.active = some txid
    · rw [rejectIf_of_not (not_not.mpr hactive)]
      by_cases htarget : sb.homeTarget block.toNat
      · rw [rejectIf_of_not (not_not.mpr htarget)]
        rfl
      · rw [rejectIf_of htarget]
        rfl
    · rw [rejectIf_of hactive]
      rfl
  | commit txid =>
    rw [auditJournalEntry, validateEntry]
    by_cases hactive : s.active = some txid
    · rw [rejectIf_of_not (not_not.mpr hactive)]
      rfl
    · rw [rejectIf_of hactive]
      rfl

/-! ## Whole streams -/

/-- What a plan is made of. -/
theorem planRecovery_eq_ok {plan : RecoveryPlan} :
    planRecovery es = .ok plan ↔ ∃ s, es.foldlM planStep .initial = .ok s ∧
      plan = ⟨s.writes, ⟨s.committed, s.writes.length⟩⟩ := by
  simp only [planRecovery, Except.bind_eq_ok, Except.pure_eq_ok, Except.ok.injEq]
  exact ⟨fun ⟨s, hs, h⟩ => ⟨s, hs, h.symm⟩, fun ⟨s, hs, h⟩ => ⟨s, hs, h.symm⟩⟩

/-- The progress that the plan reports. -/
theorem follow_of_plan {s : PlanState}
    (h : es.foldlM planStep .initial = .ok s) :
    follow (none, 0) es = some s.progress := by
  have hrun := Except.foldlM_project PlanState.progress planStep_follow es
    PlanState.initial
  rw [h] at hrun
  exact hrun.symm

/-- Exactly the well-formed streams have a plan. -/
theorem exists_plan_iff :
    (∃ plan, planRecovery es = .ok plan) ↔ ∃ q, follow (none, 0) es = some q := by
  constructor
  · intro h
    obtain ⟨plan, hplan⟩ := h
    obtain ⟨s, hs, _⟩ := planRecovery_eq_ok.mp hplan
    exact ⟨_, follow_of_plan hs⟩
  · intro h
    obtain ⟨q, hq⟩ := h
    have hrun := Except.foldlM_project PlanState.progress planStep_follow es
      PlanState.initial
    have hmap := hrun.trans hq
    obtain ⟨s, hs, _⟩ := Option.map_eq_some_iff.mp hmap
    exact ⟨_, planRecovery_eq_ok.mpr ⟨s, Except.toOption_eq_some.mp hs, rfl⟩⟩

/-- The audit of a stream, by its progress. -/
theorem foldlM_audit_iff :
    (∃ s, es.foldlM (auditJournalEntry sb) ⟨none, 0, 0⟩ = .ok s ∧
      s.progress = q) ↔
      follow (none, 0) es = some q ∧ ∀ e ∈ es, e.Targets sb := by
  have hrun := Except.foldlM_project JournalAudit.progress
    (fun s e => @auditJournalEntry_follow sb s e) es ⟨none, 0, 0⟩
  rw [show JournalAudit.progress ⟨none, 0, 0⟩ = (none, 0) from rfl] at hrun
  rw [← followHome_eq_some, ← hrun, Option.map_eq_some_iff]
  simp only [Except.toOption_eq_some]

/-- What `validate_entries` accepts. -/
theorem validateEntries_iff :
    validateEntries sb es = .ok () ↔
      (∃ q, follow (none, 0) es = some q) ∧ ∀ e ∈ es, e.Targets sb := by
  have hrun := Except.foldlM_project JournalAudit.active
    (g := fun active e => (validateEntry sb active e).toOption)
    auditJournalEntry_validateEntry es ⟨none, 0, 0⟩
  rw [← Except.toOption_foldlM] at hrun
  have haccepts : validateEntries sb es = .ok () ↔
      ∃ s, es.foldlM (auditJournalEntry sb) ⟨none, 0, 0⟩ = .ok s := by
    simp only [validateEntries, validateEntriesFrom, Except.bind_eq_ok,
      Except.pure_eq_ok, and_true]
    constructor
    · intro h
      obtain ⟨active, hactive⟩ := h
      rw [← Except.toOption_eq_some, ← hrun, Option.map_eq_some_iff] at hactive
      obtain ⟨s, hs, _⟩ := hactive
      exact ⟨s, Except.toOption_eq_some.mp hs⟩
    · intro h
      obtain ⟨s, hs⟩ := h
      rw [hs] at hrun
      exact ⟨s.active, Except.toOption_eq_some.mp hrun.symm⟩
  rw [haccepts]
  constructor
  · intro h
    obtain ⟨s, hs⟩ := h
    obtain ⟨hfollow, htargets⟩ := foldlM_audit_iff.mp ⟨s, hs, rfl⟩
    exact ⟨⟨_, hfollow⟩, htargets⟩
  · intro h
    obtain ⟨⟨q, hq⟩, htargets⟩ := h
    obtain ⟨s, hs, _⟩ := foldlM_audit_iff.mpr ⟨hq, htargets⟩
    exact ⟨s, hs⟩

end Follow

/-! ## The replay and the plan -/

/-- The variables of the replay behind the same entries. -/
def PlanState.replay (p : PlanState) : ReplayState :=
  ⟨p.active, p.pending, p.committed⟩

section Replay

variable {home : HomeMap} {p p' : PlanState} {e : JournalEntry}
  {es : List JournalEntry}

/-- An entry that is planned is replayed: the home map has the writes that the
plan has. -/
theorem replayEntry_of_ok (h : planStep p e = .ok p') :
    replayEntry p.replay e (insertAll home p.writes) =
      (.ok p'.replay, insertAll home p'.writes) := by
  cases e with
  | begin txid =>
    simp only [planStep, Except.bind_eq_ok, rejectIf_eq_ok, Except.pure_eq_ok,
      Except.ok.injEq] at h
    obtain ⟨_, hactive, rfl⟩ := h
    exact Effect.lift_bind_of_ok (rejectIf_of_not hactive)
  | write txid block data =>
    simp only [planStep, Except.bind_eq_ok, rejectIf_eq_ok, Except.pure_eq_ok,
      Except.ok.injEq] at h
    obtain ⟨_, hactive, rfl⟩ := h
    exact Effect.lift_bind_of_ok (rejectIf_of_not hactive)
  | commit txid =>
    simp only [planStep, Except.bind_eq_ok, rejectIf_eq_ok, Except.pure_eq_ok,
      Except.ok.injEq] at h
    obtain ⟨_, hactive, rfl⟩ := h
    have hwrites : insertAll (insertAll home p.writes) p.pending =
        insertAll home (p.writes ++ p.pending) := (insertAll_append _ _ _).symm
    refine (Effect.lift_bind_of_ok (rejectIf_of_not hactive)).trans ?_
    rw [Effect.modify_bind]
    exact congrArg _ hwrites

/-- An entry that is not planned is not replayed either. -/
theorem replayEntry_of_error {err : IoError} (h : planStep p e = .error err) :
    ∃ err', replayEntry p.replay e home = (.error err', home) := by
  cases e with
  | begin txid =>
    rw [planStep] at h
    by_cases hactive : p.active.isSome = true
    · exact ⟨_, Effect.bind_of_error (congrArg (·, home) (rejectIf_of hactive))⟩
    · rw [rejectIf_of_not hactive] at h
      cases h
  | write txid block data =>
    rw [planStep] at h
    by_cases hactive : p.active ≠ some txid
    · exact ⟨_, Effect.bind_of_error (congrArg (·, home) (rejectIf_of hactive))⟩
    · rw [rejectIf_of_not hactive] at h
      cases h
  | commit txid =>
    rw [planStep] at h
    by_cases hactive : p.active ≠ some txid
    · exact ⟨_, Effect.bind_of_error (congrArg (·, home) (rejectIf_of hactive))⟩
    · rw [rejectIf_of_not hactive] at h
      cases h

/-- The replay of a stream that is planned. -/
theorem foldlM_replayEntry_of_ok (h : es.foldlM planStep p = .ok p') :
    es.foldlM replayEntry p.replay (insertAll home p.writes) =
      (.ok p'.replay, insertAll home p'.writes) := by
  induction es generalizing p with
  | nil =>
    cases h
    rfl
  | cons e es ih =>
    rw [List.foldlM_cons, Except.bind_eq_ok] at h
    obtain ⟨mid, hstep, hrest⟩ := h
    exact (Effect.bind_of_ok (replayEntry_of_ok hstep)).trans (ih hrest)

/-- The replay of a stream that is not. -/
theorem foldlM_replayEntry_of_error {err : IoError}
    (h : es.foldlM planStep p = .error err) :
    ∃ err' home', es.foldlM replayEntry p.replay (insertAll home p.writes) =
      (.error err', home') := by
  induction es generalizing p with
  | nil => cases h
  | cons e es ih =>
    rw [List.foldlM_cons] at h
    cases hstep : planStep p e with
    | error err =>
      obtain ⟨err', herr'⟩ := replayEntry_of_error hstep
      exact ⟨err', _, Effect.bind_of_error herr'⟩
    | ok mid =>
      rw [hstep] at h
      obtain ⟨err', home', hrest⟩ := ih h
      exact ⟨err', home',
        (Effect.bind_of_ok (replayEntry_of_ok hstep)).trans hrest⟩

theorem replayInto_of_ok (home : HomeMap)
    (h : es.foldlM planStep .initial = .ok p) :
    (⟨es⟩ : JournalImage).replayInto home =
      (.ok p.committed, insertAll home p.writes) :=
  Effect.bind_of_ok (foldlM_replayEntry_of_ok h)

theorem replayInto_of_error (home : HomeMap) {err : IoError}
    (h : es.foldlM planStep .initial = .error err) :
    ∃ err' home', (⟨es⟩ : JournalImage).replayInto home =
      (.error err', home') := by
  obtain ⟨err', home', hrun⟩ := @foldlM_replayEntry_of_error home _ _ _ h
  exact ⟨err', home', Effect.bind_of_error hrun⟩

/-- **The replay inserts the writes of the plan**, and reports its commits. -/
theorem replayInto_iff {n : Nat} {home' : HomeMap} :
    (⟨es⟩ : JournalImage).replayInto home = (.ok n, home') ↔
      ∃ plan, planRecovery es = .ok plan ∧
        n = plan.report.committedTransactions ∧
        home' = insertAll home plan.writes := by
  rw [planRecovery]
  cases hplan : es.foldlM planStep .initial with
  | error err =>
    obtain ⟨err', mid, hrun⟩ := replayInto_of_error home hplan
    rw [hrun]
    constructor
    · intro h
      cases h
    · intro h
      obtain ⟨plan, hbad, _⟩ := h
      cases hbad
  | ok s =>
    rw [replayInto_of_ok home hplan]
    constructor
    · intro h
      cases h
      exact ⟨_, rfl, rfl, rfl⟩
    · intro h
      obtain ⟨plan, hok, rfl, rfl⟩ := h
      cases hok
      rfl

/-- `JournalImage::validate` accepts what recovery plans. -/
theorem JournalImage.validate_iff :
    (⟨es⟩ : JournalImage).validate = .ok () ↔
      ∃ plan, planRecovery es = .ok plan := by
  unfold JournalImage.validate
  constructor
  · intro h
    obtain ⟨n, hn, _⟩ := Except.map_eq_ok.mp h
    obtain ⟨plan, hplan, _⟩ := replayInto_iff.mp (Prod.ext hn rfl)
    exact ⟨plan, hplan⟩
  · intro h
    obtain ⟨plan, hplan⟩ := h
    rw [replayInto_iff.mpr ⟨plan, hplan, rfl, rfl⟩]
    rfl

end Replay

/-! ## The open transaction -/

/-- The stream begins the transaction and does not commit behind that. -/
def OpenIn (es : List JournalEntry) (txid : UInt64) : Prop :=
  ∃ front rest, es = front ++ .begin txid :: rest ∧
    ∀ other, .commit other ∉ rest

section Open

variable {es front rest : List JournalEntry} {e : JournalEntry} {txid : UInt64}

theorem not_openIn_nil : ¬ OpenIn [] txid := by
  intro h
  obtain ⟨front, rest, hes, _⟩ := h
  cases front <;> cases hes

/-- The last entry opens the transaction, or leaves it open. -/
theorem openIn_concat :
    OpenIn (es ++ [e]) txid ↔
      e = .begin txid ∨ (∀ other, e ≠ .commit other) ∧ OpenIn es txid := by
  constructor
  · intro h
    obtain ⟨front, rest, hes, hrest⟩ := h
    rcases List.eq_nil_or_concat rest with rfl | ⟨init, last, rfl⟩
    · left
      exact (List.append_inj' hes rfl).2 |> List.singleton_inj.mp
    · right
      rw [List.concat_eq_append, ← List.cons_append, ← List.append_assoc] at hes
      obtain ⟨hinit, hlast⟩ := List.append_inj' hes rfl
      rw [List.singleton_inj] at hlast
      subst hlast
      refine ⟨?_, front, init, hinit, ?_⟩
      · intro other hcommit
        apply hrest other
        rw [List.concat_eq_append, hcommit]
        exact List.mem_append_right _ List.mem_cons_self
      · intro other hmem
        apply hrest other
        rw [List.concat_eq_append]
        exact List.mem_append_left _ hmem
  · intro h
    rcases h with rfl | ⟨hcommit, front, rest, rfl, hrest⟩
    · exact ⟨es, [], rfl, fun other => List.not_mem_nil⟩
    · refine ⟨front, rest ++ [e], ?_, ?_⟩
      · rw [List.append_assoc, List.cons_append]
      · intro other hmem
        rcases List.mem_append.mp hmem with hmem | hmem
        · exact hrest other hmem
        · exact hcommit other (List.mem_singleton.mp hmem).symm

theorem follow_concat {p q : Progress} (h : follow p (es ++ [e]) = some q) :
    ∃ mid, follow p es = some mid ∧ followEntry mid e = some q := by
  rw [follow, List.foldlM_append] at h
  obtain ⟨mid, hmid, hlast⟩ := Option.bind_eq_some_iff.mp h
  refine ⟨mid, hmid, ?_⟩
  rw [List.foldlM_cons] at hlast
  obtain ⟨q', hq', hpure⟩ := Option.bind_eq_some_iff.mp hlast
  cases hpure
  exact hq'

/-- **The transaction that the automaton calls open** is begun and not
committed. -/
theorem openIn_iff {q : Progress} (h : follow (none, 0) es = some q) :
    q.1 = some txid ↔ OpenIn es txid := by
  induction es using List.reverseRecOn generalizing q with
  | nil =>
    cases h
    constructor
    · intro hbad
      cases hbad
    · intro hbad
      exact absurd hbad not_openIn_nil
  | append_singleton es e ih =>
    obtain ⟨mid, hmid, hstep⟩ := follow_concat h
    have hopen := ih hmid
    rw [openIn_concat]
    cases e with
    | begin other =>
      rw [followEntry] at hstep
      split at hstep
      · rename_i hnone
        cases hstep
        rw [← hopen, hnone]
        simp
      · cases hstep
    | write other block data =>
      rw [followEntry] at hstep
      split at hstep
      · cases hstep
        rw [hopen]
        simp
      · cases hstep
    | commit other =>
      rw [followEntry] at hstep
      split at hstep
      · cases hstep
        simp
      · cases hstep

/-! ## Cuts -/

/-- The variables of the plan, with what was committed before them. -/
def PlanState.after (before s : PlanState) : PlanState :=
  { s with
    writes := before.writes ++ s.writes
    committed := before.committed + s.committed }

/-- What was committed before changes nothing. -/
theorem planStep_after (before s : PlanState) (e : JournalEntry) :
    planStep (before.after s) e = (planStep s e).map before.after := by
  cases e with
  | begin txid =>
    rw [planStep, planStep]
    show (rejectIf (s.active.isSome = true) _ >>= _) = _
    by_cases hactive : s.active.isSome = true
    · rw [rejectIf_of hactive]
      rfl
    · rw [rejectIf_of_not hactive]
      rfl
  | write txid block data =>
    rw [planStep, planStep]
    show (rejectIf (s.active ≠ some txid) _ >>= _) = _
    by_cases hactive : s.active ≠ some txid
    · rw [rejectIf_of hactive]
      rfl
    · rw [rejectIf_of_not hactive]
      rfl
  | commit txid =>
    rw [planStep, planStep]
    show (rejectIf (s.active ≠ some txid) _ >>= _) = _
    by_cases hactive : s.active ≠ some txid
    · rw [rejectIf_of hactive]
      rfl
    · rw [rejectIf_of_not hactive]
      simp only [Except.ok_bind, Except.pure_eq_ok, Except.map,
        PlanState.after, List.append_assoc, Nat.add_assoc]

/-- Outside of a transaction nothing is pending. -/
theorem planStep_pending {p p' : PlanState} (hstep : planStep p e = .ok p')
    (hactive : p'.active = none) : p'.pending = [] := by
  cases e with
  | begin txid =>
    simp only [planStep, Except.bind_eq_ok, Except.pure_eq_ok,
      Except.ok.injEq] at hstep
    obtain ⟨_, _, rfl⟩ := hstep
    cases hactive
  | write txid block data =>
    simp only [planStep, Except.bind_eq_ok, rejectIf_eq_ok, not_not,
      Except.pure_eq_ok, Except.ok.injEq] at hstep
    obtain ⟨_, hopen, rfl⟩ := hstep
    rw [show p.active = none from hactive] at hopen
    cases hopen
  | commit txid =>
    simp only [planStep, Except.bind_eq_ok, Except.pure_eq_ok,
      Except.ok.injEq] at hstep
    obtain ⟨_, _, rfl⟩ := hstep
    rfl

theorem foldlM_planStep_pending {p p' : PlanState}
    (hp : p.active = none → p.pending = [])
    (h : es.foldlM planStep p = .ok p') (hactive : p'.active = none) :
    p'.pending = [] := by
  induction es generalizing p with
  | nil =>
    cases h
    exact hp hactive
  | cons e es ih =>
    rw [List.foldlM_cons, Except.bind_eq_ok] at h
    obtain ⟨mid, hstep, hrest⟩ := h
    exact ih (planStep_pending hstep) hrest

/-- **A cut outside of a transaction**: both parts have a plan, and the plan of
the whole is the one behind the other. -/
theorem planRecovery_cut {plan : RecoveryPlan}
    (h : planRecovery (front ++ rest) = .ok plan)
    (hclosed : ∀ txid, ¬ OpenIn front txid) :
    ∃ first second, planRecovery front = .ok first ∧
      planRecovery rest = .ok second ∧
      plan.writes = first.writes ++ second.writes ∧
      plan.report.committedTransactions = first.report.committedTransactions +
        second.report.committedTransactions ∧
      plan.report.homeWrites =
        first.report.homeWrites + second.report.homeWrites := by
  obtain ⟨s, hs, rfl⟩ := planRecovery_eq_ok.mp h
  rw [List.foldlM_append, Except.bind_eq_ok] at hs
  obtain ⟨mid, hmid, hrest⟩ := hs
  have hactive : mid.active = none := by
    cases hopen : mid.active with
    | none => rfl
    | some txid =>
      exact absurd ((openIn_iff (follow_of_plan hmid)).mp hopen) (hclosed txid)
  have hstart : mid = mid.after .initial := by
    have hpending := foldlM_planStep_pending (fun _ => rfl) hmid hactive
    cases mid
    cases hactive
    cases hpending
    simp [PlanState.after, PlanState.initial]
  rw [hstart, Except.foldlM_commute _ (planStep_after mid),
    Except.map_eq_ok] at hrest
  obtain ⟨t, ht, rfl⟩ := hrest
  exact ⟨_, _, planRecovery_eq_ok.mpr ⟨mid, hmid, rfl⟩,
    planRecovery_eq_ok.mpr ⟨t, ht, rfl⟩, rfl, rfl, List.length_append⟩

end Open

/-! ## The four loops -/

/-- A write entry with a target is one for the loops that look at it. -/
theorem targets_iff {sb : Superblock} {es : List JournalEntry} :
    (∀ e ∈ es, e.Targets sb) ↔ ∀ txid block data,
      JournalEntry.write txid block data ∈ es → sb.homeTarget block.toNat := by
  constructor
  · intro h txid block data hmem
    exact h _ hmem
  · intro h e hmem
    cases e with
    | begin txid => trivial
    | write txid block data => exact h txid block data hmem
    | commit txid => trivial

/-- The audit of a journal beside accounting that is right. -/
theorem auditJournal_iff {sb : Superblock} {es : List JournalEntry}
    {allocated free inodeRecords referenced directoryEntries : Nat}
    (haccounting : allocated + free = sb.totalBlocks - sb.reservedBlocks)
    {report : FsckReport} :
    auditJournal sb es allocated free inodeRecords referenced
        directoryEntries = .ok report ↔
      ∃ s, es.foldlM (auditJournalEntry sb) ⟨none, 0, 0⟩ = .ok s ∧
        report = ⟨sb.totalBlocks, sb.reservedBlocks,
          sb.totalBlocks - sb.reservedBlocks, allocated, free, inodeRecords,
          referenced, directoryEntries, es.length, s.journalWrites,
          s.committedTransactions, s.active⟩ := by
  have hlayout := sb.layout
  have hadd : checkedAdd allocated free =
      some (sb.totalBlocks - sb.reservedBlocks) :=
    checkedAdd_eq_some.mpr ⟨by omega, haccounting⟩
  rw [auditJournal, rejectIf_of_not (by omega), Except.ok_bind, hadd, okOr_some,
    Except.ok_bind, rejectIf_of_not (not_not.mpr rfl), Except.ok_bind,
    Except.bind_eq_ok]
  simp only [Except.pure_eq_ok, Except.ok.injEq]
  exact exists_congr fun s => and_congr_right fun _ => eq_comm

/-- What the four loops agree on. -/
structure InterpretersAgree (es : List JournalEntry) : Prop where
  replay_iff : ∀ (home : HomeMap) (n : Nat) (home' : HomeMap),
    (⟨es⟩ : JournalImage).replayInto home = (.ok n, home') ↔
      ∃ plan, planRecovery es = .ok plan ∧
        n = plan.report.committedTransactions ∧
        home' = insertAll home plan.writes
  image_iff : (⟨es⟩ : JournalImage).validate = .ok () ↔
    ∃ plan, planRecovery es = .ok plan
  validate_iff : ∀ sb, validateEntries sb es = .ok () ↔
    (∃ plan, planRecovery es = .ok plan) ∧ ∀ txid block data,
      JournalEntry.write txid block data ∈ es → sb.homeTarget block.toNat
  audit_iff : ∀ (sb : Superblock)
      (allocated free inodeRecords referenced directoryEntries : Nat),
    allocated + free = sb.totalBlocks - sb.reservedBlocks →
    ((∃ report, auditJournal sb es allocated free inodeRecords referenced
      directoryEntries = .ok report) ↔ validateEntries sb es = .ok ())
  audit_report : ∀ (sb : Superblock)
      (allocated free inodeRecords referenced directoryEntries : Nat) report,
    allocated + free = sb.totalBlocks - sb.reservedBlocks →
    auditJournal sb es allocated free inodeRecords referenced
      directoryEntries = .ok report →
    (∃ plan, planRecovery es = .ok plan ∧ report.committedTransactions =
      plan.report.committedTransactions) ∧
      ∀ txid, report.pendingTransaction = some txid ↔ OpenIn es txid
  cut : ∀ (front rest : List JournalEntry) plan, es = front ++ rest →
    planRecovery es = .ok plan → (∀ txid, ¬ OpenIn front txid) →
    ∃ first second, planRecovery front = .ok first ∧
      planRecovery rest = .ok second ∧
      plan.writes = first.writes ++ second.writes ∧
      plan.report.committedTransactions = first.report.committedTransactions +
        second.report.committedTransactions ∧
      plan.report.homeWrites =
        first.report.homeWrites + second.report.homeWrites

/-- **The four loops agree**, on any entries. -/
theorem journal_interpreters_agree (es : List JournalEntry) :
    InterpretersAgree es := by
  constructor
  · intro home n home'
    exact replayInto_iff
  · exact JournalImage.validate_iff
  · intro sb
    rw [validateEntries_iff, ← exists_plan_iff, targets_iff]
  · intro sb allocated free inodeRecords referenced directoryEntries haccounting
    rw [validateEntries_iff]
    constructor
    · intro h
      obtain ⟨report, hreport⟩ := h
      obtain ⟨s, hs, _⟩ := (auditJournal_iff haccounting).mp hreport
      obtain ⟨hfollow, htargets⟩ := foldlM_audit_iff.mp ⟨s, hs, rfl⟩
      exact ⟨⟨_, hfollow⟩, htargets⟩
    · intro h
      obtain ⟨⟨q, hq⟩, htargets⟩ := h
      obtain ⟨s, hs, _⟩ := foldlM_audit_iff.mpr ⟨hq, htargets⟩
      exact ⟨_, (auditJournal_iff haccounting).mpr ⟨s, hs, rfl⟩⟩
  · intro sb allocated free inodeRecords referenced directoryEntries report
      haccounting hreport
    obtain ⟨s, hs, rfl⟩ := (auditJournal_iff haccounting).mp hreport
    obtain ⟨hfollow, _⟩ := foldlM_audit_iff.mp ⟨s, hs, rfl⟩
    obtain ⟨plan, hplan⟩ := exists_plan_iff.mpr ⟨_, hfollow⟩
    obtain ⟨p, hp, rfl⟩ := planRecovery_eq_ok.mp hplan
    have hsame := follow_of_plan hp
    rw [hfollow, Option.some.injEq] at hsame
    exact ⟨⟨_, hplan, congrArg Prod.snd hsame⟩, fun txid => openIn_iff hfollow⟩
  · intro front rest plan hes hplan hclosed
    subst hes
    exact planRecovery_cut hplan hclosed

end FilesystemLab
