import FilesystemLab.CheckedRecovery
import FilesystemLab.CreateTransaction
import FilesystemLab.Mounted
import FilesystemLab.Lib.Abort

/-!
# Calls that change the effective blocks at once

The effective blocks of a disk are its home blocks under the committed writes of
its journal: what recovery makes of them (`Views`).  A call of the library reads
tables, computes, and ends in one journaled transaction.  This module says so
once, for whatever a call computes:

* `Commits sb d d' old new`: the writes from `d` to `d'` change the effective
  blocks from `old` to `new` at once, wherever the power fails in between.
* `Guarded sb x d`: the call `x` keeps the effective blocks of `d`, or it
  changes them at once, and then the journal of `d` was empty and the call
  succeeds.
* `Entered sb x d`: what the call `x` does to `d` is what it does to the
  recovered disk, or it is rejected and leaves `d` as it was.

The rules below follow the `do` blocks: a call is guarded if what it does after
its reads and checks is, and it is entered if it recovers the journal before it
does anything else.  `Entered.commits` joins the two: a call that is entered and
guarded changes the effective blocks of every disk at once, if at all.
-/

namespace FilesystemLab

open WriteLog

/-- A settled disk with the effective home blocks `view`. -/
structure Holding (sb : Superblock) (d : Disk) (view : Nat → Block) : Prop where
  settled : d.Settled
  size : sb.totalBlocks = d.size
  views : Views sb d.blocks view

/-- The disk `d'` is `d` after writes that change the effective home blocks from
`old` to `new`; if the power fails in between, they are `old` or `new`. -/
structure Commits (sb : Superblock) (d d' : Disk) (old new : Nat → Block) :
    Prop where
  crash : ∃ eps, d' = d.commit eps ∧ ∀ img,
    CrashImage d.blocks (barriers eps) img → Views sb img old ∨ Views sb img new
  views : Views sb d'.blocks new

/-- The disk that a recovery leaves. -/
def recoveredDisk (sb : Superblock) (d : Disk) : Disk :=
  (recoverJournalAndCheckpoint sb d).2

section Commits

variable {sb : Superblock} {d d' d'' : Disk} {old mid new view : Nat → Block}

/-- A disk with an empty journal holds its home blocks. -/
theorem Holding.of_vacant (hd : d.Settled) (hsize : sb.totalBlocks = d.size)
    (hvacant : journalOf sb d.blocks = .ok []) : Holding sb d d.blocks :=
  ⟨hd, hsize, [], hvacant, fun _ _ => rfl⟩

theorem Views.of_vacant {f : Nat → Block} (h : Views sb f view)
    (hvacant : journalOf sb f = .ok []) {b : Nat} (hb : ¬ sb.journalRange b) :
    f b = view b := by
  obtain ⟨entries, hload, hview⟩ := h
  rw [hvacant, Except.ok.injEq] at hload
  subst hload
  exact hview b hb

theorem Commits.refl (h : Holding sb d old) : Commits sb d d old old := by
  refine ⟨⟨[], (Disk.commit_nil d).symm, ?_⟩, h.views⟩
  intro img hc
  rw [crashImage_barriers_nil hc]
  exact .inl h.views

theorem Commits.holding (h : Commits sb d d' old new) (hd : Holding sb d old) :
    Holding sb d' new := by
  obtain ⟨eps, rfl, _⟩ := h.crash
  exact ⟨Disk.commit_settled hd.settled eps, hd.size, h.views⟩

/-- Two sets of writes, of which at most one changes the effective blocks. -/
theorem Commits.trans (h : Commits sb d d' old mid)
    (h' : Commits sb d' d'' mid new) (hquiet : old = mid ∨ mid = new) :
    Commits sb d d'' old new := by
  obtain ⟨eps, rfl, himages⟩ := h.crash
  obtain ⟨eps', rfl, himages'⟩ := h'.crash
  refine ⟨⟨eps ++ eps', Disk.commit_commit d eps eps', ?_⟩, h'.views⟩
  intro img hc
  rw [barriers_append] at hc
  rcases crashImage_append (run_barriers _ _) hc with hc | hc
  · rcases hquiet with rfl | rfl
    · rcases himages img hc with himg | himg
      · exact .inl himg
      · exact .inl himg
    · exact himages img hc
  · rw [← Disk.blocks_commit] at hc
    rcases hquiet with rfl | rfl
    · exact himages' img hc
    · rcases himages' img hc with himg | himg
      · exact .inr himg
      · exact .inr himg

/-- Only the home blocks count. -/
theorem Commits.congr (h : Commits sb d d' old new) {old' new' : Nat → Block}
    (hold : ∀ b, ¬ sb.journalRange b → old b = old' b)
    (hnew : ∀ b, ¬ sb.journalRange b → new b = new' b) :
    Commits sb d d' old' new' := by
  obtain ⟨eps, hd', himages⟩ := h.crash
  refine ⟨⟨eps, hd', ?_⟩, h.views.congr hnew⟩
  intro img hc
  rcases himages img hc with himg | himg
  · exact .inl (himg.congr hold)
  · exact .inr (himg.congr hnew)

/-- An accepted transaction, published and replayed. -/
theorem Accepted.commits {changed : List (Nat × Block)}
    (h : Accepted sb d changed) :
    Commits sb d (d.commit (Accepted.epochs sb changed)) d.blocks
      (overlay d.blocks changed) := by
  refine ⟨⟨_, rfl, fun img hc => h.views_of_crash hc⟩, ?_⟩
  rw [Disk.blocks_commit]
  exact h.views recovers_recoverJournalAndCheckpoint

/-- An accepted transaction that stays in the journal after its replay. -/
theorem Accepted.commits_replayed {changed : List (Nat × Block)}
    (h : Accepted sb d changed) :
    Commits sb d (d.commit (storeEpochs sb (transactionEntries changed) ++
      replayEpochs changed)) d.blocks (overlay d.blocks changed) := by
  have hprefix : barriers (storeEpochs sb (transactionEntries changed) ++
      replayEpochs changed) <+: barriers (Accepted.epochs sb changed) := by
    refine ⟨barriers (checkpointEpochs sb (transactionEntries changed)), ?_⟩
    rw [← barriers_append, List.append_assoc, Accepted.epochs, Plans.epochs]
  refine ⟨⟨_, rfl, ?_⟩, ?_⟩
  · intro img hc
    obtain ⟨p, hp, himg⟩ := hc
    exact h.views_of_crash ⟨p, hp.trans hprefix, himg⟩
  · have hviews := h.views recovers_recoverJournal
    rw [Disk.blocks_commit]
    exact hviews

/-- Recovery keeps the effective blocks, wherever it is interrupted, and empties
the journal. -/
theorem Holding.recover (h : Holding sb d view) :
    ∃ report, recoverJournalAndCheckpoint sb d =
        (.ok report, recoveredDisk sb d) ∧
      Commits sb d (recoveredDisk sb d) view view ∧
      journalOf sb (recoveredDisk sb d).blocks = .ok [] := by
  obtain ⟨entries, hload, hview⟩ := h.views
  obtain ⟨plan, hplan⟩ := plans_of_journalOf hload
  have hrun := hplan.recoverJournalAndCheckpoint_apply h.size hload
  have hdisk : recoveredDisk sb d = d.commit (Plans.epochs sb entries plan) := by
    rw [recoveredDisk, hrun]
  have hblocks : (d.commit (Plans.epochs sb entries plan)).blocks =
      recovered sb d.blocks entries plan := Disk.blocks_commit d _
  rw [committedWrites_of_plan hplan.plan_eq] at hview
  have hdone : Views sb (recovered sb d.blocks entries plan) view := by
    refine ⟨[], hplan.journalOf_recovered hload, ?_⟩
    intro b hb
    show recovered sb d.blocks entries plan b = view b
    rw [recovered_home hplan _ hb, hview b hb]
  refine ⟨plan.report, ?_, ?_, ?_⟩
  · rw [hdisk, hrun]
  · rw [hdisk]
    refine ⟨⟨_, rfl, ?_⟩, by rw [hblocks]; exact hdone⟩
    intro img hc
    left
    rcases hplan.replaying_of_crash (Mixed.refl _ _) hc with hmix | rfl
    · refine ⟨entries, ?_, ?_⟩
      · rw [hplan.journalOf_mixed hmix, hload]
      · intro b hb
        rw [committedWrites_of_plan hplan.plan_eq, hmix.overlay_eq, hview b hb]
    · exact hdone
  · rw [hdisk, hblocks]
    exact hplan.journalOf_recovered hload

/-- A disk with an empty journal is its own recovery. -/
theorem recoveredDisk_vacant (hsize : sb.totalBlocks = d.size)
    (hvacant : journalOf sb d.blocks = .ok []) : recoveredDisk sb d = d := by
  rw [recoveredDisk, recover_vacant hsize hvacant]

theorem Holding.recovered (h : Holding sb d view) :
    Holding sb (recoveredDisk sb d) view := by
  obtain ⟨_, _, hcommits, _⟩ := h.recover
  exact hcommits.holding h

theorem Holding.vacant_recovered (h : Holding sb d view) :
    journalOf sb (recoveredDisk sb d).blocks = .ok [] := by
  obtain ⟨_, _, _, hvacant⟩ := h.recover
  exact hvacant

end Commits

/-! ## Guarded calls -/

variable {ε α β : Type}

/-- What a guarded call does to a disk with the effective blocks `view`. -/
inductive Guards (sb : Superblock) (x : Effect ε Disk α) (d : Disk)
    (view : Nat → Block) : Prop where
  | quiet (h : Commits sb d (x d).2 view view)
  | published (a : α) (new : Nat → Block) (hok : (x d).1 = .ok a)
      (hvacant : journalOf sb d.blocks = .ok [])
      (h : Commits sb d (x d).2 view new)

/-- The call keeps the effective blocks of `d`, or it changes them at once; in
that case the journal was empty and the call succeeds. -/
def Guarded (sb : Superblock) (x : Effect ε Disk α) (d : Disk) : Prop :=
  ∀ view, Holding sb d view → Guards sb x d view

section Guarded

variable {sb : Superblock} {d : Disk} {x : Effect ε Disk α}
  {f : α → Effect ε Disk β}

/-- A call that writes nothing. -/
theorem guarded_of_unchanged (h : (x d).2 = d) : Guarded sb x d := by
  intro view hd
  refine .quiet ?_
  rw [h]
  exact Commits.refl hd

@[simp] theorem guarded_pure (a : α) :
    Guarded sb (pure a : Effect ε Disk α) d :=
  guarded_of_unchanged rfl

@[simp] theorem guarded_fail (e : ε) :
    Guarded sb (Effect.fail e : Effect ε Disk α) d :=
  guarded_of_unchanged rfl

@[simp] theorem guarded_query (q : Disk → Except ε α) :
    Guarded sb (Effect.query q) d :=
  guarded_of_unchanged rfl

theorem Guarded.congr {y : Effect ε Disk α} (h : Guarded sb x d)
    (heq : y d = x d) : Guarded sb y d := by
  intro view hd
  rcases h view hd with hquiet | ⟨a, new, hok, hvacant, hcommits⟩
  · exact .quiet (by rw [heq]; exact hquiet)
  · exact .published a new (by rw [heq]; exact hok) hvacant
      (by rw [heq]; exact hcommits)

/-- A first part that writes nothing, then the rest. -/
theorem guarded_bind_unchanged (hx : (x d).2 = d) :
    Guarded sb (x >>= f) d ↔ ∀ a, (x d).1 = .ok a → Guarded sb (f a) d := by
  cases hrun : x d with
  | mk r d' =>
    rw [hrun] at hx
    obtain rfl : d' = d := hx
    cases r with
    | error e =>
      constructor
      · intro _ a ha
        cases ha
      · intro _
        apply guarded_of_unchanged
        rw [Effect.bind_of_error hrun]
    | ok a =>
      have hbind : (x >>= f) d' = f a d' := Effect.bind_of_ok hrun
      constructor
      · intro h b hb
        cases hb
        exact h.congr hbind.symm
      · intro h
        exact (h a rfl).congr hbind

@[simp] theorem guarded_query_bind {q : Disk → Except ε α} :
    Guarded sb (Effect.query q >>= f) d ↔
      ∀ a, q d = .ok a → Guarded sb (f a) d :=
  guarded_bind_unchanged rfl

@[simp] theorem guarded_lift_bind {r : Except ε α} :
    Guarded sb (liftM r >>= f) d ↔ ∀ a, r = .ok a → Guarded sb (f a) d :=
  guarded_bind_unchanged rfl

@[simp] theorem guarded_ite {c : Prop} [Decidable c] {y : Effect ε Disk α} :
    Guarded sb (if c then x else y) d ↔
      (c → Guarded sb x d) ∧ (¬ c → Guarded sb y d) := by
  by_cases hc : c
  · simp [hc]
  · simp [hc]

/-- A last part that succeeds and writes nothing. -/
theorem Guarded.bind_pure (hx : Guarded sb x d)
    (hf : ∀ a d', ∃ b, f a d' = (.ok b, d')) : Guarded sb (x >>= f) d := by
  intro view hd
  cases hrun : x d with
  | mk r d' =>
    cases r with
    | error e =>
      have hbind : (x >>= f) d = (.error e, d') := Effect.bind_of_error hrun
      rcases hx view hd with hquiet | ⟨a, _, hok, _, _⟩
      · rw [hrun] at hquiet
        exact .quiet (by rw [hbind]; exact hquiet)
      · rw [hrun] at hok
        cases hok
    | ok a =>
      obtain ⟨b, hb⟩ := hf a d'
      have hbind : (x >>= f) d = (.ok b, d') := (Effect.bind_of_ok hrun).trans hb
      rcases hx view hd with hquiet | ⟨_, new, _, hvacant, hcommits⟩
      · rw [hrun] at hquiet
        exact .quiet (by rw [hbind]; exact hquiet)
      · rw [hrun] at hcommits
        exact .published b new (by rw [hbind]) hvacant
          (by rw [hbind]; exact hcommits)

/-- The result does not count. -/
@[simp] theorem guarded_map {g : α → β} :
    Guarded sb (x >>= fun a => pure (g a)) d ↔ Guarded sb x d := by
  refine ⟨fun h view hd => ?_, fun h => h.bind_pure fun a _ => ⟨g a, rfl⟩⟩
  have hrun : ((x >>= fun a => pure (g a)) d).2 = (x d).2 ∧
      ∀ b, ((x >>= fun a => pure (g a)) d).1 = .ok b →
        ∃ a, (x d).1 = .ok a := by
    rw [Effect.bind_apply]
    split <;> simp_all
  rcases h view hd with hquiet | ⟨b, new, hok, hvacant, hcommits⟩
  · rw [hrun.1] at hquiet
    exact .quiet hquiet
  · obtain ⟨a, ha⟩ := hrun.2 b hok
    rw [hrun.1] at hcommits
    exact .published a new ha hvacant hcommits

/-- A last part that writes nothing, of a call that either succeeds or does
nothing. -/
theorem Guarded.bind_checked (hx : Guarded sb x d)
    (hf : ∀ a d', (f a d').2 = d')
    (hrun : (∃ b, ((x >>= f) d).1 = .ok b) ∨ ((x >>= f) d).2 = d) :
    Guarded sb (x >>= f) d := by
  rcases hrun with ⟨b, hok⟩ | hsame
  · intro view hd
    have hstate : ((x >>= f) d).2 = (x d).2 := by
      rw [Effect.bind_apply]
      rcases x d with ⟨e | a, d'⟩
      · rfl
      · exact hf a d'
    rcases hx view hd with hquiet | ⟨a, new, _, hvacant, hcommits⟩
    · exact .quiet (by rw [hstate]; exact hquiet)
    · exact .published b new hok hvacant (by rw [hstate]; exact hcommits)
  · exact guarded_of_unchanged hsame

theorem Guarded.abortable {x : Effect ε Disk α} (hx : Guarded sb x d) :
    Guarded sb (Effect.abortable x) d := by
  intro view hd
  rcases hx view hd with hquiet | ⟨a, new, hok, hvacant, hcommits⟩
  · exact .quiet hquiet
  · refine .published a new ?_ hvacant hcommits
    rw [Effect.abortable, hok]
    rfl

end Guarded

/-! ## The publications -/

section Publish

variable {sb : Superblock} {d : Disk}

/-- A recovery, of whatever the first part left, then nothing that writes. -/
theorem Guarded.bind_recover {x : DevM Disk α} {f : α → DevM Disk β}
    (hx : Guarded sb x d) (g : α → β)
    (hf : ∀ a, f a = (do
      let _ ← recoverJournalAndCheckpoint sb
      pure (g a) : DevM Disk β)) : Guarded sb (x >>= f) d := by
  intro view hd
  cases hrun : x d with
  | mk r d' =>
    cases r with
    | error e =>
      have hbind : (x >>= f) d = (.error e, d') := Effect.bind_of_error hrun
      rcases hx view hd with hquiet | ⟨a, _, hok, _, _⟩
      · rw [hrun] at hquiet
        exact .quiet (by rw [hbind]; exact hquiet)
      · rw [hrun] at hok
        cases hok
    | ok a =>
      have hbind : (x >>= f) d =
          (do let _ ← recoverJournalAndCheckpoint sb; pure (g a) :
            DevM Disk β) d' := by
        rw [Effect.bind_of_ok hrun, hf]
      have hrest : ∀ new, Commits sb d d' view new →
          (x >>= f) d = (.ok (g a), recoveredDisk sb d') ∧
            Commits sb d (recoveredDisk sb d') view new := by
        intro new hcommits
        obtain ⟨report, hrecover, hquiet, _⟩ := (hcommits.holding hd).recover
        refine ⟨?_, hcommits.trans hquiet (.inr rfl)⟩
        rw [hbind, Effect.bind_of_ok hrecover]
        rfl
      rcases hx view hd with hquiet | ⟨_, new, _, hvacant, hcommits⟩
      · rw [hrun] at hquiet
        obtain ⟨hdone, hcommits⟩ := hrest view hquiet
        exact .quiet (by rw [hdone]; exact hcommits)
      · rw [hrun] at hcommits
        obtain ⟨hdone, hcommits⟩ := hrest new hcommits
        exact .published _ new (by rw [hdone]) hvacant
          (by rw [hdone]; exact hcommits)

/-- An accepted transaction is a guarded change. -/
theorem Accepted.guards {x : Effect ε Disk α} {a : α}
    {changed : List (Nat × Block)} {d' : Disk} (h : Accepted sb d changed)
    (hrun : x d = (.ok a, d'))
    (hcommits : Commits sb d d' d.blocks (overlay d.blocks changed))
    {view : Nat → Block} (hd : Holding sb d view) : Guards sb x d view := by
  refine .published a (overlay d.blocks changed) (by rw [hrun]) h.store.vacant ?_
  rw [hrun]
  exact hcommits.congr (fun b hb => hd.views.of_vacant h.store.vacant hb)
    fun _ _ => rfl

/-- The publication of changed blocks. -/
theorem guarded_publishChanges {changed : List (Nat × Block)}
    (hlt : ∀ w ∈ changed, w.1 < U64_LIMIT) (mismatch : String) :
    Guarded sb (publishChanges recoverJournalAndCheckpoint mismatch sb changed)
      d := by
  intro view hd
  rcases publishChanges_cases recovers_recoverJournalAndCheckpoint mismatch sb d
    hlt with ⟨_, hrun⟩ | ⟨_, _, e, hrun⟩ | ⟨hacc, hrun⟩
  · exact guarded_of_unchanged (by rw [hrun]) view hd
  · exact guarded_of_unchanged (by rw [hrun]) view hd
  · exact hacc.guards hrun hacc.commits hd

/-- The publication of changed blocks that leaves them in the journal. -/
theorem guarded_publishChanges_replayed {changed : List (Nat × Block)}
    (hlt : ∀ w ∈ changed, w.1 < U64_LIMIT) (mismatch : String) :
    Guarded sb (publishChanges recoverJournal mismatch sb changed) d := by
  intro view hd
  rcases publishChanges_cases recovers_recoverJournal mismatch sb d hlt with
    ⟨_, hrun⟩ | ⟨_, _, e, hrun⟩ | ⟨hacc, hrun⟩
  · exact guarded_of_unchanged (by rw [hrun]) view hd
  · exact guarded_of_unchanged (by rw [hrun]) view hd
  · exact hacc.guards hrun hacc.commits_replayed hd

/-- What a collected table changes is on the disk. -/
theorem Renderings.collect_lt {ps : List (TableImage × Result (List UInt8))}
    (h : Renderings sb ps) (hsize : sb.totalBlocks = d.size)
    {unexpected : String} {changed : List (Nat × Block)}
    (hcollect : ImageStore.collect ⟨ps.map Prod.fst, unexpected⟩ sb d =
      .ok changed) : ∀ w ∈ changed, w.1 < U64_LIMIT := by
  obtain ⟨hok, herror⟩ := ImageStore.collect_eq h hsize unexpected
  cases hws : renderedWrites ps with
  | error e =>
    obtain ⟨e', he⟩ := herror e hws
    rw [he] at hcollect
    cases hcollect
  | ok ws =>
    rw [hok ws hws, Except.ok.injEq] at hcollect
    rw [← hcollect]
    exact h.differing_lt hws d.blocks

/-- The journaled stores of tables. -/
theorem Renderings.guarded_store
    {ps : List (TableImage × Result (List UInt8))} (h : Renderings sb ps)
    (geometry unexpected mismatch : String) (d : Disk) :
    Guarded sb (storeImagesJournaled geometry ⟨ps.map Prod.fst, unexpected⟩
      recoverJournalAndCheckpoint mismatch sb) d := by
  intro view hd
  refine guarded_query_bind.mpr (fun _ _ => ?_) view hd
  rw [guarded_query_bind]
  intro changed hchanged
  exact guarded_publishChanges (h.collect_lt hd.size hchanged) mismatch

/-- The journaled stores of tables that leave them in the journal. -/
theorem Renderings.guarded_store_replayed
    {ps : List (TableImage × Result (List UInt8))} (h : Renderings sb ps)
    (geometry unexpected mismatch : String) (d : Disk) :
    Guarded sb (storeImagesJournaled geometry ⟨ps.map Prod.fst, unexpected⟩
      recoverJournal mismatch sb) d := by
  intro view hd
  refine guarded_query_bind.mpr (fun _ _ => ?_) view hd
  rw [guarded_query_bind]
  intro changed hchanged
  exact guarded_publishChanges_replayed (h.collect_lt hd.size hchanged) mismatch

@[simp] theorem guarded_storeDirectoryTable (entries : List PersistedDirectoryEntry)
    (d : Disk) : Guarded sb (storeDirectoryTableJournaled sb entries) d :=
  (renderings_directoryImages sb entries).guarded_store_replayed _ _ _ d

@[simp] theorem guarded_storeCreateMetadata (a : BlockAllocator)
    (inodes : List PersistedInode) (entries : List PersistedDirectoryEntry)
    (d : Disk) :
    Guarded sb (storeCreateMetadataJournaled sb a inodes entries) d :=
  (renderings_createImages sb a inodes entries).guarded_store _ _ _ d

/-- A directory table that is stored and checkpointed. -/
@[simp] theorem guarded_storeDirectoryTableAndCheckpoint
    (entries : List PersistedDirectoryEntry) (d : Disk) :
    Guarded sb (storeDirectoryTableAndCheckpoint sb entries) d :=
  (guarded_storeDirectoryTable entries d).bind_recover id fun _ => rfl

end Publish

/-! ## Calls that recover the journal first -/

/-- What the call does to a disk, by what it does to the recovered disk. -/
inductive Entered (sb : Superblock) (x : Effect ε Disk α) (d : Disk) : Prop where
  | rejected (e : ε) (h : x d = (.error e, d))
  | done (h : x d = x (recoveredDisk sb d))

section Entered

variable {sb : Superblock} {d : Disk} {view : Nat → Block} {x : Effect ε Disk α}
  {f : α → Effect ε Disk β}

theorem entered_lift_bind {r : Except ε α}
    (h : ∀ a, r = .ok a → Entered sb (f a) d) : Entered sb (liftM r >>= f) d := by
  cases r with
  | error e => exact .rejected e rfl
  | ok a =>
    rcases h a rfl with ⟨e, hrun⟩ | hrun
    · exact .rejected e hrun
    · exact .done hrun

/-- What follows the recovery counts for the recovered disk only. -/
theorem Entered.bind (h : Entered sb x d) (f : α → Effect ε Disk β) :
    Entered sb (x >>= f) d := by
  rcases h with ⟨e, hrun⟩ | hrun
  · exact .rejected e (Effect.bind_of_error hrun)
  · refine .done ?_
    rw [Effect.bind_apply, Effect.bind_apply, hrun]

theorem Entered.abortable {x : Effect ε Disk α} (h : Entered sb x d) :
    Entered sb (Effect.abortable x) d := by
  rcases h with ⟨e, hrun⟩ | hrun
  · exact .rejected (.error e) (by rw [Effect.abortable, hrun]; rfl)
  · exact .done (by rw [Effect.abortable, Effect.abortable, hrun])

/-- A recovery whose report does not count. -/
theorem Holding.entered_recover (h : Holding sb d view) {f : DevM Disk β} :
    Entered sb (recoverJournalAndCheckpoint sb >>= fun _ => f) d := by
  obtain ⟨report, hrun, _, hvacant⟩ := h.recover
  have hagain : recoverJournalAndCheckpoint sb (recoveredDisk sb d) =
      (.ok RecoveryReport.default, recoveredDisk sb d) :=
    recover_vacant h.recovered.size hvacant
  refine .done ?_
  rw [Effect.bind_of_ok hrun, Effect.bind_of_ok hagain]

/-- A recovery does not write the superblock. -/
theorem Holding.readSuperblock_recovered (h : Holding sb d view) :
    readSuperblock (recoveredDisk sb d) = readSuperblock d := by
  obtain ⟨entries, hload, _⟩ := h.views
  obtain ⟨plan, hplan⟩ := plans_of_journalOf hload
  have hdisk : recoveredDisk sb d = d.commit (Plans.epochs sb entries plan) := by
    rw [recoveredDisk, hplan.recoverJournalAndCheckpoint_apply h.size hload]
  have hblocks : (recoveredDisk sb d).blocks =
      FilesystemLab.recovered sb d.blocks entries plan := by
    rw [hdisk]
    exact Disk.blocks_commit d _
  have hzero : (recoveredDisk sb d).blocks SUPERBLOCK_BLOCK =
      d.blocks SUPERBLOCK_BLOCK := by
    have hlayout := sb.layout
    have hhome : ¬ sb.journalRange SUPERBLOCK_BLOCK := by
      unfold Superblock.journalRange SUPERBLOCK_BLOCK
      omega
    rw [hblocks, recovered_home hplan _ hhome,
      overlay_of_notMem hplan.superblock_notMem]
  have hsize : (recoveredDisk sb d).size = d.size := by
    rw [hdisk]
    exact Disk.commit_size d _
  apply readSuperblock_congr hsize
  show (if _ then _ else _) = if _ then _ else _
  rw [hsize, hzero]

/-- A checked recovery whose report does not count. -/
theorem Holding.entered_recoverChecked (h : Holding sb d view)
    {f : DevM Disk β} :
    Entered sb (recoverJournalAndCheckpointChecked sb >>= fun _ => f) d := by
  rcases recoverJournalAndCheckpointChecked_cases sb d with
    ⟨e, hrun, _⟩ | ⟨hload, _⟩ | ⟨journal, plan, _, hsb, _, hload, hplan, _, _,
      hrun⟩
  · exact .rejected e (Effect.bind_of_error hrun)
  · rw [loadJournalImage_disk h.size] at hload
    refine .done ?_
    rw [recoveredDisk_vacant h.size hload]
  · have hdisk : recoveredDisk sb d = d.commit (Plans.epochs sb journal plan) := by
      rw [recoveredDisk, hplan.recoverJournalAndCheckpoint_apply h.size hload]
    rw [← hdisk] at hrun
    have hsb' := h.readSuperblock_recovered.trans hsb
    have hvacant : loadJournalImage (recoveredDisk sb d) sb = .ok [] := by
      rw [loadJournalImage_disk h.recovered.size]
      exact h.vacant_recovered
    have hagain : recoverJournalAndCheckpointChecked sb (recoveredDisk sb d) =
        (.ok RecoveryReport.default, recoveredDisk sb d) := by
      simp only [recoverJournalAndCheckpointChecked, Effect.query_bind, hsb',
        Effect.lift_bind, rejectIf_of_not (not_ne_iff.mpr rfl), hvacant]
      rfl
    refine .done ?_
    rw [Effect.bind_of_ok hrun, Effect.bind_of_ok hagain]

/-- **A call that recovers the journal first** keeps the effective blocks, or it
changes them at once and succeeds. -/
theorem Entered.commits (h : Entered sb x d)
    (hguarded : Guarded sb x (recoveredDisk sb d)) (hd : Holding sb d view) :
    Commits sb d (x d).2 view view ∨
      ∃ a new, (x d).1 = .ok a ∧ Commits sb d (x d).2 view new := by
  obtain ⟨_, _, hrecover, _⟩ := hd.recover
  rcases h with ⟨e, hrun⟩ | hrun
  · rw [hrun]
    exact .inl (Commits.refl hd)
  · rw [hrun]
    rcases hguarded view hd.recovered with hquiet | ⟨a, new, hok, _, hcommits⟩
    · exact .inl (hrecover.trans hquiet (.inl rfl))
    · exact .inr ⟨a, new, hok, hrecover.trans hcommits (.inl rfl)⟩

/-- `img` is a disk that a reboot may find when the power fails between `d` and
`d'`. -/
def Disk.CutBetween (d d' img : Disk) : Prop :=
  d.CrashDuring (fun _ => ((.ok () : Result Unit), d')) img

/-- A disk as a reboot finds it when nothing is lost. -/
def Disk.rebooted (d : Disk) : Disk := Disk.boot d.size d.blocks

/-- The power may fail right behind the last write. -/
theorem Commits.cut_end {d' : Disk} {old new : Nat → Block}
    (h : Commits sb d d' old new) (hd : d.Settled) :
    d.CutBetween d' d'.rebooted := by
  obtain ⟨eps, rfl, _⟩ := h.crash
  refine (Disk.crashDuring_iff rfl hd).mpr ⟨(d.commit eps).blocks, ?_, rfl⟩
  rw [Disk.blocks_commit]
  exact crashImage_settle _ _

/-- A cut keeps the effective blocks or leaves all of the new ones. -/
theorem Commits.cut {d' img : Disk} {old new : Nat → Block}
    (h : Commits sb d d' old new) (hd : Holding sb d old)
    (hcut : d.CutBetween d' img) :
    Holding sb img old ∨ Holding sb img new := by
  obtain ⟨eps, hd', himages⟩ := h.crash
  obtain ⟨contents, hc, rfl⟩ := (Disk.crashDuring_iff hd' hd.settled).mp hcut
  have hsettled : (Disk.boot d.size contents).Settled := Disk.boot_settled _ _
  rcases himages contents hc with himg | himg
  · exact .inl ⟨hsettled, hd.size, himg⟩
  · exact .inr ⟨hsettled, hd.size, himg⟩

end Entered

end FilesystemLab
