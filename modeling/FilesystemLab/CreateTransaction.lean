import FilesystemLab.PrefixCheckpoint
import FilesystemLab.SnapshotStore

/-!
# Creating a file with its data

`src/create_data_tx.rs`: the three tables and the first contents of a file in
one journal transaction.

`CrashAtomic` is what a journaled store promises under a power failure.
`crashAtomic_of_stores` proves it for every store that publishes the blocks it
was asked for, if these agree with each other and with what the transaction
itself leaves in the journal reservation.  The tables alone always do.  Data
blocks need not: `is_owned` also holds of the reserved blocks, so a call may name
a block of a table, or of the reservation, as a data block.
-/

namespace FilesystemLab

open Bytes CaptureDevice JournalCodec WriteLog

/-! ## The store -/

/-- The loop of `store_create_with_blocks_journaled` over the named blocks;
`unique` holds those before. -/
def checkDataBlocks (a : BlockAllocator) (inodes : List PersistedInode) :
    List UInt64 → List UInt64 → Result Unit
  | _, [] => pure ()
  | unique, block :: blocks => do
    rejectIf (block ∈ unique)
      (invalidInput "atomic create-with-data blocks must be unique")
    let owned ← (a.isOwned block.toNat).mapError fun e => invalidInput e.message
    rejectIf (owned = false)
      (invalidInput "atomic create-with-data block is not allocator-owned")
    rejectIf ((inodes.flatMap PersistedInode.blocks).count block ≠ 1)
      (invalidInput
        "atomic create-with-data block must have exactly one inode owner")
    checkDataBlocks a inodes (block :: unique) blocks

/-- The checks of `store_create_with_blocks_journaled` behind the geometry. -/
def checkCreateWithBlocks (a : BlockAllocator) (inodes : List PersistedInode)
    (blocks : List UInt64) : Result Unit := do
  rejectIf (blocks = [])
    (invalidInput "atomic create-with-data requires at least one data block")
  a.validate.mapError fun e => invalidInput e.message
  checkDataBlocks a inodes [] blocks

section Device

variable {σ : Type} [BlockDevice σ]

/-- The loop that adds the data blocks which differ from the device. -/
def collectData (device : σ) :
    List (UInt64 × Block) → List (Nat × Block) → Result (List (Nat × Block))
  | [], changed => pure changed
  | (block, data) :: rest, changed => do
    let current ← readBlock device block.toNat
    collectData device rest
      (if current ≠ data then changed ++ [(block.toNat, data)] else changed)

/-- The tables of `store_create_with_blocks_journaled`. -/
def createDataImages (sb : Superblock) (a : BlockAllocator)
    (inodes : List PersistedInode) (entries : List PersistedDirectoryEntry) :
    List (TableImage × Result (List UInt8)) :=
  [allocationPair sb a
      "atomic create-with-data image did not render every allocation metadata block",
    inodePair sb inodes
      "atomic create-with-data image did not render every inode metadata block",
    directoryPair sb entries
      "atomic create-with-data image did not render every directory metadata block"]

/-- `store_create_with_blocks_journaled`. -/
def storeCreateWithBlocksJournaled (sb : Superblock) (a : BlockAllocator)
    (inodes : List PersistedInode) (entries : List PersistedDirectoryEntry)
    (data : List (UInt64 × Block)) : DevM σ RecoveryReport := do
  Effect.query (requireGeometry · sb
    "atomic create-with-data device geometry does not match superblock")
  checkCreateWithBlocks a inodes (data.map Prod.fst)
  let tables ← Effect.query (ImageStore.collect
    ⟨(createDataImages sb a inodes entries).map Prod.fst,
      "atomic create-with-data image rendered outside allocation, inode, and directory regions"⟩
    sb)
  let changed ← Effect.query (collectData · data tables)
  publishChanges recoverJournalAndCheckpoint
    "atomic create-with-data recovery report does not match one complete transaction"
    sb changed

/-- `store_create_with_data_journaled`. -/
def storeCreateWithDataJournaled (sb : Superblock) (a : BlockAllocator)
    (inodes : List PersistedInode) (entries : List PersistedDirectoryEntry)
    (dataBlock : UInt64) (data : Block) : DevM σ RecoveryReport :=
  storeCreateWithBlocksJournaled sb a inodes entries [(dataBlock, data)]

end Device

/-- The writes of named data blocks. -/
def dataWrites (data : List (UInt64 × Block)) : List (Nat × Block) :=
  data.map fun w => (w.1.toNat, w.2)

/-- The data blocks of the request, in range, are collected if they differ. -/
theorem collectData_eq {d : Disk} {data : List (UInt64 × Block)}
    (hrange : ∀ w ∈ data, w.1.toNat < d.size) (changed : List (Nat × Block)) :
    collectData d data changed =
      .ok (changed ++ differing d.blocks (dataWrites data)) := by
  induction data generalizing changed with
  | nil => simp [collectData, dataWrites, differing]
  | cons w ws ih =>
    have hw := hrange w List.mem_cons_self
    have hws := ih fun v hv => hrange v (List.mem_cons_of_mem _ hv)
    rw [collectData, Disk.readBlock_of_lt hw, Except.ok_bind, hws]
    by_cases hsame : d.blocks w.1.toNat = w.2
    · simp [dataWrites, differing, hsame]
    · simp [dataWrites, differing, hsame]

/-- The checks on the named blocks. -/
theorem checkDataBlocks_eq_ok {a : BlockAllocator}
    {inodes : List PersistedInode} {unique blocks : List UInt64} {u : Unit} :
    checkDataBlocks a inodes unique blocks = .ok u ↔
      blocks.Nodup ∧ ∀ block ∈ blocks, block ∉ unique ∧
        a.isOwned block.toNat = .ok true ∧
        (inodes.flatMap PersistedInode.blocks).count block = 1 := by
  induction blocks generalizing unique with
  | nil => simp [checkDataBlocks]
  | cons block blocks ih =>
    have howned : ∀ owned, (a.isOwned block.toNat).mapError
        (fun e => invalidInput e.message) = .ok owned ↔
          a.isOwned block.toNat = .ok owned := by
      intro owned
      cases a.isOwned block.toNat <;> simp [Except.mapError]
    simp only [checkDataBlocks, Except.bind_eq_ok, rejectIf_eq_ok, howned, ih,
      List.nodup_cons, List.forall_mem_cons, Bool.not_eq_false, not_ne_iff]
    constructor
    · intro hfacts
      rcases hfacts with ⟨_, hfresh, owned, howned, _, rfl, _, hcount, hnodup,
        hall⟩
      refine ⟨⟨?_, hnodup⟩, ⟨hfresh, howned, hcount⟩, ?_⟩
      · intro hmem
        exact (hall block hmem).1 List.mem_cons_self
      · intro b hb
        obtain ⟨h1, h2⟩ := hall b hb
        exact ⟨fun hmem => h1 (List.mem_cons_of_mem _ hmem), h2⟩
    · intro hfacts
      rcases hfacts with ⟨⟨hno, hnodup⟩, ⟨hfresh, hisOwned, hcount⟩, hall⟩
      refine ⟨(), hfresh, true, hisOwned, (), rfl, (), hcount, hnodup, ?_⟩
      intro b hb
      obtain ⟨h1, h2⟩ := hall b hb
      refine ⟨?_, h2⟩
      intro hmem
      rcases List.mem_cons.mp hmem with rfl | hmem
      · exact hno hb
      · exact h1 hmem

theorem lt_of_isOwned {a : BlockAllocator} {block : Nat} {owned : Bool}
    (h : a.isOwned block = .ok owned) : block < a.totalBlocks := by
  simp only [BlockAllocator.isOwned, BlockAllocator.ensureInRange,
    Except.bind_eq_ok, rejectIf_eq_ok] at h
  obtain ⟨_, hlt, _⟩ := h
  omega

/-! ## What the transaction leaves in the reservation -/

/-- What a published and checkpointed transaction leaves in a block of the
journal reservation. -/
def reservationBlock (sb : Superblock) (changed : List (Nat × Block))
    (b : Nat) : Block :=
  if b = sb.journalStart then emptyAnchorBlock
  else Block.ofImage (activeRegion (sb.journalBlocks * BLOCK_SIZE)
    (stream (transactionEntries changed))) (b - sb.journalStart)

namespace Accepted

variable {sb : Superblock} {d : Disk} {changed : List (Nat × Block)}

/-- The epochs of a transaction that is checkpointed. -/
def epochs (sb : Superblock) (changed : List (Nat × Block)) :
    List (List (Nat × Block)) :=
  storeEpochs sb (transactionEntries changed) ++
    Plans.epochs sb (transactionEntries changed)
      ⟨changed, ⟨1, changed.length⟩⟩

/-- Behind its first block, the reservation is written with the journal image
only. -/
theorem eq_reservationBlock (h : Accepted sb d changed) {b : Nat} {v : Block}
    (hb : sb.journalRange b) (hne : b ≠ sb.journalStart)
    {ws : List (Nat × Block)} (hws : ws ∈ epochs sb changed)
    (hmem : (b, v) ∈ ws) : v = reservationBlock sb changed b := by
  rw [reservationBlock, if_neg hne]
  rcases List.mem_append.mp hws with hws | hws
  · rw [storeEpochs, if_neg (transactionEntries_ne_nil changed)] at hws
    simp only [publishEpochs, List.cons_append, List.nil_append,
      List.mem_cons, List.mem_append, List.not_mem_nil, or_false] at hws
    rcases hws with rfl | hws | rfl
    · simp only [List.mem_singleton, Prod.mk.injEq] at hmem
      exact absurd hmem.1 hne
    · split at hws
      · rw [List.mem_singleton.mp hws] at hmem
        obtain ⟨i, _, _, heq⟩ := mem_regionTail.mp hmem
        simp only [regionBlock, Prod.mk.injEq] at heq
        obtain ⟨rfl, rfl⟩ := heq
        rw [Nat.add_sub_cancel_left]
      · simp at hws
    · simp only [regionBlock, List.mem_singleton, Prod.mk.injEq] at hmem
      exact absurd hmem.1 (by omega)
  · exfalso
    rcases List.mem_append.mp hws with hws | hws
    · rw [replayEpochs, if_neg h.nonempty, List.mem_singleton] at hws
      subst hws
      exact h.plans.notMem_of_journalRange hb (List.mem_map_of_mem hmem)
    · rw [checkpointEpochs, if_neg (transactionEntries_ne_nil changed),
        List.mem_singleton] at hws
      subst hws
      simp only [List.mem_singleton, Prod.mk.injEq] at hmem
      exact hne hmem.1

/-- The first block of the reservation at the end of the transaction. -/
theorem settle_journalStart (h : Accepted sb d changed) :
    settle d.blocks (epochs sb changed) sb.journalStart = emptyAnchorBlock := by
  rw [epochs, settle_append]
  show recovered sb _ _ _ _ = _
  rw [h.plans.recovered_eq, if_neg (transactionEntries_ne_nil changed)]
  exact Function.update_self _ _ _

/-- The reservation at the end of the transaction. -/
theorem settle_reservation (h : Accepted sb d changed) {b : Nat}
    (hb : sb.journalRange b) :
    settle d.blocks (epochs sb changed) b = reservationBlock sb changed b := by
  by_cases hfirst : b = sb.journalStart
  · subst hfirst
    rw [h.settle_journalStart, reservationBlock, if_pos rfl]
  -- the tail was published, and nothing behind wrote it
  have hlayout := sb.layout
  obtain ⟨i, rfl⟩ : ∃ i, b = sb.journalStart + i :=
    ⟨b - sb.journalStart, by unfold Superblock.journalRange at hb; omega⟩
  have hi : i < sb.journalBlocks := by
    unfold Superblock.journalRange at hb
    omega
  rw [reservationBlock, if_neg hfirst, epochs, settle_append]
  show recovered sb _ _ _ _ = _
  rw [h.plans.recovered_eq, if_neg (transactionEntries_ne_nil changed),
    Function.update_of_ne hfirst,
    overlay_of_notMem (h.plans.notMem_of_journalRange hb), storeEpochs,
    if_neg (transactionEntries_ne_nil changed), settle_publishEpochs,
    Function.update_of_ne hfirst, staged, overlay_regionTail (by omega) hi,
    Nat.add_sub_cancel_left]

/-- The disk at the end of the transaction: the journal is empty, and the
changes are in place. -/
theorem committed (h : Accepted sb d changed) :
    journalOf sb (d.commit (epochs sb changed)).blocks = .ok [] ∧
      ∀ b, ¬ sb.journalRange b → (d.commit (epochs sb changed)).blocks b =
        overlay d.blocks changed b := by
  have hjournal : journalOf sb (d.commit (epochs sb changed)).blocks =
      .ok [] := by
    apply journalOf_emptyAnchor
    rw [Disk.blocks_commit]
    exact h.settle_journalStart
  refine ⟨hjournal, ?_⟩
  intro b hb
  obtain ⟨entries, hentries, hshow⟩ :=
    h.views recovers_recoverJournalAndCheckpoint
  have hentries' : entries = [] := by
    rw [Disk.blocks_commit, epochs, hentries] at hjournal
    exact Except.ok.inj hjournal
  subst hentries'
  rw [Disk.blocks_commit]
  exact hshow b hb

/-- After a power failure inside the transaction, an empty journal has the old
first block or the empty anchor. -/
theorem journalStart_of_crash (h : Accepted sb d changed) {img : Nat → Block}
    (hc : CrashImage d.blocks (barriers (epochs sb changed)) img)
    (hempty : journalOf sb img = .ok []) :
    img sb.journalStart = d.blocks sb.journalStart ∨
      img sb.journalStart = emptyAnchorBlock := by
  have hload : journalOf sb img ≠ .ok (transactionEntries changed) := by
    rw [hempty]
    intro heq
    exact transactionEntries_ne_nil changed (Except.ok.inj heq).symm
  rw [epochs, barriers_append] at hc
  rcases crashImage_append (run_barriers _ _) hc with hc | hc
  · rcases (h.store.published hc).stream with ⟨hfirst, _⟩ | hload'
    · exact hfirst
    · exact absurd hload' hload
  · right
    rcases h.plans.replaying_of_crash (Mixed.refl _ _) hc with hmix | rfl
    · rw [h.plans.journalOf_mixed hmix, h.published.1] at hload
      exact absurd rfl hload
    · rw [h.plans.recovered_eq, if_neg (transactionEntries_ne_nil changed)]
      exact Function.update_self _ _ _

/-- A block of the reservation that already is what the transaction leaves
there is so after every power failure and recovery. -/
theorem reservation_of_crash (h : Accepted sb d changed) {img : Nat → Block}
    (hc : CrashImage d.blocks (barriers (epochs sb changed)) img) {b : Nat}
    (hb : sb.journalRange b) (hsame : d.blocks b = reservationBlock sb changed b)
    {final : Nat → Block}
    (htail : ∀ b, sb.journalRange b → b ≠ sb.journalStart → final b = img b)
    (hfirst : final sb.journalStart = emptyAnchorBlock ∨
      journalOf sb img = .ok [] ∧
        final sb.journalStart = img sb.journalStart) :
    final b = d.blocks b := by
  by_cases hstart : b = sb.journalStart
  · subst hstart
    have hanchor : d.blocks sb.journalStart = emptyAnchorBlock := by
      rw [hsame, reservationBlock, if_pos rfl]
    rcases hfirst with hfirst | ⟨hempty, hfirst⟩
    · rw [hfirst, hanchor]
    · rw [hfirst]
      rcases h.journalStart_of_crash hc hempty with himg | himg
      · exact himg
      · rw [himg, hanchor]
  · rw [htail b hb hstart]
    rcases crashImage_mem hc b with heq | ⟨ws, hws, hmem⟩
    · exact heq
    · rw [h.eq_reservationBlock hb hstart hws hmem, hsame]

end Accepted

/-! ## Crash atomicity -/

/-- Recovery of `img` succeeds, empties the journal, and leaves what `post`
says. -/
def RecoversTo (sb : Superblock) (img : Disk) (post : Disk → Prop) : Prop :=
  ∃ report final, recoverJournalAndCheckpoint sb img = (.ok report, final) ∧
    loadJournalImage final sb = .ok [] ∧ post final

/-- The requested blocks are in place. -/
def Requested (request : Result (List (Nat × Block))) (final : Disk) : Prop :=
  ∃ ws, request = .ok ws ∧ ∀ w ∈ ws, final.blocks w.1 = w.2

/-- Outside of the reservation only named blocks have changed. -/
def OthersKept (sb : Superblock) (names : Nat → Prop) (d final : Disk) : Prop :=
  ∀ b, ¬ names b → ¬ sb.journalRange b → final.blocks b = d.blocks b

/-- **What a journaled store promises.**  Whenever the power fails, recovery
leaves all named blocks as before or all of them as requested; an acknowledged
request is there after every later power failure; a rejected one has done
nothing. -/
structure CrashAtomic (sb : Superblock) (op : DevM Disk RecoveryReport)
    (d : Disk) (names : Nat → Prop) (request : Result (List (Nat × Block))) :
    Prop where
  crash : ∀ img, d.CrashDuring op img → RecoversTo sb img fun final =>
    ((∀ b, names b → final.blocks b = d.blocks b) ∨ Requested request final) ∧
      OthersKept sb names d final
  acknowledged : ∀ report, (op d).1 = .ok report →
    ∀ img, (op d).2.CrashDuring (pure () : DevM Disk Unit) img →
      RecoversTo sb img fun final =>
        Requested request final ∧ OthersKept sb names d final
  rejected : ∀ e, (op d).1 = .error e → (op d).2 = d

/-- How a store of the blocks `ws` may end: it is rejected, it finds them in
place, or it commits those that differ. -/
inductive Stores (sb : Superblock) (op : DevM Disk RecoveryReport) (d : Disk)
    (ws : List (Nat × Block)) : Prop where
  | rejected (e : IoError) (h : op d = (.error e, d))
  | same (hws : ∀ w ∈ ws, d.blocks w.1 = w.2)
      (h : op d = (.ok RecoveryReport.default, d))
  | committed (hacc : Accepted sb d (differing d.blocks ws))
      (h : op d = (.ok ⟨1, (differing d.blocks ws).length⟩,
        d.commit (Accepted.epochs sb (differing d.blocks ws))))

/-- Recovery of a disk with an empty journal keeps every block. -/
theorem recover_vacant {sb : Superblock} {d : Disk}
    (hsize : sb.totalBlocks = d.size) (hload : journalOf sb d.blocks = .ok []) :
    recoverJournalAndCheckpoint sb d = (.ok RecoveryReport.default, d) := by
  obtain ⟨plan, hplan⟩ := plans_of_journalOf hload
  rw [hplan.recoverJournalAndCheckpoint_apply hsize hload, hplan.epochs_nil,
    hplan.plan_nil.2, Disk.commit_nil]

theorem recoversTo_vacant {sb : Superblock} {d : Disk}
    (hsize : sb.totalBlocks = d.size) (hload : journalOf sb d.blocks = .ok [])
    {post : Disk → Prop} (h : post (Disk.boot d.size d.blocks)) :
    RecoversTo sb (Disk.boot d.size d.blocks) post :=
  ⟨_, _, recover_vacant hsize hload,
    (loadJournalImage_boot hsize d.blocks).trans hload, h⟩

section Atomic

variable {sb : Superblock} {op : DevM Disk RecoveryReport} {d : Disk}
  {ws : List (Nat × Block)} {names : Nat → Prop}
  {request : Result (List (Nat × Block))}

/-- An operation that does nothing is atomic. -/
theorem crashAtomic_of_unchanged (hd : d.Settled)
    (hsize : sb.totalBlocks = d.size) (hload : journalOf sb d.blocks = .ok [])
    (hop : (op d).2 = d)
    (hok : ∀ report, (op d).1 = .ok report → Requested request d) :
    CrashAtomic sb op d names request where
  crash := by
    intro img hc
    rw [Disk.crashDuring_of_unchanged hop hd hc]
    exact recoversTo_vacant hsize hload
      ⟨.inl fun _ _ => rfl, fun _ _ _ => rfl⟩
  acknowledged := by
    intro report hreport img hc
    rw [hop] at hc
    rw [Disk.crashDuring_of_unchanged (by rfl) hd hc]
    exact recoversTo_vacant hsize hload ⟨hok report hreport, fun _ _ _ => rfl⟩
  rejected := fun _ _ => hop

/-- The blocks of a request agree with each other and, in the reservation, with
what the transaction leaves there. -/
structure Agree (sb : Superblock) (d : Disk) (ws : List (Nat × Block)) :
    Prop where
  values : ∀ w ∈ ws, ∀ v ∈ ws, w.1 = v.1 → w.2 = v.2
  reservation : ∀ w ∈ ws, sb.journalRange w.1 →
    w.2 = reservationBlock sb (differing d.blocks ws) w.1

/-- A block of the reservation is not written by an accepted transaction, so it
holds what was requested. -/
theorem Accepted.requested_reservation
    (hacc : Accepted sb d (differing d.blocks ws)) {w : Nat × Block}
    (hw : w ∈ ws) (hrange : sb.journalRange w.1) : d.blocks w.1 = w.2 := by
  by_contra hdiff
  apply hacc.plans.notMem_of_journalRange hrange
  exact List.mem_map_of_mem
    (List.mem_filter.mpr ⟨hw, by simpa using hdiff⟩)

/-- **A store of blocks that agree is crash atomic.** -/
theorem crashAtomic_of_stores (hd : d.Settled)
    (hsize : sb.totalBlocks = d.size) (hload : journalOf sb d.blocks = .ok [])
    (hnames : ∀ b, names b ↔ b ∈ ws.map Prod.fst) (hrequest : request = .ok ws)
    (hstores : Stores sb op d ws)
    (hagree : Accepted sb d (differing d.blocks ws) → Agree sb d ws) :
    CrashAtomic sb op d names request := by
  cases hstores with
  | rejected e h =>
    apply crashAtomic_of_unchanged hd hsize hload (by rw [h])
    intro report hreport
    rw [h] at hreport
    cases hreport
  | same hws h =>
    apply crashAtomic_of_unchanged hd hsize hload (by rw [h])
    intro _ _
    exact ⟨ws, hrequest, hws⟩
  | committed hacc h =>
    obtain ⟨hvalues, hreservation⟩ := hagree hacc
    have hhome : ∀ b, ¬ names b →
        overlay d.blocks (differing d.blocks ws) b = d.blocks b := by
      intro b hb
      apply overlay_of_notMem
      intro hmem
      rw [hnames] at hb
      exact hb ((List.filter_sublist.map Prod.fst).subset hmem)
    have hkept : ∀ w ∈ ws, sb.journalRange w.1 → d.blocks w.1 =
        reservationBlock sb (differing d.blocks ws) w.1 := by
      intro w hw hrange
      rw [hacc.requested_reservation hw hrange]
      exact hreservation w hw hrange
    refine ⟨?_, ?_, ?_⟩
    · intro img hc
      have hrun : (op d).2 = d.extend (barriers
          (Accepted.epochs sb (differing d.blocks ws))) := by rw [h]; rfl
      obtain ⟨contents, hcrash, rfl⟩ := (Disk.crashDuring_iff hrun hd).mp hc
      rcases hacc.views_of_crash hcrash with hviews | hviews
      · obtain ⟨report, final, hrecover, _, hempty, hshow, htail, hfirst⟩ :=
          Views.recover (d := Disk.boot d.size contents) hsize hviews
        refine ⟨report, final, hrecover, hempty, .inl ?_, ?_⟩
        · intro b hb
          by_cases hrange : sb.journalRange b
          · obtain ⟨w, hw, rfl⟩ := List.mem_map.mp ((hnames b).mp hb)
            exact hacc.reservation_of_crash hcrash hrange
              (hkept w hw hrange) htail hfirst
          · exact hshow b hrange
        · intro b _ hrange
          exact hshow b hrange
      · obtain ⟨report, final, hrecover, _, hempty, hshow, htail, hfirst⟩ :=
          Views.recover (d := Disk.boot d.size contents) hsize hviews
        refine ⟨report, final, hrecover, hempty, .inr ⟨ws, hrequest, ?_⟩, ?_⟩
        · intro w hw
          by_cases hrange : sb.journalRange w.1
          · rw [← hacc.requested_reservation hw hrange]
            exact hacc.reservation_of_crash hcrash hrange
              (hkept w hw hrange) htail hfirst
          · rw [hshow w.1 hrange]
            exact overlay_differing_mem hvalues hw
        · intro b hb hrange
          rw [hshow b hrange, hhome b hb]
    · intro report _ img hc
      rw [h] at hc
      have hsettled := Disk.commit_settled hd
        (Accepted.epochs sb (differing d.blocks ws))
      rw [Disk.crashDuring_of_unchanged (by rfl) hsettled hc]
      obtain ⟨hjournal, hshow'⟩ := hacc.committed
      refine recoversTo_vacant (by exact hsize) hjournal
        ⟨⟨ws, hrequest, ?_⟩, ?_⟩
      · intro w hw
        rw [Disk.boot_blocks]
        by_cases hrange : sb.journalRange w.1
        · rw [Disk.blocks_commit, hacc.settle_reservation hrange,
            ← hreservation w hw hrange]
        · rw [hshow' w.1 hrange]
          exact overlay_differing_mem hvalues hw
      · intro b hb hrange
        rw [Disk.boot_blocks, hshow' b hrange, hhome b hb]
    · intro e he
      rw [h] at he
      cases he

/-- A committed request whose blocks do not agree is not kept. -/
theorem agree_of_crashAtomic (hd : d.Settled)
    (hsize : sb.totalBlocks = d.size) (hrequest : request = .ok ws)
    (hacc : Accepted sb d (differing d.blocks ws))
    (h : op d = (.ok ⟨1, (differing d.blocks ws).length⟩,
      d.commit (Accepted.epochs sb (differing d.blocks ws))))
    (hatomic : CrashAtomic sb op d names request) : Agree sb d ws := by
  have hsettled := Disk.commit_settled hd
    (Accepted.epochs sb (differing d.blocks ws))
  have hnone : ((pure () : DevM Disk Unit) (d.commit (Accepted.epochs sb
      (differing d.blocks ws)))).2 = (d.commit (Accepted.epochs sb
        (differing d.blocks ws))).extend (barriers []) := by simp
  have hc : (op d).2.CrashDuring (pure () : DevM Disk Unit)
      (Disk.boot d.size (d.commit (Accepted.epochs sb
        (differing d.blocks ws))).blocks) := by
    rw [h]
    exact (Disk.crashDuring_iff hnone hsettled).mpr
      ⟨_, crashImage_settle _ [], rfl⟩
  obtain ⟨report, final, hrecover, _, ⟨vs, hvs, hfinal⟩, _⟩ :=
    hatomic.acknowledged _ (by rw [h]) _ hc
  rw [hrequest, Except.ok.injEq] at hvs
  subst hvs
  have hjournal := hacc.committed.1
  have hvacant := recover_vacant (d := Disk.boot d.size (d.commit
    (Accepted.epochs sb (differing d.blocks ws))).blocks) hsize hjournal
  rw [hvacant] at hrecover
  cases hrecover
  refine ⟨?_, ?_⟩
  · intro w hw v hv heq
    rw [← hfinal w hw, ← hfinal v hv, heq]
  · intro w hw hrange
    rw [← hfinal w hw, ← hacc.settle_reservation hrange, Disk.boot_blocks,
      Disk.blocks_commit]

end Atomic

/-! ## The two stores -/

/-- The regions of the tables and the named data blocks. -/
def createNames (sb : Superblock) (data : List (UInt64 × Block)) (b : Nat) :
    Prop :=
  sb.allocationRange b ∨ sb.inodeRange b ∨ sb.directoryRange b ∨
    b ∈ data.map fun w => w.1.toNat

/-- The encoded tables and the supplied data, if the tables have an encoding. -/
def createRequest (sb : Superblock) (a : BlockAllocator)
    (inodes : List PersistedInode) (entries : List PersistedDirectoryEntry)
    (data : List (UInt64 × Block)) : Result (List (Nat × Block)) :=
  (renderedWrites (createImages sb a inodes entries)).map (· ++ dataWrites data)

section Create

variable {sb : Superblock} {d : Disk} {a : BlockAllocator}
  {inodes : List PersistedInode} {entries : List PersistedDirectoryEntry}
  {data : List (UInt64 × Block)} {tables : List (Nat × Block)}

/-- The request names what `createNames` says. -/
theorem createNames_iff
    (htables : renderedWrites (createImages sb a inodes entries) = .ok tables)
    (b : Nat) :
    createNames sb data b ↔ b ∈ (tables ++ dataWrites data).map Prod.fst := by
  simp only [createImages, renderedWrites, Except.bind_eq_ok,
    Except.pure_eq_ok, Except.ok.injEq] at htables
  obtain ⟨image, _, _, ⟨image', _, _, ⟨image'', _, _, rfl, rfl⟩, rfl⟩, rfl⟩ :=
    htables
  simp only [createNames, allocationPair, inodePair, directoryPair,
    List.append_nil, List.map_append, List.mem_append, TableImage.map_fst_writes,
    allocationTable, inodeTable, directoryTable, List.mem_range'_1,
    Superblock.allocationRange, Superblock.inodeRange,
    Superblock.directoryRange, dataWrites, List.map_map, Function.comp_def,
    or_assoc]

/-- The tables lie behind the journal. -/
theorem not_journalRange_of_tables
    (htables : renderedWrites (createImages sb a inodes entries) = .ok tables)
    {w : Nat × Block} (hw : w ∈ tables) : ¬ sb.journalRange w.1 := by
  have hlayout := sb.layout
  have hnames : createNames sb [] w.1 := (createNames_iff htables w.1).mpr (by
    rw [List.map_append]
    exact List.mem_append_left _ (List.mem_map_of_mem hw))
  simp only [createNames, Superblock.allocationRange, Superblock.inodeRange,
    Superblock.directoryRange, List.map_nil, List.not_mem_nil,
    or_false] at hnames
  unfold Superblock.journalRange
  omega

/-- The tables alone agree. -/
theorem agree_tables
    (htables : renderedWrites (createImages sb a inodes entries) = .ok tables)
    (d : Disk) : Agree sb d tables where
  values := by
    intro w hw v hv heq
    have hnodup := (renderings_createImages sb a inodes entries).nodup htables
    rw [List.inj_on_of_nodup_map hnodup hw hv heq]
  reservation := fun w hw hrange =>
    absurd hrange (not_journalRange_of_tables htables hw)

/-- `store_create_metadata_journaled` as a store of its tables. -/
theorem stores_createMetadata
    (htables : renderedWrites (createImages sb a inodes entries) = .ok tables)
    (d : Disk) :
    Stores sb (storeCreateMetadataJournaled sb a inodes entries) d tables := by
  rcases storeImagesJournaled_cases recovers_recoverJournalAndCheckpoint
    (renderings_createImages sb a inodes entries) d
    "atomic-create device geometry does not match superblock"
    "atomic-create image rendered outside allocation, inode, and directory regions"
    "atomic-create recovery report does not match one complete transaction"
    with ⟨e, h⟩ | ⟨ws, _, hws, h⟩
  · exact .rejected e h
  · rw [htables, Except.ok.injEq] at hws
    subst hws
    rcases h with ⟨hsame, h⟩ | ⟨hacc, h⟩
    · exact .same hsame h
    · exact .committed hacc h

/-- Tables without an encoding are rejected. -/
theorem createMetadata_rejected {e : IoError}
    (htables : renderedWrites (createImages sb a inodes entries) = .error e)
    (d : Disk) : ∃ e', storeCreateMetadataJournaled sb a inodes entries d =
      (.error e', d) := by
  rcases storeImagesJournaled_cases recovers_recoverJournalAndCheckpoint
    (renderings_createImages sb a inodes entries) d
    "atomic-create device geometry does not match superblock"
    "atomic-create image rendered outside allocation, inode, and directory regions"
    "atomic-create recovery report does not match one complete transaction"
    with ⟨e, h⟩ | ⟨ws, _, hws, _⟩
  · exact ⟨e, h⟩
  · rw [htables] at hws
    cases hws

/-- The call passes its checks, and has something to write that the journal
takes. -/
structure CreateCommits (sb : Superblock) (d : Disk) (a : BlockAllocator)
    (inodes : List PersistedInode) (entries : List PersistedDirectoryEntry)
    (data : List (UInt64 × Block)) (tables : List (Nat × Block)) : Prop where
  size : sb.totalBlocks = d.size
  checks : checkCreateWithBlocks a inodes (data.map Prod.fst) = .ok ()
  encodes : renderedWrites (createImages sb a inodes entries) = .ok tables
  changes : differing d.blocks (tables ++ dataWrites data) ≠ []
  fits : StoreAccepts sb d (transactionEntries
    (differing d.blocks (tables ++ dataWrites data)))

theorem renderings_createDataImages (sb : Superblock) (a : BlockAllocator)
    (inodes : List PersistedInode) (entries : List PersistedDirectoryEntry) :
    Renderings sb (createDataImages sb a inodes entries) :=
  renderings_threeTables sb a inodes entries _ _ _

/-- An allocator that has an image is of the geometry of the superblock. -/
theorem geometry_of_tables
    (htables : renderedWrites (createImages sb a inodes entries) = .ok tables) :
    a.totalBlocks = sb.totalBlocks ∧ a.reservedBlocks = sb.reservedBlocks := by
  simp only [createImages, renderedWrites, Except.bind_eq_ok] at htables
  obtain ⟨image, himage, _⟩ := htables
  obtain ⟨htotal, hreserved, _⟩ := allocationImage_eq_ok.mp himage
  exact ⟨htotal, hreserved⟩

/-- The named data blocks of a call that passes its checks are in range. -/
theorem dataBlocks_lt
    (hchecks : checkCreateWithBlocks a inodes (data.map Prod.fst) = .ok ())
    {w : UInt64 × Block} (hw : w ∈ data) : w.1.toNat < a.totalBlocks := by
  simp only [checkCreateWithBlocks, Except.bind_eq_ok, rejectIf_eq_ok] at hchecks
  obtain ⟨_, _, _, _, hblocks⟩ := hchecks
  exact lt_of_isOwned
    ((checkDataBlocks_eq_ok.mp hblocks).2 w.1 (List.mem_map_of_mem hw)).2.1

/-- A call with the right geometry that passes its checks publishes the blocks
that differ. -/
theorem storeCreateWithBlocks_eq (hsize : sb.totalBlocks = d.size)
    (hchecks : checkCreateWithBlocks a inodes (data.map Prod.fst) = .ok ())
    (htables : renderedWrites (createImages sb a inodes entries) = .ok tables) :
    storeCreateWithBlocksJournaled sb a inodes entries data d =
      publishChanges recoverJournalAndCheckpoint
        "atomic create-with-data recovery report does not match one complete transaction"
        sb (differing d.blocks (tables ++ dataWrites data)) d := by
  have hgeometry : requireGeometry d sb
      "atomic create-with-data device geometry does not match superblock" =
        .ok () := rejectIf_of_not (not_ne_iff.mpr hsize.symm)
  have hcollect := (ImageStore.collect_eq (renderings_createDataImages sb a
    inodes entries) hsize
    "atomic create-with-data image rendered outside allocation, inode, and directory regions").1
    tables htables
  have hrange : ∀ w ∈ data, w.1.toNat < d.size := by
    intro w hw
    have hlt := dataBlocks_lt hchecks hw
    have htotal := (geometry_of_tables htables).1
    omega
  simp only [storeCreateWithBlocksJournaled, Effect.query_bind, hgeometry,
    Effect.lift_bind, hchecks]
  rw [hcollect]
  simp only
  rw [collectData_eq hrange, ← differing_append]

/-- A call that fails its checks does nothing. -/
theorem createWithBlocks_rejected {e : IoError}
    (hsize : sb.totalBlocks = d.size)
    (hchecks : checkCreateWithBlocks a inodes (data.map Prod.fst) = .error e ∨
      renderedWrites (createImages sb a inodes entries) = .error e) :
    ∃ e', storeCreateWithBlocksJournaled sb a inodes entries data d =
      (.error e', d) := by
  have hgeometry : requireGeometry d sb
      "atomic create-with-data device geometry does not match superblock" =
        .ok () := rejectIf_of_not (not_ne_iff.mpr hsize.symm)
  simp only [storeCreateWithBlocksJournaled, Effect.query_bind, hgeometry,
    Effect.lift_bind]
  cases hblocks : checkCreateWithBlocks a inodes (data.map Prod.fst) with
  | error e' => exact ⟨e', rfl⟩
  | ok u =>
    rw [hblocks] at hchecks
    rcases hchecks with hchecks | htables
    · cases hchecks
    · obtain ⟨e', he'⟩ := (ImageStore.collect_eq (renderings_createDataImages
        sb a inodes entries) hsize
        "atomic create-with-data image rendered outside allocation, inode, and directory regions").2
        e htables
      refine ⟨e', ?_⟩
      simp only
      rw [he']

/-- The blocks of the request fit a 64-bit address. -/
theorem createRequest_lt
    (htables : renderedWrites (createImages sb a inodes entries) = .ok tables)
    {w : Nat × Block}
    (hw : w ∈ differing d.blocks (tables ++ dataWrites data)) :
    w.1 < U64_LIMIT := by
  have hlayout := sb.layout
  rcases List.mem_append.mp (List.mem_of_mem_filter hw) with hw | hw
  · have := (renderings_createImages sb a inodes entries).lt_of_mem htables hw
    omega
  · obtain ⟨v, _, rfl⟩ := List.mem_map.mp hw
    exact v.1.toNat_lt

/-- `store_create_with_blocks_journaled` as a store of its request. -/
theorem stores_createWithBlocks (hsize : sb.totalBlocks = d.size)
    (hchecks : checkCreateWithBlocks a inodes (data.map Prod.fst) = .ok ())
    (htables : renderedWrites (createImages sb a inodes entries) = .ok tables) :
    Stores sb (storeCreateWithBlocksJournaled sb a inodes entries data) d
      (tables ++ dataWrites data) := by
  have hrun := storeCreateWithBlocks_eq hsize hchecks htables
  rcases publishChanges_cases recovers_recoverJournalAndCheckpoint
    "atomic create-with-data recovery report does not match one complete transaction"
    sb d (fun w hw => createRequest_lt htables hw)
    with ⟨hnil, h⟩ | ⟨_, _, e, h⟩ | ⟨hacc, h⟩
  · exact .same (differing_eq_nil.mp hnil) (hrun.trans h)
  · exact .rejected e (hrun.trans h)
  · exact .committed hacc (hrun.trans h)

/-- A call that is to commit does so. -/
theorem CreateCommits.run
    (h : CreateCommits sb d a inodes entries data tables) :
    Accepted sb d (differing d.blocks (tables ++ dataWrites data)) ∧
      storeCreateWithBlocksJournaled sb a inodes entries data d =
        (.ok ⟨1, (differing d.blocks (tables ++ dataWrites data)).length⟩,
          d.commit (Accepted.epochs sb
            (differing d.blocks (tables ++ dataWrites data)))) := by
  have hrun := storeCreateWithBlocks_eq h.size h.checks h.encodes
  rcases publishChanges_cases recovers_recoverJournalAndCheckpoint
    "atomic create-with-data recovery report does not match one complete transaction"
    sb d (fun w hw => createRequest_lt h.encodes hw)
    with ⟨hnil, _⟩ | ⟨_, hno, _⟩ | ⟨hacc, h'⟩
  · exact absurd hnil h.changes
  · exact absurd h.fits hno
  · exact ⟨hacc, hrun.trans h'⟩

/-- The named data blocks are not given another contents than the transaction
gives them anyway: those inside a table carry the block of the table, and those
inside the journal reservation what the transaction leaves there. -/
structure DataCompatible (sb : Superblock) (d : Disk)
    (tables : List (Nat × Block)) (data : List (UInt64 × Block)) : Prop where
  inTables : ∀ w ∈ dataWrites data, ∀ t ∈ tables, w.1 = t.1 → w.2 = t.2
  inReservation : ∀ w ∈ dataWrites data, sb.journalRange w.1 →
    w.2 = reservationBlock sb
      (differing d.blocks (tables ++ dataWrites data)) w.1

/-- Data blocks proper are compatible. -/
theorem dataCompatible_of_reserved_le
    (htables : renderedWrites (createImages sb a inodes entries) = .ok tables)
    (hdata : ∀ w ∈ data, sb.reservedBlocks ≤ w.1.toNat) (d : Disk) :
    DataCompatible sb d tables data := by
  have hlayout := sb.layout
  refine ⟨?_, ?_⟩
  · intro w hw t ht heq
    exfalso
    obtain ⟨v, hv, rfl⟩ := List.mem_map.mp hw
    have hle := hdata v hv
    have hnames : createNames sb [] t.1 := (createNames_iff htables t.1).mpr (by
      rw [List.map_append]
      exact List.mem_append_left _ (List.mem_map_of_mem ht))
    simp only [createNames, Superblock.allocationRange, Superblock.inodeRange,
      Superblock.directoryRange, List.map_nil, List.not_mem_nil,
      or_false] at hnames heq
    omega
  · intro w hw hrange
    exfalso
    obtain ⟨v, hv, rfl⟩ := List.mem_map.mp hw
    have hle := hdata v hv
    simp only [Superblock.journalRange] at hrange
    omega

/-- Compatible data agrees with the tables, if no block is named twice. -/
theorem agree_iff_dataCompatible
    (hchecks : checkCreateWithBlocks a inodes (data.map Prod.fst) = .ok ())
    (htables : renderedWrites (createImages sb a inodes entries) = .ok tables) :
    Agree sb d (tables ++ dataWrites data) ↔
      DataCompatible sb d tables data := by
  constructor
  · intro h
    refine ⟨?_, ?_⟩
    · intro w hw t ht heq
      exact h.values w (List.mem_append_right _ hw) t
        (List.mem_append_left _ ht) heq
    · intro w hw hrange
      exact h.reservation w (List.mem_append_right _ hw) hrange
  · intro h
    have hnodup : ((dataWrites data).map Prod.fst).Nodup := by
      simp only [checkCreateWithBlocks, Except.bind_eq_ok,
        rejectIf_eq_ok] at hchecks
      obtain ⟨_, _, _, _, hblocks⟩ := hchecks
      have hnodup := (checkDataBlocks_eq_ok.mp hblocks).1
      have hmap : (dataWrites data).map Prod.fst =
          (data.map Prod.fst).map UInt64.toNat := by
        simp [dataWrites, Function.comp_def]
      rw [hmap]
      exact hnodup.map fun _ _ heq => UInt64.toNat_inj.mp heq
    have hself := agree_tables htables d
    refine ⟨?_, ?_⟩
    · intro w hw v hv heq
      rcases List.mem_append.mp hw with hw | hw
      · rcases List.mem_append.mp hv with hv | hv
        · exact hself.values w hw v hv heq
        · exact (h.inTables v hv w hw heq.symm).symm
      · rcases List.mem_append.mp hv with hv | hv
        · exact h.inTables w hw v hv heq
        · rw [List.inj_on_of_nodup_map hnodup hw hv heq]
    · intro w hw hrange
      rcases List.mem_append.mp hw with hw | hw
      · exact absurd hrange (not_journalRange_of_tables htables hw)
      · exact h.inReservation w hw hrange

/-- **When a create transaction is crash atomic.**  On a device with an empty
journal the store of the three tables always is.  The store with data blocks is
so exactly if, whenever it commits, the data blocks that it names inside the
tables or the journal reservation are given what the transaction puts there
anyway. -/
theorem createTransactions_crash_atomic_iff {sb : Superblock} {d : Disk}
    (hd : d.Settled) (hload : loadJournalImage d sb = .ok [])
    (a : BlockAllocator) (inodes : List PersistedInode)
    (entries : List PersistedDirectoryEntry) (data : List (UInt64 × Block)) :
    CrashAtomic sb (storeCreateMetadataJournaled sb a inodes entries) d
        (createNames sb []) (createRequest sb a inodes entries []) ∧
      (CrashAtomic sb (storeCreateWithBlocksJournaled sb a inodes entries data)
          d (createNames sb data) (createRequest sb a inodes entries data) ↔
        ∀ tables, CreateCommits sb d a inodes entries data tables →
          DataCompatible sb d tables data) := by
  have hsize : sb.totalBlocks = d.size := loadJournalImage_size hload
  rw [loadJournalImage_disk hsize] at hload
  refine ⟨?_, ?_, ?_⟩
  · cases htables : renderedWrites (createImages sb a inodes entries) with
    | error e =>
      obtain ⟨e', h⟩ := createMetadata_rejected htables d
      apply crashAtomic_of_unchanged hd hsize hload (by rw [h])
      intro report hreport
      rw [h] at hreport
      cases hreport
    | ok tables =>
      refine crashAtomic_of_stores hd hsize hload ?_ ?_
        (stores_createMetadata htables d) fun _ => agree_tables htables d
      · intro b
        rw [createNames_iff htables b, dataWrites, List.map_nil,
          List.append_nil]
      · rw [createRequest, htables, dataWrites, List.map_nil]
        simp [Except.map]
  · intro hatomic tables hcommits
    obtain ⟨hacc, hrun⟩ := hcommits.run
    have hrequest : createRequest sb a inodes entries data =
        .ok (tables ++ dataWrites data) := by
      rw [createRequest, hcommits.encodes]
      rfl
    exact (agree_iff_dataCompatible hcommits.checks hcommits.encodes).mp
      (agree_of_crashAtomic hd hsize hrequest hacc hrun hatomic)
  · intro hcompatible
    have hreject : (∃ e', storeCreateWithBlocksJournaled sb a inodes entries
        data d = (.error e', d)) → CrashAtomic sb
          (storeCreateWithBlocksJournaled sb a inodes entries data) d
          (createNames sb data) (createRequest sb a inodes entries data) := by
      intro hfacts
      rcases hfacts with ⟨e', h⟩
      apply crashAtomic_of_unchanged hd hsize hload (by rw [h])
      intro report hreport
      rw [h] at hreport
      cases hreport
    cases hchecks : checkCreateWithBlocks a inodes (data.map Prod.fst) with
    | error e => exact hreject (createWithBlocks_rejected hsize (.inl hchecks))
    | ok u =>
      cases htables : renderedWrites (createImages sb a inodes entries) with
      | error e =>
        exact hreject (createWithBlocks_rejected hsize (.inr htables))
      | ok tables =>
        refine crashAtomic_of_stores hd hsize hload
          (fun b => createNames_iff htables b) ?_
          (stores_createWithBlocks hsize hchecks htables) ?_
        · rw [createRequest, htables]
          rfl
        · intro hacc
          exact (agree_iff_dataCompatible hchecks htables).mpr (hcompatible _
            ⟨hsize, hchecks, htables, hacc.nonempty, hacc.store⟩)

end Create

/-- The allocator of the wide disk with one owned block. -/
def createdAllocator : BlockAllocator :=
  .ofFlags 11 ((List.replicate 16 false).set 12 true) (by decide)

/-- A root directory and a file of one byte. -/
def createdInodes : List PersistedInode :=
  [⟨1, .directory, [], 0⟩, ⟨2, .file, [12], 1⟩]

/-- The block of a table of other entries. -/
theorem blocks_ne_of_directory {d : Disk} {sb : Superblock}
    {entries other : List PersistedDirectoryEntry} {image : List UInt8}
    (hsize : sb.totalBlocks = d.size) (hone : sb.directoryBlocks = 1)
    (hload : loadDirectoryTable d sb = .ok entries) (hne : entries ≠ other)
    (himage : directoryFormat.encodeImage 1 other = .ok image) :
    d.blocks sb.directoryStart ≠ Block.ofImage image 0 := by
  intro heq
  have hother : loadDirectoryTable d sb = .ok other := by
    refine (loadDirectoryTable_iff hsize).mpr ⟨image, hone ▸ himage, ?_⟩
    intro i hi
    have hi' : i = 0 := Nat.lt_one_iff.mp (hone ▸ hi)
    subst hi'
    exact heq
  rw [hload, Except.ok.injEq] at hother
  exact hne hother

/-- The tables of the request: the directory table is not the one in place. -/
theorem exists_createdTables :
    ∃ first inode last, renderedWrites (createImages wideSuperblock
        createdAllocator createdInodes [sampleEntry]) =
          .ok [(8, first), (9, inode), (10, last)] ∧
      (wideDisk fun _ => Block.zero).blocks 10 ≠ last := by
  obtain ⟨image, himage⟩ : ∃ image,
      allocationImage wideSuperblock createdAllocator = .ok image :=
    exists_allocationImage rfl rfl
  obtain ⟨image', himage'⟩ : ∃ image',
      inodeFormat.encodeImage wideSuperblock.inodeBlocks createdInodes =
        .ok image' :=
    exists_inodeImage (by decide) (by decide) (by decide) (by decide)
      (by decide)
  obtain ⟨image'', himage''⟩ : ∃ image'',
      directoryFormat.encodeImage wideSuperblock.directoryBlocks [sampleEntry] =
        .ok image'' :=
    exists_directoryImage (by decide) (by decide) (by decide) (by decide)
      (by decide)
  have hempty : loadDirectoryTable (wideDisk fun _ => Block.zero)
      wideSuperblock = .ok [] := (checked_wideDisk _).directoryTable
  have hother := blocks_ne_of_directory (by rfl) (by rfl) hempty
    (List.cons_ne_nil _ _).symm himage''
  have hstart : wideSuperblock.directoryStart = 10 := rfl
  rw [hstart] at hother
  refine ⟨Block.ofImage image 0, Block.ofImage image' 0,
    Block.ofImage image'' 0, ?_, hother⟩
  simp only [createImages, allocationPair, inodePair, directoryPair,
    renderedWrites, himage, himage', himage'', Except.ok_bind,
    Except.pure_eq_ok]
  rfl

theorem load_wideDisk (data : Nat → Block) :
    loadJournalImage (wideDisk data) wideSuperblock = .ok [] := by
  rw [loadJournalImage_disk (by rfl)]
  exact journalOf_formatted

/-- The journal of the wide disk takes the tables and one data block. -/
theorem storeAccepts_wideDisk {ws : List (Nat × Block)}
    (hws : ∀ w ∈ ws, w.1 ∈ [8, 9, 10, 12]) (hlen : ws.length ≤ 4)
    (data : Nat → Block) :
    StoreAccepts wideSuperblock (wideDisk data)
      (transactionEntries (differing (wideDisk data).blocks ws)) := by
  have hle := (List.length_filter_le (fun w : Nat × Block =>
    decide ((wideDisk data).blocks w.1 ≠ w.2)) ws).trans hlen
  have hload := load_wideDisk data
  rw [loadJournalImage_disk (by rfl)] at hload
  rw [storeAccepts_transactionEntries]
  · refine ⟨rfl, hload, by decide, ?_⟩
    have hb := blockSize_eq
    have hjournal : wideSuperblock.journalBlocks = 7 := rfl
    rw [hb, hjournal, differing]
    omega
  · intro w hw
    have htargets : ∀ b ∈ [8, 9, 10, 12], wideSuperblock.homeTarget b := by
      decide
    exact htargets _ (hws w (List.mem_of_mem_filter hw))

/-- A file is created, first without its data and then with it: both calls
publish a transaction. -/
theorem createTransactions_crash_atomic_sample :
    ((∃ count, (storeCreateMetadataJournaled wideSuperblock createdAllocator
          createdInodes [sampleEntry] (wideDisk fun _ => Block.zero)).1 =
            .ok ⟨1, count⟩) ∧
      CrashAtomic wideSuperblock (storeCreateMetadataJournaled wideSuperblock
        createdAllocator createdInodes [sampleEntry])
        (wideDisk fun _ => Block.zero) (createNames wideSuperblock [])
        (createRequest wideSuperblock createdAllocator createdInodes
          [sampleEntry] [])) ∧
      (∃ count, (storeCreateWithBlocksJournaled wideSuperblock createdAllocator
          createdInodes [sampleEntry] [(12, Block.ofBytes [7])]
          (wideDisk fun _ => Block.zero)).1 = .ok ⟨1, count⟩) ∧
      CrashAtomic wideSuperblock (storeCreateWithBlocksJournaled wideSuperblock
        createdAllocator createdInodes [sampleEntry] [(12, Block.ofBytes [7])])
        (wideDisk fun _ => Block.zero)
        (createNames wideSuperblock [(12, Block.ofBytes [7])])
        (createRequest wideSuperblock createdAllocator createdInodes
          [sampleEntry] [(12, Block.ofBytes [7])]) := by
  obtain ⟨first, inode, last, htables, hlast⟩ := exists_createdTables
  have h := createTransactions_crash_atomic_iff formatted_settled
    (load_wideDisk fun _ => Block.zero) createdAllocator createdInodes
    [sampleEntry] [(12, Block.ofBytes [7])]
  have hchanged : ∀ ws : List (Nat × Block), (10, last) ∈ ws →
      differing (wideDisk fun _ => Block.zero).blocks ws ≠ [] := by
    intro ws hmem hnil
    exact hlast (differing_eq_nil.mp hnil (10, last) hmem)
  refine ⟨⟨?_, h.1⟩, ?_, h.2.mpr ?_⟩
  · have hfits := @storeAccepts_wideDisk [(8, first), (9, inode), (10, last)]
      (by simp) (by simp) fun _ => Block.zero
    cases stores_createMetadata htables (wideDisk fun _ => Block.zero) with
    | rejected e hrun =>
      obtain ⟨report, d', hok⟩ := storeImagesJournaled_ok
        recovers_recoverJournalAndCheckpoint
        (renderings_createImages wideSuperblock createdAllocator createdInodes
          [sampleEntry]) (by rfl) htables hfits
        "atomic-create device geometry does not match superblock"
        "atomic-create image rendered outside allocation, inode, and directory regions"
        "atomic-create recovery report does not match one complete transaction"
      cases hok.symm.trans hrun
    | same hsame _ => exact absurd (hsame (10, last) (by simp)) hlast
    | committed _ hrun => exact ⟨_, congrArg Prod.fst hrun⟩
  · have hcommits : CreateCommits wideSuperblock (wideDisk fun _ => Block.zero)
        createdAllocator createdInodes [sampleEntry] [(12, Block.ofBytes [7])]
        [(8, first), (9, inode), (10, last)] :=
      ⟨rfl, by decide, htables, hchanged _ (by simp),
        storeAccepts_wideDisk (by simp [dataWrites]) (by simp [dataWrites]) _⟩
    exact ⟨_, congrArg Prod.fst hcommits.run.2⟩
  · intro tables hcommits
    apply dataCompatible_of_reserved_le hcommits.encodes
    decide

/-! ## A data block inside a table -/

/-- A regular file whose only block is the block of the directory table. -/
def conflictInode : PersistedInode where
  id := 1
  kind := .file
  blocks := [6]
  byteLen := 4096

/-- The sample disk, without its data. -/
def conflictDisk : Disk := sampleDisk fun _ => Block.zero

/-- The directory table of the sample disk is not that of the sample entry. -/
theorem conflictDisk_directory :
    conflictDisk.blocks 6 ≠ sampleEntryBlock := by
  obtain ⟨named, hnamed⟩ : ∃ image,
      directoryFormat.encodeImage 1 [sampleEntry] = .ok image :=
    exists_directoryImage (by decide) (by decide) (by decide) (by decide)
      (by decide)
  have hempty : loadDirectoryTable conflictDisk sampleSuperblock = .ok [] :=
    (checked_sampleDisk _).directoryTable
  have hother := blocks_ne_of_directory (by rfl) (by rfl) hempty
    (List.cons_ne_nil _ _).symm hnamed
  have hstart : sampleSuperblock.directoryStart = 6 := rfl
  rw [hstart] at hother
  rw [sampleEntryBlock, hnamed]
  exact hother

/-- The tables of the conflicting request: only the inode table may differ from
the disk. -/
theorem exists_conflictTables :
    ∃ first inode last, renderedWrites (createImages sampleSuperblock
        sampleAllocator [conflictInode] []) =
          .ok [(4, first), (5, inode), (6, last)] ∧
      conflictDisk.blocks 4 = first ∧ conflictDisk.blocks 6 = last := by
  have hchecked := checked_sampleDisk fun _ => Block.zero
  obtain ⟨image, himage, hholds⟩ :=
    (loadAllocator_iff (by rfl)).mp hchecked.allocator
  obtain ⟨image'', himage'', hholds''⟩ :=
    (loadDirectoryTable_iff (by rfl)).mp hchecked.directoryTable
  obtain ⟨image', himage'⟩ : ∃ image',
      inodeFormat.encodeImage 1 [conflictInode] = .ok image' :=
    exists_inodeImage (by decide) (by decide) (by decide) (by decide)
      (by decide)
  refine ⟨Block.ofImage image 0, Block.ofImage image' 0,
    Block.ofImage image'' 0, ?_, hholds 0 (by decide), hholds'' 0 (by decide)⟩
  have himage0 : allocationImage sampleSuperblock sampleAllocator = .ok image :=
    himage
  have himage1 : inodeFormat.encodeImage sampleSuperblock.inodeBlocks
      [conflictInode] = .ok image' := himage'
  have himage2 : directoryFormat.encodeImage sampleSuperblock.directoryBlocks
      [] = .ok image'' := himage''
  simp only [createImages, allocationPair, inodePair, directoryPair,
    renderedWrites, himage0, himage1, himage2, Except.ok_bind,
    Except.pure_eq_ok]
  rfl

/-- A file whose data block is the block of the directory table is created with
a directory table as its data.  The call is acknowledged, and the directory
block then is the supplied data, not the requested table. -/
theorem createWithBlocks_not_crash_atomic :
    loadJournalImage conflictDisk sampleSuperblock = .ok [] ∧
      ¬ CrashAtomic sampleSuperblock (storeCreateWithBlocksJournaled
        sampleSuperblock sampleAllocator [conflictInode] []
          [(6, sampleEntryBlock)]) conflictDisk
        (createNames sampleSuperblock [(6, sampleEntryBlock)])
        (createRequest sampleSuperblock sampleAllocator [conflictInode] []
          [(6, sampleEntryBlock)]) := by
  obtain ⟨first, inode, last, htables, hfirst, hlast⟩ := exists_conflictTables
  have hdiff := conflictDisk_directory
  have hload := load_sampleDisk fun _ => Block.zero
  refine ⟨hload, ?_⟩
  intro hatomic
  rw [loadJournalImage_disk (by rfl)] at hload
  have hchanged : differing conflictDisk.blocks ([(4, first), (5, inode),
      (6, last)] ++ dataWrites [(6, sampleEntryBlock)]) =
        differing conflictDisk.blocks [(5, inode)] ++
          [(6, sampleEntryBlock)] := by
    have h6 : (6 : UInt64).toNat = 6 := rfl
    simp only [differing, dataWrites, List.map_cons, List.map_nil, h6,
      List.cons_append, List.nil_append, List.filter_cons, List.filter_nil,
      ne_eq, hfirst, hlast, not_true_eq_false, decide_false,
      Bool.false_eq_true, if_false]
    rw [← hlast] at *
    simp only [hdiff, not_false_eq_true, decide_true, if_true]
    split <;> rfl
  have hlen : (differing conflictDisk.blocks ([(4, first), (5, inode),
      (6, last)] ++ dataWrites [(6, sampleEntryBlock)])).length ≤ 2 := by
    rw [hchanged, List.length_append]
    have : (differing conflictDisk.blocks [(5, inode)]).length ≤ 1 :=
      List.length_filter_le _ _
    simp only [List.length_singleton]
    omega
  have hcommits : CreateCommits sampleSuperblock conflictDisk sampleAllocator
      [conflictInode] [] [(6, sampleEntryBlock)]
        [(4, first), (5, inode), (6, last)] := by
    refine ⟨rfl, by decide, htables, ?_, ?_⟩
    · rw [hchanged]
      simp
    · rw [storeAccepts_transactionEntries]
      · refine ⟨rfl, hload, by decide, ?_⟩
        have hb := blockSize_eq
        have hjournal : sampleSuperblock.journalBlocks = 3 := rfl
        rw [hb, hjournal]
        omega
      · intro w hw
        have hmem := List.mem_of_mem_filter hw
        simp only [dataWrites, List.map_cons, List.map_nil, List.cons_append,
          List.nil_append, List.mem_cons, List.not_mem_nil, or_false] at hmem
        have hrange : w.1 = 4 ∨ w.1 = 5 ∨ w.1 = 6 := by
          rcases hmem with rfl | rfl | rfl | rfl
          · exact .inl rfl
          · exact .inr (.inl rfl)
          · exact .inr (.inr rfl)
          · exact .inr (.inr rfl)
        rcases hrange with h | h | h <;> rw [h] <;> decide
  obtain ⟨hacc, hrun⟩ := hcommits.run
  have hagree := agree_of_crashAtomic formatted_settled (by rfl)
    (by rw [createRequest, htables]; rfl) hacc hrun hatomic
  have := hagree.values (6, last) (by simp) (6, sampleEntryBlock)
    (by simp [dataWrites]) rfl
  exact hdiff (hlast.trans this)

end FilesystemLab
