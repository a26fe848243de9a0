import FilesystemLab.Fsck
import FilesystemLab.Recovery

/-!
# Checking a device as if its journal had been replayed

`src/recovery_projection.rs`: a read-only device that shows the planned home
writes over the device below, and the check of that view.

`readBlock_projection` says that the view is the overlay of the plan's writes,
so the in-memory map and the ordered writes of a replay agree.
-/

namespace FilesystemLab

open WriteLog

/-- `ProjectionDevice`. -/
structure ProjectionDevice (σ : Type) where
  base : σ
  blocks : Std.TreeMap Nat Block

section Device

variable {σ : Type} [BlockDevice σ]

instance : BlockDevice (ProjectionDevice σ) where
  blockCount device := blockCount device.base
  readBlock device block :=
    match device.blocks[block]? with
    | some data => .ok data
    | none => readBlock device.base block
  writeBlock _ _ := Effect.fail
    ⟨.permissionDenied, "recovery projection is read-only"⟩
  flush := Effect.fail
    ⟨.permissionDenied, "recovery projection cannot flush"⟩

/-- The map that `check_device_after_entries_projection` collects. -/
def collectBlocks (ws : List (Nat × Block)) : Std.TreeMap Nat Block :=
  ws.foldl (fun blocks w => blocks.insert w.1 w.2) ∅

/-- The device with a list of writes shown over it. -/
def project (device : σ) (ws : List (Nat × Block)) : ProjectionDevice σ :=
  ⟨device, collectBlocks ws⟩

/-- `RecoveryProjectionReport`. -/
structure RecoveryProjectionReport where
  recovery : RecoveryReport
  fsck : FsckReport
  deriving DecidableEq, Repr

/-- `check_device_after_entries_projection`. -/
def checkDeviceAfterEntriesProjection (device : σ)
    (entries : List JournalEntry) : Result RecoveryProjectionReport := do
  let plan ← planRecovery entries
  let fsck ← checkDevice (project device plan.writes)
  pure ⟨plan.report, fsck⟩

/-- `check_device_after_recovery_projection`. -/
def checkDeviceAfterRecoveryProjection (device : σ) :
    Result RecoveryProjectionReport := do
  let sb ← readSuperblock device
  let entries ← loadJournalImage device sb
  checkDeviceAfterEntriesProjection device entries

/-- The check of a device as if its journal had been replayed is the check of
the projected plan. -/
theorem checkDeviceAfterRecoveryProjection_eq {device : σ} {sb : Superblock}
    {entries : List JournalEntry} {plan : RecoveryPlan}
    (hsb : readSuperblock device = .ok sb)
    (hload : loadJournalImage device sb = .ok entries)
    (hplan : planRecovery entries = .ok plan) :
    checkDeviceAfterRecoveryProjection device =
      (checkDevice (project device plan.writes)).map fun fsck =>
        ⟨plan.report, fsck⟩ := by
  simp only [checkDeviceAfterRecoveryProjection, hsb, Except.ok_bind, hload,
    checkDeviceAfterEntriesProjection, hplan]
  cases checkDevice (project device plan.writes) <;> rfl

@[simp] theorem blockCount_project (device : σ) (ws : List (Nat × Block)) :
    blockCount (project device ws) = blockCount device := rfl

end Device

/-- The map holds the last write to each block. -/
theorem getD_foldl_insert (f : Nat → Block) (ws : List (Nat × Block))
    (blocks : Std.TreeMap Nat Block) (b : Nat) :
    (ws.foldl (fun blocks w => blocks.insert w.1 w.2) blocks)[b]?.getD (f b) =
      overlay (fun b => blocks[b]?.getD (f b)) ws b := by
  induction ws generalizing blocks with
  | nil => rfl
  | cons w ws ih =>
    rw [List.foldl_cons, ih, overlay_cons]
    congr 1
    funext a
    rw [Std.TreeMap.getElem?_insert, Function.update_apply]
    by_cases h : a = w.1
    · simp [h]
    · have h' : ¬ w.1 = a := fun heq => h heq.symm
      simp [h, h']

/-- The projection shows the overlay of the writes. -/
theorem readBlock_project {d : Disk} {ws : List (Nat × Block)} {b : Nat}
    (h : b < d.size) :
    readBlock (project d ws) b = .ok (overlay d.blocks ws b) := by
  have hmap := getD_foldl_insert d.blocks ws ∅ b
  have hempty : (fun b => (∅ : Std.TreeMap Nat Block)[b]?.getD (d.blocks b)) =
      d.blocks := by
    funext a
    simp
  rw [hempty] at hmap
  show (match (collectBlocks ws)[b]? with
    | some data => Except.ok data
    | none => readBlock d b) = _
  rw [← hmap, Disk.readBlock_of_lt h]
  unfold collectBlocks
  split
  · rename_i data hdata
    rw [hdata]
    rfl
  · rename_i hnone
    rw [hnone]
    rfl

/-- What the check of a projection accepts, in terms of a device that shows the
same home blocks. -/
theorem Checked.of_project {d other : Disk} {ws : List (Nat × Block)}
    {sb : Superblock} {a : BlockAllocator} {inodes : List PersistedInode}
    {entries : List PersistedDirectoryEntry}
    (h : Checked (project d ws) sb a inodes entries)
    (hsize : other.size = d.size)
    (hhome : ∀ b, ¬ sb.journalRange b →
      other.blocks b = overlay d.blocks ws b) :
    Checked other sb a inodes entries := by
  have htotal : sb.totalBlocks = d.size := readSuperblock_size h.superblock
  apply h.congr (by rw [blockCount_project]; exact hsize.symm)
  intro b hb hjournal
  rw [readBlock_project (by omega), Disk.readBlock_of_lt (by omega),
    hhome b hjournal]

/-- A device that shows the home blocks of a projection passes the check that
the projection passed, whatever its journal. -/
theorem checkDevice_of_project {d other : Disk} {ws : List (Nat × Block)}
    {sb : Superblock} {fsck : FsckReport} {journal : List JournalEntry}
    (hno : SUPERBLOCK_BLOCK ∉ ws.map Prod.fst)
    (hsb : readSuperblock d = .ok sb)
    (hcheck : checkDevice (project d ws) = .ok fsck)
    (hsize : other.size = d.size)
    (hhome : ∀ b, ¬ sb.journalRange b →
      other.blocks b = overlay d.blocks ws b)
    (hload : loadJournalImage other sb = .ok journal) :
    ∃ a inodes entries old, fsck = fsckReport sb a inodes entries old ∧
      checkDevice other = .ok (fsckReport sb a inodes entries journal) := by
  obtain ⟨sb', a, inodes, entries, old, hchecked, _, rfl⟩ :=
    checkDevice_iff.mp hcheck
  have htotal : sb.totalBlocks = d.size := readSuperblock_size hsb
  have hlayout := sb.layout
  have hlt : SUPERBLOCK_BLOCK < d.size := by
    simp only [SUPERBLOCK_BLOCK]
    omega
  have hcount : blockCount (project d ws) = blockCount d := rfl
  have hblock : readBlock (project d ws) SUPERBLOCK_BLOCK =
      readBlock d SUPERBLOCK_BLOCK := by
    rw [readBlock_project hlt, Disk.readBlock_of_lt hlt, overlay_of_notMem hno]
  have hsame := hchecked.superblock
  rw [readSuperblock_congr hcount hblock, hsb, Except.ok.injEq] at hsame
  subst hsame
  exact ⟨a, inodes, entries, old, rfl, checkDevice_iff.mpr
    ⟨sb, a, inodes, entries, journal, hchecked.of_project hsize hhome, hload,
      rfl⟩⟩

end FilesystemLab
