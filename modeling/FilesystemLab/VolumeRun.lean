import FilesystemLab.FilePathCalls
import FilesystemLab.NameCalls

/-!
# Runs of calls on a volume

`VolumeCall` has all functions on paths: the edits of files, the clones, copies
and exchanges between files, the reads and listings, the new nodes and the
changes of names.  `VolumeCall.Acts` says what a call with its answer does to a
volume.

* `performs_volumeCall` puts the results of the modules below together: on a
  volume whose directories have one name, every call performs its specification.
* `stands_of_run` is the refinement of runs.  The calls of a run end with an
  answer, with an error, or with a failure of the power, after which the next
  call starts from a disk that a reboot may find.  The disk then stands for what
  the calls that took effect made of the volume, in their order and with their
  answers.
* `VolumeCall.Acts.node_eq` is the frame: a node that a call does not touch stays
  as it is, as long as it has a name.
-/

namespace FilesystemLab

open CallRun

/-! ## The calls -/

/-- The functions on paths. -/
inductive VolumeCall where
  | file (path : String) (call : FilePathCall)
  | pair (source destination : String) (call : FilePairCall)
  | exchangeSame (first : String) (firstStart firstCount : Nat)
    (second : String) (secondStart secondCount : Nat)
  | cloneOver (source destination : String)
  | read (call : ReadCall)
  | make (path : String) (call : NewNode)
  | names (call : NameCall)

/-- The answer to a call: nothing, what has been read, or the new inode. -/
inductive Answer where
  | done
  | read (reply : Reply)
  | made (id : UInt64)

namespace VolumeCall

/-- The call. -/
def run (sb : Superblock) : VolumeCall → Effect (Abort IoError) Disk Answer
  | file path call => (fun _ => .done) <$> call.run sb path
  | pair source destination call =>
    (fun _ => .done) <$> call.runAtPaths sb source destination
  | exchangeSame first firstStart firstCount second secondStart secondCount =>
    (fun _ => .done) <$> Effect.ignore (Effect.abortable
      (exchangeSameFileBlockRangesAtPathJournaled sb first firstStart firstCount
        second secondStart secondCount))
  | cloneOver source destination =>
    (fun _ => .done) <$> Effect.ignore (Effect.abortable
      (cloneFileToExistingPathJournaled sb source destination))
  | read call => .read <$> Effect.abortable (call.run sb)
  | make path call =>
    (fun r => .made r.1) <$> Effect.abortable (call.run sb path)
  | names call => (fun _ => .done) <$> Effect.abortable (call.run sb)

/-- What a call with its answer does to a volume. -/
def Acts (answer : Answer) (v v' : Volume) : VolumeCall → Prop
  | file path call => answer = .done ∧ call.Acts path v v'
  | pair source destination call =>
    answer = .done ∧ call.ActsAtPaths source destination v v'
  | exchangeSame first firstStart firstCount second secondStart secondCount =>
    answer = .done ∧ ExchangesSame first firstStart firstCount second
      secondStart secondCount v v'
  | cloneOver source destination =>
    answer = .done ∧ ClonesOver source destination v v'
  | read call => ∃ reply, answer = .read reply ∧ v' = v ∧ call.Answers v reply
  | make path call => ∃ id, answer = .made id ∧ call.Acts path id v v'
  | names call => answer = .done ∧ call.Acts v v'

/-- The nodes whose contents a call may change: those that its paths lead to. -/
def Touches (v : Volume) (id : UInt64) : VolumeCall → Prop
  | file path _ => v.Resolves path true id
  | pair source destination _ =>
    v.Resolves source true id ∨ v.Resolves destination true id
  | exchangeSame first _ _ _ _ _ => v.Resolves first true id
  | cloneOver _ destination => v.Resolves destination true id
  | read _ | make _ _ | names _ => False

end VolumeCall

/-! ## What the calls keep -/

section Acts

variable {call : VolumeCall} {answer : Answer} {v v' : Volume}

/-- Directories keep one name. -/
theorem VolumeCall.Acts.treelike (h : call.Acts answer v v')
    (ht : v.Treelike) : v'.Treelike := by
  cases call with
  | file path call =>
    obtain ⟨_, id, _, f', _, _, _, rfl⟩ := h
    exact ht.setFile id f'
  | pair source destination call =>
    obtain ⟨_, s, t, _, _, _, _, _, f', g', _, _, _, rfl⟩ := h
    exact (ht.setFile s f').setFile t g'
  | exchangeSame first firstStart firstCount second secondStart secondCount =>
    obtain ⟨_, id, _, _, _, f', _, _, rfl⟩ := h
    exact ht.setFile id f'
  | cloneOver source destination =>
    obtain ⟨_, _, t, _, _, _, _, _, _, _, rfl⟩ := h
    exact ht.setFile t _
  | read call =>
    obtain ⟨_, _, rfl, _⟩ := h
    exact ht
  | make path call =>
    obtain ⟨_, _, _, _, _, _, hcreates⟩ := h
    exact hcreates.treelike ht
  | names call => exact h.2.treelike ht

/-- A volume without the nodes that have no name keeps those that have one. -/
theorem Volume.swept_node_of_named {id : UInt64} (hnamed : v.swept.Named id) :
    v.swept.node id = v.node id :=
  if_pos hnamed

/-- A change of names leaves the nodes alone, but for those without a name. -/
theorem NameCall.Acts.node_eq {call : NameCall} (h : call.Acts v v')
    {id : UInt64} (hnamed : v'.Named id) : v'.node id = v.node id := by
  have hrenames : ∀ {s t}, v.Renames v' s t → v'.node id = v.node id := by
    intro s t hr
    by_cases hsame : v.name s = v.name t
    · rw [hr.same hsame]
    · obtain rfl := hr.eq hsame
      exact Volume.swept_node_of_named hnamed
  have hunlinks : ∀ {key}, v.Unlinks v' key → v'.node id = v.node id := by
    rintro key ⟨_, rfl⟩
    exact Volume.swept_node_of_named hnamed
  have hlinks : ∀ {key target}, v.Links v' key target →
      v'.node id = v.node id := by
    rintro key target ⟨_, _, _, rfl⟩
    rfl
  cases call with
  | hardLink =>
    obtain ⟨_, _, _, _, h⟩ := h
    exact hlinks h
  | hardLinkTo =>
    obtain ⟨_, _, _, _, _, _, _, h⟩ := h
    exact hlinks h
  | unlink =>
    obtain ⟨_, _, _, _, _, h⟩ := h
    exact hunlinks h
  | unlinkOnly =>
    obtain ⟨_, _, _, h⟩ := h
    exact hunlinks h
  | removeDirectory =>
    obtain ⟨_, _, _, h⟩ := h
    exact hunlinks h
  | removeDirectoryTree =>
    obtain ⟨_, _, _, _, _, rfl⟩ := h
    exact Volume.swept_node_of_named hnamed
  | rename =>
    obtain ⟨_, _, _, _, _, h⟩ := h
    exact hrenames h
  | renameOverwrite =>
    obtain ⟨_, _, _, _, h⟩ := h
    exact hrenames h
  | renamePosix =>
    obtain ⟨_, _, _, _, h⟩ := h
    exact hrenames h
  | renameOverwriteOnly =>
    obtain ⟨_, _, _, _, h⟩ := h
    exact hrenames h
  | renameOverwriteDirectory =>
    obtain ⟨_, _, _, _, h⟩ := h
    exact hrenames h
  | exchange =>
    obtain ⟨_, _, _, _, rfl⟩ := h
    rfl
  | exchangeOnly kind =>
    cases kind <;> obtain ⟨_, _, _, _, rfl⟩ := h <;> rfl

/-- **The frame of a call**: a node that it does not touch stays as it is, as
long as it has a name. -/
theorem VolumeCall.Acts.node_eq (h : call.Acts answer v v') {id : UInt64}
    {n : Node} (hn : v.node id = some n) (htouches : ¬ call.Touches v id)
    (hnamed : v'.Named id) : v'.node id = some n := by
  have hset : ∀ (w : Volume) {other : UInt64} (f : FileData),
      w.node id = some n → other ≠ id → (w.setFile other f).node id = some n := by
    intro w other f hw hne
    rw [Volume.setFile_node_of_ne _ _ hne.symm, hw]
  cases call with
  | file path call =>
    obtain ⟨_, other, _, f', hpath, _, _, rfl⟩ := h
    apply hset _ _ hn
    rintro rfl
    exact htouches hpath
  | pair source destination call =>
    obtain ⟨_, s, t, hs, ht, _, _, _, f', g', _, _, _, rfl⟩ := h
    apply hset
    · apply hset _ _ hn
      rintro rfl
      exact htouches (.inl hs)
    · rintro rfl
      exact htouches (.inr ht)
  | exchangeSame first firstStart firstCount second secondStart secondCount =>
    obtain ⟨_, other, hpath, _, _, f', _, _, rfl⟩ := h
    apply hset _ _ hn
    rintro rfl
    exact htouches hpath
  | cloneOver source destination =>
    obtain ⟨_, _, t, _, _, _, _, ht, _, _, rfl⟩ := h
    apply hset _ _ hn
    rintro rfl
    exact htouches ht
  | read call =>
    obtain ⟨_, _, rfl, _⟩ := h
    exact hn
  | make path call =>
    obtain ⟨new, _, m, key, _, _, _, _, hfresh, _, rfl⟩ := h
    have hne : id ≠ new := by
      rintro rfl
      rw [hfresh] at hn
      cases hn
    rw [Volume.bind_node, Volume.setNode_node_of_ne _ _ hne, hn]
  | names call => rw [h.2.node_eq hnamed, hn]

end Acts

/-! ## Runs -/

section Runs

variable {sb : Superblock} {d d' : Disk} {a : BlockAllocator}
  {inodes : List PersistedInode} {entries : List PersistedDirectoryEntry}

/-- **Every call performs its specification**, on a volume whose directories have
one name. -/
theorem performs_volumeCall (sb : Superblock) (call : VolumeCall) :
    Performs sb Volume.Treelike (call.run sb) fun answer => call.Acts answer := by
  have htree : ∀ answer v v', call.Acts answer v v' → v.Treelike →
      v'.Treelike := fun _ _ _ h => h.treelike
  cases call with
  | file path call =>
    exact (((implements_filePathCall sb path call).mono
      fun _ _ _ h => ⟨rfl, h⟩).performs fun _ => htree _).map
  | pair source destination call =>
    exact (((implements_filePairCall sb source destination call).mono
      fun _ _ _ h => ⟨rfl, h⟩).performs fun _ => htree _).map
  | exchangeSame first firstStart firstCount second secondStart secondCount =>
    exact (((implements_exchangeSame sb first firstStart firstCount second
      secondStart secondCount).mono fun _ _ _ h => ⟨rfl, h⟩).performs
        fun _ => htree _).map
  | cloneOver source destination =>
    exact (((implements_cloneOver sb source destination).mono
      fun _ _ _ h => ⟨rfl, h⟩).performs fun _ => htree _).map
  | read call =>
    exact (((entry_readCall call).reads.mono
      fun reply _ _ h => ⟨reply, rfl, h.1, h.2⟩).performs fun _ => htree _).map
  | make path call =>
    exact (((implements_newNode sb path call).mono
      fun r _ _ h => ⟨r.1, rfl, h⟩).performs fun _ => htree _).map
  | names call =>
    exact ((performs_nameCall sb call).mono fun _ _ _ h => ⟨rfl, h⟩).map

/-- The machine of all calls refines its specification. -/
theorem refines_volumeCall (sb : Superblock) :
    Refines (volumeMachine (VolumeCall.run sb)) (fun call => call.Acts)
      fun d v => StandsFor sb d v ∧ v.Treelike :=
  refines_of_performs fun call => performs_volumeCall sb call

/-- The directories of the volume have one name if those of the table have one
entry. -/
theorem Mounted.treelike (h : Mounted d sb a inodes entries)
    (hsingle : SingleEntries inodes entries) : (volumeOf sb d).Treelike := by
  intro id key key' hnode hkey hkey'
  have hsame := hsingle ⟨key.1, id, key.2⟩ (h.name_eq_some.mp hkey)
    (h.node_of_kindOf.mpr hnode) ⟨key'.1, id, key'.2⟩ (h.name_eq_some.mp hkey')
    rfl
  rw [PersistedDirectoryEntry.mk.injEq] at hsame
  exact Prod.ext hsame.1.symm hsame.2.2.symm

/-! ### The sample disk -/

/-- A mounted disk stands for its volume if nothing is pending. -/
theorem Mounted.standsFor_of_settled (h : Mounted d sb a inodes entries)
    (hd : d.Settled) : StandsFor sb d (volumeOf sb d) :=
  h.standsFor (.of_vacant hd h.size h.vacant)

theorem standsFor_treeDisk :
    StandsFor treeSuperblock treeDisk (volumeOf treeSuperblock treeDisk) :=
  mounted_treeDisk.standsFor_of_settled formatted_settled

theorem treelike_treeDisk : (volumeOf treeSuperblock treeDisk).Treelike :=
  mounted_treeDisk.treelike (by unfold SingleEntries; decide)

/-- A failure of the power may leave a disk as a reboot has found it. -/
theorem cutBetween_boot (size : Nat) (contents : Nat → Block) (d' : Disk) :
    (Disk.boot size contents).CutBetween d' (Disk.boot size contents) :=
  ⟨[], contents, List.nil_prefix, List.nil_prefix, fun _ => .inl rfl, rfl⟩

theorem FilePathCall.run_writeRange {path : String} {firstBlock offset : Nat}
    {data : List UInt8} {r : RecoveryReport}
    (h : writeFileRangeAtPathJournaled sb path firstBlock offset data d =
      (.ok r, d')) :
    (FilePathCall.writeRange firstBlock offset data).run sb path d =
      (.ok (), d') := by
  show Effect.ignore _ d = _
  rw [Effect.ignore, Effect.bind_of_ok h]
  rfl

theorem FilePathCall.run_defragment {path : String}
    {r : List UInt64 × RecoveryReport}
    (h : DefragCall.whole.run sb path d = (.ok r, d')) :
    FilePathCall.defragment.run sb path d = (.ok (), d') := by
  have habort : Effect.abortable (DefragCall.whole.run sb path) d =
      (.ok r, d') := by
    rw [Effect.abortable, h]
    rfl
  exact Effect.bind_of_ok habort

/-- Two bytes are written behind the first of the first file of the sample. -/
theorem writeFileRangeAtPath_filesDisk :
    ∃ r d', writeFileRangeAtPathJournaled treeSuperblock "/s" 0 1 [1, 2]
      (filesDisk fun _ => Block.zero) = (.ok r, d') := by
  have h := mounted_filesDisk fun _ => Block.zero
  obtain ⟨r, d', hrun⟩ :=
    @writeFileRange_filesDisk (fun _ => Block.zero) [1, 2] rfl
  have henter : Effect.abortable (enterPathChecked treeSuperblock "/s")
      (filesDisk fun _ => Block.zero) =
        (.ok 2, filesDisk fun _ => Block.zero) := by
    rw [Effect.abortable, enterPathChecked, Effect.bind_of_ok h.recoverChecked,
      Effect.query_apply, (fileAt_source fun _ => Block.zero).resolves]
    rfl
  refine ⟨r, d', ?_⟩
  rw [writeFileRangeAtPathJournaled, Effect.bind_of_ok henter]
  exact hrun

/-! ### Runs -/

/-- **Runs of calls with failures of the power.**  From a disk that stands for
a volume, a run leads to a disk that stands for what the calls that took effect
made of the volume.  All acknowledged calls took effect and no rejected one did,
in the order of the run, and each answer is what the volume of its time has. -/
theorem stands_of_run {es : List (VolumeCall × Ending Answer)} {v : Volume}
    (hv : StandsFor sb d v) (ht : v.Treelike)
    (hrun : (volumeMachine (VolumeCall.run sb)).Run es d d') :
    ∃ ks v', TookEffect es ks ∧
      Specified (fun call answer => call.Acts answer) ks v v' ∧
      StandsFor sb d' v' ∧ v'.Treelike :=
  (refines_volumeCall sb).run hrun ⟨hv, ht⟩

theorem VolumeCall.run_file {path : String} {call : FilePathCall}
    (h : call.run sb path d = (.ok (), d')) :
    (VolumeCall.file path call).run sb d = (.ok .done, d') :=
  Effect.bind_of_ok h

theorem VolumeCall.run_make {path : String} {call : NewNode}
    {r : UInt64 × RecoveryReport} (h : call.run sb path d = (.ok r, d')) :
    (VolumeCall.make path call).run sb d = (.ok (.made r.1), d') := by
  have habort : Effect.abortable (call.run sb path) d = (.ok r, d') := by
    rw [Effect.abortable, h]
    rfl
  exact Effect.bind_of_ok habort

/-- A file is made, and then the path of a call is rejected. -/
theorem stands_of_run_treeDisk :
    ∃ (id : UInt64) (d' : Disk) (ks : List (VolumeCall × Answer)) (v' : Volume),
      TookEffect [(.make "/d//g" .emptyFile, .acknowledged (.made id)),
        (.names (.unlink "f"), .rejected)] ks ∧
      Specified (fun call answer => call.Acts answer) ks
        (volumeOf treeSuperblock treeDisk) v' ∧
      StandsFor treeSuperblock d' v' ∧ v'.Treelike := by
  obtain ⟨r, d', hrun, _⟩ := createEmptyFile_treeDisk
  have hmake := @VolumeCall.run_make _ _ _ "/d//g" .emptyFile r hrun
  have hunlink : ∃ e, (VolumeCall.names (.unlink "f")).run treeSuperblock d' =
      (.error e, d') := ⟨_, rfl⟩
  exact ⟨r.1, d', stands_of_run standsFor_treeDisk treelike_treeDisk
    (.cons hmake (.cons hunlink (.nil d')))⟩

end Runs

/-! ## What the device holds after a run -/

section Devices

variable {sb : Superblock} {d d' img : Disk} {v : Volume} {a : BlockAllocator}
  {inodes : List PersistedInode} {entries : List PersistedDirectoryEntry}

/-- **A run never damages the filesystem.**  It starts on a device that the check
accepts, with an empty journal and with one entry for each directory.  However its
calls end, the next recovery succeeds, the check accepts what it leaves, and each
directory still has one entry. -/
theorem checked_of_run {report : FsckReport} (hsettled : d.Settled)
    (hsb : readSuperblock d = .ok sb) (hjournal : loadJournalImage d sb = .ok [])
    (hcheck : checkDevice d = .ok report)
    (hinodes : loadInodeTable d sb = .ok inodes)
    (hentries : loadDirectoryTable d sb = .ok entries)
    (hsingle : SingleEntries inodes entries)
    {es : List (VolumeCall × Ending Answer)}
    (hrun : (volumeMachine (VolumeCall.run sb)).Run es d d') :
    ∃ r d'' report' inodes' entries',
      recoverJournalAndCheckpoint sb d' = (.ok r, d'') ∧
      checkDevice d'' = .ok report' ∧
      loadInodeTable d'' sb = .ok inodes' ∧
      loadDirectoryTable d'' sb = .ok entries' ∧
      SingleEntries inodes' entries' := by
  obtain ⟨a, inodes₀, entries₀, h⟩ := exists_mounted hsb hjournal hcheck
  obtain rfl := Except.ok.inj (h.inodeTable.symm.trans hinodes)
  obtain rfl := Except.ok.inj (h.directoryTable.symm.trans hentries)
  obtain ⟨_, v', _, _, hv', ht'⟩ := (refines_volumeCall sb).run hrun
    ⟨h.standsFor (.of_vacant hsettled h.size h.vacant), h.treelike hsingle⟩
  obtain ⟨view, hd'⟩ := hv'.holding
  obtain ⟨r, hrecover, _⟩ := hd'.recover
  obtain ⟨a', inodes', entries', h'⟩ := hv'.consistent
  rw [← hv'.volume_eq] at ht'
  exact ⟨r, _, _, inodes', entries', hrecover, h'.check, h'.inodeTable,
    h'.directoryTable, h'.singleEntries ht'⟩

/-- The power fails right behind the last write of a call, which has made a file,
and the path of the next call is rejected. -/
theorem checked_of_run_treeDisk :
    ∃ id d' r d'' report inodes entries,
      (VolumeCall.make "/d//g" .emptyFile).run treeSuperblock treeDisk =
        (.ok (.made id), d') ∧
      loadDirectoryTable d'.rebooted treeSuperblock = .ok grownEntries ∧
      recoverJournalAndCheckpoint treeSuperblock d'.rebooted = (.ok r, d'') ∧
      checkDevice d'' = .ok report ∧
      loadInodeTable d'' treeSuperblock = .ok inodes ∧
      loadDirectoryTable d'' treeSuperblock = .ok entries ∧
      SingleEntries inodes entries := by
  obtain ⟨r, d', hrun, hrest⟩ := createEmptyFile_treeDisk
  have hmake := @VolumeCall.run_make _ _ _ "/d//g" .emptyFile r hrun
  have hcut : treeDisk.CutBetween d' d'.rebooted := by
    have hend := (performs_volumeCall treeSuperblock
      (.make "/d//g" .emptyFile)).cut_end standsFor_treeDisk treelike_treeDisk
    rw [hmake] at hend
    exact hend
  have hmounted : Mounted d' treeSuperblock treeAllocator grownInodes
      grownEntries :=
    hrest.mounted_tree (by decide) (namespace_of_targeted (by decide)
      (by decide) (by decide) (acyclic_of_lt (by decide)) (by decide))
  have hunlink : ∃ e, (VolumeCall.names (.unlink "f")).run treeSuperblock
      d'.rebooted = (.error e, d'.rebooted) := ⟨_, rfl⟩
  have hcuts : (volumeMachine (VolumeCall.run treeSuperblock)).Run
      [(.make "/d//g" .emptyFile, .cut), (.names (.unlink "f"), .rejected)]
      treeDisk d'.rebooted := by
    refine .cons (t := d'.rebooted) ?_ (.cons hunlink (.nil _))
    show treeDisk.CutBetween _ _
    rw [hmake]
    exact hcut
  obtain ⟨r', d'', report, inodes, entries, hrecover, hcheck, hinodes, hentries,
    hsingle⟩ := checked_of_run formatted_settled mounted_treeDisk.superblock
      mounted_treeDisk.journal mounted_treeDisk.check
      mounted_treeDisk.inodeTable mounted_treeDisk.directoryTable
      (by unfold SingleEntries; decide) hcuts
  exact ⟨r.1, d', r', d'', report, inodes, entries, hmake,
    (hmounted.congr rfl hmounted.vacant fun _ _ => rfl).directoryTable, hrecover,
    hcheck, hinodes, hentries, hsingle⟩

/-- **The frame on a device**: however a call ends, a node that it does not touch
stays as it is, as long as it has a name. -/
theorem node_kept_of_step {call : VolumeCall} {ending : Ending Answer}
    (hv : StandsFor sb d v) (ht : v.Treelike)
    (hstep : (volumeMachine (VolumeCall.run sb)).Step (call, ending) d d') :
    ∃ v', StandsFor sb d' v' ∧ ∀ id n, v.node id = some n →
      ¬ call.Touches v id → v'.Named id → v'.node id = some n := by
  have hrefines := refines_volumeCall sb
  cases ending with
  | acknowledged answer =>
    obtain ⟨v', hacts, hv', _⟩ := hrefines.acknowledged ⟨hv, ht⟩ hstep
    exact ⟨v', hv', fun id n hn htouches hnamed =>
      hacts.node_eq hn htouches hnamed⟩
  | rejected =>
    exact ⟨v, (hrefines.rejected ⟨hv, ht⟩ hstep).1, fun _ _ hn _ _ => hn⟩
  | cut =>
    rcases hrefines.cut ⟨hv, ht⟩ hstep with hsame | ⟨answer, v', hacts, hv', _⟩
    · exact ⟨v, hsame.1, fun _ _ hn _ _ => hn⟩
    · exact ⟨v', hv', fun id n hn htouches hnamed =>
        hacts.node_eq hn htouches hnamed⟩

/-- Two bytes of one file are written; the node of the other one stays. -/
theorem node_kept_of_step_filesDisk :
    ∃ d' v', (VolumeCall.file "/s" (.writeRange 0 1 [1, 2])).run treeSuperblock
        (filesDisk fun _ => Block.zero) = (.ok .done, d') ∧
      StandsFor treeSuperblock d' v' ∧ ∀ id n,
      (volumeOf treeSuperblock (filesDisk fun _ => Block.zero)).node id =
        some n →
      ¬ (volumeOf treeSuperblock (filesDisk fun _ => Block.zero)).Resolves "/s"
        true id →
      v'.Named id → v'.node id = some n := by
  have h := mounted_filesDisk fun _ => Block.zero
  obtain ⟨r, d', hrun⟩ := writeFileRangeAtPath_filesDisk
  have hcall : (VolumeCall.file "/s" (.writeRange 0 1 [1, 2])).run
      treeSuperblock (filesDisk fun _ => Block.zero) = (.ok .done, d') :=
    VolumeCall.run_file (FilePathCall.run_writeRange hrun)
  obtain ⟨v', hv', hkept⟩ := @node_kept_of_step _ _ _ _
    (.file "/s" (.writeRange 0 1 [1, 2])) (.acknowledged .done)
    (h.standsFor_of_settled formatted_settled)
    (h.treelike (by unfold SingleEntries; decide)) hcall
  exact ⟨d', v', hcall, hv', hkept⟩

/-- Reads and defragmentations. -/
def VolumeCall.Quiet : VolumeCall → Prop
  | file _ .defragment | file _ (.defragmentRange _ _) | read _ => True
  | _ => False

theorem VolumeCall.Acts.eq_of_quiet {call : VolumeCall} {answer : Answer}
    {v v' : Volume} (h : call.Acts answer v v') (hquiet : call.Quiet) :
    v' = v := by
  cases call with
  | file path call =>
    obtain ⟨_, id, f, f', _, hnode, hdoes, rfl⟩ := h
    cases call with
    | defragment =>
      obtain rfl : f' = f := hdoes
      exact Volume.setFile_of_node hnode
    | defragmentRange =>
      obtain ⟨_, rfl⟩ := hdoes
      exact Volume.setFile_of_node hnode
    | _ => cases hquiet
  | read call =>
    obtain ⟨_, _, hsame, _⟩ := h
    exact hsame
  | _ => cases hquiet

/-- **Defragmentation is not seen.**  A run of reads and defragmentations leaves
the volume as it was, wherever the power fails. -/
theorem stands_of_quiet_run {es : List (VolumeCall × Ending Answer)}
    (hv : StandsFor sb d v) (ht : v.Treelike) (hquiet : ∀ e ∈ es, e.1.Quiet)
    (hrun : (volumeMachine (VolumeCall.run sb)).Run es d d') :
    StandsFor sb d' v := by
  obtain ⟨ks, v', htook, hspec, hv', _⟩ :=
    (refines_volumeCall sb).run hrun ⟨hv, ht⟩
  have hks : ∀ k r, (k, r) ∈ ks → k.Quiet := by
    intro k r hk
    have hmem := htook.sublist.subset (List.mem_map_of_mem hk)
    obtain ⟨e, he, rfl⟩ := List.mem_map.mp hmem
    exact hquiet e he
  have hsame : v' = v := hspec.keeps (P := fun u => u = v)
    (fun k r hk u u' hacts hu => (hacts.eq_of_quiet (hks k r hk)).trans hu) rfl
  rw [← hsame]
  exact hv'

/-- A listing is cut, and a file of scattered blocks is put in order. -/
theorem stands_of_quiet_run_scatteredDisk :
    ∃ d', (VolumeCall.file "/t" .defragment).run treeSuperblock
        (scatteredDisk sevens) = (.ok .done, d') ∧
      StandsFor treeSuperblock d'
        (volumeOf treeSuperblock (scatteredDisk sevens)) := by
  have h := mounted_scatteredDisk sevens
  obtain ⟨r, d', hrun⟩ := defragment_scatteredDisk sevens
  have hcall : (VolumeCall.file "/t" .defragment).run treeSuperblock
      (scatteredDisk sevens) = (.ok .done, d') :=
    VolumeCall.run_file (FilePathCall.run_defragment hrun)
  refine ⟨d', hcall, ?_⟩
  apply @stands_of_quiet_run _ _ _ _ [(.read (.list "/"), .cut),
    (.file "/t" .defragment, .acknowledged .done)]
    (h.standsFor_of_settled formatted_settled)
    (h.treelike (by unfold SingleEntries; decide))
  · rw [List.forall_mem_cons, List.forall_mem_singleton]
    exact ⟨trivial, trivial⟩
  · exact .cons (cutBetween_boot _ _ _) (.cons hcall (.nil d'))

/-- The disk behind a rename does not depend on what becomes of its report. -/
theorem renamePosix_disk {source destination : String} :
    (Effect.abortable ((NameCall.renamePosix source destination).run sb) d).2 =
      (renamePosixAtPathJournaled sb source destination d).2 := by
  show (Effect.ignore (renamePosixAtPathJournaled sb source destination) d).2 = _
  rw [Effect.ignore, Effect.bind_apply]
  rcases renamePosixAtPathJournaled sb source destination d with
    ⟨e | r, d''⟩ <;> rfl

/-- **A rename replaces its destination at once.**  Wherever the power fails, the
volume is the old one, or the destination has the node of the source; all other
names are as they were. -/
theorem renamePosix_replaces {source destination : String}
    (hv : StandsFor sb d v) (ht : v.Treelike)
    (hcut : d.CutBetween
      (renamePosixAtPathJournaled sb source destination d).2 img) :
    ∃ v', StandsFor sb img v' ∧ (v' = v ∨ ∃ s t id, v.SlashKeyAt source s ∧
      v.SlashKeyAt destination t ∧ v.name s = some id ∧ v'.name t = some id ∧
      v'.node id = v.node id ∧
      ∀ key, key ≠ s → key ≠ t → v'.name key = v.name key) := by
  have hcut' : d.CutBetween (Effect.abortable
      ((NameCall.renamePosix source destination).run sb) d).2 img := by
    rw [renamePosix_disk]
    exact hcut
  rcases performs_renamePosix.cut hv ht hcut' with hsame | hdone
  · exact ⟨v, hsame, .inl rfl⟩
  · obtain ⟨_, v', ⟨s, t, hs, ht', hrenames⟩, hv', _⟩ := hdone
    refine ⟨v', hv', ?_⟩
    by_cases halias : v.name s = v.name t
    · exact .inl (hrenames.same halias)
    · right
      obtain ⟨id, hid⟩ := Option.ne_none_iff_exists'.mp hrenames.bound
      obtain rfl := hrenames.eq halias
      have hname : (v.renamed s t).swept.name t = some id :=
        Volume.renamed_name_eq_some.mpr (.inl ⟨rfl, hid⟩)
      refine ⟨s, t, id, hs, ht', hid, hname,
        Volume.swept_node_of_named (.inr ⟨t, hname⟩), ?_⟩
      intro key hkeys hkeyt
      show Function.update (Function.update v.name s none) t (v.name s) key = _
      rw [Function.update_of_ne hkeyt, Function.update_of_ne hkeys]

/-- The power fails right behind the last write of a rename that succeeds. -/
theorem renamePosix_replaces_treeDisk :
    ∃ r d' v', renamePosixAtPathJournaled treeSuperblock "/d/f" "/g" treeDisk =
        (.ok r, d') ∧
      StandsFor treeSuperblock d'.rebooted v' ∧
      (v' = volumeOf treeSuperblock treeDisk ∨ ∃ s t id,
        (volumeOf treeSuperblock treeDisk).SlashKeyAt "/d/f" s ∧
        (volumeOf treeSuperblock treeDisk).SlashKeyAt "/g" t ∧
        (volumeOf treeSuperblock treeDisk).name s = some id ∧
        v'.name t = some id ∧
        v'.node id = (volumeOf treeSuperblock treeDisk).node id ∧
        ∀ key, key ≠ s → key ≠ t →
          v'.name key = (volumeOf treeSuperblock treeDisk).name key) := by
  obtain ⟨r, d', hrun⟩ := renamePosixAtPath_treeDisk
  have hcut := (@performs_renamePosix treeSuperblock "/d/f" "/g").cut_end
    standsFor_treeDisk treelike_treeDisk
  rw [renamePosix_disk, hrun] at hcut
  obtain ⟨v', hv', hmoved⟩ := renamePosix_replaces standsFor_treeDisk
    treelike_treeDisk (by rw [hrun]; exact hcut)
  exact ⟨r, d', v', hrun, hv', hmoved⟩

end Devices

/-! ## Reads after edits -/

section Edits

variable {sb : Superblock} {d d' : Disk} {a : BlockAllocator}
  {inodes : List PersistedInode} {entries : List PersistedDirectoryEntry}
  {path : String}

/-- The path of an edit leads to the edited file. -/
theorem Mounted.edited_file (h : Mounted d sb a inodes entries)
    {call : FilePathCall} (hrun : call.run sb path d = (.ok (), d')) :
    ∃ f f', (volumeOf sb d).FileAt path f ∧ call.Does f f' ∧ Consistent sb d' ∧
      (volumeOf sb d').FileAt path f' := by
  obtain ⟨hconsistent, id, f, f', hpath, hnode, hdoes, hv'⟩ :=
    ((implements_filePathCall sb path call).atomic h).of_ok hrun
  refine ⟨f, f', ⟨id, hpath, hnode⟩, hdoes, hconsistent, id, ?_⟩
  rw [hv']
  exact ⟨hpath.setFile hnode f', Volume.setFile_node_self _ _ _⟩

/-- **What an edit does is what is read.**  After a call on one path succeeds, the
file of the volume at the path is what the call makes of the old one, and a read
of the path has exactly its bytes. -/
theorem read_after_edit {report : FsckReport} (hsb : readSuperblock d = .ok sb)
    (hjournal : loadJournalImage d sb = .ok [])
    (hcheck : checkDevice d = .ok report) {call : FilePathCall}
    (hrun : call.run sb path d = (.ok (), d')) :
    ∃ f f', (volumeOf sb d).FileAt path f ∧
      (readFileBlocksAtPath sb path d).1 = .ok f.bytes ∧ call.Does f f' ∧
      (volumeOf sb d').FileAt path f' ∧
      (readFileBlocksAtPath sb path d').1 = .ok f'.bytes := by
  obtain ⟨a, inodes, entries, h⟩ := exists_mounted hsb hjournal hcheck
  obtain ⟨f, f', hf, hdoes, ⟨a', inodes', entries', h'⟩, hf'⟩ :=
    h.edited_file hrun
  exact ⟨f, f', hf, h.readWhole.mpr ⟨f, hf, rfl⟩, hdoes, hf',
    h'.readWhole.mpr ⟨f', hf', rfl⟩⟩

theorem read_after_edit_filesDisk :
    ∃ d' f f', (FilePathCall.writeRange 0 1 [1, 2]).run treeSuperblock "/s"
        (filesDisk fun _ => Block.zero) = (.ok (), d') ∧
      (volumeOf treeSuperblock (filesDisk fun _ => Block.zero)).FileAt "/s" f ∧
      (readFileBlocksAtPath treeSuperblock "/s"
        (filesDisk fun _ => Block.zero)).1 = .ok f.bytes ∧
      (FilePathCall.writeRange 0 1 [1, 2]).Does f f' ∧
      (volumeOf treeSuperblock d').FileAt "/s" f' ∧
      (readFileBlocksAtPath treeSuperblock "/s" d').1 = .ok f'.bytes := by
  have h := mounted_filesDisk fun _ => Block.zero
  obtain ⟨r, d', hrun⟩ := writeFileRangeAtPath_filesDisk
  have hcall := FilePathCall.run_writeRange hrun
  obtain ⟨f, f', hread⟩ :=
    read_after_edit h.superblock h.journal h.check hcall
  exact ⟨d', f, f', hcall, hread⟩

/-- **Written bytes are read back**, from the range that they were written to. -/
theorem read_after_write {report : FsckReport} (hsb : readSuperblock d = .ok sb)
    (hjournal : loadJournalImage d sb = .ok [])
    (hcheck : checkDevice d = .ok report) {firstBlock offset : Nat}
    {data : List UInt8} {r : RecoveryReport}
    (hrun : writeFileRangeAtPathJournaled sb path firstBlock offset data d =
      (.ok r, d')) :
    (readFileRangeAtPath sb path firstBlock offset data.length d').1 =
      .ok data := by
  obtain ⟨a, inodes, entries, h⟩ := exists_mounted hsb hjournal hcheck
  obtain ⟨f, f', ⟨id, _, hnode⟩, hdoes, ⟨a', inodes', entries', h'⟩, hf'⟩ :=
    h.edited_file (FilePathCall.run_writeRange hrun)
  obtain ⟨inode, hmem, _, hkind, rfl⟩ := h.exists_file hnode
  have hlen := length_fileBytes d (h.fileEnd hmem hkind).1
  obtain ⟨_, _, _, hwrite⟩ := Effect.bind_eq_ok_iff.mp hrun
  obtain ⟨hdata, hoffset⟩ := writeFileRange_range hwrite
  rw [h'.readFileRangeAtPath]
  refine ⟨?_, hoffset, f', hf', ?_, (hdoes.slice hlen).symm⟩
  · exact fun hnil => hdata (List.length_eq_zero_iff.mp hnil)
  · rw [hdoes.byteLen_eq]
    exact hdoes.inside

theorem read_after_write_filesDisk :
    ∃ r d', writeFileRangeAtPathJournaled treeSuperblock "/s" 0 1 [1, 2]
        (filesDisk fun _ => Block.zero) = (.ok r, d') ∧
      (readFileRangeAtPath treeSuperblock "/s" 0 1 2 d').1 = .ok [1, 2] := by
  have h := mounted_filesDisk fun _ => Block.zero
  obtain ⟨r, d', hrun⟩ := writeFileRangeAtPath_filesDisk
  exact ⟨r, d', hrun, read_after_write h.superblock h.journal h.check hrun⟩

/-- The call that does the same with blocks wherever they are free. -/
def FilePathCall.plain : FilePathCall → FilePathCall
  | appendContiguous data => append data
  | appendZeroed blockCount =>
    append (List.replicate blockCount.toNat Block.zero)
  | insertContiguous index data => insert index data
  | insertZeroed index blockCount =>
    insert index (List.replicate blockCount.toNat Block.zero)
  | replaceContiguous start removeCount replacements =>
    replace start removeCount replacements
  | replaceZeroed start blockCount => replace start blockCount.toNat
      (List.replicate blockCount.toNat Block.zero)
  | call => call

/-- A call for contiguous blocks makes of a file what the plain one makes. -/
theorem FilePathCall.plain_does {call : FilePathCall} {f f₁ f₂ : FileData}
    (hne : call.plain ≠ call) (h : call.Does f f₁) (h' : call.plain.Does f f₂) :
    f₁ = f₂ := by
  cases call with
  | appendContiguous data => exact h.trans h'.symm
  | appendZeroed blockCount => exact h.trans h'.symm
  | insertContiguous index data => exact h.2.trans h'.2.symm
  | insertZeroed index blockCount => exact h.2.trans h'.2.symm
  | replaceContiguous start removeCount replacements =>
    exact h.2.trans h'.2.symm
  | replaceZeroed start blockCount => exact h.2.trans h'.2.symm
  | _ => exact absurd rfl hne

/-- **Where the blocks of a file are is not seen.**  A call that asks for
contiguous or zeroed blocks leaves the volume that the plain call leaves. -/
theorem volumeOf_plain {report : FsckReport} (hsb : readSuperblock d = .ok sb)
    (hjournal : loadJournalImage d sb = .ok [])
    (hcheck : checkDevice d = .ok report) {call : FilePathCall} {d₁ d₂ : Disk}
    (hrun : call.run sb path d = (.ok (), d₁))
    (hplain : call.plain.run sb path d = (.ok (), d₂)) :
    volumeOf sb d₁ = volumeOf sb d₂ := by
  obtain ⟨a, inodes, entries, h⟩ := exists_mounted hsb hjournal hcheck
  by_cases hsame : call.plain = call
  · rw [hsame, hrun, Prod.mk.injEq] at hplain
    rw [hplain.2]
  · obtain ⟨_, id, f, f₁, hpath, hnode, hdoes, hv₁⟩ :=
      ((implements_filePathCall sb path call).atomic h).of_ok hrun
    obtain ⟨_, id', g, f₂, hpath', hnode', hdoes', hv₂⟩ :=
      ((implements_filePathCall sb path call.plain).atomic h).of_ok hplain
    obtain rfl := h.resolves_unique hpath hpath'
    rw [hnode, Option.some.injEq, Node.file.injEq] at hnode'
    subst hnode'
    rw [hv₁, hv₂, FilePathCall.plain_does hsame hdoes hdoes']

/-- The two blocks of the scattered file are replaced wherever blocks are
free. -/
theorem replaceFileBlocks_scatteredDisk (contents : Nat → Block)
    (first second : Block) :
    ∃ r d', replaceFileBlocksJournaled treeSuperblock 3 0 2 [first, second]
      (scatteredDisk contents) = (.ok r, d') := by
  have h := mounted_scatteredDisk contents
  obtain ⟨mid, hloop⟩ : ∃ mid, allocateEach filesAllocator 2 =
      .ok ([12, 13], mid) := by
    have hfirst : (allocateEach filesAllocator 2).map Prod.fst =
        .ok [12, 13] := rfl
    obtain ⟨⟨_, mid⟩, htaken, rfl⟩ := Except.map_eq_ok.mp hfirst
    exact ⟨mid, htaken⟩
  have hedit : PersistedInode.replaceBlockRange ⟨3, .file, [11, 10], 4106⟩ 0 2
      [12, 13] = .ok ([11, 10], ⟨3, .file, [12, 13], 4106⟩) := by decide
  obtain ⟨encoded, hencoded⟩ : ∃ encoded,
      inodeFormat.encodeImage treeSuperblock.inodeBlocks
        (setInode scatteredInodes ⟨3, .file, [12, 13], 4106⟩) = .ok encoded := by
    rw [show setInode scatteredInodes ⟨3, .file, [12, 13], 4106⟩ =
      [⟨1, .directory, [], 0⟩, ⟨3, .file, [12, 13], 4106⟩] by decide]
    exact exists_inodeImage (by decide) (by decide) (by decide) (by decide)
      (by decide)
  apply @Mounted.replaceFileBlocks_ok _ _ _ _ _ _ _ ⟨3, .file, [12, 13], 4106⟩
    2 [12, 13] [11, 10] [first, second] h
    (by decide : ⟨3, .file, [11, 10], 4106⟩ ∈ scatteredInodes) rfl (by decide)
    (by simp) (by decide) hloop hedit
  intro a' htotal hreserved
  exact h.toAtRest.publishFileChanges_tree htotal hreserved hencoded
    (by simp; decide) (by simp) (.inl (by simp))

/-- The path of the scattered file is entered. -/
theorem enterPath_scatteredDisk (contents : Nat → Block) :
    enterPath treeSuperblock "/t" (scatteredDisk contents) =
      (.ok 3, scatteredDisk contents) := by
  have h := mounted_scatteredDisk contents
  rw [enterPath, Effect.bind_of_ok h.recover, Effect.query_apply,
    (fileAt_scatteredDisk contents).resolves]

theorem volumeOf_plain_scatteredDisk :
    ∃ d₁ d₂,
      (FilePathCall.replaceContiguous 0 2 [Block.zero, Block.zero]).run
          treeSuperblock "/t" (scatteredDisk sevens) = (.ok (), d₁) ∧
        (FilePathCall.replace 0 2 [Block.zero, Block.zero]).run treeSuperblock
          "/t" (scatteredDisk sevens) = (.ok (), d₂) ∧
        volumeOf treeSuperblock d₁ = volumeOf treeSuperblock d₂ := by
  have h := mounted_scatteredDisk sevens
  obtain ⟨r₁, d₁, hrun⟩ :=
    replaceContiguous_scatteredDisk sevens Block.zero Block.zero
  obtain ⟨r₂, d₂, hplain⟩ :=
    replaceFileBlocks_scatteredDisk sevens Block.zero Block.zero
  have hcall : (FilePathCall.replaceContiguous 0 2
      [Block.zero, Block.zero]).run treeSuperblock "/t" (scatteredDisk sevens) =
        (.ok (), d₁) := by
    show Effect.ignore (Effect.abortable _) _ = _
    rw [Effect.ignore, Effect.bind_of_ok (a := r₁) (by
      rw [Effect.abortable, replaceFileBlocksContiguousAtPathJournaled,
        Effect.bind_of_ok (enterPath_scatteredDisk sevens), hrun]
      rfl)]
    rfl
  have hcall' : (FilePathCall.replace 0 2 [Block.zero, Block.zero]).run
      treeSuperblock "/t" (scatteredDisk sevens) = (.ok (), d₂) := by
    show Effect.ignore (Effect.abortable _) _ = _
    rw [Effect.ignore, Effect.bind_of_ok (a := r₂) (by
      rw [Effect.abortable, replaceFileBlocksAtPathJournaled,
        Effect.bind_of_ok (enterPath_scatteredDisk sevens), hplain]
      rfl)]
    rfl
  exact ⟨d₁, d₂, hcall, hcall',
    volumeOf_plain h.superblock h.journal h.check hcall hcall'⟩

end Edits

end FilesystemLab
