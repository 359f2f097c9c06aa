import EventRecorder.CircularFile.Crash

/-!
# Circular files whose operations fail

Any operation of an opening or of a save may fail while the process goes on, and the data file may
be longer than the ring.  An opening that fails leaves the files as a crash of it does.  A save that
fails leaves the queue as it was; only its size can stay behind in the key file, where the next save
replaces it.
-/

namespace EventRecorder

open Theory

/-! ## 1. The steps of an opening -/

namespace EmerCircularFile

/-- Initialising afresh: the data file keeps its contents. -/
def reinitializeSteps (disk : CircularFileOnDisk) (maxSize : Nat) : List DiskStep :=
  [.createData, .replaceMetadata (((unopened (DiskStep.perform disk .createData)
    maxSize).setMaxSizeKey true).setMetadata 0 0 true).2.metadataKeyFile]

/-- The steps of `emer_circular_file_new`. -/
def openingSteps (disk : CircularFileOnDisk) (maxSize : Nat) (reinitialized : Bool)
    (uninitialised : Nat → UInt8) : List DiskStep :=
  if reinitialized then reinitializeSteps disk maxSize else newSteps disk maxSize uninitialised

/-- The files after so many steps, none of them cut short. -/
def afterSteps (disk : CircularFileOnDisk) (steps : List DiskStep) (taken : Nat) :
    CircularFileOnDisk :=
  crashAfter DiskStep.perform DiskStep.interrupt disk steps taken 0

theorem interrupt_zero (disk : CircularFileOnDisk) (step : DiskStep) :
    DiskStep.interrupt disk step 0 = disk := by
  obtain ⟨dataFile, metadataFile⟩ := disk
  cases step with
  | writeInPlace position bytes =>
    cases dataFile with
    | none => rfl
    | some contents =>
      show (⟨some (writeAt 0 contents position (bytes.take 0)), metadataFile⟩ :
        CircularFileOnDisk) = ⟨some contents, metadataFile⟩
      rw [List.take_zero, writeAt_nil]
  | createData => rfl
  | replaceData contents => rfl
  | replaceMetadata keyFile => rfl

theorem afterSteps_zero (disk : CircularFileOnDisk) (steps : List DiskStep) :
    afterSteps disk steps 0 = disk := by
  cases steps with
  | nil => rfl
  | cons step steps => exact interrupt_zero disk step

/-- All the steps of an opening are the opening. -/
theorem run_openingSteps (disk : CircularFileOnDisk) (maxSize : Nat) (reinitialized : Bool)
    (uninitialised : Nat → UInt8) :
    run DiskStep.perform disk (openingSteps disk maxSize reinitialized uninitialised) =
      (new disk maxSize reinitialized uninitialised .none).2 := by
  cases reinitialized with
  | true => rfl
  | false => exact run_newSteps disk maxSize uninitialised

/-- How a function ends when one of its operations fails: as it does without the failure, or with an
error behind some of its steps. -/
inductive FaultOutcome (disk : CircularFileOnDisk) (steps : List DiskStep)
    (succeeding : Except GError Unit × EmerCircularFile) :
    Except GError Unit × EmerCircularFile → Prop where
  | same : FaultOutcome disk steps succeeding succeeding
  | failed {e : GError} {file : EmerCircularFile} (taken : Nat)
      (hdisk : file.disk = afterSteps disk steps taken) :
      FaultOutcome disk steps succeeding (.error e, file)

/-- One more step in front of it all. -/
theorem FaultOutcome.behind {disk : CircularFileOnDisk} {step : DiskStep} {steps : List DiskStep}
    {succeeding result : Except GError Unit × EmerCircularFile}
    (h : FaultOutcome (DiskStep.perform disk step) steps succeeding result) :
    FaultOutcome disk (step :: steps) succeeding result := by
  cases h with
  | same => exact .same
  | failed taken hdisk => exact .failed (taken + 1) hdisk

variable {self : EmerCircularFile}

theorem overwrite_fault (buffer : Bytes) (prevMaxSize : Nat) (fault : InitFault) :
    FaultOutcome self.disk (self.overwriteSteps buffer prevMaxSize)
      (self.overwrite buffer prevMaxSize .none) (self.overwrite buffer prevMaxSize fault) := by
  cases fault with
  | none => exact .same
  | appendTo => exact .same
  | readData => exact .same
  | metadata => exact .failed 0 rfl
  | replaceContents => exact .failed 1 rfl
  | addToSize => exact .failed 2 rfl

theorem resize_fault (prevMaxSize : Nat) (uninitialised : Nat → UInt8) (fault : InitFault) :
    FaultOutcome self.disk (self.resizeSteps prevMaxSize uninitialised)
      (self.resize prevMaxSize uninitialised .none)
      (self.resize prevMaxSize uninitialised fault) := by
  by_cases hsame : prevMaxSize = self.maxSize
  · unfold resize
    rw [if_pos hsame, if_pos hsame]
    exact .same
  have hfault : decide (InitFault.none ≠ InitFault.readData) = true := by decide
  -- the read fails, or it answers as it does without a failure
  have hread : ∀ buffer count, self.readDiskBytes buffer count prevMaxSize
        (fault ≠ .readData) = .error .failed ∨
      self.readDiskBytes buffer count prevMaxSize (fault ≠ .readData) =
        self.readDiskBytes buffer count prevMaxSize true := by
    intro buffer count
    by_cases hread : fault = .readData
    · by_cases hzero : count = 0
      · right
        unfold readDiskBytes
        rw [if_pos hzero, if_pos hzero]
      · left
        unfold readDiskBytes
        rw [if_neg hzero, show decide (fault ≠ .readData) = false by simp [hread]]
        cases self.disk.dataFile <;> rfl
    · right
      rw [show decide (fault ≠ .readData) = true by simp [hread]]
  unfold resize resizeSteps
  rw [if_neg hsame, if_neg hsame, if_neg hsame, hfault]
  simp only
  have hanswer := hread ((List.range (min self.size self.maxSize)).map uninitialised)
    (min self.size self.maxSize)
  cases hanswer with
  | inl hfailed =>
    rw [hfailed]
    exact .failed 0 (afterSteps_zero _ _).symm
  | inr hanswer =>
    rw [hanswer]
    cases self.readDiskBytes ((List.range (min self.size self.maxSize)).map uninitialised)
        (min self.size self.maxSize) prevMaxSize true with
    | error e => exact .same
    | ok buffer =>
      simp only
      cases getTrimmedSize buffer (min self.size self.maxSize) with
      | none => exact .same
      | some newSize => exact overwrite_fault (buffer.take newSize) prevMaxSize fault

theorem new_eq_map (disk : CircularFileOnDisk) (maxSize : Nat) (reinitialized : Bool)
    (uninitialised : Nat → UInt8) (fault : InitFault) :
    new disk maxSize reinitialized uninitialised fault =
      (((unopened disk maxSize).initableInit reinitialized uninitialised fault).1.map fun _ =>
          ((unopened disk maxSize).initableInit reinitialized uninitialised fault).2,
        ((unopened disk maxSize).initableInit reinitialized uninitialised fault).2.disk) := by
  unfold new
  simp only
  rw [show (⟨disk, KeyFile.empty, [], maxSize, 0, 0⟩ : EmerCircularFile) =
    unopened disk maxSize from rfl]
  cases (unopened disk maxSize).initableInit reinitialized uninitialised fault with
  | mk result self => cases result <;> rfl

theorem initableInit_fault (disk : CircularFileOnDisk) (maxSize : Nat) (reinitialized : Bool)
    (uninitialised : Nat → UInt8) (fault : InitFault) :
    FaultOutcome disk (openingSteps disk maxSize reinitialized uninitialised)
      ((unopened disk maxSize).initableInit reinitialized uninitialised .none)
      ((unopened disk maxSize).initableInit reinitialized uninitialised fault) := by
  by_cases happend : fault = .appendTo
  · unfold initableInit
    rw [if_pos happend]
    exact .failed 0 (afterSteps_zero _ _).symm
  have hcreated : { unopened disk maxSize with
      disk := { disk with dataFile := some (disk.dataFile.getD []) } } =
        unopened (DiskStep.perform disk .createData) maxSize := rfl
  unfold initableInit
  rw [if_neg happend, if_neg (show InitFault.none ≠ InitFault.appendTo by decide),
    show (unopened disk maxSize).disk = disk from rfl, hcreated]
  cases hload : (unopened (DiskStep.perform disk .createData) maxSize).loadMetadata
      reinitialized with
  | error e =>
    simp only [hload]
    exact .same
  | ok loaded =>
    obtain ⟨keyFile, fresh⟩ := loaded
    cases fresh with
    | true =>
      simp only [hload]
      by_cases hmetadata : fault = .metadata
      · have hfiles : DiskStep.perform disk .createData = afterSteps disk
            (openingSteps disk maxSize reinitialized uninitialised) 1 := by
          cases reinitialized with
          | true => rfl
          | false => exact (afterSteps_zero _ _).symm
        have hfault : decide (fault ≠ .metadata) = false := by simp [hmetadata]
        rw [hfault]
        exact .failed 1 hfiles
      · have hfault : decide (fault ≠ .metadata) = true := by simp [hmetadata]
        rw [hfault]
        exact .same
    | false =>
      cases reinitialized with
      | true => cases hload
      | false =>
        cases hparse : parseMetadata keyFile with
        | error e =>
          simp only [hload, hparse]
          exact .same
        | ok parsed =>
          obtain ⟨prevMaxSize, size, head⟩ := parsed
          have hresize := @resize_fault
            ⟨DiskStep.perform disk .createData, keyFile, [], maxSize, size, head⟩ prevMaxSize
            uninitialised fault
          have hsteps : openingSteps disk maxSize false uninitialised =
              .createData :: resizeSteps ⟨DiskStep.perform disk .createData, keyFile, [], maxSize,
                size, head⟩ prevMaxSize uninitialised := by
            show newSteps disk maxSize uninitialised = _
            unfold newSteps initSteps
            rw [hload]
            simp only [hparse]
            rfl
          rw [hsteps]
          simp only [hload, hparse]
          exact hresize.behind

/-- An opening that does not succeed as it would without the failure leaves the files behind some of
its steps. -/
theorem new_fault (disk : CircularFileOnDisk) (maxSize : Nat) (reinitialized : Bool)
    (uninitialised : Nat → UInt8) (fault : InitFault) :
    new disk maxSize reinitialized uninitialised fault =
        new disk maxSize reinitialized uninitialised .none ∨
      ∃ e taken, new disk maxSize reinitialized uninitialised fault =
        (.error e, afterSteps disk (openingSteps disk maxSize reinitialized uninitialised)
          taken) := by
  have hinit := initableInit_fault disk maxSize reinitialized uninitialised fault
  rw [new_eq_map, new_eq_map]
  generalize (unopened disk maxSize).initableInit reinitialized uninitialised fault = result
    at hinit ⊢
  cases hinit with
  | same => exact .inl rfl
  | @failed e file taken hdisk => exact .inr ⟨e, taken, Prod.ext rfl hdisk⟩

/-- So does an opening that fails with an operation or without one. -/
theorem new_failed {disk disk' : CircularFileOnDisk} {maxSize : Nat} {reinitialized : Bool}
    {uninitialised : Nat → UInt8} {fault : InitFault} {e : GError}
    (h : new disk maxSize reinitialized uninitialised fault = (.error e, disk')) :
    ∃ taken, disk' =
      afterSteps disk (openingSteps disk maxSize reinitialized uninitialised) taken := by
  cases new_fault disk maxSize reinitialized uninitialised fault with
  | inl hsame =>
    refine ⟨(openingSteps disk maxSize reinitialized uninitialised).length, ?_⟩
    rw [afterSteps, crashAfter_of_length_le _ _ le_rfl, run_openingSteps, ← hsame, h]
  | inr hfailed =>
    obtain ⟨e', taken, hnew⟩ := hfailed
    rw [hnew] at h
    exact ⟨taken, (Prod.mk.inj h).2.symm⟩

/-! ## 2. Objects that have just been opened -/

/-- Whatever the files were, the metadata describes the object. -/
structure JustOpened (file : EmerCircularFile) (maxSize : Nat) : Prop where
  synced : file.Synced
  dataFile : ∃ contents, file.disk.dataFile = some contents
  maxSize_eq : file.maxSize = maxSize
  maxSize_lt : maxSize < 2 ^ 64
  writeBuffer_eq : file.writeBuffer = []
  size_le : file.size ≤ maxSize
  head_lt : file.head < maxSize ∨ file.head = 0

theorem describes_of_parseMetadata {keyFile : KeyFile} {maxSize size head : Nat}
    (hgroup : keyFile.hasGroup metadataGroupName = true)
    (h : parseMetadata keyFile = .ok (maxSize, size, head)) :
    Describes keyFile maxSize size head := by
  rw [parseMetadata] at h
  split at h
  · cases h
  rename_i m hmax
  split at h
  · cases h
  rename_i s hsize
  split at h
  · cases h
  split at h
  · cases h
  rename_i i hhead
  split at h
  · cases h
  · rename_i hrange
    cases h
    refine ⟨hgroup, hmax, hsize, ?_⟩
    rw [hhead, Int.toNat_of_nonneg (by omega)]

theorem resize_justOpened {prevMaxSize maxSize : Nat} {uninitialised : Nat → UInt8}
    (h : prevMaxSize = maxSize → JustOpened self maxSize) (hmaxSize : self.maxSize = maxSize)
    (hlt : maxSize < 2 ^ 64) (hwriteBuffer : self.writeBuffer = [])
    (hok : (self.resize prevMaxSize uninitialised .none).1 = .ok ()) :
    JustOpened (self.resize prevMaxSize uninitialised .none).2 maxSize := by
  subst hmaxSize
  unfold resize at hok ⊢
  split at hok
  · rename_i heq
    rw [if_pos heq]
    exact h heq
  rename_i hne
  rw [if_neg hne]
  simp only at hok ⊢
  split at hok
  · cases hok
  rename_i buffer _
  split at hok
  · cases hok
  rename_i newSize htrimmed
  have hnewSize := trimmedSizeFrom_le (Nat.zero_le _) htrimmed
  have hlen : (buffer.take newSize).length ≤ newSize := List.length_take_le _ _
  obtain ⟨keyFile, hdescribes, heq⟩ := overwrite_ok hlt (by omega) hne hok
  rw [heq]
  refine ⟨⟨rfl, hdescribes⟩, ⟨_, rfl⟩, rfl, hlt, hwriteBuffer, ?_, .inr rfl⟩
  show (buffer.take newSize).length ≤ self.maxSize
  omega

theorem new_justOpened {disk : CircularFileOnDisk} {maxSize : Nat} {reinitialized : Bool}
    {uninitialised : Nat → UInt8} {fault : InitFault} {file : EmerCircularFile}
    (hmaxSize : maxSize < 2 ^ 64)
    (h : (new disk maxSize reinitialized uninitialised fault).1 = .ok file) :
    JustOpened file maxSize := by
  cases new_fault disk maxSize reinitialized uninitialised fault with
  | inr hfailed =>
    obtain ⟨e, taken, hnew⟩ := hfailed
    rw [hnew] at h
    cases h
  | inl hsame =>
    rw [hsame] at h
    by_cases hneeds : NeedsInit disk reinitialized
    · obtain ⟨keyFile, hdescribes, hnew⟩ := new_of_needsInit hneeds hmaxSize uninitialised
      rw [hnew] at h
      obtain rfl := Except.ok.inj h
      exact ⟨⟨rfl, hdescribes⟩, ⟨_, rfl⟩, rfl, hmaxSize, rfl, Nat.zero_le _, .inr rfl⟩
    -- otherwise the metadata file is there, and it passes the checks
    have hfalse : reinitialized = false := by
      cases reinitialized with
      | true => exact absurd (.inl rfl) hneeds
      | false => rfl
    subst hfalse
    obtain ⟨dataFile, metadataFile⟩ := disk
    cases metadataFile with
    | absent => exact absurd (.inr (.inl rfl)) hneeds
    | unparsable => cases h
    | parsed keyFile =>
      have hgroup : keyFile.hasGroup metadataGroupName = true := by
        cases hgroup : keyFile.hasGroup metadataGroupName with
        | true => rfl
        | false => exact absurd (.inr (.inr ⟨keyFile, rfl, hgroup⟩)) hneeds
      cases hparse : parseMetadata keyFile with
      | error e =>
        simp [new, initableInit, loadMetadata, KeyFileOnDisk.load, hgroup, hparse] at h
      | ok parsed =>
        obtain ⟨prevMaxSize, size, head⟩ := parsed
        have hresized := @resize_justOpened
          (parsedObject (dataFile.getD []) keyFile maxSize size head) prevMaxSize maxSize
          uninitialised
        cases hresult : (parsedObject (dataFile.getD []) keyFile maxSize size head).resize
            prevMaxSize uninitialised .none with
        | mk result self =>
        rw [new_of_accepted maxSize uninitialised hgroup hparse hresult] at h
        rw [hresult] at hresized
        cases result with
        | error e => cases h
        | ok _ =>
          obtain rfl := Except.ok.inj h
          apply hresized _ rfl hmaxSize rfl rfl
          intro heq
          obtain ⟨-, hsize, hhead, -⟩ := parseMetadata_eq_ok hparse
          subst heq
          exact ⟨⟨rfl, describes_of_parseMetadata hgroup hparse⟩, ⟨_, rfl⟩, rfl, hmaxSize, rfl,
            hsize, .inl hhead⟩

end EmerCircularFile

/-! ## 3. The queue of an object -/

/-- The key files agree once a size has been written to both. -/
def SameButSize (keyFile keyFile' : KeyFile) : Prop :=
  ∀ size, keyFile.setUint64 metadataGroupName sizeKey size =
    keyFile'.setUint64 metadataGroupName sizeKey size

/-- The queue that an object keeps in a data file of any length.  After a save that failed the key
file may have another size than the file on disk. -/
inductive FileKeeps (file : EmerCircularFile) : Fifo Bytes → Prop where
  | nothing (h : NothingOnDisk False file.disk file.metadataKeyFile) (maxSize_eq : file.maxSize = 0)
      (size_eq : file.size = 0) (writeBuffer_eq : file.writeBuffer = []) :
      FileKeeps file Fifo.empty
  | queue {contents : Bytes} {maxSize : Nat} {q : Fifo Bytes} {keyFile : KeyFile}
      (h : Keeps False { file with metadataKeyFile := keyFile } contents maxSize q)
      (hsame : SameButSize file.metadataKeyFile keyFile) : FileKeeps file q

theorem sameButSize_refl (keyFile : KeyFile) : SameButSize keyFile keyFile := fun _ => rfl

theorem sameButSize_setSize {keyFile keyFile' : KeyFile} (h : SameButSize keyFile keyFile')
    (size : Nat) : SameButSize (keyFile.setUint64 metadataGroupName sizeKey size) keyFile' := by
  intro size'
  rw [← h size']
  exact KeyFile.setValue_setValue _ _ _ _ _

variable {file : EmerCircularFile} {contents : Bytes} {maxSize : Nat} {q : Fifo Bytes}
  {bounded : Prop}

theorem Keeps.fileKeeps (h : Keeps False file contents maxSize q) : FileKeeps file q :=
  .queue h (sameButSize_refl _)

/-- An empty object, just opened. -/
theorem EmerCircularFile.JustOpened.fileKeeps (h : file.JustOpened maxSize)
    (hsize : file.size = 0) : FileKeeps file Fifo.empty := by
  obtain ⟨contents, hdata⟩ := h.dataFile
  have hmaxSize := h.maxSize_eq
  have hdescribes := h.synced.describes
  have hhead := h.head_lt
  by_cases hzero : maxSize = 0
  · have hhead : file.head = 0 := by omega
    rw [hmaxSize, hsize, hhead, hzero] at hdescribes
    exact .nothing ⟨⟨contents, hdata, False.elim⟩, h.synced.onDisk, hdescribes⟩
      (hmaxSize.trans hzero) hsize h.writeBuffer_eq
  · have hkeeps : Keeps False file contents maxSize Fifo.empty := by
      refine ⟨h.synced, hdata, hmaxSize, h.maxSize_lt, hsize, h.writeBuffer_eq, ?_, by omega,
        ⟨ringHolds_nil _ _ _, False.elim⟩, by simp [Fifo.empty]⟩
      rw [hsize, h.writeBuffer_eq]
      exact Nat.zero_le _
    exact hkeeps.fileKeeps

/-- A purge that succeeds without a write had nothing to do. -/
theorem EmerCircularFile.purge_of_ok {saved : Bool} (hok : (file.purge saved).1 = .ok ()) :
    file.purge saved = file.purge true := by
  cases saved with
  | true => rfl
  | false =>
    unfold EmerCircularFile.purge at hok ⊢
    by_cases hsize : file.size = 0
    · rw [if_pos hsize, if_pos hsize]
    · rw [if_neg hsize] at hok
      cases hok

/-- Purging an object that has just been opened leaves an empty one, whatever its files were. -/
theorem EmerCircularFile.JustOpened.purge (h : file.JustOpened maxSize) {saved : Bool}
    (hok : (file.purge saved).1 = .ok ()) :
    (file.purge saved).2.JustOpened maxSize ∧ (file.purge saved).2.size = 0 := by
  rw [EmerCircularFile.purge_of_ok hok]
  unfold EmerCircularFile.purge
  split
  · rename_i hsize
    exact ⟨h, hsize⟩
  · exact ⟨⟨h.synced.setMetadata (by decide) (by decide), h.dataFile, h.maxSize_eq, h.maxSize_lt,
      h.writeBuffer_eq, Nat.zero_le _, .inr rfl⟩, rfl⟩

/-- What the object leaves when it goes. -/
theorem FileKeeps.onDisk (h : FileKeeps file q) :
    ∃ capacity, OnDisk False file.disk capacity q.saved := by
  cases h with
  | nothing h => exact ⟨some 0, .nothing h⟩
  | queue h => exact ⟨_, .stored h.storedOnDisk⟩

/-- Opening keeps no more than was there. -/
theorem OnDisk.opening_keeps {disk : CircularFileOnDisk} {capacity : Option Nat}
    {saved : List Bytes} (h : OnDisk False disk capacity saved) {newMaxSize : Nat}
    (hmaxSize : newMaxSize < 2 ^ 64) {reinitialized : Bool} {uninitialised : Nat → UInt8}
    {fault : InitFault}
    (hnew : (EmerCircularFile.new disk newMaxSize reinitialized uninitialised fault).1 = .ok file) :
    ∃ kept, FileKeeps file ⟨kept, []⟩ ∧ kept.Sublist saved := by
  have hopened := EmerCircularFile.new_justOpened hmaxSize hnew
  cases EmerCircularFile.new_fault disk newMaxSize reinitialized uninitialised fault with
  | inr hfailed =>
    obtain ⟨e, taken, hfailed⟩ := hfailed
    rw [hfailed] at hnew
    cases hnew
  | inl hsame =>
  rw [hsame] at hnew
  by_cases hneeds : NeedsInit disk reinitialized
  · obtain ⟨keyFile, hdescribes, hnew'⟩ := new_of_needsInit hneeds hmaxSize uninitialised
    rw [hnew'] at hnew
    obtain rfl := Except.ok.inj hnew
    exact ⟨[], hopened.fileKeeps rfl, List.nil_sublist _⟩
  have hfalse : reinitialized = false := by
    cases reinitialized with
    | true => exact absurd (.inl rfl) hneeds
    | false => rfl
  subst hfalse
  cases h with
  | absent habsent => exact absurd (.inr (.inl habsent)) hneeds
  | nothing h =>
    rw [h.new_eq] at hnew
    cases hnew
  | @stored prevMaxSize _ keyFile head contents h =>
    by_cases hpos : 1 ≤ newMaxSize
    · obtain ⟨file', contents', hnew', hkeeps, -⟩ := h.new_keeps hpos hmaxSize uninitialised
      rw [hnew'] at hnew
      obtain rfl := Except.ok.inj hnew
      exact ⟨_, hkeeps.fileKeeps, (takeWithin_isPrefix frameLength newMaxSize saved).sublist⟩
    -- nothing is kept at a maximum size of zero
    · have hle := hopened.size_le
      exact ⟨[], hopened.fileKeeps (by omega), List.nil_sublist _⟩

/-- So does an opening that fails, and one that a crash cuts short. -/
theorem OnDisk.opening_crash {disk : CircularFileOnDisk} {capacity : Option Nat}
    {saved : List Bytes} (h : OnDisk False disk capacity saved) {newMaxSize : Nat}
    (hmaxSize : newMaxSize < 2 ^ 64) (reinitialized : Bool) (uninitialised : Nat → UInt8) :
    AtEveryCrash DiskStep.perform DiskStep.interrupt
      (fun disk => ∃ capacity kept, OnDisk False disk capacity kept ∧ kept.Sublist saved) disk
      (EmerCircularFile.openingSteps disk newMaxSize reinitialized uninitialised) := by
  cases reinitialized with
  | true =>
    have hcreated : DiskStep.perform disk .createData =
        ⟨some (disk.dataFile.getD []), disk.metadataFile⟩ := rfl
    refine atEveryCrash_cons.mpr ⟨fun _ => ⟨_, _, h, List.Sublist.refl _⟩,
      atEveryCrash_replaceMetadata ?_ ⟨_, [], .ofEmpty (describes_setSizeHead
        (EmerCircularFile.getUint64_maxSize_setMaxSize hmaxSize) (by decide) (by decide)) hmaxSize
        False.elim, List.nil_sublist _⟩⟩
    rw [hcreated]
    cases h with
    | absent hmetadata => exact ⟨none, [], .absent hmetadata False.elim, List.nil_sublist _⟩
    | nothing h =>
      exact ⟨_, _, .nothing ⟨⟨_, rfl, False.elim⟩, h.metadataFile, h.describes⟩,
        List.nil_sublist _⟩
    | stored h =>
      refine ⟨_, _, .stored { h with dataFile := ?_ }, List.Sublist.refl _⟩
      rw [h.dataFile]
      rfl
  | false =>
    refine AtEveryCrash.mono ?_ (h.new_crash hmaxSize uninitialised)
    intro disk hdisk
    have hkept := (takeWithin_isPrefix frameLength newMaxSize saved).sublist
    rcases hdisk with hsame | hempty | ⟨-, hempty | hresized⟩
    · exact ⟨_, _, hsame, List.Sublist.refl _⟩
    · exact ⟨_, _, hempty, List.nil_sublist _⟩
    · exact ⟨_, _, hempty, List.nil_sublist _⟩
    · exact ⟨_, _, hresized, hkept⟩

/-! ## 4. Appending and saving -/

namespace Keeps

/-- An element is appended to the batch or refused. -/
theorem append (h : Keeps bounded file contents maxSize q) {elem : Bytes} (helem : elem ≠ [])
    (hsum : file.size + file.writeBuffer.length + (8 + elem.length) < 2 ^ 64)
    (hlen : file.size + file.writeBuffer.length + (8 + elem.length) ≤ file.maxSize →
      elem.length < 2 ^ 32) :
    file.append elem = (false, file) ∨
      (file.append elem).1 = true ∧
        Keeps bounded (file.append elem).2 contents maxSize ⟨q.saved, q.unsaved ++ [elem]⟩ := by
  rw [EmerCircularFile.append_of_sumFits hsum hlen]
  by_cases hfits : file.size + file.writeBuffer.length + (8 + elem.length) ≤ file.maxSize
  · rw [if_pos hfits]
    have hbuffer : file.writeBuffer ++ frame elem = encode (q.unsaved ++ [elem]) := by
      rw [h.writeBuffer_eq, encode_append, encode_singleton]
    refine .inr ⟨rfl, { h with
      synced := ⟨h.synced.onDisk, h.synced.describes⟩
      writeBuffer_eq := hbuffer, fits := ?_, nonempty := ?_ }⟩
    · show file.size + (file.writeBuffer ++ frame elem).length ≤ _
      rw [List.length_append, length_frame, frameLength, ← Nat.add_assoc, ← h.maxSize_eq]
      exact hfits
    · intro e he
      rw [← List.append_assoc, List.mem_append, List.mem_singleton] at he
      cases he with
      | inl hold => exact h.nonempty e hold
      | inr hnew =>
        rw [hnew]
        exact helem
  · rw [if_neg hfits]
    exact .inl rfl

/-- However far the write at the start gets. -/
theorem writeAtStart_kept (h : Keeps bounded file contents maxSize q)
    (hoffset : file.head + file.size < 2 ^ 63) (fault : SaveFault) :
    RingKept bounded maxSize file.head (file.writeAtStart contents fault).2 (encode q.saved) := by
  have hdrop : (file.writeBuffer.drop file.bytesTail).length =
      file.writeBuffer.length - file.bytesTail := List.length_drop
  have hwhole : RingKept bounded maxSize file.head
      (writeAt 0 contents 0 (file.writeBuffer.drop file.bytesTail)) (encode q.saved) :=
    h.cut_at_start hoffset hdrop.le
  unfold EmerCircularFile.writeAtStart
  simp only
  split
  · cases fault with
    | seekStart => exact h.kept
    | writeStart written =>
      apply h.cut_at_start hoffset
      rw [List.length_take]
      omega
    | none => exact hwhole
    | openReadwrite => exact hwhole
    | seekTail => exact hwhole
    | writeTail written => exact hwhole
    | metadata => exact hwhole
  · exact h.kept

/-- However far the writes of a save get, they stay in the free part of the ring. -/
theorem writeData_kept (h : Keeps bounded file contents maxSize q)
    (hoffset : file.head + file.size < 2 ^ 63) (fault : SaveFault) :
    RingKept bounded maxSize file.head (file.writeData contents fault).2 (encode q.saved) := by
  have hstart := h.writeAtStart_kept hoffset fault
  have htake : (file.writeBuffer.take file.bytesTail).length ≤ file.bytesTail :=
    List.length_take_le _ _
  unfold EmerCircularFile.writeData
  generalize file.writeAtStart contents fault = written at hstart
  obtain ⟨done, contents'⟩ := written
  have hwhole := h.cut_at_tail hoffset hstart htake
  cases done with
  | false => exact hstart
  | true =>
    show RingKept bounded maxSize file.head (file.writeAtTail contents' fault).2 (encode q.saved)
    unfold EmerCircularFile.writeAtTail
    cases fault with
    | seekTail => exact hstart
    | writeTail written =>
      apply h.cut_at_tail hoffset hstart
      rw [List.length_take]
      omega
    | none => exact hwhole
    | openReadwrite => exact hwhole
    | seekStart => exact hwhole
    | writeStart written => exact hwhole
    | metadata => exact hwhole

theorem withContents (h : Keeps bounded file contents maxSize q) {contents' : Bytes}
    (hkept : RingKept bounded maxSize file.head contents' (encode q.saved)) :
    Keeps bounded { file with disk := { file.disk with dataFile := some contents' } } contents'
      maxSize q :=
  { h with
    synced := ⟨h.synced.onDisk, h.synced.describes⟩
    dataFile := rfl
    kept := hkept }

/-- Recording the new size saves the batch. -/
theorem withSize (h : Keeps bounded file contents maxSize q) {contents' : Bytes}
    (hkept : RingKept bounded maxSize file.head contents' (encode q.save.saved)) {keyFile : KeyFile}
    (hkeyFile : keyFile = file.metadataKeyFile.setUint64 metadataGroupName sizeKey
      (file.size + file.writeBuffer.length)) :
    Keeps bounded { file with
      disk := ⟨some contents', .parsed keyFile⟩, metadataKeyFile := keyFile
      writeBuffer := [], size := file.size + file.writeBuffer.length } contents' maxSize
      q.save := by
  have hfits := h.fits
  have hlt := h.maxSize_lt
  have hdescribes := h.synced.describes
  subst hkeyFile
  refine ⟨⟨rfl, (describes_setSize ?_).mpr ⟨hdescribes.maxSize_eq, hdescribes.head_eq⟩⟩, rfl,
    h.maxSize_eq, hlt, ?_, rfl, hfits, h.head_lt, hkept, ?_⟩
  · show file.size + file.writeBuffer.length < 2 ^ 64
    omega
  · show file.size + file.writeBuffer.length = (encode q.save.saved).length
    rw [Fifo.save, encode_append, List.length_append, h.size_eq, h.writeBuffer_eq]
  · intro elem he
    apply h.nonempty elem
    rwa [Fifo.save, List.append_nil] at he

end Keeps

/-- Writes that get to the end have written everything. -/
theorem EmerCircularFile.writeData_of_done (self : EmerCircularFile) {contents contents' : Bytes}
    {fault : SaveFault} (h : self.writeData contents fault = (true, contents')) :
    contents' = writeAt 0 (writeAt 0 contents 0 (self.writeBuffer.drop self.bytesTail)) self.tail
      (self.writeBuffer.take self.bytesTail) := by
  have hstart : ∀ middle, self.writeAtStart contents fault = (true, middle) →
      middle = writeAt 0 contents 0 (self.writeBuffer.drop self.bytesTail) := by
    intro middle hmiddle
    unfold writeAtStart at hmiddle
    simp only at hmiddle
    by_cases hround : self.writeBuffer.length - self.bytesTail > 0
    · rw [if_pos hround] at hmiddle
      cases fault <;> cases hmiddle <;> rfl
    · rw [if_neg hround] at hmiddle
      rw [List.drop_of_length_le (by omega), writeAt_nil]
      exact (Prod.mk.inj hmiddle).2.symm
  have htail : ∀ middle, self.writeAtTail middle fault = (true, contents') →
      contents' = writeAt 0 middle self.tail (self.writeBuffer.take self.bytesTail) := by
    intro middle hmiddle
    unfold writeAtTail at hmiddle
    cases fault <;> cases hmiddle <;> rfl
  unfold writeData at h
  cases hwritten : self.writeAtStart contents fault with
  | mk done middle =>
    rw [hwritten] at h
    cases done with
    | false => cases h
    | true =>
      rw [← hstart middle hwritten]
      exact htail middle h

/-- Appending does not look at the key file. -/
theorem EmerCircularFile.append_withKeyFile (file : EmerCircularFile) (keyFile : KeyFile)
    (elem : Bytes) :
    file.append elem =
        (({ file with metadataKeyFile := keyFile }.append elem).1,
          { ({ file with metadataKeyFile := keyFile }.append elem).2 with
            metadataKeyFile := file.metadataKeyFile }) ∧
      ({ file with metadataKeyFile := keyFile }.append elem).2.metadataKeyFile = keyFile := by
  unfold EmerCircularFile.append
  simp only
  split
  · exact ⟨rfl, rfl⟩
  · exact ⟨rfl, rfl⟩

namespace FileKeeps

/-- A save that fails leaves the queue as it was. -/
theorem save (h : FileKeeps file q) (hoffset : file.head + file.size < 2 ^ 63)
    (fault : SaveFault) :
    FileKeeps (file.save fault).2 q ∨ FileKeeps (file.save fault).2 q.save := by
  cases h with
  | nothing hdisk hmaxSize hsize hwriteBuffer =>
    have hsave : file.save fault = (.ok (), file) := if_pos (by rw [hwriteBuffer]; rfl)
    rw [hsave]
    exact .inl (.nothing hdisk hmaxSize hsize hwriteBuffer)
  | @queue contents maxSize q keyFile h hsame =>
    have hfits := h.fits
    have hlt := h.maxSize_lt
    have houtcome := file.save_outcome (show file.size + file.writeBuffer.length < 2 ^ 64 by
      exact lt_of_le_of_lt hfits hlt) fault
    generalize file.save fault = result at houtcome
    cases houtcome with
    | nothingToSave => exact .inl (.queue h hsame)
    | notOpened => exact .inl (.queue h hsame)
    | @notWritten contents₀ contents' hne hdata hwritten =>
      obtain rfl : contents₀ = contents := Option.some.inj (hdata.symm.trans h.dataFile)
      have hwritten : { file with metadataKeyFile := keyFile }.writeData contents₀ fault =
        (false, contents') := hwritten
      have hkept := h.writeData_kept hoffset fault
      rw [hwritten] at hkept
      exact .inl (.queue (h.withContents hkept) hsame)
    | @sizeNotSaved contents₀ contents' hne hdata hwritten hfault =>
      obtain rfl : contents₀ = contents := Option.some.inj (hdata.symm.trans h.dataFile)
      have hwritten : { file with metadataKeyFile := keyFile }.writeData contents₀ fault =
        (true, contents') := hwritten
      have hkept := h.writeData_kept hoffset fault
      rw [hwritten] at hkept
      exact .inl (.queue (h.withContents hkept) (sameButSize_setSize hsame _))
    | @saved contents₀ contents' hne hdata hopen hwritten hfault keyFile' hkeyFile =>
      obtain rfl : contents₀ = contents := Option.some.inj (hdata.symm.trans h.dataFile)
      have hwritten : { file with metadataKeyFile := keyFile }.writeData contents₀ fault =
        (true, contents') := hwritten
      have hbehind := h.written_behind hoffset
      rw [← EmerCircularFile.writeData_of_done _ hwritten] at hbehind
      rw [hsame] at hkeyFile
      exact .inr (h.withSize hbehind hkeyFile).fileKeeps

/-- A crash while saving leaves the queue before or the queue after. -/
theorem save_crash (h : FileKeeps file q) (hoffset : file.head + file.size < 2 ^ 63) :
    AtEveryCrash DiskStep.perform DiskStep.interrupt
      (fun disk => ∃ capacity, OnDisk False disk capacity q.saved ∨
        OnDisk False disk capacity q.save.saved) file.disk file.saveSteps := by
  cases h with
  | nothing hdisk hmaxSize hsize hwriteBuffer =>
    have hsteps : file.saveSteps = [] := if_pos (by rw [hwriteBuffer]; rfl)
    rw [hsteps]
    exact atEveryCrash_nil.mpr ⟨some 0, .inl (.nothing hdisk)⟩
  | @queue contents maxSize q keyFile h hsame =>
    have hfits := h.fits
    have hlt := h.maxSize_lt
    -- the size that is recorded is the one that counts
    have hsteps : file.saveSteps = { file with metadataKeyFile := keyFile }.saveSteps := by
      unfold EmerCircularFile.saveSteps
      rw [EmerCircularFile.addToSize_eq file
          (show file.size + file.writeBuffer.length < 2 ^ 64 from lt_of_le_of_lt hfits hlt),
        EmerCircularFile.addToSize_eq { file with metadataKeyFile := keyFile }
          (show file.size + file.writeBuffer.length < 2 ^ 64 from lt_of_le_of_lt hfits hlt)]
      simp only [if_true, hsame (file.size + file.writeBuffer.length)]
      rfl
    rw [hsteps]
    refine AtEveryCrash.mono ?_ (h.save_crash hoffset)
    intro disk hdisk
    exact ⟨_, hdisk⟩

/-- An element joins the batch or is refused. -/
theorem append (h : FileKeeps file q) {elem : Bytes} (helem : elem ≠ [])
    (hsum : file.size + file.writeBuffer.length + (8 + elem.length) < 2 ^ 64)
    (hlen : file.size + file.writeBuffer.length + (8 + elem.length) ≤ file.maxSize →
      elem.length < 2 ^ 32) :
    file.append elem = (false, file) ∨
      (file.append elem).1 = true ∧
        FileKeeps (file.append elem).2 ⟨q.saved, q.unsaved ++ [elem]⟩ := by
  cases h with
  | nothing hdisk hmaxSize hsize hwriteBuffer =>
    left
    rw [hsize, hwriteBuffer, List.length_nil] at hsum
    unfold EmerCircularFile.append
    rw [hmaxSize, hsize, hwriteBuffer, List.length_nil, sizeofElemSize]
    exact if_pos (by omega)
  | @queue contents maxSize q keyFile h hsame =>
    have hcongr := file.append_withKeyFile keyFile elem
    have hnext := h.append helem hsum hlen
    generalize { file with metadataKeyFile := keyFile }.append elem = result at hcongr hnext
    obtain ⟨accepted, appended⟩ := result
    obtain ⟨hsplit, hkeyFile⟩ := hcongr
    rw [hsplit]
    cases hnext with
    | inl hrefused =>
      left
      obtain ⟨rfl, rfl⟩ := Prod.mk.inj hrefused
      rfl
    | inr haccepted =>
      obtain ⟨hreply, hkeeps⟩ := haccepted
      right
      dsimp only at hkeyFile hkeeps
      subst hkeyFile
      exact ⟨hreply, .queue hkeeps hsame⟩

end FileKeeps

/-! ## 5. What is in the ring -/

/-- The bytes in the ring, as resizing reads them. -/
def EmerCircularFile.ringBytes (file : EmerCircularFile) : Except GError Bytes :=
  file.readDiskBytes (List.replicate file.size 0) file.size file.maxSize true

theorem FileKeeps.ringBytes_eq (h : FileKeeps file q) : file.ringBytes = .ok (encode q.saved) := by
  unfold EmerCircularFile.ringBytes
  cases h with
  | nothing hdisk hmaxSize hsize hwriteBuffer =>
    rw [hsize]
    rfl
  | @queue contents maxSize q keyFile h hsame =>
    have hsize : file.size = (encode q.saved).length := h.size_eq
    have hmaxSize : file.maxSize = maxSize := h.maxSize_eq
    have hfits := h.fits
    have hhead : file.head < maxSize := h.head_lt
    have hread := @EmerCircularFile.readDiskBytes_of_ringHolds file contents (encode q.saved)
      (List.replicate file.size 0) file.size file.maxSize h.dataFile
      (by rw [hmaxSize]; exact h.kept.ring) (by omega)
      (by rw [hmaxSize, ← hsize]; exact le_trans (Nat.le_add_right _ _) hfits)
      hsize.le List.length_replicate
    rwa [hsize, List.take_length, ← hsize] at hread

end EventRecorder
