import EventRecorder.CircularFile.Lives
import EventRecorder.Theory.Crash

/-!
# Crashes of a circular file

Every operation is a list of steps on the two files, in the order of the code.  A write into the
data file may be cut at any byte; the two files are replaced at once.  Saving writes into the free
part of the ring before it records the new size, and resizing records an empty queue before it
replaces the data file, with the larger of the two maximum sizes on disk in between.
-/

namespace EventRecorder

open Theory

/-! ## 1. The steps of every operation -/

inductive DiskStep where
  /-- `g_file_append_to` for a data file that may be missing. -/
  | createData
  | writeInPlace (position : Nat) (bytes : Bytes)
  | replaceData (contents : Bytes)
  | replaceMetadata (keyFile : KeyFile)

namespace DiskStep

def perform (disk : CircularFileOnDisk) : DiskStep → CircularFileOnDisk
  | .createData => { disk with dataFile := some (disk.dataFile.getD []) }
  | .writeInPlace position bytes =>
    { disk with dataFile := disk.dataFile.map fun contents => writeAt 0 contents position bytes }
  | .replaceData contents => { disk with dataFile := some contents }
  | .replaceMetadata keyFile => { disk with metadataFile := .parsed keyFile }

/-- A write in place that is cut has written its first bytes. -/
def interrupt (disk : CircularFileOnDisk) : DiskStep → Nat → CircularFileOnDisk
  | .writeInPlace position bytes, written =>
    perform disk (.writeInPlace position (bytes.take written))
  | _, _ => disk

end DiskStep

namespace EmerCircularFile

/-- The part that goes round to the start is written first, and the size is recorded last. -/
def saveSteps (self : EmerCircularFile) : List DiskStep :=
  if self.writeBuffer.length = 0 then []
  else
    (if self.writeBuffer.length - self.bytesTail > 0 then
      [.writeInPlace 0 (self.writeBuffer.drop self.bytesTail)]
    else []) ++
      [.writeInPlace self.tail (self.writeBuffer.take self.bytesTail),
        .replaceMetadata (self.addToSize self.writeBuffer.length true).2.metadataKeyFile]

def removeSteps (self : EmerCircularFile) (token : Nat) : List DiskStep :=
  if token = 0 then []
  else [.replaceMetadata (self.remove token true).2.metadataKeyFile]

def purgeSteps (self : EmerCircularFile) : List DiskStep :=
  if self.size = 0 then [] else [.replaceMetadata (self.purge true).2.metadataKeyFile]

def overwriteSteps (self : EmerCircularFile) (buffer : Bytes) (prevMaxSize : Nat) :
    List DiskStep :=
  let emptied := ((self.setMaxSizeKey (self.maxSize > prevMaxSize)).setMetadata 0 0 true).2
  let filled :=
    ((emptied.setMaxSizeKey (self.maxSize < prevMaxSize)).addToSize buffer.length true).2
  [.replaceMetadata emptied.metadataKeyFile, .replaceData buffer,
    .replaceMetadata filled.metadataKeyFile]

def resizeSteps (self : EmerCircularFile) (prevMaxSize : Nat) (uninitialised : Nat → UInt8) :
    List DiskStep :=
  if prevMaxSize = self.maxSize then []
  else
    let bytesToRead := min self.size self.maxSize
    match self.readDiskBytes ((List.range bytesToRead).map uninitialised) bytesToRead prevMaxSize
        true with
    | .error _ => []
    | .ok buffer =>
      match getTrimmedSize buffer bytesToRead with
      | none => []
      | some newSize => self.overwriteSteps (buffer.take newSize) prevMaxSize

/-- The steps once the data file is there. -/
def initSteps (self : EmerCircularFile) (uninitialised : Nat → UInt8) : List DiskStep :=
  match self.loadMetadata false with
  | .error _ => []
  | .ok (keyFile, true) =>
    let self := { self with metadataKeyFile := keyFile }
    [.replaceMetadata ((self.setMaxSizeKey true).setMetadata 0 0 true).2.metadataKeyFile]
  | .ok (keyFile, false) =>
    match parseMetadata keyFile with
    | .error _ => []
    | .ok (prevMaxSize, size, head) =>
      { self with metadataKeyFile := keyFile, size := size, head := head }.resizeSteps prevMaxSize
        uninitialised

def newSteps (disk : CircularFileOnDisk) (maxSize : Nat) (uninitialised : Nat → UInt8) :
    List DiskStep :=
  .createData :: (unopened (DiskStep.perform disk .createData) maxSize).initSteps uninitialised

end EmerCircularFile

/-- Appending does not write, and neither does reading what is valid. -/
def CircularFileClient.diskSteps (uninitialised : Nat → UInt8) (client : CircularFileClient) :
    CircularFileOp → List DiskStep
  | .save => client.file.saveSteps
  | .remove place => client.file.removeSteps (client.token place)
  | .purge => client.file.purgeSteps
  | .reopen =>
    EmerCircularFile.newSteps client.file.disk client.file.maxSize uninitialised
  | .append _ => []
  | .read _ => []
  | .hasMore _ => []

def CircularFilePath.diskSteps (uninitialised : Nat → UInt8) (path : CircularFilePath) :
    CircularFileEvent → List DiskStep
  | .new maxSize => EmerCircularFile.newSteps path.disk maxSize uninitialised
  | .call op =>
    match path with
    | .closed _ => []
    | .opened client => client.diskSteps uninitialised op

/-! ## 2. All steps together are the operation -/

namespace EmerCircularFile

variable {self : EmerCircularFile}

theorem run_overwriteSteps (buffer : Bytes) (prevMaxSize : Nat) :
    run DiskStep.perform self.disk (self.overwriteSteps buffer prevMaxSize) =
      (self.overwrite buffer prevMaxSize .none).2.disk := by
  simp [overwriteSteps, overwrite, setMetadata, addToSize, saveMetadataFile, setMaxSizeKey,
    DiskStep.perform]

theorem run_resizeSteps (prevMaxSize : Nat) (uninitialised : Nat → UInt8) :
    run DiskStep.perform self.disk (self.resizeSteps prevMaxSize uninitialised) =
      (self.resize prevMaxSize uninitialised .none).2.disk := by
  unfold resizeSteps resize
  by_cases hsame : prevMaxSize = self.maxSize
  · rw [if_pos hsame, if_pos hsame]
    rfl
  have hfault : decide (InitFault.none ≠ InitFault.readData) = true := by decide
  rw [if_neg hsame, if_neg hsame, hfault]
  cases hread : self.readDiskBytes ((List.range (min self.size self.maxSize)).map uninitialised)
      (min self.size self.maxSize) prevMaxSize true with
  | error e =>
    simp only [hread]
    rfl
  | ok buffer =>
    cases htrimmed : getTrimmedSize buffer (min self.size self.maxSize) with
    | none =>
      simp only [hread, htrimmed]
      rfl
    | some newSize =>
      simp only [hread, htrimmed]
      exact run_overwriteSteps _ _

theorem run_initSteps (disk : CircularFileOnDisk) (maxSize : Nat) (uninitialised : Nat → UInt8) :
    run DiskStep.perform (DiskStep.perform disk .createData)
        ((unopened (DiskStep.perform disk .createData) maxSize).initSteps uninitialised) =
      ((unopened disk maxSize).initableInit false uninitialised .none).2.disk := by
  have hcreated : { unopened disk maxSize with
      disk := { disk with dataFile := some (disk.dataFile.getD []) } } =
        unopened (DiskStep.perform disk .createData) maxSize := rfl
  have hfault : InitFault.none ≠ InitFault.appendTo := by decide
  unfold initSteps initableInit
  rw [if_neg hfault]
  rw [show (unopened disk maxSize).disk = disk from rfl, hcreated]
  cases hload : (unopened (DiskStep.perform disk .createData) maxSize).loadMetadata false with
  | error e =>
    simp only [hload]
    rfl
  | ok loaded =>
    obtain ⟨keyFile, reinitialized⟩ := loaded
    cases reinitialized with
    | true =>
      simp only [hload]
      rfl
    | false =>
      cases hparse : parseMetadata keyFile with
      | error e =>
        simp only [hload, hparse]
        rfl
      | ok parsed =>
        simp only [hload, hparse]
        exact @run_resizeSteps ⟨DiskStep.perform disk .createData, keyFile, [], maxSize, parsed.2.1,
          parsed.2.2⟩ parsed.1 uninitialised

theorem run_newSteps (disk : CircularFileOnDisk) (maxSize : Nat) (uninitialised : Nat → UInt8) :
    run DiskStep.perform disk (newSteps disk maxSize uninitialised) =
      (new disk maxSize false uninitialised .none).2 := by
  rw [newSteps, run_cons, run_initSteps]
  unfold new
  simp only
  split <;> rename_i heq
  · exact congrArg (fun result => result.2.disk) heq
  · exact congrArg (fun result => result.2.disk) heq

theorem writeData_eq (self : EmerCircularFile) (contents : Bytes) :
    self.writeData contents .none =
      (true, writeAt 0 (writeAt 0 contents 0 (self.writeBuffer.drop self.bytesTail)) self.tail
        (self.writeBuffer.take self.bytesTail)) := by
  have hstart : self.writeAtStart contents .none =
      (true, writeAt 0 contents 0 (self.writeBuffer.drop self.bytesTail)) := by
    unfold writeAtStart
    simp only
    split
    · rfl
    · rw [List.drop_of_length_le (by omega), writeAt_nil]
  unfold writeData
  simp only [hstart]
  rfl

theorem run_saveSteps {contents : Bytes} (hdata : self.disk.dataFile = some contents) :
    run DiskStep.perform self.disk self.saveSteps = (self.save .none).2.disk := by
  unfold saveSteps save
  by_cases hempty : self.writeBuffer.length = 0
  · rw [if_pos hempty, if_pos hempty]
    rfl
  have hfault : SaveFault.none ≠ SaveFault.openReadwrite := by decide
  rw [if_neg hempty, if_neg hempty, hdata]
  simp only [hfault, if_false, writeData_eq]
  have hdisk : self.disk = ⟨some contents, self.disk.metadataFile⟩ := by rw [← hdata]
  by_cases hround : self.writeBuffer.length - self.bytesTail > 0
  · rw [if_pos hround, hdisk]
    rfl
  · rw [if_neg hround, List.drop_of_length_le (by omega), writeAt_nil, hdisk]
    rfl

theorem run_removeSteps (token : Nat) :
    run DiskStep.perform self.disk (self.removeSteps token) = (self.remove token true).2.disk := by
  unfold removeSteps remove
  split <;> rfl

theorem run_purgeSteps :
    run DiskStep.perform self.disk self.purgeSteps = (self.purge true).2.disk := by
  unfold purgeSteps purge
  split <;> rfl

end EmerCircularFile

/-! ## 3. Crashes while saving, removing and purging -/

namespace Keeps

variable {bounded : Prop} {file : EmerCircularFile} {contents : Bytes} {maxSize : Nat}
  {q : Fifo Bytes}

theorem disk_eq (h : Keeps bounded file contents maxSize q) :
    file.disk = ⟨some contents, .parsed file.metadataKeyFile⟩ := by
  rw [← h.dataFile, ← h.synced.onDisk]

theorem tail_eq (h : Keeps bounded file contents maxSize q)
    (hoffset : file.head + file.size < 2 ^ 63) :
    file.tail = (file.head + (encode q.saved).length) % maxSize := by
  rw [EmerCircularFile.tail, Nat.mod_eq_of_lt (show file.head + file.size < 2 ^ 64 by omega),
    h.size_eq, h.maxSize_eq]

theorem bytesTail_eq (h : Keeps bounded file contents maxSize q)
    (hoffset : file.head + file.size < 2 ^ 63) :
    file.bytesTail = min (encode q.unsaved).length
      (maxSize - (file.head + (encode q.saved).length) % maxSize) := by
  rw [EmerCircularFile.bytesTail, h.tail_eq hoffset, h.writeBuffer_eq, h.maxSize_eq]

/-- However much of the part at the start is written, it goes into the free part of the ring. -/
theorem cut_at_start (h : Keeps bounded file contents maxSize q)
    (hoffset : file.head + file.size < 2 ^ 63) {ys : Bytes}
    (hys : ys.length ≤ file.writeBuffer.length - file.bytesTail) :
    RingKept bounded maxSize file.head (writeAt 0 contents 0 ys) (encode q.saved) := by
  by_cases hnil : ys = []
  · rw [hnil, writeAt_nil]
    exact h.kept
  have hpos : 0 < ys.length := List.length_pos_iff.mpr hnil
  have hfits := h.fits
  have hhead := h.head_lt
  rw [h.bytesTail_eq hoffset, h.writeBuffer_eq] at hys
  rw [h.size_eq, h.writeBuffer_eq] at hfits
  apply h.kept.writeAt_free 0 (by omega) (by omega)
  intro j hj
  exact free_of_start (n := ys.length) (by omega) (by omega) hj

/-- So does however much of the part at the tail is written. -/
theorem cut_at_tail (h : Keeps bounded file contents maxSize q)
    (hoffset : file.head + file.size < 2 ^ 63) {contents' ys : Bytes}
    (hkept : RingKept bounded maxSize file.head contents' (encode q.saved))
    (hys : ys.length ≤ file.bytesTail) :
    RingKept bounded maxSize file.head (writeAt 0 contents' file.tail ys) (encode q.saved) := by
  have hfits := h.fits
  have hhead := h.head_lt
  rw [h.bytesTail_eq hoffset] at hys
  rw [h.size_eq, h.writeBuffer_eq] at hfits
  have htail : (file.head + (encode q.saved).length) % maxSize < maxSize :=
    Nat.mod_lt _ (by omega)
  rw [h.tail_eq hoffset]
  apply hkept.writeAt_free 0 (by omega) (by omega)
  intro j hj
  exact free_of_tail (n := ys.length) (by omega) (by omega) hj

/-- Both parts together put the unsaved elements behind the saved ones. -/
theorem written_behind (h : Keeps bounded file contents maxSize q)
    (hoffset : file.head + file.size < 2 ^ 63) :
    RingKept bounded maxSize file.head
      (writeAt 0 (writeAt 0 contents 0 (file.writeBuffer.drop file.bytesTail)) file.tail
        (file.writeBuffer.take file.bytesTail)) (encode q.save.saved) := by
  have hfits := h.fits
  rw [h.size_eq, h.writeBuffer_eq] at hfits
  rw [h.tail_eq hoffset, h.bytesTail_eq hoffset, h.writeBuffer_eq, Fifo.save, encode_append]
  exact h.kept.write_behind 0 h.head_lt hfits

/-- The metadata is the old one until the size is recorded. -/
theorem onDisk_before (h : Keeps bounded file contents maxSize q) {contents' : Bytes}
    (hkept : RingKept bounded maxSize file.head contents' (encode q.saved)) :
    OnDisk bounded ⟨some contents', .parsed file.metadataKeyFile⟩ (some maxSize) q.saved :=
  .stored { h.storedOnDisk with dataFile := rfl, metadataFile := rfl, kept := hkept }

/-- The new size puts the unsaved elements into the queue. -/
theorem onDisk_saved (h : Keeps bounded file contents maxSize q) {contents' : Bytes}
    (hkept : RingKept bounded maxSize file.head contents' (encode q.save.saved)) :
    OnDisk bounded ⟨some contents',
        .parsed (file.addToSize file.writeBuffer.length true).2.metadataKeyFile⟩
      (some maxSize) q.save.saved := by
  have hfits := h.fits
  have hlt := h.maxSize_lt
  have hsize : file.size + file.writeBuffer.length = (encode q.save.saved).length := by
    rw [Fifo.save, encode_append, List.length_append, h.size_eq, h.writeBuffer_eq]
  have hmaxSize := h.synced.describes.maxSize_eq
  rw [h.maxSize_eq] at hmaxSize
  rw [EmerCircularFile.addToSize_eq file (by omega), hsize]
  exact .stored ⟨rfl, rfl,
    (describes_setSize (by omega)).mpr ⟨hmaxSize, h.synced.describes.head_eq⟩, hlt, by omega,
    h.head_lt, hkept, h.nonempty⟩

/-- A crash while saving leaves the queue before or the queue after. -/
theorem save_crash (h : Keeps bounded file contents maxSize q)
    (hoffset : file.head + file.size < 2 ^ 63) :
    AtEveryCrash DiskStep.perform DiskStep.interrupt
      (fun disk => OnDisk bounded disk (some maxSize) q.saved ∨
        OnDisk bounded disk (some maxSize) q.save.saved) file.disk file.saveSteps := by
  unfold EmerCircularFile.saveSteps
  by_cases hempty : file.writeBuffer.length = 0
  · rw [if_pos hempty]
    exact atEveryCrash_nil.mpr (.inl (.stored h.storedOnDisk))
  rw [if_neg hempty, h.disk_eq]
  have hbehind := h.written_behind hoffset
  -- the last two steps, over whatever the first one has left
  have hrest : ∀ contents', RingKept bounded maxSize file.head contents' (encode q.saved) →
      contents' = writeAt 0 contents 0 (file.writeBuffer.drop file.bytesTail) →
      AtEveryCrash DiskStep.perform DiskStep.interrupt
        (fun disk => OnDisk bounded disk (some maxSize) q.saved ∨
          OnDisk bounded disk (some maxSize) q.save.saved)
        ⟨some contents', .parsed file.metadataKeyFile⟩
        [.writeInPlace file.tail (file.writeBuffer.take file.bytesTail),
          .replaceMetadata (file.addToSize file.writeBuffer.length true).2.metadataKeyFile] := by
    intro contents' hkept hcontents
    have htake : (file.writeBuffer.take file.bytesTail).length ≤ file.bytesTail :=
      List.length_take_le _ _
    refine atEveryCrash_cons.mpr ⟨fun written => .inl ?_, atEveryCrash_cons.mpr
      ⟨fun _ => .inl ?_, atEveryCrash_nil.mpr (.inr ?_)⟩⟩
    · apply h.onDisk_before
      exact h.cut_at_tail hoffset hkept (by rw [List.length_take]; omega)
    · apply h.onDisk_before
      exact h.cut_at_tail hoffset hkept htake
    · apply h.onDisk_saved
      rw [hcontents]
      exact hbehind
  have hdrop : (file.writeBuffer.drop file.bytesTail).length =
      file.writeBuffer.length - file.bytesTail := List.length_drop
  by_cases hround : file.writeBuffer.length - file.bytesTail > 0
  · rw [if_pos hround, List.singleton_append]
    refine atEveryCrash_cons.mpr ⟨fun written => .inl ?_, hrest _ ?_ rfl⟩
    · apply h.onDisk_before
      exact h.cut_at_start hoffset (by rw [List.length_take]; omega)
    · exact h.cut_at_start hoffset hdrop.le
  -- nothing goes round to the start
  · rw [if_neg hround, List.nil_append]
    apply hrest contents h.kept
    rw [List.drop_of_length_le (by omega), writeAt_nil]

end Keeps

/-- Replacing the metadata either has not happened or it has. -/
theorem atEveryCrash_replaceMetadata {Q : CircularFileOnDisk → Prop} {disk : CircularFileOnDisk}
    {keyFile : KeyFile} (hbefore : Q disk)
    (hafter : Q (DiskStep.perform disk (.replaceMetadata keyFile))) :
    AtEveryCrash DiskStep.perform DiskStep.interrupt Q disk [.replaceMetadata keyFile] :=
  atEveryCrash_cons.mpr ⟨fun _ => hbefore, atEveryCrash_nil.mpr hafter⟩

namespace EmerCircularFile

variable {Q : CircularFileOnDisk → Prop} {self : EmerCircularFile}

theorem remove_crash {token : Nat} (hbefore : Q self.disk)
    (hafter : Q (self.remove token true).2.disk) :
    AtEveryCrash DiskStep.perform DiskStep.interrupt Q self.disk (self.removeSteps token) := by
  rw [← run_removeSteps] at hafter
  unfold removeSteps at hafter ⊢
  split
  · exact atEveryCrash_nil.mpr hbefore
  · rename_i hne
    rw [if_neg hne] at hafter
    exact atEveryCrash_replaceMetadata hbefore hafter

theorem purge_crash (hbefore : Q self.disk) (hafter : Q (self.purge true).2.disk) :
    AtEveryCrash DiskStep.perform DiskStep.interrupt Q self.disk self.purgeSteps := by
  rw [← run_purgeSteps] at hafter
  unfold purgeSteps at hafter ⊢
  split
  · exact atEveryCrash_nil.mpr hbefore
  · rename_i hne
    rw [if_neg hne] at hafter
    exact atEveryCrash_replaceMetadata hbefore hafter

end EmerCircularFile

/-! ## 4. Crashes while opening -/

section Opening

variable {bounded : Prop} {maxSize newMaxSize head : Nat} {saved kept : List Bytes}
  {keyFile : KeyFile} {contents : Bytes}

/-- An empty queue over whatever the data file contains. -/
theorem OnDisk.ofEmpty (hdescribes : Describes keyFile maxSize 0 0) (hmaxSize : maxSize < 2 ^ 64)
    (hcontents : bounded → contents.length ≤ maxSize) :
    OnDisk bounded ⟨some contents, .parsed keyFile⟩ (some maxSize) [] := by
  by_cases hzero : maxSize = 0
  · subst hzero
    exact .nothing ⟨⟨contents, rfl, fun hb =>
      List.eq_nil_of_length_eq_zero (Nat.le_zero.mp (hcontents hb))⟩, rfl, hdescribes⟩
  · exact .stored ⟨rfl, rfl, hdescribes, hmaxSize, Nat.zero_le _, by omega,
      ⟨ringHolds_nil _ _ _, fun hb => ⟨hcontents hb, ringHolds_nil _ _ _, .inl (Nat.zero_le _)⟩⟩,
      by simp⟩

/-- A queue that fills the data file from its start. -/
theorem OnDisk.ofResized (hdescribes : Describes keyFile maxSize (encode kept).length 0)
    (hmaxSize : maxSize < 2 ^ 64) (hlen : (encode kept).length ≤ maxSize)
    (hnonempty : ∀ elem ∈ kept, elem ≠ []) :
    OnDisk bounded ⟨some (encode kept), .parsed keyFile⟩ (some maxSize) kept := by
  by_cases hzero : maxSize = 0
  · obtain rfl : kept = [] := length_encode_eq_zero.mp (by omega)
    exact .ofEmpty hdescribes hmaxSize fun _ => hlen
  · exact .stored ⟨rfl, rfl, hdescribes, hmaxSize, hlen, by omega, RingKept.self hlen, hnonempty⟩

/-- The bytes that are kept, under the new maximum size. -/
theorem StoredOnDisk.resizeSteps_eq {disk : CircularFileOnDisk}
    (h : StoredOnDisk bounded disk maxSize saved keyFile head contents)
    (hne : maxSize ≠ newMaxSize) (uninitialised : Nat → UInt8) :
    (EmerCircularFile.parsedObject contents keyFile newMaxSize (encode saved).length
        head).resizeSteps maxSize uninitialised =
      (EmerCircularFile.parsedObject contents keyFile newMaxSize (encode saved).length
        head).overwriteSteps (encode (takeWithin frameLength newMaxSize saved)) maxSize := by
  have hfits := h.fits
  have hlt := h.maxSize_lt
  obtain ⟨newSize, htrimmed, hkept⟩ := EmerCircularFile.trimmed_encode h.nonempty
    (Nat.min_le_left (encode saved).length newMaxSize) (by omega)
  have hread := h.readDiskBytes_eq newMaxSize
    (@List.length_map _ _ (List.range (min (encode saved).length newMaxSize)) uninitialised |>.trans
      List.length_range)
  rw [takeWithin_min] at hkept
  unfold EmerCircularFile.resizeSteps
  rw [if_neg (show ¬ maxSize = (EmerCircularFile.parsedObject contents keyFile newMaxSize
    (encode saved).length head).maxSize from hne)]
  simp only [EmerCircularFile.parsedObject] at hread ⊢
  simp only [hread, htrimmed, hkept]

/-- A crash while the data file is replaced leaves the old queue, an empty one of either capacity,
or the new one. -/
theorem StoredOnDisk.overwrite_crash {disk : CircularFileOnDisk}
    (h : StoredOnDisk bounded disk maxSize saved keyFile head contents)
    (hne : maxSize ≠ newMaxSize) (hnew : newMaxSize < 2 ^ 64)
    (hlen : (encode kept).length ≤ newMaxSize) (hnonempty : ∀ elem ∈ kept, elem ≠ []) :
    AtEveryCrash DiskStep.perform DiskStep.interrupt
      (fun disk => OnDisk bounded disk (some maxSize) saved ∨
        OnDisk bounded disk (some maxSize) [] ∨ OnDisk bounded disk (some newMaxSize) [] ∨
        OnDisk bounded disk (some newMaxSize) kept)
      ⟨some contents, .parsed keyFile⟩
      ((EmerCircularFile.parsedObject contents keyFile newMaxSize (encode saved).length
        head).overwriteSteps (encode kept) maxSize) := by
  have hdisk : disk = ⟨some contents, .parsed keyFile⟩ := by rw [← h.dataFile, ← h.metadataFile]
  have hphysical : bounded → contents.length ≤ maxSize := fun hb => (h.kept.stored hb).physical
  have hlast := @EmerCircularFile.run_overwriteSteps
    (EmerCircularFile.parsedObject contents keyFile newMaxSize (encode saved).length head)
    (encode kept) maxSize
  have hdone := EmerCircularFile.overwrite_succeeding
    (EmerCircularFile.parsedObject contents keyFile newMaxSize (encode saved).length head)
    (encode kept) maxSize
  obtain ⟨keyFile', hdescribes, heq⟩ := EmerCircularFile.overwrite_ok hnew (by omega) hne hdone
  rw [heq] at hlast
  have hfinal : OnDisk bounded ⟨some (encode kept), .parsed keyFile'⟩ (some newMaxSize) kept :=
    .ofResized hdescribes hnew hlen hnonempty
  rw [← show _ = (⟨some (encode kept), .parsed keyFile'⟩ : CircularFileOnDisk) from hlast] at hfinal
  -- the empty queue in between has the larger of the two capacities
  have hempty : ∀ contents' : Bytes, (bounded → contents'.length ≤ max maxSize newMaxSize) →
      OnDisk bounded ⟨some contents', .parsed
          (((EmerCircularFile.parsedObject contents keyFile newMaxSize (encode saved).length
            head).setMaxSizeKey (newMaxSize > maxSize)).setMetadata 0 0 true).2.metadataKeyFile⟩
        (some (max maxSize newMaxSize)) [] := by
    intro contents' hcontents'
    refine .ofEmpty (describes_setSizeHead ?_ (by decide) (by decide))
      (max_lt h.maxSize_lt hnew) hcontents'
    by_cases hlarger : newMaxSize > maxSize
    · rw [max_eq_right hlarger.le]
      simp only [EmerCircularFile.setMaxSizeKey, hlarger, decide_true, if_true]
      exact EmerCircularFile.getUint64_maxSize_setMaxSize hnew
    · rw [max_eq_left (by omega)]
      simp only [EmerCircularFile.setMaxSizeKey, hlarger, decide_false, Bool.false_eq_true,
        if_false]
      exact h.describes.maxSize_eq
  have hcapacity : ∀ disk, OnDisk bounded disk (some (max maxSize newMaxSize)) [] →
      OnDisk bounded disk (some maxSize) [] ∨ OnDisk bounded disk (some newMaxSize) [] := by
    intro disk hdisk
    by_cases hlarger : newMaxSize > maxSize
    · rw [max_eq_right hlarger.le] at hdisk
      exact .inr hdisk
    · rw [max_eq_left (by omega)] at hdisk
      exact .inl hdisk
  refine atEveryCrash_cons.mpr ⟨fun _ => .inl (hdisk ▸ .stored h), atEveryCrash_cons.mpr
    ⟨fun _ => ?_, atEveryCrash_cons.mpr
      ⟨fun _ => ?_, atEveryCrash_nil.mpr (.inr (.inr (.inr ?_)))⟩⟩⟩
  · have := hcapacity _ (hempty contents fun hb => (hphysical hb).trans (le_max_left _ _))
    tauto
  · have := hcapacity _ (hempty (encode kept) fun _ => hlen.trans (le_max_right _ _))
    tauto
  · exact hfinal

section Steps

variable {disk : CircularFileOnDisk} (uninitialised : Nat → UInt8)

theorem newSteps_of_absent (hmetadata : disk.metadataFile = .absent) :
    ∃ keyFile, EmerCircularFile.newSteps disk newMaxSize uninitialised =
        [.createData, .replaceMetadata
          ((keyFile.setUint64 metadataGroupName sizeKey 0).setInt64 metadataGroupName headKey 0)] ∧
      keyFile = KeyFile.empty.setUint64 metadataGroupName maxSizeKey newMaxSize := by
  refine ⟨_, ?_, rfl⟩
  simp [EmerCircularFile.newSteps, EmerCircularFile.initSteps, EmerCircularFile.loadMetadata,
    EmerCircularFile.unopened, DiskStep.perform, hmetadata, KeyFileOnDisk.load,
    EmerCircularFile.setMaxSizeKey, EmerCircularFile.setMetadata, EmerCircularFile.saveMetadataFile]

theorem newSteps_of_refused (hmetadata : disk.metadataFile = .parsed keyFile)
    (hgroup : keyFile.hasGroup metadataGroupName = true) {e : GError}
    (hparse : EmerCircularFile.parseMetadata keyFile = .error e) :
    EmerCircularFile.newSteps disk newMaxSize uninitialised = [.createData] := by
  simp [EmerCircularFile.newSteps, EmerCircularFile.initSteps, EmerCircularFile.loadMetadata,
    EmerCircularFile.unopened, DiskStep.perform, hmetadata, KeyFileOnDisk.load, hgroup, hparse]

theorem newSteps_of_accepted (hdata : disk.dataFile = some contents)
    (hmetadata : disk.metadataFile = .parsed keyFile)
    (hgroup : keyFile.hasGroup metadataGroupName = true) {size : Nat}
    (hparse : EmerCircularFile.parseMetadata keyFile = .ok (maxSize, size, head)) :
    EmerCircularFile.newSteps disk newMaxSize uninitialised =
      .createData :: (EmerCircularFile.parsedObject contents keyFile newMaxSize size
        head).resizeSteps maxSize uninitialised := by
  simp [EmerCircularFile.newSteps, EmerCircularFile.initSteps, EmerCircularFile.loadMetadata,
    EmerCircularFile.unopened, DiskStep.perform, hmetadata, KeyFileOnDisk.load, hgroup, hparse,
    EmerCircularFile.parsedObject, hdata]

end Steps

/-- A crash while the path is opened leaves what it was, what it becomes, or an empty queue of
either capacity.  A path of capacity zero is not opened. -/
theorem OnDisk.new_crash {disk : CircularFileOnDisk} {capacity : Option Nat}
    (h : OnDisk bounded disk capacity saved) (hnew : newMaxSize < 2 ^ 64)
    (uninitialised : Nat → UInt8) :
    AtEveryCrash DiskStep.perform DiskStep.interrupt
      (fun disk => OnDisk bounded disk capacity saved ∨ OnDisk bounded disk capacity [] ∨
        capacity ≠ some 0 ∧ (OnDisk bounded disk (some newMaxSize) [] ∨
          OnDisk bounded disk (some newMaxSize) (takeWithin frameLength newMaxSize saved)))
      disk (EmerCircularFile.newSteps disk newMaxSize uninitialised) := by
  cases h with
  | absent hmetadata hdata =>
    obtain ⟨keyFile, hsteps, hkeyFile⟩ :=
      @newSteps_of_absent newMaxSize disk uninitialised hmetadata
    have hcreated : OnDisk bounded (DiskStep.perform disk .createData) none [] :=
      .absent hmetadata fun hb => hdata hb
    rw [hsteps]
    refine atEveryCrash_cons.mpr ⟨fun _ => .inl (.absent hmetadata hdata),
      atEveryCrash_replaceMetadata (.inl hcreated) (.inr (.inr ⟨by simp, .inl ?_⟩))⟩
    apply OnDisk.ofEmpty (describes_setSizeHead _ (by decide) (by decide)) hnew
    · intro hb
      rw [hdata hb]
      exact Nat.zero_le _
    · rw [hkeyFile]
      exact EmerCircularFile.getUint64_maxSize_setMaxSize hnew
  | nothing h =>
    obtain ⟨contents, hdata, hcontents⟩ := h.dataFile
    have hparse : EmerCircularFile.parseMetadata _ = .error QueuePath.headOutOfRange :=
      h.parseMetadata_eq
    rw [newSteps_of_refused uninitialised h.metadataFile h.describes.hasGroup hparse]
    have hcreated : DiskStep.perform disk .createData = disk := by
      obtain ⟨dataFile, metadataFile⟩ := disk
      have hdata : dataFile = some contents := hdata
      rw [hdata]
      rfl
    refine atEveryCrash_cons.mpr ⟨fun _ => .inl (.nothing h), atEveryCrash_nil.mpr ?_⟩
    rw [hcreated]
    exact .inl (.nothing h)
  | @stored maxSize saved keyFile head contents h =>
    have hdisk : disk = ⟨some contents, .parsed keyFile⟩ := by
      rw [← h.dataFile, ← h.metadataFile]
    rw [newSteps_of_accepted uninitialised h.dataFile h.metadataFile h.describes.hasGroup
      h.parseMetadata_eq]
    refine atEveryCrash_cons.mpr ⟨fun _ => .inl (.stored h), ?_⟩
    rw [show DiskStep.perform disk .createData = ⟨some contents, .parsed keyFile⟩ by
      rw [hdisk]; rfl]
    by_cases hne : maxSize = newMaxSize
    · have hsame : (EmerCircularFile.parsedObject contents keyFile newMaxSize
          (encode saved).length head).resizeSteps maxSize uninitialised = [] := if_pos hne
      rw [hsame]
      exact atEveryCrash_nil.mpr (.inl (hdisk ▸ .stored h))
    · have hlen : (encode (takeWithin frameLength newMaxSize saved)).length ≤ newMaxSize := by
        rw [length_encode]
        exact sum_takeWithin_le frameLength newMaxSize saved
      have hnonzero : some maxSize ≠ some 0 := fun hzero => by
        have hhead := h.head_lt
        rw [Option.some.inj hzero] at hhead
        exact absurd hhead (Nat.not_lt_zero _)
      rw [h.resizeSteps_eq hne uninitialised]
      refine AtEveryCrash.mono ?_ (h.overwrite_crash hne hnew hlen fun elem he =>
        h.nonempty elem ((takeWithin_isPrefix frameLength newMaxSize saved).subset he))
      intro disk hdisk
      tauto

end Opening

/-! ## 5. Runs with crashes -/

inductive CrashingEvent where
  | event (event : CircularFileEvent)
  /-- The process dies after so many steps of what it is doing and so many bytes of the next. -/
  | crash (event : CircularFileEvent) (taken written : Nat)

namespace CircularFilePath

variable (uninitialised : Nat → UInt8)

/-- The files that a process leaves when it dies. -/
def crashed (path : CircularFilePath) (event : CircularFileEvent) (taken written : Nat) :
    CircularFileOnDisk :=
  crashAfter DiskStep.perform DiskStep.interrupt path.disk (path.diskSteps uninitialised event)
    taken written

def nextOrCrash (path : CircularFilePath) : CrashingEvent → CircularFilePath
  | .event event => path.next uninitialised event
  | .crash event taken written => .closed (path.crashed uninitialised event taken written)

def AdmissibleOrCrash (path : CircularFilePath) : CrashingEvent → Prop
  | .event event => path.Admissible event
  | .crash event _ _ => path.Admissible event

instance (path : CircularFilePath) : ∀ event, Decidable (path.AdmissibleOrCrash event)
  | .event event => inferInstanceAs (Decidable (path.Admissible event))
  | .crash event _ _ => inferInstanceAs (Decidable (path.Admissible event))

end CircularFilePath

/-- How a crash can leave the queue. -/
inductive CrashOutcome (spec : QueuePath) (event : CircularFileEvent) :
    Option Nat → List Bytes → Prop where
  | before : CrashOutcome spec event spec.capacity spec.saved
  | after : CrashOutcome spec event (spec.next event).capacity (spec.next event).saved
  | emptyBefore {maxSize : Nat} (hnew : event = .new maxSize) :
      CrashOutcome spec event spec.capacity []
  | emptyAfter {maxSize : Nat} (hnew : event = .new maxSize) (hcapacity : spec.capacity ≠ some 0) :
      CrashOutcome spec event (some maxSize) []

namespace Realizes

variable {path : CircularFilePath} {spec : QueuePath}

/-- With no crash, the steps of an event are what the event does to the files. -/
theorem run_diskSteps (uninitialised : Nat → UInt8) (h : Realizes path spec)
    {event : CircularFileEvent} (hok : path.Admissible event) :
    run DiskStep.perform path.disk (path.diskSteps uninitialised event) =
      (path.next uninitialised event).disk := by
  cases event with
  | new maxSize =>
    have hsteps := EmerCircularFile.run_newSteps path.disk maxSize uninitialised
    have hdisk := @new_disk path.disk maxSize false uninitialised .none
    show run DiskStep.perform path.disk (EmerCircularFile.newSteps path.disk maxSize _) =
      (CircularFilePath.afterNew _).1.disk
    rw [hsteps]
    generalize EmerCircularFile.new path.disk maxSize false uninitialised .none = result at hdisk
    obtain ⟨file | e, disk⟩ := result
    · rfl
    · exact congrArg Prod.snd (hdisk rfl)
  | call op =>
    cases h with
    | absent h => exact hok.elim
    | closed h => exact hok.elim
    | @opened client capacity spec h =>
      cases op with
      | append elem =>
        show client.file.disk = (client.file.append elem).2.disk
        rw [EmerCircularFile.append]
        split <;> rfl
      | read budget =>
        have hread : (client.file.read budget true).2.2 = client.file := by
          cases h with
          | nothing h =>
            have hread : client.file.read budget true = (.ok ⟨[], 0⟩, false, client.file) :=
              if_pos h.size_eq
            rw [hread]
          | queue h => rw [(h.read budget).1]
        show client.file.disk = (client.afterRead (client.file.read budget true)).1.file.disk
        generalize client.file.read budget true = result at hread
        obtain ⟨answer | e, hasInvalid, file⟩ := result <;> exact congrArg _ hread.symm
      | hasMore place => rfl
      | reopen => exact absurd rfl hok.1
      | remove place => exact EmerCircularFile.run_removeSteps _
      | purge => exact EmerCircularFile.run_purgeSteps
      | save =>
        have hdata : ∃ contents, client.file.disk.dataFile = some contents := by
          cases h with
          | nothing h => exact ⟨[], h.dataFile⟩
          | queue h =>
            obtain ⟨contents, hkeeps⟩ := h.keeps
            exact ⟨contents, hkeeps.dataFile⟩
        obtain ⟨contents, hdata⟩ := hdata
        exact EmerCircularFile.run_saveSteps hdata

/-- The files an object is at are those of its queue, before a call and after it. -/
theorem crash (uninitialised : Nat → UInt8) (h : Realizes path spec) {event : CircularFileEvent}
    (hok : path.Admissible event) :
    AtEveryCrash DiskStep.perform DiskStep.interrupt
      (fun disk => ∃ capacity saved, OnDisk True disk capacity saved ∧
        CrashOutcome spec event capacity saved)
      path.disk (path.diskSteps uninitialised event) := by
  have hbefore := h.onDisk
  have hafter := (h.step uninitialised hok).2.onDisk
  cases event with
  | new maxSize =>
    refine AtEveryCrash.mono ?_ (hbefore.new_crash (show maxSize < 2 ^ 64 from hok) uninitialised)
    rintro disk (hsame | hempty | ⟨hcapacity, hempty | hkept⟩)
    · exact ⟨_, _, hsame, .before⟩
    · exact ⟨_, _, hempty, .emptyBefore rfl⟩
    · exact ⟨_, _, hempty, .emptyAfter rfl hcapacity⟩
    · have hnext : spec.next (.new maxSize) =
          .opened maxSize ⟨⟨takeWithin frameLength maxSize spec.saved, []⟩, []⟩ := by
        rw [QueuePath.next, QueuePath.step, if_neg hcapacity]
      have houtcome := @CrashOutcome.after spec (.new maxSize)
      rw [hnext] at houtcome
      exact ⟨_, _, hkept, houtcome⟩
  | call op =>
    cases h with
    | absent h => exact hok.elim
    | closed h => exact hok.elim
    | @opened client capacity spec h =>
      have hunchanged : ∃ capacity' saved, OnDisk True client.file.disk capacity' saved ∧
          CrashOutcome (.opened capacity spec) (.call op) capacity' saved :=
        ⟨_, _, hbefore, .before⟩
      cases op with
      | append elem => exact atEveryCrash_nil.mpr hunchanged
      | read budget => exact atEveryCrash_nil.mpr hunchanged
      | hasMore place => exact atEveryCrash_nil.mpr hunchanged
      | reopen => exact absurd rfl hok.1
      | remove place =>
        exact EmerCircularFile.remove_crash hunchanged ⟨_, _, hafter, .after⟩
      | purge => exact EmerCircularFile.purge_crash hunchanged ⟨_, _, hafter, .after⟩
      | save =>
        cases h with
        -- there is never anything to save in a file of no capacity
        | nothing h =>
          have hsteps : client.file.saveSteps = [] := if_pos (by rw [h.writeBuffer_eq]; rfl)
          show AtEveryCrash _ _ _ client.file.disk client.file.saveSteps
          rw [hsteps]
          exact atEveryCrash_nil.mpr hunchanged
        | queue h =>
          obtain ⟨contents, hkeeps⟩ := h.keeps
          refine AtEveryCrash.mono ?_ (hkeeps.save_crash hok.2)
          intro disk hdisk
          apply hdisk.elim
          · intro hsame
            exact ⟨_, _, hsame, .before⟩
          · intro hsaved
            exact ⟨_, _, hsaved, @CrashOutcome.after (.opened capacity spec) (.call .save)⟩

/-- Whatever happens at a path, there is a queue that it realizes. -/
theorem nextOrCrash (uninitialised : Nat → UInt8) (h : ∃ spec, Realizes path spec)
    {event : CrashingEvent} (hok : path.AdmissibleOrCrash event) :
    ∃ spec, Realizes (path.nextOrCrash uninitialised event) spec := by
  obtain ⟨spec, h⟩ := h
  cases event with
  | event event => exact ⟨_, (h.step uninitialised hok).2⟩
  | crash event taken written =>
    obtain ⟨capacity, saved, hdisk, -⟩ := h.crash uninitialised hok taken written
    cases capacity with
    | some capacity => exact ⟨.closed capacity saved, .closed hdisk⟩
    | none =>
      cases hdisk with
      | absent hmetadata hdata => exact ⟨.absent, .absent (.absent hmetadata hdata)⟩

end Realizes

/-! ## 6. What is found after a crash -/

/-- The data file is no longer than the maximum size that the metadata file records. -/
def WithinRecorded (disk : CircularFileOnDisk) : Prop :=
  ∀ contents keyFile maxSize, disk.dataFile = some contents →
    disk.metadataFile = .parsed keyFile →
    keyFile.getUint64 metadataGroupName maxSizeKey = .ok maxSize → contents.length ≤ maxSize

/-- The maximum size on disk. -/
def recordedMaxSize (disk : CircularFileOnDisk) : Nat :=
  match disk.metadataFile with
  | .parsed keyFile => (keyFile.getUint64 metadataGroupName maxSizeKey).toOption.getD 0
  | _ => 0

section AfterCrash

variable (uninitialised : Nat → UInt8)

/-- The queue on disk: what opening it at its own maximum size finds. -/
def elemsOnDisk (disk : CircularFileOnDisk) : List Bytes :=
  match (EmerCircularFile.new disk (recordedMaxSize disk) false uninitialised .none).1 with
  | .ok file => file.savedElems
  | .error _ => []

/-- Opening succeeds, and the object answers every run as the queue of these elements does. -/
def ReopensAs (disk : CircularFileOnDisk) (maxSize : Nat) (elems : List Bytes) : Prop :=
  ∃ file, (EmerCircularFile.new disk maxSize false uninitialised .none).1 = .ok file ∧
    file.savedElems = elems ∧
    ∀ ops, EachStep (fun client op => (client.call uninitialised op).1)
        CircularFileClient.Admissible ⟨file, []⟩ ops →
      outputs (CircularFileClient.call uninitialised) ⟨file, []⟩ ops =
        outputs (QueueClient.call maxSize) ⟨⟨elems, []⟩, []⟩ ops

/-- What the interrupted instance finds when it is started again with its maximum size: the queue as
it was or as it was to be.  Resizing may leave the old queue, of which what fits is kept, the empty
queue or the result. -/
def FoundAfterCrash (path : CircularFilePath) (disk : CircularFileOnDisk) :
    CircularFileEvent → Prop
  | .new maxSize =>
    ∀ completed, 1 ≤ maxSize →
      (EmerCircularFile.new path.disk maxSize false uninitialised .none).1 = .ok completed →
      ∃ elems, ReopensAs uninitialised disk maxSize elems ∧
        (IsLongestPrefix frameLength maxSize elems (elemsOnDisk uninitialised path.disk) ∨
          elems = [] ∨ elems = completed.savedElems)
  | .call op =>
    ∀ client, path = .opened client → 1 ≤ client.file.maxSize →
      ∃ elems, ReopensAs uninitialised disk client.file.maxSize elems ∧
        (elems = client.file.savedElems ∨
          elems = (client.call uninitialised op).1.file.savedElems)

end AfterCrash

namespace OnDisk

variable {disk : CircularFileOnDisk} {capacity : Option Nat} {saved : List Bytes}

theorem withinRecorded (h : OnDisk True disk capacity saved) : WithinRecorded disk := by
  intro contents keyFile maxSize hdata hmetadata hmaxSize
  cases h with
  | absent habsent => rw [habsent] at hmetadata; cases hmetadata
  | nothing h =>
    obtain ⟨contents', hdata', hempty⟩ := h.dataFile
    rw [hdata'] at hdata
    rw [← Option.some.inj hdata, hempty trivial]
    exact Nat.zero_le _
  | stored h =>
    rw [h.dataFile] at hdata
    rw [h.metadataFile] at hmetadata
    obtain rfl := Option.some.inj hdata
    obtain rfl := KeyFileOnDisk.parsed.inj hmetadata
    rw [h.describes.maxSize_eq] at hmaxSize
    rw [← Except.ok.inj hmaxSize]
    exact (h.kept.stored trivial).physical

theorem recordedMaxSize_eq (h : OnDisk True disk capacity saved) :
    recordedMaxSize disk = capacity.getD 0 := by
  unfold recordedMaxSize
  cases h with
  | absent habsent => rw [habsent]; rfl
  | nothing h =>
    rw [h.metadataFile]
    simp only [h.describes.maxSize_eq]
    rfl
  | stored h =>
    rw [h.metadataFile]
    simp only [h.describes.maxSize_eq]
    rfl

/-- No more than the capacity is in use. -/
theorem takeWithin_capacity (h : OnDisk True disk capacity saved) :
    takeWithin frameLength (capacity.getD 0) saved = saved := by
  cases h with
  | absent => rfl
  | nothing => rfl
  | stored h =>
    exact takeWithin_of_sum_le (by rw [← length_encode]; exact h.fits)

theorem elemsOnDisk_eq (h : OnDisk True disk capacity saved) (uninitialised : Nat → UInt8) :
    elemsOnDisk uninitialised disk = saved := by
  have hrecorded := h.recordedMaxSize_eq
  have hall := h.takeWithin_capacity
  unfold elemsOnDisk
  rw [hrecorded]
  by_cases hcapacity : capacity = some 0
  · subst hcapacity
    cases h with
    | nothing h =>
      rw [show (some 0).getD 0 = 0 from rfl, h.new_eq]
    | stored h => exact absurd h.head_lt (Nat.not_lt_zero _)
  · have hlt : capacity.getD 0 < 2 ^ 64 := by
      cases h with
      | absent => exact Nat.pow_pos (by decide)
      | nothing => exact Nat.pow_pos (by decide)
      | stored h => exact h.maxSize_lt
    obtain ⟨file, hnew, hrefines, -⟩ := h.new_refines hcapacity hlt uninitialised
    rw [hnew]
    obtain ⟨hkept, -, -⟩ := hrefines.savedElems_eq
    exact hkept.trans hall

/-- Files of some capacity can be opened at any maximum size of at least one. -/
theorem reopensAs (h : OnDisk True disk capacity saved) (hcapacity : capacity ≠ some 0)
    {maxSize : Nat} (hpos : 1 ≤ maxSize) (hmaxSize : maxSize < 2 ^ 64)
    (uninitialised : Nat → UInt8) :
    ReopensAs uninitialised disk maxSize (takeWithin frameLength maxSize saved) := by
  obtain ⟨file, hnew, hrefines, -⟩ := h.new_refines hcapacity hmaxSize uninitialised
  refine ⟨file, by rw [hnew], hrefines.savedElems_eq.1, fun ops hops => ?_⟩
  cases hrefines with
  | nothing => exact absurd hpos (by decide)
  | queue hrefines => exact (hrefines.outputs_eq uninitialised hops).1

end OnDisk

/-! ## 7. Crash safety -/

namespace Realizes

variable {path : CircularFilePath} {spec : QueuePath} {disk : CircularFileOnDisk}
  {capacity : Option Nat} {saved : List Bytes} (uninitialised : Nat → UInt8)

theorem found_after_new (h : Realizes path spec) {maxSize : Nat} (hmaxSize : maxSize < 2 ^ 64)
    (hdisk : OnDisk True disk capacity saved)
    (houtcome : CrashOutcome spec (.new maxSize) capacity saved) :
    FoundAfterCrash uninitialised path disk (.new maxSize) := by
  intro completed hpos hcompleted
  have hnonzero : some maxSize ≠ some 0 := fun hzero => by
    rw [Option.some.inj hzero] at hpos
    exact absurd hpos (by decide)
  have hcapacity : spec.capacity ≠ some 0 := by
    apply (newSucceeds_iff uninitialised h hmaxSize).mp
    unfold CircularFilePath.NewSucceeds
    simp only [hcompleted]
    rfl
  have hold := h.onDisk.elemsOnDisk_eq uninitialised
  have hresult : completed.savedElems = takeWithin frameLength maxSize spec.saved := by
    obtain ⟨file, hnew, hrefines, -⟩ :=
      h.onDisk.new_refines hcapacity hmaxSize uninitialised
    rw [hnew] at hcompleted
    obtain rfl := Except.ok.inj hcompleted
    exact hrefines.savedElems_eq.1
  cases houtcome with
  | before =>
    refine ⟨_, hdisk.reopensAs hcapacity hpos hmaxSize uninitialised, .inl ?_⟩
    rw [hold]
    exact takeWithin_isLongestPrefix frameLength maxSize spec.saved
  | after =>
    have hnext : spec.next (.new maxSize) =
        .opened maxSize ⟨⟨takeWithin frameLength maxSize spec.saved, []⟩, []⟩ := by
      rw [QueuePath.next, QueuePath.step, if_neg hcapacity]
    rw [hnext] at hdisk
    have hall := hdisk.takeWithin_capacity
    have hreopens := hdisk.reopensAs hnonzero hpos hmaxSize uninitialised
    rw [show takeWithin frameLength maxSize _ = _ from hall] at hreopens
    exact ⟨_, hreopens, .inr (.inr hresult.symm)⟩
  | emptyBefore hnew =>
    exact ⟨_, hdisk.reopensAs hcapacity hpos hmaxSize uninitialised, .inr (.inl rfl)⟩
  | emptyAfter hnew =>
    obtain rfl := CircularFileEvent.new.inj hnew
    exact ⟨_, hdisk.reopensAs hnonzero hpos hmaxSize uninitialised, .inr (.inl rfl)⟩

theorem found_after_call (h : Realizes path spec) {op : CircularFileOp}
    (hok : path.Admissible (.call op)) (hdisk : OnDisk True disk capacity saved)
    (houtcome : CrashOutcome spec (.call op) capacity saved) :
    FoundAfterCrash uninitialised path disk (.call op) := by
  intro client hpath hpos
  subst hpath
  cases h with
  | @opened _ maxSize queue h =>
  obtain ⟨hsaved, -, hmaxSize⟩ := h.savedElems_eq
  obtain ⟨-, hcall⟩ := h.call uninitialised hok.1 hok.2
  rw [hmaxSize] at hpos ⊢
  have hnonzero : some maxSize ≠ some 0 := fun hzero => by
    rw [Option.some.inj hzero] at hpos
    exact absurd hpos (by decide)
  have hlt : maxSize < 2 ^ 64 := by
    cases h with
    | nothing => exact Nat.pow_pos (by decide)
    | queue h =>
      obtain ⟨contents, hkeeps⟩ := h.keeps
      exact hkeeps.maxSize_lt
  -- the capacity is the same before and after a call
  have hreopens : ∀ elems, OnDisk True disk (some maxSize) elems →
      ReopensAs uninitialised disk maxSize elems := by
    intro elems hdisk
    have hall := hdisk.takeWithin_capacity
    have hreopens := hdisk.reopensAs hnonzero hpos hlt uninitialised
    rwa [show takeWithin frameLength maxSize _ = _ from hall] at hreopens
  cases houtcome with
  | before => exact ⟨_, hreopens _ hdisk, .inl hsaved.symm⟩
  | after => exact ⟨_, hreopens _ hdisk, .inr hcall.savedElems_eq.1.symm⟩
  | emptyBefore hnew => cases hnew
  | emptyAfter hnew => cases hnew

end Realizes

/-- **A circular file survives a crash at any point of any operation**, also after earlier crashes:
what is found is the queue before or after, or for an interrupted resizing an empty one.  The data
file is never longer than the maximum size on disk. -/
theorem circularFile_crash_safe (uninitialised : Nat → UInt8) (events : List CrashingEvent)
    (hevents : EachStep (CircularFilePath.nextOrCrash uninitialised)
      CircularFilePath.AdmissibleOrCrash .absent events)
    (path : CircularFilePath)
    (hpath : run (CircularFilePath.nextOrCrash uninitialised) .absent events = path)
    (event : CircularFileEvent) (hevent : path.Admissible event) (taken written : Nat) :
    WithinRecorded (path.crashed uninitialised event taken written) ∧
      FoundAfterCrash uninitialised path (path.crashed uninitialised event taken written)
        event := by
  have hreached : ∃ spec, Realizes path spec := by
    have hstep : ∀ path event, (∃ spec, Realizes path spec) →
        CircularFilePath.AdmissibleOrCrash path event →
        ∃ spec, Realizes (path.nextOrCrash uninitialised event) spec :=
      fun _ _ h hok => Realizes.nextOrCrash uninitialised h hok
    rw [← hpath]
    exact (throughout_of_step hstep ⟨_, realizes_absent⟩ hevents).last
  obtain ⟨spec, h⟩ := hreached
  obtain ⟨capacity, saved, hdisk, houtcome⟩ := h.crash uninitialised hevent taken written
  refine ⟨hdisk.withinRecorded, ?_⟩
  cases event with
  | new maxSize => exact h.found_after_new uninitialised hevent hdisk houtcome
  | call op => exact h.found_after_call uninitialised hevent hdisk houtcome

/-- The queue goes round the end of the file; the process dies while it grows the file, and then
again after three bytes of a save. -/
def crashingRun : List CrashingEvent :=
  (shrinkingRun.map .event) ++ [.crash (.new 30) 2 0, .event (.new 30),
    .event (.call (.append [5])), .crash (.call .save) 0 3, .event (.new 30),
    .event (.call (.append [6, 7]))]

theorem circularFile_crash_safe_crashingRun :
    ∃ path, run (CircularFilePath.nextOrCrash fun _ => 0) .absent crashingRun = path ∧
      WithinRecorded (path.crashed (fun _ => 0) (.call .save) 0 2) ∧
      FoundAfterCrash (fun _ => 0) path (path.crashed (fun _ => 0) (.call .save) 0 2)
        (.call .save) :=
  ⟨_, rfl, circularFile_crash_safe (fun _ => 0) crashingRun (by decide) _ rfl (.call .save)
    (by decide) 0 2⟩

end EventRecorder
