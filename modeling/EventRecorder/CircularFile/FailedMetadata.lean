import EventRecorder.CircularFile.Metadata
import EventRecorder.Theory.Run

/-!
# Metadata writes that fail

Every write of the metadata may fail, which leaves the old file in place.  The key file in memory
has been changed by then: a failed `set_metadata` leaves a new head in it, and a later
`add_to_size`, which sets the size alone, writes that head to disk.
-/

namespace EventRecorder

open Theory

/-- The calls on a circular file, each with whether its metadata write succeeds. -/
inductive MeteredOp where
  | append (elem : Bytes)
  | save (saved : Bool)
  | read (dataBytesToRead : Nat) (saved : Bool)
  | remove (token : Nat) (saved : Bool)
  | purge (saved : Bool)
  deriving DecidableEq, Repr

namespace EmerCircularFile

def call (self : EmerCircularFile) : MeteredOp → EmerCircularFile
  | .append elem => (self.append elem).2
  | .save saved => (self.save (if saved then .none else .metadata)).2
  | .read dataBytesToRead saved => (self.read dataBytesToRead saved).2.2
  | .remove token saved => (self.remove token saved).2
  | .purge saved => (self.purge saved).2

/-- The call writes the metadata file, and the write succeeds. -/
def WritesMetadata (self : EmerCircularFile) : MeteredOp → Prop
  | .append _ => False
  | .save saved => self.writeBuffer.length ≠ 0 ∧ saved = true
  | .read dataBytesToRead saved => (self.read dataBytesToRead saved).2.1 = true ∧ saved = true
  | .remove token saved => token ≠ 0 ∧ saved = true
  | .purge saved => self.size ≠ 0 ∧ saved = true

/-- Tokens denote saved bytes, and the sums that the call computes stay below `2^63`. -/
def Admits (self : EmerCircularFile) : MeteredOp → Prop
  | .append elem =>
    self.size + self.writeBuffer.length + (8 + elem.length) < 2 ^ 63 ∧
      self.writeBuffer.length + (8 + elem.length) < 2 ^ 32
  | .remove token _ => token ≤ self.size ∧ self.head + token < 2 ^ 63
  | _ => True

instance (self : EmerCircularFile) : ∀ op, Decidable (self.Admits op)
  | .append _ => inferInstanceAs (Decidable (_ ∧ _))
  | .remove _ _ => inferInstanceAs (Decidable (_ ∧ _))
  | .save _ => isTrue trivial
  | .read _ _ => isTrue trivial
  | .purge _ => isTrue trivial

/-- The metadata file holds the maximum size, the size and the head of the object. -/
def Described (self : EmerCircularFile) : Prop :=
  ∃ keyFile, self.disk.metadataFile = .parsed keyFile ∧
    Describes keyFile self.maxSize self.size self.head

/-- Opening the files again at the same maximum size yields an object that reads the same. -/
def ReopensAlike (self : EmerCircularFile) (uninitialised : Nat → UInt8) : Prop :=
  ∃ file disk, new self.disk self.maxSize false uninitialised .none = (.ok file, disk) ∧
    ∀ budget saved, (file.read budget saved).1 = (self.read budget saved).1

/-- What a call that writes the metadata has to leave behind. -/
def Truthful (uninitialised : Nat → UInt8) (self : EmerCircularFile) (op : MeteredOp) : Prop :=
  self.WritesMetadata op → (self.call op).Described ∧ (self.call op).ReopensAlike uninitialised

/-- A save that writes the metadata finds the object's own head in the key file. -/
def HeadAgrees (self : EmerCircularFile) : MeteredOp → Prop
  | .save saved => self.WritesMetadata (.save saved) →
      self.metadataKeyFile.getInt64 metadataGroupName headKey = .ok (self.head : Int)
  | _ => True

/-! ## 1. What every opened file keeps -/

structure WellFormed (file : EmerCircularFile) : Prop where
  maxSize_lt : file.maxSize < 2 ^ 64
  maxSize_eq : file.metadataKeyFile.getUint64 metadataGroupName maxSizeKey = .ok file.maxSize
  dataFile : file.disk.dataFile ≠ none
  fits : file.size + file.writeBuffer.length ≤ file.maxSize
  head_lt : file.maxSize = 0 ∨ file.head < file.maxSize
  head_offset : file.head < 2 ^ 63

variable {self : EmerCircularFile}

theorem WellFormed.withKeyFile {keyFile : KeyFile} (h : WellFormed self)
    (hmax : keyFile.getUint64 metadataGroupName maxSizeKey = .ok self.maxSize) :
    WellFormed { self with metadataKeyFile := keyFile } :=
  { h with maxSize_eq := hmax }

theorem getUint64_maxSize_setSizeHead {keyFile : KeyFile} {maxSize : Nat} (newSize : Nat)
    (newHead : Int)
    (h : keyFile.getUint64 metadataGroupName maxSizeKey = .ok maxSize) :
    ((keyFile.setUint64 metadataGroupName sizeKey newSize).setInt64 metadataGroupName headKey
      newHead).getUint64 metadataGroupName maxSizeKey = .ok maxSize :=
  (KeyFile.getParsed_setValue_ne_eq_ok (by decide)).mpr ((getUint64_maxSize_setSize newSize).mpr h)

theorem WellFormed.setMetadata (h : WellFormed self) {size head : Nat} (hsize : size ≤ self.size)
    (hhead : self.maxSize = 0 ∨ head < self.maxSize) (hoffset : head < 2 ^ 63) (saved : Bool) :
    WellFormed (self.setMetadata size head saved).2 := by
  have hmax := getUint64_maxSize_setSizeHead size head h.maxSize_eq
  have hfits := h.fits
  rw [setMetadata_eq]
  cases saved with
  | false => exact h.withKeyFile hmax
  | true =>
    refine ⟨h.maxSize_lt, hmax, h.dataFile, ?_, hhead, hoffset⟩
    show size + self.writeBuffer.length ≤ self.maxSize
    omega

/-- Invalid data is only found before the end of what the size covers. -/
theorem readElems_diskBytes_lt {budget fuel : Nat} {stream : FileInputStream}
    {elemArray : List Bytes} {currDataBytes currDiskBytes : Nat} {result : ElemsRead}
    (h : self.readElems budget fuel stream elemArray currDataBytes currDiskBytes = .ok result)
    (hinvalid : result.hasInvalid = true) : result.diskBytes < self.size := by
  -- by rounds of the loop, of which only the test for an empty element ends it as invalid
  induction fuel generalizing stream elemArray currDataBytes currDiskBytes with
  | zero =>
    rw [readElems] at h
    split at h
    · cases h
    · cases h
      cases hinvalid
  | succ fuel ih =>
    rw [readElems] at h
    split at h
    · rename_i hlt
      split at h
      · cases h
      simp only at h
      split at h
      · cases h
        exact hlt
      split at h
      · cases h
        cases hinvalid
      split at h
      · cases h
      · exact ih h
    · cases h
      cases hinvalid

/-- A read either changes nothing or, on invalid data, sets a smaller size. -/
theorem read_state (self : EmerCircularFile) (budget : Nat) (saved : Bool) :
    (self.read budget saved).2 = (false, self) ∨
    ∃ size, size < self.size ∧
      (self.read budget saved).2 = (true, (self.setMetadata size self.head saved).2) := by
  rw [read]
  split
  · exact .inl rfl
  split
  · exact .inl rfl
  split
  · exact .inl rfl
  -- of the reads that come to an end only an invalid one touches the metadata
  · rename_i result heq
    split
    · rename_i hinvalid
      exact .inr ⟨result.diskBytes, readElems_diskBytes_lt heq hinvalid, rfl⟩
    · exact .inl rfl

theorem sub_token {size token : Nat} (hsize : size < 2 ^ 64) (htoken : token ≤ size) :
    (size + (2 ^ 64 - token)) % 2 ^ 64 = size - token := by
  omega

theorem WellFormed.call (h : WellFormed self) {op : MeteredOp} (hop : self.Admits op) :
    WellFormed (self.call op) := by
  have hfits := h.fits
  have hlt := h.maxSize_lt
  have hhead := h.head_lt
  cases op with
  | append elem =>
    obtain ⟨hsum, hbuffer⟩ := hop
    rw [EmerCircularFile.call, append_of_sumFits (by omega) (fun _ => by omega)]
    by_cases hroom : self.size + self.writeBuffer.length + (8 + elem.length) ≤ self.maxSize
    · rw [if_pos hroom]
      refine { h with fits := ?_ }
      show self.size + (self.writeBuffer ++ frame elem).length ≤ _
      rw [List.length_append, length_frame, frameLength, ← Nat.add_assoc]
      exact hroom
    · rw [if_neg hroom]
      exact h
  | save saved =>
    -- no save changes the head, and only the one that is recorded changes the size
    have houtcome := self.save_outcome (by omega) (if saved then .none else .metadata)
    rw [EmerCircularFile.call]
    generalize self.save (if saved then .none else .metadata) = result at houtcome ⊢
    cases houtcome with
    | nothingToSave => exact h
    | notOpened => exact h
    | notWritten => exact { h with dataFile := by simp }
    | sizeNotSaved =>
      exact { h with
        maxSize_eq := (getUint64_maxSize_setSize _).mpr h.maxSize_eq, dataFile := by simp }
    | saved hne hdata hopen hwritten hfault hkeyFile =>
      subst hkeyFile
      exact {
        maxSize_lt := h.maxSize_lt
        maxSize_eq := (getUint64_maxSize_setSize _).mpr h.maxSize_eq
        dataFile := by simp
        fits := hfits
        head_lt := h.head_lt
        head_offset := h.head_offset }
  | read budget saved =>
    rw [EmerCircularFile.call]
    rcases self.read_state budget saved with heq | ⟨size, hsize, heq⟩
    · rwa [heq]
    · rw [heq]
      exact h.setMetadata hsize.le h.head_lt h.head_offset saved
  | remove token saved =>
    obtain ⟨htoken, hoffset⟩ := hop
    rw [EmerCircularFile.call, remove]
    split
    · exact h
    · rename_i hpos
      have hle := Nat.mod_le (self.head + token) self.maxSize
      rw [sub_token (by omega) htoken, Nat.mod_eq_of_lt (show self.head + token < 2 ^ 64 by omega)]
      exact h.setMetadata (by omega) (.inr (Nat.mod_lt _ (by omega))) (by omega) saved
  | purge saved =>
    rw [EmerCircularFile.call, purge]
    split
    · exact h
    · exact h.setMetadata (by omega) (.inr (by omega)) (by decide) saved

/-! ## 2. Opening again -/

/-- Reading looks at the data file, the sizes and the head only. -/
theorem readElems_congr {file : EmerCircularFile} (hmaxSize : file.maxSize = self.maxSize)
    (hsize : file.size = self.size) (budget fuel : Nat) (stream : FileInputStream)
    (elemArray : List Bytes) (currDataBytes currDiskBytes : Nat) :
    file.readElems budget fuel stream elemArray currDataBytes currDiskBytes =
      self.readElems budget fuel stream elemArray currDataBytes currDiskBytes := by
  -- the maximum size tells where the file ends, the size when the loop does
  have hbytes : ∀ stream count, file.readBytes stream count = self.readBytes stream count := by
    intro stream count
    simp only [readBytes, continueReadingFromStart, hmaxSize]
  induction fuel generalizing stream elemArray currDataBytes currDiskBytes with
  | zero => simp only [readElems, hsize]
  | succ fuel ih => simp only [readElems, readElemSize, appendElemToArray, hbytes, hsize, ih]

theorem read_congr {file : EmerCircularFile} (hdisk : file.disk.dataFile = self.disk.dataFile)
    (hmaxSize : file.maxSize = self.maxSize) (hsize : file.size = self.size)
    (hhead : file.head = self.head) (budget : Nat) (saved : Bool) :
    (file.read budget saved).1 = (self.read budget saved).1 := by
  simp only [read, hdisk, hsize, hhead, readElems_congr hmaxSize hsize]
  split
  · rfl
  split
  · rfl
  split
  · rfl
  · split <;> rfl

theorem Described.reopensAlike (h : self.Described) (hwell : WellFormed self)
    (hpos : self.maxSize ≠ 0) (uninitialised : Nat → UInt8) : self.ReopensAlike uninitialised := by
  obtain ⟨keyFile, hfile, hdescribes⟩ := h
  obtain ⟨contents, hdata⟩ := Option.ne_none_iff_exists'.mp hwell.dataFile
  have hfits := hwell.fits
  have hhead := hwell.head_lt
  refine ⟨_, _, new_of_describes hdata hfile hdescribes (by omega) (by omega) uninitialised,
    fun budget saved => ?_⟩
  apply read_congr <;> rfl

/-! ## 3. One call -/

theorem described_setMetadata (h : WellFormed self) {size head : Nat} (hsize : size ≤ self.size)
    (hhead : head < 2 ^ 63) : (self.setMetadata size head true).2.Described := by
  have hfits := h.fits
  have hlt := h.maxSize_lt
  exact ⟨_, rfl, describes_setSizeHead h.maxSize_eq (by omega) hhead⟩

/-- A save that writes the metadata leaves it true exactly if the key file had the head right. -/
theorem described_save (h : WellFormed self) (hne : self.writeBuffer.length ≠ 0) :
    (self.save .none).2.Described ↔
      self.metadataKeyFile.getInt64 metadataGroupName headKey = .ok (self.head : Int) := by
  have hfits := h.fits
  have hlt := h.maxSize_lt
  obtain ⟨contents, hdata⟩ := Option.ne_none_iff_exists'.mp h.dataFile
  have hok : (self.save .none).1 = .ok () := save_none_ok (by omega) hdata
  have houtcome := self.save_outcome (by omega) .none
  generalize self.save .none = result at houtcome hok ⊢
  -- with a full write buffer and no failure the save gets as far as recording the size
  cases houtcome with
  | nothingToSave hempty => exact absurd hempty hne
  | notOpened => cases hok
  | notWritten => cases hok
  | sizeNotSaved => cases hok
  | saved _ _ _ _ _ hkeyFile =>
    subst hkeyFile
    constructor
    · rintro ⟨keyFile, hfile, hdescribes⟩
      cases hfile
      exact ((describes_setSize (by omega)).mp hdescribes).2
    · intro hhead
      exact ⟨_, rfl, (describes_setSize (by omega)).mpr ⟨h.maxSize_eq, hhead⟩⟩

/-- A metadata write by an object of some capacity has only to be true for it to reopen alike. -/
theorem truthful_of_described (uninitialised : Nat → UInt8) (h : WellFormed self) {op : MeteredOp}
    (hop : self.Admits op) (hpos : self.WritesMetadata op → (self.call op).maxSize ≠ 0)
    (hdescribed : self.WritesMetadata op → (self.call op).Described) :
    self.Truthful uninitialised op :=
  fun hwrites => ⟨hdescribed hwrites,
    (hdescribed hwrites).reopensAlike (h.call hop) (hpos hwrites) uninitialised⟩

/-- One call: what it writes is true exactly when it is not a save over a head left by a failure. -/
theorem truthful_iff_headAgrees (uninitialised : Nat → UInt8) (h : WellFormed self)
    {op : MeteredOp} (hop : self.Admits op) :
    self.Truthful uninitialised op ↔ self.HeadAgrees op := by
  have hfits := h.fits
  have hlt := h.maxSize_lt
  cases op with
  | append elem => exact iff_of_true (fun hwrites => hwrites.elim) trivial
  | save saved =>
    constructor
    · intro htruthful hwrites
      obtain ⟨hne, rfl⟩ := hwrites
      exact (described_save h hne).mp (htruthful ⟨hne, rfl⟩).1
    -- an object of no capacity never has anything to save
    · refine fun hagrees => truthful_of_described uninitialised h hop (fun hwrites => ?_)
        fun hwrites => ?_
      · obtain ⟨hne, rfl⟩ := hwrites
        rw [EmerCircularFile.call, save_maxSize]
        omega
      · have hhead := hagrees hwrites
        obtain ⟨hne, rfl⟩ := hwrites
        exact (described_save h hne).mpr hhead
  -- a read, a remove and a purge write size and head together, so nothing old gets to disk
  | read budget saved =>
    refine iff_of_true (truthful_of_described uninitialised h hop (fun hwrites => ?_)
      fun hwrites => ?_) trivial
    all_goals
      obtain ⟨hinvalid, rfl⟩ := hwrites
      rcases self.read_state budget true with heq | ⟨size, hsize, heq⟩
      · rw [heq] at hinvalid
        cases hinvalid
      rw [EmerCircularFile.call, heq]
    · rw [setMetadata_maxSize]
      omega
    · exact described_setMetadata h hsize.le h.head_offset
  | remove token saved =>
    obtain ⟨htoken, hoffset⟩ := hop
    refine iff_of_true (truthful_of_described uninitialised h ⟨htoken, hoffset⟩ (fun hwrites => ?_)
      fun hwrites => ?_) trivial
    all_goals obtain ⟨hpos, rfl⟩ := hwrites
    · rw [EmerCircularFile.call, remove_maxSize]
      omega
    · have hle := Nat.mod_le (self.head + token) self.maxSize
      rw [EmerCircularFile.call, remove, if_neg hpos, sub_token (by omega) htoken,
        Nat.mod_eq_of_lt (show self.head + token < 2 ^ 64 by omega)]
      exact described_setMetadata h (by omega) (by omega)
  | purge saved =>
    refine iff_of_true (truthful_of_described uninitialised h hop (fun hwrites => ?_)
      fun hwrites => ?_) trivial
    all_goals obtain ⟨hpos, rfl⟩ := hwrites
    · rw [EmerCircularFile.call, purge_maxSize]
      omega
    · rw [EmerCircularFile.call, purge, if_neg hpos]
      exact described_setMetadata h (by omega) (by decide)

/-! ## 4. Files as they are opened -/

theorem parseMetadata_eq_ok {keyFile : KeyFile} {maxSize size head : Nat}
    (h : parseMetadata keyFile = .ok (maxSize, size, head)) :
    keyFile.getUint64 metadataGroupName maxSizeKey = .ok maxSize ∧ size ≤ maxSize ∧
      head < maxSize ∧ head < 2 ^ 63 := by
  -- each check that fails ends with an error
  rw [parseMetadata] at h
  split at h
  · cases h
  rename_i m hmax
  split at h
  · cases h
  rename_i s hsize
  split at h
  · cases h
  split at h
  · cases h
  rename_i i hhead
  split at h
  · cases h
  · have hlt := KeyFile.getInt64_lt hhead
    cases h
    refine ⟨hmax, ?_, ?_, ?_⟩ <;> omega

theorem trimmedSizeFrom_le {buffer : Bytes} {numBytes fuel currPos size : Nat}
    (hpos : currPos ≤ numBytes) (h : trimmedSizeFrom buffer numBytes fuel currPos = some size) :
    size ≤ numBytes := by
  induction fuel generalizing currPos with
  | zero => cases h
  | succ fuel ih =>
    rw [trimmedSizeFrom] at h
    split at h
    · simp only at h
      split at h
      · cases h
        exact hpos
      · exact ih (by omega) h
    · cases h
      exact hpos

theorem getUint64_maxSize_setMaxSize {keyFile : KeyFile} {maxSize : Nat} (h : maxSize < 2 ^ 64) :
    (keyFile.setUint64 metadataGroupName maxSizeKey maxSize).getUint64 metadataGroupName
      maxSizeKey = .ok maxSize :=
  KeyFile.getUint64_setUint64 keyFile metadataGroupName maxSizeKey h

/-- A data file that has been replaced is described by the metadata file. -/
theorem overwrite_ok {buffer : Bytes} {prevMaxSize : Nat} {fault : InitFault}
    (hmaxSize : self.maxSize < 2 ^ 64) (hbuffer : buffer.length < 2 ^ 64)
    (hne : prevMaxSize ≠ self.maxSize)
    (h : (self.overwrite buffer prevMaxSize fault).1 = .ok ()) :
    ∃ keyFile, Describes keyFile self.maxSize buffer.length 0 ∧
      (self.overwrite buffer prevMaxSize fault).2 =
        { self with
          disk := ⟨some buffer, .parsed keyFile⟩, metadataKeyFile := keyFile
          size := buffer.length, head := 0 } := by
  have hfault : fault ≠ .metadata ∧ fault ≠ .replaceContents ∧ fault ≠ .addToSize := by
    refine ⟨?_, ?_, ?_⟩ <;> rintro rfl <;> cases h
  obtain ⟨hmetadata, hreplace, hadd⟩ := hfault
  have hlen : buffer.length < 18446744073709551616 := hbuffer
  let reset (keyFile : KeyFile) : KeyFile :=
    (keyFile.setUint64 metadataGroupName sizeKey 0).setInt64 metadataGroupName headKey 0
  let setMax (keyFile : KeyFile) : KeyFile :=
    keyFile.setUint64 metadataGroupName maxSizeKey self.maxSize
  -- the maximum size is recorded before the size and the head are, or after them
  rcases lt_or_gt_of_ne hne with hlarger | hsmaller
  · refine ⟨(reset (setMax self.metadataKeyFile)).setUint64 metadataGroupName sizeKey buffer.length,
      (describes_setSize hbuffer).mpr ⟨getUint64_maxSize_setSizeHead _ _
        (getUint64_maxSize_setMaxSize hmaxSize),
        KeyFile.getInt64_setInt64 _ _ _ (by decide) (by decide)⟩, ?_⟩
    have hafter : ¬ self.maxSize < prevMaxSize := by omega
    simp [overwrite, setMaxSizeKey, setMetadata, addToSize, saveMetadataFile, hmetadata, hreplace,
      hadd, hlarger, hafter, Nat.mod_eq_of_lt hlen, reset, setMax]
  · refine ⟨(setMax (reset self.metadataKeyFile)).setUint64 metadataGroupName sizeKey buffer.length,
      (describes_setSize hbuffer).mpr ⟨getUint64_maxSize_setMaxSize hmaxSize,
        (KeyFile.getParsed_setValue_ne_eq_ok (by decide)).mpr
          (KeyFile.getInt64_setInt64 _ _ _ (by decide) (by decide))⟩, ?_⟩
    have hbefore : ¬ prevMaxSize < self.maxSize := by omega
    simp [overwrite, setMaxSizeKey, setMetadata, addToSize, saveMetadataFile, hmetadata, hreplace,
      hadd, hbefore, hsmaller, Nat.mod_eq_of_lt hlen, reset, setMax]

theorem resize_wellFormed {prevMaxSize : Nat} {uninitialised : Nat → UInt8} {fault : InitFault}
    (h : prevMaxSize = self.maxSize → WellFormed self) (hmaxSize : self.maxSize < 2 ^ 64)
    (hwriteBuffer : self.writeBuffer = [])
    (hok : (self.resize prevMaxSize uninitialised fault).1 = .ok ()) :
    WellFormed (self.resize prevMaxSize uninitialised fault).2 := by
  unfold resize at hok ⊢
  split at hok
  · rename_i heq
    rw [if_pos heq]
    exact h heq
  rename_i hne
  rw [if_neg hne]
  simp only at hok ⊢
  split at hok
  · cases hok
  rename_i buffer _
  split at hok
  · cases hok
  rename_i newSize htrimmed
  have hnewSize := trimmedSizeFrom_le (Nat.zero_le _) htrimmed
  have hlen : (buffer.take newSize).length ≤ newSize := List.length_take_le _ _
  -- the trimmed buffer is what the file holds from now on
  obtain ⟨keyFile, hdescribes, heq⟩ := overwrite_ok hmaxSize (by omega) hne hok
  rw [heq]
  refine ⟨hmaxSize, hdescribes.maxSize_eq, by simp, ?_, ?_, Nat.pow_pos (by decide)⟩
  · rw [hwriteBuffer]
    show (buffer.take newSize).length + 0 ≤ self.maxSize
    omega
  · exact Nat.eq_zero_or_pos self.maxSize

/-- An object as it is before its files are looked at. -/
def unopened (disk : CircularFileOnDisk) (maxSize : Nat) : EmerCircularFile :=
  { disk := disk, metadataKeyFile := KeyFile.empty, writeBuffer := [], maxSize := maxSize
    size := 0, head := 0 }

theorem initableInit_wellFormed {disk : CircularFileOnDisk} {maxSize : Nat} {reinitialized : Bool}
    {uninitialised : Nat → UInt8} {fault : InitFault} (hmaxSize : maxSize < 2 ^ 64)
    (hok : ((unopened disk maxSize).initableInit reinitialized uninitialised fault).1 = .ok ()) :
    WellFormed ((unopened disk maxSize).initableInit reinitialized uninitialised fault).2 := by
  unfold initableInit at hok ⊢
  split at hok
  · cases hok
  rename_i happend
  rw [if_neg happend]
  simp only at hok ⊢
  split at hok
  · cases hok
  -- initialised afresh: the empty file with the wanted maximum size
  · have hfresh : ∀ keyFile, WellFormed (setMaxSizeKey { unopened disk maxSize with
        disk := ⟨some (disk.dataFile.getD []), disk.metadataFile⟩
        metadataKeyFile := keyFile } true) := fun keyFile =>
      ⟨hmaxSize, getUint64_maxSize_setMaxSize hmaxSize, by simp [setMaxSizeKey], Nat.zero_le _,
        Nat.eq_zero_or_pos maxSize, Nat.pow_pos (by decide)⟩
    exact (hfresh _).setMetadata (Nat.zero_le _) (Nat.eq_zero_or_pos maxSize) (by decide) _
  · split at hok
    · cases hok
    rename_i prevMaxSize size head hparse
    obtain ⟨hmax, hsizeLe, hheadLt, hhead63⟩ := parseMetadata_eq_ok hparse
    refine resize_wellFormed (fun heq => ?_) hmaxSize rfl hok
    have heq : prevMaxSize = maxSize := heq
    subst heq
    exact ⟨hmaxSize, hmax, by simp, hsizeLe, .inr hheadLt, hhead63⟩

/-- Every circular file that could be opened is well formed. -/
theorem new_wellFormed {disk : CircularFileOnDisk} {maxSize : Nat} {reinitialized : Bool}
    {uninitialised : Nat → UInt8} {fault : InitFault} {file : EmerCircularFile}
    (hmaxSize : maxSize < 2 ^ 64)
    (h : (new disk maxSize reinitialized uninitialised fault).1 = .ok file) : WellFormed file := by
  unfold new at h
  simp only at h
  split at h
  · cases h
  · rename_i self heq
    cases h
    have hwell := @initableInit_wellFormed disk maxSize reinitialized uninitialised fault hmaxSize
    rw [unopened, heq] at hwell
    exact hwell rfl

/-! ## 5. Whole runs -/

/-- **In every run of calls, each call that writes the metadata leaves it true exactly when no save
writes it over a head that a failed write has left in the key file.** -/
theorem metadata_truthful_iff (disk : CircularFileOnDisk) (maxSize : Nat)
    (hmaxSize : maxSize < 2 ^ 64) (reinitialized : Bool) (uninitialised : Nat → UInt8)
    (fault : InitFault) (file : EmerCircularFile)
    (hfile : (new disk maxSize reinitialized uninitialised fault).1 = .ok file)
    (ops : List MeteredOp) (hops : EachStep call Admits file ops) :
    EachStep call (Truthful uninitialised) file ops ↔ EachStep call HeadAgrees file ops :=
  eachStep_congr (fun _ _ hwell hop => hwell.call hop)
    (fun _ _ hwell hop => truthful_iff_headAgrees uninitialised hwell hop)
    (new_wellFormed hmaxSize hfile) hops

/-- A remove whose metadata write fails, followed by a save whose metadata write succeeds. -/
def failedRemoveRun : List MeteredOp :=
  [.append [1], .save true, .read 8 true, .remove 9 false, .append [2], .save true]

theorem metadata_truthful_iff_failedRemoveRun :
    ∃ file, (new ⟨none, .absent⟩ 64 false (fun _ => 0) .none).1 = .ok file ∧
      (EachStep call (Truthful fun _ => 0) file failedRemoveRun ↔
        EachStep call HeadAgrees file failedRemoveRun) :=
  ⟨_, rfl, metadata_truthful_iff ⟨none, .absent⟩ 64 (by decide) false (fun _ => 0) .none _ rfl
    failedRemoveRun (by decide)⟩

/-- The save leaves the head 9 on disk while the object goes on with the head 0. -/
theorem metadata_untruthful_after_failed_remove :
    ∃ file, (new ⟨none, .absent⟩ 64 false (fun _ => 0) .none).1 = .ok file ∧
      EachStep call Admits file failedRemoveRun ∧
      ¬ EachStep call (Truthful fun _ => 0) file failedRemoveRun := by
  refine ⟨_, rfl, by decide, fun h => ?_⟩
  obtain ⟨⟨keyFile, hfile, hdescribes⟩, -⟩ :=
    h (failedRemoveRun.take 5) (.save true) (List.prefix_refl _) ⟨by decide, rfl⟩
  have hhead := hdescribes.head_eq
  obtain rfl := KeyFileOnDisk.parsed.inj hfile
  revert hhead
  decide

end EmerCircularFile

end EventRecorder
