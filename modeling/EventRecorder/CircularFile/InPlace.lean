import EventRecorder.CircularFile.Faults

/-!
# Rings that are in their place

Reading finds the end of the ring by the end of the data file.  A ring that starts where its data
file does never goes round its end, so that a longer data file does no harm to it.  Any other ring
needs a data file that ends where the ring does, and whether it has one is settled by the opening:
all that follows writes within the ring.
-/

namespace EventRecorder

open Theory

/-- The ring starts at the start of the data file, or the data file is no longer than the ring. -/
def CircularFileOnDisk.InPlace (disk : CircularFileOnDisk) : Prop :=
  ∀ (keyFile : KeyFile) (maxSize head : Nat) (contents : Bytes),
    disk.metadataFile = .parsed keyFile →
    keyFile.getUint64 metadataGroupName maxSizeKey = .ok maxSize →
    keyFile.getInt64 metadataGroupName headKey = .ok (head : Int) → head ≠ 0 →
    disk.dataFile = some contents → contents.length ≤ maxSize

/-- The opening takes over an empty ring that starts inside its data file, and the data file goes on
behind the end of that ring. -/
def OverlongRing (disk : CircularFileOnDisk) (maxSize : Nat) (reinitialized : Bool) : Prop :=
  match disk, reinitialized with
  | ⟨some contents, .parsed keyFile⟩, false =>
    match EmerCircularFile.parseMetadata keyFile with
    | .error _ => False
    | .ok (prevMaxSize, size, head) =>
      prevMaxSize = maxSize ∧ size = 0 ∧ head ≠ 0 ∧ maxSize < contents.length
  | _, _ => False

instance (disk : CircularFileOnDisk) (maxSize : Nat) (reinitialized : Bool) :
    Decidable (OverlongRing disk maxSize reinitialized) := by
  unfold OverlongRing
  split
  · split
    · exact isFalse id
    · exact inferInstanceAs (Decidable (_ ∧ _ ∧ _ ∧ _))
  · exact isFalse id

/-! ## 1. Files in place -/

section Files

variable {disk : CircularFileOnDisk} {dataFile : Option Bytes} {contents : Bytes}
  {keyFile : KeyFile} {maxSize head size : Nat}

theorem inPlace_of_headAtStart
    (h : keyFile.getInt64 metadataGroupName headKey = .ok ((0 : Nat) : Int)) :
    CircularFileOnDisk.InPlace ⟨dataFile, .parsed keyFile⟩ := by
  intro keyFile' maxSize head contents hkeyFile hmax hhead hne hdata
  cases hkeyFile
  rw [h] at hhead
  have hzero : ((0 : Nat) : Int) = (head : Int) := Except.ok.inj hhead
  omega

theorem inPlace_of_length_le
    (hmax : keyFile.getUint64 metadataGroupName maxSizeKey = .ok maxSize)
    (hcontents : contents.length ≤ maxSize) :
    CircularFileOnDisk.InPlace ⟨some contents, .parsed keyFile⟩ := by
  intro keyFile' maxSize' head contents' hkeyFile hmax' hhead hne hdata
  cases hkeyFile
  cases hdata
  rw [hmax] at hmax'
  cases hmax'
  exact hcontents

namespace CircularFileOnDisk.InPlace

theorem createData (h : disk.InPlace) : (DiskStep.perform disk .createData).InPlace := by
  intro keyFile maxSize head contents hkeyFile hmax hhead hne hdata
  obtain rfl := Option.some.inj hdata
  cases hdataFile : disk.dataFile with
  | none => exact Nat.zero_le _
  | some contents => exact h keyFile maxSize head contents hkeyFile hmax hhead hne hdataFile

/-- Writing other contents that are no longer than the ring unless the old ones were. -/
theorem withContents (h : disk.InPlace) (hdata : disk.dataFile = some contents)
    (hkeyFile : disk.metadataFile = .parsed keyFile)
    (hmax : keyFile.getUint64 metadataGroupName maxSizeKey = .ok maxSize) {contents' : Bytes}
    (hlen : contents.length ≤ maxSize → contents'.length ≤ maxSize) :
    CircularFileOnDisk.InPlace { disk with dataFile := some contents' } := by
  intro keyFile' maxSize' head written hkeyFile' hmax' hhead hne hdata'
  obtain rfl := KeyFileOnDisk.parsed.inj (hkeyFile.symm.trans hkeyFile')
  obtain rfl : maxSize = maxSize' := Except.ok.inj (hmax.symm.trans hmax')
  obtain rfl := Option.some.inj hdata'
  exact hlen (h keyFile maxSize head contents hkeyFile hmax hhead hne hdata)

/-- Writing in place within the ring. -/
theorem writeInPlace (h : disk.InPlace) (hkeyFile : disk.metadataFile = .parsed keyFile)
    (hmax : keyFile.getUint64 metadataGroupName maxSizeKey = .ok maxSize) {position : Nat}
    {bytes : Bytes}
    (hlen : ∀ contents : Bytes, contents.length ≤ maxSize →
      (writeAt 0 contents position bytes).length ≤ maxSize) :
    (DiskStep.perform disk (.writeInPlace position bytes)).InPlace := by
  cases hdata : disk.dataFile with
  | none =>
    intro keyFile' maxSize' head contents _ _ _ _ hdata'
    have hnone : (disk.dataFile.map fun contents => writeAt 0 contents position bytes) =
      some contents := hdata'
    rw [hdata] at hnone
    cases hnone
  | some contents =>
    have hwritten := h.withContents hdata hkeyFile hmax (hlen contents)
    unfold DiskStep.perform
    simp only [hdata, Option.map_some]
    exact hwritten

/-- The size does not matter. -/
theorem withSize (h : disk.InPlace) (hkeyFile : disk.metadataFile = .parsed keyFile) (size : Nat) :
    CircularFileOnDisk.InPlace { disk with
      metadataFile := .parsed (keyFile.setUint64 metadataGroupName sizeKey size) } := by
  intro keyFile' maxSize head contents hkeyFile' hmax hhead hne hdata
  cases hkeyFile'
  exact h keyFile maxSize head contents hkeyFile ((getUint64_maxSize_setSize size).mp hmax)
    ((getInt64_head_setSize size).mp hhead) hne hdata

end CircularFileOnDisk.InPlace

end Files

/-! ## 2. Opening -/

namespace EmerCircularFile

variable {self : EmerCircularFile} {disk : CircularFileOnDisk}

theorem getInt64_head_setMaxSizeKey (wanted : Bool)
    (h : self.metadataKeyFile.getInt64 metadataGroupName headKey = .ok ((0 : Nat) : Int)) :
    (self.setMaxSizeKey wanted).metadataKeyFile.getInt64 metadataGroupName headKey =
      .ok ((0 : Nat) : Int) := by
  cases wanted with
  | false => exact h
  | true => exact (KeyFile.getParsed_setValue_ne_eq_ok (by decide)).mpr h

/-- Metadata with a size and a head of zero. -/
theorem getInt64_head_reset (self : EmerCircularFile) (size : Nat) :
    (self.setMetadata size 0 true).2.metadataKeyFile.getInt64 metadataGroupName headKey =
      .ok ((0 : Nat) : Int) :=
  KeyFile.getInt64_setInt64 _ _ _ (by decide) (by decide)

/-- The data file is replaced while the ring starts at its start. -/
theorem overwriteSteps_inPlace (h : self.disk.InPlace) (buffer : Bytes) (prevMaxSize : Nat) :
    AtEveryCrash DiskStep.perform DiskStep.interrupt CircularFileOnDisk.InPlace self.disk
      (self.overwriteSteps buffer prevMaxSize) := by
  have hemptied := getInt64_head_reset (self.setMaxSizeKey (self.maxSize > prevMaxSize)) 0
  unfold overwriteSteps
  simp only
  generalize ((self.setMaxSizeKey (self.maxSize > prevMaxSize)).setMetadata 0 0 true).2 = emptied
    at hemptied
  have hfilled : ((emptied.setMaxSizeKey (self.maxSize < prevMaxSize)).addToSize buffer.length
      true).2.metadataKeyFile.getInt64 metadataGroupName headKey = .ok ((0 : Nat) : Int) :=
    (getInt64_head_setSize _).mpr (getInt64_head_setMaxSizeKey _ hemptied)
  have hempty : ∀ dataFile,
      CircularFileOnDisk.InPlace ⟨dataFile, .parsed emptied.metadataKeyFile⟩ :=
    fun _ => inPlace_of_headAtStart hemptied
  exact atEveryCrash_cons.mpr ⟨fun _ => h, atEveryCrash_cons.mpr ⟨fun _ => hempty _,
    atEveryCrash_cons.mpr ⟨fun _ => hempty _,
      atEveryCrash_nil.mpr (inPlace_of_headAtStart hfilled)⟩⟩⟩

theorem resizeSteps_inPlace (h : self.disk.InPlace) (prevMaxSize : Nat)
    (uninitialised : Nat → UInt8) :
    AtEveryCrash DiskStep.perform DiskStep.interrupt CircularFileOnDisk.InPlace self.disk
      (self.resizeSteps prevMaxSize uninitialised) := by
  unfold resizeSteps
  by_cases hsame : prevMaxSize = self.maxSize
  · rw [if_pos hsame]
    exact atEveryCrash_nil.mpr h
  rw [if_neg hsame]
  simp only
  cases self.readDiskBytes ((List.range (min self.size self.maxSize)).map uninitialised)
      (min self.size self.maxSize) prevMaxSize true with
  | error e => exact atEveryCrash_nil.mpr h
  | ok buffer =>
    simp only
    cases getTrimmedSize buffer (min self.size self.maxSize) with
    | none => exact atEveryCrash_nil.mpr h
    | some newSize => exact overwriteSteps_inPlace h _ _

theorem initSteps_inPlace (h : self.disk.InPlace) (uninitialised : Nat → UInt8) :
    AtEveryCrash DiskStep.perform DiskStep.interrupt CircularFileOnDisk.InPlace self.disk
      (self.initSteps uninitialised) := by
  unfold initSteps
  cases self.loadMetadata false with
  | error e => exact atEveryCrash_nil.mpr h
  | ok loaded =>
    obtain ⟨keyFile, fresh⟩ := loaded
    cases fresh with
    | true =>
      exact atEveryCrash_replaceMetadata h (inPlace_of_headAtStart (getInt64_head_reset _ 0))
    | false =>
      simp only
      cases parseMetadata keyFile with
      | error e => exact atEveryCrash_nil.mpr h
      | ok parsed =>
        obtain ⟨prevMaxSize, size, head⟩ := parsed
        exact @resizeSteps_inPlace
          { self with metadataKeyFile := keyFile, size := size, head := head } h prevMaxSize
          uninitialised

/-- Files in place stay so, wherever the opening ends. -/
theorem openingSteps_inPlace (h : disk.InPlace) (maxSize : Nat) (reinitialized : Bool)
    (uninitialised : Nat → UInt8) :
    AtEveryCrash DiskStep.perform DiskStep.interrupt CircularFileOnDisk.InPlace disk
      (openingSteps disk maxSize reinitialized uninitialised) := by
  cases reinitialized with
  | true =>
    exact atEveryCrash_cons.mpr ⟨fun _ => h, atEveryCrash_replaceMetadata h.createData
      (inPlace_of_headAtStart (getInt64_head_reset _ 0))⟩
  | false =>
    exact atEveryCrash_cons.mpr ⟨fun _ => h, @initSteps_inPlace
      (unopened (DiskStep.perform disk .createData) maxSize) h.createData uninitialised⟩

theorem new_inPlace {file : EmerCircularFile} {maxSize : Nat} {reinitialized : Bool}
    {uninitialised : Nat → UInt8} {fault : InitFault} (h : disk.InPlace)
    (hnew : (new disk maxSize reinitialized uninitialised fault).1 = .ok file) :
    file.disk.InPlace := by
  have hdisk := congrArg Prod.snd (new_disk hnew)
  cases new_fault disk maxSize reinitialized uninitialised fault with
  | inl hsame =>
    have hlast := (openingSteps_inPlace h maxSize reinitialized uninitialised).last
    rw [run_openingSteps, ← hsame, hdisk] at hlast
    exact hlast
  | inr hfailed =>
    obtain ⟨e, taken, hfailed⟩ := hfailed
    rw [hfailed] at hnew
    cases hnew

/-- Resizing empties or rewrites the data file, or leaves it as it is found. -/
theorem resize_inPlace {prevMaxSize : Nat} {uninitialised : Nat → UInt8}
    (hmaxSize : self.maxSize < 2 ^ 64)
    (hsame : prevMaxSize = self.maxSize → self.size = 0 → self.disk.InPlace)
    (hok : (self.resize prevMaxSize uninitialised .none).1 = .ok ())
    (hsize : (self.resize prevMaxSize uninitialised .none).2.size = 0) :
    (self.resize prevMaxSize uninitialised .none).2.disk.InPlace := by
  unfold resize at hok hsize ⊢
  by_cases hne : prevMaxSize = self.maxSize
  · rw [if_pos hne] at hsize ⊢
    exact hsame hne hsize
  rw [if_neg hne] at hok ⊢
  simp only at hok ⊢
  cases hread : self.readDiskBytes ((List.range (min self.size self.maxSize)).map uninitialised)
      (min self.size self.maxSize) prevMaxSize (InitFault.none ≠ InitFault.readData) with
  | error e =>
    rw [hread] at hok
    cases hok
  | ok buffer =>
    rw [hread] at hok
    simp only at hok ⊢
    cases htrimmed : getTrimmedSize buffer (min self.size self.maxSize) with
    | none =>
      rw [htrimmed] at hok
      cases hok
    | some newSize =>
      rw [htrimmed] at hok
      have hnewSize := trimmedSizeFrom_le (Nat.zero_le _) htrimmed
      have hlen : (buffer.take newSize).length ≤ newSize := List.length_take_le _ _
      obtain ⟨keyFile, hdescribes, heq⟩ := overwrite_ok hmaxSize (by omega) hne hok
      simp only
      rw [heq]
      exact inPlace_of_headAtStart hdescribes.head_eq

/-- Files of an empty ring that are not overlong. -/
theorem parsedObject_inPlace {dataFile : Option Bytes} {keyFile : KeyFile} {maxSize head : Nat}
    (hgroup : keyFile.hasGroup metadataGroupName = true)
    (hparse : parseMetadata keyFile = .ok (maxSize, 0, head))
    (hring : ¬ OverlongRing ⟨dataFile, .parsed keyFile⟩ maxSize false) :
    (parsedObject (dataFile.getD []) keyFile maxSize 0 head).disk.InPlace := by
  by_cases hhead : head = 0
  · subst hhead
    exact inPlace_of_headAtStart (describes_of_parseMetadata hgroup hparse).head_eq
  · apply inPlace_of_length_le (parseMetadata_eq_ok hparse).1
    by_contra hlong
    cases dataFile with
    | none => exact hlong (Nat.zero_le _)
    | some contents =>
      apply hring
      unfold OverlongRing
      simp only [hparse]
      exact ⟨trivial, trivial, hhead, Nat.lt_of_not_le hlong⟩

/-- An empty object is in place unless it has taken over an overlong ring. -/
theorem new_empty_inPlace {file : EmerCircularFile} {maxSize : Nat} {reinitialized : Bool}
    {uninitialised : Nat → UInt8} {fault : InitFault} (hmaxSize : maxSize < 2 ^ 64)
    (hring : ¬ OverlongRing disk maxSize reinitialized)
    (hnew : (new disk maxSize reinitialized uninitialised fault).1 = .ok file)
    (hsize : file.size = 0) : file.disk.InPlace := by
  cases new_fault disk maxSize reinitialized uninitialised fault with
  | inr hfailed =>
    obtain ⟨e, taken, hfailed⟩ := hfailed
    rw [hfailed] at hnew
    cases hnew
  | inl hsame =>
  rw [hsame] at hnew
  by_cases hneeds : NeedsInit disk reinitialized
  · obtain ⟨keyFile, hdescribes, hnew'⟩ := new_of_needsInit hneeds hmaxSize uninitialised
    rw [hnew'] at hnew
    obtain rfl := Except.ok.inj hnew
    exact inPlace_of_headAtStart hdescribes.head_eq
  have hfalse : reinitialized = false := by
    cases reinitialized with
    | true => exact absurd (.inl rfl) hneeds
    | false => rfl
  subst hfalse
  obtain ⟨dataFile, metadataFile⟩ := disk
  cases metadataFile with
  | absent => exact absurd (.inr (.inl rfl)) hneeds
  | unparsable => cases hnew
  | parsed keyFile =>
    have hgroup : keyFile.hasGroup metadataGroupName = true := by
      cases hgroup : keyFile.hasGroup metadataGroupName with
      | true => rfl
      | false => exact absurd (.inr (.inr ⟨keyFile, rfl, hgroup⟩)) hneeds
    cases hparse : parseMetadata keyFile with
    | error e =>
      simp [new, initableInit, loadMetadata, KeyFileOnDisk.load, hgroup, hparse] at hnew
    | ok parsed =>
      obtain ⟨prevMaxSize, size, head⟩ := parsed
      have hfound : prevMaxSize = maxSize → size = 0 →
          (parsedObject (dataFile.getD []) keyFile maxSize size head).disk.InPlace := by
        rintro rfl rfl
        exact parsedObject_inPlace hgroup hparse hring
      have hresized := @resize_inPlace
        (parsedObject (dataFile.getD []) keyFile maxSize size head) prevMaxSize uninitialised
        hmaxSize hfound
      cases hresult : (parsedObject (dataFile.getD []) keyFile maxSize size head).resize
          prevMaxSize uninitialised .none with
      | mk result self =>
        rw [new_of_accepted maxSize uninitialised hgroup hparse hresult] at hnew
        rw [hresult] at hresized
        cases result with
        | error e => cases hnew
        | ok _ =>
          obtain rfl := Except.ok.inj hnew
          exact hresized rfl hsize

/-- A purge leaves an empty object in place. -/
theorem purge_inPlace {file : EmerCircularFile} (h : file.size = 0 → file.disk.InPlace)
    {saved : Bool} (hok : (file.purge saved).1 = .ok ()) : (file.purge saved).2.disk.InPlace := by
  rw [purge_of_ok hok]
  unfold purge
  by_cases hsize : file.size = 0
  · rw [if_pos hsize]
    exact h hsize
  · rw [if_neg hsize]
    exact inPlace_of_headAtStart (getInt64_head_reset file 0)

end EmerCircularFile

/-! ## 3. Saving -/

namespace EmerCircularFile

variable {self : EmerCircularFile} {contents : Bytes}

/-- A prefix of what goes to the start has been written. -/
theorem writeAtStart_prefix (self : EmerCircularFile) (contents : Bytes) (fault : SaveFault) :
    ∃ n, (self.writeAtStart contents fault).2 =
      writeAt 0 contents 0 ((self.writeBuffer.drop self.bytesTail).take n) := by
  unfold writeAtStart
  simp only
  by_cases hround : self.writeBuffer.length - self.bytesTail > 0
  · rw [if_pos hround]
    cases fault with
    | seekStart => exact ⟨0, by rw [List.take_zero, writeAt_nil]⟩
    | writeStart written => exact ⟨written, rfl⟩
    | none => exact ⟨_, by rw [List.take_length]⟩
    | openReadwrite => exact ⟨_, by rw [List.take_length]⟩
    | seekTail => exact ⟨_, by rw [List.take_length]⟩
    | writeTail written => exact ⟨_, by rw [List.take_length]⟩
    | metadata => exact ⟨_, by rw [List.take_length]⟩
  · rw [if_neg hround]
    exact ⟨0, by rw [List.take_zero, writeAt_nil]⟩

theorem writeAtTail_prefix (self : EmerCircularFile) (contents : Bytes) (fault : SaveFault) :
    ∃ n, (self.writeAtTail contents fault).2 =
      writeAt 0 contents self.tail ((self.writeBuffer.take self.bytesTail).take n) := by
  unfold writeAtTail
  cases fault with
  | seekTail => exact ⟨0, by rw [List.take_zero, writeAt_nil]⟩
  | writeTail written => exact ⟨written, rfl⟩
  | none => exact ⟨_, by rw [List.take_length]⟩
  | openReadwrite => exact ⟨_, by rw [List.take_length]⟩
  | seekStart => exact ⟨_, by rw [List.take_length]⟩
  | writeStart written => exact ⟨_, by rw [List.take_length]⟩
  | metadata => exact ⟨_, by rw [List.take_length]⟩

/-- Writing at the start stays within the maximum size, wherever it ends. -/
theorem length_write_at_start_le (hbuffer : self.writeBuffer.length ≤ self.maxSize)
    (hcontents : contents.length ≤ self.maxSize) (n : Nat) :
    (writeAt 0 contents 0 ((self.writeBuffer.drop self.bytesTail).take n)).length ≤
      self.maxSize := by
  apply length_writeAt_le 0 hcontents
  rw [List.length_take, List.length_drop]
  omega

/-- So does writing at the tail. -/
theorem length_write_at_tail_le (hcontents : contents.length ≤ self.maxSize) (n : Nat) :
    (writeAt 0 contents self.tail ((self.writeBuffer.take self.bytesTail).take n)).length ≤
      self.maxSize := by
  by_cases hnil : (self.writeBuffer.take self.bytesTail).take n = []
  · rwa [hnil, writeAt_nil]
  apply length_writeAt_le 0 hcontents
  have hpos := List.length_pos_iff.mpr hnil
  rw [List.length_take, List.length_take, bytesTail] at hpos ⊢
  omega

theorem length_writeData_le (hbuffer : self.writeBuffer.length ≤ self.maxSize)
    (hcontents : contents.length ≤ self.maxSize) (fault : SaveFault) :
    (self.writeData contents fault).2.length ≤ self.maxSize := by
  obtain ⟨n, hstart⟩ := self.writeAtStart_prefix contents fault
  have hwritten := length_write_at_start_le hbuffer hcontents n
  rw [← hstart] at hwritten
  unfold writeData
  generalize self.writeAtStart contents fault = written at hwritten
  obtain ⟨done, contents'⟩ := written
  cases done with
  | false => exact hwritten
  | true =>
    obtain ⟨n, htail⟩ := self.writeAtTail_prefix contents' fault
    show (self.writeAtTail contents' fault).2.length ≤ self.maxSize
    rw [htail]
    exact length_write_at_tail_le hwritten n

end EmerCircularFile

namespace FileKeeps

variable {file : EmerCircularFile} {q : Fifo Bytes}

/-- What a save needs of the object to stay in place. -/
theorem recorded (h : FileKeeps file q) (hne : file.writeBuffer.length ≠ 0) :
    ∃ keyFile, file.disk.metadataFile = .parsed keyFile ∧
      SameButSize file.metadataKeyFile keyFile ∧
      keyFile.getUint64 metadataGroupName maxSizeKey = .ok file.maxSize ∧
      file.size + file.writeBuffer.length ≤ file.maxSize ∧ file.maxSize < 2 ^ 64 := by
  cases h with
  | nothing hdisk hmaxSize hsize hwriteBuffer =>
    rw [hwriteBuffer] at hne
    exact absurd rfl hne
  | @queue contents maxSize q keyFile h hsame =>
    have hmaxSize := h.maxSize_eq
    have hfits := h.fits
    have hlt := h.maxSize_lt
    rw [← hmaxSize] at hfits hlt
    exact ⟨keyFile, h.synced.onDisk, hsame, h.synced.describes.maxSize_eq, hfits, hlt⟩

theorem save_inPlace (h : FileKeeps file q) (hinPlace : file.disk.InPlace) (fault : SaveFault) :
    (file.save fault).2.disk.InPlace := by
  by_cases hne : file.writeBuffer.length = 0
  · have hsave : file.save fault = (.ok (), file) := if_pos hne
    rw [hsave]
    exact hinPlace
  obtain ⟨keyFile, honDisk, hsame, hmax, hfits, hlt⟩ := h.recorded hne
  have hwrites : ∀ {contents : Bytes}, file.disk.dataFile = some contents →
      CircularFileOnDisk.InPlace { file.disk with
        dataFile := some (file.writeData contents fault).2 } := fun hdata =>
    hinPlace.withContents hdata honDisk hmax fun hcontents =>
      EmerCircularFile.length_writeData_le (by omega) hcontents fault
  have houtcome := file.save_outcome (show file.size + file.writeBuffer.length < 2 ^ 64 by
    omega) fault
  generalize file.save fault = result at houtcome
  cases houtcome with
  | nothingToSave => exact hinPlace
  | notOpened => exact hinPlace
  | notWritten hne hdata hwritten =>
    have hwrites := hwrites hdata
    rw [hwritten] at hwrites
    exact hwrites
  | sizeNotSaved hne hdata hwritten hfault =>
    have hwrites := hwrites hdata
    rw [hwritten] at hwrites
    exact hwrites
  | saved hne hdata hopen hwritten hfault hkeyFile =>
    have hwrites := hwrites hdata
    rw [hwritten] at hwrites
    rw [hkeyFile, hsame]
    exact hwrites.withSize honDisk _

/-- A save that a crash cuts short keeps the files in place. -/
theorem saveSteps_inPlace (h : FileKeeps file q) (hinPlace : file.disk.InPlace) :
    AtEveryCrash DiskStep.perform DiskStep.interrupt CircularFileOnDisk.InPlace file.disk
      file.saveSteps := by
  unfold EmerCircularFile.saveSteps
  by_cases hne : file.writeBuffer.length = 0
  · rw [if_pos hne]
    exact atEveryCrash_nil.mpr hinPlace
  obtain ⟨keyFile, honDisk, hsame, hmax, hfits, hlt⟩ := h.recorded hne
  rw [if_neg hne, EmerCircularFile.addToSize_eq file (show file.size + file.writeBuffer.length <
    2 ^ 64 by omega)]
  simp only [if_true, hsame (file.size + file.writeBuffer.length)]
  -- the last two steps, over whatever the first one has left
  have hrest : ∀ disk : CircularFileOnDisk, disk.InPlace → disk.metadataFile = .parsed keyFile →
      AtEveryCrash DiskStep.perform DiskStep.interrupt CircularFileOnDisk.InPlace disk
        [.writeInPlace file.tail (file.writeBuffer.take file.bytesTail),
          .replaceMetadata (keyFile.setUint64 metadataGroupName sizeKey
            (file.size + file.writeBuffer.length))] := by
    intro disk hdisk hkeyFile
    have htail : ∀ n, (DiskStep.perform disk (.writeInPlace file.tail
        ((file.writeBuffer.take file.bytesTail).take n))).InPlace := fun n =>
      hdisk.writeInPlace hkeyFile hmax fun contents hcontents =>
        EmerCircularFile.length_write_at_tail_le hcontents n
    have hwhole := htail (file.writeBuffer.take file.bytesTail).length
    rw [List.take_length] at hwhole
    exact atEveryCrash_cons.mpr ⟨htail, atEveryCrash_replaceMetadata hwhole
      (hwhole.withSize hkeyFile _)⟩
  by_cases hround : file.writeBuffer.length - file.bytesTail > 0
  · rw [if_pos hround, List.singleton_append]
    have hstart : ∀ n, (DiskStep.perform file.disk (.writeInPlace 0
        ((file.writeBuffer.drop file.bytesTail).take n))).InPlace := fun n =>
      hinPlace.writeInPlace honDisk hmax fun contents hcontents =>
        EmerCircularFile.length_write_at_start_le (by omega) hcontents n
    have hwhole := hstart (file.writeBuffer.drop file.bytesTail).length
    rw [List.take_length] at hwhole
    exact atEveryCrash_cons.mpr ⟨hstart, hrest _ hwhole honDisk⟩
  -- nothing goes round to the start
  · rw [if_neg hround, List.nil_append]
    exact hrest file.disk hinPlace honDisk

end FileKeeps

/-! ## 4. Reading -/

/-- The elements in the ring are some of these, in their order, and a read with any budget answers
as many of the first ones as it covers. -/
def EmerCircularFile.HoldsOnly (file : EmerCircularFile) (elems : List Bytes) : Prop :=
  ∃ held, held.Sublist elems ∧ file.ringBytes = .ok (encode held) ∧
    ∀ budget saved, file.read budget saved =
      (.ok ⟨takeWithin List.length budget held,
        (encode (takeWithin List.length budget held)).length⟩, false, file)

/-- Contents that do not go round have their cells from the start on. -/
theorem streamHolds_of_start {M : Nat} {contents bytes : Bytes} (h : RingHolds M contents 0 bytes)
    (hshort : bytes.length ≤ M) : StreamHolds M ⟨contents, 0⟩ bytes := by
  refine ⟨Nat.zero_le M, hshort, h, .inl ?_⟩
  have hread := congrArg List.length (h.take_drop (by omega))
  rw [List.drop_zero, List.length_take] at hread
  show 0 + bytes.length ≤ min M contents.length
  omega

namespace FileKeeps

variable {file : EmerCircularFile} {q : Fifo Bytes}

/-- A read answers the first of the saved elements and changes nothing. -/
theorem read_eq (h : FileKeeps file q) (hinPlace : file.disk.InPlace) (budget : Nat)
    (saved : Bool) :
    file.read budget saved =
      (.ok ⟨takeWithin List.length budget q.saved,
        (encode (takeWithin List.length budget q.saved)).length⟩, false, file) := by
  cases h with
  | nothing hdisk hmaxSize hsize hwriteBuffer => exact if_pos hsize
  | @queue contents maxSize q keyFile h hsame =>
    have hmaxSize : file.maxSize = maxSize := h.maxSize_eq
    have hlt := h.maxSize_lt
    have hfits : file.size + file.writeBuffer.length ≤ maxSize := h.fits
    have hsize : file.size = (encode q.saved).length := h.size_eq
    have hhead : file.head < maxSize := h.head_lt
    have hring := h.kept.ring
    have hahead : file.size ≠ 0 →
        StreamHolds file.maxSize ⟨contents, file.head⟩ (encode q.saved ++ []) := by
      intro hnonzero
      rw [List.append_nil, hmaxSize]
      by_cases hstart : file.head = 0
      · rw [hstart]
        apply streamHolds_of_start _ (by omega)
        rwa [show ({ file with metadataKeyFile := keyFile } : EmerCircularFile).head = 0 from
          hstart] at hring
      -- a ring that starts elsewhere is in its place
      · have hlen := hinPlace keyFile maxSize file.head contents h.synced.onDisk
          (by rw [← hmaxSize]; exact h.synced.describes.maxSize_eq) h.synced.describes.head_eq
          hstart h.dataFile
        have hstored := hring.ringStored hlen hhead fun hnil => by
          rw [hnil] at hsize
          exact hnonzero hsize
        exact streamHolds_of_ringStored hstored hhead.le (by omega)
    rw [@EmerCircularFile.read_of_streamHolds file contents [] q.saved h.dataFile (by omega)
      (by rw [List.append_nil]; exact hsize) (by omega) hahead
      (fun elem he => h.nonempty elem (List.mem_append_left _ he)) (.inl rfl) budget saved _ rfl]
    simp

theorem holdsOnly (h : FileKeeps file q) (hinPlace : file.disk.InPlace) {elems : List Bytes}
    (hsub : q.saved.Sublist elems) : file.HoldsOnly elems :=
  ⟨q.saved, hsub, h.ringBytes_eq, h.read_eq hinPlace⟩

end FileKeeps

end EventRecorder
