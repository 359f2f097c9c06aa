import EventRecorder.PersistentCache.Opening
import EventRecorder.CircularFile.Resize

/-!
# The recovery path of the daemon

When opening the cache fails with an error about a key file, the daemon tries once more with the
circular file reinitialised.  That replaces the metadata of the circular file but not the file with
the boot offset, so a key file that is corrupt there fails the second attempt as it did the first.
-/

namespace EventRecorder

open Theory

/-- The domain of the error is `G_KEY_FILE_ERROR`. -/
def GError.isKeyFileError : GError → Bool
  | .load (.keyFile _) => true
  | .keyFile _ => true
  | _ => false

/-- Every write succeeds, and the clocks and the boot ID can be read. -/
def succeedingContext (time : Int × Int) (bootId : Uuid) : CallContext where
  currentTime := some time
  bootIdFile := some bootId
  purged := true
  versionSaved := true
  bootMetadataSaved := true

/-- An attempt of `emer_daemon_constructed`, in a process whose static variable is given. -/
def attempt (directory : CacheDirectory) (maxCacheSize : Nat) (reinitializeCache idIsValid : Bool)
    (uninitialised : Nat → UInt8) (time : Int × Int) (bootId : Uuid) :
    EmerPersistentCachePrivate.Opened :=
  EmerPersistentCachePrivate.new directory maxCacheSize reinitializeCache idIsValid uninitialised
    .none (succeedingContext time bootId)

/-- How `emer_daemon_constructed` opens the cache, at one time for each attempt. -/
def openPersistentCache (directory : CacheDirectory) (maxCacheSize : Nat)
    (uninitialised : Nat → UInt8) (time time' : Int × Int) (bootId : Uuid) :
    Except GError EmerPersistentCachePrivate :=
  let first := attempt directory maxCacheSize false false uninitialised time bootId
  match first.result with
  | .ok self => .ok self
  | .error e =>
    if e.isKeyFileError then
      match (attempt first.directory maxCacheSize true first.idIsValid uninitialised time'
          bootId).result with
      | .ok self => .ok self
      | .error _ => .error .aborts
    else .error .aborts

/-- A first attempt that fails over a key file is followed by one that succeeds. -/
def Recovers (directory : CacheDirectory) (maxCacheSize : Nat) (uninitialised : Nat → UInt8)
    (time time' : Int × Int) (bootId : Uuid) : Prop :=
  ∀ e, (attempt directory maxCacheSize false false uninitialised time bootId).result = .error e →
    e.isKeyFileError = true →
      ∃ self, openPersistentCache directory maxCacheSize uninitialised time time' bootId = .ok self

/-! ## 1. The files that decide -/

/-- The saved boot ID of a key file. -/
def savedBootIdIn (keyFile : KeyFile) : Option Uuid :=
  match keyFile.getString cacheTimingGroupName cacheLastBootIdKey with
  | .error _ => none
  | .ok idAsString => Uuid.parse (idAsString.rdropWhile asciiIsSpace)

def Readable {α : Type*} (value : Except KeyFileError α) : Prop :=
  ∃ a, value = .ok a

/-- Both times of an earlier boot are there. -/
def TimesReadable (keyFile : KeyFile) : Prop :=
  Readable (keyFile.getInt64 cacheTimingGroupName cacheRelativeTimeKey) ∧
    Readable (keyFile.getInt64 cacheTimingGroupName cacheAbsoluteTimeKey)

/-- A boot offset can be had from the key file in the boot with the given ID. -/
structure BootOffsetReadable (keyFile : KeyFile) (bootId : Uuid) : Prop where
  bootOffset : Readable (keyFile.getInt64 cacheTimingGroupName cacheBootOffsetKey)
  savedBootId : ∃ saved, savedBootIdIn keyFile = some saved ∧
    (saved = bootId ∨ TimesReadable keyFile)

/-- Without the file there is a new origin. -/
def BootOffsetUsable (file : KeyFileOnDisk) (bootId : Uuid) : Prop :=
  match file with
  | .absent => True
  | .unparsable => False
  | .parsed keyFile => BootOffsetReadable keyFile bootId

/-- The file itself raises an error about a key file.  A saved boot ID that is no UUID raises one of
another domain. -/
def BootOffsetRaisesKeyFileError (file : KeyFileOnDisk) (bootId : Uuid) : Prop :=
  match file with
  | .absent => False
  | .unparsable => True
  | .parsed keyFile =>
    ¬ Readable (keyFile.getInt64 cacheTimingGroupName cacheBootOffsetKey) ∨
      ¬ Readable (keyFile.getString cacheTimingGroupName cacheLastBootIdKey) ∨
      ∃ saved, savedBootIdIn keyFile = some saved ∧ saved ≠ bootId ∧ ¬ TimesReadable keyFile

variable {file : KeyFileOnDisk} {bootId : Uuid}

theorem not_readable_error {α : Type*} {value : Except KeyFileError α} {code : KeyFileError}
    (h : value = .error code) : ¬ Readable value := by
  rintro ⟨a, ha⟩
  rw [h] at ha
  cases ha

theorem savedBootIdIn_eq {keyFile : KeyFile} {saved : Uuid}
    (h : savedBootIdIn keyFile = some saved) :
    ∃ idAsString, keyFile.getString cacheTimingGroupName cacheLastBootIdKey = .ok idAsString ∧
      Uuid.parse (idAsString.rdropWhile asciiIsSpace) = some saved := by
  unfold savedBootIdIn at h
  split at h
  · cases h
  · rename_i idAsString hstring
    exact ⟨idAsString, hstring, h⟩

/-- A file that raises an error about a key file is of no use in the same boot. -/
theorem BootOffsetRaisesKeyFileError.not_usable (h : BootOffsetRaisesKeyFileError file bootId) :
    ¬ BootOffsetUsable file bootId := by
  intro husable
  cases file with
  | absent => exact h
  | unparsable => exact husable
  | parsed keyFile =>
    obtain ⟨saved, hsaved, hboot⟩ := husable.savedBootId
    rcases h with hoffset | hstring | ⟨other, hother, hne, htimes⟩
    · exact hoffset husable.bootOffset
    · obtain ⟨idAsString, hidAsString, -⟩ := savedBootIdIn_eq hsaved
      exact hstring ⟨idAsString, hidAsString⟩
    · obtain rfl : other = saved := Option.some.inj (hother.symm.trans hsaved)
      exact hboot.elim hne htimes

/-- A saved boot ID that is a text but no UUID is an error of another domain. -/
theorem not_raises_of_noUuid {keyFile : KeyFile} {bootOffset : Int} {idAsString : Text}
    (hoffset : keyFile.getInt64 cacheTimingGroupName cacheBootOffsetKey = .ok bootOffset)
    (hstring : keyFile.getString cacheTimingGroupName cacheLastBootIdKey = .ok idAsString)
    (hsaved : savedBootIdIn keyFile = none) :
    ¬ BootOffsetRaisesKeyFileError (.parsed keyFile) bootId := by
  rintro (h | h | ⟨saved, h, -⟩)
  · exact h ⟨bootOffset, hoffset⟩
  · exact h ⟨idAsString, hstring⟩
  · rw [hsaved] at h
    cases h

theorem not_usable_of_noUuid {keyFile : KeyFile} (hsaved : savedBootIdIn keyFile = none) :
    ¬ BootOffsetUsable (.parsed keyFile) bootId := by
  rintro ⟨-, saved, h, -⟩
  rw [hsaved] at h
  cases h

/-! ## 2. The boot offset of a new cache -/

namespace EmerPersistentCachePrivate

/-- The boot ID that the provider of a new cache answers. -/
def systemBootId (self : EmerPersistentCachePrivate) (bootId : Uuid) : Uuid :=
  if self.idIsValid then self.bootIdProvider.id else bootId

/-- The ways in which a new cache can come by its boot offset, from the file and the boot ID that it
finds. -/
inductive BootOffsetOutcome (file : KeyFileOnDisk) (system : Uuid) :
    Except GError Unit × EmerPersistentCachePrivate → Prop where
  | succeeds {after : EmerPersistentCachePrivate} (husable : BootOffsetUsable file system) :
      BootOffsetOutcome file system (.ok (), after)
  /-- No boot ID is asked for, and none could help. -/
  | unreadable {after : EmerPersistentCachePrivate} {e : GError} (he : e.isKeyFileError = true)
      (hraises : ∀ id, BootOffsetRaisesKeyFileError file id)
      (hfile : after.bootMetadataFile = file) :
      BootOffsetOutcome file system (.error e, after)
  | withoutTimes {after : EmerPersistentCachePrivate} {e : GError} (he : e.isKeyFileError = true)
      (hraises : BootOffsetRaisesKeyFileError file system)
      (hfile : after.bootMetadataFile = file) (hvalid : after.idIsValid = true) :
      BootOffsetOutcome file system (.error e, after)
  | noUuid {after : EmerPersistentCachePrivate} {e : GError} (he : e.isKeyFileError = false)
      (hnot : ∀ id, ¬ BootOffsetRaisesKeyFileError file id)
      (hunusable : ∀ id, ¬ BootOffsetUsable file id) :
      BootOffsetOutcome file system (.error e, after)

theorem BootOffsetOutcome.of_ok {file : KeyFileOnDisk} {system : Uuid}
    {result : Except GError Unit × EmerPersistentCachePrivate} (hok : result.1 = .ok ())
    (husable : BootOffsetUsable file system) : BootOffsetOutcome file system result := by
  obtain ⟨answer, after⟩ := result
  obtain rfl : answer = .ok () := hok
  exact .succeeds husable

variable {self : EmerPersistentCachePrivate} {time : Int × Int} {bootId : Uuid}

theorem getSystemBootId_succeeding (self : EmerPersistentCachePrivate) (time : Int × Int)
    (bootId : Uuid) :
    self.getSystemBootId (succeedingContext time bootId) =
      (.ok (self.systemBootId bootId),
        { self with bootIdProvider := ⟨self.systemBootId bootId⟩, idIsValid := true }) := by
  unfold getSystemBootId EmerBootIdProvider.getId systemBootId
  cases hvalid : self.idIsValid <;> simp [succeedingContext]

theorem purgeVariants_succeeding (self : EmerPersistentCachePrivate) (time : Int × Int)
    (bootId : Uuid) :
    self.purgeVariants (succeedingContext time bootId).purged =
      (.ok (), { self with cache := ⟨(self.cache.variantFile.purge true).2⟩ }) := by
  have hok : (self.cache.variantFile.purge true).1 = .ok () := by
    rw [EmerCircularFile.purge]
    split <;> rfl
  rw [purgeVariants]
  exact Prod.ext hok rfl

theorem resetBootOffsetMetadataFile_succeeding (self : EmerPersistentCachePrivate)
    (time : Int × Int) (bootId : Uuid) :
    (self.resetBootOffsetMetadataFile time.1 time.2 (succeedingContext time bootId)).1 =
      .ok () := by
  unfold resetBootOffsetMetadataFile
  simp only [getSystemBootId_succeeding, purgeVariants_succeeding]
  rfl

/-- In the boot of the saved ID nothing is computed; in another one both times are needed. -/
theorem updateForBoot_succeeding (self : EmerPersistentCachePrivate) (time : Int × Int)
    (bootOffset : Int) (saved system : Uuid)
    (hoffset : Readable (self.bootOffsetKeyFile.getInt64 cacheTimingGroupName cacheBootOffsetKey)) :
    (∃ after, self.updateForBoot false time.1 time.2 bootOffset saved system true =
        (.ok (), after) ∧ (saved = system ∨ TimesReadable self.bootOffsetKeyFile)) ∨
      ∃ code, self.updateForBoot false time.1 time.2 bootOffset saved system true =
        (.error (.keyFile code), self) ∧ saved ≠ system ∧
          ¬ TimesReadable self.bootOffsetKeyFile := by
  obtain ⟨storedOffset, hoffset⟩ := hoffset
  rw [updateForBoot]
  by_cases hsame : saved = system
  · rw [if_pos hsame]
    exact .inl ⟨_, rfl, .inl hsame⟩
  rw [if_neg hsame, computeBootOffset, hoffset, TimesReadable]
  cases hrelative : self.bootOffsetKeyFile.getInt64 cacheTimingGroupName cacheRelativeTimeKey with
  | error code =>
    right
    refine ⟨code, rfl, hsame, ?_⟩
    rintro ⟨⟨_, h⟩, -⟩
    cases h
  | ok relativeTime =>
    cases habsolute : self.bootOffsetKeyFile.getInt64 cacheTimingGroupName cacheAbsoluteTimeKey with
    | error code =>
      right
      refine ⟨code, rfl, hsame, ?_⟩
      rintro ⟨-, ⟨_, h⟩⟩
      cases h
    | ok absoluteTime => exact .inl ⟨_, rfl, .inr ⟨⟨_, rfl⟩, ⟨_, rfl⟩⟩⟩

theorem getSavedBootId_of_unreadable (hid : self.bootIdInitialized = false) {code : KeyFileError}
    (hstring : self.bootOffsetKeyFile.getString cacheTimingGroupName cacheLastBootIdKey =
      .error code) :
    self.getSavedBootId = (.error (.keyFile code), self) := by
  simp only [getSavedBootId, hid, hstring, Bool.false_eq_true, if_false]

theorem getSavedBootId_of_noUuid (hid : self.bootIdInitialized = false) {idAsString : Text}
    (hstring : self.bootOffsetKeyFile.getString cacheTimingGroupName cacheLastBootIdKey =
      .ok idAsString) (hsaved : savedBootIdIn self.bootOffsetKeyFile = none) :
    self.getSavedBootId = (.error .failed, self) := by
  rw [savedBootIdIn, hstring] at hsaved
  simp only at hsaved
  simp only [getSavedBootId, hid, hstring, hsaved, Bool.false_eq_true, if_false]

theorem getSavedBootId_of_saved (hid : self.bootIdInitialized = false) {saved : Uuid}
    (hsaved : savedBootIdIn self.bootOffsetKeyFile = some saved) :
    self.getSavedBootId =
      (.ok saved, { self with savedBootId := saved, bootIdInitialized := true }) := by
  obtain ⟨idAsString, hstring, hparse⟩ := savedBootIdIn_eq hsaved
  simp only [getSavedBootId, hid, hstring, hparse, Bool.false_eq_true, if_false]

variable (self) in
theorem updateFromFile_outcome (hid : self.bootIdInitialized = false)
    (hfile : self.bootMetadataFile = .parsed self.bootOffsetKeyFile) (time : Int × Int)
    (bootId : Uuid) :
    BootOffsetOutcome self.bootMetadataFile (self.systemBootId bootId)
      (self.updateFromFile false time.1 time.2 (succeedingContext time bootId)) := by
  rw [hfile]
  unfold updateFromFile
  cases hoffset : self.bootOffsetKeyFile.getInt64 cacheTimingGroupName cacheBootOffsetKey with
  | error code => exact .unreadable rfl (fun _ => .inl (not_readable_error hoffset)) hfile
  | ok bootOffset =>
    cases hsaved : savedBootIdIn self.bootOffsetKeyFile with
    | none =>
      cases hstring : self.bootOffsetKeyFile.getString cacheTimingGroupName cacheLastBootIdKey with
      | error code =>
        rw [getSavedBootId_of_unreadable hid hstring]
        exact .unreadable rfl (fun _ => .inr (.inl (not_readable_error hstring))) hfile
      | ok idAsString =>
        rw [getSavedBootId_of_noUuid hid hstring hsaved]
        exact .noUuid rfl (fun _ => not_raises_of_noUuid hoffset hstring hsaved)
          fun _ => not_usable_of_noUuid hsaved
    | some saved =>
      rw [getSavedBootId_of_saved hid hsaved]
      simp only [getSystemBootId_succeeding]
      -- the boot ID of the system is known from here on, whatever becomes of the offset
      rcases updateForBoot_succeeding
          { self with
            savedBootId := saved, bootIdInitialized := true
            bootIdProvider := ⟨self.systemBootId bootId⟩, idIsValid := true }
          time bootOffset saved (self.systemBootId bootId) ⟨bootOffset, hoffset⟩
        with ⟨after, hupdate, hboot⟩ | ⟨code, hupdate, hne, htimes⟩
      · have husable : BootOffsetUsable (.parsed self.bootOffsetKeyFile)
            (self.systemBootId bootId) :=
          ⟨⟨bootOffset, hoffset⟩, ⟨saved, hsaved, hboot⟩⟩
        exact hupdate ▸ .succeeds husable
      · exact hupdate ▸ .withoutTimes rfl (.inr (.inr ⟨saved, hsaved, hne, htimes⟩)) hfile rfl

variable (self) in
theorem updateBootOffset_outcome (hnew : self.bootOffsetInitialized = false)
    (hid : self.bootIdInitialized = false) (time : Int × Int) (bootId : Uuid) :
    BootOffsetOutcome self.bootMetadataFile (self.systemBootId bootId)
      (self.updateBootOffset false (succeedingContext time bootId)) := by
  cases hfile : self.bootMetadataFile with
  | absent =>
    rw [updateBootOffset_of_absent false rfl hnew hfile]
    exact .of_ok (self.resetBootOffsetMetadataFile_succeeding time bootId) trivial
  | unparsable =>
    rw [updateBootOffset_of_unparsable false rfl hnew hfile]
    exact .unreadable rfl (fun _ => trivial) hfile
  | parsed keyFile =>
    have hloaded := updateFromFile_outcome { self with bootOffsetKeyFile := keyFile } hid hfile
      time bootId
    rw [updateBootOffset_of_parsed false rfl hnew hfile, ← hfile]
    exact hloaded

theorem applyCacheVersioning_succeeding (self : EmerPersistentCachePrivate) (time : Int × Int)
    (bootId : Uuid) :
    ∃ cache provider, self.applyCacheVersioning (succeedingContext time bootId) =
      (.ok (), { self with cache := cache, cacheVersionProvider := provider }) := by
  unfold applyCacheVersioning
  generalize self.cacheVersionProvider.getVersion = version
  obtain ⟨oldVersion, provider⟩ := version
  simp only
  split
  · exact ⟨self.cache, provider, rfl⟩
  · rw [purgeVariants_succeeding]
    exact ⟨_, _, rfl⟩

/-- The boot ID that an attempt of a process sees. -/
def attemptBootId (idIsValid : Bool) (bootId : Uuid) : Uuid :=
  if idIsValid then Uuid.null else bootId

theorem initableInit_outcome (variantFile : EmerCircularFile) (directory : CacheDirectory)
    (idIsValid : Bool) (time : Int × Int) (bootId : Uuid) :
    BootOffsetOutcome directory.bootMetadataFile (attemptBootId idIsValid bootId)
      ((overVariantFile variantFile directory idIsValid).initableInit
        (succeedingContext time bootId)) := by
  obtain ⟨cache, provider, hversion⟩ := applyCacheVersioning_succeeding
    (overVariantFile variantFile directory idIsValid) time bootId
  rw [initableInit, hversion]
  exact updateBootOffset_outcome { overVariantFile variantFile directory idIsValid with
    cache := cache, cacheVersionProvider := provider } rfl rfl time bootId

end EmerPersistentCachePrivate

/-! ## 3. The two attempts -/

/-- The metadata file of the circular file raises an error about a key file. -/
def MetadataRaisesKeyFileError (file : KeyFileOnDisk) : Prop :=
  match file with
  | .absent => False
  | .unparsable => True
  | .parsed keyFile =>
    keyFile.hasGroup metadataGroupName = true ∧
      ∃ code, EmerCircularFile.parseMetadata keyFile = .error (.keyFile code)

/-- The search for the last element that fits comes to an end in the data that is kept. -/
def TrimmingEnds (dataFile : Bytes) (prevMaxSize size head maxSize : Nat)
    (uninitialised : Nat → UInt8) : Prop :=
  ∀ buffer, EmerCircularFile.readDiskBytes
      ⟨⟨some dataFile, .absent⟩, KeyFile.empty, [], maxSize, size, head⟩
      ((List.range (min size maxSize)).map uninitialised) (min size maxSize) prevMaxSize true =
        .ok buffer →
    EmerCircularFile.getTrimmedSize buffer (min size maxSize) ≠ none

/-- The circular file is fresh, or its metadata passes every check and it can be resized. -/
def CircularFileOpens (variants : CircularFileOnDisk) (maxSize : Nat)
    (uninitialised : Nat → UInt8) : Prop :=
  match variants.metadataFile with
  | .absent => True
  | .unparsable => False
  | .parsed keyFile =>
    keyFile.hasGroup metadataGroupName = false ∨
      ∃ prevMaxSize size head,
        EmerCircularFile.parseMetadata keyFile = .ok (prevMaxSize, size, head) ∧
          (prevMaxSize = maxSize ∨ TrimmingEnds (variants.dataFile.getD []) prevMaxSize size head
            maxSize uninitialised)

namespace EmerCircularFile

/-- Metadata is refused over a key file or because its values are out of range. -/
theorem parseMetadata_error {keyFile : KeyFile} {e : GError}
    (h : parseMetadata keyFile = .error e) :
    e.isKeyFileError = true ↔ ∃ code, e = .keyFile code := by
  have hcases : (∃ code, e = .keyFile code) ∨ ∃ message, e = .invalidData message := by
    unfold parseMetadata at h
    split at h
    · cases h; exact .inl ⟨_, rfl⟩
    split at h
    · cases h; exact .inl ⟨_, rfl⟩
    split at h
    · cases h; exact .inr ⟨_, rfl⟩
    split at h
    · cases h; exact .inl ⟨_, rfl⟩
    split at h
    · cases h; exact .inr ⟨_, rfl⟩
    · cases h
  rcases hcases with ⟨code, rfl⟩ | ⟨message, rfl⟩
  · exact iff_of_true rfl ⟨code, rfl⟩
  · exact iff_of_false (by simp [GError.isKeyFileError]) (by simp)

/-- Resizing either comes to the end or hangs in the search for the last element. -/
theorem resize_succeeding (self : EmerCircularFile) (prevMaxSize : Nat)
    (uninitialised : Nat → UInt8) {dataFile : Bytes} (hdata : self.disk.dataFile = some dataFile) :
    ((self.resize prevMaxSize uninitialised .none).1 = .ok () ∧
        (prevMaxSize = self.maxSize ∨ TrimmingEnds dataFile prevMaxSize self.size self.head
          self.maxSize uninitialised)) ∨
      ((self.resize prevMaxSize uninitialised .none).1 = .error .hangs ∧
        ¬ (prevMaxSize = self.maxSize ∨ TrimmingEnds dataFile prevMaxSize self.size self.head
          self.maxSize uninitialised)) := by
  unfold resize
  by_cases hsame : prevMaxSize = self.maxSize
  · rw [if_pos hsame]
    exact .inl ⟨rfl, .inl hsame⟩
  rw [if_neg hsame]
  -- reading succeeds, and it looks at the data file and the head only
  have hread : ∃ buffer, ∀ file : EmerCircularFile, file.disk.dataFile = some dataFile →
      file.head = self.head →
      file.readDiskBytes ((List.range (min self.size self.maxSize)).map uninitialised)
        (min self.size self.maxSize) prevMaxSize true = .ok buffer := by
    unfold readDiskBytes
    by_cases hzero : min self.size self.maxSize = 0
    · exact ⟨_, fun file hfile hhead => by rw [if_pos hzero]⟩
    · exact ⟨_, fun file hfile hhead => by rw [if_neg hzero, hfile, hhead]⟩
  obtain ⟨buffer, hread⟩ := hread
  have hends : TrimmingEnds dataFile prevMaxSize self.size self.head self.maxSize uninitialised ↔
      getTrimmedSize buffer (min self.size self.maxSize) ≠ none := by
    unfold TrimmingEnds
    rw [hread ⟨⟨some dataFile, .absent⟩, KeyFile.empty, [], self.maxSize, self.size, self.head⟩ rfl
      rfl]
    simp
  have hfault : decide (InitFault.none ≠ InitFault.readData) = true := by decide
  rw [hends, hfault]
  simp only [hread self hdata rfl, hsame, false_or, not_not]
  cases htrimmed : getTrimmedSize buffer (min self.size self.maxSize) with
  | none => exact .inr ⟨rfl, rfl⟩
  | some newSize => exact .inl ⟨self.overwrite_succeeding _ _, by simp⟩

section New

variable {dataFile : Option Bytes} {keyFile : KeyFile} (maxSize : Nat)
  (uninitialised : Nat → UInt8)

theorem new_of_noGroup (hgroup : keyFile.hasGroup metadataGroupName = false) :
    ∃ file disk, new ⟨dataFile, .parsed keyFile⟩ maxSize false uninitialised .none =
      (.ok file, disk) := by
  simp [new, initableInit, loadMetadata, KeyFileOnDisk.load, hgroup, setMetadata, setMaxSizeKey,
    saveMetadataFile]

theorem new_of_refused (hgroup : keyFile.hasGroup metadataGroupName = true) {e : GError}
    (hparse : parseMetadata keyFile = .error e) :
    ∃ disk, new ⟨dataFile, .parsed keyFile⟩ maxSize false uninitialised .none =
      (.error e, disk) := by
  simp [new, initableInit, loadMetadata, KeyFileOnDisk.load, hgroup, hparse]

end New

/-- Every way in which the circular file of the first attempt can be opened. -/
theorem new_succeeding (variants : CircularFileOnDisk) (maxSize : Nat)
    (uninitialised : Nat → UInt8) :
    (∃ file disk, new variants maxSize false uninitialised .none = (.ok file, disk) ∧
        CircularFileOpens variants maxSize uninitialised ∧
        ¬ MetadataRaisesKeyFileError variants.metadataFile) ∨
      ∃ e disk, new variants maxSize false uninitialised .none = (.error e, disk) ∧
        ¬ CircularFileOpens variants maxSize uninitialised ∧
        (e.isKeyFileError = true ↔ MetadataRaisesKeyFileError variants.metadataFile) := by
  obtain ⟨dataFile, metadataFile⟩ := variants
  cases metadataFile with
  | absent => exact .inl ⟨_, _, rfl, trivial, id⟩
  | unparsable => exact .inr ⟨_, _, rfl, id, iff_of_true rfl trivial⟩
  | parsed keyFile =>
    simp only [CircularFileOpens, MetadataRaisesKeyFileError]
    cases hgroup : keyFile.hasGroup metadataGroupName with
    | false =>
      obtain ⟨file, disk, hnew⟩ := @new_of_noGroup dataFile _ maxSize uninitialised hgroup
      exact .inl ⟨file, disk, hnew, by simp, by simp⟩
    | true =>
      cases hparse : parseMetadata keyFile with
      | error e =>
        obtain ⟨disk, hnew⟩ :=
          @new_of_refused dataFile _ maxSize uninitialised hgroup _ hparse
        exact .inr ⟨e, disk, hnew, by simp, by simpa using parseMetadata_error hparse⟩
      | ok parsed =>
        obtain ⟨prevMaxSize, size, head⟩ := parsed
        have hresize := resize_succeeding
          (parsedObject (dataFile.getD []) keyFile maxSize size head) prevMaxSize uninitialised rfl
        cases hresult : (parsedObject (dataFile.getD []) keyFile maxSize size head).resize
            prevMaxSize uninitialised .none with
        | mk result self =>
          have hnew := new_of_accepted maxSize uninitialised hgroup hparse hresult
          rw [hresult] at hresize
          rcases hresize with ⟨hok, hends⟩ | ⟨hhangs, hends⟩
          · obtain rfl : result = .ok () := hok
            exact .inl ⟨self, self.disk, hnew, .inr ⟨prevMaxSize, size, head, rfl, hends⟩, by simp⟩
          · obtain rfl : result = .error .hangs := hhangs
            refine .inr ⟨.hangs, self.disk, hnew, ?_, by simp [GError.isKeyFileError]⟩
            rintro (h | ⟨prevMaxSize', size', head', h, hends'⟩)
            · cases h
            · cases h
              exact hends hends'

end EmerCircularFile

open EmerPersistentCachePrivate

/-- A second attempt succeeds exactly when the boot offset can be had. -/
theorem attempt_reinitialized_ok_iff (directory : CacheDirectory) (maxCacheSize : Nat)
    (idIsValid : Bool) (uninitialised : Nat → UInt8) (time : Int × Int) (bootId : Uuid) :
    (∃ self, (attempt directory maxCacheSize true idIsValid uninitialised time bootId).result =
        .ok self) ↔
      BootOffsetUsable directory.bootMetadataFile (attemptBootId idIsValid bootId) := by
  obtain ⟨variantFile, disk, hnew⟩ : ∃ variantFile disk,
      EmerCircularFile.new directory.variants maxCacheSize true uninitialised .none =
        (.ok variantFile, disk) := ⟨_, _, rfl⟩
  have houtcome := initableInit_outcome variantFile directory idIsValid time bootId
  rw [attempt, EmerPersistentCachePrivate.new, hnew]
  simp only
  generalize (overVariantFile variantFile directory idIsValid).initableInit
    (succeedingContext time bootId) = result at houtcome ⊢
  cases houtcome with
  | @succeeds after husable => exact iff_of_true ⟨after, rfl⟩ husable
  | unreadable he hraises => exact iff_of_false (by simp [initializeOver]) (hraises _).not_usable
  | withoutTimes he hraises => exact iff_of_false (by simp [initializeOver]) hraises.not_usable
  | noUuid he hnot hunusable => exact iff_of_false (by simp [initializeOver]) (hunusable _)

section Recovers

variable {directory : CacheDirectory} {maxCacheSize : Nat} {uninitialised : Nat → UInt8}
  {time time' : Int × Int} {bootId : Uuid}

theorem recovers_of_ok {self : EmerPersistentCachePrivate}
    (hfirst : (attempt directory maxCacheSize false false uninitialised time bootId).result =
      .ok self) :
    Recovers directory maxCacheSize uninitialised time time' bootId := by
  intro e he
  rw [hfirst] at he
  cases he

/-- After a first attempt that failed it is the second one that counts. -/
theorem recovers_iff_second {first : Opened}
    (hfirst : attempt directory maxCacheSize false false uninitialised time bootId = first)
    {e : GError} (hresult : first.result = .error e) :
    Recovers directory maxCacheSize uninitialised time time' bootId ↔
      (e.isKeyFileError = true →
        BootOffsetUsable first.directory.bootMetadataFile
          (attemptBootId first.idIsValid bootId)) := by
  unfold Recovers openPersistentCache
  simp only [hfirst, hresult, Except.error.injEq, forall_eq']
  apply imp_congr_right
  intro he
  rw [if_pos he, ← attempt_reinitialized_ok_iff first.directory maxCacheSize first.idIsValid
    uninitialised time' bootId]
  cases (attempt first.directory maxCacheSize true first.idIsValid uninitialised time'
    bootId).result <;> simp

end Recovers

/-- **The recovery path recovers exactly when the file with the boot offset is not what is corrupt:
it has to be usable where the first attempt failed over the circular file, and it must not fail the
first attempt itself, unless only its times are missing and its boot ID is the one of zeros, which
the second attempt takes for the ID of the system.** -/
theorem recovers_iff (directory : CacheDirectory) (maxCacheSize : Nat)
    (uninitialised : Nat → UInt8) (time time' : Int × Int) (bootId : Uuid) :
    Recovers directory maxCacheSize uninitialised time time' bootId ↔
      (MetadataRaisesKeyFileError directory.variants.metadataFile →
        BootOffsetUsable directory.bootMetadataFile bootId) ∧
      (CircularFileOpens directory.variants maxCacheSize uninitialised →
        BootOffsetRaisesKeyFileError directory.bootMetadataFile bootId →
          BootOffsetUsable directory.bootMetadataFile Uuid.null) := by
  rcases EmerCircularFile.new_succeeding directory.variants maxCacheSize uninitialised
    with ⟨variantFile, disk, hnew, hopens, hmetadata⟩ | ⟨e, disk, hnew, hopens, hmetadata⟩
  · have houtcome := initableInit_outcome variantFile directory false time bootId
    have hfirst : attempt directory maxCacheSize false false uninitialised time bootId =
        initializeOver ((overVariantFile variantFile directory false).initableInit
          (succeedingContext time bootId)) := by
      rw [attempt, EmerPersistentCachePrivate.new, hnew]
    generalize (overVariantFile variantFile directory false).initableInit
      (succeedingContext time bootId) = result at houtcome hfirst
    -- the circular file is open, so what happens is up to the boot offset
    simp only [hmetadata, hopens, false_imp_iff, true_and, true_imp_iff]
    cases houtcome with
    | succeeds husable =>
      refine iff_of_true (recovers_of_ok (by rw [hfirst]; rfl)) fun hraises => ?_
      exact absurd husable hraises.not_usable
    | unreadable he hraises hfile =>
      rw [recovers_iff_second hfirst rfl]
      simp only [initializeOver, EmerPersistentCachePrivate.directory, hfile, he, true_imp_iff]
      refine iff_of_false (hraises _).not_usable ?_
      exact fun h => (hraises _).not_usable (h (hraises bootId))
    | withoutTimes he hraises hfile hvalid =>
      rw [recovers_iff_second hfirst rfl]
      have hraises : BootOffsetRaisesKeyFileError directory.bootMetadataFile bootId := hraises
      simp only [initializeOver, EmerPersistentCachePrivate.directory, hfile, he, hvalid,
        attemptBootId, if_true, hraises, true_imp_iff]
    | noUuid he hnot hunusable =>
      rw [recovers_iff_second hfirst rfl]
      simp [hnot, he]
  · have hfirst : attempt directory maxCacheSize false false uninitialised time bootId =
        ⟨.error e, { directory with variants := disk }, false⟩ := by
      rw [attempt, EmerPersistentCachePrivate.new, hnew]
    rw [recovers_iff_second hfirst rfl, hmetadata]
    simp [hopens, attemptBootId]

/-- An empty file with the boot offset, as a crash leaves it, beside a circular file that can be
opened. -/
theorem not_recovers_empty_bootOffsetFile :
    ¬ Recovers ⟨⟨none, .absent⟩, .absent, .parsed KeyFile.empty⟩ 10000 (fun _ => 0) (5, 100)
      (6, 101) ⟨List.replicate 32 1, List.length_replicate⟩ := by
  intro h
  obtain ⟨self, hself⟩ := h (.keyFile .groupNotFound) rfl rfl
  cases hself

end EventRecorder
