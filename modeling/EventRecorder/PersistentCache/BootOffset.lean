import EventRecorder.PersistentCache.Recovery
import EventRecorder.Theory.Run

/-!
# Boot offsets over many boots

The clock of a boot starts at the boot, and the wall clock runs beside it with some adjustment.  The
boot-offset file holds both clocks at its last write, the offset of the boot of that write, and its
ID.  The first write that succeeds makes its boot the origin.  As long as the adjustment is the same
at the last write of one boot and at the first one of a later boot, each offset is the true distance
to the origin.
-/

namespace EventRecorder

open Theory EmerPersistentCachePrivate

/-! ## 1. Boots and restarts -/

/-- When each boot starts, how far the wall clock is ahead of the true time, and the boot IDs. -/
structure Boots where
  start : Nat → Int
  adjustment : Int → Int
  bootId : Nat → Uuid

/-- The metadata writes of a call that succeed. -/
structure MetadataWrites where
  purged : Bool
  versionSaved : Bool
  bootMetadataSaved : Bool
  deriving DecidableEq

/-- What a call at a true time finds in a boot. -/
def Boots.context (boots : Boots) (boot : Nat) (time : Int) (writes : MetadataWrites) :
    CallContext where
  currentTime := some (time - boots.start boot, time + boots.adjustment time)
  bootIdFile := some (boots.bootId boot)
  purged := writes.purged
  versionSaved := writes.versionSaved
  bootMetadataSaved := writes.bootMetadataSaved

/-- How a cache is opened: by `emer_persistent_cache_new_full` with the boot ID provider given, in a
process whose static variable is given. -/
structure NewCall where
  cacheSize : Nat
  reinitializeCache : Bool
  bootIdProvider : EmerBootIdProvider
  idIsValid : Bool
  fault : InitFault
  deriving DecidableEq

namespace EmerPersistentCachePrivate

def newFull (directory : CacheDirectory) (call : NewCall) (uninitialised : Nat → UInt8)
    (context : CallContext) : Opened :=
  match EmerCircularFile.new directory.variants call.cacheSize call.reinitializeCache uninitialised
      call.fault with
  | (.error e, variants) => ⟨.error e, { directory with variants := variants }, call.idIsValid⟩
  | (.ok variantFile, _) =>
    initializeOver ({ overVariantFile variantFile directory call.idIsValid with
      bootIdProvider := call.bootIdProvider }.initableInit context)

end EmerPersistentCachePrivate

inductive BootEvent where
  | newCache (time : Int) (call : NewCall) (writes : MetadataWrites)
  /-- `update_boot_offset_source_func`. -/
  | updateTimestamps (time : Int) (writes : MetadataWrites)
  | finalize (time : Int) (writes : MetadataWrites)
  /-- The process ends without an end of the cache. -/
  | killed
  | reboot
  deriving DecidableEq

inductive CacheLife where
  | closed (directory : CacheDirectory)
  | opened (cache : EmerPersistentCachePrivate)

def CacheLife.directory : CacheLife → CacheDirectory
  | .closed directory => directory
  | .opened cache => cache.directory

/-- The boot that the machine is in, the cache, and the boot and the true time of every write to the
boot-offset file so far, the last one first. -/
structure BootHistory where
  boot : Nat
  life : CacheLife
  writes : List (Nat × Int)

namespace BootHistory

def start (directory : CacheDirectory) : BootHistory := ⟨0, .closed directory, []⟩

def bootMetadataFile (history : BootHistory) : KeyFileOnDisk :=
  history.life.directory.bootMetadataFile

/-- The boot of the first write. -/
def origin (history : BootHistory) : Option Nat :=
  history.writes.getLast?.map Prod.fst

/-- Every write that succeeds shows in the file, unless it is the last one over again. -/
def record (history : BootHistory) (time : Int) (life : CacheLife) : BootHistory where
  boot := history.boot
  life := life
  writes :=
    if life.directory.bootMetadataFile = history.bootMetadataFile then history.writes
    else (history.boot, time) :: history.writes

def afterNew (opened : Opened) : CacheLife :=
  match opened.result with
  | .ok cache => .opened cache
  | .error _ => .closed opened.directory

variable (boots : Boots) (uninitialised : Nat → UInt8)

def step (history : BootHistory) : BootEvent → BootHistory
  | .newCache time call writes =>
    history.record time (afterNew (newFull history.life.directory call uninitialised
      (boots.context history.boot time writes)))
  | .updateTimestamps time writes =>
    match history.life with
    | .closed _ => history
    | .opened cache =>
      history.record time
        (.opened (cache.updateBootOffset true (boots.context history.boot time writes)).2)
  | .finalize time writes =>
    match history.life with
    | .closed _ => history
    | .opened cache =>
      history.record time
        (.closed (cache.finalize (boots.context history.boot time writes)))
  | .killed => { history with life := .closed history.life.directory }
  | .reboot =>
    { history with boot := history.boot + 1, life := .closed history.life.directory }

def InInt64 (i : Int) : Prop :=
  -2 ^ 63 ≤ i ∧ i < 2 ^ 63

instance (i : Int) : Decidable (InInt64 i) := inferInstanceAs (Decidable (_ ∧ _))

/-- The clocks and the distances between the boots so far do not overflow. -/
def NoOverflow (history : BootHistory) (time : Int) : Prop :=
  InInt64 (time - boots.start history.boot) ∧ InInt64 (time + boots.adjustment time) ∧
    ∀ earlier, earlier < history.boot + 1 →
      InInt64 (boots.start history.boot - boots.start earlier)

instance (history : BootHistory) (time : Int) : Decidable (history.NoOverflow boots time) :=
  inferInstanceAs (Decidable (_ ∧ _ ∧ _))

/-- The boot ID provider reports the ID of the boot, which no earlier boot had. -/
def ReportsBootId (history : BootHistory) (call : NewCall) : Prop :=
  (call.bootIdProvider.getId call.idIsValid (some (boots.bootId history.boot))).1 =
      some (boots.bootId history.boot) ∧
    ∀ earlier, earlier < history.boot → boots.bootId earlier ≠ boots.bootId history.boot

instance (history : BootHistory) (call : NewCall) :
    Decidable (history.ReportsBootId boots call) :=
  inferInstanceAs (Decidable (_ ∧ _))

def IsOpened (history : BootHistory) : Prop :=
  match history.life with
  | .closed _ => False
  | .opened _ => True

instance (history : BootHistory) : Decidable history.IsOpened := by
  unfold IsOpened
  cases history.life
  · exact isFalse id
  · exact isTrue trivial

/-- One cache at a time. -/
def Admissible (history : BootHistory) : BootEvent → Prop
  | .newCache time call _ =>
    ¬ history.IsOpened ∧ history.NoOverflow boots time ∧ history.ReportsBootId boots call
  | .updateTimestamps time _ => history.NoOverflow boots time
  | .finalize time _ => history.NoOverflow boots time
  | .killed => True
  | .reboot => True

instance (history : BootHistory) : ∀ event, Decidable (history.Admissible boots event)
  | .newCache _ _ _ => inferInstanceAs (Decidable (_ ∧ _ ∧ _))
  | .updateTimestamps _ _ => inferInstanceAs (Decidable (NoOverflow boots _ _))
  | .finalize _ _ => inferInstanceAs (Decidable (NoOverflow boots _ _))
  | .killed => isTrue trivial
  | .reboot => isTrue trivial

/-- A write that follows one of an earlier boot is made at the same adjustment of the wall clock. -/
def SteadyClock (history : BootHistory) (event : BootEvent) : Prop :=
  ∀ latest ∈ (history.step boots uninitialised event).writes.head?,
    ∀ previous ∈ history.writes.head?, previous.1 ≠ latest.1 →
      boots.adjustment latest.2 = boots.adjustment previous.2

end BootHistory

/-! ## 2. What a write leaves -/

/-- The key file has the offset of a boot, from the origin, and its ID. -/
structure RecordsBoot (boots : Boots) (keyFile : KeyFile) (boot origin : Nat) : Prop where
  bootOffset_eq : keyFile.getInt64 cacheTimingGroupName cacheBootOffsetKey =
    .ok (boots.start boot - boots.start origin)
  bootId_eq : savedBootIdIn keyFile = some (boots.bootId boot)

/-- The key file has both clocks as they were at a true time in a boot. -/
structure RecordsTimes (boots : Boots) (keyFile : KeyFile) (boot : Nat) (time : Int) : Prop where
  relativeTime_eq : keyFile.getInt64 cacheTimingGroupName cacheRelativeTimeKey =
    .ok (time - boots.start boot)
  absoluteTime_eq : keyFile.getInt64 cacheTimingGroupName cacheAbsoluteTimeKey =
    .ok (time + boots.adjustment time)

section Writes

variable {boots : Boots} {keyFile : KeyFile} {boot origin : Nat} {time : Int}

theorem savedBootIdIn_setValue {key : String} {t : Text} {id : Uuid}
    (hne : (cacheTimingGroupName, cacheLastBootIdKey) ≠ (cacheTimingGroupName, key))
    (hid : savedBootIdIn keyFile = some id) :
    savedBootIdIn (keyFile.setValue cacheTimingGroupName key t) = some id := by
  obtain ⟨idAsString, hstring, hparse⟩ := savedBootIdIn_eq hid
  have hkept : (keyFile.setValue cacheTimingGroupName key t).getString cacheTimingGroupName
      cacheLastBootIdKey = .ok idAsString := (KeyFile.getParsed_setValue_ne_eq_ok hne).mpr hstring
  rw [savedBootIdIn, hkept]
  exact hparse

theorem savedBootIdIn_setString (id : Uuid) :
    savedBootIdIn (keyFile.setString cacheTimingGroupName cacheLastBootIdKey id.unparseLower) =
      some id := by
  rw [savedBootIdIn, KeyFile.getString_setString]
  simp only [Uuid.rdropWhile_unparseLower, Uuid.parse_unparseLower]

/-- Writing the times alone keeps the offset and the ID. -/
theorem RecordsBoot.updateTimes (h : RecordsBoot boots keyFile boot origin)
    (relativeTime absoluteTime : Int) :
    RecordsBoot boots (setTimingMetadata keyFile relativeTime absoluteTime none none none) boot
      origin := by
  refine ⟨?_, ?_⟩
  · exact (KeyFile.getParsed_setValue_ne_eq_ok (by decide)).mpr
      ((KeyFile.getParsed_setValue_ne_eq_ok (by decide)).mpr h.bootOffset_eq)
  · exact savedBootIdIn_setValue (by decide) (savedBootIdIn_setValue (by decide) h.bootId_eq)

theorem recordsTimes_update (hrelative : BootHistory.InInt64 (time - boots.start boot))
    (habsolute : BootHistory.InInt64 (time + boots.adjustment time)) :
    RecordsTimes boots (setTimingMetadata keyFile (time - boots.start boot)
      (time + boots.adjustment time) none none none) boot time :=
  ⟨(KeyFile.getParsed_setValue_ne_eq_ok (by decide)).mpr
      (KeyFile.getInt64_setInt64 _ _ _ hrelative.1 hrelative.2),
    KeyFile.getInt64_setInt64 _ _ _ habsolute.1 habsolute.2⟩

/-- What a write for a new boot leaves. -/
def bootKeyFile (keyFile : KeyFile) (relativeTime absoluteTime bootOffset : Int) (id : Uuid)
    (wasReset : Bool) : KeyFile :=
  setTimingMetadata keyFile relativeTime absoluteTime (some bootOffset) (some id.unparseLower)
    (some wasReset)

theorem savedBootIdIn_bootKeyFile (relativeTime absoluteTime bootOffset : Int) (id : Uuid)
    (wasReset : Bool) :
    savedBootIdIn (bootKeyFile keyFile relativeTime absoluteTime bootOffset id wasReset) =
      some id :=
  savedBootIdIn_setValue (by decide) (savedBootIdIn_setString id)

theorem recordsTimes_bootKeyFile (hrelative : BootHistory.InInt64 (time - boots.start boot))
    (habsolute : BootHistory.InInt64 (time + boots.adjustment time)) (bootOffset : Int) (id : Uuid)
    (wasReset : Bool) :
    RecordsTimes boots (bootKeyFile keyFile (time - boots.start boot)
      (time + boots.adjustment time) bootOffset id wasReset) boot time := by
  constructor
  · exact (KeyFile.getParsed_setValue_ne_eq_ok (by decide)).mpr
      ((KeyFile.getParsed_setValue_ne_eq_ok (by decide)).mpr
        ((KeyFile.getParsed_setValue_ne_eq_ok (by decide)).mpr
          ((KeyFile.getParsed_setValue_ne_eq_ok (by decide)).mpr
            (KeyFile.getInt64_setInt64 _ _ _ hrelative.1 hrelative.2))))
  · exact (KeyFile.getParsed_setValue_ne_eq_ok (by decide)).mpr
      ((KeyFile.getParsed_setValue_ne_eq_ok (by decide)).mpr
        ((KeyFile.getParsed_setValue_ne_eq_ok (by decide)).mpr
          (KeyFile.getInt64_setInt64 _ _ _ habsolute.1 habsolute.2)))

theorem recordsBoot_bootKeyFile
    (hoffset : BootHistory.InInt64 (boots.start boot - boots.start origin))
    (relativeTime absoluteTime : Int) (wasReset : Bool) :
    RecordsBoot boots (bootKeyFile keyFile relativeTime absoluteTime
      (boots.start boot - boots.start origin) (boots.bootId boot) wasReset) boot origin := by
  refine ⟨?_, savedBootIdIn_bootKeyFile _ _ _ _ _⟩
  exact (KeyFile.getParsed_setValue_ne_eq_ok (by decide)).mpr
    ((KeyFile.getParsed_setValue_ne_eq_ok (by decide)).mpr
      (KeyFile.getInt64_setInt64 _ _ _ hoffset.1 hoffset.2))

end Writes

/-! ## 3. Opening in the origin boot, in the same boot and in a later one -/

namespace EmerPersistentCachePrivate

variable {self : EmerPersistentCachePrivate} {boots : Boots} {boot origin : Nat} {time : Int}
  {writes : MetadataWrites}

/-- The provider answers with the ID of the boot. -/
def ReportsId (self : EmerPersistentCachePrivate) (id : Uuid) : Prop :=
  (self.bootIdProvider.getId self.idIsValid (some id)).1 = some id

theorem getSystemBootId_eq (h : self.ReportsId (boots.bootId boot)) :
    ∃ provider idIsValid, self.getSystemBootId (boots.context boot time writes) =
      (.ok (boots.bootId boot),
        { self with bootIdProvider := provider, idIsValid := idIsValid }) := by
  unfold ReportsId at h
  unfold getSystemBootId
  have hfile : (boots.context boot time writes).bootIdFile = some (boots.bootId boot) := rfl
  rw [hfile]
  generalize self.bootIdProvider.getId self.idIsValid (some (boots.bootId boot)) = answer at h ⊢
  obtain ⟨id, provider, idIsValid⟩ := answer
  obtain rfl : id = some (boots.bootId boot) := h
  exact ⟨provider, idIsValid, rfl⟩

/-- Versioning has no part in the boot offset. -/
theorem applyCacheVersioning_frame (self : EmerPersistentCachePrivate) (context : CallContext) :
    ∃ result cache provider, self.applyCacheVersioning context =
      (result, { self with cache := cache, cacheVersionProvider := provider }) := by
  unfold applyCacheVersioning purgeVariants
  generalize self.cacheVersionProvider.getVersion = version
  obtain ⟨oldVersion, provider⟩ := version
  simp only
  split
  · exact ⟨_, _, _, rfl⟩
  generalize self.cache.variantFile.purge context.purged = purged
  obtain ⟨e | ok, variantFile⟩ := purged
  · exact ⟨_, _, _, rfl⟩
  · exact ⟨_, _, _, rfl⟩

/-- The state of a cache that knows the offset of its boot. -/
structure KnowsOffset (cache : EmerPersistentCachePrivate) (boots : Boots) (boot origin : Nat) :
    Prop where
  initialized : cache.bootOffsetInitialized = true
  bootOffset_eq : cache.bootOffset = boots.start boot - boots.start origin
  records : RecordsBoot boots cache.bootOffsetKeyFile boot origin

/-- Without a file, the boot becomes the origin or nothing is written. -/
theorem updateBootOffset_origin (hnew : self.bootOffsetInitialized = false)
    (hfile : self.bootMetadataFile = .absent) (hid : self.ReportsId (boots.bootId boot)) :
    (∃ after keyFile, self.updateBootOffset false (boots.context boot time writes) =
        (.ok (), after) ∧ after.bootMetadataFile = .parsed keyFile ∧
        keyFile = bootKeyFile self.bootOffsetKeyFile (time - boots.start boot)
          (time + boots.adjustment time) 0 (boots.bootId boot) true ∧
        after.bootOffsetKeyFile = keyFile ∧ after.bootOffset = 0 ∧
        after.bootOffsetInitialized = true) ∨
      ∃ e after, self.updateBootOffset false (boots.context boot time writes) =
        (.error e, after) ∧ after.bootMetadataFile = .absent := by
  rw [updateBootOffset_of_absent false rfl hnew hfile]
  unfold resetBootOffsetMetadataFile
  obtain ⟨provider, idIsValid, hsystem⟩ := @getSystemBootId_eq
    { self with bootOffsetInitialized := false, bootIdInitialized := false } boots boot time writes
    hid
  simp only [hsystem, purgeVariants]
  generalize self.cache.variantFile.purge (boots.context boot time writes).purged = purged
  obtain ⟨e | ok, variantFile⟩ := purged
  · exact .inr ⟨_, _, rfl, hfile⟩
  cases hsaved : (boots.context boot time writes).bootMetadataSaved with
  | true => exact .inl ⟨_, _, rfl, rfl, rfl, rfl, rfl, rfl⟩
  | false => exact .inr ⟨_, _, rfl, hfile⟩

variable {keyFile : KeyFile} {earlier : Nat} {previous : Int}

/-- Up to the boot IDs. -/
theorem updateBootOffset_parsed (hnew : self.bootOffsetInitialized = false)
    (hnewId : self.bootIdInitialized = false) (hfile : self.bootMetadataFile = .parsed keyFile)
    (hid : self.ReportsId (boots.bootId boot))
    (hrecords : RecordsBoot boots keyFile earlier origin) :
    ∃ provider idIsValid, self.updateBootOffset false (boots.context boot time writes) =
      updateForBoot
        { self with
          bootOffsetKeyFile := keyFile, savedBootId := boots.bootId earlier
          bootIdInitialized := true, bootIdProvider := provider, idIsValid := idIsValid }
        false (time - boots.start boot) (time + boots.adjustment time)
        (boots.start earlier - boots.start origin) (boots.bootId earlier) (boots.bootId boot)
        writes.bootMetadataSaved := by
  obtain ⟨provider, idIsValid, hsystem⟩ := @getSystemBootId_eq
    { self with
      bootOffsetKeyFile := keyFile, savedBootId := boots.bootId earlier, bootIdInitialized := true }
    boots boot time writes hid
  refine ⟨provider, idIsValid, ?_⟩
  rw [updateBootOffset_of_parsed false rfl hnew hfile, updateFromFile]
  have hsaved := @getSavedBootId_of_saved { self with bootOffsetKeyFile := keyFile } hnewId _
    hrecords.bootId_eq
  simp only [hrecords.bootOffset_eq, hsaved, hsystem]
  rfl

/-- In the boot of the last write the offset is the one in the file. -/
theorem updateBootOffset_sameBoot (hnew : self.bootOffsetInitialized = false)
    (hnewId : self.bootIdInitialized = false) (hfile : self.bootMetadataFile = .parsed keyFile)
    (hid : self.ReportsId (boots.bootId boot)) (hrecords : RecordsBoot boots keyFile boot origin) :
    ∃ after, self.updateBootOffset false (boots.context boot time writes) = (.ok (), after) ∧
      after.bootMetadataFile = .parsed keyFile ∧ after.KnowsOffset boots boot origin := by
  obtain ⟨provider, idIsValid, hupdate⟩ :=
    @updateBootOffset_parsed self boots boot origin time writes keyFile boot hnew hnewId hfile hid
      hrecords
  rw [updateForBoot, if_pos rfl] at hupdate
  exact ⟨_, hupdate, hfile, rfl, rfl, hrecords⟩

/-- In a later boot it is computed from the clocks of the last write and those of now. -/
theorem updateBootOffset_laterBoot (hnew : self.bootOffsetInitialized = false)
    (hnewId : self.bootIdInitialized = false) (hfile : self.bootMetadataFile = .parsed keyFile)
    (hid : self.ReportsId (boots.bootId boot))
    (hrecords : RecordsBoot boots keyFile earlier origin)
    (htimes : RecordsTimes boots keyFile earlier previous)
    (hne : boots.bootId earlier ≠ boots.bootId boot) :
    (∃ after keyFile' bootOffset,
        self.updateBootOffset false (boots.context boot time writes) = (.ok (), after) ∧
        after.bootMetadataFile = .parsed keyFile' ∧
        bootOffset = boots.start boot - boots.start origin +
          (boots.adjustment time - boots.adjustment previous) ∧
        keyFile' = bootKeyFile keyFile (time - boots.start boot) (time + boots.adjustment time)
          bootOffset (boots.bootId boot) false ∧
        after.bootOffsetKeyFile = keyFile' ∧ after.bootOffset = bootOffset ∧
        after.bootOffsetInitialized = true) ∨
      ∃ e after, self.updateBootOffset false (boots.context boot time writes) = (.error e, after) ∧
        after.bootMetadataFile = .parsed keyFile := by
  obtain ⟨provider, idIsValid, hupdate⟩ :=
    @updateBootOffset_parsed self boots boot origin time writes keyFile earlier hnew hnewId hfile
      hid hrecords
  rw [updateForBoot, if_neg hne] at hupdate
  simp only [computeBootOffset, hrecords.bootOffset_eq, htimes.relativeTime_eq,
    htimes.absoluteTime_eq] at hupdate
  cases hsaved : writes.bootMetadataSaved with
  | true =>
    rw [hsaved] at hupdate
    refine .inl ⟨_, _, _, hupdate, rfl, ?_, rfl, rfl, rfl, rfl⟩
    ring
  | false =>
    rw [hsaved] at hupdate
    exact .inr ⟨_, _, hupdate, hfile⟩

end EmerPersistentCachePrivate

/-! ## 4. What every step keeps -/

/-- The file is what the last write left, in a boot no earlier than the origin. -/
structure LastWrite (boots : Boots) (file : KeyFileOnDisk) (writes : List (Nat × Int))
    (boot origin : Nat) (time : Int) (keyFile : KeyFile) : Prop where
  head_eq : writes.head? = some (boot, time)
  origin_eq : writes.getLast?.map Prod.fst = some origin
  file_eq : file = .parsed keyFile
  recordsBoot : RecordsBoot boots keyFile boot origin
  recordsTimes : RecordsTimes boots keyFile boot time

/-- Nothing has been written, or the file is what the last write left; an open cache is in the boot
of the last write and knows its offset. -/
inductive Tracks (boots : Boots) : BootHistory → Prop where
  | unwritten {boot : Nat} {directory : CacheDirectory}
      (hfile : directory.bootMetadataFile = .absent) : Tracks boots ⟨boot, .closed directory, []⟩
  | closed {boot latest origin : Nat} {directory : CacheDirectory} {writes : List (Nat × Int)}
      {time : Int} {keyFile : KeyFile} (hle : latest ≤ boot)
      (hwrite : LastWrite boots directory.bootMetadataFile writes latest origin time keyFile)
      (horigin : origin ≤ latest) : Tracks boots ⟨boot, .closed directory, writes⟩
  | opened {boot origin : Nat} {cache : EmerPersistentCachePrivate} {writes : List (Nat × Int)}
      {time : Int} {keyFile : KeyFile}
      (hwrite : LastWrite boots cache.bootMetadataFile writes boot origin time keyFile)
      (horigin : origin ≤ boot) (hknows : cache.KnowsOffset boots boot origin) :
      Tracks boots ⟨boot, .opened cache, writes⟩

section Steps

variable {boots : Boots} {boot : Nat} {writes : List (Nat × Int)} {time : Int}

theorem record_of_same (life life' : CacheLife)
    (hsame : life'.directory.bootMetadataFile = life.directory.bootMetadataFile) :
    BootHistory.record ⟨boot, life, writes⟩ time life' = ⟨boot, life', writes⟩ :=
  congrArg (BootHistory.mk boot life') (if_pos hsame)

theorem record_of_changed (life life' : CacheLife)
    (hchanged : life'.directory.bootMetadataFile ≠ life.directory.bootMetadataFile) :
    BootHistory.record ⟨boot, life, writes⟩ time life' =
      ⟨boot, life', (boot, time) :: writes⟩ :=
  congrArg (BootHistory.mk boot life') (if_neg hchanged)

/-- Writing the times again in the boot of the last write. -/
theorem LastWrite.record {file file' : KeyFileOnDisk} {origin : Nat} {previous : Int}
    {keyFile keyFile' : KeyFile} (h : LastWrite boots file writes boot origin previous keyFile)
    (hfile' : file' = .parsed keyFile') (hboot : RecordsBoot boots keyFile' boot origin)
    (htimes : RecordsTimes boots keyFile' boot time) :
    LastWrite boots file' ((boot, time) :: writes) boot origin time keyFile' := by
  refine ⟨rfl, ?_, hfile', hboot, htimes⟩
  have horigin := h.origin_eq
  rwa [List.getLast?_cons_of_ne_nil (by rintro rfl; cases horigin)]

/-- Opening ends before the boot offset, with the boot-offset file as it was, or it ends as updating
the offset of a fresh object does. -/
theorem newFull_cases (directory : CacheDirectory) (call : NewCall) (uninitialised : Nat → UInt8)
    (context : CallContext) :
    (∃ directory', BootHistory.afterNew (newFull directory call uninitialised context) =
        .closed directory' ∧ directory'.bootMetadataFile = directory.bootMetadataFile) ∨
      ∃ cache : EmerPersistentCachePrivate,
        cache.bootMetadataFile = directory.bootMetadataFile ∧
        cache.bootOffsetInitialized = false ∧ cache.bootIdInitialized = false ∧
        cache.bootIdProvider = call.bootIdProvider ∧ cache.idIsValid = call.idIsValid ∧
        newFull directory call uninitialised context =
          initializeOver (cache.updateBootOffset false context) := by
  unfold newFull
  generalize EmerCircularFile.new directory.variants call.cacheSize call.reinitializeCache
    uninitialised call.fault = opened
  obtain ⟨e | variantFile, variants⟩ := opened
  · exact .inl ⟨_, rfl, rfl⟩
  simp only [initableInit]
  obtain ⟨result, cache, provider, hversioning⟩ := applyCacheVersioning_frame
    { overVariantFile variantFile directory call.idIsValid with
      bootIdProvider := call.bootIdProvider } context
  rw [hversioning]
  cases result with
  | error e => exact .inl ⟨_, rfl, rfl⟩
  | ok => exact .inr ⟨_, rfl, rfl, rfl, rfl, rfl, rfl⟩

end Steps

namespace Tracks

variable {boots : Boots} {uninitialised : Nat → UInt8} {history : BootHistory}

section NewCache

variable {boot latest origin : Nat} {directory : CacheDirectory}
  {older : List (Nat × Int)} {time previous : Int} {keyFile : KeyFile}
  {cache : EmerPersistentCachePrivate} {writes : MetadataWrites}

/-- The first boot that writes the boot-offset file becomes the origin. -/
theorem newCache_unwritten (hfile : directory.bootMetadataFile = .absent)
    (hcache : cache.bootMetadataFile = directory.bootMetadataFile)
    (hnew : cache.bootOffsetInitialized = false) (hid : cache.ReportsId (boots.bootId boot))
    (hrelative : BootHistory.InInt64 (time - boots.start boot))
    (habsolute : BootHistory.InInt64 (time + boots.adjustment time))
    (hstarts : BootHistory.InInt64 (boots.start boot - boots.start boot)) :
    Tracks boots (BootHistory.record ⟨boot, .closed directory, []⟩ time (BootHistory.afterNew
      (initializeOver (cache.updateBootOffset false (boots.context boot time writes))))) := by
  rcases @updateBootOffset_origin cache boots boot time writes hnew (hcache.trans hfile) hid with
    ⟨after, keyFile, hupdate, hafter, hkeyFile, hmemory, hoffset, hinit⟩ |
      ⟨e, after, hupdate, hafter⟩
  · rw [hupdate]
    have hchanged : after.bootMetadataFile ≠ directory.bootMetadataFile := by
      rw [hafter, hfile]
      exact KeyFileOnDisk.noConfusion
    have hzero : boots.start boot - boots.start boot = 0 := Int.sub_self _
    have hrecords : RecordsBoot boots keyFile boot boot := by
      rw [hkeyFile, ← hzero]
      exact recordsBoot_bootKeyFile hstarts _ _ _
    show Tracks boots (BootHistory.record _ time (.opened after))
    rw [record_of_changed (.closed directory) (.opened after) hchanged]
    refine .opened ⟨rfl, rfl, hafter, hrecords, ?_⟩ le_rfl ⟨hinit, ?_, ?_⟩
    · rw [hkeyFile]
      exact recordsTimes_bootKeyFile hrelative habsolute _ _ _
    · exact hoffset.trans hzero.symm
    · rw [hmemory]
      exact hrecords
  · rw [hupdate]
    show Tracks boots (BootHistory.record _ time (.closed after.directory))
    rw [record_of_same (.closed directory) (.closed after.directory) (hafter.trans hfile.symm)]
    exact .unwritten hafter

/-- In the boot of the last write the file stays as it is. -/
theorem newCache_sameBoot
    (hwrite : LastWrite boots directory.bootMetadataFile older boot origin previous keyFile)
    (horigin : origin ≤ boot) (hcache : cache.bootMetadataFile = directory.bootMetadataFile)
    (hnew : cache.bootOffsetInitialized = false) (hnewId : cache.bootIdInitialized = false)
    (hid : cache.ReportsId (boots.bootId boot)) :
    Tracks boots (BootHistory.record ⟨boot, .closed directory, older⟩ time (BootHistory.afterNew
      (initializeOver (cache.updateBootOffset false (boots.context boot time writes))))) := by
  obtain ⟨after, hupdate, hafter, hknows⟩ :=
    @updateBootOffset_sameBoot cache boots boot origin time writes keyFile hnew hnewId
      (hcache.trans hwrite.file_eq) hid hwrite.recordsBoot
  rw [hupdate]
  show Tracks boots (BootHistory.record _ time (.opened after))
  rw [record_of_same (.closed directory) (.opened after) (hafter.trans hwrite.file_eq.symm)]
  exact .opened { hwrite with file_eq := hafter } horigin hknows

/-- In a later boot it is written with the offset to the same origin, provided that the clock was
not adjusted since. -/
theorem newCache_laterBoot (hlater : latest < boot)
    (hwrite : LastWrite boots directory.bootMetadataFile older latest origin previous keyFile)
    (horigin : origin ≤ latest) (hcache : cache.bootMetadataFile = directory.bootMetadataFile)
    (hnew : cache.bootOffsetInitialized = false) (hnewId : cache.bootIdInitialized = false)
    (hid : cache.ReportsId (boots.bootId boot)) (hne : boots.bootId latest ≠ boots.bootId boot)
    (hrelative : BootHistory.InInt64 (time - boots.start boot))
    (habsolute : BootHistory.InInt64 (time + boots.adjustment time))
    (hstarts : BootHistory.InInt64 (boots.start boot - boots.start origin))
    (hsteady : (boot, time) ∈ (BootHistory.record ⟨boot, .closed directory, older⟩ time
        (BootHistory.afterNew (initializeOver
          (cache.updateBootOffset false (boots.context boot time writes))))).writes.head? →
      boots.adjustment time = boots.adjustment previous) :
    Tracks boots (BootHistory.record ⟨boot, .closed directory, older⟩ time (BootHistory.afterNew
      (initializeOver (cache.updateBootOffset false (boots.context boot time writes))))) := by
  rcases @updateBootOffset_laterBoot cache boots boot origin time writes keyFile latest previous
    hnew hnewId (hcache.trans hwrite.file_eq) hid hwrite.recordsBoot hwrite.recordsTimes hne with
    ⟨after, keyFile', bootOffset, hupdate, hafter, hoffset, hkeyFile, hmemory, hvalue, hinit⟩ |
      ⟨e, after, hupdate, hafter⟩
  · rw [hupdate] at hsteady ⊢
    -- the ID of the boot is not the one that was there
    have hchanged : after.bootMetadataFile ≠ directory.bootMetadataFile := by
      intro heq
      rw [hafter, hwrite.file_eq] at heq
      have hsaved := hwrite.recordsBoot.bootId_eq
      rw [← KeyFileOnDisk.parsed.inj heq, hkeyFile, savedBootIdIn_bootKeyFile] at hsaved
      exact hne (Option.some.inj hsaved).symm
    have hsteady : boots.adjustment time = boots.adjustment previous := by
      apply hsteady
      show (boot, time) ∈ (BootHistory.record _ time (.opened after)).writes.head?
      rw [record_of_changed (.closed directory) (.opened after) hchanged]
      rfl
    have hdistance : bootOffset = boots.start boot - boots.start origin := by
      rw [hoffset, hsteady, Int.sub_self, Int.add_zero]
    have hrecords : RecordsBoot boots keyFile' boot origin := by
      rw [hkeyFile, hdistance]
      exact recordsBoot_bootKeyFile hstarts _ _ _
    show Tracks boots (BootHistory.record _ time (.opened after))
    rw [record_of_changed (.closed directory) (.opened after) hchanged]
    refine .opened ⟨rfl, ?_, hafter, hrecords, ?_⟩ (horigin.trans hlater.le) ⟨hinit, ?_, ?_⟩
    · have hlast := hwrite.origin_eq
      show ((boot, time) :: older).getLast?.map Prod.fst = some origin
      rwa [List.getLast?_cons_of_ne_nil (by rintro rfl; cases hlast)]
    · rw [hkeyFile]
      exact recordsTimes_bootKeyFile hrelative habsolute _ _ _
    · rw [hvalue, hdistance]
    · rw [hmemory]
      exact hrecords
  · rw [hupdate]
    show Tracks boots (BootHistory.record _ time (.closed after.directory))
    rw [record_of_same (.closed directory) (.closed after.directory)
      (hafter.trans hwrite.file_eq.symm)]
    exact .closed hlater.le { hwrite with file_eq := hafter } horigin

end NewCache

theorem newCache (h : Tracks boots history) {time : Int} {call : NewCall} {writes : MetadataWrites}
    (hok : history.Admissible boots (.newCache time call writes))
    (hsteady : history.SteadyClock boots uninitialised (.newCache time call writes)) :
    Tracks boots (history.step boots uninitialised (.newCache time call writes)) := by
  obtain ⟨hclosed, ⟨hrelative, habsolute, hstarts⟩, hreports, hdistinct⟩ := hok
  have hcases := newFull_cases history.life.directory call uninitialised
    (boots.context history.boot time writes)
  unfold BootHistory.SteadyClock at hsteady
  simp only [BootHistory.step] at hsteady ⊢
  cases h with
  | opened => exact absurd trivial hclosed
  | @unwritten boot directory hfile =>
    rcases hcases with
      ⟨directory', hafter, hsame⟩ | ⟨cache, hcache, hnew, hnewId, hprovider, hvalid, hopened⟩
    · rw [hafter, record_of_same (.closed directory) (.closed directory') hsame]
      exact .unwritten (hsame.trans hfile)
    · have hid : cache.ReportsId (boots.bootId boot) := by
        rw [ReportsId, hprovider, hvalid]
        exact hreports
      rw [hopened]
      exact newCache_unwritten hfile hcache hnew hid hrelative habsolute
        (hstarts boot (Nat.lt_succ_self boot))
  | @closed boot latest origin directory older previous keyFile hle hwrite horigin =>
    rcases hcases with
      ⟨directory', hafter, hsame⟩ | ⟨cache, hcache, hnew, hnewId, hprovider, hvalid, hopened⟩
    · rw [hafter, record_of_same (.closed directory) (.closed directory') hsame]
      exact .closed hle { hwrite with file_eq := hsame.trans hwrite.file_eq } horigin
    have hid : cache.ReportsId (boots.bootId boot) := by
      rw [ReportsId, hprovider, hvalid]
      exact hreports
    rw [hopened] at hsteady ⊢
    by_cases hsameBoot : latest = boot
    · subst hsameBoot
      exact newCache_sameBoot hwrite horigin hcache hnew hnewId hid
    · have hlater : latest < boot := Nat.lt_of_le_of_ne hle hsameBoot
      exact newCache_laterBoot hlater hwrite horigin hcache hnew hnewId hid
        (hdistinct latest hlater) hrelative habsolute
        (hstarts origin (show origin < boot + 1 by omega))
        fun hwritten => hsteady _ hwritten _ hwrite.head_eq hsameBoot

/-- An open cache writes the times and keeps the offset. -/
theorem updateTimes {boot origin : Nat} {cache : EmerPersistentCachePrivate} {time : Int}
    {writes : MetadataWrites} (hknows : cache.KnowsOffset boots boot origin)
    (hrelative : BootHistory.InInt64 (time - boots.start boot))
    (habsolute : BootHistory.InInt64 (time + boots.adjustment time)) :
    (cache.updateBootOffset true (boots.context boot time writes)).2.KnowsOffset boots boot origin ∧
      ((cache.updateBootOffset true (boots.context boot time writes)).2.bootMetadataFile =
          cache.bootMetadataFile ∨
        ∃ keyFile,
          (cache.updateBootOffset true (boots.context boot time writes)).2.bootMetadataFile =
            .parsed keyFile ∧ RecordsBoot boots keyFile boot origin ∧
          RecordsTimes boots keyFile boot time) := by
  rw [updateBootOffset_of_initialized true rfl hknows.initialized, if_pos rfl]
  have hrecords := hknows.records.updateTimes (time - boots.start boot)
    (time + boots.adjustment time)
  unfold saveTimingMetadata
  simp only
  split
  · exact ⟨⟨hknows.initialized, hknows.bootOffset_eq, hrecords⟩,
      .inr ⟨_, rfl, hrecords, recordsTimes_update hrelative habsolute⟩⟩
  · exact ⟨⟨hknows.initialized, hknows.bootOffset_eq, hrecords⟩, .inl rfl⟩

theorem step (h : Tracks boots history) {event : BootEvent}
    (hok : history.Admissible boots event)
    (hsteady : history.SteadyClock boots uninitialised event) :
    Tracks boots (history.step boots uninitialised event) := by
  cases event with
  | newCache time call writes => exact h.newCache hok hsteady
  | killed =>
    cases h with
    | unwritten hfile => exact .unwritten hfile
    | closed hle hwrite horigin => exact .closed hle hwrite horigin
    | opened hwrite horigin hknows => exact .closed le_rfl hwrite horigin
  | reboot =>
    cases h with
    | unwritten hfile => exact .unwritten hfile
    | closed hle hwrite horigin => exact .closed (Nat.le_succ_of_le hle) hwrite horigin
    | opened hwrite horigin hknows => exact .closed (Nat.le_succ _) hwrite horigin
  | updateTimestamps time writes =>
    cases h with
    | unwritten hfile => exact .unwritten hfile
    | closed hle hwrite horigin => exact .closed hle hwrite horigin
    | @opened boot origin cache older previous keyFile hwrite horigin hknows =>
      obtain ⟨hnext, hfile⟩ := @updateTimes boots boot origin cache time writes hknows hok.1 hok.2.1
      simp only [BootHistory.step]
      generalize (cache.updateBootOffset true (boots.context boot time writes)).2 = after
        at hnext hfile
      by_cases hsame : after.bootMetadataFile = cache.bootMetadataFile
      · rw [record_of_same (.opened cache) (.opened after) hsame]
        exact .opened { hwrite with file_eq := hsame.trans hwrite.file_eq } horigin hnext
      · obtain ⟨keyFile', hfile', hboot, htimes⟩ := hfile.resolve_left hsame
        rw [record_of_changed (.opened cache) (.opened after) hsame]
        exact .opened (hwrite.record hfile' hboot htimes) horigin hnext
  | finalize time writes =>
    cases h with
    | unwritten hfile => exact .unwritten hfile
    | closed hle hwrite horigin => exact .closed hle hwrite horigin
    | @opened boot origin cache older previous keyFile hwrite horigin hknows =>
      obtain ⟨-, hfile⟩ := @updateTimes boots boot origin cache time writes hknows hok.1 hok.2.1
      simp only [BootHistory.step, finalize]
      generalize (cache.updateBootOffset true (boots.context boot time writes)).2 = after
        at hfile
      by_cases hsame : after.bootMetadataFile = cache.bootMetadataFile
      · rw [record_of_same (.opened cache) (.closed after.directory) hsame]
        exact .closed le_rfl { hwrite with file_eq := hsame.trans hwrite.file_eq } horigin
      · obtain ⟨keyFile', hfile', hboot, htimes⟩ := hfile.resolve_left hsame
        rw [record_of_changed (.opened cache) (.closed after.directory) hsame]
        exact .closed le_rfl (hwrite.record hfile' hboot htimes) horigin

end Tracks

/-! ## 5. The origin of a whole run -/

namespace BootHistory

variable {boots : Boots} {uninitialised : Nat → UInt8}

theorem writes_suffix_record (history : BootHistory) (time : Int) (life : CacheLife) :
    history.writes <:+ (history.record time life).writes := by
  unfold record
  split
  · exact List.suffix_rfl
  · exact List.suffix_cons _ _

theorem writes_suffix_step (history : BootHistory) (event : BootEvent) :
    history.writes <:+ (history.step boots uninitialised event).writes := by
  unfold step
  cases event with
  | newCache time call writes => exact history.writes_suffix_record _ _
  | updateTimestamps time writes =>
    cases history.life with
    | closed => exact List.suffix_rfl
    | opened => exact history.writes_suffix_record _ _
  | finalize time writes =>
    cases history.life with
    | closed => exact List.suffix_rfl
    | opened => exact history.writes_suffix_record _ _
  | killed => exact List.suffix_rfl
  | reboot => exact List.suffix_rfl

/-- The first write stays the first one. -/
theorem origin_run {origin : Nat} (events : List BootEvent) (history : BootHistory)
    (h : history.origin = some origin) :
    (run (step boots uninitialised) history events).origin = some origin := by
  induction events generalizing history with
  | nil => exact h
  | cons event events ih =>
    apply ih
    obtain ⟨later, hlater⟩ := @writes_suffix_step boots uninitialised history event
    unfold BootHistory.origin at h ⊢
    have hsome : history.writes.getLast?.isSome = true := by
      rw [← Option.isSome_map, h]
      rfl
    rw [← hlater, List.getLast?_append, Option.or_of_isSome hsome]
    exact h

/-- Every offset that a cache answers in a boot is the true distance to the origin, which puts the
corrected timestamps of all boots on one scale. -/
def OffsetsFrom (boots : Boots) (origin : Nat) (history : BootHistory) : Prop :=
  ∀ cache, history.life = .opened cache →
    ∀ context offset after, cache.getBootTimeOffset context = (.ok offset, after) →
      offset = boots.start history.boot - boots.start origin ∧ after = cache ∧
        ∀ time, (time - boots.start history.boot) + offset = time - boots.start origin

end BootHistory

/-- The event is one in the life of an object. -/
def BootEvent.KeepsObject : BootEvent → Prop
  | .updateTimestamps _ _ => True
  | .newCache _ _ _ => False
  | .finalize _ _ => False
  | .killed => False
  | .reboot => False

/-! ## 6. Offsets over many boots -/

section Telescope

variable {boots : Boots} {uninitialised : Nat → UInt8} {history : BootHistory} {origin : Nat}

theorem getBootTimeOffset_of_initialized {cache : EmerPersistentCachePrivate}
    (hinit : cache.bootOffsetInitialized = true) (context : CallContext) :
    cache.getBootTimeOffset context =
      (context.currentTime.elim (.error .failed) fun _ => .ok cache.bootOffset, cache) := by
  unfold getBootTimeOffset
  cases htime : context.currentTime with
  | none => simp only [updateBootOffset, htime, Option.elim_none]
  | some time =>
    rw [updateBootOffset_of_initialized false htime hinit]
    rfl

theorem Tracks.offsetsFrom (h : Tracks boots history)
    (hopened : ∀ cache, history.life = .opened cache → history.origin = some origin) :
    history.OffsetsFrom boots origin := by
  intro cache hlife context offset after hoffset
  have horigin := hopened cache hlife
  cases h with
  | unwritten => cases hlife
  | closed => cases hlife
  | opened hwrite _ hknows =>
    cases hlife
    obtain ⟨rfl⟩ := Option.some.inj (hwrite.origin_eq.symm.trans horigin)
    rw [getBootTimeOffset_of_initialized hknows.initialized] at hoffset
    cases htime : context.currentTime with
    | none =>
      rw [htime] at hoffset
      cases hoffset
    | some now =>
      rw [htime] at hoffset
      cases hoffset
      refine ⟨hknows.bootOffset_eq, rfl, fun time => ?_⟩
      rw [hknows.bootOffset_eq]
      exact sub_add_sub_cancel time _ _

theorem Tracks.initialized (h : Tracks boots history) {cache : EmerPersistentCachePrivate}
    (hlife : history.life = .opened cache) : cache.bootOffsetInitialized = true := by
  cases h with
  | unwritten => cases hlife
  | closed => cases hlife
  | opened hwrite horigin hknows =>
    cases hlife
    exact hknows.initialized

/-- What is the origin after a prefix is the origin of the whole run. -/
theorem Tracks.origin_of_earlier {start : BootHistory} {pre events : List BootEvent}
    (hpre : pre <+: events)
    (h : Tracks boots (run (BootHistory.step boots uninitialised) start pre))
    {cache : EmerPersistentCachePrivate}
    (hlife : (run (BootHistory.step boots uninitialised) start pre).life = .opened cache) :
    ∃ origin, (run (BootHistory.step boots uninitialised) start pre).origin = some origin ∧
      (run (BootHistory.step boots uninitialised) start events).origin = some origin := by
  obtain ⟨rest, rfl⟩ := hpre
  rw [run_append]
  generalize run (BootHistory.step boots uninitialised) start pre = history at h hlife
  cases h with
  | unwritten => cases hlife
  | closed => cases hlife
  | opened hwrite => exact ⟨_, hwrite.origin_eq, BootHistory.origin_run rest _ hwrite.origin_eq⟩

theorem updateTimestamps_keeps {cache : EmerPersistentCachePrivate}
    (hinit : cache.bootOffsetInitialized = true) (context : CallContext) :
    (cache.updateBootOffset true context).2.bootOffsetInitialized = true ∧
      (cache.updateBootOffset true context).2.bootOffset = cache.bootOffset := by
  cases htime : context.currentTime with
  | none =>
    rw [updateBootOffset, htime]
    exact ⟨hinit, rfl⟩
  | some time =>
    rw [updateBootOffset_of_initialized true htime hinit, if_pos rfl, saveTimingMetadata]
    split
    · exact ⟨hinit, rfl⟩
    · exact ⟨hinit, rfl⟩

/-- A timer that updates the timestamps does not touch the offset of its object. -/
theorem bootOffset_run {cache : EmerPersistentCachePrivate} (hlife : history.life = .opened cache)
    (hinit : cache.bootOffsetInitialized = true) (later : List BootEvent)
    (hlater : ∀ event ∈ later, event.KeepsObject) :
    ∃ after, (run (BootHistory.step boots uninitialised) history later).life = .opened after ∧
      after.bootOffsetInitialized = true ∧ after.bootOffset = cache.bootOffset := by
  induction later generalizing history cache with
  | nil => exact ⟨cache, hlife, hinit, rfl⟩
  | cons event later ih =>
    have hevent := hlater event List.mem_cons_self
    have hrest := fun e he => hlater e (List.mem_cons_of_mem _ he)
    cases event with
    | newCache => cases hevent
    | finalize => cases hevent
    | killed => cases hevent
    | reboot => cases hevent
    | updateTimestamps time writes =>
      obtain ⟨hinit', hoffset'⟩ :=
        @updateTimestamps_keeps cache hinit (boots.context history.boot time writes)
      have hstep : (history.step boots uninitialised (.updateTimestamps time writes)).life =
          .opened (cache.updateBootOffset true (boots.context history.boot time writes)).2 := by
        simp only [BootHistory.step, hlife, BootHistory.record]
      obtain ⟨after, hafter, hinitAfter, hoffsetAfter⟩ := ih hstep hinit' hrest
      exact ⟨after, hafter, hinitAfter, hoffsetAfter.trans hoffset'⟩

end Telescope

instance (boots : Boots) (uninitialised : Nat → UInt8) (history : BootHistory)
    (event : BootEvent) : Decidable (history.SteadyClock boots uninitialised event) :=
  Option.decidableForallMem _

/-- **Boot offsets telescope.**  From an absent boot-offset file, over boots, restarts and writes
that may fail, every offset that a cache answers is the true distance between the start of its boot
and the start of the boot of the first write that succeeded, and it stays the same for as long as
the object lives. -/
theorem bootOffsets_telescope (boots : Boots) (uninitialised : Nat → UInt8)
    (directory : CacheDirectory) (hfile : directory.bootMetadataFile = .absent)
    (events : List BootEvent)
    (hadmissible : EachStep (BootHistory.step boots uninitialised) (BootHistory.Admissible boots)
      (BootHistory.start directory) events)
    (hsteady : EachStep (BootHistory.step boots uninitialised)
      (BootHistory.SteadyClock boots uninitialised) (BootHistory.start directory) events) :
    (∃ origin,
      (∀ first ∈ (run (BootHistory.step boots uninitialised) (BootHistory.start directory)
        events).origin, first = origin) ∧
      Throughout (BootHistory.step boots uninitialised) (BootHistory.OffsetsFrom boots origin)
        (BootHistory.start directory) events) ∧
    ∀ pre later, pre ++ later <+: events → (∀ event ∈ later, event.KeepsObject) →
      ∀ cache, (run (BootHistory.step boots uninitialised) (BootHistory.start directory)
          pre).life = .opened cache →
        ∃ after, (run (BootHistory.step boots uninitialised) (BootHistory.start directory)
            (pre ++ later)).life = .opened after ∧
          ∀ context, (after.getBootTimeOffset context).1 = (cache.getBootTimeOffset context).1 := by
  have hok : EachStep (BootHistory.step boots uninitialised)
      (fun history event => history.Admissible boots event ∧
        history.SteadyClock boots uninitialised event) (BootHistory.start directory) events :=
    fun pre event hpre => ⟨hadmissible pre event hpre, hsteady pre event hpre⟩
  have htracks : Throughout (BootHistory.step boots uninitialised) (Tracks boots)
      (BootHistory.start directory) events :=
    throughout_of_step (fun _ _ h hok => h.step hok.1 hok.2) (.unwritten hfile) hok
  refine ⟨?_, ?_⟩
  · cases hfirst : (run (BootHistory.step boots uninitialised) (BootHistory.start directory)
        events).origin with
    | none =>
      refine ⟨0, by simp, fun pre hpre cache hlife => ?_⟩
      obtain ⟨origin, -, horigin⟩ := (htracks pre hpre).origin_of_earlier hpre hlife
      rw [hfirst] at horigin
      cases horigin
    | some first =>
      refine ⟨first, by simp, fun pre hpre => ?_⟩
      apply (htracks pre hpre).offsetsFrom
      intro cache hlife
      obtain ⟨origin, hhere, horigin⟩ := (htracks pre hpre).origin_of_earlier hpre hlife
      rw [hhere, ← horigin, hfirst]
  · intro pre later hfront hlater cache hlife
    have hpre : pre <+: events := (List.prefix_append pre later).trans hfront
    have hinit := (htracks pre hpre).initialized hlife
    obtain ⟨after, hafter, hinitAfter, hoffset⟩ :=
      @bootOffset_run boots uninitialised _ cache hlife hinit later hlater
    rw [run_append]
    refine ⟨after, hafter, fun context => ?_⟩
    rw [getBootTimeOffset_of_initialized hinit, getBootTimeOffset_of_initialized hinitAfter,
      hoffset]

/-! ## 7. Two boots -/

/-- A boot at 0 and one at 1000, with a wall clock that is set at 500. -/
def twoBoots : Boots where
  start n := 1000 * n
  adjustment time := if time < 500 then 77 else 23
  bootId n :=
    (Uuid.parse (if n = 0 then "a1885e37-fd20-4a4b-aa4c-1e79b4a5a2d8".toList
      else "0f9df1c5-6b3c-4d56-9d2b-21e0dcb3a6b7".toList)).getD Uuid.null

/-- A call that opens a small cache, in a process that has read no boot ID. -/
def openCall : NewCall :=
  ⟨64, false, ⟨Uuid.null⟩, false, .none⟩

def emptyDirectory : CacheDirectory := ⟨⟨none, .absent⟩, .absent, .absent⟩

/-- The cache is opened in the second boot before the clock is read there, and once the first try to
write the boot offset has failed. -/
def rebootRun : List BootEvent :=
  [.newCache 10 openCall ⟨true, true, true⟩,
    .updateTimestamps 20 ⟨true, true, false⟩,
    .updateTimestamps 600 ⟨true, true, true⟩,
    .killed,
    .reboot,
    .newCache 1010 openCall ⟨true, true, false⟩,
    .newCache 1020 openCall ⟨true, true, true⟩,
    .finalize 1030 ⟨true, true, true⟩]

theorem bootOffsets_telescope_rebootRun :
    Throughout (BootHistory.step twoBoots fun _ => 0) (BootHistory.OffsetsFrom twoBoots 0)
      (BootHistory.start emptyDirectory) rebootRun := by
  obtain ⟨⟨origin, hfirst, h⟩, -⟩ := bootOffsets_telescope twoBoots (fun _ => 0) emptyDirectory rfl
    rebootRun (by decide +kernel) (by decide +kernel)
  have horigin : 0 = origin := hfirst 0 (by decide +kernel)
  rwa [← horigin] at h

/-- No write succeeds in the boot at 0. -/
def lateOriginRun : List BootEvent :=
  [.newCache 10 openCall ⟨true, true, false⟩,
    .reboot,
    .newCache 1020 openCall ⟨true, true, true⟩]

/-- What an open cache answers in a call. -/
def BootHistory.answer (history : BootHistory) (context : CallContext) : Option Int :=
  match history.life with
  | .closed _ => none
  | .opened cache => (cache.getBootTimeOffset context).1.toOption

/-- The distance is not to the first boot unless a write succeeds there. -/
theorem not_bootOffsets_from_firstBoot :
    ¬ ∀ (boots : Boots) (uninitialised : Nat → UInt8) (directory : CacheDirectory),
      directory.bootMetadataFile = .absent → ∀ events,
      EachStep (BootHistory.step boots uninitialised) (BootHistory.Admissible boots)
        (BootHistory.start directory) events →
      EachStep (BootHistory.step boots uninitialised) (BootHistory.SteadyClock boots uninitialised)
        (BootHistory.start directory) events →
      Throughout (BootHistory.step boots uninitialised) (BootHistory.OffsetsFrom boots 0)
        (BootHistory.start directory) events := by
  intro h
  have hoffsets := (h twoBoots (fun _ => 0) emptyDirectory rfl lateOriginRun (by decide +kernel)
    (by decide +kernel)).last
  have hboot : (run (BootHistory.step twoBoots fun _ => 0) (BootHistory.start emptyDirectory)
      lateOriginRun).boot = 1 := by decide +kernel
  have hanswer : (run (BootHistory.step twoBoots fun _ => 0) (BootHistory.start emptyDirectory)
      lateOriginRun).answer (twoBoots.context 1 1020 ⟨true, true, true⟩) = some 0 := by
    decide +kernel
  generalize run (BootHistory.step twoBoots fun _ => 0) (BootHistory.start emptyDirectory)
    lateOriginRun = history at hoffsets hboot hanswer
  unfold BootHistory.answer at hanswer
  cases hlife : history.life with
  | closed =>
    rw [hlife] at hanswer
    cases hanswer
  | opened cache =>
    simp only [hlife] at hanswer
    cases hresult : cache.getBootTimeOffset (twoBoots.context 1 1020 ⟨true, true, true⟩) with
    | mk result after =>
      rw [hresult] at hanswer
      cases result with
      | error e => cases hanswer
      | ok offset =>
        obtain rfl : offset = 0 := Option.some.inj hanswer
        have hzero := (hoffsets cache hlife _ 0 after hresult).1
        rw [hboot] at hzero
        exact absurd hzero (by decide)

end EventRecorder
