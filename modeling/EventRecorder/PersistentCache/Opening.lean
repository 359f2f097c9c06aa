import EventRecorder.PersistentCache.Basic
import EventRecorder.Theory.Uuid

/-!
# Opening the persistent cache

The cache directory has three parts: the circular file of the variants, the file with the version of
the cache and the file with the boot offset.  Opening goes through them in this order.  What the
system answers during a call, and which of its writes succeed, is a parameter.
-/

namespace EventRecorder

open Theory

/-- If the version on disk is another one, the variants are removed. -/
def currentCacheVersion : Int := 5

def cacheVersionGroup : String := "cache_version_info"
def cacheVersionKey : String := "version"

def cacheTimingGroupName : String := "time"
def cacheAbsoluteTimeKey : String := "absolute_time"
def cacheRelativeTimeKey : String := "relative_time"
def cacheLastBootIdKey : String := "boot_id"
def cacheBootOffsetKey : String := "boot_offset"
def cacheWasResetKey : String := "was_reset"

/-- The files in the cache directory. -/
structure CacheDirectory where
  variants : CircularFileOnDisk
  versionFile : KeyFileOnDisk
  bootMetadataFile : KeyFileOnDisk

/-- What the system answers during a call, and which metadata can be written. -/
structure CallContext where
  /-- `CLOCK_BOOTTIME` and `CLOCK_REALTIME`. -/
  currentTime : Option (Int × Int)
  bootIdFile : Option Uuid
  purged : Bool
  versionSaved : Bool
  bootMetadataSaved : Bool

/-! ## 1. The version of the cache -/

structure EmerCacheVersionProvider where
  /-- What is at the path of the provider. -/
  file : KeyFileOnDisk
  version : Int
  versionCached : Bool
  keyFile : KeyFile

namespace EmerCacheVersionProvider

def new (file : KeyFileOnDisk) : EmerCacheVersionProvider where
  file := file
  version := 0
  versionCached := false
  keyFile := KeyFile.empty

def readCacheVersion (self : EmerCacheVersionProvider) : Bool × EmerCacheVersionProvider :=
  match self.file.load with
  | .error _ => (false, self)
  | .ok keyFile =>
    match keyFile.getInteger cacheVersionGroup cacheVersionKey with
    | .error _ => (false, { self with keyFile := keyFile, version := 0 })
    | .ok version => (true, { self with keyFile := keyFile, version := version })

def getVersion (self : EmerCacheVersionProvider) : Option Int × EmerCacheVersionProvider :=
  if self.versionCached then (some self.version, self)
  else
    match self.readCacheVersion with
    | (false, self) => (none, self)
    | (true, self) => (some self.version, { self with versionCached := true })

def setVersion (self : EmerCacheVersionProvider) (newVersion : Int) (saved : Bool) :
    Except GError Unit × EmerCacheVersionProvider :=
  let keyFile := self.keyFile.setInteger cacheVersionGroup cacheVersionKey newVersion
  if saved then
    (.ok (), ⟨.parsed keyFile, newVersion, true, keyFile⟩)
  else (.error .failed, { self with keyFile := keyFile })

end EmerCacheVersionProvider

/-! ## 2. The boot ID -/

/-- An object that has not read its ID has the ID of zeros. -/
structure EmerBootIdProvider where
  id : Uuid
  deriving DecidableEq

/-- Whether an ID has been read is a static variable: once one object of the process has read it,
another one answers without having read anything. -/
def EmerBootIdProvider.getId (self : EmerBootIdProvider) (idIsValid : Bool)
    (bootIdFile : Option Uuid) : Option Uuid × EmerBootIdProvider × Bool :=
  if idIsValid then (some self.id, self, true)
  else
    match bootIdFile with
    | none => (none, self, false)
    | some id => (some id, ⟨id⟩, true)

/-! ## 3. The boot offset -/

/-- The members of a persistent cache, with the files behind them. -/
structure EmerPersistentCachePrivate where
  cache : EmerPersistentCache
  cacheVersionProvider : EmerCacheVersionProvider
  bootIdProvider : EmerBootIdProvider
  /-- The static variable of the boot ID provider. -/
  idIsValid : Bool
  bootMetadataFile : KeyFileOnDisk
  bootOffsetKeyFile : KeyFile
  bootOffset : Int
  bootOffsetInitialized : Bool
  savedBootId : Uuid
  bootIdInitialized : Bool

namespace EmerPersistentCachePrivate

variable (self : EmerPersistentCachePrivate)

/-- The files as they are now. -/
def directory : CacheDirectory where
  variants := self.cache.variantFile.disk
  versionFile := self.cacheVersionProvider.file
  bootMetadataFile := self.bootMetadataFile

def getSavedBootId : Except GError Uuid × EmerPersistentCachePrivate :=
  if self.bootIdInitialized then (.ok self.savedBootId, self)
  else
    match self.bootOffsetKeyFile.getString cacheTimingGroupName cacheLastBootIdKey with
    | .error e => (.error (.keyFile e), self)
    | .ok idAsString =>
      -- `g_strchomp`
      match Uuid.parse (idAsString.rdropWhile asciiIsSpace) with
      | none => (.error .failed, self)
      | some id => (.ok id, { self with savedBootId := id, bootIdInitialized := true })

def getSystemBootId (context : CallContext) : Except GError Uuid × EmerPersistentCachePrivate :=
  match self.bootIdProvider.getId self.idIsValid context.bootIdFile with
  | (none, provider, idIsValid) =>
    (.error (.invalidData "Failed to get boot ID from EmerBootIdProvider"),
      { self with bootIdProvider := provider, idIsValid := idIsValid })
  | (some id, provider, idIsValid) =>
    (.ok id, { self with bootIdProvider := provider, idIsValid := idIsValid })

/-- The key file with the values that are given. -/
def setTimingMetadata (keyFile : KeyFile) (relativeTime absoluteTime : Int)
    (bootOffset : Option Int) (bootIdString : Option Text) (wasReset : Option Bool) : KeyFile :=
  let keyFile := keyFile.setInt64 cacheTimingGroupName cacheRelativeTimeKey relativeTime
  let keyFile := keyFile.setInt64 cacheTimingGroupName cacheAbsoluteTimeKey absoluteTime
  let keyFile := bootOffset.elim keyFile (keyFile.setInt64 cacheTimingGroupName cacheBootOffsetKey)
  let keyFile := bootIdString.elim keyFile
    (keyFile.setString cacheTimingGroupName cacheLastBootIdKey)
  wasReset.elim keyFile (keyFile.setBoolean cacheTimingGroupName cacheWasResetKey)

/-- Every caller has both times to write. -/
def saveTimingMetadata (relativeTime absoluteTime : Int) (bootOffset : Option Int)
    (bootIdString : Option Text) (wasReset : Option Bool) (saved : Bool) :
    Except GError Unit × EmerPersistentCachePrivate :=
  let keyFile := setTimingMetadata self.bootOffsetKeyFile relativeTime absoluteTime bootOffset
    bootIdString wasReset
  if saved then
    (.ok (), { self with bootOffsetKeyFile := keyFile, bootMetadataFile := .parsed keyFile })
  -- the values stay in the key file although they were not saved
  else (.error .failed, { self with bootOffsetKeyFile := keyFile })

def purgeVariants (purged : Bool) : Except GError Unit × EmerPersistentCachePrivate :=
  let result := self.cache.variantFile.purge purged
  (result.1, { self with cache := ⟨result.2⟩ })

/-- A new origin for the boot offset, over an empty cache. -/
def resetBootOffsetMetadataFile (relativeTime absoluteTime : Int) (context : CallContext) :
    Except GError Unit × EmerPersistentCachePrivate :=
  let self := { self with bootOffsetInitialized := false, bootIdInitialized := false }
  match self.getSystemBootId context with
  | (.error e, self) => (.error e, self)
  | (.ok systemBootId, self) =>
    match self.purgeVariants context.purged with
    | (.error e, self) => (.error e, self)
    | (.ok (), self) =>
      match self.saveTimingMetadata relativeTime absoluteTime (some 0)
          (some systemBootId.unparseLower) (some true) context.bootMetadataSaved with
      | (.error e, self) => (.error e, self)
      | (.ok (), self) =>
        (.ok (),
          { self with
            bootOffset := 0, bootOffsetInitialized := true
            savedBootId := systemBootId, bootIdInitialized := true })

/-- The distance between the origin boot and this one, by the times stored in an earlier boot. -/
def computeBootOffset (relativeTime absoluteTime : Int) : Except GError Int :=
  match self.bootOffsetKeyFile.getInt64 cacheTimingGroupName cacheBootOffsetKey with
  | .error e => .error (.keyFile e)
  | .ok storedOffset =>
    match self.bootOffsetKeyFile.getInt64 cacheTimingGroupName cacheRelativeTimeKey with
    | .error e => .error (.keyFile e)
    | .ok storedRelativeTime =>
      match self.bootOffsetKeyFile.getInt64 cacheTimingGroupName cacheAbsoluteTimeKey with
      | .error e => .error (.keyFile e)
      | .ok storedAbsoluteTime =>
        let timeBetweenOriginBootAndWrite := storedOffset + storedRelativeTime
        let approximateTimeSinceLastWrite := absoluteTime - storedAbsoluteTime
        let timeSinceOriginBoot := timeBetweenOriginBootAndWrite + approximateTimeSinceLastWrite
        .ok (timeSinceOriginBoot - relativeTime)

def withBootOffset (bootOffset : Int) : EmerPersistentCachePrivate :=
  { self with bootOffset := bootOffset, bootOffsetInitialized := true }

/-- The part of `update_boot_offset` behind the boot IDs. -/
def updateForBoot (alwaysUpdateTimestamps : Bool) (relativeTime absoluteTime bootOffset : Int)
    (savedBootId systemBootId : Uuid) (saved : Bool) :
    Except GError Unit × EmerPersistentCachePrivate :=
  if savedBootId = systemBootId then
    if alwaysUpdateTimestamps then
      match self.saveTimingMetadata relativeTime absoluteTime none none none saved with
      | (.error e, self) => (.error e, self)
      | (.ok (), self) => (.ok (), self.withBootOffset bootOffset)
    else (.ok (), self.withBootOffset bootOffset)
  else
    match self.computeBootOffset relativeTime absoluteTime with
    | .error e => (.error e, self)
    | .ok bootOffset =>
      match self.saveTimingMetadata relativeTime absoluteTime (some bootOffset)
          (some systemBootId.unparseLower) (some false) saved with
      | (.error e, self) => (.error e, self)
      | (.ok (), self) => (.ok (), self.withBootOffset bootOffset)

/-- The part of `update_boot_offset` behind the boot-offset file, once it is loaded. -/
def updateFromFile (alwaysUpdateTimestamps : Bool) (relativeTime absoluteTime : Int)
    (context : CallContext) : Except GError Unit × EmerPersistentCachePrivate :=
  match self.bootOffsetKeyFile.getInt64 cacheTimingGroupName cacheBootOffsetKey with
  | .error e => (.error (.keyFile e), self)
  | .ok bootOffset =>
    match self.getSavedBootId with
    | (.error e, self) => (.error e, self)
    | (.ok savedBootId, self) =>
      match self.getSystemBootId context with
      | (.error e, self) => (.error e, self)
      | (.ok systemBootId, self) =>
        self.updateForBoot alwaysUpdateTimestamps relativeTime absoluteTime bootOffset savedBootId
          systemBootId context.bootMetadataSaved

def updateBootOffset (alwaysUpdateTimestamps : Bool) (context : CallContext) :
    Except GError Unit × EmerPersistentCachePrivate :=
  match context.currentTime with
  | none => (.error .failed, self)
  | some (relativeTime, absoluteTime) =>
    if self.bootOffsetInitialized then
      if alwaysUpdateTimestamps then
        self.saveTimingMetadata relativeTime absoluteTime none none none context.bootMetadataSaved
      else (.ok (), self)
    else
      match self.bootMetadataFile.load with
      -- without a file there is no origin yet
      | .error .noent => self.resetBootOffsetMetadataFile relativeTime absoluteTime context
      | .error e => (.error (.load e), self)
      | .ok keyFile =>
        { self with bootOffsetKeyFile := keyFile }.updateFromFile alwaysUpdateTimestamps
          relativeTime absoluteTime context

section UpdateBootOffset

variable {self} {context : CallContext} {time : Int × Int} (always : Bool)

theorem updateBootOffset_of_initialized (htime : context.currentTime = some time)
    (hinit : self.bootOffsetInitialized = true) :
    self.updateBootOffset always context =
      if always then
        self.saveTimingMetadata time.1 time.2 none none none context.bootMetadataSaved
      else (.ok (), self) := by
  simp only [updateBootOffset, htime, hinit, if_true]

theorem updateBootOffset_of_absent (htime : context.currentTime = some time)
    (hnew : self.bootOffsetInitialized = false) (hfile : self.bootMetadataFile = .absent) :
    self.updateBootOffset always context =
      self.resetBootOffsetMetadataFile time.1 time.2 context := by
  simp only [updateBootOffset, htime, hnew, hfile, KeyFileOnDisk.load, Bool.false_eq_true, if_false]

theorem updateBootOffset_of_unparsable (htime : context.currentTime = some time)
    (hnew : self.bootOffsetInitialized = false) (hfile : self.bootMetadataFile = .unparsable) :
    self.updateBootOffset always context = (.error (.load (.keyFile .parse)), self) := by
  simp only [updateBootOffset, htime, hnew, hfile, KeyFileOnDisk.load, Bool.false_eq_true, if_false]

theorem updateBootOffset_of_parsed (htime : context.currentTime = some time)
    (hnew : self.bootOffsetInitialized = false) {keyFile : KeyFile}
    (hfile : self.bootMetadataFile = .parsed keyFile) :
    self.updateBootOffset always context =
      { self with bootOffsetKeyFile := keyFile }.updateFromFile always time.1 time.2 context := by
  simp only [updateBootOffset, htime, hnew, hfile, KeyFileOnDisk.load, Bool.false_eq_true, if_false]

end UpdateBootOffset

/-- `emer_persistent_cache_get_boot_time_offset`. -/
def getBootTimeOffset (context : CallContext) : Except GError Int × EmerPersistentCachePrivate :=
  match self.updateBootOffset false context with
  | (.error e, self) => (.error e, self)
  | (.ok (), self) => (.ok self.bootOffset, self)

/-! ## 4. Opening and closing -/

def applyCacheVersioning (context : CallContext) :
    Except GError Unit × EmerPersistentCachePrivate :=
  match self.cacheVersionProvider.getVersion with
  | (oldVersion, provider) =>
    let self := { self with cacheVersionProvider := provider }
    if oldVersion = some currentCacheVersion then (.ok (), self)
    else
      -- the variants go before the version that they were stored with does
      match self.purgeVariants context.purged with
      | (.error e, self) => (.error e, self)
      | (.ok (), self) =>
        match self.cacheVersionProvider.setVersion currentCacheVersion context.versionSaved with
        | (result, provider) => (result, { self with cacheVersionProvider := provider })

/-- The cache over a circular file that has been opened. -/
def overVariantFile (variantFile : EmerCircularFile) (directory : CacheDirectory)
    (idIsValid : Bool) : EmerPersistentCachePrivate where
  cache := ⟨variantFile⟩
  cacheVersionProvider := EmerCacheVersionProvider.new directory.versionFile
  bootIdProvider := ⟨Uuid.null⟩
  idIsValid := idIsValid
  bootMetadataFile := directory.bootMetadataFile
  bootOffsetKeyFile := KeyFile.empty
  bootOffset := 0
  bootOffsetInitialized := false
  savedBootId := Uuid.null
  bootIdInitialized := false

/-- What is left of an attempt to open the cache: the object, unless it failed, the files, and the
static variable of the boot ID provider. -/
structure Opened where
  result : Except GError EmerPersistentCachePrivate
  directory : CacheDirectory
  idIsValid : Bool

/-- The versioning and the boot offset of a cache whose circular file is open. -/
def initializeOver : Except GError Unit × EmerPersistentCachePrivate → Opened
  | (.error e, self) => ⟨.error e, self.directory, self.idIsValid⟩
  | (.ok (), self) => ⟨.ok self, self.directory, self.idIsValid⟩

def initableInit (context : CallContext) : Except GError Unit × EmerPersistentCachePrivate :=
  match self.applyCacheVersioning context with
  | (.error e, self) => (.error e, self)
  | (.ok (), self) => self.updateBootOffset false context

/-- `emer_persistent_cache_new` in a directory that exists. -/
def new (directory : CacheDirectory) (cacheSize : Nat) (reinitializeCache : Bool)
    (idIsValid : Bool) (uninitialised : Nat → UInt8) (fault : InitFault) (context : CallContext) :
    Opened :=
  match EmerCircularFile.new directory.variants cacheSize reinitializeCache uninitialised fault with
  | (.error e, variants) => ⟨.error e, { directory with variants := variants }, idIsValid⟩
  | (.ok variantFile, _) =>
    initializeOver ((overVariantFile variantFile directory idIsValid).initableInit context)

/-- The end of a cache: the last timestamps are written. -/
def finalize (context : CallContext) : CacheDirectory :=
  (self.updateBootOffset true context).2.directory

end EmerPersistentCachePrivate

end EventRecorder
