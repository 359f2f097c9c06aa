import EventRecorder.CircularFile.Faults
import EventRecorder.PersistentCache.BootOffset

/-!
# The writes of the persistent cache, one by one

Opening the cache works on three files one after the other: it opens the circular file, purges it
and replaces the version file if that has another version, and purges it and replaces the
boot-offset file if there is none.  Each key file is replaced at once; the circular file has steps
of its own.
-/

namespace EventRecorder

open Theory

/-! ## 1. Steps on the cache directory -/

inductive DirectoryStep where
  | variants (step : DiskStep)
  | replaceVersion (keyFile : KeyFile)
  | replaceBootMetadata (keyFile : KeyFile)
  /-- The write of the boot-offset file that makes a boot the origin. -/
  | resetBootMetadata (keyFile : KeyFile)

/-- A cache directory, and the elements that instances of the current version have stored in it
since the last reset of the boot offset. -/
structure TrackedDirectory where
  directory : CacheDirectory
  storedSince : List Bytes

namespace TrackedDirectory

def withVariants (tracked : TrackedDirectory) (variants : CircularFileOnDisk) : TrackedDirectory :=
  { tracked with directory := { tracked.directory with variants := variants } }

def withBootMetadata (tracked : TrackedDirectory) (keyFile : KeyFile) : TrackedDirectory :=
  { tracked with directory := { tracked.directory with bootMetadataFile := .parsed keyFile } }

def perform (tracked : TrackedDirectory) : DirectoryStep → TrackedDirectory
  | .variants step => tracked.withVariants (DiskStep.perform tracked.directory.variants step)
  | .replaceVersion keyFile =>
    { tracked with directory := { tracked.directory with versionFile := .parsed keyFile } }
  | .replaceBootMetadata keyFile => tracked.withBootMetadata keyFile
  | .resetBootMetadata keyFile => { tracked.withBootMetadata keyFile with storedSince := [] }

/-- Only a write into the data file can be cut short. -/
def interrupt (tracked : TrackedDirectory) : DirectoryStep → Nat → TrackedDirectory
  | .variants step, written =>
    tracked.withVariants (DiskStep.interrupt tracked.directory.variants step written)
  | _, _ => tracked

/-- `Q` holds of the files and of what has been stored, wherever the process dies. -/
abbrev AtEveryCrash (Q : TrackedDirectory → Prop) (tracked : TrackedDirectory)
    (steps : List DirectoryStep) : Prop :=
  Theory.AtEveryCrash perform interrupt Q tracked steps

variable {tracked : TrackedDirectory}

/-- The steps of the circular file leave the key files alone. -/
theorem run_variants (tracked : TrackedDirectory) (steps : List DiskStep) :
    run perform tracked (steps.map .variants) =
      tracked.withVariants (run DiskStep.perform tracked.directory.variants steps) :=
  @run_map _ _ DiskStep.perform _ _ perform tracked.withVariants .variants (fun _ _ => rfl)
    tracked.directory.variants steps

theorem atEveryCrash_variants {Q : TrackedDirectory → Prop} {steps : List DiskStep}
    (h : Theory.AtEveryCrash DiskStep.perform DiskStep.interrupt
      (fun disk => Q (tracked.withVariants disk)) tracked.directory.variants steps) :
    AtEveryCrash Q tracked (steps.map .variants) :=
  @Theory.AtEveryCrash.map _ _ DiskStep.perform DiskStep.interrupt _ _ _ _ perform interrupt
    tracked.withVariants .variants Q (fun _ _ => rfl) (fun _ _ _ => rfl) h

end TrackedDirectory

/-! ## 2. The steps of the functions that write -/

namespace EmerPersistentCachePrivate

variable (self : EmerPersistentCachePrivate)

def purgeSteps : List DirectoryStep :=
  self.cache.variantFile.purgeSteps.map .variants

def applyCacheVersioningSteps (context : CallContext) : List DirectoryStep :=
  match self.cacheVersionProvider.getVersion with
  | (oldVersion, provider) =>
    let self := { self with cacheVersionProvider := provider }
    if oldVersion = some currentCacheVersion then []
    else
      match self.purgeVariants context.purged with
      | (.error _, _) => []
      | (.ok (), purged) =>
        self.purgeSteps ++
          if context.versionSaved then
            [.replaceVersion
              (purged.cacheVersionProvider.setVersion currentCacheVersion true).2.keyFile]
          else []

/-- The steps of `save_timing_metadata`, for a write that is or is not a reset. -/
def saveTimingMetadataSteps (write : KeyFile → DirectoryStep) (relativeTime absoluteTime : Int)
    (bootOffset : Option Int) (bootIdString : Option Text) (wasReset : Option Bool)
    (saved : Bool) : List DirectoryStep :=
  if saved then
    [write (setTimingMetadata self.bootOffsetKeyFile relativeTime absoluteTime bootOffset
      bootIdString wasReset)]
  else []

def resetBootOffsetMetadataFileSteps (relativeTime absoluteTime : Int) (context : CallContext) :
    List DirectoryStep :=
  let self := { self with bootOffsetInitialized := false, bootIdInitialized := false }
  match self.getSystemBootId context with
  | (.error _, _) => []
  | (.ok systemBootId, self) =>
    match self.purgeVariants context.purged with
    | (.error _, _) => []
    | (.ok (), purged) =>
      self.purgeSteps ++ purged.saveTimingMetadataSteps .resetBootMetadata relativeTime absoluteTime
        (some 0) (some systemBootId.unparseLower) (some true) context.bootMetadataSaved

def updateForBootSteps (alwaysUpdateTimestamps : Bool) (relativeTime absoluteTime : Int)
    (savedBootId systemBootId : Uuid) (saved : Bool) : List DirectoryStep :=
  if savedBootId = systemBootId then
    if alwaysUpdateTimestamps then
      self.saveTimingMetadataSteps .replaceBootMetadata relativeTime absoluteTime none none none
        saved
    else []
  else
    match self.computeBootOffset relativeTime absoluteTime with
    | .error _ => []
    | .ok bootOffset =>
      self.saveTimingMetadataSteps .replaceBootMetadata relativeTime absoluteTime (some bootOffset)
        (some systemBootId.unparseLower) (some false) saved

def updateFromFileSteps (alwaysUpdateTimestamps : Bool) (relativeTime absoluteTime : Int)
    (context : CallContext) : List DirectoryStep :=
  match self.bootOffsetKeyFile.getInt64 cacheTimingGroupName cacheBootOffsetKey with
  | .error _ => []
  | .ok _ =>
    match self.getSavedBootId with
    | (.error _, _) => []
    | (.ok savedBootId, self) =>
      match self.getSystemBootId context with
      | (.error _, _) => []
      | (.ok systemBootId, self) =>
        self.updateForBootSteps alwaysUpdateTimestamps relativeTime absoluteTime savedBootId
          systemBootId context.bootMetadataSaved

def updateBootOffsetSteps (alwaysUpdateTimestamps : Bool) (context : CallContext) :
    List DirectoryStep :=
  match context.currentTime with
  | none => []
  | some (relativeTime, absoluteTime) =>
    if self.bootOffsetInitialized then
      if alwaysUpdateTimestamps then
        self.saveTimingMetadataSteps .replaceBootMetadata relativeTime absoluteTime none none none
          context.bootMetadataSaved
      else []
    else
      match self.bootMetadataFile.load with
      | .error .noent => self.resetBootOffsetMetadataFileSteps relativeTime absoluteTime context
      | .error _ => []
      | .ok keyFile =>
        { self with bootOffsetKeyFile := keyFile }.updateFromFileSteps alwaysUpdateTimestamps
          relativeTime absoluteTime context

def initableInitSteps (context : CallContext) : List DirectoryStep :=
  self.applyCacheVersioningSteps context ++
    match self.applyCacheVersioning context with
    | (.error _, _) => []
    | (.ok (), self) => self.updateBootOffsetSteps false context

/-- The steps of an opening none of whose circular-file operations fails. -/
def newFullSteps (directory : CacheDirectory) (call : NewCall) (uninitialised : Nat → UInt8)
    (context : CallContext) : List DirectoryStep :=
  (EmerCircularFile.openingSteps directory.variants call.cacheSize call.reinitializeCache
      uninitialised).map .variants ++
    match EmerCircularFile.new directory.variants call.cacheSize call.reinitializeCache
        uninitialised call.fault with
    | (.error _, _) => []
    | (.ok variantFile, _) =>
      { overVariantFile variantFile directory call.idIsValid with
        bootIdProvider := call.bootIdProvider }.initableInitSteps context

/-! ## 3. All steps together are the function -/

variable {self} {stored : List Bytes}

theorem getSystemBootId_frame (self : EmerPersistentCachePrivate) (context : CallContext) :
    ∃ provider idIsValid, (self.getSystemBootId context).2 =
      { self with bootIdProvider := provider, idIsValid := idIsValid } := by
  unfold getSystemBootId
  generalize self.bootIdProvider.getId self.idIsValid context.bootIdFile = answer
  obtain ⟨id, provider, idIsValid⟩ := answer
  cases id <;> exact ⟨provider, idIsValid, rfl⟩

theorem getSavedBootId_frame (self : EmerPersistentCachePrivate) :
    ∃ id initialized, self.getSavedBootId.2 =
      { self with savedBootId := id, bootIdInitialized := initialized } := by
  unfold getSavedBootId
  split
  · exact ⟨_, _, rfl⟩
  split
  · exact ⟨_, _, rfl⟩
  split
  · exact ⟨_, _, rfl⟩
  · exact ⟨_, _, rfl⟩

theorem run_purgeSteps {purged : Bool} (hok : (self.purgeVariants purged).1 = .ok ()) :
    run TrackedDirectory.perform ⟨self.directory, stored⟩ self.purgeSteps =
      ⟨(self.purgeVariants purged).2.directory, stored⟩ := by
  have hpurge := EmerCircularFile.purge_of_ok hok
  have hsteps := @EmerCircularFile.run_purgeSteps self.cache.variantFile
  unfold purgeSteps purgeVariants
  rw [TrackedDirectory.run_variants, hpurge]
  show TrackedDirectory.withVariants _ (run DiskStep.perform self.cache.variantFile.disk _) = _
  rw [hsteps]
  rfl

theorem purgeVariants_failed {purged : Bool} {e : GError}
    (hfailed : (self.purgeVariants purged).1 = .error e) :
    (self.purgeVariants purged).2.directory = self.directory := by
  have hfailed : (self.cache.variantFile.purge purged).1 = .error e := hfailed
  have hdisk : (self.cache.variantFile.purge purged).2.disk = self.cache.variantFile.disk := by
    unfold EmerCircularFile.purge at hfailed ⊢
    split
    · rfl
    · rename_i hsize
      rw [if_neg hsize] at hfailed
      cases purged with
      | true => cases hfailed
      | false => rfl
  unfold purgeVariants directory
  simp only
  rw [hdisk]

theorem getVersion_file (provider : EmerCacheVersionProvider) :
    provider.getVersion.2.file = provider.file := by
  unfold EmerCacheVersionProvider.getVersion
  split
  · rfl
  have hread : provider.readCacheVersion.2.file = provider.file := by
    unfold EmerCacheVersionProvider.readCacheVersion
    split
    · rfl
    · split <;> rfl
  generalize provider.readCacheVersion = answer at hread
  obtain ⟨found, provider'⟩ := answer
  cases found <;> exact hread

theorem run_applyCacheVersioningSteps (context : CallContext) :
    run TrackedDirectory.perform ⟨self.directory, stored⟩
        (self.applyCacheVersioningSteps context) =
      ⟨(self.applyCacheVersioning context).2.directory, stored⟩ := by
  have hfile := getVersion_file self.cacheVersionProvider
  unfold applyCacheVersioningSteps applyCacheVersioning
  generalize self.cacheVersionProvider.getVersion = answer at hfile
  obtain ⟨oldVersion, provider⟩ := answer
  have hdirectory : self.directory = { self with cacheVersionProvider := provider }.directory := by
    unfold directory
    simp only
    rw [← hfile]
  simp only
  rw [hdirectory]
  generalize { self with cacheVersionProvider := provider } = self
  by_cases hcurrent : oldVersion = some currentCacheVersion
  · rw [if_pos hcurrent, if_pos hcurrent]
    rfl
  rw [if_neg hcurrent, if_neg hcurrent]
  have hfailed := @purgeVariants_failed self context.purged
  have hrun := @run_purgeSteps self stored context.purged
  generalize self.purgeVariants context.purged = result at hfailed hrun
  obtain ⟨e | ok, purged⟩ := result
  · simp only [run_nil]
    rw [hfailed rfl]
  · simp only
    rw [run_append, hrun rfl]
    cases context.versionSaved <;> rfl

/-- A write of the times that is no reset. -/
theorem run_saveTimingMetadataSteps (relativeTime absoluteTime : Int) (bootOffset : Option Int)
    (bootIdString : Option Text) (wasReset : Option Bool) (saved : Bool) :
    run TrackedDirectory.perform ⟨self.directory, stored⟩
        (self.saveTimingMetadataSteps .replaceBootMetadata relativeTime absoluteTime bootOffset
          bootIdString wasReset saved) =
      ⟨(self.saveTimingMetadata relativeTime absoluteTime bootOffset bootIdString wasReset
        saved).2.directory, stored⟩ := by
  cases saved <;> rfl

/-- Nothing that was stored before a reset is counted after it. -/
theorem run_resetBootOffsetMetadataFileSteps (relativeTime absoluteTime : Int)
    (context : CallContext) :
    (run TrackedDirectory.perform ⟨self.directory, stored⟩
          (self.resetBootOffsetMetadataFileSteps relativeTime absoluteTime context)).directory =
        (self.resetBootOffsetMetadataFile relativeTime absoluteTime context).2.directory ∧
      ((self.resetBootOffsetMetadataFile relativeTime absoluteTime context).1 = .ok () →
        (run TrackedDirectory.perform ⟨self.directory, stored⟩
          (self.resetBootOffsetMetadataFileSteps relativeTime absoluteTime context)).storedSince =
            []) := by
  obtain ⟨provider, idIsValid, hframe⟩ := getSystemBootId_frame
    { self with bootOffsetInitialized := false, bootIdInitialized := false } context
  unfold resetBootOffsetMetadataFileSteps resetBootOffsetMetadataFile
  simp only
  generalize { self with
    bootOffsetInitialized := false, bootIdInitialized := false }.getSystemBootId context = answer
    at hframe
  obtain ⟨result, after⟩ := answer
  have hdirectory : self.directory = after.directory := by
    have hframe : after = _ := hframe
    rw [hframe]
    rfl
  rw [hdirectory]
  cases result with
  | error e => exact ⟨rfl, fun h => by cases h⟩
  | ok systemBootId =>
    simp only
    have hfailed := @purgeVariants_failed after context.purged
    have hrun := @run_purgeSteps after stored context.purged
    generalize after.purgeVariants context.purged = result at hfailed hrun
    obtain ⟨e | ok, purged⟩ := result
    · exact ⟨(hfailed rfl).symm, fun h => by cases h⟩
    · simp only
      rw [run_append, hrun rfl]
      cases context.bootMetadataSaved with
      | true => exact ⟨rfl, fun _ => rfl⟩
      | false => exact ⟨rfl, fun h => by cases h⟩

theorem run_updateForBootSteps (always : Bool) (relativeTime absoluteTime bootOffset : Int)
    (savedBootId systemBootId : Uuid) (saved : Bool) :
    run TrackedDirectory.perform ⟨self.directory, stored⟩
        (self.updateForBootSteps always relativeTime absoluteTime savedBootId systemBootId saved) =
      ⟨(self.updateForBoot always relativeTime absoluteTime bootOffset savedBootId systemBootId
        saved).2.directory, stored⟩ := by
  unfold updateForBootSteps updateForBoot
  by_cases hsame : savedBootId = systemBootId
  · rw [if_pos hsame, if_pos hsame]
    cases always with
    | false => rfl
    | true => cases saved <;> rfl
  · rw [if_neg hsame, if_neg hsame]
    cases self.computeBootOffset relativeTime absoluteTime with
    | error e => rfl
    | ok bootOffset => cases saved <;> rfl

theorem run_updateFromFileSteps (always : Bool) (relativeTime absoluteTime : Int)
    (context : CallContext) :
    run TrackedDirectory.perform ⟨self.directory, stored⟩
        (self.updateFromFileSteps always relativeTime absoluteTime context) =
      ⟨(self.updateFromFile always relativeTime absoluteTime context).2.directory, stored⟩ := by
  unfold updateFromFileSteps updateFromFile
  cases self.bootOffsetKeyFile.getInt64 cacheTimingGroupName cacheBootOffsetKey with
  | error e => rfl
  | ok bootOffset =>
    obtain ⟨id, initialized, hframe⟩ := getSavedBootId_frame self
    generalize self.getSavedBootId = answer at hframe
    obtain ⟨e | savedBootId, after⟩ := answer
    · have hframe : after = _ := hframe
      rw [hframe]
      rfl
    · have hdirectory : self.directory = after.directory := by
        have hframe : after = _ := hframe
        rw [hframe]
        rfl
      obtain ⟨provider, idIsValid, hframe'⟩ := getSystemBootId_frame after context
      simp only
      rw [hdirectory]
      generalize after.getSystemBootId context = answer at hframe'
      obtain ⟨e | systemBootId, final⟩ := answer
      · have hframe' : final = _ := hframe'
        rw [hframe']
        rfl
      · have hdirectory : after.directory = final.directory := by
          have hframe' : final = _ := hframe'
          rw [hframe']
          rfl
        simp only
        rw [hdirectory]
        exact run_updateForBootSteps always relativeTime absoluteTime bootOffset savedBootId
          systemBootId context.bootMetadataSaved

/-- The directory after a call of `update_boot_offset` is the one its steps lead to. -/
theorem run_updateBootOffsetSteps (always : Bool) (context : CallContext) :
    (run TrackedDirectory.perform ⟨self.directory, stored⟩
        (self.updateBootOffsetSteps always context)).directory =
      (self.updateBootOffset always context).2.directory := by
  unfold updateBootOffsetSteps updateBootOffset
  cases context.currentTime with
  | none => rfl
  | some times =>
    obtain ⟨relativeTime, absoluteTime⟩ := times
    simp only
    by_cases hinitialized : self.bootOffsetInitialized = true
    · rw [if_pos hinitialized, if_pos hinitialized]
      cases always with
      | false => rfl
      | true =>
        exact congrArg TrackedDirectory.directory (run_saveTimingMetadataSteps relativeTime
          absoluteTime none none none context.bootMetadataSaved)
    · rw [if_neg hinitialized, if_neg hinitialized]
      cases self.bootMetadataFile.load with
      | error e =>
        cases e with
        | noent =>
          exact (run_resetBootOffsetMetadataFileSteps relativeTime absoluteTime context).1
        | keyFile code => rfl
      | ok keyFile =>
        exact congrArg TrackedDirectory.directory (@run_updateFromFileSteps
          { self with bootOffsetKeyFile := keyFile } stored always relativeTime absoluteTime
          context)

/-- The files of a cache that could be opened are those that all steps lead to. -/
theorem run_initableInitSteps (context : CallContext) :
    (run TrackedDirectory.perform ⟨self.directory, stored⟩
        (self.initableInitSteps context)).directory = (self.initableInit context).2.directory := by
  have hversioning := @run_applyCacheVersioningSteps self stored context
  unfold initableInitSteps initableInit
  rw [run_append, hversioning]
  generalize self.applyCacheVersioning context = answer
  obtain ⟨e | ok, after⟩ := answer
  · rfl
  · exact run_updateBootOffsetSteps false context

theorem initializeOver_directory (answer : Except GError Unit × EmerPersistentCachePrivate) :
    (initializeOver answer).directory = answer.2.directory := by
  obtain ⟨e | ok, after⟩ := answer <;> rfl

theorem run_newFullSteps (directory : CacheDirectory) {call : NewCall}
    (hfault : call.fault = .none) (uninitialised : Nat → UInt8) (context : CallContext) :
    (run TrackedDirectory.perform ⟨directory, stored⟩
        (newFullSteps directory call uninitialised context)).directory =
      (newFull directory call uninitialised context).directory := by
  have hopening := EmerCircularFile.run_openingSteps directory.variants call.cacheSize
    call.reinitializeCache uninitialised
  have hdisk := @new_disk directory.variants call.cacheSize call.reinitializeCache uninitialised
    .none
  unfold newFullSteps newFull
  rw [run_append, TrackedDirectory.run_variants, hopening, hfault]
  generalize EmerCircularFile.new directory.variants call.cacheSize call.reinitializeCache
    uninitialised .none = answer at hdisk
  obtain ⟨e | variantFile, variants⟩ := answer
  · rfl
  · obtain rfl : variants = variantFile.disk := (Prod.mk.inj (hdisk rfl)).2
    simp only
    rw [initializeOver_directory]
    exact @run_initableInitSteps { overVariantFile variantFile directory call.idIsValid with
      bootIdProvider := call.bootIdProvider } stored context

end EmerPersistentCachePrivate

end EventRecorder
