import EventRecorder.CircularFile.InPlace
import EventRecorder.PersistentCache.ExactlyOnce
import EventRecorder.PersistentCache.OpeningSteps

/-!
# Stale data in the persistent cache

The variants are purged before the version file and before the boot-offset file is replaced.  So a
version file that has the current version means that the variants were all stored by instances of
that version, and since the last reset of the boot offset, wherever a process has died before.

A purge leaves a ring that is empty already where it is.  If that ring starts inside a data file
that goes on behind its end, what goes round the end from then on is not found again: reads answer
what lies behind the end instead.
-/

namespace EventRecorder

open Theory EmerPersistentCachePrivate

/-- The version file can be read and has the current version. -/
def ReadsCurrent (versionFile : KeyFileOnDisk) : Prop :=
  (EmerCacheVersionProvider.new versionFile).getVersion.1 = some currentCacheVersion

instance (versionFile : KeyFileOnDisk) : Decidable (ReadsCurrent versionFile) :=
  inferInstanceAs (Decidable (_ = _))

/-! ## 1. Runs of the cache -/

inductive CacheEvent where
  | newCache (call : NewCall) (context : CallContext)
  | store (variants : List GVariant) (fault : SaveFault)
  /-- `update_boot_offset_source_func`. -/
  | updateTimestamps (context : CallContext)
  | finalize (context : CallContext)

inductive StorageEvent where
  | call (event : CacheEvent)
  /-- The process dies after so many steps of a call and so many bytes of the next. -/
  | crash (event : CacheEvent) (taken written : Nat)
  /-- Another version of the program has been at work, or the version file is gone or damaged. -/
  | replaced (directory : CacheDirectory)
  | replacedBootMetadata (bootMetadataFile : KeyFileOnDisk)

/-- The call meets no failure before the process dies. -/
def CacheEvent.MeetsNoFault : CacheEvent → Prop
  | .newCache call _ => call.fault = .none
  | .store _ fault => fault = .none
  | _ => True

instance : ∀ event : CacheEvent, Decidable event.MeetsNoFault
  | .newCache call _ => inferInstanceAs (Decidable (call.fault = .none))
  | .store _ fault => inferInstanceAs (Decidable (fault = .none))
  | .updateTimestamps _ => isTrue trivial
  | .finalize _ => isTrue trivial

/-- The cache and what instances of the current version have stored in it since the last reset of
the boot offset. -/
structure StorageHistory where
  life : CacheLife
  storedSince : List Bytes

namespace StorageHistory

def start (directory : CacheDirectory) : StorageHistory := ⟨.closed directory, []⟩

variable (glib : VariantLibrary) (order : ByteOrder) (uninitialised : Nat → UInt8)

/-- The elements that a store adds to the batch. -/
def appended (history : StorageHistory) : CacheEvent → List Bytes
  | .store variants _ =>
    match history.life with
    | .closed _ => []
    | .opened cache =>
      (variants.map (EmerPersistentCache.storedElem glib order)).take
        (EmerPersistentCache.appendVariants glib order cache.cache.variantFile variants).1
  | _ => []

def tracked (history : StorageHistory) (event : CacheEvent) : TrackedDirectory :=
  ⟨history.life.directory, history.storedSince ++ history.appended glib order event⟩

/-- What a call writes, if none of its file operations fails. -/
def steps (history : StorageHistory) : CacheEvent → List DirectoryStep
  | .newCache call context => newFullSteps history.life.directory call uninitialised context
  | .store variants _ =>
    match history.life with
    | .closed _ => []
    | .opened cache =>
      (EmerPersistentCache.appendVariants glib order cache.cache.variantFile
        variants).2.saveSteps.map .variants
  | .updateTimestamps context =>
    match history.life with
    | .closed _ => []
    | .opened cache => cache.updateBootOffsetSteps true context
  | .finalize context =>
    match history.life with
    | .closed _ => []
    | .opened cache => cache.updateBootOffsetSteps true context

def lifeAfter (history : StorageHistory) : CacheEvent → CacheLife
  | .newCache call context =>
    BootHistory.afterNew (newFull history.life.directory call uninitialised context)
  | .store variants fault =>
    match history.life with
    | .closed directory => .closed directory
    | .opened cache =>
      .opened { cache with cache := (cache.cache.store glib order variants fault).2 }
  | .updateTimestamps context =>
    match history.life with
    | .closed directory => .closed directory
    | .opened cache => .opened (cache.updateBootOffset true context).2
  | .finalize context =>
    match history.life with
    | .closed directory => .closed directory
    | .opened cache => .closed (cache.finalize context)

/-- A reset takes effect with its step. -/
def next (history : StorageHistory) : StorageEvent → StorageHistory
  | .call event =>
    { life := history.lifeAfter glib order uninitialised event
      storedSince := (run TrackedDirectory.perform (history.tracked glib order event)
        (history.steps glib order uninitialised event)).storedSince }
  | .crash event taken written =>
    let left := crashAfter TrackedDirectory.perform TrackedDirectory.interrupt
      (history.tracked glib order event) (history.steps glib order uninitialised event) taken
      written
    ⟨.closed left.directory, left.storedSince⟩
  -- what is there now was not stored by instances of the current version
  | .replaced directory => ⟨.closed directory, []⟩
  | .replacedBootMetadata bootMetadataFile =>
    ⟨.closed { history.life.directory with bootMetadataFile := bootMetadataFile },
      history.storedSince⟩

def IsClosed (history : StorageHistory) : Prop :=
  match history.life with
  | .closed _ => True
  | .opened _ => False

instance (history : StorageHistory) : Decidable history.IsClosed := by
  unfold IsClosed
  cases history.life
  · exact isTrue trivial
  · exact isFalse id

/-- The sums that a store computes do not overflow. -/
def AdmitsStore (history : StorageHistory) (call : EmerPersistentCache.StoreCall) : Prop :=
  match history.life with
  | .closed _ => False
  | .opened cache => EmerPersistentCache.Admits glib order cache.cache call

instance (history : StorageHistory) (call : EmerPersistentCache.StoreCall) :
    Decidable (history.AdmitsStore glib order call) := by
  unfold AdmitsStore
  cases history.life
  · exact isFalse id
  · exact inferInstanceAs (Decidable (EmerPersistentCache.Admits glib order _ _))

/-- One cache at a time; the cache size is a `guint64`. -/
def AdmissibleCall (history : StorageHistory) : CacheEvent → Prop
  | .newCache call _ => history.IsClosed ∧ call.cacheSize < 2 ^ 64
  | .store variants fault => history.AdmitsStore glib order ⟨variants, fault⟩
  | .updateTimestamps _ => True
  | .finalize _ => True

instance (history : StorageHistory) :
    ∀ event, Decidable (history.AdmissibleCall glib order event)
  | .newCache _ _ => inferInstanceAs (Decidable (_ ∧ _ < _))
  | .store variants fault =>
    inferInstanceAs (Decidable (history.AdmitsStore glib order ⟨variants, fault⟩))
  | .updateTimestamps _ => isTrue trivial
  | .finalize _ => isTrue trivial

/-- The files of another version do not pass for those of the current one. -/
def Admissible (history : StorageHistory) : StorageEvent → Prop
  | .call event => history.AdmissibleCall glib order event
  | .crash event _ _ => history.AdmissibleCall glib order event ∧ event.MeetsNoFault
  | .replaced directory => history.IsClosed ∧ ¬ ReadsCurrent directory.versionFile
  | .replacedBootMetadata _ => history.IsClosed

instance (history : StorageHistory) : ∀ event, Decidable (history.Admissible glib order event)
  | .call event => inferInstanceAs (Decidable (history.AdmissibleCall glib order event))
  | .crash event _ _ =>
    inferInstanceAs (Decidable (history.AdmissibleCall glib order event ∧ event.MeetsNoFault))
  | .replaced directory =>
    inferInstanceAs (Decidable (history.IsClosed ∧ ¬ ReadsCurrent directory.versionFile))
  | .replacedBootMetadata _ => inferInstanceAs (Decidable history.IsClosed)

/-- A cache whose version is not the current one is not opened over an overlong ring. -/
def OpensInPlace (history : StorageHistory) : CacheEvent → Prop
  | .newCache call _ =>
    ReadsCurrent history.life.directory.versionFile ∨
      ¬ OverlongRing history.life.directory.variants call.cacheSize call.reinitializeCache
  | _ => True

instance (history : StorageHistory) : ∀ event, Decidable (history.OpensInPlace event)
  | .newCache _ _ => inferInstanceAs (Decidable (_ ∨ ¬ _))
  | .store _ _ => isTrue trivial
  | .updateTimestamps _ => isTrue trivial
  | .finalize _ => isTrue trivial

/-- Whether the call returns or dies. -/
def StaysInPlace (history : StorageHistory) : StorageEvent → Prop
  | .call event => history.OpensInPlace event
  | .crash event _ _ => history.OpensInPlace event
  | _ => True

instance (history : StorageHistory) : ∀ event, Decidable (history.StaysInPlace event)
  | .call event => inferInstanceAs (Decidable (history.OpensInPlace event))
  | .crash event _ _ => inferInstanceAs (Decidable (history.OpensInPlace event))
  | .replaced _ => isTrue trivial
  | .replacedBootMetadata _ => isTrue trivial

/-- An open cache has the current version, and nothing but what instances of that version have
stored since the last reset. -/
def HoldsOnlyItsOwn (history : StorageHistory) : Prop :=
  ∀ cache, history.life = .opened cache →
    ReadsCurrent cache.directory.versionFile ∧
      cache.cache.variantFile.HoldsOnly history.storedSince

end StorageHistory

/-! ## 2. Files without stale data -/

/-- Files with the current version hold only what is counted as stored. -/
def Fresh (tracked : TrackedDirectory) : Prop :=
  ReadsCurrent tracked.directory.versionFile →
    ∃ capacity saved, OnDisk False tracked.directory.variants capacity saved ∧
      saved.Sublist tracked.storedSince ∧ tracked.directory.variants.InPlace

/-- The queue of the object is a part of what is counted as stored. -/
def KeepsOnly (file : EmerCircularFile) (stored : List Bytes) : Prop :=
  ∃ q, FileKeeps file q ∧ (q.saved ++ q.unsaved).Sublist stored ∧ file.disk.InPlace

theorem KeepsOnly.onDisk {file : EmerCircularFile} {stored : List Bytes}
    (h : KeepsOnly file stored) :
    ∃ capacity saved, OnDisk False file.disk capacity saved ∧ saved.Sublist stored ∧
      file.disk.InPlace := by
  obtain ⟨q, hkeeps, hsub, hinPlace⟩ := h
  obtain ⟨capacity, hdisk⟩ := hkeeps.onDisk
  exact ⟨capacity, q.saved, hdisk, (List.sublist_append_left _ _).trans hsub, hinPlace⟩

theorem KeepsOnly.inPlace {file : EmerCircularFile} {stored : List Bytes}
    (h : KeepsOnly file stored) : file.disk.InPlace := by
  obtain ⟨q, -, -, hinPlace⟩ := h
  exact hinPlace

theorem keepsOnly_of_empty {file : EmerCircularFile} {maxSize : Nat} (stored : List Bytes)
    (h : file.JustOpened maxSize) (hsize : file.size = 0) (hinPlace : file.disk.InPlace) :
    KeepsOnly file stored :=
  ⟨_, h.fileKeeps hsize, List.nil_sublist _, hinPlace⟩

/-- A purge of an object that is in place once it is empty. -/
theorem purge_keepsOnly {file : EmerCircularFile} {maxSize : Nat} (stored : List Bytes)
    (h : file.JustOpened maxSize) (hinPlace : file.size = 0 → file.disk.InPlace) {purged : Bool}
    (hok : (file.purge purged).1 = .ok ()) : KeepsOnly (file.purge purged).2 stored :=
  keepsOnly_of_empty stored (h.purge hok).1 (h.purge hok).2
    (EmerCircularFile.purge_inPlace hinPlace hok)

theorem Fresh.of_not_readsCurrent {tracked : TrackedDirectory}
    (h : ¬ ReadsCurrent tracked.directory.versionFile) : Fresh tracked :=
  fun hcurrent => absurd hcurrent h

/-- Steps on the circular file do not matter as long as its version is another one. -/
theorem atEveryCrash_of_not_readsCurrent {tracked : TrackedDirectory} {steps : List DiskStep}
    (h : ¬ ReadsCurrent tracked.directory.versionFile) :
    TrackedDirectory.AtEveryCrash Fresh tracked (steps.map .variants) :=
  TrackedDirectory.atEveryCrash_variants fun _ _ => Fresh.of_not_readsCurrent h

/-- Replacing the boot-offset file does not matter at all. -/
theorem Fresh.atEveryCrash_bootMetadata {tracked : TrackedDirectory} (h : Fresh tracked)
    {steps : List DirectoryStep}
    (hsteps : ∀ step ∈ steps, ∃ keyFile, step = .replaceBootMetadata keyFile) :
    TrackedDirectory.AtEveryCrash Fresh tracked steps := by
  induction steps generalizing tracked with
  | nil => exact atEveryCrash_nil.mpr h
  | cons step steps ih =>
    obtain ⟨keyFile, rfl⟩ := hsteps step List.mem_cons_self
    have hnext : Fresh (tracked.perform (.replaceBootMetadata keyFile)) := h
    exact atEveryCrash_cons.mpr ⟨fun _ => h, ih hnext fun step hstep =>
      hsteps step (List.mem_cons_of_mem _ hstep)⟩

namespace EmerPersistentCachePrivate

variable {self : EmerPersistentCachePrivate} {stored : List Bytes} {maxSize : Nat}
  {context : CallContext}

/-- A purge leaves fresh files behind whatever the version is. -/
theorem purgeSteps_fresh (hopened : self.cache.variantFile.JustOpened maxSize)
    (hinPlace : self.cache.variantFile.size = 0 → self.cache.variantFile.disk.InPlace)
    (hfresh : Fresh ⟨self.directory, stored⟩) {purged : Bool}
    (hok : (self.purgeVariants purged).1 = .ok ()) :
    TrackedDirectory.AtEveryCrash Fresh ⟨self.directory, stored⟩ self.purgeSteps := by
  have hok : (self.cache.variantFile.purge purged).1 = .ok () := hok
  rw [EmerCircularFile.purge_of_ok hok] at hok
  apply TrackedDirectory.atEveryCrash_variants
  apply EmerCircularFile.purge_crash
  · exact hfresh
  · intro hcurrent
    exact (purge_keepsOnly stored hopened hinPlace hok).onDisk

/-- A key file that is replaced after a purge finds the variants gone. -/
theorem purged_then_replaced_fresh (hopened : self.cache.variantFile.JustOpened maxSize)
    (hinPlace : self.cache.variantFile.size = 0 → self.cache.variantFile.disk.InPlace)
    {purged : Bool} (hok : (self.purgeVariants purged).1 = .ok ())
    (hcrash : TrackedDirectory.AtEveryCrash Fresh ⟨self.directory, stored⟩ self.purgeSteps)
    {step : DirectoryStep} (hstep : ∀ variants, step ≠ .variants variants) (saved : Bool) :
    TrackedDirectory.AtEveryCrash Fresh ⟨self.directory, stored⟩
      (self.purgeSteps ++ if saved then [step] else []) := by
  have hgone : ∀ versionFile bootMetadataFile stored, Fresh
      ⟨⟨(self.cache.variantFile.purge purged).2.disk, versionFile, bootMetadataFile⟩, stored⟩ :=
    fun _ _ _ _ => (purge_keepsOnly _ hopened hinPlace hok).onDisk
  apply hcrash.append
  rw [run_purgeSteps hok]
  cases saved with
  | false => exact atEveryCrash_nil.mpr (hgone _ _ _)
  | true =>
    cases step with
    | variants step => exact absurd rfl (hstep step)
    | replaceVersion | replaceBootMetadata | resetBootMetadata =>
      exact atEveryCrash_cons.mpr ⟨fun _ => hgone _ _ _, atEveryCrash_nil.mpr (hgone _ _ _)⟩

/-! ## 3. Opening -/

/-- An object whose version has been checked. -/
structure Versioned (cache : EmerPersistentCachePrivate) (stored : List Bytes) (maxSize : Nat) :
    Prop where
  readsCurrent : ReadsCurrent cache.cacheVersionProvider.file
  opened : cache.cache.variantFile.JustOpened maxSize
  keeps : KeepsOnly cache.cache.variantFile stored
  bootOffsetInitialized : cache.bootOffsetInitialized = false

theorem Versioned.fresh (h : Versioned self stored maxSize) : Fresh ⟨self.directory, stored⟩ :=
  fun _ => h.keeps.onDisk

theorem readsCurrent_setVersion (provider : EmerCacheVersionProvider) :
    ReadsCurrent (.parsed (provider.setVersion currentCacheVersion true).2.keyFile) := by
  have hget : (provider.setVersion currentCacheVersion true).2.keyFile.getInteger
      cacheVersionGroup cacheVersionKey = .ok currentCacheVersion :=
    KeyFile.getInteger_setInteger _ _ _ (by decide) (by decide)
  simp [ReadsCurrent, EmerCacheVersionProvider.getVersion, EmerCacheVersionProvider.new,
    EmerCacheVersionProvider.readCacheVersion, KeyFileOnDisk.load, hget]

/-- The variants are gone before the version file says otherwise. -/
theorem applyCacheVersioning_fresh {file : KeyFileOnDisk}
    (hprovider : self.cacheVersionProvider = EmerCacheVersionProvider.new file)
    (hopened : self.cache.variantFile.JustOpened maxSize)
    (hinPlace : self.cache.variantFile.size = 0 → self.cache.variantFile.disk.InPlace)
    (hkeeps : ReadsCurrent file → KeepsOnly self.cache.variantFile stored)
    (hnew : self.bootOffsetInitialized = false) :
    TrackedDirectory.AtEveryCrash Fresh ⟨self.directory, stored⟩
        (self.applyCacheVersioningSteps context) ∧
      ∀ after, self.applyCacheVersioning context = (.ok (), after) →
        Versioned after stored maxSize := by
  have hfile := getVersion_file self.cacheVersionProvider
  have hcurrent : self.cacheVersionProvider.getVersion.1 = some currentCacheVersion ↔
      ReadsCurrent file := by
    rw [hprovider]
    exact Iff.rfl
  have hfresh : Fresh ⟨self.directory, stored⟩ := by
    intro hcurrent
    apply (hkeeps _).onDisk
    rw [show (TrackedDirectory.mk self.directory stored).directory.versionFile =
      self.cacheVersionProvider.file from rfl, hprovider] at hcurrent
    exact hcurrent
  unfold applyCacheVersioningSteps applyCacheVersioning
  generalize self.cacheVersionProvider.getVersion = answer at hfile hcurrent
  obtain ⟨oldVersion, provider⟩ := answer
  simp only at hfile hcurrent ⊢
  by_cases hversion : oldVersion = some currentCacheVersion
  · rw [if_pos hversion, if_pos hversion]
    refine ⟨atEveryCrash_nil.mpr hfresh, fun after hafter => ?_⟩
    obtain rfl := (Prod.mk.inj hafter).2
    refine ⟨?_, hopened, hkeeps (hcurrent.mp hversion), hnew⟩
    show ReadsCurrent provider.file
    rw [hfile, hprovider]
    exact hcurrent.mp hversion
  rw [if_neg hversion, if_neg hversion]
  have hother : ¬ ReadsCurrent self.directory.versionFile := by
    show ¬ ReadsCurrent self.cacheVersionProvider.file
    rw [hprovider]
    exact fun h => hversion (hcurrent.mpr h)
  have hdirectory : self.directory = { self with cacheVersionProvider := provider }.directory := by
    unfold directory
    simp only
    rw [← hfile]
  cases hpurged : { self with cacheVersionProvider := provider }.purgeVariants context.purged with
  | mk result purged =>
  cases result with
  | error e => exact ⟨atEveryCrash_nil.mpr hfresh, fun after hafter => by cases hafter⟩
  | ok _ =>
    have hafter := congrArg Prod.snd hpurged
    have hok := congrArg Prod.fst hpurged
    have hempty := (hopened.purge
      (show (self.cache.variantFile.purge context.purged).1 = .ok () from hok)).1
    have hkeeps := purge_keepsOnly stored hopened hinPlace
      (show (self.cache.variantFile.purge context.purged).1 = .ok () from hok)
    obtain rfl : _ = purged := hafter
    rw [hdirectory]
    constructor
    · rw [hdirectory] at hother
      exact @purged_then_replaced_fresh { self with cacheVersionProvider := provider } stored
        maxSize hopened hinPlace context.purged hok (atEveryCrash_of_not_readsCurrent hother) _
        (fun _ h => by cases h) context.versionSaved
    · intro after hafter
      cases hsaved : context.versionSaved with
      | false =>
        rw [hsaved] at hafter
        cases hafter
      | true =>
        rw [hsaved] at hafter
        obtain rfl := (Prod.mk.inj hafter).2
        exact ⟨readsCurrent_setVersion provider, hempty, hkeeps, hnew⟩

/-- An open cache whose variants were stored by its own version since the last reset. -/
structure KeepsFresh (cache : EmerPersistentCachePrivate) (stored : List Bytes) : Prop where
  readsCurrent : ReadsCurrent cache.cacheVersionProvider.file
  keeps : KeepsOnly cache.cache.variantFile stored
  bootOffsetInitialized : cache.bootOffsetInitialized = true

theorem saveTimingMetadata_frame (relativeTime absoluteTime : Int) (bootOffset : Option Int)
    (bootIdString : Option Text) (wasReset : Option Bool) (saved : Bool) :
    ∃ file keyFile, (self.saveTimingMetadata relativeTime absoluteTime bootOffset bootIdString
      wasReset saved).2 = { self with bootMetadataFile := file, bootOffsetKeyFile := keyFile } := by
  cases saved
  · exact ⟨_, _, rfl⟩
  · exact ⟨_, _, rfl⟩

theorem saveTimingMetadataSteps_bootMetadata (relativeTime absoluteTime : Int)
    (bootOffset : Option Int) (bootIdString : Option Text) (wasReset : Option Bool) (saved : Bool) :
    ∀ step ∈ self.saveTimingMetadataSteps .replaceBootMetadata relativeTime absoluteTime bootOffset
      bootIdString wasReset saved, ∃ keyFile, step = .replaceBootMetadata keyFile := by
  intro step hstep
  unfold saveTimingMetadataSteps at hstep
  split at hstep
  · exact ⟨_, List.mem_singleton.mp hstep⟩
  · cases hstep

/-- Taking over the offset of the file writes that file alone. -/
theorem updateForBoot_frame (always : Bool) (relativeTime absoluteTime bootOffset : Int)
    (savedBootId systemBootId : Uuid) (saved : Bool) :
    (self.updateForBoot always relativeTime absoluteTime bootOffset savedBootId systemBootId
          saved).2.cache = self.cache ∧
      (self.updateForBoot always relativeTime absoluteTime bootOffset savedBootId systemBootId
          saved).2.cacheVersionProvider = self.cacheVersionProvider ∧
      ((self.updateForBoot always relativeTime absoluteTime bootOffset savedBootId systemBootId
          saved).1 = .ok () →
        (self.updateForBoot always relativeTime absoluteTime bootOffset savedBootId systemBootId
          saved).2.bootOffsetInitialized = true) ∧
      ∀ step ∈ self.updateForBootSteps always relativeTime absoluteTime savedBootId systemBootId
        saved, ∃ keyFile, step = .replaceBootMetadata keyFile := by
  unfold updateForBoot updateForBootSteps
  by_cases hsame : savedBootId = systemBootId
  · rw [if_pos hsame, if_pos hsame]
    cases always with
    | false => exact ⟨rfl, rfl, fun _ => rfl, fun step hstep => by cases hstep⟩
    | true =>
      refine ⟨?_, ?_, ?_, saveTimingMetadataSteps_bootMetadata _ _ _ _ _ _⟩
      · cases saved <;> rfl
      · cases saved <;> rfl
      · cases saved
        · exact fun h => by cases h
        · exact fun _ => rfl
  · rw [if_neg hsame, if_neg hsame]
    cases self.computeBootOffset relativeTime absoluteTime with
    | error e => exact ⟨rfl, rfl, (fun h => by cases h), fun step hstep => by cases hstep⟩
    | ok bootOffset =>
      refine ⟨?_, ?_, ?_, saveTimingMetadataSteps_bootMetadata _ _ _ _ _ _⟩
      · cases saved <;> rfl
      · cases saved <;> rfl
      · cases saved
        · exact fun h => by cases h
        · exact fun _ => rfl

theorem updateFromFile_frame (always : Bool) (relativeTime absoluteTime : Int)
    (context : CallContext) :
    (self.updateFromFile always relativeTime absoluteTime context).2.cache = self.cache ∧
      (self.updateFromFile always relativeTime absoluteTime context).2.cacheVersionProvider =
        self.cacheVersionProvider ∧
      ((self.updateFromFile always relativeTime absoluteTime context).1 = .ok () →
        (self.updateFromFile always relativeTime absoluteTime context).2.bootOffsetInitialized =
          true) ∧
      ∀ step ∈ self.updateFromFileSteps always relativeTime absoluteTime context,
        ∃ keyFile, step = .replaceBootMetadata keyFile := by
  unfold updateFromFile updateFromFileSteps
  cases self.bootOffsetKeyFile.getInt64 cacheTimingGroupName cacheBootOffsetKey with
  | error e => exact ⟨rfl, rfl, (fun h => by cases h), fun step hstep => by cases hstep⟩
  | ok bootOffset =>
    obtain ⟨id, initialized, hframe⟩ := getSavedBootId_frame self
    generalize self.getSavedBootId = answer at hframe
    obtain ⟨result, after⟩ := answer
    have hcache : after.cache = self.cache ∧
        after.cacheVersionProvider = self.cacheVersionProvider := by
      have hframe : after = _ := hframe
      rw [hframe]
      exact ⟨rfl, rfl⟩
    cases result with
    | error e =>
      exact ⟨hcache.1, hcache.2, (fun h => by cases h), fun step hstep => by cases hstep⟩
    | ok savedBootId =>
      obtain ⟨provider, idIsValid, hframe'⟩ := getSystemBootId_frame after context
      simp only
      generalize after.getSystemBootId context = answer at hframe'
      obtain ⟨result, final⟩ := answer
      have hcache' : final.cache = after.cache ∧
          final.cacheVersionProvider = after.cacheVersionProvider := by
        have hframe' : final = _ := hframe'
        rw [hframe']
        exact ⟨rfl, rfl⟩
      cases result with
      | error e =>
        exact ⟨hcache'.1.trans hcache.1, hcache'.2.trans hcache.2, (fun h => by cases h),
          fun step hstep => by cases hstep⟩
      | ok systemBootId =>
        obtain ⟨hkept, hkept', hok, hsteps⟩ := @updateForBoot_frame final always relativeTime
          absoluteTime bootOffset savedBootId systemBootId context.bootMetadataSaved
        exact ⟨hkept.trans (hcache'.1.trans hcache.1), hkept'.trans (hcache'.2.trans hcache.2), hok,
          hsteps⟩

/-- The variants are gone before a boot becomes the origin. -/
theorem resetBootOffsetMetadataFile_fresh (h : Versioned self stored maxSize)
    (relativeTime absoluteTime : Int) :
    TrackedDirectory.AtEveryCrash Fresh ⟨self.directory, stored⟩
        (self.resetBootOffsetMetadataFileSteps relativeTime absoluteTime context) ∧
      ∀ after, self.resetBootOffsetMetadataFile relativeTime absoluteTime context =
        (.ok (), after) → KeepsFresh after [] := by
  obtain ⟨provider, idIsValid, hframe⟩ := getSystemBootId_frame
    { self with bootOffsetInitialized := false, bootIdInitialized := false } context
  unfold resetBootOffsetMetadataFileSteps resetBootOffsetMetadataFile
  simp only
  generalize { self with
    bootOffsetInitialized := false, bootIdInitialized := false }.getSystemBootId context = answer
    at hframe
  obtain ⟨result, asked⟩ := answer
  have hframe : asked = _ := hframe
  have hcache : asked.cache = self.cache := by rw [hframe]
  have hfile : asked.cacheVersionProvider = self.cacheVersionProvider := by rw [hframe]
  have hdirectory : self.directory = asked.directory := by rw [hframe]; rfl
  have hopened := h.opened
  have hcurrent := h.readsCurrent
  have hfresh := h.fresh
  have hinPlace : self.cache.variantFile.size = 0 → self.cache.variantFile.disk.InPlace :=
    fun _ => h.keeps.inPlace
  rw [← hcache] at hopened hinPlace
  rw [← hfile] at hcurrent
  rw [hdirectory] at hfresh ⊢
  cases result with
  | error e => exact ⟨atEveryCrash_nil.mpr hfresh, fun after hafter => by cases hafter⟩
  | ok systemBootId =>
    cases hpurged : asked.purgeVariants context.purged with
    | mk result purged =>
    cases result with
    | error e =>
      simp only [hpurged]
      exact ⟨atEveryCrash_nil.mpr hfresh, fun after hafter => by cases hafter⟩
    | ok _ =>
      simp only [hpurged]
      have hok := congrArg Prod.fst hpurged
      obtain rfl : _ = purged := congrArg Prod.snd hpurged
      constructor
      · exact @purged_then_replaced_fresh asked stored maxSize hopened hinPlace context.purged hok
          (purgeSteps_fresh hopened hinPlace hfresh hok) _ (fun _ h => by cases h)
          context.bootMetadataSaved
      · intro after hafter
        cases hsaved : context.bootMetadataSaved with
        | false =>
          rw [hsaved] at hafter
          cases hafter
        | true =>
          rw [hsaved] at hafter
          obtain rfl := (Prod.mk.inj hafter).2
          exact ⟨hcurrent, purge_keepsOnly [] hopened hinPlace hok, rfl⟩

/-- The offset of a file that is there is taken over, and without a file the variants go. -/
theorem updateBootOffset_fresh (h : Versioned self stored maxSize) :
    TrackedDirectory.AtEveryCrash Fresh ⟨self.directory, stored⟩
        (self.updateBootOffsetSteps false context) ∧
      ∀ after, self.updateBootOffset false context = (.ok (), after) →
        KeepsFresh after (run TrackedDirectory.perform ⟨self.directory, stored⟩
          (self.updateBootOffsetSteps false context)).storedSince := by
  unfold updateBootOffsetSteps updateBootOffset
  have hnew : ¬ self.bootOffsetInitialized = true := by
    rw [h.bootOffsetInitialized]
    decide
  cases context.currentTime with
  | none => exact ⟨atEveryCrash_nil.mpr h.fresh, fun after hafter => by cases hafter⟩
  | some times =>
    obtain ⟨relativeTime, absoluteTime⟩ := times
    simp only
    rw [if_neg hnew, if_neg hnew]
    cases self.bootMetadataFile.load with
    | error e =>
      cases e with
      | noent =>
        obtain ⟨hcrash, hreset⟩ := resetBootOffsetMetadataFile_fresh h relativeTime absoluteTime
        obtain ⟨-, hcleared⟩ := @run_resetBootOffsetMetadataFileSteps self stored relativeTime
          absoluteTime context
        refine ⟨hcrash, fun after hafter => ?_⟩
        have hkeeps := hreset after hafter
        rw [← hcleared (congrArg Prod.fst hafter)] at hkeeps
        exact hkeeps
      | keyFile code => exact ⟨atEveryCrash_nil.mpr h.fresh, fun after hafter => by cases hafter⟩
    | ok keyFile =>
      obtain ⟨hcache, hprovider, hinitialized, hsteps⟩ := @updateFromFile_frame
        { self with bootOffsetKeyFile := keyFile } false relativeTime absoluteTime context
      have hrun := @run_updateFromFileSteps { self with bootOffsetKeyFile := keyFile } stored false
        relativeTime absoluteTime context
      refine ⟨h.fresh.atEveryCrash_bootMetadata hsteps, fun after hafter => ?_⟩
      have hstored := congrArg TrackedDirectory.storedSince hrun
      rw [show ({ self with bootOffsetKeyFile := keyFile } : EmerPersistentCachePrivate).directory =
        self.directory from rfl] at hstored
      simp only at hafter hstored
      rw [hstored]
      rw [hafter] at hcache hprovider hinitialized
      simp only at hcache hprovider hinitialized
      refine ⟨?_, ?_, hinitialized trivial⟩
      · rw [hprovider]
        exact h.readsCurrent
      · rw [hcache]
        exact h.keeps

theorem initableInit_fresh {file : KeyFileOnDisk}
    (hprovider : self.cacheVersionProvider = EmerCacheVersionProvider.new file)
    (hopened : self.cache.variantFile.JustOpened maxSize)
    (hinPlace : self.cache.variantFile.size = 0 → self.cache.variantFile.disk.InPlace)
    (hkeeps : ReadsCurrent file → KeepsOnly self.cache.variantFile stored)
    (hnew : self.bootOffsetInitialized = false) :
    TrackedDirectory.AtEveryCrash Fresh ⟨self.directory, stored⟩
        (self.initableInitSteps context) ∧
      ∀ after, self.initableInit context = (.ok (), after) →
        KeepsFresh after (run TrackedDirectory.perform ⟨self.directory, stored⟩
          (self.initableInitSteps context)).storedSince := by
  obtain ⟨hcrash, hversioned⟩ := @applyCacheVersioning_fresh self stored maxSize context file
    hprovider hopened hinPlace hkeeps hnew
  have hrun := @run_applyCacheVersioningSteps self stored context
  unfold initableInitSteps initableInit
  rw [run_append]
  cases hresult : self.applyCacheVersioning context with
  | mk result after =>
  rw [hresult] at hrun hversioned
  cases result with
  | error e =>
    simp only
    exact ⟨hcrash.append (by rw [hrun]; exact atEveryCrash_nil.mpr (by
      have hlast := hcrash.last
      rwa [hrun] at hlast)), fun after hafter => by cases hafter⟩
  | ok _ =>
    simp only
    obtain ⟨hcrash', hupdated⟩ := @updateBootOffset_fresh after stored maxSize context
      (hversioned after rfl)
    rw [hrun]
    refine ⟨hcrash.append ?_, hupdated⟩
    rw [hrun]
    exact hcrash'

/-- The circular file is opened over files that are fresh. -/
theorem openingSteps_fresh {directory : CacheDirectory} (hfresh : Fresh ⟨directory, stored⟩)
    (hmaxSize : maxSize < 2 ^ 64) (reinitialized : Bool) (uninitialised : Nat → UInt8) :
    Theory.AtEveryCrash DiskStep.perform DiskStep.interrupt
      (fun disk => Fresh ⟨{ directory with variants := disk }, stored⟩) directory.variants
      (EmerCircularFile.openingSteps directory.variants maxSize reinitialized uninitialised) := by
  by_cases hcurrent : ReadsCurrent directory.versionFile
  · obtain ⟨capacity, saved, hdisk, hsub, hinPlace⟩ := hfresh hcurrent
    have hcrash := hdisk.opening_crash hmaxSize reinitialized uninitialised
    have hstays := EmerCircularFile.openingSteps_inPlace hinPlace maxSize reinitialized
      uninitialised
    intro taken written hread
    obtain ⟨capacity', kept, hdisk', hkept⟩ := hcrash taken written
    exact ⟨capacity', kept, hdisk', hkept.trans hsub, hstays taken written⟩
  · exact fun _ _ => Fresh.of_not_readsCurrent hcurrent

theorem initializeOver_ok {answer : Except GError Unit × EmerPersistentCachePrivate}
    {cache : EmerPersistentCachePrivate} (h : (initializeOver answer).result = .ok cache) :
    answer = (.ok (), cache) := by
  obtain ⟨e | ok, after⟩ := answer
  · cases h
  · cases h
    rfl

/-- Opening, wherever it ends. -/
theorem newFull_fresh {directory : CacheDirectory} (hfresh : Fresh ⟨directory, stored⟩)
    {call : NewCall} (hsize : call.cacheSize < 2 ^ 64)
    (hring : ReadsCurrent directory.versionFile ∨
      ¬ OverlongRing directory.variants call.cacheSize call.reinitializeCache)
    (uninitialised : Nat → UInt8) :
    (call.fault = .none → TrackedDirectory.AtEveryCrash Fresh ⟨directory, stored⟩
        (newFullSteps directory call uninitialised context)) ∧
      (∀ cache, (newFull directory call uninitialised context).result = .ok cache →
        KeepsFresh cache (run TrackedDirectory.perform ⟨directory, stored⟩
          (newFullSteps directory call uninitialised context)).storedSince) ∧
      ∀ e, (newFull directory call uninitialised context).result = .error e →
        Fresh ⟨(newFull directory call uninitialised context).directory,
          (run TrackedDirectory.perform ⟨directory, stored⟩
            (newFullSteps directory call uninitialised context)).storedSince⟩ := by
  have hopening := openingSteps_fresh hfresh hsize call.reinitializeCache uninitialised
  have hcrash : TrackedDirectory.AtEveryCrash Fresh ⟨directory, stored⟩
      ((EmerCircularFile.openingSteps directory.variants call.cacheSize call.reinitializeCache
        uninitialised).map .variants) := TrackedDirectory.atEveryCrash_variants hopening
  have hrun := EmerCircularFile.run_openingSteps directory.variants call.cacheSize
    call.reinitializeCache uninitialised
  unfold newFullSteps newFull
  rw [run_append, TrackedDirectory.run_variants, hrun]
  cases hnew : EmerCircularFile.new directory.variants call.cacheSize call.reinitializeCache
      uninitialised call.fault with
  | mk result variants =>
  cases result with
  | error e =>
    simp only [List.append_nil, run_nil]
    refine ⟨fun _ => hcrash, (fun cache h => by cases h), fun _ _ => ?_⟩
    -- the files are those of a crash
    obtain ⟨taken, rfl⟩ := EmerCircularFile.new_failed hnew
    exact hopening taken 0
  | ok variantFile =>
    have hfile := @new_disk directory.variants call.cacheSize call.reinitializeCache uninitialised
      call.fault variantFile (congrArg Prod.fst hnew)
    have hsame : (EmerCircularFile.new directory.variants call.cacheSize call.reinitializeCache
        uninitialised .none).2 = variantFile.disk := by
      cases EmerCircularFile.new_fault directory.variants call.cacheSize call.reinitializeCache
          uninitialised call.fault with
      | inl hsame => rw [← hsame, hfile]
      | inr hfailed =>
        obtain ⟨e, taken, hfailed⟩ := hfailed
        rw [hfailed] at hfile
        cases hfile
    have hopened := EmerCircularFile.new_justOpened hsize (congrArg Prod.fst hnew)
    have hkeeps : ReadsCurrent directory.versionFile → KeepsOnly variantFile stored := by
      intro hcurrent
      obtain ⟨capacity, saved, hdisk, hsub, hinPlace⟩ := hfresh hcurrent
      obtain ⟨kept, hkeeps, hkept⟩ := hdisk.opening_keeps hsize (congrArg Prod.fst hnew)
      refine ⟨_, hkeeps, ?_, EmerCircularFile.new_inPlace hinPlace (congrArg Prod.fst hnew)⟩
      rw [List.append_nil]
      exact hkept.trans hsub
    have hinPlace : variantFile.size = 0 → variantFile.disk.InPlace := by
      intro hempty
      cases hring with
      | inl hcurrent => exact (hkeeps hcurrent).inPlace
      | inr hring =>
        exact EmerCircularFile.new_empty_inPlace hsize hring (congrArg Prod.fst hnew) hempty
    obtain ⟨hinit, hopenedCache⟩ := @initableInit_fresh
      { overVariantFile variantFile directory call.idIsValid with
        bootIdProvider := call.bootIdProvider } stored call.cacheSize context
      directory.versionFile rfl hopened hinPlace hkeeps rfl
    have hdirectory := @run_initableInitSteps
      { overVariantFile variantFile directory call.idIsValid with
        bootIdProvider := call.bootIdProvider } stored context
    simp only
    rw [hsame]
    refine ⟨fun _ => ?_, ?_, ?_⟩
    · apply hcrash.append
      rw [TrackedDirectory.run_variants, hrun, hsame]
      exact hinit
    · intro cache hcache
      apply hopenedCache
      exact initializeOver_ok hcache
    · intro e _
      have hleft := hinit.last
      rw [show run TrackedDirectory.perform _ _ = TrackedDirectory.mk _ _ from
        congrArg (TrackedDirectory.mk · _) hdirectory] at hleft
      rw [initializeOver_directory]
      exact hleft

end EmerPersistentCachePrivate

/-! ## 4. Storing -/

namespace EmerPersistentCache

variable {glib : VariantLibrary} {order : ByteOrder} {variantFile : EmerCircularFile}
  {q : Fifo Bytes}

theorem appendVariants_keeps (h : FileKeeps variantFile q) {variants : List GVariant}
    (hsums : SumsFit glib order variantFile variants) :
    FileKeeps (appendVariants glib order variantFile variants).2
      ⟨q.saved, q.unsaved ++ (variants.map (storedElem glib order)).take
        (appendVariants glib order variantFile variants).1⟩ := by
  induction variants generalizing variantFile q with
  | nil =>
    rw [List.map_nil, List.take_nil, List.append_nil]
    exact h
  | cons variant variants ih =>
    obtain ⟨hsum, hlen, hrest⟩ := hsums
    have helem : storedElem glib order variant ≠ [] :=
      variantElem_ne_nil (regularizePreStorage glib order variant)
    have hanswer := h.append helem hsum hlen
    rw [appendVariants]
    generalize variantFile.append (storedElem glib order variant) = answer at hanswer hrest ⊢
    obtain ⟨accepted, file⟩ := answer
    cases accepted with
    | false =>
      cases hanswer with
      | inl hrefused =>
        obtain rfl := (Prod.mk.inj hrefused).2
        rw [List.take_zero, List.append_nil]
        exact h
      | inr haccepted => cases haccepted.1
    | true =>
      cases hanswer with
      | inl hrefused => cases hrefused
      | inr haccepted =>
        have hkeeps := ih haccepted.2 (hrest rfl)
        rw [List.append_assoc] at hkeeps
        exact hkeeps

/-- A store adds to the queue what it counts as stored, whatever becomes of the save. -/
theorem store_keepsOnly {cache : EmerPersistentCache} {stored : List Bytes}
    (h : KeepsOnly cache.variantFile stored) {variants : List GVariant} {fault : SaveFault}
    (hadmits : Admits glib order cache ⟨variants, fault⟩) :
    KeepsOnly (cache.store glib order variants fault).2.variantFile
      (stored ++ (variants.map (storedElem glib order)).take
        (appendVariants glib order cache.variantFile variants).1) := by
  obtain ⟨q, hkeeps, hsub, hinPlace⟩ := h
  obtain ⟨hsums, hoffset⟩ := hadmits
  obtain ⟨-, hhead, hsize⟩ := appendVariants_maxSize glib order cache.variantFile variants
  have happended := appendVariants_keeps hkeeps hsums.fit
  have hsaved := happended.save (by rw [hhead, hsize]; exact hoffset) fault
  have hstays := happended.save_inPlace (by rw [appendVariants_disk]; exact hinPlace) fault
  have hfile : (cache.store glib order variants fault).2.variantFile =
      ((appendVariants glib order cache.variantFile variants).2.save fault).2 := by
    unfold store
    simp only
    generalize (appendVariants glib order cache.variantFile variants).2.save fault = answer
    obtain ⟨e | ok, file⟩ := answer <;> rfl
  rw [hfile]
  have hsub : (q.saved ++ (q.unsaved ++ (variants.map (storedElem glib order)).take
      (appendVariants glib order cache.variantFile variants).1)).Sublist
      (stored ++ (variants.map (storedElem glib order)).take
        (appendVariants glib order cache.variantFile variants).1) := by
    rw [← List.append_assoc]
    exact List.Sublist.append hsub (List.Sublist.refl _)
  cases hsaved with
  | inl hfailed => exact ⟨_, hfailed, hsub, hstays⟩
  | inr hdone =>
    refine ⟨_, hdone, ?_, hstays⟩
    rw [Fifo.save, List.append_nil]
    exact hsub

/-- A crash on the way leaves the queue with or without the batch. -/
theorem store_crash {directory : CacheDirectory} {cache : EmerPersistentCache} {stored : List Bytes}
    (h : KeepsOnly cache.variantFile stored) {variants : List GVariant} {fault : SaveFault}
    (hadmits : Admits glib order cache ⟨variants, fault⟩)
    (hdisk : directory.variants = cache.variantFile.disk) :
    TrackedDirectory.AtEveryCrash Fresh
      ⟨directory, stored ++ (variants.map (storedElem glib order)).take
        (appendVariants glib order cache.variantFile variants).1⟩
      ((appendVariants glib order cache.variantFile variants).2.saveSteps.map .variants) := by
  obtain ⟨q, hkeeps, hsub, hinPlace⟩ := h
  obtain ⟨hsums, hoffset⟩ := hadmits
  obtain ⟨-, hhead, hsize⟩ := appendVariants_maxSize glib order cache.variantFile variants
  have happended := appendVariants_keeps hkeeps hsums.fit
  have hcrash := happended.save_crash (by rw [hhead, hsize]; exact hoffset)
  have hstays := happended.saveSteps_inPlace (by rw [appendVariants_disk]; exact hinPlace)
  rw [appendVariants_disk, ← hdisk] at hcrash hstays
  apply TrackedDirectory.atEveryCrash_variants
  intro taken written _
  obtain ⟨capacity, hleft⟩ := hcrash taken written
  cases hleft with
  | inl hbefore =>
    exact ⟨capacity, _, hbefore, ((List.sublist_append_left _ _).trans hsub).trans
      (List.sublist_append_left _ _), hstays taken written⟩
  | inr hafter =>
    refine ⟨capacity, _, hafter, ?_, hstays taken written⟩
    rw [Fifo.save, ← List.append_assoc]
    exact List.Sublist.append hsub (List.Sublist.refl _)

end EmerPersistentCache

/-! ## 5. Runs -/

namespace EmerPersistentCachePrivate

variable {self : EmerPersistentCachePrivate} {stored : List Bytes} {context : CallContext}

theorem KeepsFresh.fresh (h : self.KeepsFresh stored) : Fresh ⟨self.directory, stored⟩ :=
  fun _ => h.keeps.onDisk

/-- An initialised cache only ever replaces its boot-offset file. -/
theorem updateBootOffset_initialized (hinit : self.bootOffsetInitialized = true) (always : Bool)
    (context : CallContext) :
    (∃ file keyFile, (self.updateBootOffset always context).2 =
        { self with bootMetadataFile := file, bootOffsetKeyFile := keyFile }) ∧
      ∀ step ∈ self.updateBootOffsetSteps always context,
        ∃ keyFile, step = .replaceBootMetadata keyFile := by
  unfold updateBootOffset updateBootOffsetSteps
  cases context.currentTime with
  | none => exact ⟨⟨_, _, rfl⟩, fun step hstep => by cases hstep⟩
  | some times =>
    simp only
    rw [if_pos hinit, if_pos hinit]
    cases always with
    | false => exact ⟨⟨_, _, rfl⟩, fun step hstep => by cases hstep⟩
    | true =>
      exact ⟨saveTimingMetadata_frame _ _ _ _ _ _, saveTimingMetadataSteps_bootMetadata _ _ _ _ _ _⟩

theorem KeepsFresh.updateBootOffset (h : self.KeepsFresh stored) (always : Bool)
    (context : CallContext) : (self.updateBootOffset always context).2.KeepsFresh stored := by
  obtain ⟨⟨file, keyFile, hafter⟩, -⟩ :=
    updateBootOffset_initialized h.bootOffsetInitialized always context
  rw [hafter]
  exact ⟨h.readsCurrent, h.keeps, h.bootOffsetInitialized⟩

/-- Updating the timestamps resets nothing. -/
theorem KeepsFresh.storedSince_eq (h : self.KeepsFresh stored) (always : Bool)
    (context : CallContext) (tracked : TrackedDirectory) :
    (run TrackedDirectory.perform tracked (self.updateBootOffsetSteps always context)).storedSince =
      tracked.storedSince := by
  obtain ⟨-, hsteps⟩ := updateBootOffset_initialized h.bootOffsetInitialized always context
  generalize self.updateBootOffsetSteps always context = steps at hsteps
  induction steps generalizing tracked with
  | nil => rfl
  | cons step steps ih =>
    obtain ⟨keyFile, rfl⟩ := hsteps step List.mem_cons_self
    exact ih _ fun step hstep => hsteps step (List.mem_cons_of_mem _ hstep)

end EmerPersistentCachePrivate

namespace StorageHistory

variable {glib : VariantLibrary} {order : ByteOrder} {uninitialised : Nat → UInt8}
  {history : StorageHistory}

inductive Lawful : StorageHistory → Prop where
  | closed {directory : CacheDirectory} {stored : List Bytes} (h : Fresh ⟨directory, stored⟩) :
      Lawful ⟨.closed directory, stored⟩
  | opened {cache : EmerPersistentCachePrivate} {stored : List Bytes}
      (h : cache.KeepsFresh stored) : Lawful ⟨.opened cache, stored⟩

theorem Lawful.fresh (h : history.Lawful) :
    Fresh ⟨history.life.directory, history.storedSince⟩ := by
  cases h with
  | closed h => exact h
  | opened h => exact h.fresh

theorem Lawful.holdsOnlyItsOwn (h : history.Lawful) : history.HoldsOnlyItsOwn := by
  intro cache hlife
  cases h with
  | closed => cases hlife
  | opened h =>
    cases hlife
    obtain ⟨q, hkeeps, hsub, hinPlace⟩ := h.keeps
    exact ⟨h.readsCurrent, hkeeps.holdsOnly hinPlace ((List.sublist_append_left _ _).trans hsub)⟩

theorem tracked_of_nothing {event : CacheEvent} (h : history.appended glib order event = []) :
    history.tracked glib order event = ⟨history.life.directory, history.storedSince⟩ := by
  unfold tracked
  rw [h, List.append_nil]

/-- A call that dies leaves fresh files. -/
theorem Lawful.crash (h : history.Lawful) {event : CacheEvent}
    (hadmissible : history.AdmissibleCall glib order event) (hfault : event.MeetsNoFault)
    (hring : history.OpensInPlace event) :
    TrackedDirectory.AtEveryCrash Fresh (history.tracked glib order event)
      (history.steps glib order uninitialised event) := by
  have hfresh := h.fresh
  cases event with
  | newCache call context =>
    rw [tracked_of_nothing rfl]
    exact (newFull_fresh hfresh hadmissible.2 hring uninitialised).1 hfault
  | store variants fault =>
    cases h with
    | closed => exact hadmissible.elim
    | opened h => exact EmerPersistentCache.store_crash h.keeps hadmissible rfl
  | updateTimestamps context =>
    rw [tracked_of_nothing rfl]
    cases h with
    | closed => exact atEveryCrash_nil.mpr hfresh
    | opened h =>
      exact hfresh.atEveryCrash_bootMetadata
        (updateBootOffset_initialized h.bootOffsetInitialized true context).2
  | finalize context =>
    rw [tracked_of_nothing rfl]
    cases h with
    | closed => exact atEveryCrash_nil.mpr hfresh
    | opened h =>
      exact hfresh.atEveryCrash_bootMetadata
        (updateBootOffset_initialized h.bootOffsetInitialized true context).2

/-- A call that returns. -/
theorem Lawful.call (h : history.Lawful) {event : CacheEvent}
    (hadmissible : history.AdmissibleCall glib order event)
    (hring : history.OpensInPlace event) :
    (history.next glib order uninitialised (.call event)).Lawful := by
  have hfresh := h.fresh
  show Lawful ⟨history.lifeAfter glib order uninitialised event,
    (run TrackedDirectory.perform (history.tracked glib order event)
      (history.steps glib order uninitialised event)).storedSince⟩
  cases event with
  | newCache call context =>
    obtain ⟨-, hopened, hfailed⟩ :=
      @newFull_fresh history.storedSince context history.life.directory hfresh call hadmissible.2
        hring uninitialised
    rw [tracked_of_nothing rfl]
    show Lawful ⟨BootHistory.afterNew
      (newFull history.life.directory call uninitialised context), _⟩
    unfold BootHistory.afterNew
    cases hresult : (newFull history.life.directory call uninitialised context).result with
    | error e => exact .closed (hfailed e hresult)
    | ok cache => exact .opened (hopened cache hresult)
  | store variants fault =>
    cases h with
    | closed => exact hadmissible.elim
    | @opened cache stored h =>
      have hkeeps := EmerPersistentCache.store_keepsOnly h.keeps hadmissible
      unfold steps
      simp only
      rw [TrackedDirectory.run_variants]
      exact .opened ⟨h.readsCurrent, hkeeps, h.bootOffsetInitialized⟩
  | updateTimestamps context =>
    rw [tracked_of_nothing rfl]
    cases h with
    | closed h => exact .closed h
    | opened h =>
      unfold steps
      simp only
      rw [h.storedSince_eq]
      exact .opened (h.updateBootOffset true context)
  | finalize context =>
    rw [tracked_of_nothing rfl]
    cases h with
    | closed h => exact .closed h
    | opened h =>
      unfold steps
      simp only
      rw [h.storedSince_eq]
      exact .closed (h.updateBootOffset true context).fresh

theorem Lawful.step (h : history.Lawful) {event : StorageEvent}
    (hadmissible : history.Admissible glib order event) (hring : history.StaysInPlace event) :
    (history.next glib order uninitialised event).Lawful := by
  cases event with
  | call event => exact h.call hadmissible hring
  | crash event taken written =>
    exact .closed (h.crash hadmissible.1 hadmissible.2 hring taken written)
  | replaced directory => exact .closed (Fresh.of_not_readsCurrent hadmissible.2)
  | replacedBootMetadata bootMetadataFile => exact .closed h.fresh

/-- Wherever the process has died and whatever has become of the files that say where the variants
come from, a cache that could be opened holds what its own version has stored since the origin of
its offsets, and reads answer that.  No cache of another version may have been opened over an
overlong ring. -/
theorem staleData_never_survives (glib : VariantLibrary) (order : ByteOrder)
    (uninitialised : Nat → UInt8) {directory : CacheDirectory}
    (hforeign : ¬ ReadsCurrent directory.versionFile) {events : List StorageEvent}
    (hevents : EachStep (next glib order uninitialised)
      (fun history event => history.Admissible glib order event ∧ history.StaysInPlace event)
      (start directory) events) :
    Throughout (next glib order uninitialised) HoldsOnlyItsOwn (start directory) events := by
  have hstart : (start directory).Lawful := .closed (Fresh.of_not_readsCurrent hforeign)
  have hlawful : Throughout (next glib order uninitialised) Lawful (start directory) events :=
    throughout_of_step (fun _ _ h hok => Lawful.step h hok.1 hok.2) hstart hevents
  exact hlawful.mono fun _ => Lawful.holdsOnlyItsOwn

def runningContext : CallContext := ⟨some (10, 20), some Uuid.null, true, true, true⟩

/-- A store and an opening that die, a boot-offset file that disappears, and files of another
version. -/
def interruptedRun : List StorageEvent :=
  [.call (.newCache openCall runningContext),
    .call (.store [⟨[121], [7]⟩] .metadata),
    .call (.store [⟨[121], [8]⟩] .none),
    .crash (.store [⟨[121], [9]⟩] .none) 0 4,
    .replacedBootMetadata .absent,
    .crash (.newCache openCall runningContext) 1 0,
    .call (.newCache openCall runningContext),
    .call (.store [⟨[121], [10]⟩] .none),
    .call (.finalize runningContext),
    .replaced ⟨⟨some [1, 2, 3], .absent⟩, .unparsable, .absent⟩,
    .call (.newCache openCall { runningContext with versionSaved := false }),
    .call (.newCache openCall runningContext)]

theorem staleData_never_survives_interruptedRun :
    Throughout (next plainVariants .little fun _ => 0) HoldsOnlyItsOwn (start emptyDirectory)
      interruptedRun :=
  staleData_never_survives plainVariants .little (fun _ => 0) (by decide +kernel)
    (by decide +kernel)

/-- The cache is open at the end of that run. -/
example : ¬ (run (next plainVariants .little fun _ => 0) (start emptyDirectory)
    interruptedRun).IsClosed := by
  decide +kernel

/-- Files of another version: an empty ring of 64 bytes that starts at byte 56, in a data file that
has gone on behind the ring with three bytes of an element. -/
def overlongDirectory : CacheDirectory :=
  ⟨⟨some (List.replicate 64 0 ++ [121, 0, 66]), .parsed
      (((KeyFile.empty.setUint64 metadataGroupName maxSizeKey 64).setUint64 metadataGroupName
        sizeKey 0).setInt64 metadataGroupName headKey 56)⟩, .absent, .absent⟩

def overlongOpening : List StorageEvent :=
  [.call (.newCache openCall runningContext), .call (.store [⟨[121], [7]⟩] .none)]

/-- What a read of three bytes answers. -/
def readAnswer (history : StorageHistory) : Option (List Bytes) :=
  match history.life with
  | .closed _ => none
  | .opened cache =>
    (cache.cache.variantFile.read 3 true).1.toOption.map EmerCircularFile.ReadResult.elems

/-- Neither purge touches the ring, since it is empty.  The length of the element that is stored
goes up to the end of the ring, and its three bytes go to the start.  A read finds three bytes
behind the length, those of the other version. -/
theorem staleData_survives :
    ¬ ReadsCurrent overlongDirectory.versionFile ∧
      EachStep (next plainVariants .little fun _ => 0) (Admissible plainVariants .little)
        (start overlongDirectory) overlongOpening ∧
      ¬ Throughout (next plainVariants .little fun _ => 0) HoldsOnlyItsOwn
        (start overlongDirectory) overlongOpening := by
  refine ⟨by decide +kernel, by decide +kernel, fun h => ?_⟩
  have hlast := h.last
  set left := run (next plainVariants .little fun _ => 0) (start overlongDirectory) overlongOpening
  have hstored : left.storedSince = [[121, 0, 7]] := by decide +kernel
  have hanswer : left.readAnswer = some [[121, 0, 66]] := by decide +kernel
  cases hlife : left.life with
  | closed directory =>
    rw [readAnswer, hlife] at hanswer
    cases hanswer
  | opened cache =>
    obtain ⟨-, held, hsub, -, hread⟩ := hlast cache hlife
    rw [readAnswer, hlife] at hanswer
    simp only [hread, Except.toOption, Option.map_some, Option.some.injEq] at hanswer
    have hstale : [121, 0, 66] ∈ held := by
      apply (takeWithin_isPrefix List.length 3 held).subset
      rw [hanswer]
      exact List.mem_singleton_self _
    have hown := hsub.subset hstale
    rw [hstored] at hown
    exact absurd hown (by decide)

end StorageHistory

end EventRecorder
