import EventRecorder.Theory.KeyFile

/-!
# The permissions provider

`EmerPermissionsProvider` caches the permissions config file in a key file.  A setter edits the
cached key file and schedules a low-priority write; `getEnvironment`, and `getServerUrl` when the
URL is a template, load the whole file again.
-/

namespace EventRecorder

open Theory

def daemonGlobalGroupName : String := "global"
def daemonEnabledKeyName : String := "enabled"
def daemonUploadingEnabledKeyName : String := "uploading_enabled"
def daemonEnvironmentKeyName : String := "environment"
def daemonServerUrlKeyName : String := "server_url"

/-- The build option of the same name, at its default. -/
def defaultMetricsServerUrl : Text := "https://${environment}.azafea.example".toList

def fallbackConfigFileData : KeyFile :=
  (((KeyFile.empty.setBoolean daemonGlobalGroupName daemonEnabledKeyName true).setBoolean
    daemonGlobalGroupName daemonUploadingEnabledKeyName false).setValue
    daemonGlobalGroupName daemonEnvironmentKeyName "production".toList).setValue
    daemonGlobalGroupName daemonServerUrlKeyName defaultMetricsServerUrl

/-- Replace every occurrence of `find`, from left to right.  The counter is the number of characters
of the last occurrence still to be skipped. -/
def replaceAll (find rep : Text) : Nat → Text → Text
  | _, [] => []
  | skip + 1, _ :: t => replaceAll find rep skip t
  | 0, c :: t =>
      if find <+: c :: t then rep ++ replaceAll find rep (find.length - 1) t
      else c :: replaceAll find rep 0 t

/-- The properties whose change is notified. -/
inductive ProviderProperty where
  | daemonEnabled
  | uploadingEnabled
  | serverUrl
  deriving DecidableEq, Repr

/-- `permissionsConfigFile` is what the file holds on disk, `writeConfigFileIdle` whether
`writeConfigFileIdleCb` is scheduled, and `ostreeUrl` what `read_ostree_url` finds. -/
structure EmerPermissionsProvider where
  permissions : KeyFile
  permissionsConfigFile : KeyFileOnDisk
  writeConfigFileIdle : Bool
  ostreeUrl : Option Text

/-- The `enabled` key of a config file; a missing or malformed value counts as `FALSE`. -/
def daemonEnabledIn (kf : KeyFile) : Bool :=
  (kf.getBoolean daemonGlobalGroupName daemonEnabledKeyName).toOption.getD false

/-- The `uploading_enabled` key of a config file; a missing or malformed value counts as `TRUE`. -/
def uploadingEnabledIn (kf : KeyFile) : Bool :=
  (kf.getBoolean daemonGlobalGroupName daemonUploadingEnabledKeyName).toOption.getD true

namespace EmerPermissionsProvider

variable (self : EmerPermissionsProvider)

def loadFallbackData : EmerPermissionsProvider :=
  { self with permissions := fallbackConfigFileData }

/-- A failed write is only logged: the file keeps its old contents. -/
def writeConfigFileSync (saved : Bool) : EmerPermissionsProvider :=
  if saved then { self with permissionsConfigFile := .parsed self.permissions } else self

def writeConfigFileIdleCb (saved : Bool) : EmerPermissionsProvider :=
  { self.writeConfigFileSync saved with writeConfigFileIdle := false }

def scheduleConfigFileUpdate : EmerPermissionsProvider :=
  if self.writeConfigFileIdle then self else { self with writeConfigFileIdle := true }

/-- Returns the notified properties too. -/
def readConfigFileSync : EmerPermissionsProvider × List ProviderProperty :=
  let loaded :=
    match self.permissionsConfigFile.load with
    | .ok contents => { self with permissions := contents }
    -- a missing and an unusable file are treated alike: the fallback data goes back to the file
    | .error _ => self.loadFallbackData.scheduleConfigFileUpdate
  (loaded, [.daemonEnabled, .uploadingEnabled, .serverUrl])

def readEnvironment : Text :=
  match self.permissions.getValue daemonGlobalGroupName daemonEnvironmentKeyName with
  | none => "test".toList
  | some environment =>
      if environment ∈ ["dev".toList, "test".toList, "production".toList] then environment
      else "test".toList

def setEnvironment (environment : Text) : EmerPermissionsProvider :=
  scheduleConfigFileUpdate
    { self with permissions :=
        self.permissions.setValue daemonGlobalGroupName daemonEnvironmentKeyName environment }

def getDaemonEnabled : Bool := daemonEnabledIn self.permissions

def setDaemonEnabled (enabled : Bool) : EmerPermissionsProvider × List ProviderProperty :=
  (scheduleConfigFileUpdate
    { self with permissions :=
        self.permissions.setBoolean daemonGlobalGroupName daemonEnabledKeyName enabled },
    [.daemonEnabled])

def getUploadingEnabled : Bool := uploadingEnabledIn self.permissions

def setUploadingEnabled (enabled : Bool) : EmerPermissionsProvider × List ProviderProperty :=
  (scheduleConfigFileUpdate
    { self with permissions :=
        self.permissions.setBoolean daemonGlobalGroupName daemonUploadingEnabledKeyName enabled },
    [.uploadingEnabled])

/-- A production system that updates from a staging repository is moved to the `dev` environment. -/
def getEnvironment : Text × EmerPermissionsProvider × List ProviderProperty :=
  let (self, notified) := self.readConfigFileSync
  let environment := self.readEnvironment
  match self.ostreeUrl with
  | none => (environment, self, notified)
  | some ostreeUrl =>
      -- staging images carry the production config file
      if environment = "production".toList ∧ "staging".toList <:+: ostreeUrl then
        ("dev".toList, self.setEnvironment "dev".toList, notified)
      else (environment, self, notified)

/-- The configured URL before its placeholders are expanded. -/
def serverUrlTemplate : Text :=
  (self.permissions.getValue daemonGlobalGroupName daemonServerUrlKeyName).getD
    defaultMetricsServerUrl

def environmentPlaceholder : Text := "${environment}".toList

def getServerUrl : Text × EmerPermissionsProvider × List ProviderProperty :=
  let serverUrl := self.serverUrlTemplate
  if environmentPlaceholder <:+: serverUrl then
    -- the template has been taken from the key file before this reload
    let (environment, self, notified) := self.getEnvironment
    (replaceAll environmentPlaceholder environment 0 serverUrl, self, notified)
  else (serverUrl, self, [])

end EmerPermissionsProvider

/-- `emer_permissions_provider_constructed` over a config file. -/
def emerPermissionsProviderNew (file : KeyFileOnDisk) (ostreeUrl : Option Text) :
    EmerPermissionsProvider :=
  (EmerPermissionsProvider.readConfigFileSync ⟨KeyFile.empty, file, false, ostreeUrl⟩).1

/-! ## What each operation does to the two permissions -/

@[simp] theorem daemonEnabledIn_setDaemonEnabled (kf : KeyFile) (b : Bool) :
    daemonEnabledIn (kf.setBoolean daemonGlobalGroupName daemonEnabledKeyName b) = b := by
  simp [daemonEnabledIn, Except.toOption]

@[simp] theorem uploadingEnabledIn_setUploadingEnabled (kf : KeyFile) (b : Bool) :
    uploadingEnabledIn
      (kf.setBoolean daemonGlobalGroupName daemonUploadingEnabledKeyName b) = b := by
  simp [uploadingEnabledIn, Except.toOption]

theorem daemonEnabledIn_setValue_ne (kf : KeyFile) {key : String} (t : Text)
    (hne : daemonEnabledKeyName ≠ key) :
    daemonEnabledIn (kf.setValue daemonGlobalGroupName key t) = daemonEnabledIn kf := by
  unfold daemonEnabledIn KeyFile.getBoolean
  rw [KeyFile.getParsed_setValue_ne parseBoolean kf t (by simp [hne])]

theorem uploadingEnabledIn_setValue_ne (kf : KeyFile) {key : String} (t : Text)
    (hne : daemonUploadingEnabledKeyName ≠ key) :
    uploadingEnabledIn (kf.setValue daemonGlobalGroupName key t) = uploadingEnabledIn kf := by
  unfold uploadingEnabledIn KeyFile.getBoolean
  rw [KeyFile.getParsed_setValue_ne parseBoolean kf t (by simp [hne])]

@[simp] theorem uploadingEnabledIn_setDaemonEnabled (kf : KeyFile) (b : Bool) :
    uploadingEnabledIn (kf.setBoolean daemonGlobalGroupName daemonEnabledKeyName b) =
      uploadingEnabledIn kf :=
  uploadingEnabledIn_setValue_ne kf _ (by decide)

@[simp] theorem daemonEnabledIn_setUploadingEnabled (kf : KeyFile) (b : Bool) :
    daemonEnabledIn (kf.setBoolean daemonGlobalGroupName daemonUploadingEnabledKeyName b) =
      daemonEnabledIn kf :=
  daemonEnabledIn_setValue_ne kf _ (by decide)

namespace EmerPermissionsProvider

@[simp] theorem scheduleConfigFileUpdate_permissions (self : EmerPermissionsProvider) :
    self.scheduleConfigFileUpdate.permissions = self.permissions := by
  unfold scheduleConfigFileUpdate
  split <;> rfl

@[simp] theorem scheduleConfigFileUpdate_permissionsConfigFile (self : EmerPermissionsProvider) :
    self.scheduleConfigFileUpdate.permissionsConfigFile = self.permissionsConfigFile := by
  unfold scheduleConfigFileUpdate
  split <;> rfl

@[simp] theorem scheduleConfigFileUpdate_writeConfigFileIdle (self : EmerPermissionsProvider) :
    self.scheduleConfigFileUpdate.writeConfigFileIdle = true := by
  unfold scheduleConfigFileUpdate
  split
  · assumption
  · rfl

@[simp] theorem setDaemonEnabled_getDaemonEnabled (self : EmerPermissionsProvider) (b : Bool) :
    (self.setDaemonEnabled b).1.getDaemonEnabled = b := by
  simp [setDaemonEnabled, getDaemonEnabled]

@[simp] theorem setDaemonEnabled_getUploadingEnabled (self : EmerPermissionsProvider) (b : Bool) :
    (self.setDaemonEnabled b).1.getUploadingEnabled = self.getUploadingEnabled := by
  simp [setDaemonEnabled, getUploadingEnabled]

@[simp] theorem setUploadingEnabled_getUploadingEnabled (self : EmerPermissionsProvider)
    (b : Bool) : (self.setUploadingEnabled b).1.getUploadingEnabled = b := by
  simp [setUploadingEnabled, getUploadingEnabled]

@[simp] theorem setUploadingEnabled_getDaemonEnabled (self : EmerPermissionsProvider) (b : Bool) :
    (self.setUploadingEnabled b).1.getDaemonEnabled = self.getDaemonEnabled := by
  simp [setUploadingEnabled, getDaemonEnabled]

@[simp] theorem setDaemonEnabled_writeConfigFileIdle (self : EmerPermissionsProvider) (b : Bool) :
    (self.setDaemonEnabled b).1.writeConfigFileIdle = true :=
  scheduleConfigFileUpdate_writeConfigFileIdle _

@[simp] theorem setUploadingEnabled_writeConfigFileIdle (self : EmerPermissionsProvider)
    (b : Bool) : (self.setUploadingEnabled b).1.writeConfigFileIdle = true :=
  scheduleConfigFileUpdate_writeConfigFileIdle _

/-- The environment comes with the notifications of a file that was read. -/
theorem daemonEnabled_mem_getEnvironment (self : EmerPermissionsProvider) :
    ProviderProperty.daemonEnabled ∈ self.getEnvironment.2.2 := by
  have hread : ProviderProperty.daemonEnabled ∈ self.readConfigFileSync.2 := List.mem_cons_self
  unfold getEnvironment
  dsimp only
  cases self.readConfigFileSync.1.ostreeUrl with
  | none => exact hread
  | some ostreeUrl =>
    dsimp only
    split
    · exact hread
    · exact hread

/-- Re-reading a valid file replaces both permissions by those of the file.  A write is left pending
if one was, or if the environment had to be corrected; the file itself is not touched. -/
theorem getEnvironment_of_parsed (self : EmerPermissionsProvider) {contents : KeyFile}
    (hfile : self.permissionsConfigFile = .parsed contents) :
    let next := self.getEnvironment.2.1
    next.getDaemonEnabled = daemonEnabledIn contents ∧
      next.getUploadingEnabled = uploadingEnabledIn contents ∧
      next.permissionsConfigFile = .parsed contents ∧
      (next.writeConfigFileIdle = false → self.writeConfigFileIdle = false) := by
  unfold getEnvironment readConfigFileSync
  simp only [hfile, KeyFileOnDisk.load, getDaemonEnabled, getUploadingEnabled]
  -- only the correction of the environment writes, and to neither of the two permissions
  cases self.ostreeUrl with
  | none => simp
  | some ostreeUrl =>
    dsimp only
    split
    · simp only [setEnvironment, scheduleConfigFileUpdate_permissions,
        scheduleConfigFileUpdate_permissionsConfigFile,
        scheduleConfigFileUpdate_writeConfigFileIdle, Bool.true_eq_false,
        false_implies, and_true]
      exact ⟨daemonEnabledIn_setValue_ne contents _ (by decide),
        uploadingEnabledIn_setValue_ne contents _ (by decide)⟩
    · simp

end EmerPermissionsProvider

end EventRecorder
