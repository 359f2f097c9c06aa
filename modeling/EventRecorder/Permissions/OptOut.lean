import EventRecorder.Permissions.Provider
import EventRecorder.Theory.Run

/-!
# What becomes of a permission once it has been set

Setters, reloads and the deferred write run in any order.  A reload drops whatever has been set
since the file was last written, so a setter is honoured for as long as no reload finds it
unwritten.
-/

namespace EventRecorder

open Theory

/-- What the main loop can do with a provider. -/
inductive ProviderOp where
  | setDaemonEnabled (enabled : Bool)
  | setUploadingEnabled (enabled : Bool)
  | getEnvironment
  | getServerUrl
  | idleWrite
  deriving DecidableEq, Repr

/-- One operation, with every file operation succeeding.  The idle callback only runs while it is
scheduled. -/
def providerStep (self : EmerPermissionsProvider) : ProviderOp → EmerPermissionsProvider
  | .setDaemonEnabled enabled => (self.setDaemonEnabled enabled).1
  | .setUploadingEnabled enabled => (self.setUploadingEnabled enabled).1
  | .getEnvironment => self.getEnvironment.2.1
  | .getServerUrl => self.getServerUrl.2.1
  | .idleWrite => if self.writeConfigFileIdle then self.writeConfigFileIdleCb true else self

/-- Whether an operation loads the config file again. -/
def rereads (self : EmerPermissionsProvider) : ProviderOp → Prop
  | .getEnvironment => True
  | .getServerUrl => EmerPermissionsProvider.environmentPlaceholder <:+: self.serverUrlTemplate
  | _ => False

/-- The file holds the two given permissions. -/
def fileHolds (self : EmerPermissionsProvider) (daemonEnabled uploadingEnabled : Bool) : Prop :=
  ∃ contents, self.permissionsConfigFile = .parsed contents ∧
    daemonEnabledIn contents = daemonEnabled ∧ uploadingEnabledIn contents = uploadingEnabled

/-- A reload with a write pending finds the permissions already in the file. -/
def rereadHarmless (self : EmerPermissionsProvider) (op : ProviderOp) : Prop :=
  rereads self op → self.writeConfigFileIdle = true →
    fileHolds self self.getDaemonEnabled self.getUploadingEnabled

/-! ## 1. The permissions that were asked for -/

/-- The two permissions last asked for. -/
structure Requested where
  daemonEnabled : Bool
  uploadingEnabled : Bool
  deriving DecidableEq, Repr

def requestStep (req : Requested) : ProviderOp → Requested
  | .setDaemonEnabled enabled => { req with daemonEnabled := enabled }
  | .setUploadingEnabled enabled => { req with uploadingEnabled := enabled }
  | _ => req

/-- The arguments of the last setter calls, or the file's own values where there was none. -/
def requested (contents : KeyFile) (ops : List ProviderOp) : Requested :=
  run requestStep ⟨daemonEnabledIn contents, uploadingEnabledIn contents⟩ ops

/-- The getters answer what was asked for, and so does the file once nothing is left to write. -/
def honours (self : EmerPermissionsProvider) (req : Requested) : Prop :=
  self.getDaemonEnabled = req.daemonEnabled ∧ self.getUploadingEnabled = req.uploadingEnabled ∧
    (self.writeConfigFileIdle = false → fileHolds self req.daemonEnabled req.uploadingEnabled)

/-- The provider opened on a valid file honours what was asked for after each of the operations. -/
def requestsHonoured (contents : KeyFile) (ostreeUrl : Option Text) (ops : List ProviderOp) :
    Prop :=
  ∀ pre, pre <+: ops →
    honours (run providerStep (emerPermissionsProviderNew (.parsed contents) ostreeUrl) pre)
      (requested contents pre)

/-! ## 2. One operation -/

def fileValid (self : EmerPermissionsProvider) : Prop :=
  ∃ contents, self.permissionsConfigFile = .parsed contents

theorem getServerUrl_of_rereads {self : EmerPermissionsProvider}
    (h : rereads self .getServerUrl) : self.getServerUrl.2.1 = self.getEnvironment.2.1 := by
  unfold rereads at h
  simp only [EmerPermissionsProvider.getServerUrl, if_pos h]

theorem getServerUrl_of_not_rereads {self : EmerPermissionsProvider}
    (h : ¬ rereads self .getServerUrl) : self.getServerUrl.2.1 = self := by
  unfold rereads at h
  simp only [EmerPermissionsProvider.getServerUrl, if_neg h]

theorem providerStep_fileValid (self : EmerPermissionsProvider) (op : ProviderOp)
    (h : fileValid self) : fileValid (providerStep self op) := by
  obtain ⟨contents, hfile⟩ := h
  have henv : fileValid self.getEnvironment.2.1 :=
    ⟨contents, (self.getEnvironment_of_parsed hfile).2.2.1⟩
  cases op with
  | setDaemonEnabled enabled => exact ⟨contents, by simp [providerStep,
      EmerPermissionsProvider.setDaemonEnabled, hfile]⟩
  | setUploadingEnabled enabled => exact ⟨contents, by simp [providerStep,
      EmerPermissionsProvider.setUploadingEnabled, hfile]⟩
  | getEnvironment => exact henv
  | getServerUrl =>
    by_cases hr : rereads self .getServerUrl
    · rw [providerStep, getServerUrl_of_rereads hr]; exact henv
    · rw [providerStep, getServerUrl_of_not_rereads hr]; exact ⟨contents, hfile⟩
  | idleWrite =>
    show fileValid (if self.writeConfigFileIdle then self.writeConfigFileIdleCb true else self)
    split
    -- the write puts a whole key file in place of the old one
    · exact ⟨self.permissions, rfl⟩
    · exact ⟨contents, hfile⟩

/-- A reload keeps the law exactly when it finds the permissions in the file. -/
theorem reread_honours_iff {self : EmerPermissionsProvider} {req : Requested}
    (hvalid : fileValid self) (hreq : honours self req) :
    honours self.getEnvironment.2.1 req ↔
      (self.writeConfigFileIdle = true →
        fileHolds self self.getDaemonEnabled self.getUploadingEnabled) := by
  obtain ⟨contents, hfile⟩ := hvalid
  obtain ⟨hdaemon, huploading, hwritten⟩ := hreq
  obtain ⟨hdaemon', huploading', hfile', hidle'⟩ := self.getEnvironment_of_parsed hfile
  have hholds : ∀ d u, fileHolds self d u ↔
      daemonEnabledIn contents = d ∧ uploadingEnabledIn contents = u := by
    simp [fileHolds, hfile]
  have hholds' : ∀ d u, fileHolds self.getEnvironment.2.1 d u ↔
      daemonEnabledIn contents = d ∧ uploadingEnabledIn contents = u := by
    simp [fileHolds, hfile']
  -- after the reload the getters answer what the file holds, so the law is about the file alone
  simp only [honours, hdaemon', huploading', hholds', hholds, hdaemon, huploading]
  rw [hholds] at hwritten
  constructor
  · exact fun h _ => ⟨h.1, h.2.1⟩
  · intro h
    have hboth : daemonEnabledIn contents = req.daemonEnabled ∧
        uploadingEnabledIn contents = req.uploadingEnabled := by
      -- with no write pending the file already honoured the requests before the reload
      cases hpending : self.writeConfigFileIdle with
      | true => exact h hpending
      | false => exact hwritten hpending
    exact ⟨hboth.1, hboth.2, fun _ => hboth⟩

/-- From a state that honours what was asked for, an operation keeps doing so exactly when it is
harmless as a reload. -/
theorem providerStep_honours_iff {self : EmerPermissionsProvider} {req : Requested}
    (op : ProviderOp) (hvalid : fileValid self) (hreq : honours self req) :
    honours (providerStep self op) (requestStep req op) ↔ rereadHarmless self op := by
  have hreload := reread_honours_iff hvalid hreq
  cases op with
  | setDaemonEnabled enabled =>
    refine iff_of_true ?_ (by simp [rereadHarmless, rereads])
    exact ⟨by simp [providerStep, requestStep], by simpa [providerStep, requestStep] using hreq.2.1,
      by simp [providerStep]⟩
  | setUploadingEnabled enabled =>
    refine iff_of_true ?_ (by simp [rereadHarmless, rereads])
    exact ⟨by simpa [providerStep, requestStep] using hreq.1, by simp [providerStep, requestStep],
      by simp [providerStep]⟩
  -- only the two reloads are conditional
  | getEnvironment =>
    rw [rereadHarmless, forall_prop_of_true (show rereads self .getEnvironment from trivial)]
    exact hreload
  | getServerUrl =>
    by_cases hr : rereads self .getServerUrl
    · rw [providerStep, getServerUrl_of_rereads hr, rereadHarmless, forall_prop_of_true hr]
      exact hreload
    · rw [providerStep, getServerUrl_of_not_rereads hr]
      exact iff_of_true hreq fun h => absurd h hr
  | idleWrite =>
    refine iff_of_true ?_ (by simp [rereadHarmless, rereads])
    show honours
      (if self.writeConfigFileIdle then self.writeConfigFileIdleCb true else self) req
    split
    · exact ⟨hreq.1, hreq.2.1, fun _ => ⟨self.permissions, rfl, hreq.1, hreq.2.1⟩⟩
    · exact hreq

/-! ## 3. Whole runs -/

/-- The provider beside a record of what was asked of it. -/
def trackedStep (s : EmerPermissionsProvider × Requested) (op : ProviderOp) :
    EmerPermissionsProvider × Requested :=
  (providerStep s.1 op, requestStep s.2 op)

theorem run_trackedStep (self : EmerPermissionsProvider) (req : Requested)
    (ops : List ProviderOp) :
    run trackedStep (self, req) ops = (run providerStep self ops, run requestStep req ops) := by
  induction ops generalizing self req with
  | nil => rfl
  | cons op ops ih => exact ih _ _

/-- **The setters are honoured throughout a run exactly when no reload comes between a setter that
changes something and the write of the file.** -/
theorem requestsHonoured_iff (contents : KeyFile) (ostreeUrl : Option Text)
    (ops : List ProviderOp) :
    requestsHonoured contents ostreeUrl ops ↔
      EachStep providerStep rereadHarmless
        (emerPermissionsProviderNew (.parsed contents) ostreeUrl) ops := by
  let self := emerPermissionsProviderNew (.parsed contents) ostreeUrl
  let req : Requested := ⟨daemonEnabledIn contents, uploadingEnabledIn contents⟩
  have hstart : honours self req := ⟨rfl, rfl, fun _ => ⟨contents, rfl, rfl, rfl⟩⟩
  -- the invariant is that the file stays valid; the law itself is `honours`
  have hrule : Throughout trackedStep (fun s => honours s.1 s.2) (self, req) ops ↔
      EachStep trackedStep (fun s op => rereadHarmless s.1 op) (self, req) ops :=
    throughout_iff_eachStep (I := fun s : EmerPermissionsProvider × Requested => fileValid s.1)
      (fun s op h (_ : True) => providerStep_fileValid s.1 op h)
      (fun s op h _ hP => providerStep_honours_iff op h hP) ⟨contents, rfl⟩ hstart
      fun _ _ _ => trivial
  simp only [Throughout, EachStep, run_trackedStep] at hrule
  exact hrule

/-- An opt-out that `getEnvironment` overtakes: the file says `enabled=true` until the idle write,
which then writes that same value back. -/
theorem requestsHonoured_reload_before_write :
    ¬ requestsHonoured fallbackConfigFileData none
      [.setDaemonEnabled false, .getEnvironment, .idleWrite] := by
  intro h
  have hlast := (h _ (List.prefix_refl _)).1
  revert hlast
  decide

end EventRecorder
