import EventRecorder.Daemon.Handlers
import EventRecorder.Permissions.OptOut

/-!
# What leaves the permissions alone

The daemon loads its config file again whenever it needs the environment, and every load notifies
that recording may have been switched.  As long as the file says what the provider says, nothing
but a setter or an edit of the file changes a permission, and nothing recorded is discarded.
-/

namespace EventRecorder

open Theory

namespace EmerDaemon

variable {κ ε : Type*} {parts : DaemonParts κ ε} {self next : EmerDaemon κ ε}
  {daemonEnabled uploadingEnabled : Bool}

/-! ## 1. The invariant -/

/-- The permissions are those of the file, and nobody who records has opted out. -/
structure Guarded (daemonEnabled uploadingEnabled : Bool) (daemon : EmerDaemon κ ε) : Prop where
  enabled : daemon.permissionsProvider.getDaemonEnabled = daemonEnabled
  uploading : daemon.permissionsProvider.getUploadingEnabled = uploadingEnabled
  file : fileHolds daemon.permissionsProvider daemonEnabled uploadingEnabled
  recording : daemon.recordingEnabled = daemonEnabled
  notOptedOut : daemonEnabled = true → .optedOut ∉ daemon.trace

/-- The events that neither set a permission nor edit the file. -/
def LeavesPermissions : DaemonEvent ε → Prop
  | .setDaemonEnabled _ | .setUploadingEnabled _ | .configFileEdited _ => False
  | _ => True

namespace Guarded

theorem same (h : Guarded daemonEnabled uploadingEnabled self)
    (hprovider : next.permissionsProvider = self.permissionsProvider)
    (hrecording : next.recordingEnabled = self.recordingEnabled)
    (htrace : .optedOut ∈ next.trace → .optedOut ∈ self.trace) :
    Guarded daemonEnabled uploadingEnabled next := by
  obtain ⟨enabled, uploading, file, recording, notOptedOut⟩ := h
  rw [← hprovider] at enabled uploading file
  exact ⟨enabled, uploading, file, hrecording.trans recording,
    fun henabled hmem => notOptedOut henabled (htrace hmem)⟩

theorem log (h : Guarded daemonEnabled uploadingEnabled self) {action : Action ε}
    (hother : .optedOut ≠ action) : Guarded daemonEnabled uploadingEnabled (self.log action) := by
  refine h.same rfl rfl fun hmem => ?_
  rcases List.mem_append.mp hmem with hmem | hmem
  · exact hmem
  · exact absurd (List.mem_singleton.mp hmem) hother

theorem returned (h : Guarded daemonEnabled uploadingEnabled self) (taskId : Nat)
    (result : UploadResult) :
    Guarded daemonEnabled uploadingEnabled (self.log (.returned taskId result)) :=
  h.log (by simp)

theorem flush (h : Guarded daemonEnabled uploadingEnabled self) :
    Guarded daemonEnabled uploadingEnabled (self.flushToPersistentCache parts) := by
  obtain ⟨cache, buffer, hflush⟩ := flushToPersistentCache_eq parts self
  rw [hflush]
  exact h.same rfl rfl id

theorem recordEvent (h : Guarded daemonEnabled uploadingEnabled self) (event : ε) :
    Guarded daemonEnabled uploadingEnabled (self.recordEvent parts event) := by
  unfold EmerDaemon.recordEvent bufferEvent
  split
  · have hbuffered : Guarded daemonEnabled uploadingEnabled
        { self with buffer := self.buffer.bufferEvent parts.cost event } := h.same rfl rfl id
    split
    · exact hbuffered.log (by simp)
    · exact hbuffered
  · exact h

theorem createRequestBody (h : Guarded daemonEnabled uploadingEnabled self)
    (uploadTask : UploadTask ε) (timestamps : Bool) :
    Guarded daemonEnabled uploadingEnabled
      (self.createRequestBody parts uploadTask timestamps).2 := by
  obtain ⟨cache, hbody⟩ := createRequestBody_eq parts self uploadTask timestamps
  rw [hbody]
  exact h.same rfl rfl id

/-! ## 2. Loading the file again -/

/-- The daemon hears of the permissions that it has. -/
theorem withProvider (h : Guarded daemonEnabled uploadingEnabled self)
    {provider : EmerPermissionsProvider} (henabled : provider.getDaemonEnabled = daemonEnabled)
    (huploading : provider.getUploadingEnabled = uploadingEnabled)
    (hfile : fileHolds provider daemonEnabled uploadingEnabled)
    (notified : List ProviderProperty) :
    Guarded daemonEnabled uploadingEnabled (self.withProvider parts provider notified) := by
  have hupdated : Guarded daemonEnabled uploadingEnabled
      { self with permissionsProvider := provider } :=
    ⟨henabled, huploading, hfile, h.recording, h.notOptedOut⟩
  unfold EmerDaemon.withProvider onPermissionsChanged
  dsimp only
  split
  · rw [henabled]
    cases daemonEnabled with
    | true =>
      rw [if_pos rfl]
      exact ⟨henabled, huploading, hfile, rfl, h.notOptedOut⟩
    | false =>
      rw [if_neg Bool.false_ne_true]
      -- recording was off before: there is nothing to discard
      unfold cancelCurrentUpload
      dsimp only
      split
      · exact ⟨henabled, huploading, hfile, rfl, Bool.noConfusion⟩
      · exact ⟨henabled, huploading, hfile, rfl, Bool.noConfusion⟩
  · exact hupdated

theorem provider_getEnvironment {provider : EmerPermissionsProvider}
    (hfile : fileHolds provider daemonEnabled uploadingEnabled) :
    provider.getEnvironment.2.1.getDaemonEnabled = daemonEnabled ∧
      provider.getEnvironment.2.1.getUploadingEnabled = uploadingEnabled ∧
      fileHolds provider.getEnvironment.2.1 daemonEnabled uploadingEnabled := by
  obtain ⟨contents, hparsed, henabled, huploading⟩ := hfile
  obtain ⟨henabled', huploading', hparsed', -⟩ := provider.getEnvironment_of_parsed hparsed
  exact ⟨henabled'.trans henabled, huploading'.trans huploading,
    ⟨contents, hparsed', henabled, huploading⟩⟩

theorem getEnvironment (h : Guarded daemonEnabled uploadingEnabled self) :
    Guarded daemonEnabled uploadingEnabled (self.getEnvironment parts) := by
  obtain ⟨henabled, huploading, hfile⟩ := provider_getEnvironment h.file
  exact h.withProvider henabled huploading hfile _

theorem getServerUrl (h : Guarded daemonEnabled uploadingEnabled self) :
    Guarded daemonEnabled uploadingEnabled (self.getServerUrl parts).2 := by
  have hkept : self.permissionsProvider.getServerUrl.2.1.getDaemonEnabled = daemonEnabled ∧
      self.permissionsProvider.getServerUrl.2.1.getUploadingEnabled = uploadingEnabled ∧
      fileHolds self.permissionsProvider.getServerUrl.2.1 daemonEnabled uploadingEnabled := by
    -- a URL without the placeholder needs no environment
    by_cases hreads : rereads self.permissionsProvider .getServerUrl
    · rw [getServerUrl_of_rereads hreads]
      exact provider_getEnvironment h.file
    · rw [getServerUrl_of_not_rereads hreads]
      exact ⟨h.enabled, h.uploading, h.file⟩
  exact h.withProvider hkept.1 hkept.2.1 hkept.2.2 _

theorem getPingSocket (h : Guarded daemonEnabled uploadingEnabled self) :
    Guarded daemonEnabled uploadingEnabled (ofOutcome (self.getPingSocket parts)) := by
  unfold EmerDaemon.getPingSocket
  dsimp only
  split
  · exact h.getServerUrl
  · exact h.getServerUrl

theorem getHttpRequestUrl (h : Guarded daemonEnabled uploadingEnabled self) :
    Guarded daemonEnabled uploadingEnabled (ofOutcome (self.getHttpRequestUrl parts)) := by
  unfold EmerDaemon.getHttpRequestUrl
  dsimp only
  split
  · exact h.getServerUrl
  · exact h.getServerUrl

/-- The idle callback writes the permissions that the file has. -/
theorem writeConfigFileIdleCb (h : Guarded daemonEnabled uploadingEnabled self) (saved : Bool) :
    Guarded daemonEnabled uploadingEnabled { self with
      permissionsProvider := self.permissionsProvider.writeConfigFileIdleCb saved } := by
  obtain ⟨enabled, uploading, file, recording, notOptedOut⟩ := h
  unfold EmerPermissionsProvider.writeConfigFileIdleCb EmerPermissionsProvider.writeConfigFileSync
  cases saved with
  | true => exact ⟨enabled, uploading, ⟨_, rfl, enabled, uploading⟩, recording, notOptedOut⟩
  | false => exact ⟨enabled, uploading, file, recording, notOptedOut⟩

/-! ## 3. Callbacks -/

theorem map {outcome : Outcome κ ε} (h : Guarded daemonEnabled uploadingEnabled (ofOutcome outcome))
    {f : EmerDaemon κ ε → EmerDaemon κ ε}
    (hf : ∀ self, Guarded daemonEnabled uploadingEnabled self →
      Guarded daemonEnabled uploadingEnabled (f self)) :
    Guarded daemonEnabled uploadingEnabled (ofOutcome (outcome.map f)) := by
  cases outcome with
  | ok self => exact hf self h
  | error abort => exact h

theorem uploadPermitted (h : Guarded daemonEnabled uploadingEnabled self) :
    Guarded daemonEnabled uploadingEnabled (self.uploadPermitted parts).2 := by
  unfold EmerDaemon.uploadPermitted
  split
  · exact h
  · split
    · exact h.flush
    · exact h

/-- Tasks that are not permitted are returned, and a permitted one starts a check. -/
theorem dequeueFrom (queue : List (UploadTask ε))
    (h : Guarded daemonEnabled uploadingEnabled self) :
    Guarded daemonEnabled uploadingEnabled (ofOutcome (dequeueFrom parts queue self)) := by
  induction queue generalizing self with
  | nil =>
    have hpermitted : Guarded daemonEnabled uploadingEnabled (self.uploadPermitted parts).2 :=
      h.uploadPermitted
    rw [EmerDaemon.dequeueFrom]
    split
    · rename_i permitted hanswer
      rw [hanswer] at hpermitted
      -- a task that may be uploaded stays in the queue while the network is checked
      exact hpermitted.getPingSocket.map fun self hself => hself.same rfl rfl id
    · rename_i result refused hanswer
      rw [hanswer] at hpermitted
      exact hpermitted
  | cons uploadTask rest ih =>
    have hpermitted : Guarded daemonEnabled uploadingEnabled (self.uploadPermitted parts).2 :=
      h.uploadPermitted
    rw [EmerDaemon.dequeueFrom]
    split
    · rename_i permitted hanswer
      rw [hanswer] at hpermitted
      exact hpermitted.getPingSocket.map fun self hself => hself.same rfl rfl id
    · rename_i result refused hanswer
      rw [hanswer] at hpermitted
      have htaken : Guarded daemonEnabled uploadingEnabled
          { refused with uploadQueue := rest } := hpermitted.same rfl rfl id
      have hreturned := htaken.returned uploadTask.taskId result
      -- induction on the queue that is drained
      cases rest with
      | nil => exact hreturned
      | cons nextTask tasks => exact ih hreturned

theorem dequeueAndDoUpload (h : Guarded daemonEnabled uploadingEnabled self) :
    Guarded daemonEnabled uploadingEnabled (ofOutcome (self.dequeueAndDoUpload parts)) :=
  h.dequeueFrom self.uploadQueue

theorem handleUploadFinished (h : Guarded daemonEnabled uploadingEnabled self) :
    Guarded daemonEnabled uploadingEnabled (ofOutcome (self.handleUploadFinished parts)) := by
  unfold EmerDaemon.handleUploadFinished
  split
  · exact h
  · exact h.dequeueAndDoUpload

theorem finishNetworkCallback (h : Guarded daemonEnabled uploadingEnabled self) :
    Guarded daemonEnabled uploadingEnabled (ofOutcome (self.finishNetworkCallback parts)) := by
  have hfinished : Guarded daemonEnabled uploadingEnabled
      { self with currentUpload := none } := h.same rfl rfl id
  exact hfinished.handleUploadFinished

/-- A task is returned and its upload ends. -/
theorem finished (h : Guarded daemonEnabled uploadingEnabled self) (taskId : Nat)
    (result : UploadResult) :
    Guarded daemonEnabled uploadingEnabled
      (ofOutcome ((self.log (.returned taskId result)).finishNetworkCallback parts)) :=
  (h.returned taskId result).finishNetworkCallback

theorem uploadEvents (h : Guarded daemonEnabled uploadingEnabled self) (maxUploadSize : Nat) :
    Guarded daemonEnabled uploadingEnabled (ofOutcome (self.uploadEvents parts maxUploadSize)) := by
  have hqueued : Guarded daemonEnabled uploadingEnabled (self.enqueued maxUploadSize) :=
    h.same rfl rfl id
  exact hqueued.dequeueAndDoUpload

theorem queueHttpRequest (h : Guarded daemonEnabled uploadingEnabled self)
    (uploadTask : UploadTask ε) (fault : RequestFault) :
    Guarded daemonEnabled uploadingEnabled
      (ofOutcome (self.queueHttpRequest parts uploadTask fault)) := by
  have hentered : Guarded daemonEnabled uploadingEnabled (self.entered uploadTask) :=
    h.log (by simp)
  unfold EmerDaemon.queueHttpRequest
  dsimp only
  split
  · exact hentered.finished uploadTask.taskId .notSerialized
  · exact hentered.finished uploadTask.taskId .notCompressed
  · exact hentered.getHttpRequestUrl.map fun self hself => hself.same rfl rfl id

theorem handleNetworkMonitorCanReach (h : Guarded daemonEnabled uploadingEnabled self)
    (reachable : Bool) (fault : RequestFault) :
    Guarded daemonEnabled uploadingEnabled
      (ofOutcome (self.handleNetworkMonitorCanReach parts reachable fault)) := by
  unfold EmerDaemon.handleNetworkMonitorCanReach
  split
  · exact h
  split
  · split
    · exact h
    · have hflushed : Guarded daemonEnabled uploadingEnabled (self.flushToPersistentCache parts) :=
        h.flush
      exact hflushed.handleUploadFinished
  · rename_i uploadTask rest hqueue
    have hpopped : Guarded daemonEnabled uploadingEnabled { self with uploadQueue := rest } :=
      h.same rfl rfl id
    dsimp only
    split
    · exact (hpopped.flush.returned uploadTask.taskId .unreachable).handleUploadFinished
    · have hbody : Guarded daemonEnabled uploadingEnabled
          ({ self with uploadQueue := rest }.createRequestBody parts uploadTask
            (decide (fault ≠ RequestFault.timestamps))).2 := hpopped.createRequestBody _ _
      split
      · rename_i dequeued hnone
        rw [hnone] at hbody
        exact (hbody.returned uploadTask.taskId .noTimestamps).handleUploadFinished
      · rename_i request dequeued hsome
        rw [hsome] at hbody
        have hcurrent : Guarded daemonEnabled uploadingEnabled
            { dequeued with currentUpload := some request.taskId } := hbody.same rfl rfl id
        exact hcurrent.queueHttpRequest request fault

theorem handleBackoffTimer (h : Guarded daemonEnabled uploadingEnabled self)
    (uploadTask : UploadTask ε) (fault : RequestFault) :
    Guarded daemonEnabled uploadingEnabled
      (ofOutcome (self.handleBackoffTimer parts uploadTask fault)) := by
  unfold EmerDaemon.handleBackoffTimer
  split
  · exact h.finished uploadTask.taskId .noTimestamps
  · exact h.queueHttpRequest uploadTask fault

theorem handleHttpResponse (h : Guarded daemonEnabled uploadingEnabled self)
    (uploadTask : UploadTask ε) (response : HttpOutcome) :
    Guarded daemonEnabled uploadingEnabled
      (ofOutcome (self.handleHttpResponse parts uploadTask response)) := by
  unfold EmerDaemon.handleHttpResponse
  split
  · split
    · have hreset : Guarded daemonEnabled uploadingEnabled { self with
          cancelledUploads := self.cancelledUploads.filter (· ≠ uploadTask.taskId) } :=
        h.same rfl rfl id
      exact hreset.finished uploadTask.taskId .uploaded
    · have hlogged : Guarded daemonEnabled uploadingEnabled
          (self.log (.acknowledged uploadTask.requestBody)) := h.log (by simp)
      have hacknowledged : Guarded daemonEnabled uploadingEnabled
          ((self.log (.acknowledged uploadTask.requestBody)).removeFromPersistentCache parts
            uploadTask.token) := hlogged.same rfl rfl id
      dsimp only
      split
      · rename_i abort hremove
        obtain ⟨rfl, -⟩ := removeEvents_eq_error hremove
        exact hacknowledged
      · rename_i removed hremove
        obtain ⟨buffer, -, rfl⟩ := removeEvents_eq_ok hremove
        have hremoved : Guarded daemonEnabled uploadingEnabled
            { (self.log (.acknowledged uploadTask.requestBody)).removeFromPersistentCache parts
                uploadTask.token with buffer := buffer } := hacknowledged.same rfl rfl id
        exact hremoved.flush.finished uploadTask.taskId .uploaded
  · split
    · exact h.finished uploadTask.taskId .cancelled
    · dsimp only
      split
      · exact h.finished uploadTask.taskId .attemptLimit
      · split
        · exact h.same rfl rfl id
        · exact h.finished uploadTask.taskId .httpStatus

/-- **Step lemma.** -/
theorem handle (h : Guarded daemonEnabled uploadingEnabled self) {event : DaemonEvent ε}
    (hevent : LeavesPermissions event) :
    Guarded daemonEnabled uploadingEnabled (ofOutcome (self.handle parts event)) := by
  cases event with
  | recordEvent event => exact h.recordEvent event
  | uploadEvents => exact h.uploadEvents gMaxsize
  | uploadTimer =>
    have hreloaded : Guarded daemonEnabled uploadingEnabled (self.getEnvironment parts) :=
      h.getEnvironment
    exact hreloaded.uploadEvents maxRequestPayload
  | canReach reachable fault =>
    have hcompleted : Guarded daemonEnabled uploadingEnabled self.checkCompleted :=
      h.same rfl rfl id
    rw [EmerDaemon.handle]
    split
    · exact h
    · exact hcompleted.handleNetworkMonitorCanReach reachable fault
  | httpResponse taskId response =>
    have hreceived : Guarded daemonEnabled uploadingEnabled (self.responseReceived taskId) :=
      h.same rfl rfl id
    rw [EmerDaemon.handle]
    split
    · exact h
    · exact hreceived.handleHttpResponse _ response
  | backoffTimer taskId fault =>
    have hover : Guarded daemonEnabled uploadingEnabled (self.backoffOver taskId) :=
      h.same rfl rfl id
    rw [EmerDaemon.handle]
    split
    · exact h
    · exact hover.handleBackoffTimer _ fault
  | setDaemonEnabled enabled => cases hevent
  | setUploadingEnabled enabled => cases hevent
  | writeConfigFileIdle saved =>
    rw [EmerDaemon.handle]
    split
    · exact h.writeConfigFileIdleCb saved
    · exact h
  | configFileEdited file => cases hevent

end Guarded

variable (parts) in
/-- A daemon over a valid config file has the permissions of the file. -/
theorem guarded_new (contents : KeyFile) (ostreeUrl : Option Text) (persistentCache : κ)
    (maxBytesBuffered : Nat) (pastEvents : List ε) :
    Guarded (daemonEnabledIn contents) (uploadingEnabledIn contents)
      (new parts (emerPermissionsProviderNew (.parsed contents) ostreeUrl) persistentCache
        maxBytesBuffered pastEvents) := by
  have hinitial : Guarded (daemonEnabledIn contents) (uploadingEnabledIn contents)
      (initial (emerPermissionsProviderNew (.parsed contents) ostreeUrl) persistentCache
        maxBytesBuffered : EmerDaemon κ ε) :=
    ⟨rfl, rfl, ⟨contents, rfl, rfl, rfl⟩, rfl, fun _ => by simp [initial]⟩
  apply Guarded.getEnvironment
  exact foldl_recordEvent_keeps (fun self event hself => hself.recordEvent event) pastEvents
    hinitial

end EmerDaemon

end EventRecorder
