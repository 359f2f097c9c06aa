import EventRecorder.Daemon.Restrained
import EventRecorder.Daemon.Wedged
import EventRecorder.Theory.Simulation

/-!
# The daemon over a plain queue

What the daemon needs of its persistent cache is a bounded list of events.  Over a cache that keeps
one in a file it does, event by event and over any number of restarts, what it does over the list
itself: the same requests, the same answers, the same end.
-/

namespace EventRecorder

open Theory

namespace EmerDaemon

variable {κ κ' ε : Type*}

/-! ## 1. Over another cache -/

/-- The daemon with another cache in the place of its own. -/
def withCache (self : EmerDaemon κ ε) (cache : κ') : EmerDaemon κ' ε where
  uploadQueue := self.uploadQueue
  currentUpload := self.currentUpload
  buffer := self.buffer
  recordingEnabled := self.recordingEnabled
  permissionsProvider := self.permissionsProvider
  persistentCache := cache
  nextTaskId := self.nextTaskId
  cancelledUploads := self.cancelledUploads
  outstandingChecks := self.outstandingChecks
  awaitingResponse := self.awaitingResponse
  awaitingBackoff := self.awaitingBackoff
  trace := self.trace

/-- The parts of a daemon over a list of events of so many bytes. -/
def onQueue (parts : DaemonParts κ ε) (capacity : Nat) : DaemonParts (List ε) ε where
  cost := parts.cost
  cache := fifoCache parts.cost capacity
  parsesPingSocket := parts.parsesPingSocket
  parsesHttpRequestUrl := parts.parsesHttpRequestUrl

/-- The cache keeps a list of events of so many bytes. -/
structure KeepsQueue (parts : DaemonParts κ ε) (Contents : κ → List ε → Prop) (capacity : Nat) :
    Prop where
  lawful : LawfulCache parts.cache Contents (numFitting parts.cost capacity)
    (tokenForEvents parts.cost)
  reads : ReadsLongestPrefix parts Contents (tokenForEvents parts.cost)

/-- The daemon over the list is the same but for its cache, which is what the other cache holds. -/
def RefinesQueue (Contents : κ → List ε → Prop) (self : EmerDaemon κ ε)
    (queued : EmerDaemon (List ε) ε) : Prop :=
  ∃ contents, Contents self.persistentCache contents ∧ queued = self.withCache contents

variable {parts : DaemonParts κ ε} {Contents : κ → List ε → Prop} {capacity : Nat}
  {self : EmerDaemon κ ε} {contents : List ε}

theorem recordEvent_withCache (self : EmerDaemon κ ε) (contents : List ε) (event : ε) :
    (self.withCache contents).recordEvent (onQueue parts capacity) event =
      (self.recordEvent parts event).withCache contents := by
  unfold recordEvent bufferEvent
  by_cases hrecording : self.recordingEnabled = true
  · have hqueued : (self.withCache contents).recordingEnabled = true := hrecording
    rw [if_pos hrecording, if_pos hqueued]
    by_cases haccepts : self.buffer.accepts parts.cost event
    · have hqueued : (self.withCache contents).buffer.accepts (onQueue parts capacity).cost event :=
        haccepts
      rw [if_pos haccepts, if_pos hqueued]
      rfl
    · have hqueued : ¬ (self.withCache contents).buffer.accepts (onQueue parts capacity).cost
          event := haccepts
      rw [if_neg haccepts, if_neg hqueued]
      rfl
  · have hqueued : ¬ (self.withCache contents).recordingEnabled = true := hrecording
    rw [if_neg hrecording, if_neg hqueued]

theorem persistentCache_recordEvent (self : EmerDaemon κ ε) (event : ε) :
    (self.recordEvent parts event).persistentCache = self.persistentCache := by
  unfold recordEvent
  split
  · rw [bufferEvent_eq]
  · rfl

theorem RefinesQueue.recordEvent {queued : EmerDaemon (List ε) ε}
    (h : RefinesQueue Contents self queued) (event : ε) :
    RefinesQueue Contents (self.recordEvent parts event)
      (queued.recordEvent (onQueue parts capacity) event) := by
  obtain ⟨contents, hcontents, rfl⟩ := h
  refine ⟨contents, ?_, recordEvent_withCache self contents event⟩
  rw [persistentCache_recordEvent]
  exact hcontents

theorem RefinesQueue.log {queued : EmerDaemon (List ε) ε} (h : RefinesQueue Contents self queued)
    (action : Action ε) : RefinesQueue Contents (self.log action) (queued.log action) := by
  obtain ⟨contents, hcontents, rfl⟩ := h
  exact ⟨contents, hcontents, rfl⟩

theorem RefinesQueue.permissionsProvider_eq {queued : EmerDaemon (List ε) ε}
    (h : RefinesQueue Contents self queued) :
    queued.permissionsProvider = self.permissionsProvider := by
  obtain ⟨contents, -, rfl⟩ := h
  rfl

theorem RefinesQueue.uploadQueue_eq {queued : EmerDaemon (List ε) ε}
    (h : RefinesQueue Contents self queued) : queued.uploadQueue = self.uploadQueue := by
  obtain ⟨contents, -, rfl⟩ := h
  rfl

/-! ## 2. What touches the cache -/

/-- What a flush does when the cache has stored some of the events. -/
theorem flushToPersistentCache_of_store {n : Nat}
    (hstore : (parts.cache.store self.persistentCache self.buffer.variantArray).1 = some n) :
    self.flushToPersistentCache parts =
      if self.recordingEnabled = true ∧ self.buffer.variantArray ≠ [] then
        { self with
          persistentCache := (parts.cache.store self.persistentCache self.buffer.variantArray).2
          buffer := (self.buffer.removeEvents parts.cost n).getD self.buffer }
      else self := by
  obtain ⟨buffer, hremove⟩ : ∃ buffer, self.buffer.removeEvents parts.cost n = some buffer :=
    EventBuffer.removeEvents_isSome (parts.cache.store_le hstore)
  unfold flushToPersistentCache EventBuffer.flushToPersistentCache
  generalize parts.cache.store self.persistentCache self.buffer.variantArray = result at hstore ⊢
  obtain ⟨answer, cache⟩ := result
  dsimp only at hstore
  subst hstore
  by_cases hrecording : self.recordingEnabled = true
  · by_cases hempty : self.buffer.variantArray = []
    · rw [if_neg (by simp [hrecording]), if_pos (by simp [hempty]), if_neg (by simp [hempty])]
    · rw [if_neg (by simp [hrecording]), if_neg (by simp [hempty]), if_pos ⟨hrecording, hempty⟩]
      simp [hremove]
  · rw [if_pos (by simp [hrecording]), if_neg (by simp [hrecording])]

namespace KeepsQueue

variable {queued : EmerDaemon (List ε) ε} (hcache : KeepsQueue parts Contents capacity)

include hcache

theorem flush (h : RefinesQueue Contents self queued) :
    RefinesQueue Contents (self.flushToPersistentCache parts)
      (queued.flushToPersistentCache (onQueue parts capacity)) := by
  obtain ⟨contents, hcontents, rfl⟩ := h
  obtain ⟨hstore, hstored⟩ := hcache.lawful.store self.buffer.variantArray hcontents
  -- both caches have room for the same events
  have hqueued : ((onQueue parts capacity).cache.store contents self.buffer.variantArray).1 =
      some (numFitting parts.cost capacity contents self.buffer.variantArray) := rfl
  rw [flushToPersistentCache_of_store hstore,
    @flushToPersistentCache_of_store _ _ (onQueue parts capacity) (self.withCache contents) _
      hqueued]
  by_cases hflushes : self.recordingEnabled = true ∧ self.buffer.variantArray ≠ []
  · have hflushes' : (self.withCache contents).recordingEnabled = true ∧
        (self.withCache contents).buffer.variantArray ≠ [] := hflushes
    rw [if_pos hflushes, if_pos hflushes']
    -- the lists stay equal because the store says how many events it took
    exact ⟨_, hstored, rfl⟩
  · have hflushes' : ¬ ((self.withCache contents).recordingEnabled = true ∧
        (self.withCache contents).buffer.variantArray ≠ []) := hflushes
    rw [if_neg hflushes, if_neg hflushes']
    exact ⟨contents, hcontents, rfl⟩

theorem withProvider (h : RefinesQueue Contents self queued) (provider : EmerPermissionsProvider)
    (notified : List ProviderProperty) :
    RefinesQueue Contents (self.withProvider parts provider notified)
      (queued.withProvider (onQueue parts capacity) provider notified) := by
  obtain ⟨contents, hcontents, rfl⟩ := h
  unfold EmerDaemon.withProvider onPermissionsChanged
  by_cases hnotified : ProviderProperty.daemonEnabled ∈ notified
  · rw [if_pos hnotified, if_pos hnotified]
    dsimp only
    by_cases henabled : provider.getDaemonEnabled = true
    · rw [if_pos henabled, if_pos henabled]
      exact ⟨contents, hcontents, rfl⟩
    · rw [if_neg henabled, if_neg henabled]
      have hempty := hcache.lawful.removeAll hcontents
      -- the upload that is cancelled is the same
      cases hcurrent : self.currentUpload with
      | none => exact ⟨[], by simpa [cancelCurrentUpload, hcurrent, log] using hempty,
          by simp [cancelCurrentUpload, withCache, hcurrent, log, onQueue, fifoCache]⟩
      | some taskId => exact ⟨[], by simpa [cancelCurrentUpload, hcurrent, log] using hempty,
          by simp [cancelCurrentUpload, withCache, hcurrent, log, onQueue, fifoCache]⟩
  · rw [if_neg hnotified, if_neg hnotified]
    exact ⟨contents, hcontents, rfl⟩

theorem createRequestBody (h : RefinesQueue Contents self queued) (uploadTask : UploadTask ε)
    (timestamps : Bool) :
    (queued.createRequestBody (onQueue parts capacity) uploadTask timestamps).1 =
        (self.createRequestBody parts uploadTask timestamps).1 ∧
      RefinesQueue Contents (self.createRequestBody parts uploadTask timestamps).2
        (queued.createRequestBody (onQueue parts capacity) uploadTask timestamps).2 := by
  obtain ⟨contents, hcontents, rfl⟩ := h
  have hread := hcache.reads _ _ uploadTask.maxUploadSize hcontents
  have hqueued : (onQueue parts capacity).cache.read contents uploadTask.maxUploadSize =
      (.ok (takeWithin parts.cost uploadTask.maxUploadSize contents, tokenForEvents parts.cost
        (takeWithin parts.cost uploadTask.maxUploadSize contents)), contents) := rfl
  -- both say alike whether there is more
  have hmore : (onQueue parts capacity).cache.hasMore contents (tokenForEvents parts.cost
        (takeWithin parts.cost uploadTask.maxUploadSize contents)) =
      parts.cache.hasMore self.persistentCache (tokenForEvents parts.cost
        (takeWithin parts.cost uploadTask.maxUploadSize contents)) := by
    obtain ⟨more, hsplit⟩ := takeWithin_isPrefix parts.cost uploadTask.maxUploadSize contents
    have hqueue := (fifoCache_lawful parts.cost capacity).hasMore hsplit.symm
    rw [← hsplit] at hcontents
    rw [Bool.eq_iff_iff]
    exact hqueue.trans (hcache.lawful.hasMore hcontents).symm
  have hadded : self.addStoredEvents parts uploadTask.maxUploadSize =
      (takeWithin parts.cost uploadTask.maxUploadSize contents, tokenForEvents parts.cost
        (takeWithin parts.cost uploadTask.maxUploadSize contents),
        !parts.cache.hasMore self.persistentCache (tokenForEvents parts.cost
          (takeWithin parts.cost uploadTask.maxUploadSize contents)), self) := by
    rw [addStoredEvents, hread]
  have hadded' : (self.withCache contents).addStoredEvents (onQueue parts capacity)
      uploadTask.maxUploadSize =
        (takeWithin parts.cost uploadTask.maxUploadSize contents, tokenForEvents parts.cost
          (takeWithin parts.cost uploadTask.maxUploadSize contents),
          !parts.cache.hasMore self.persistentCache (tokenForEvents parts.cost
            (takeWithin parts.cost uploadTask.maxUploadSize contents)),
          self.withCache contents) := by
    unfold addStoredEvents
    rw [show (self.withCache contents).persistentCache = contents from rfl, hqueued]
    dsimp only
    rw [hmore]
    rfl
  unfold EmerDaemon.createRequestBody
  rw [hadded, hadded']
  cases timestamps with
  | false => exact ⟨rfl, contents, hcontents, rfl⟩
  | true => exact ⟨rfl, contents, hcontents, rfl⟩

theorem removeFromPersistentCache (h : RefinesQueue Contents self queued) {numBytes : Nat}
    (htoken : LawfulCache.TokenOf Contents (tokenForEvents parts.cost) self.persistentCache
      numBytes) :
    RefinesQueue Contents (self.removeFromPersistentCache parts numBytes)
      (queued.removeFromPersistentCache (onQueue parts capacity) numBytes) := by
  obtain ⟨contents, hcontents, rfl⟩ := h
  obtain ⟨stored, more, hsplit, rfl⟩ := htoken
  -- the token is for the same front of the one list that the cache holds
  obtain rfl := hcache.lawful.unique hcontents hsplit
  refine ⟨more, hcache.lawful.remove hsplit, ?_⟩
  have hqueued : ((onQueue parts capacity).cache.remove (stored ++ more)
      (tokenForEvents parts.cost stored)).2 = more :=
    (fifoCache_lawful parts.cost capacity).remove rfl
  exact congrArg self.withCache hqueued

/-! ## 3. The handlers -/

theorem getServerUrl (h : RefinesQueue Contents self queued) :
    (queued.getServerUrl (onQueue parts capacity)).1 = (self.getServerUrl parts).1 ∧
      RefinesQueue Contents (self.getServerUrl parts).2
        (queued.getServerUrl (onQueue parts capacity)).2 := by
  have hprovider : queued.permissionsProvider = self.permissionsProvider := h.permissionsProvider_eq
  unfold EmerDaemon.getServerUrl
  rw [hprovider]
  exact ⟨rfl, hcache.withProvider h _ _⟩

theorem getEnvironment (h : RefinesQueue Contents self queued) :
    RefinesQueue Contents (self.getEnvironment parts)
      (queued.getEnvironment (onQueue parts capacity)) := by
  have hprovider : queued.permissionsProvider = self.permissionsProvider := h.permissionsProvider_eq
  unfold EmerDaemon.getEnvironment
  rw [hprovider]
  exact hcache.withProvider h _ _

theorem getPingSocket (h : RefinesQueue Contents self queued) :
    EndAlike (RefinesQueue Contents) (self.getPingSocket parts)
      (queued.getPingSocket (onQueue parts capacity)) := by
  obtain ⟨hurl, hnext⟩ := hcache.getServerUrl h
  unfold EmerDaemon.getPingSocket
  dsimp only
  rw [hurl]
  -- the URL is the same text, so it parses for both or ends both
  show EndAlike _ _ (if parts.parsesPingSocket _ = true then _ else _)
  split
  · exact hnext
  · exact ⟨rfl, hnext⟩

theorem getHttpRequestUrl (h : RefinesQueue Contents self queued) :
    EndAlike (RefinesQueue Contents) (self.getHttpRequestUrl parts)
      (queued.getHttpRequestUrl (onQueue parts capacity)) := by
  obtain ⟨hurl, hnext⟩ := hcache.getServerUrl h
  unfold EmerDaemon.getHttpRequestUrl
  dsimp only
  rw [hurl]
  show EndAlike _ _ (if parts.parsesHttpRequestUrl _ = true then _ else _)
  split
  · exact hnext
  · exact ⟨rfl, hnext⟩

theorem uploadPermitted (h : RefinesQueue Contents self queued) :
    (queued.uploadPermitted (onQueue parts capacity)).1 = (self.uploadPermitted parts).1 ∧
      RefinesQueue Contents (self.uploadPermitted parts).2
        (queued.uploadPermitted (onQueue parts capacity)).2 := by
  have hflush := hcache.flush h
  obtain ⟨contents, hcontents, rfl⟩ := h
  unfold EmerDaemon.uploadPermitted
  by_cases hrecording : (!self.recordingEnabled) = true
  · have hqueued : (!(self.withCache contents).recordingEnabled) = true := hrecording
    rw [if_pos hrecording, if_pos hqueued]
    exact ⟨rfl, contents, hcontents, rfl⟩
  · have hqueued : ¬ (!(self.withCache contents).recordingEnabled) = true := hrecording
    rw [if_neg hrecording, if_neg hqueued]
    by_cases huploading : (!self.permissionsProvider.getUploadingEnabled) = true
    · have hqueued : (!(self.withCache contents).permissionsProvider.getUploadingEnabled) = true :=
        huploading
      rw [if_pos huploading, if_pos hqueued]
      exact ⟨rfl, hflush⟩
    · have hqueued : ¬ (!(self.withCache contents).permissionsProvider.getUploadingEnabled) =
          true := huploading
      rw [if_neg huploading, if_neg hqueued]
      exact ⟨rfl, contents, hcontents, rfl⟩

theorem dequeueFrom (tasks : List (UploadTask ε)) (h : RefinesQueue Contents self queued) :
    EndAlike (RefinesQueue Contents) (EmerDaemon.dequeueFrom parts tasks self)
      (EmerDaemon.dequeueFrom (onQueue parts capacity) tasks queued) := by
  induction tasks generalizing self queued with
  | nil =>
    obtain ⟨hresult, hnext⟩ := hcache.uploadPermitted h
    rw [EmerDaemon.dequeueFrom, EmerDaemon.dequeueFrom]
    generalize self.uploadPermitted parts = permitted at hresult hnext ⊢
    generalize queued.uploadPermitted (onQueue parts capacity) = permitted' at hresult hnext ⊢
    obtain ⟨result, next⟩ := permitted
    obtain ⟨result', next'⟩ := permitted'
    dsimp only at hresult hnext
    subst hresult
    cases result' with
    | error e => exact hnext
    | ok done =>
      apply (hcache.getPingSocket hnext).map
      rintro s t ⟨contents, hcontents, rfl⟩
      exact ⟨contents, hcontents, rfl⟩
  | cons uploadTask rest ih =>
    obtain ⟨hresult, hnext⟩ := hcache.uploadPermitted h
    rw [EmerDaemon.dequeueFrom, EmerDaemon.dequeueFrom]
    generalize self.uploadPermitted parts = permitted at hresult hnext ⊢
    generalize queued.uploadPermitted (onQueue parts capacity) = permitted' at hresult hnext ⊢
    obtain ⟨result, next⟩ := permitted
    obtain ⟨result', next'⟩ := permitted'
    dsimp only at hresult hnext
    subst hresult
    cases result' with
    | ok done =>
      apply (hcache.getPingSocket hnext).map
      rintro s t ⟨contents, hcontents, rfl⟩
      exact ⟨contents, hcontents, rfl⟩
    -- the task is returned on both sides, and the rest of the queue goes on
    | error e =>
      have hreturned : RefinesQueue Contents
          ({ next with uploadQueue := rest }.log (.returned uploadTask.taskId e))
          ({ next' with uploadQueue := rest }.log (.returned uploadTask.taskId e)) := by
        obtain ⟨contents, hcontents, rfl⟩ := hnext
        exact ⟨contents, hcontents, rfl⟩
      cases rest with
      | nil => exact hreturned
      | cons _ _ => exact ih hreturned

theorem dequeueAndDoUpload (h : RefinesQueue Contents self queued) :
    EndAlike (RefinesQueue Contents) (self.dequeueAndDoUpload parts)
      (queued.dequeueAndDoUpload (onQueue parts capacity)) := by
  have htasks : queued.uploadQueue = self.uploadQueue := h.uploadQueue_eq
  unfold EmerDaemon.dequeueAndDoUpload
  rw [htasks]
  exact hcache.dequeueFrom self.uploadQueue h

theorem handleUploadFinished (h : RefinesQueue Contents self queued) :
    EndAlike (RefinesQueue Contents) (self.handleUploadFinished parts)
      (queued.handleUploadFinished (onQueue parts capacity)) := by
  have hdequeued := hcache.dequeueAndDoUpload h
  have htasks : queued.uploadQueue = self.uploadQueue := h.uploadQueue_eq
  unfold EmerDaemon.handleUploadFinished
  rw [htasks]
  cases self.uploadQueue with
  | nil => exact h
  | cons _ _ => exact hdequeued

theorem finishNetworkCallback (h : RefinesQueue Contents self queued) :
    EndAlike (RefinesQueue Contents) (self.finishNetworkCallback parts)
      (queued.finishNetworkCallback (onQueue parts capacity)) := by
  apply hcache.handleUploadFinished
  obtain ⟨contents, hcontents, rfl⟩ := h
  exact ⟨contents, hcontents, rfl⟩

theorem uploadEvents (h : RefinesQueue Contents self queued) (maxUploadSize : Nat) :
    EndAlike (RefinesQueue Contents) (self.uploadEvents parts maxUploadSize)
      (queued.uploadEvents (onQueue parts capacity) maxUploadSize) := by
  apply hcache.dequeueAndDoUpload
  obtain ⟨contents, hcontents, rfl⟩ := h
  exact ⟨contents, hcontents, rfl⟩

theorem queueHttpRequest (h : RefinesQueue Contents self queued) (uploadTask : UploadTask ε)
    (fault : RequestFault) :
    EndAlike (RefinesQueue Contents) (self.queueHttpRequest parts uploadTask fault)
      (queued.queueHttpRequest (onQueue parts capacity) uploadTask fault) := by
  have hentered : RefinesQueue Contents (self.entered uploadTask) (queued.entered uploadTask) := by
    obtain ⟨contents, hcontents, rfl⟩ := h
    exact ⟨contents, hcontents, rfl⟩
  have hsent : EndAlike (RefinesQueue Contents)
      (((self.entered uploadTask).getHttpRequestUrl parts).map fun self =>
        { self with awaitingResponse := self.awaitingResponse ++ [uploadTask] })
      (((queued.entered uploadTask).getHttpRequestUrl (onQueue parts capacity)).map fun self =>
        { self with awaitingResponse := self.awaitingResponse ++ [uploadTask] }) := by
    apply (hcache.getHttpRequestUrl hentered).map
    rintro s t ⟨contents, hcontents, rfl⟩
    exact ⟨contents, hcontents, rfl⟩
  cases fault with
  | none => exact hsent
  | timestamps => exact hsent
  | serialize => exact hcache.finishNetworkCallback (hentered.log _)
  | compress => exact hcache.finishNetworkCallback (hentered.log _)

theorem handleNetworkMonitorCanReach (h : RefinesQueue Contents self queued) (reachable : Bool)
    (fault : RequestFault) :
    EndAlike (RefinesQueue Contents) (self.handleNetworkMonitorCanReach parts reachable fault)
      (queued.handleNetworkMonitorCanReach (onQueue parts capacity) reachable fault) := by
  have htasks : queued.uploadQueue = self.uploadQueue := h.uploadQueue_eq
  have hcurrent : queued.currentUpload = self.currentUpload := by
    obtain ⟨contents, -, rfl⟩ := h
    rfl
  unfold EmerDaemon.handleNetworkMonitorCanReach
  rw [htasks]
  by_cases hbusy : self.currentUpload.isSome = true
  · have hbusy' : queued.currentUpload.isSome = true := by rwa [hcurrent]
    rw [if_pos hbusy, if_pos hbusy']
    exact h
  · have hbusy' : ¬ queued.currentUpload.isSome = true := by rwa [hcurrent]
    rw [if_neg hbusy, if_neg hbusy']
    cases self.uploadQueue with
    | nil =>
      cases reachable with
      | true => exact ⟨rfl, h⟩
      | false => exact hcache.handleUploadFinished (hcache.flush h)
    | cons uploadTask rest =>
      have hpopped : RefinesQueue Contents { self with uploadQueue := rest }
          { queued with uploadQueue := rest } := by
        obtain ⟨contents, hcontents, rfl⟩ := h
        exact ⟨contents, hcontents, rfl⟩
      cases reachable with
      | false => exact hcache.handleUploadFinished ((hcache.flush hpopped).log _)
      | true =>
        obtain ⟨hrequest, hbuilt⟩ := hcache.createRequestBody hpopped uploadTask
          (fault ≠ .timestamps)
        dsimp only
        rw [if_neg (by simp), if_neg (by simp)]
        generalize EmerDaemon.createRequestBody parts { self with uploadQueue := rest } uploadTask
          (decide (fault ≠ .timestamps)) = created at hrequest hbuilt ⊢
        generalize EmerDaemon.createRequestBody (onQueue parts capacity)
          { queued with uploadQueue := rest } uploadTask (decide (fault ≠ .timestamps)) = created'
          at hrequest hbuilt ⊢
        obtain ⟨request, next⟩ := created
        obtain ⟨request', next'⟩ := created'
        dsimp only at hrequest hbuilt
        subst hrequest
        cases request' with
        | none => exact hcache.handleUploadFinished (hbuilt.log _)
        | some request =>
          apply hcache.queueHttpRequest
          obtain ⟨contents, hcontents, rfl⟩ := hbuilt
          exact ⟨contents, hcontents, rfl⟩

theorem handleBackoffTimer (h : RefinesQueue Contents self queued) (uploadTask : UploadTask ε)
    (fault : RequestFault) :
    EndAlike (RefinesQueue Contents) (self.handleBackoffTimer parts uploadTask fault)
      (queued.handleBackoffTimer (onQueue parts capacity) uploadTask fault) := by
  have hsent := hcache.queueHttpRequest h uploadTask fault
  cases fault with
  | timestamps => exact hcache.finishNetworkCallback (h.log _)
  | none => exact hsent
  | serialize => exact hsent
  | compress => exact hsent

omit hcache in
theorem removeEvents (h : RefinesQueue Contents self queued) (numEvents : Nat) :
    EndAlike (RefinesQueue Contents) (self.removeEvents parts numEvents)
      (queued.removeEvents (onQueue parts capacity) numEvents) := by
  obtain ⟨contents, hcontents, rfl⟩ := h
  unfold EmerDaemon.removeEvents
  have hbuffer : (self.withCache contents).buffer.removeEvents (onQueue parts capacity).cost
      numEvents = self.buffer.removeEvents parts.cost numEvents := rfl
  rw [hbuffer]
  cases self.buffer.removeEvents parts.cost numEvents with
  | none => exact ⟨rfl, contents, hcontents, rfl⟩
  | some buffer => exact ⟨contents, hcontents, rfl⟩

/-- A response, as long as the token of an upload that is not cancelled still denotes events. -/
theorem handleHttpResponse (h : RefinesQueue Contents self queued) (uploadTask : UploadTask ε)
    (htoken : uploadTask.taskId ∉ self.cancelledUploads →
      LawfulCache.TokenOf Contents (tokenForEvents parts.cost) self.persistentCache
        uploadTask.token) (response : HttpOutcome) :
    EndAlike (RefinesQueue Contents) (self.handleHttpResponse parts uploadTask response)
      (queued.handleHttpResponse (onQueue parts capacity) uploadTask response) := by
  have hcancelled : queued.cancelledUploads = self.cancelledUploads := by
    obtain ⟨contents, -, rfl⟩ := h
    rfl
  have hfinished : ∀ result, EndAlike (RefinesQueue Contents)
      ((self.log (.returned uploadTask.taskId result)).finishNetworkCallback parts)
      ((queued.log (.returned uploadTask.taskId result)).finishNetworkCallback
        (onQueue parts capacity)) := fun result => hcache.finishNetworkCallback (h.log _)
  by_cases hlive : uploadTask.taskId ∈ self.cancelledUploads
  · have hlive' : uploadTask.taskId ∈ queued.cancelledUploads := hcancelled ▸ hlive
    cases response with
    | successful =>
      unfold EmerDaemon.handleHttpResponse
      dsimp only
      rw [if_pos hlive, if_pos hlive']
      apply hcache.finishNetworkCallback
      obtain ⟨contents, hcontents, rfl⟩ := h
      exact ⟨contents, hcontents, rfl⟩
    | retryable =>
      unfold EmerDaemon.handleHttpResponse
      dsimp only
      rw [if_pos hlive, if_pos hlive']
      exact hfinished .cancelled
    | fatal =>
      unfold EmerDaemon.handleHttpResponse
      dsimp only
      rw [if_pos hlive, if_pos hlive']
      exact hfinished .cancelled
  · have hlive' : uploadTask.taskId ∉ queued.cancelledUploads := hcancelled ▸ hlive
    cases response with
    -- the same events are removed from the cache, and as many from the buffer
    | successful =>
      have hremoved : EndAlike (RefinesQueue Contents)
          (((self.log (.acknowledged uploadTask.requestBody)).removeFromPersistentCache parts
            uploadTask.token).removeEvents parts uploadTask.numBufferEvents)
          (((queued.log (.acknowledged uploadTask.requestBody)).removeFromPersistentCache
            (onQueue parts capacity) uploadTask.token).removeEvents (onQueue parts capacity)
              uploadTask.numBufferEvents) :=
        removeEvents (hcache.removeFromPersistentCache (h.log _) (htoken hlive)) _
      unfold EmerDaemon.handleHttpResponse
      dsimp only
      rw [if_neg hlive, if_neg hlive']
      generalize EmerDaemon.removeEvents parts _ _ = removed at hremoved ⊢
      generalize EmerDaemon.removeEvents (onQueue parts capacity) _ _ = removed' at hremoved ⊢
      cases removed with
      | error abort =>
        cases removed' with
        | error abort' => exact hremoved
        | ok next' => exact hremoved.elim
      | ok next =>
        cases removed' with
        | error abort' => exact hremoved.elim
        | ok next' => exact hcache.finishNetworkCallback ((hcache.flush hremoved).log _)
    | retryable =>
      unfold EmerDaemon.handleHttpResponse
      dsimp only
      rw [if_neg hlive, if_neg hlive']
      split
      · exact hfinished .attemptLimit
      · rw [if_pos rfl, if_pos rfl]
        obtain ⟨contents, hcontents, rfl⟩ := h
        exact ⟨contents, hcontents, rfl⟩
    | fatal =>
      unfold EmerDaemon.handleHttpResponse
      dsimp only
      rw [if_neg hlive, if_neg hlive']
      split
      · exact hfinished .attemptLimit
      · exact hfinished .httpStatus

/-! ## 4. Runs -/

/-- The tokens of the uploads that wait denote events, unless the uploads are cancelled. -/
def TokensLive (Contents : κ → List ε → Prop) (cost : ε → Nat) (self : EmerDaemon κ ε) : Prop :=
  ∀ uploadTask ∈ self.waiting, uploadTask.taskId ∉ self.cancelledUploads →
    LawfulCache.TokenOf Contents (tokenForEvents cost) self.persistentCache uploadTask.token

/-- **Step lemma.** -/
theorem handle (h : RefinesQueue Contents self queued)
    (htokens : TokensLive Contents parts.cost self) (event : DaemonEvent ε) :
    EndAlike (RefinesQueue Contents) (self.handle parts event)
      (queued.handle (onQueue parts capacity) event) := by
  have hprovider : queued.permissionsProvider = self.permissionsProvider := h.permissionsProvider_eq
  cases event with
  | recordEvent event => exact h.recordEvent event
  | uploadEvents => exact hcache.uploadEvents h gMaxsize
  | uploadTimer => exact hcache.uploadEvents (hcache.getEnvironment h) maxRequestPayload
  | canReach reachable fault =>
    have hchecks : queued.outstandingChecks = self.outstandingChecks := by
      obtain ⟨contents, -, rfl⟩ := h
      rfl
    have hcompleted : RefinesQueue Contents self.checkCompleted queued.checkCompleted := by
      obtain ⟨contents, hcontents, rfl⟩ := h
      exact ⟨contents, hcontents, rfl⟩
    have hchecked := hcache.handleNetworkMonitorCanReach hcompleted reachable fault
    rw [EmerDaemon.handle, EmerDaemon.handle]
    -- an answer to a check that was never asked is no event of either
    by_cases hnone : self.outstandingChecks = 0
    · have hnone' : queued.outstandingChecks = 0 := hchecks.trans hnone
      rw [if_pos hnone, if_pos hnone']
      exact h
    · have hnone' : ¬ queued.outstandingChecks = 0 := by rwa [hchecks]
      rw [if_neg hnone, if_neg hnone']
      exact hchecked
  | httpResponse taskId response =>
    have hwaiting : queued.awaitingResponse = self.awaitingResponse := by
      obtain ⟨contents, -, rfl⟩ := h
      rfl
    have hreceived : RefinesQueue Contents (self.responseReceived taskId)
        (queued.responseReceived taskId) := by
      obtain ⟨contents, hcontents, rfl⟩ := h
      exact ⟨contents, hcontents, rfl⟩
    have hresponded := fun uploadTask htoken =>
      hcache.handleHttpResponse hreceived uploadTask htoken response
    rw [EmerDaemon.handle, EmerDaemon.handle]
    cases hfind : self.awaitingResponse.find? (·.taskId = taskId) with
    | none =>
      have hfind' : queued.awaitingResponse.find? (·.taskId = taskId) = none := by
        rw [hwaiting]
        exact hfind
      rw [hfind']
      exact h
    | some uploadTask =>
      have hfind' : queued.awaitingResponse.find? (·.taskId = taskId) = some uploadTask := by
        rw [hwaiting]
        exact hfind
      rw [hfind']
      exact hresponded uploadTask
        (htokens uploadTask (List.mem_append_left _ (List.mem_of_find?_eq_some hfind)))
  | backoffTimer taskId fault =>
    have hwaiting : queued.awaitingBackoff = self.awaitingBackoff := by
      obtain ⟨contents, -, rfl⟩ := h
      rfl
    have hover : RefinesQueue Contents (self.backoffOver taskId) (queued.backoffOver taskId) := by
      obtain ⟨contents, hcontents, rfl⟩ := h
      exact ⟨contents, hcontents, rfl⟩
    have hsent := fun uploadTask => hcache.handleBackoffTimer hover uploadTask fault
    rw [EmerDaemon.handle, EmerDaemon.handle]
    cases hfind : self.awaitingBackoff.find? (·.taskId = taskId) with
    | none =>
      have hfind' : queued.awaitingBackoff.find? (·.taskId = taskId) = none := by
        rw [hwaiting]
        exact hfind
      rw [hfind']
      exact h
    | some uploadTask =>
      have hfind' : queued.awaitingBackoff.find? (·.taskId = taskId) = some uploadTask := by
        rw [hwaiting]
        exact hfind
      rw [hfind']
      exact hsent uploadTask
  | setDaemonEnabled enabled =>
    rw [EmerDaemon.handle, EmerDaemon.handle, hprovider]
    exact hcache.withProvider h _ _
  | setUploadingEnabled enabled =>
    rw [EmerDaemon.handle, EmerDaemon.handle, hprovider]
    exact hcache.withProvider h _ _
  | writeConfigFileIdle saved =>
    rw [EmerDaemon.handle, EmerDaemon.handle, hprovider]
    split
    · obtain ⟨contents, hcontents, rfl⟩ := h
      exact ⟨contents, hcontents, rfl⟩
    · exact h
  | configFileEdited file =>
    obtain ⟨contents, hcontents, rfl⟩ := h
    exact ⟨contents, hcontents, rfl⟩

theorem new {cache : κ} {contents : List ε} (hcontents : Contents cache contents)
    (permissionsProvider : EmerPermissionsProvider) (maxBytesBuffered : Nat)
    (pastEvents : List ε) :
    RefinesQueue Contents
      (EmerDaemon.new parts permissionsProvider cache maxBytesBuffered pastEvents)
      (EmerDaemon.new (onQueue parts capacity) permissionsProvider contents maxBytesBuffered
        pastEvents) := by
  apply hcache.getEnvironment
  -- induction on the events that were recorded before the daemon had its name
  have hfold : ∀ (events : List ε) (self : EmerDaemon κ ε) (queued : EmerDaemon (List ε) ε),
      RefinesQueue Contents self queued →
      RefinesQueue Contents
        (events.foldl (fun self event => self.recordEvent parts event) self)
        (events.foldl (fun self event => self.recordEvent (onQueue parts capacity) event)
          queued) := by
    intro events
    induction events with
    | nil => exact fun _ _ h => h
    | cons event events ih => exact fun _ _ h => ih _ _ (h.recordEvent event)
  exact hfold pastEvents _ _ ⟨contents, hcontents, rfl⟩

/-- The state between two events, with what it takes for the tokens to be live. -/
def Related (parts : DaemonParts κ ε) (Contents : κ → List ε → Prop) (outcome : Outcome κ ε)
    (queued : Outcome (List ε) ε) : Prop :=
  EndAlike (RefinesQueue Contents) outcome queued ∧
    InFlight (Restrained parts.cost Contents (tokenForEvents parts.cost) 0 True False)
      (ofOutcome outcome)

omit hcache in
theorem tokensLive_of_inFlight
    (h : InFlight (Restrained parts.cost Contents (tokenForEvents parts.cost) 0 True False) self) :
    TokensLive Contents parts.cost self := by
  obtain ⟨upload, hupload, hself⟩ := h
  intro uploadTask hmem
  rw [hupload, Option.mem_toList] at hmem
  exact hself.live uploadTask hmem

theorem related_new {cache : κ} {contents : List ε} (hcontents : Contents cache contents)
    (permissionsProvider : EmerPermissionsProvider) (maxBytesBuffered : Nat)
    (pastEvents : List ε) :
    Related parts Contents
      (.ok (EmerDaemon.new parts permissionsProvider cache maxBytesBuffered pastEvents))
      (.ok (EmerDaemon.new (onQueue parts capacity) permissionsProvider contents maxBytesBuffered
        pastEvents)) := by
  refine ⟨hcache.new hcontents permissionsProvider maxBytesBuffered pastEvents, ?_⟩
  apply (restrained_uploadInvariant 0 True False hcache.lawful).inFlight_new
  exact ⟨rfl, ⟨contents, hcontents⟩, False.elim, by simp, by simp, Nat.zero_le _,
    fun _ => .inl trivial⟩

theorem related_step {outcome : Outcome κ ε} {queued : Outcome (List ε) ε}
    (h : Related parts Contents outcome queued) (event : DaemonEvent ε) :
    Related parts Contents (step parts outcome event)
      (step (onQueue parts capacity) queued event) := by
  obtain ⟨halike, hflight⟩ := h
  cases outcome with
  | error abort =>
    cases queued with
    | error abort' => exact ⟨halike, hflight⟩
    | ok queued => exact halike.elim
  | ok self =>
    cases queued with
    | error abort' => exact halike.elim
    | ok queued =>
      refine ⟨hcache.handle halike (tokensLive_of_inFlight hflight) event, ?_⟩
      exact (restrained_uploadInvariant 0 True False hcache.lawful).handled
        (handle_handled parts self event) hflight trivial

end KeepsQueue

/-! ## 5. The real cache, over restarts -/

/-- The daemon over a list, and how many bytes of events the list may have. -/
structure QueueLife (ε : Type*) where
  capacity : Nat
  outcome : Outcome (List ε) ε

/-- The list that a daemon leaves when it ends. -/
def closedQueue {ε : Type*} (parts : DaemonParts (List ε) ε) (finalized : Bool) :
    Outcome (List ε) ε → List ε
  | .ok self =>
    if finalized then (self.flushToPersistentCache parts).persistentCache else self.persistentCache
  | .error (_, self) => self.persistentCache

/-- A restart keeps the events at the front that there is room for. -/
def queueLifeStep {ε : Type*} (parts : DaemonParts κ ε) (life : QueueLife ε) :
    LifeEvent ε → QueueLife ε
  | .daemon event => { life with outcome := step (onQueue parts life.capacity) life.outcome event }
  | .restart next =>
    let closed := closedQueue (onQueue parts life.capacity) next.finalized life.outcome
    let kept := if next.discarded then []
      else takeWithin (elemBytes parts.cost) next.cacheSize closed
    { capacity := next.cacheSize
      outcome := .ok (new (onQueue parts next.cacheSize) next.permissionsProvider kept
        next.maxBytesBuffered next.pastEvents) }

section Lives

open EmerPersistentCache

variable {glib : VariantLibrary} {order : ByteOrder}
  {parsesPingSocket parsesHttpRequestUrl : Text → Bool}

theorem appendAll_map_fst {α β : Type*} (weight : α → Nat) (capacity : Nat) (f : β → α)
    (saved unsaved bs : List β) :
    ((⟨saved.map f, unsaved.map f⟩ : Fifo α).appendAll weight capacity (bs.map f)).1 =
      ((⟨saved, unsaved⟩ : Fifo β).appendAll (weight ∘ f) capacity bs).1 := by
  induction bs generalizing unsaved with
  | nil => rfl
  | cons b bs ih =>
    have hoccupied : (⟨saved.map f, unsaved.map f⟩ : Fifo α).occupied weight =
        (⟨saved, unsaved⟩ : Fifo β).occupied (weight ∘ f) := by
      simp [Fifo.occupied]
    rw [List.map_cons, Fifo.appendAll, Fifo.appendAll, Fifo.append, Fifo.append, hoccupied]
    by_cases hfits : (⟨saved, unsaved⟩ : Fifo β).occupied (weight ∘ f) + weight (f b) ≤ capacity
    · rw [if_pos hfits, if_pos (show _ + (weight ∘ f) b ≤ capacity from hfits)]
      have hrest := ih (unsaved ++ [b])
      rw [List.map_append] at hrest
      exact congrArg (· + 1) hrest
    · rw [if_neg hfits, if_neg (show ¬ _ + (weight ∘ f) b ≤ capacity from hfits)]

theorem frameLength_comp_elem (hswap : glib.SwapKeepsSize) :
    (frameLength ∘ StorableVariant.elem : StorableVariant glib order → Nat) =
      elemBytes fun event => emerPersistentCacheCost event.variant := by
  funext event
  show 8 + event.elem.length = sizeofElemSize + emerPersistentCacheCost event.variant
  rw [event.length_elem hswap]
  rfl

/-- The persistent cache keeps a queue in its circular file. -/
theorem storingParts_keepsQueue (hswap : glib.SwapKeepsSize) {capacity : Nat}
    (hcapacity : capacity < 2 ^ 63) :
    KeepsQueue (storingParts glib order parsesPingSocket parsesHttpRequestUrl)
      (SyncedContents capacity) capacity := by
  have htoken : @tokenFor glib order = tokenForEvents
      (storingParts glib order parsesPingSocket parsesHttpRequestUrl).cost := by
    funext events
    rw [tokenFor, length_encode, List.map_map, frameLength_comp_elem hswap]
    rfl
  have hfits : @numFittingElems glib order capacity = numFitting
      (storingParts glib order parsesPingSocket parsesHttpRequestUrl).cost capacity := by
    funext contents events
    have hmap := appendAll_map_fst frameLength capacity
      (StorableVariant.elem : StorableVariant glib order → Bytes) contents [] events
    rw [frameLength_comp_elem hswap] at hmap
    exact hmap
  have hlawful := @lawful_synced glib order capacity hcapacity
  have hreads := @storingParts_readsLongestPrefix glib order parsesPingSocket parsesHttpRequestUrl
    hswap capacity
  rw [htoken] at hlawful hreads
  rw [hfits] at hlawful
  exact ⟨hlawful, hreads⟩

/-- What a daemon leaves in its cache is what the other leaves in its list. -/
theorem closedCache_contents (hswap : glib.SwapKeepsSize) {capacity : Nat}
    (hcapacity : capacity < 2 ^ 63)
    {outcome : Outcome EmerPersistentCache (StorableVariant glib order)}
    {queued : Outcome (List (StorableVariant glib order)) (StorableVariant glib order)}
    (h : EndAlike (RefinesQueue (SyncedContents capacity)) outcome queued) (finalized : Bool) :
    SyncedContents capacity
      (closedCache (storingParts glib order parsesPingSocket parsesHttpRequestUrl) finalized
        outcome)
      (closedQueue (onQueue (storingParts glib order parsesPingSocket parsesHttpRequestUrl)
        capacity) finalized queued) := by
  have hcache := @storingParts_keepsQueue glib order parsesPingSocket parsesHttpRequestUrl hswap
    capacity hcapacity
  cases outcome with
  | error abort =>
    cases queued with
    | error abort' =>
      obtain ⟨-, contents, hcontents, hsame⟩ := h
      show SyncedContents capacity abort.2.persistentCache abort'.2.persistentCache
      rw [hsame]
      exact hcontents
    | ok queued => exact h.elim
  | ok self =>
    cases queued with
    | error abort' => exact h.elim
    | ok queued =>
      cases finalized with
      | false =>
        obtain ⟨contents, hcontents, rfl⟩ := h
        exact hcontents
      | true =>
        obtain ⟨contents, hcontents, hsame⟩ := hcache.flush h
        show SyncedContents capacity (self.flushToPersistentCache _).persistentCache
          (queued.flushToPersistentCache _).persistentCache
        rw [hsame]
        exact hcontents

/-- The daemon over its persistent cache is where the one over a list is. -/
def SameLife (life : Option (Outcome EmerPersistentCache (StorableVariant glib order)))
    (queued : QueueLife (StorableVariant glib order)) : Prop :=
  ∃ reached, life = some reached ∧
    EndAlike (RefinesQueue (SyncedContents queued.capacity)) reached queued.outcome

/-- What a life keeps, over a cache of a size that an offset can have. -/
def LivesRelated (parts : DaemonParts EmerPersistentCache (StorableVariant glib order))
    (life : Option (Outcome EmerPersistentCache (StorableVariant glib order)))
    (queued : QueueLife (StorableVariant glib order)) : Prop :=
  ∃ reached, life = some reached ∧ queued.capacity < 2 ^ 63 ∧
    KeepsQueue.Related parts (SyncedContents queued.capacity) reached queued.outcome

/-- **Step lemma.** -/
theorem LivesRelated.step (hswap : glib.SwapKeepsSize) (uninitialised : Nat → UInt8)
    {life : Option (Outcome EmerPersistentCache (StorableVariant glib order))}
    {queued : QueueLife (StorableVariant glib order)}
    (h : LivesRelated (storingParts glib order parsesPingSocket parsesHttpRequestUrl) life queued)
    {event : LifeEvent (StorableVariant glib order)} (hadmissible : event.Admissible) :
    LivesRelated (storingParts glib order parsesPingSocket parsesHttpRequestUrl)
      (lifeStep (storingParts glib order parsesPingSocket parsesHttpRequestUrl) uninitialised life
        event)
      (queueLifeStep (storingParts glib order parsesPingSocket parsesHttpRequestUrl) queued
        event) := by
  obtain ⟨reached, rfl, hcapacity, hrelated⟩ := h
  cases event with
  | daemon event =>
    have hcache := @storingParts_keepsQueue glib order parsesPingSocket parsesHttpRequestUrl hswap
      queued.capacity hcapacity
    exact ⟨_, rfl, hcapacity, hcache.related_step hrelated event⟩
  | restart next =>
    obtain ⟨hpos, hsize, -⟩ := hadmissible
    have hclosed := @closedCache_contents glib order parsesPingSocket parsesHttpRequestUrl hswap _
      hcapacity reached queued.outcome hrelated.1 next.finalized
    obtain ⟨opened, hopened, hkept⟩ :=
      hclosed.reopen_exactly hpos hsize uninitialised next.discarded
    -- what the file keeps at this size is what the list keeps
    rw [frameLength_comp_elem hswap] at hkept
    refine ⟨_, ?_, hsize, (storingParts_keepsQueue hswap hsize).related_new hkept
      next.permissionsProvider next.maxBytesBuffered next.pastEvents⟩
    show restarted _ uninitialised reached next = _
    unfold restarted
    rw [hopened]

/-- **The daemon refines a daemon over a list.**  Through any recording, uploading, configuring and
restarting the two send the same requests, return the same results, end for the same reasons, and
what is in the circular file is what is in the list. -/
theorem daemon_refines_queue (hswap : glib.SwapKeepsSize) (uninitialised : Nat → UInt8)
    {capacity : Nat} (hcapacity : capacity < 2 ^ 63) {cache : EmerPersistentCache}
    {contents : List (StorableVariant glib order)}
    (hcontents : SyncedContents capacity cache contents)
    (permissionsProvider : EmerPermissionsProvider) (maxBytesBuffered : Nat)
    (pastEvents : List (StorableVariant glib order))
    {events : List (LifeEvent (StorableVariant glib order))}
    (hevents : ∀ event ∈ events, event.Admissible)
    {pre : List (LifeEvent (StorableVariant glib order))} (hpre : pre <+: events) :
    SameLife
      (run (lifeStep (storingParts glib order parsesPingSocket parsesHttpRequestUrl) uninitialised)
        (some (.ok (new (storingParts glib order parsesPingSocket parsesHttpRequestUrl)
          permissionsProvider cache maxBytesBuffered pastEvents))) pre)
      (run (queueLifeStep (storingParts glib order parsesPingSocket parsesHttpRequestUrl))
        ⟨capacity, .ok (new
          (onQueue (storingParts glib order parsesPingSocket parsesHttpRequestUrl) capacity)
          permissionsProvider contents maxBytesBuffered pastEvents)⟩ pre) := by
  have hstart : LivesRelated (storingParts glib order parsesPingSocket parsesHttpRequestUrl)
      (some (.ok (new (storingParts glib order parsesPingSocket parsesHttpRequestUrl)
        permissionsProvider cache maxBytesBuffered pastEvents)))
      ⟨capacity, .ok (new
        (onQueue (storingParts glib order parsesPingSocket parsesHttpRequestUrl) capacity)
        permissionsProvider contents maxBytesBuffered pastEvents)⟩ :=
    ⟨_, rfl, hcapacity, (storingParts_keepsQueue hswap hcapacity).related_new hcontents
      permissionsProvider maxBytesBuffered pastEvents⟩
  have hok : EachStep
      (lifeStep (storingParts glib order parsesPingSocket parsesHttpRequestUrl) uninitialised)
      (fun _ event => event.Admissible)
      (some (.ok (new (storingParts glib order parsesPingSocket parsesHttpRequestUrl)
        permissionsProvider cache maxBytesBuffered pastEvents))) events :=
    fun front event hfront => hevents event (hfront.subset (by simp))
  have hstep : ∀ life queued (event : LifeEvent (StorableVariant glib order)),
      LivesRelated (storingParts glib order parsesPingSocket parsesHttpRequestUrl) life queued →
      event.Admissible →
      LivesRelated (storingParts glib order parsesPingSocket parsesHttpRequestUrl)
        (lifeStep (storingParts glib order parsesPingSocket parsesHttpRequestUrl) uninitialised
          life event)
        (queueLifeStep (storingParts glib order parsesPingSocket parsesHttpRequestUrl) queued
          event) := fun _ _ _ h hadmissible => h.step hswap uninitialised hadmissible
  obtain ⟨reached, hsome, -, halike, -⟩ := related_throughout hstep hstart hok hpre
  exact ⟨reached, hsome, halike⟩

end Lives

/-- The daemon over the small cache does what it does over an empty list of 256 bytes. -/
theorem daemon_refines_queue_restartedRun :
    SameLife
      (run (lifeStep (storingParts eventVariants .little (fun _ => true) fun _ => true) fun _ => 0)
        (some (.ok (new (storingParts eventVariants .little (fun _ => true) fun _ => true)
          (emerPermissionsProviderNew (.parsed sampleConfigFile) none) smallSyncedCache 100000 [])))
        restartedRun)
      (run (queueLifeStep (storingParts eventVariants .little (fun _ => true) fun _ => true))
        ⟨256, .ok (new (onQueue
          (storingParts eventVariants .little (fun _ => true) fun _ => true) 256)
          (emerPermissionsProviderNew (.parsed sampleConfigFile) none) [] 100000 [])⟩
        restartedRun) :=
  daemon_refines_queue eventVariants_lawful.swapKeepsSize (fun _ => 0) (by decide)
    smallSyncedCache_empty (emerPermissionsProviderNew (.parsed sampleConfigFile) none) 100000 []
    (by decide) List.prefix_rfl

end EmerDaemon

end EventRecorder
