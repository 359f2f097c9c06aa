import EventRecorder.CircularFile.Basic
import EventRecorder.Daemon.EventBuffer
import EventRecorder.Permissions.Provider
import EventRecorder.Theory.Fifo

/-!
# The upload state machine of the daemon

Requests for an upload wait in a queue.  The head of the queue is taken when a reachability check
completes, and its events are sent until the server accepts them or the attempts run out.  One
callback of the main loop is one event of the machine; the asynchronous operations that are under
way are part of its state.  What the persistent cache does is a parameter.
-/

namespace EventRecorder

open Theory

def networkAttemptLimit : Nat := 8
def gMaxsize : Nat := 2 ^ 64 - 1

/-- The functions of the persistent cache that the daemon calls.  `store` answers the number of
events stored, or nothing when it fails; `read` answers the events and their token. -/
structure PersistentCacheOps (κ ε : Type*) where
  store : κ → List ε → Option Nat × κ
  store_le : ∀ {cache : κ} {events : List ε} {n : Nat},
    (store cache events).1 = some n → n ≤ events.length
  read : κ → Nat → Except GError (List ε × Nat) × κ
  hasMore : κ → Nat → Bool
  remove : κ → Nat → Except GError Unit × κ
  removeAll : κ → Except GError Unit × κ

/-- What the daemon is built from.  The two predicates say which server URLs can be parsed, for the
reachability check and for a request. -/
structure DaemonParts (κ ε : Type*) where
  cost : ε → Nat
  cache : PersistentCacheOps κ ε
  parsesPingSocket : Text → Bool
  parsesHttpRequestUrl : Text → Bool

/-- A `GTask` with its `NetworkCallbackData`.  The number stands for its cancellable as well. -/
structure UploadTask (ε : Type*) where
  taskId : Nat
  maxUploadSize : Nat
  requestBody : List ε
  token : Nat
  numStoredEvents : Nat
  numBufferEvents : Nat
  attemptNum : Nat
  deriving DecidableEq, Repr

/-- What a task returns. -/
inductive UploadResult where
  | uploaded
  | metricsDisabled
  | uploadingDisabled
  | unreachable
  | noTimestamps
  | notSerialized
  | notCompressed
  | cancelled
  | attemptLimit
  | httpStatus
  deriving DecidableEq, Repr

/-- What happens on the way from recording to the server, in order. -/
inductive Action (ε : Type*) where
  /-- `buffer_event` keeps an event. -/
  | accepted (event : ε)
  /-- `on_permissions_changed` runs with daemon-enabled `FALSE`. -/
  | optedOut
  /-- `queue_http_request` is entered. -/
  | queueHttpRequest (taskId : Nat) (body : List ε) (recordingEnabled uploadingEnabled : Bool)
  /-- The server has accepted the events of an upload that was not cancelled. -/
  | acknowledged (body : List ε)
  | returned (taskId : Nat) (result : UploadResult)
  deriving DecidableEq, Repr

/-- What ends the process. -/
inductive Abort where
  /-- `remove_events` goes past the end of the buffer. -/
  | removedPastEnd
  /-- The data of a `NULL` task is read. -/
  | nullUploadTask
  /-- `g_error`: the server URL cannot be parsed. -/
  | invalidServerUrl
  deriving DecidableEq, Repr

/-- What goes wrong while a request is put together or sent, if anything. -/
inductive RequestFault where
  | none
  | timestamps
  | serialize
  | compress
  deriving DecidableEq, Repr

inductive HttpOutcome where
  | successful
  | retryable
  | fatal
  deriving DecidableEq, Repr

structure EmerDaemon (κ ε : Type*) where
  uploadQueue : List (UploadTask ε)
  /-- The task whose cancellable is `current_upload_cancellable`. -/
  currentUpload : Option Nat
  buffer : EventBuffer ε
  recordingEnabled : Bool
  permissionsProvider : EmerPermissionsProvider
  persistentCache : κ
  nextTaskId : Nat
  cancelledUploads : List Nat
  outstandingChecks : Nat
  awaitingResponse : List (UploadTask ε)
  awaitingBackoff : List (UploadTask ε)
  trace : List (Action ε)

/-- A daemon that goes on, or the state in which it was aborted. -/
abbrev Outcome (κ ε : Type*) := Except (Abort × EmerDaemon κ ε) (EmerDaemon κ ε)

namespace EmerDaemon

variable {κ ε : Type*} (parts : DaemonParts κ ε) (self : EmerDaemon κ ε)

def log (action : Action ε) : EmerDaemon κ ε :=
  { self with trace := self.trace ++ [action] }

/-! ## 1. Buffer, cache and permissions -/

def bufferEvent (event : ε) : EmerDaemon κ ε :=
  let buffered := { self with buffer := self.buffer.bufferEvent parts.cost event }
  if self.buffer.accepts parts.cost event then buffered.log (.accepted event) else buffered

/-- `emer_daemon_record_singular_event` and `emer_daemon_enqueue_aggregate_event`, for an event with
a valid UUID whose timestamp could be corrected. -/
def recordEvent (event : ε) : EmerDaemon κ ε :=
  if self.recordingEnabled then self.bufferEvent parts event else self

def flushToPersistentCache : EmerDaemon κ ε :=
  match self.buffer.flushToPersistentCache parts.cost parts.cache.store self.recordingEnabled
      self.persistentCache with
  | some (cache, buffer) => { self with persistentCache := cache, buffer := buffer }
  -- does not occur: the cache stores no more events than it is given
  | none => self

/-- A failure is only warned about. -/
def removeFromPersistentCache (token : Nat) : EmerDaemon κ ε :=
  { self with persistentCache := (parts.cache.remove self.persistentCache token).2 }

def removeEvents (numEvents : Nat) : Outcome κ ε :=
  match self.buffer.removeEvents parts.cost numEvents with
  | some buffer => .ok { self with buffer := buffer }
  | none => .error (.removedPastEnd, self)

/-- `g_cancellable_cancel` of the current upload, if there is one. -/
def cancelCurrentUpload : EmerDaemon κ ε :=
  match self.currentUpload with
  | none => self
  | some taskId => { self with cancelledUploads := taskId :: self.cancelledUploads }

/-- The aggregate timers and the tally are cleared here as well. -/
def onPermissionsChanged : EmerDaemon κ ε :=
  if self.permissionsProvider.getDaemonEnabled then { self with recordingEnabled := true }
  else
    let discarded : EmerDaemon κ ε :=
      { self with
        recordingEnabled := false
        buffer := (self.buffer.removeEvents parts.cost self.buffer.variantArray.length).getD
          self.buffer
        -- a failure is only warned about
        persistentCache := (parts.cache.removeAll self.persistentCache).2 }
    discarded.cancelCurrentUpload.log .optedOut

/-- Take over what an operation did to the provider, and handle its notifications. -/
def withProvider (provider : EmerPermissionsProvider) (notified : List ProviderProperty) :
    EmerDaemon κ ε :=
  let updated := { self with permissionsProvider := provider }
  if .daemonEnabled ∈ notified then updated.onPermissionsChanged parts else updated

def getEnvironment : EmerDaemon κ ε :=
  let (_, provider, notified) := self.permissionsProvider.getEnvironment
  self.withProvider parts provider notified

def getServerUrl : Text × EmerDaemon κ ε :=
  let (serverUrl, provider, notified) := self.permissionsProvider.getServerUrl
  (serverUrl, self.withProvider parts provider notified)

def getPingSocket : Outcome κ ε :=
  let (serverUrl, self) := self.getServerUrl parts
  if parts.parsesPingSocket serverUrl then .ok self else .error (.invalidServerUrl, self)

def getHttpRequestUrl : Outcome κ ε :=
  let (serverUrl, self) := self.getServerUrl parts
  if parts.parsesHttpRequestUrl serverUrl then .ok self else .error (.invalidServerUrl, self)

/-! ## 2. The queue -/

def uploadPermitted : Except UploadResult Unit × EmerDaemon κ ε :=
  if !self.recordingEnabled then (.error .metricsDisabled, self)
  else if !self.permissionsProvider.getUploadingEnabled then
    -- the events wait in the cache until uploading is switched on again
    (.error .uploadingDisabled, self.flushToPersistentCache parts)
  else (.ok (), self)

/-- `dequeue_and_do_upload` on a queue.  A task that is not permitted is returned, and the signal
that follows comes back here for the rest of the queue. -/
def dequeueFrom : List (UploadTask ε) → EmerDaemon κ ε → Outcome κ ε
  | queue, self =>
    match self.uploadPermitted parts with
    | (.ok (), self) =>
      (self.getPingSocket parts).map fun self =>
        { self with outstandingChecks := self.outstandingChecks + 1 }
    | (.error result, self) =>
      match queue with
      -- returning and releasing a `NULL` task is only warned about
      | [] => .ok self
      | uploadTask :: rest =>
        let returned :=
          { self with uploadQueue := rest }.log (.returned uploadTask.taskId result)
        match rest with
        | [] => .ok returned
        | next :: tasks => dequeueFrom (next :: tasks) returned

def dequeueAndDoUpload : Outcome κ ε :=
  dequeueFrom parts self.uploadQueue self

def handleUploadFinished : Outcome κ ε :=
  match self.uploadQueue with
  | [] => .ok self
  | _ :: _ => self.dequeueAndDoUpload parts

def finishNetworkCallback : Outcome κ ε :=
  { self with currentUpload := none }.handleUploadFinished parts

def uploadEvents (maxUploadSize : Nat) : Outcome κ ε :=
  let uploadTask : UploadTask ε :=
    -- the other fields are filled in when the task is dequeued
    { taskId := self.nextTaskId, maxUploadSize := maxUploadSize, requestBody := [], token := 0,
      numStoredEvents := 0, numBufferEvents := 0, attemptNum := 0 }
  { self with
    uploadQueue := self.uploadQueue ++ [uploadTask]
    nextTaskId := self.nextTaskId + 1 }.dequeueAndDoUpload parts

def handleUploadTimer : Outcome κ ε :=
  (self.getEnvironment parts).uploadEvents parts maxRequestPayload

/-! ## 3. Requests -/

/-- The events taken from the cache and their token, and whether to add events from the buffer. -/
def addStoredEvents (maxBytes : Nat) : List ε × Nat × Bool × EmerDaemon κ ε :=
  match parts.cache.read self.persistentCache maxBytes with
  | (.error error, cache) =>
    match error with
    -- corrupt data: everything is cleared
    | .invalidData _ =>
      ([], 0, true, { self with persistentCache := (parts.cache.removeAll cache).2 })
    | _ => ([], 0, true, { self with persistentCache := cache })
  | (.ok (variants, token), cache) =>
    (variants, token, !parts.cache.hasMore cache token, { self with persistentCache := cache })

/-- `create_request_body`, with the fields of the task that describe the body.  `timestamps` says
whether the time could be read. -/
def createRequestBody (uploadTask : UploadTask ε) (timestamps : Bool) :
    Option (UploadTask ε) × EmerDaemon κ ε :=
  let (stored, token, addFromBuffer, self) := self.addStoredEvents parts uploadTask.maxUploadSize
  let numBytesRead := (stored.map parts.cost).sum
  let spaceRemaining := (uploadTask.maxUploadSize + (2 ^ 64 - numBytesRead % 2 ^ 64)) % 2 ^ 64
  let buffered :=
    if addFromBuffer then takeWithin parts.cost spaceRemaining self.buffer.variantArray else []
  if timestamps then
    -- the body has the stored events first; nothing is removed before the server has answered
    (some { uploadTask with
      requestBody := stored ++ buffered, token := token, numStoredEvents := stored.length,
      numBufferEvents := buffered.length, attemptNum := 0 }, self)
  else (none, self)

def queueHttpRequest (uploadTask : UploadTask ε) (fault : RequestFault) : Outcome κ ε :=
  let entered := self.log (.queueHttpRequest uploadTask.taskId uploadTask.requestBody
    self.recordingEnabled self.permissionsProvider.getUploadingEnabled)
  match fault with
  | .serialize =>
    (entered.log (.returned uploadTask.taskId .notSerialized)).finishNetworkCallback parts
  | .compress =>
    (entered.log (.returned uploadTask.taskId .notCompressed)).finishNetworkCallback parts
  | _ =>
    -- getting the URL may read the config file again, which may opt out before the request leaves
    (entered.getHttpRequestUrl parts).map fun self =>
      { self with awaitingResponse := self.awaitingResponse ++ [uploadTask] }

def handleNetworkMonitorCanReach (reachable : Bool) (fault : RequestFault) : Outcome κ ε :=
  -- the end of the upload under way starts another check for the tasks left
  if self.currentUpload.isSome then .ok self
  else
    match self.uploadQueue with
    | [] =>
      -- the popped task is `NULL`: returning it is only warned about, reading its data is not
      if reachable then .error (.nullUploadTask, self)
      else (self.flushToPersistentCache parts).handleUploadFinished parts
    | uploadTask :: rest =>
      let popped := { self with uploadQueue := rest }
      if !reachable then
        ((popped.flushToPersistentCache parts).log
          (.returned uploadTask.taskId .unreachable)).handleUploadFinished parts
      else
        match popped.createRequestBody parts uploadTask (fault ≠ .timestamps) with
        | (none, self) =>
          (self.log (.returned uploadTask.taskId .noTimestamps)).handleUploadFinished parts
        | (some uploadTask, self) =>
          { self with currentUpload := some uploadTask.taskId }.queueHttpRequest parts uploadTask
            fault

/-- The cancellable is not looked at. -/
def handleBackoffTimer (uploadTask : UploadTask ε) (fault : RequestFault) : Outcome κ ε :=
  match fault with
  | .timestamps =>
    (self.log (.returned uploadTask.taskId .noTimestamps)).finishNetworkCallback parts
  | fault => self.queueHttpRequest parts uploadTask fault

def handleHttpResponse (uploadTask : UploadTask ε) (outcome : HttpOutcome) : Outcome κ ε :=
  match outcome with
  | .successful =>
    if uploadTask.taskId ∈ self.cancelledUploads then
      -- `g_cancellable_reset`
      let reset :=
        { self with cancelledUploads := self.cancelledUploads.filter (· ≠ uploadTask.taskId) }
      (reset.log (.returned uploadTask.taskId .uploaded)).finishNetworkCallback parts
    else
      -- the token and the count say what to remove, whatever has moved since the request
      let acknowledged := self.log (.acknowledged uploadTask.requestBody)
      match (acknowledged.removeFromPersistentCache parts uploadTask.token).removeEvents parts
          uploadTask.numBufferEvents with
      | .error abort => .error abort
      | .ok self =>
        ((self.flushToPersistentCache parts).log
          (.returned uploadTask.taskId .uploaded)).finishNetworkCallback parts
  | failed =>
    if uploadTask.taskId ∈ self.cancelledUploads then
      (self.log (.returned uploadTask.taskId .cancelled)).finishNetworkCallback parts
    else
      let uploadTask := { uploadTask with attemptNum := uploadTask.attemptNum + 1 }
      if uploadTask.attemptNum ≥ networkAttemptLimit then
        (self.log (.returned uploadTask.taskId .attemptLimit)).finishNetworkCallback parts
      else if failed = .retryable then
        -- client and server errors are tried again, with the upload still the current one
        .ok { self with awaitingBackoff := self.awaitingBackoff ++ [uploadTask] }
      else (self.log (.returned uploadTask.taskId .httpStatus)).finishNetworkCallback parts

end EmerDaemon

/-! ## 4. The machine -/

inductive DaemonEvent (ε : Type*) where
  | recordEvent (event : ε)
  | uploadEvents
  | uploadTimer
  | canReach (reachable : Bool) (fault : RequestFault)
  | httpResponse (taskId : Nat) (outcome : HttpOutcome)
  | backoffTimer (taskId : Nat) (fault : RequestFault)
  | setDaemonEnabled (enabled : Bool)
  | setUploadingEnabled (enabled : Bool)
  | writeConfigFileIdle (saved : Bool)
  | configFileEdited (file : KeyFileOnDisk)

namespace EmerDaemon

variable {κ ε : Type*} (parts : DaemonParts κ ε)

/-- Handle one event.  The completion of an operation that is not under way is not delivered. -/
def handle (self : EmerDaemon κ ε) : DaemonEvent ε → Outcome κ ε
  | .recordEvent event => .ok (self.recordEvent parts event)
  | .uploadEvents => self.uploadEvents parts gMaxsize
  | .uploadTimer => self.handleUploadTimer parts
  | .canReach reachable fault =>
    if self.outstandingChecks = 0 then .ok self
    else
      { self with outstandingChecks := self.outstandingChecks - 1 }.handleNetworkMonitorCanReach
        parts reachable fault
  | .httpResponse taskId outcome =>
    match self.awaitingResponse.find? (·.taskId = taskId) with
    | none => .ok self
    | some uploadTask =>
      { self with
        awaitingResponse :=
          self.awaitingResponse.filter (·.taskId ≠ taskId) }.handleHttpResponse parts uploadTask
        outcome
  | .backoffTimer taskId fault =>
    match self.awaitingBackoff.find? (·.taskId = taskId) with
    | none => .ok self
    | some uploadTask =>
      { self with
        awaitingBackoff := self.awaitingBackoff.filter (·.taskId ≠ taskId) }.handleBackoffTimer
        parts uploadTask fault
  | .setDaemonEnabled enabled =>
    let (provider, notified) := self.permissionsProvider.setDaemonEnabled enabled
    .ok (self.withProvider parts provider notified)
  | .setUploadingEnabled enabled =>
    let (provider, notified) := self.permissionsProvider.setUploadingEnabled enabled
    .ok (self.withProvider parts provider notified)
  | .writeConfigFileIdle saved =>
    if self.permissionsProvider.writeConfigFileIdle then
      .ok { self with
        permissionsProvider := self.permissionsProvider.writeConfigFileIdleCb saved }
    else .ok self
  | .configFileEdited file =>
    .ok { self with
      permissionsProvider := { self.permissionsProvider with permissionsConfigFile := file } }

/-- A daemon before anything has happened to it. -/
def initial (permissionsProvider : EmerPermissionsProvider) (persistentCache : κ)
    (maxBytesBuffered : Nat) : EmerDaemon κ ε where
  uploadQueue := []
  currentUpload := none
  buffer :=
    { variantArray := [], numBytesBuffered := 0, maxBytesBuffered := maxBytesBuffered,
      haveLoggedOverflow := false }
  recordingEnabled := permissionsProvider.getDaemonEnabled
  permissionsProvider := permissionsProvider
  persistentCache := persistentCache
  nextTaskId := 0
  cancelledUploads := []
  outstandingChecks := 0
  awaitingResponse := []
  awaitingBackoff := []
  trace := []

/-- `emer_daemon_new_full`.  The tally still holds `pastEvents`, and the environment is read to
schedule the first upload. -/
def new (permissionsProvider : EmerPermissionsProvider) (persistentCache : κ)
    (maxBytesBuffered : Nat) (pastEvents : List ε) : EmerDaemon κ ε :=
  getEnvironment parts
    (pastEvents.foldl (fun self event => self.recordEvent parts event)
      (initial permissionsProvider persistentCache maxBytesBuffered))

/-- An aborted daemon handles nothing. -/
def step (outcome : Outcome κ ε) (event : DaemonEvent ε) : Outcome κ ε :=
  outcome.bind fun self => self.handle parts event

/-- The state of a daemon, aborted or not. -/
def ofOutcome : Outcome κ ε → EmerDaemon κ ε
  | .ok self => self
  | .error (_, self) => self

end EmerDaemon

end EventRecorder
