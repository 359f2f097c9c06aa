import EventRecorder.Daemon.Housekeeping

/-!
# What the callbacks of the daemon do

Every callback of the upload machine is a few decisive moves with housekeeping between them.  Each
way that a callback can go is one constructor below.
-/

namespace EventRecorder

open Theory

namespace EmerDaemon

variable {κ ε : Type*} (parts : DaemonParts κ ε)

/-! ## 1. The decisive moves -/

/-- A new task at the tail of the queue. -/
def enqueued (self : EmerDaemon κ ε) (maxUploadSize : Nat) : EmerDaemon κ ε :=
  { self with
    uploadQueue := self.uploadQueue ++
      [{ taskId := self.nextTaskId, maxUploadSize := maxUploadSize, requestBody := [], token := 0,
         numStoredEvents := 0, numBufferEvents := 0, attemptNum := 0 }]
    nextTaskId := self.nextTaskId + 1 }

def checkCompleted (self : EmerDaemon κ ε) : EmerDaemon κ ε :=
  { self with outstandingChecks := self.outstandingChecks - 1 }

def popped (self : EmerDaemon κ ε) (rest : List (UploadTask ε)) : EmerDaemon κ ε :=
  { self.checkCompleted with uploadQueue := rest }

def responseReceived (self : EmerDaemon κ ε) (taskId : Nat) : EmerDaemon κ ε :=
  { self with awaitingResponse := self.awaitingResponse.filter (·.taskId ≠ taskId) }

def backoffOver (self : EmerDaemon κ ε) (taskId : Nat) : EmerDaemon κ ε :=
  { self with awaitingBackoff := self.awaitingBackoff.filter (·.taskId ≠ taskId) }

/-- `queue_http_request` is entered with a task. -/
def entered (self : EmerDaemon κ ε) (uploadTask : UploadTask ε) : EmerDaemon κ ε :=
  self.log (.queueHttpRequest uploadTask.taskId uploadTask.requestBody self.recordingEnabled
    self.permissionsProvider.getUploadingEnabled)

/-- The upload that was in flight is not any more. -/
def finished (self : EmerDaemon κ ε) : EmerDaemon κ ε :=
  { self with currentUpload := none }

/-- The server has accepted a request whose upload is not cancelled. -/
def acknowledged (self : EmerDaemon κ ε) (uploadTask : UploadTask ε) : EmerDaemon κ ε :=
  ((self.responseReceived uploadTask.taskId).log
    (.acknowledged uploadTask.requestBody)).removeFromPersistentCache parts uploadTask.token

/-- Whether an event makes the daemon enter `queue_http_request`. -/
def Sends (self : EmerDaemon κ ε) : DaemonEvent ε → Prop
  | .canReach reachable fault =>
    0 < self.outstandingChecks ∧ self.currentUpload = none ∧ self.uploadQueue ≠ [] ∧
      reachable = true ∧ fault ≠ .timestamps
  | .backoffTimer taskId fault =>
    (self.awaitingBackoff.find? (·.taskId = taskId)).isSome ∧ fault ≠ .timestamps
  | _ => False

instance (self : EmerDaemon κ ε) : DecidablePred self.Sends
  | .canReach .. => inferInstanceAs (Decidable (_ ∧ _))
  | .backoffTimer .. => inferInstanceAs (Decidable (_ ∧ _))
  | .recordEvent .. | .uploadEvents | .uploadTimer | .httpResponse .. | .setDaemonEnabled ..
  | .setUploadingEnabled .. | .writeConfigFileIdle .. | .configFileEdited .. => isFalse id

/-! ## 2. Sending -/

/-- From where `queue_http_request` is entered: it gives up, sends the request or is aborted. -/
inductive Sending (self : EmerDaemon κ ε) (uploadTask : UploadTask ε) (fault : RequestFault) :
    Outcome κ ε → Prop where
  | gaveUp (hfault : fault ≠ .none) (result : UploadResult) :
      Sending self uploadTask fault
        ((self.log (.returned uploadTask.taskId result)).finishNetworkCallback parts)
  | sent {next : EmerDaemon κ ε} (h : next = (self.getServerUrl parts).2) :
      Sending self uploadTask fault
        (.ok { next with awaitingResponse := next.awaitingResponse ++ [uploadTask] })
  | aborted (abort : Abort) :
      Sending self uploadTask fault (.error (abort, (self.getServerUrl parts).2))

variable {parts}

theorem finishNetworkCallback_housekept (self : EmerDaemon κ ε) :
    Housekept parts True self.finished (ofOutcome (self.finishNetworkCallback parts)) :=
  (handleUploadFinished_housekept self.finished).mono fun _ => trivial

theorem finish_returned_housekept (self : EmerDaemon κ ε) (taskId : Nat) (result : UploadResult) :
    Housekept parts True self.finished
      (ofOutcome ((self.log (.returned taskId result)).finishNetworkCallback parts)) :=
  .head (.returned self.finished taskId result)
    (finishNetworkCallback_housekept (self.log (.returned taskId result)))

variable (parts) in
theorem queueHttpRequest_sending (self : EmerDaemon κ ε) (uploadTask : UploadTask ε)
    (fault : RequestFault) :
    Sending parts (self.entered uploadTask) uploadTask fault
      (self.queueHttpRequest parts uploadTask fault) := by
  have hrequest : Sending parts (self.entered uploadTask) uploadTask fault
      (((self.entered uploadTask).getHttpRequestUrl parts).map fun self =>
        { self with awaitingResponse := self.awaitingResponse ++ [uploadTask] }) := by
    -- a URL that cannot be parsed ends the process after the config file was read
    unfold getHttpRequestUrl
    dsimp only
    split
    · exact .sent rfl
    · exact .aborted .invalidServerUrl
  cases fault with
  | none => exact hrequest
  | timestamps => exact hrequest
  | serialize => exact .gaveUp (by decide) .notSerialized
  | compress => exact .gaveUp (by decide) .notCompressed

/-- **Invariant rule** for sending. -/
theorem Sending.keeps {I : EmerDaemon κ ε → Prop} {self : EmerDaemon κ ε}
    {uploadTask : UploadTask ε} {fault : RequestFault} {outcome : Outcome κ ε}
    (hkeeping : ∀ {self next}, Housekeeping parts True self next → I self → I next)
    (hfinished : I self → I self.finished)
    (hsent : ∀ next, I next →
      I { next with awaitingResponse := next.awaitingResponse ++ [uploadTask] })
    (h : Sending parts self uploadTask fault outcome) (hI : I self) : I (ofOutcome outcome) := by
  cases h with
  | gaveUp hfault result =>
    exact (finish_returned_housekept self _ result).keeps hkeeping (hfinished hI)
  | sent hnext =>
    subst hnext
    exact hsent _ ((getServerUrl_housekept parts True self).keeps hkeeping hI)
  | aborted abort => exact (getServerUrl_housekept parts True self).keeps hkeeping hI

/-! ## 3. Everything that handling one event can do -/

variable (parts) in
inductive Handled (self : EmerDaemon κ ε) : DaemonEvent ε → Outcome κ ε → Prop where
  | ignored {event : DaemonEvent ε} (hsends : ¬ self.Sends event) : Handled self event (.ok self)
  | recorded {event : ε} (hrecording : self.recordingEnabled = true) :
      Handled self (.recordEvent event) (.ok (self.bufferEvent parts event))
  | configured {event : DaemonEvent ε} (provider : EmerPermissionsProvider)
      (notified : List ProviderProperty) (hsends : ¬ self.Sends event) :
      Handled self event (.ok (self.withProvider parts provider notified))
  | requested : Handled self .uploadEvents ((self.enqueued gMaxsize).dequeueAndDoUpload parts)
  | timerFired :
      Handled self .uploadTimer
        (((self.getEnvironment parts).enqueued maxRequestPayload).dequeueAndDoUpload parts)
  | checkedWhileBusy {reachable : Bool} {fault : RequestFault}
      (hbusy : self.currentUpload.isSome = true) :
      Handled self (.canReach reachable fault) (.ok self.checkCompleted)
  | checkedEmptyQueue {fault : RequestFault} (hchecks : 0 < self.outstandingChecks)
      (hidle : self.currentUpload = none) (hqueue : self.uploadQueue = []) :
      Handled self (.canReach true fault) (.error (.nullUploadTask, self.checkCompleted))
  | unreachableEmptyQueue {fault : RequestFault} (hchecks : 0 < self.outstandingChecks)
      (hidle : self.currentUpload = none) (hqueue : self.uploadQueue = []) :
      Handled self (.canReach false fault)
        ((self.checkCompleted.flushToPersistentCache parts).handleUploadFinished parts)
  | unreachable {fault : RequestFault} {uploadTask : UploadTask ε} {rest : List (UploadTask ε)}
      (hchecks : 0 < self.outstandingChecks) (hidle : self.currentUpload = none)
      (hqueue : self.uploadQueue = uploadTask :: rest) :
      Handled self (.canReach false fault)
        ((((self.popped rest).flushToPersistentCache parts).log
          (.returned uploadTask.taskId .unreachable)).handleUploadFinished parts)
  | noTimestamps {uploadTask : UploadTask ε} {rest : List (UploadTask ε)}
      (hchecks : 0 < self.outstandingChecks) (hidle : self.currentUpload = none)
      (hqueue : self.uploadQueue = uploadTask :: rest) :
      Handled self (.canReach true .timestamps)
        ((((self.popped rest).createRequestBody parts uploadTask false).2.log
          (.returned uploadTask.taskId .noTimestamps)).handleUploadFinished parts)
  | started {fault : RequestFault} {uploadTask request : UploadTask ε}
      {rest : List (UploadTask ε)} {next : EmerDaemon κ ε} {outcome : Outcome κ ε}
      (hchecks : 0 < self.outstandingChecks) (hidle : self.currentUpload = none)
      (hqueue : self.uploadQueue = uploadTask :: rest) (hfault : fault ≠ .timestamps)
      (hbody : (self.popped rest).createRequestBody parts uploadTask true = (some request, next))
      (hsending : Sending parts
        ({ next with currentUpload := some request.taskId }.entered request) request fault
        outcome) :
      Handled self (.canReach true fault) outcome
  | removedPastEnd {taskId : Nat} {uploadTask : UploadTask ε} {abort : Abort × EmerDaemon κ ε}
      (hfind : self.awaitingResponse.find? (·.taskId = taskId) = some uploadTask)
      (hlive : uploadTask.taskId ∉ self.cancelledUploads)
      (hremove : (self.acknowledged parts uploadTask).removeEvents parts
        uploadTask.numBufferEvents = .error abort) :
      Handled self (.httpResponse taskId .successful) (.error abort)
  | uploaded {taskId : Nat} {uploadTask : UploadTask ε} {next : EmerDaemon κ ε}
      (hfind : self.awaitingResponse.find? (·.taskId = taskId) = some uploadTask)
      (hlive : uploadTask.taskId ∉ self.cancelledUploads)
      (hremove : (self.acknowledged parts uploadTask).removeEvents parts
        uploadTask.numBufferEvents = .ok next) :
      Handled self (.httpResponse taskId .successful)
        (((next.flushToPersistentCache parts).log
          (.returned uploadTask.taskId .uploaded)).finishNetworkCallback parts)
  /-- The upload ends without any events being removed.  A cancellable may have been reset. -/
  | gaveUp {taskId : Nat} {uploadTask : UploadTask ε} {response : HttpOutcome}
      (hfind : self.awaitingResponse.find? (·.taskId = taskId) = some uploadTask)
      (hends : uploadTask.taskId ∈ self.cancelledUploads ∨ response ≠ .successful)
      (hretry : response = .retryable → uploadTask.taskId ∈ self.cancelledUploads ∨
        networkAttemptLimit ≤ uploadTask.attemptNum + 1)
      (cancelledUploads : List Nat) (result : UploadResult) :
      Handled self (.httpResponse taskId response)
        (({ self.responseReceived taskId with cancelledUploads := cancelledUploads }.log
          (.returned uploadTask.taskId result)).finishNetworkCallback parts)
  | retried {taskId : Nat} {uploadTask : UploadTask ε}
      (hfind : self.awaitingResponse.find? (·.taskId = taskId) = some uploadTask)
      (hlive : uploadTask.taskId ∉ self.cancelledUploads)
      (hattempts : uploadTask.attemptNum + 1 < networkAttemptLimit) :
      Handled self (.httpResponse taskId .retryable)
        (.ok { self.responseReceived taskId with
          awaitingBackoff := self.awaitingBackoff ++
            [{ uploadTask with attemptNum := uploadTask.attemptNum + 1 }] })
  | backoffGaveUp {taskId : Nat} {uploadTask : UploadTask ε}
      (hfind : self.awaitingBackoff.find? (·.taskId = taskId) = some uploadTask) :
      Handled self (.backoffTimer taskId .timestamps)
        (((self.backoffOver taskId).log
          (.returned uploadTask.taskId .noTimestamps)).finishNetworkCallback parts)
  | backoffSent {taskId : Nat} {uploadTask : UploadTask ε} {fault : RequestFault}
      {outcome : Outcome κ ε}
      (hfind : self.awaitingBackoff.find? (·.taskId = taskId) = some uploadTask)
      (hfault : fault ≠ .timestamps)
      (hsending : Sending parts ((self.backoffOver taskId).entered uploadTask) uploadTask fault
        outcome) :
      Handled self (.backoffTimer taskId fault) outcome

theorem taskId_of_find {tasks : List (UploadTask ε)} {taskId : Nat} {uploadTask : UploadTask ε}
    (hfind : tasks.find? (·.taskId = taskId) = some uploadTask) : uploadTask.taskId = taskId := by
  simpa using List.find?_some hfind

variable (parts) in
theorem createRequestBody_of_timestamps (self : EmerDaemon κ ε) (uploadTask : UploadTask ε) :
    ∃ request next, self.createRequestBody parts uploadTask true = (some request, next) :=
  ⟨_, _, rfl⟩

theorem handleNetworkMonitorCanReach_handled (self : EmerDaemon κ ε) (reachable : Bool)
    (fault : RequestFault) (hchecks : 0 < self.outstandingChecks) :
    Handled parts self (.canReach reachable fault)
      (self.checkCompleted.handleNetworkMonitorCanReach parts reachable fault) := by
  unfold handleNetworkMonitorCanReach
  -- an upload under way, an empty queue, or a task to take
  cases hcurrent : self.currentUpload with
  | some taskId =>
    have hbusy : self.checkCompleted.currentUpload.isSome = true := by
      show self.currentUpload.isSome = true
      rw [hcurrent]
      rfl
    rw [if_pos hbusy]
    exact .checkedWhileBusy hbusy
  | none =>
    have hidle : ¬ self.checkCompleted.currentUpload.isSome = true := by
      show ¬ self.currentUpload.isSome = true
      rw [hcurrent]
      exact Bool.false_ne_true
    rw [if_neg hidle]
    cases hqueue : self.uploadQueue with
    | nil =>
      have hqueue' : self.checkCompleted.uploadQueue = [] := hqueue
      rw [hqueue']
      cases reachable with
      | true => exact .checkedEmptyQueue hchecks hcurrent hqueue
      | false => exact .unreachableEmptyQueue hchecks hcurrent hqueue
    | cons uploadTask rest =>
      have hqueue' : self.checkCompleted.uploadQueue = uploadTask :: rest := hqueue
      rw [hqueue']
      cases reachable with
      | false => exact .unreachable hchecks hcurrent hqueue
      | true =>
        by_cases hfault : fault = .timestamps
        · subst hfault
          exact .noTimestamps hchecks hcurrent hqueue
        · obtain ⟨request, next, hbody⟩ :=
            createRequestBody_of_timestamps parts (self.popped rest) uploadTask
          have hbody' : createRequestBody parts { self.checkCompleted with uploadQueue := rest }
              uploadTask (decide (fault ≠ .timestamps)) = (some request, next) := by
            rw [decide_eq_true hfault]
            exact hbody
          dsimp only
          rw [if_neg (by simp), hbody']
          exact .started hchecks hcurrent hqueue hfault hbody
            (queueHttpRequest_sending parts _ request fault)

theorem handleHttpResponse_handled (self : EmerDaemon κ ε) {taskId : Nat}
    {uploadTask : UploadTask ε}
    (hfind : self.awaitingResponse.find? (·.taskId = taskId) = some uploadTask)
    (response : HttpOutcome) :
    Handled parts self (.httpResponse taskId response)
      ((self.responseReceived taskId).handleHttpResponse parts uploadTask response) := by
  have hid := taskId_of_find hfind
  have hsame : (self.responseReceived taskId).cancelledUploads = self.cancelledUploads := rfl
  unfold handleHttpResponse
  rw [hsame]
  -- a cancelled upload ends with any response; the others by what the server said
  cases response with
  | successful =>
    by_cases hcancelled : uploadTask.taskId ∈ self.cancelledUploads
    · simp only [if_pos hcancelled]
      exact .gaveUp hfind (.inl hcancelled) (fun h => by cases h) _ .uploaded
    · simp only [if_neg hcancelled]
      subst hid
      cases hremove : (self.acknowledged parts uploadTask).removeEvents parts
          uploadTask.numBufferEvents with
      | error abort =>
        have hremove' := hremove
        rw [acknowledged] at hremove'
        rw [hremove']
        exact .removedPastEnd hfind hcancelled hremove
      | ok next =>
        have hremove' := hremove
        rw [acknowledged] at hremove'
        rw [hremove']
        exact .uploaded hfind hcancelled hremove
  | retryable =>
    by_cases hcancelled : uploadTask.taskId ∈ self.cancelledUploads
    · simp only [if_pos hcancelled]
      exact .gaveUp hfind (.inl hcancelled) (fun _ => .inl hcancelled) self.cancelledUploads
        .cancelled
    · by_cases hattempts : uploadTask.attemptNum + 1 ≥ networkAttemptLimit
      · simp only [if_neg hcancelled, if_pos hattempts]
        exact .gaveUp hfind (.inr (by decide)) (fun _ => .inr hattempts) self.cancelledUploads
          .attemptLimit
      · simp only [if_neg hcancelled, if_neg hattempts, if_true]
        exact .retried hfind hcancelled (Nat.lt_of_not_le hattempts)
  | fatal =>
    by_cases hcancelled : uploadTask.taskId ∈ self.cancelledUploads
    · simp only [if_pos hcancelled]
      exact .gaveUp hfind (.inl hcancelled) (fun h => by cases h) self.cancelledUploads .cancelled
    · by_cases hattempts : uploadTask.attemptNum + 1 ≥ networkAttemptLimit
      · simp only [if_neg hcancelled, if_pos hattempts]
        exact .gaveUp hfind (.inr (by decide)) (fun h => by cases h) self.cancelledUploads
          .attemptLimit
      · simp only [if_neg hcancelled, if_neg hattempts, reduceCtorEq, if_false]
        exact .gaveUp hfind (.inr (by decide)) (fun h => by cases h) self.cancelledUploads
          .httpStatus

variable (parts) in
/-- **Inversion lemma.** -/
theorem handle_handled (self : EmerDaemon κ ε) (event : DaemonEvent ε) :
    Handled parts self event (self.handle parts event) := by
  cases event with
  | recordEvent event =>
    rw [handle, recordEvent]
    split
    · rename_i hrecording
      exact .recorded hrecording
    · exact .ignored id
  | uploadEvents => exact .requested
  | uploadTimer => exact .timerFired
  | canReach reachable fault =>
    rw [handle]
    split
    · rename_i hchecks
      exact .ignored fun h => by have := h.1; omega
    · rename_i hchecks
      exact handleNetworkMonitorCanReach_handled self reachable fault (Nat.pos_of_ne_zero hchecks)
  | httpResponse taskId response =>
    rw [handle]
    cases hfind : self.awaitingResponse.find? (·.taskId = taskId) with
    | none => exact .ignored id
    | some uploadTask => exact handleHttpResponse_handled self hfind response
  | backoffTimer taskId fault =>
    rw [handle]
    cases hfind : self.awaitingBackoff.find? (·.taskId = taskId) with
    | none =>
      exact .ignored fun h => by
        rw [Sends, hfind] at h
        exact Bool.false_ne_true h.1
    | some uploadTask =>
      -- a body that cannot be brought up to date ends the upload before it is sent
      by_cases hfault : fault = .timestamps
      · subst hfault
        exact .backoffGaveUp hfind
      · have hsending := queueHttpRequest_sending parts (self.backoffOver taskId)
          uploadTask fault
        have heq : (self.backoffOver taskId).handleBackoffTimer parts uploadTask fault =
            (self.backoffOver taskId).queueHttpRequest parts uploadTask fault := by
          cases fault <;> first | rfl | exact absurd rfl hfault
        rw [← heq] at hsending
        exact .backoffSent hfind hfault hsending
  | setDaemonEnabled enabled => exact .configured _ _ id
  | setUploadingEnabled enabled => exact .configured _ _ id
  | writeConfigFileIdle saved =>
    rw [handle]
    split
    · exact .configured (self.permissionsProvider.writeConfigFileIdleCb saved) [] id
    · exact .ignored id
  | configFileEdited file =>
    exact .configured { self.permissionsProvider with permissionsConfigFile := file } [] id

end EmerDaemon

end EventRecorder
