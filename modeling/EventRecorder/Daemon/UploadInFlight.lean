import EventRecorder.Daemon.Handlers

/-!
# The upload in flight

At most one upload is under way at any time, the current one.  It waits for a response or for a
timer, and what an invariant says of it has to be established when it starts and kept until it ends.
The obligations for that are the fields of `UploadInvariant`.
-/

namespace EventRecorder

open Theory

namespace EmerDaemon

variable {κ ε : Type*} {parts : DaemonParts κ ε} {self next : EmerDaemon κ ε}

/-- The states differ in the queue, the checks and the tasks that wait at most. -/
structure SameContents (before after : EmerDaemon κ ε) : Prop where
  current : after.currentUpload = before.currentUpload
  buffer : after.buffer = before.buffer
  recording : after.recordingEnabled = before.recordingEnabled
  provider : after.permissionsProvider = before.permissionsProvider
  cache : after.persistentCache = before.persistentCache
  cancelled : after.cancelledUploads = before.cancelledUploads
  trace : after.trace = before.trace

/-- The tasks of the uploads that are under way. -/
def waiting (self : EmerDaemon κ ε) : List (UploadTask ε) :=
  self.awaitingResponse ++ self.awaitingBackoff

/-- What has to be shown for an invariant of the daemon and the upload in flight, when every event
meets `ok`. -/
structure UploadInvariant (parts : DaemonParts κ ε) (ok : EmerDaemon κ ε → DaemonEvent ε → Prop)
    (I : Option (UploadTask ε) → EmerDaemon κ ε → Prop) : Prop where
  same : ∀ {upload self next}, SameContents self next → I upload self → I upload next
  current : ∀ {uploadTask self}, I (some uploadTask) self →
    self.currentUpload = some uploadTask.taskId
  recorded : ∀ {upload self event}, I upload self → self.recordingEnabled = true →
    I upload (self.bufferEvent parts event)
  housekeeping : ∀ {upload self next}, Housekeeping parts (upload = none) self next →
    I upload self → I upload next
  requested : ∀ {upload self}, self.waiting = upload.toList → I upload self →
    ok self .uploadEvents → I upload (ofOutcome ((self.enqueued gMaxsize).dequeueAndDoUpload parts))
  timerFired : ∀ {upload self}, self.waiting = upload.toList → I upload self →
    ok self .uploadTimer → I upload (ofOutcome
      (((self.getEnvironment parts).enqueued maxRequestPayload).dequeueAndDoUpload parts))
  notStarted : ∀ {self uploadTask}, I none self →
    I none (self.createRequestBody parts uploadTask false).2
  started : ∀ {self next uploadTask request}, I none self →
    self.createRequestBody parts uploadTask true = (some request, next) →
    I (some request) ({ next with currentUpload := some request.taskId }.entered request)
  retried : ∀ {uploadTask self} attemptNum, I (some uploadTask) self →
    I (some { uploadTask with attemptNum := attemptNum }) self
  sentAgain : ∀ {uploadTask self fault}, I (some uploadTask) self →
    self.awaitingBackoff.find? (·.taskId = uploadTask.taskId) = some uploadTask →
    fault ≠ .timestamps → ok self (.backoffTimer uploadTask.taskId fault) →
    I (some uploadTask) (self.entered uploadTask)
  acknowledged : ∀ {uploadTask self outcome}, I (some uploadTask) self →
    uploadTask.taskId ∉ self.cancelledUploads →
    (self.acknowledged parts uploadTask).removeEvents parts uploadTask.numBufferEvents = outcome →
    I none (ofOutcome outcome)
  ended : ∀ {uploadTask self}, I (some uploadTask) self → I none self
  finished : ∀ self cancelledUploads, I none self →
    I none { self with currentUpload := none, cancelledUploads := cancelledUploads }

/-- The invariant holds of the daemon and the upload that waits, if any. -/
def InFlight (I : Option (UploadTask ε) → EmerDaemon κ ε → Prop) (self : EmerDaemon κ ε) : Prop :=
  ∃ upload : Option (UploadTask ε), self.waiting = upload.toList ∧ I upload self

/-- A condition on the events that a daemon handles. -/
def Meets (ok : EmerDaemon κ ε → DaemonEvent ε → Prop) :
    Outcome κ ε → DaemonEvent ε → Prop
  | .ok self, event => ok self event
  | .error _, _ => True

instance {ok : EmerDaemon κ ε → DaemonEvent ε → Prop} [∀ self event, Decidable (ok self event)]
    (outcome : Outcome κ ε) (event : DaemonEvent ε) : Decidable (Meets ok outcome event) :=
  match outcome with
  | .ok self => inferInstanceAs (Decidable (ok self event))
  | .error _ => isTrue trivial

theorem sameContents_checkCompleted (self : EmerDaemon κ ε) :
    SameContents self self.checkCompleted :=
  ⟨rfl, rfl, rfl, rfl, rfl, rfl, rfl⟩

theorem sameContents_popped (self : EmerDaemon κ ε) (rest : List (UploadTask ε)) :
    SameContents self (self.popped rest) :=
  ⟨rfl, rfl, rfl, rfl, rfl, rfl, rfl⟩

theorem sameContents_responseReceived (self : EmerDaemon κ ε) (taskId : Nat) :
    SameContents self (self.responseReceived taskId) :=
  ⟨rfl, rfl, rfl, rfl, rfl, rfl, rfl⟩

theorem sameContents_backoffOver (self : EmerDaemon κ ε) (taskId : Nat) :
    SameContents self (self.backoffOver taskId) :=
  ⟨rfl, rfl, rfl, rfl, rfl, rfl, rfl⟩

/-! ## 1. The tasks that wait -/

/-- The same tasks wait. -/
def SameAwaiting (before after : EmerDaemon κ ε) : Prop :=
  after.awaitingResponse = before.awaitingResponse ∧ after.awaitingBackoff = before.awaitingBackoff

theorem SameAwaiting.waiting_eq (h : SameAwaiting self next) : next.waiting = self.waiting := by
  rw [waiting, h.1, h.2, waiting]

theorem sameAwaiting_housekeeping {mayFlush : Prop} (h : Housekeeping parts mayFlush self next) :
    SameAwaiting self next := by
  cases h with
  | flush =>
    obtain ⟨cache, buffer, hflush⟩ := flushToPersistentCache_eq parts self
    rw [hflush]
    exact ⟨rfl, rfl⟩
  | provider provider notified =>
    rcases self.withProvider_cases parts provider notified with ⟨recording, -, h⟩ | h
    · rw [h]
      exact ⟨rfl, rfl⟩
    · rw [h]
      exact ⟨rfl, rfl⟩
  | returned => exact ⟨rfl, rfl⟩
  | dequeued => exact ⟨rfl, rfl⟩
  | check => exact ⟨rfl, rfl⟩

theorem sameAwaiting_housekept {mayFlush : Prop} (h : Housekept parts mayFlush self next) :
    SameAwaiting self next := by
  apply h.keeps (I := fun reached => SameAwaiting self reached)
  · intro reached later hstep hreached
    obtain ⟨hresponse, hbackoff⟩ := sameAwaiting_housekeeping hstep
    exact ⟨hresponse.trans hreached.1, hbackoff.trans hreached.2⟩
  · exact ⟨rfl, rfl⟩

theorem sameAwaiting_createRequestBody (parts : DaemonParts κ ε) (self : EmerDaemon κ ε)
    (uploadTask : UploadTask ε) (timestamps : Bool) :
    SameAwaiting self (self.createRequestBody parts uploadTask timestamps).2 := by
  obtain ⟨cache, hbuilt⟩ := createRequestBody_eq parts self uploadTask timestamps
  rw [hbuilt]
  exact ⟨rfl, rfl⟩

theorem append_toList_comm {waiting others : List (UploadTask ε)} {upload : Option (UploadTask ε)}
    (h : waiting ++ others = upload.toList) : others ++ waiting = upload.toList := by
  -- with at most one task in both lists the order does not matter
  cases upload with
  | none =>
    obtain ⟨hwaiting, hothers⟩ := List.append_eq_nil_iff.mp h
    rw [hwaiting, hothers]
    rfl
  | some uploadTask =>
    rcases List.append_eq_singleton_iff.mp h with ⟨hwaiting, hothers⟩ | ⟨hwaiting, hothers⟩
    · rw [hwaiting, hothers]
      rfl
    · rw [hwaiting, hothers]
      rfl

/-- Of a list with at most one task, the task that is found is the only one. -/
theorem eq_of_find {waiting others : List (UploadTask ε)} {upload : Option (UploadTask ε)}
    {taskId : Nat} {uploadTask : UploadTask ε} (hupload : waiting ++ others = upload.toList)
    (hfind : waiting.find? (·.taskId = taskId) = some uploadTask) :
    upload = some uploadTask ∧ others = [] ∧ waiting.filter (·.taskId ≠ taskId) = [] := by
  have hmem : uploadTask ∈ waiting := List.mem_of_find?_eq_some hfind
  cases upload with
  | none =>
    rw [Option.toList_none, List.append_eq_nil_iff] at hupload
    rw [hupload.1] at hmem
    cases hmem
  | some inFlight =>
    rw [Option.toList_some, List.append_eq_singleton_iff] at hupload
    rcases hupload with ⟨hwaiting, -⟩ | ⟨hwaiting, hothers⟩
    · rw [hwaiting] at hmem
      cases hmem
    · rw [hwaiting] at hmem
      have heq : uploadTask = inFlight := List.mem_singleton.mp hmem
      -- it is the only one, so nothing is left when it is taken out
      refine ⟨by rw [heq], hothers, ?_⟩
      rw [hwaiting, ← heq]
      simp [taskId_of_find hfind]

/-! ## 2. Steps and runs -/

namespace UploadInvariant

variable {ok : EmerDaemon κ ε → DaemonEvent ε → Prop}
  {I : Option (UploadTask ε) → EmerDaemon κ ε → Prop}

theorem housekept (hI : UploadInvariant parts ok I) {mayFlush : Prop}
    {upload : Option (UploadTask ε)} (hflush : mayFlush → upload = none) (hself : I upload self)
    (h : Housekept parts mayFlush self next) : I upload next :=
  (h.mono hflush).keeps hI.housekeeping hself

theorem inFlight_housekept (hI : UploadInvariant parts ok I) {mayFlush : Prop}
    (h : Housekept parts mayFlush self next) (hself : I none self)
    (hnone : self.awaitingResponse = [] ∧ self.awaitingBackoff = []) : InFlight I next := by
  refine ⟨none, ?_, hI.housekept (fun _ => rfl) hself h⟩
  rw [(sameAwaiting_housekept h).waiting_eq, waiting, hnone.1, hnone.2]
  rfl

/-- An upload ends, and its task is returned. -/
theorem inFlight_finished (hI : UploadInvariant parts ok I) (hself : I none self)
    (hnone : self.awaitingResponse = [] ∧ self.awaitingBackoff = []) (cancelledUploads : List Nat)
    (taskId : Nat) (result : UploadResult) :
    InFlight I (ofOutcome
      (({ self with cancelledUploads := cancelledUploads }.log
        (.returned taskId result)).finishNetworkCallback parts)) := by
  have hfinished : I none { self with cancelledUploads := cancelledUploads }.finished :=
    hI.finished self cancelledUploads hself
  exact hI.inFlight_housekept (finish_returned_housekept _ taskId result) hfinished hnone

theorem inFlight_sending (hI : UploadInvariant parts ok I) {uploadTask : UploadTask ε}
    {fault : RequestFault} {outcome : Outcome κ ε}
    (h : Sending parts self uploadTask fault outcome) (hself : I (some uploadTask) self)
    (hnone : self.awaitingResponse = [] ∧ self.awaitingBackoff = []) :
    InFlight I (ofOutcome outcome) := by
  have hasked := getServerUrl_housekept parts (some uploadTask = none) self
  have hkept : I (some uploadTask) (self.getServerUrl parts).2 := hI.housekept id hself hasked
  cases h with
  | gaveUp hfault result =>
    exact hI.inFlight_finished (hI.ended hself) hnone self.cancelledUploads _ result
  -- reading the URL is housekeeping, after which the task waits for a response
  | sent hnext =>
    obtain ⟨hresponse, hbackoff⟩ := sameAwaiting_housekept hasked
    subst hnext
    have hsame : SameContents (self.getServerUrl parts).2
        { (self.getServerUrl parts).2 with
          awaitingResponse := (self.getServerUrl parts).2.awaitingResponse ++ [uploadTask] } :=
      ⟨rfl, rfl, rfl, rfl, rfl, rfl, rfl⟩
    refine ⟨some uploadTask, ?_, hI.same hsame hkept⟩
    show (self.getServerUrl parts).2.awaitingResponse ++ [uploadTask] ++
      (self.getServerUrl parts).2.awaitingBackoff = [uploadTask]
    rw [hresponse, hbackoff, hnone.1, hnone.2]
    rfl
  | aborted abort =>
    exact hI.inFlight_housekept hasked (hI.ended hself) hnone

/-- No upload waits while none is current. -/
theorem idle (hI : UploadInvariant parts ok I) (h : InFlight I self)
    (hidle : self.currentUpload = none) :
    I none self ∧ self.awaitingResponse = [] ∧ self.awaitingBackoff = [] := by
  obtain ⟨upload, hupload, hself⟩ := h
  cases upload with
  | none => exact ⟨hself, List.append_eq_nil_iff.mp hupload⟩
  | some uploadTask =>
    rw [hI.current hself] at hidle
    cases hidle

/-- A change of the bookkeeping of checks and queued uploads. -/
theorem inFlight_same (hI : UploadInvariant parts ok I) (hsame : SameContents self next)
    (hawaiting : SameAwaiting self next) (h : InFlight I self) : InFlight I next := by
  obtain ⟨upload, hupload, hself⟩ := h
  exact ⟨upload, hawaiting.waiting_eq.trans hupload, hI.same hsame hself⟩

/-- What an idle daemon does after a check when no upload starts. -/
theorem inFlight_checked (hI : UploadInvariant parts ok I) (h : InFlight I self)
    (hidle : self.currentUpload = none) {checked : EmerDaemon κ ε}
    (hsame : SameContents self checked) (hawaiting : SameAwaiting self checked)
    (hkept : Housekept parts True checked next) : InFlight I next := by
  obtain ⟨hself, hresponse, hbackoff⟩ := hI.idle h hidle
  exact hI.inFlight_housekept hkept (hI.same hsame hself)
    ⟨hawaiting.1.trans hresponse, hawaiting.2.trans hbackoff⟩

theorem inFlight_notStarted (hI : UploadInvariant parts ok I) (h : InFlight I self)
    (hidle : self.currentUpload = none) (uploadTask : UploadTask ε) (rest : List (UploadTask ε)) :
    InFlight I (ofOutcome
      ((((self.popped rest).createRequestBody parts uploadTask false).2.log
        (.returned uploadTask.taskId .noTimestamps)).handleUploadFinished parts)) := by
  obtain ⟨hself, hresponse, hbackoff⟩ := hI.idle h hidle
  have hpopped := hI.same (sameContents_popped self rest) hself
  obtain ⟨hresponse', hbackoff'⟩ :=
    sameAwaiting_createRequestBody parts (self.popped rest) uploadTask false
  have hkept : Housekept parts True
      ((self.popped rest).createRequestBody parts uploadTask false).2
      (((self.popped rest).createRequestBody parts uploadTask false).2.log
        (.returned uploadTask.taskId .noTimestamps)) := .single (.returned _ _ _)
  exact hI.inFlight_housekept
    (hkept.trans ((handleUploadFinished_housekept _).mono fun _ => trivial))
    (hI.notStarted hpopped) ⟨hresponse'.trans hresponse, hbackoff'.trans hbackoff⟩

theorem inFlight_started (hI : UploadInvariant parts ok I) (h : InFlight I self)
    (hidle : self.currentUpload = none) {uploadTask request : UploadTask ε}
    {rest : List (UploadTask ε)} {entering : EmerDaemon κ ε} {fault : RequestFault}
    {outcome : Outcome κ ε}
    (hbody : (self.popped rest).createRequestBody parts uploadTask true = (some request, entering))
    (hsending : Sending parts
      ({ entering with currentUpload := some request.taskId }.entered request) request fault
      outcome) :
    InFlight I (ofOutcome outcome) := by
  obtain ⟨hself, hresponse, hbackoff⟩ := hI.idle h hidle
  have hpopped := hI.same (sameContents_popped self rest) hself
  have hawaiting := sameAwaiting_createRequestBody parts (self.popped rest) uploadTask true
  rw [hbody] at hawaiting
  exact hI.inFlight_sending hsending (hI.started hpopped hbody)
    ⟨hawaiting.1.trans hresponse, hawaiting.2.trans hbackoff⟩

/-- The events of an upload are removed, although there are fewer in the buffer. -/
theorem inFlight_removedPastEnd (hI : UploadInvariant parts ok I) (h : InFlight I self)
    {uploadTask : UploadTask ε} {abort : Abort × EmerDaemon κ ε}
    (hfind : self.awaitingResponse.find? (·.taskId = uploadTask.taskId) = some uploadTask)
    (hlive : uploadTask.taskId ∉ self.cancelledUploads)
    (hremove : (self.acknowledged parts uploadTask).removeEvents parts
      uploadTask.numBufferEvents = .error abort) :
    InFlight I abort.2 := by
  obtain ⟨upload, hupload, hself⟩ := h
  obtain ⟨rfl, hbackoff, hfilter⟩ := eq_of_find hupload hfind
  have hremoved : I none abort.2 := hI.acknowledged hself hlive hremove
  obtain ⟨rfl, -⟩ := removeEvents_eq_error hremove
  refine ⟨none, ?_, hremoved⟩
  show self.awaitingResponse.filter (·.taskId ≠ uploadTask.taskId) ++ self.awaitingBackoff = []
  rw [hbackoff, hfilter]
  rfl

/-- The events of an upload are removed, what is left is flushed, and the task is returned. -/
theorem inFlight_uploaded (hI : UploadInvariant parts ok I) (h : InFlight I self)
    {uploadTask : UploadTask ε} {removed : EmerDaemon κ ε}
    (hfind : self.awaitingResponse.find? (·.taskId = uploadTask.taskId) = some uploadTask)
    (hlive : uploadTask.taskId ∉ self.cancelledUploads)
    (hremove : (self.acknowledged parts uploadTask).removeEvents parts
      uploadTask.numBufferEvents = .ok removed) (result : UploadResult) :
    InFlight I (ofOutcome (((removed.flushToPersistentCache parts).log
      (.returned uploadTask.taskId result)).finishNetworkCallback parts)) := by
  obtain ⟨upload, hupload, hself⟩ := h
  obtain ⟨rfl, hbackoff, hfilter⟩ := eq_of_find hupload hfind
  have hremoved : I none removed := hI.acknowledged hself hlive hremove
  obtain ⟨buffer, -, heq⟩ := removeEvents_eq_ok hremove
  have hflush : Housekeeping parts ((none : Option (UploadTask ε)) = none) removed
      (removed.flushToPersistentCache parts) := .flush _ rfl
  obtain ⟨hresponse, hbackoff'⟩ := sameAwaiting_housekeeping hflush
  have hnone : (removed.flushToPersistentCache parts).awaitingResponse = [] ∧
      (removed.flushToPersistentCache parts).awaitingBackoff = [] := by
    rw [hresponse, hbackoff', heq]
    exact ⟨hfilter, hbackoff⟩
  exact hI.inFlight_finished (hI.housekeeping hflush hremoved) hnone
    (removed.flushToPersistentCache parts).cancelledUploads _ _

/-- The upload waits for its next attempt. -/
theorem inFlight_retried (hI : UploadInvariant parts ok I) (h : InFlight I self) {taskId : Nat}
    {uploadTask : UploadTask ε}
    (hfind : self.awaitingResponse.find? (·.taskId = taskId) = some uploadTask) :
    InFlight I { self.responseReceived taskId with
      awaitingBackoff := self.awaitingBackoff ++
        [{ uploadTask with attemptNum := uploadTask.attemptNum + 1 }] } := by
  obtain ⟨upload, hupload, hself⟩ := h
  obtain ⟨rfl, hbackoff, hfilter⟩ := eq_of_find hupload hfind
  have hretried := hI.retried (uploadTask.attemptNum + 1) hself
  have hsame : SameContents self { self.responseReceived taskId with
      awaitingBackoff := self.awaitingBackoff ++
        [{ uploadTask with attemptNum := uploadTask.attemptNum + 1 }] } :=
    ⟨rfl, rfl, rfl, rfl, rfl, rfl, rfl⟩
  refine ⟨_, ?_, hI.same hsame hretried⟩
  show self.awaitingResponse.filter (·.taskId ≠ taskId) ++ (self.awaitingBackoff ++ [_]) = [_]
  rw [hbackoff, hfilter]
  rfl

/-- The timer of the upload sends it again. -/
theorem inFlight_sentAgain (hI : UploadInvariant parts ok I) (h : InFlight I self)
    {uploadTask : UploadTask ε} {fault : RequestFault} {outcome : Outcome κ ε}
    (hfind : self.awaitingBackoff.find? (·.taskId = uploadTask.taskId) = some uploadTask)
    (hfault : fault ≠ .timestamps) (hok : ok self (.backoffTimer uploadTask.taskId fault))
    (hsending : Sending parts ((self.backoffOver uploadTask.taskId).entered uploadTask) uploadTask
      fault outcome) :
    InFlight I (ofOutcome outcome) := by
  obtain ⟨upload, hupload, hself⟩ := h
  -- the task waits for its timer, so none waits for a response
  obtain ⟨rfl, hresponse, hfilter⟩ := eq_of_find (append_toList_comm hupload) hfind
  have hsame : SameContents (self.entered uploadTask)
      ((self.backoffOver uploadTask.taskId).entered uploadTask) :=
    ⟨rfl, rfl, rfl, rfl, rfl, rfl, rfl⟩
  have hentered := hI.same hsame (hI.sentAgain hself hfind hfault hok)
  exact hI.inFlight_sending hsending hentered ⟨hresponse, hfilter⟩

/-- **Step lemma.** -/
theorem handled (hI : UploadInvariant parts ok I) {event : DaemonEvent ε} {outcome : Outcome κ ε}
    (h : Handled parts self event outcome) (hself : InFlight I self) (hok : ok self event) :
    InFlight I (ofOutcome outcome) := by
  cases h with
  -- one case per way that a callback can go
  | ignored hsends => exact hself
  | @recorded event hrecording =>
    obtain ⟨upload, hupload, hself⟩ := hself
    refine ⟨upload, ?_, hI.recorded hself hrecording⟩
    show (self.bufferEvent parts event).awaitingResponse ++
      (self.bufferEvent parts event).awaitingBackoff = upload.toList
    rw [bufferEvent_eq]
    exact hupload
  | configured provider notified hsends =>
    obtain ⟨upload, hupload, hself⟩ := hself
    have hstep : Housekeeping parts (upload = none) self
        (self.withProvider parts provider notified) := .provider self provider notified
    refine ⟨upload, ?_, hI.housekeeping hstep hself⟩
    rw [ofOutcome, (sameAwaiting_housekeeping hstep).waiting_eq, hupload]
  | requested =>
    obtain ⟨upload, hupload, hself⟩ := hself
    have hsame := sameAwaiting_housekept
      (dequeueAndDoUpload_housekept parts (self.enqueued gMaxsize))
    exact ⟨upload, hsame.waiting_eq.trans hupload, hI.requested hupload hself hok⟩
  | timerFired =>
    obtain ⟨upload, hupload, hself⟩ := hself
    have hsame := sameAwaiting_housekept
      (dequeueAndDoUpload_housekept parts
        ((self.getEnvironment parts).enqueued maxRequestPayload))
    have hreloaded := sameAwaiting_housekept
      (getEnvironment_housekept parts True self)
    exact ⟨upload, hsame.waiting_eq.trans (hreloaded.waiting_eq.trans hupload),
      hI.timerFired hupload hself hok⟩
  | checkedWhileBusy hbusy =>
    exact hI.inFlight_same (sameContents_checkCompleted self) ⟨rfl, rfl⟩ hself
  | checkedEmptyQueue hchecks hidle hqueue =>
    exact hI.inFlight_same (sameContents_checkCompleted self) ⟨rfl, rfl⟩ hself
  | unreachableEmptyQueue hchecks hidle hqueue =>
    have hkept : Housekept parts True self.checkCompleted
        (self.checkCompleted.flushToPersistentCache parts) := .single (.flush _ trivial)
    exact hI.inFlight_checked hself hidle (sameContents_checkCompleted self) ⟨rfl, rfl⟩
      (hkept.trans ((handleUploadFinished_housekept _).mono fun _ => trivial))
  | @unreachable fault uploadTask rest hchecks hidle hqueue =>
    have hkept : Housekept parts True (self.popped rest)
        (((self.popped rest).flushToPersistentCache parts).log
          (.returned uploadTask.taskId .unreachable)) :=
      (Relation.ReflTransGen.single (.flush _ trivial)).tail (.returned _ _ _)
    exact hI.inFlight_checked hself hidle (sameContents_popped self rest) ⟨rfl, rfl⟩
      (hkept.trans ((handleUploadFinished_housekept _).mono fun _ => trivial))
  | @noTimestamps uploadTask rest hchecks hidle hqueue =>
    exact hI.inFlight_notStarted hself hidle uploadTask rest
  | @started fault uploadTask request rest entering outcome hchecks hidle hqueue hfault hbody
      hsending =>
    exact hI.inFlight_started hself hidle hbody hsending
  | @removedPastEnd taskId uploadTask abort hfind hlive hremove =>
    have hid := taskId_of_find hfind
    subst hid
    exact hI.inFlight_removedPastEnd hself hfind hlive hremove
  | @uploaded taskId uploadTask removed hfind hlive hremove =>
    have hid := taskId_of_find hfind
    subst hid
    exact hI.inFlight_uploaded hself hfind hlive hremove _
  | @gaveUp taskId uploadTask response hfind hends hretry cancelledUploads result =>
    obtain ⟨upload, hupload, hself⟩ := hself
    obtain ⟨rfl, hbackoff, hfilter⟩ := eq_of_find hupload hfind
    have hreceived := hI.same (sameContents_responseReceived self taskId) (hI.ended hself)
    exact hI.inFlight_finished hreceived ⟨hfilter, hbackoff⟩ cancelledUploads _ result
  | @retried taskId uploadTask hfind hlive hattempts => exact hI.inFlight_retried hself hfind
  | @backoffGaveUp taskId uploadTask hfind =>
    obtain ⟨upload, hupload, hself⟩ := hself
    obtain ⟨rfl, hresponse, hfilter⟩ := eq_of_find (append_toList_comm hupload) hfind
    have hover := hI.same (sameContents_backoffOver self taskId) (hI.ended hself)
    exact hI.inFlight_finished hover ⟨hresponse, hfilter⟩ self.cancelledUploads _ _
  | @backoffSent taskId uploadTask fault outcome hfind hfault hsending =>
    have hid := taskId_of_find hfind
    subst hid
    exact hI.inFlight_sentAgain hself hfind hfault hok hsending

theorem inFlight_new (hI : UploadInvariant parts ok I)
    {permissionsProvider : EmerPermissionsProvider} {persistentCache : κ} {maxBytesBuffered : Nat}
    (hinitial : I none (initial permissionsProvider persistentCache maxBytesBuffered))
    (pastEvents : List ε) :
    InFlight I (new parts permissionsProvider persistentCache maxBytesBuffered pastEvents) := by
  have hnew : I none (new parts permissionsProvider persistentCache maxBytesBuffered pastEvents) ∧
      SameAwaiting (initial permissionsProvider persistentCache maxBytesBuffered)
        (new parts permissionsProvider persistentCache maxBytesBuffered pastEvents) := by
    apply new_keeps (I := fun self => I none self ∧
      SameAwaiting (initial permissionsProvider persistentCache maxBytesBuffered) self)
    · exact ⟨hinitial, rfl, rfl⟩
    · rintro self event ⟨hself, hsame⟩
      rw [recordEvent]
      split
      · rename_i hrecording
        refine ⟨hI.recorded hself hrecording, ?_⟩
        rw [bufferEvent_eq]
        exact hsame
      · exact ⟨hself, hsame⟩
    · rintro self provider notified ⟨hself, hsame⟩
      have hstep : Housekeeping parts ((none : Option (UploadTask ε)) = none) self
          (self.withProvider parts provider notified) := .provider self provider notified
      obtain ⟨hresponse, hbackoff⟩ := sameAwaiting_housekeeping hstep
      exact ⟨hI.housekeeping hstep hself, hresponse.trans hsame.1, hbackoff.trans hsame.2⟩
  refine ⟨none, ?_, hnew.1⟩
  rw [hnew.2.waiting_eq]
  rfl

/-- **Run rule.**  An invariant of the upload in flight holds throughout a run whose events all meet
the condition. -/
theorem throughout (hI : UploadInvariant parts ok I)
    {permissionsProvider : EmerPermissionsProvider} {persistentCache : κ} {maxBytesBuffered : Nat}
    (hinitial : I none (initial permissionsProvider persistentCache maxBytesBuffered))
    {pastEvents : List ε} {events : List (DaemonEvent ε)}
    (hok : EachStep (step parts) (Meets ok)
      (.ok (new parts permissionsProvider persistentCache maxBytesBuffered pastEvents)) events) :
    Throughout (step parts) (fun outcome => InFlight I (ofOutcome outcome))
      (.ok (new parts permissionsProvider persistentCache maxBytesBuffered pastEvents)) events := by
  have hnew : InFlight I (ofOutcome (.ok
      (new parts permissionsProvider persistentCache maxBytesBuffered pastEvents))) :=
    hI.inFlight_new hinitial pastEvents
  apply throughout_of_step (I := fun outcome => InFlight I (ofOutcome outcome)) _ hnew hok
  intro outcome event houtcome hmeets
  cases outcome with
  | error abort => exact houtcome
  | ok self => exact hI.handled (handle_handled parts self event) houtcome hmeets

end UploadInvariant

end EmerDaemon

end EventRecorder
