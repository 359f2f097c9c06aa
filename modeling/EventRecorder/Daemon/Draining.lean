import EventRecorder.Daemon.Delivery
import EventRecorder.Daemon.Scheduling

/-!
# What waits can be delivered

Whatever has happened, once the configuration permits uploading and stays as it is, the timer and a
network without failures are enough for everything that waits to reach the server.
-/

namespace EventRecorder

open Theory

/-- Getting the URL reads what getting the environment reads, or nothing. -/
theorem EmerPermissionsProvider.getServerUrl_fixed {self : EmerPermissionsProvider}
    (h : self.getEnvironment.2.1 = self) : self.getServerUrl.2.1 = self := by
  unfold EmerPermissionsProvider.getServerUrl
  dsimp only
  split
  · exact h
  · rfl

namespace EmerDaemon

variable {κ ε : Type*} {parts : DaemonParts κ ε} {self next : EmerDaemon κ ε}

/-! ## 1. A steady configuration -/

variable (parts) in
/-- Uploads are permitted, and reading the configuration again changes nothing about that. -/
structure Steady (daemon : EmerDaemon κ ε) : Prop where
  recording : daemon.recordingEnabled = true
  enabled : daemon.permissionsProvider.getDaemonEnabled = true
  uploading : daemon.permissionsProvider.getUploadingEnabled = true
  fixed : daemon.permissionsProvider.getEnvironment.2.1 = daemon.permissionsProvider
  pingSocket : parts.parsesPingSocket daemon.permissionsProvider.getServerUrl.1 = true
  httpRequestUrl : parts.parsesHttpRequestUrl daemon.permissionsProvider.getServerUrl.1 = true

namespace Steady

theorem permits (h : self.Steady parts) : self.Permits :=
  ⟨h.recording, h.uploading⟩

/-- Only the permissions matter. -/
theorem same (h : self.Steady parts) (hrecording : next.recordingEnabled = self.recordingEnabled)
    (hprovider : next.permissionsProvider = self.permissionsProvider) : next.Steady parts := by
  obtain ⟨recording, enabled, uploading, fixed, pingSocket, httpRequestUrl⟩ := h
  rw [← hprovider] at enabled uploading fixed pingSocket httpRequestUrl
  exact ⟨hrecording.trans recording, enabled, uploading, fixed, pingSocket, httpRequestUrl⟩

theorem withProvider (h : self.Steady parts) (notified : List ProviderProperty) :
    self.withProvider parts self.permissionsProvider notified = self := by
  have hrecording := h.recording
  unfold EmerDaemon.withProvider onPermissionsChanged
  dsimp only
  rw [if_pos h.enabled]
  split
  · rw [← hrecording]
  · rfl

theorem getEnvironment (h : self.Steady parts) : self.getEnvironment parts = self := by
  unfold EmerDaemon.getEnvironment
  dsimp only
  rw [h.fixed]
  exact h.withProvider _

theorem getServerUrl (h : self.Steady parts) :
    self.getServerUrl parts = (self.permissionsProvider.getServerUrl.1, self) := by
  unfold EmerDaemon.getServerUrl
  dsimp only
  rw [EmerPermissionsProvider.getServerUrl_fixed h.fixed, h.withProvider]

theorem getPingSocket (h : self.Steady parts) : self.getPingSocket parts = .ok self := by
  unfold EmerDaemon.getPingSocket
  rw [h.getServerUrl]
  exact if_pos h.pingSocket

theorem getHttpRequestUrl (h : self.Steady parts) : self.getHttpRequestUrl parts = .ok self := by
  unfold EmerDaemon.getHttpRequestUrl
  rw [h.getServerUrl]
  exact if_pos h.httpRequestUrl

theorem dequeueAndDoUpload (h : self.Steady parts) :
    self.dequeueAndDoUpload parts =
      .ok { self with outstandingChecks := self.outstandingChecks + 1 } := by
  rw [EmerDaemon.dequeueAndDoUpload, dequeueFrom_of_permits h.permits, h.getPingSocket]
  rfl

/-- The end of an upload starts a check for the tasks that are left. -/
theorem finishNetworkCallback (h : self.Steady parts) :
    ∃ outstandingChecks, self.finishNetworkCallback parts =
      .ok { self with currentUpload := none, outstandingChecks := outstandingChecks } := by
  have hfinished : self.finished.Steady parts := h.same rfl rfl
  unfold EmerDaemon.finishNetworkCallback handleUploadFinished
  split
  · exact ⟨_, rfl⟩
  · exact ⟨_, hfinished.dequeueAndDoUpload⟩

/-- A check completes while no upload is under way and a task is queued. -/
theorem canReach_started (h : self.Steady parts) (hidle : self.currentUpload = none)
    (hchecks : self.outstandingChecks ≠ 0) {uploadTask request : UploadTask ε}
    {rest : List (UploadTask ε)} (hqueue : self.uploadQueue = uploadTask :: rest)
    (hbody : (self.popped rest).createRequestBody parts uploadTask true =
      (some request, self.popped rest)) :
    self.handle parts (.canReach true .none) =
      .ok { { self.popped rest with currentUpload := some request.taskId }.entered request with
        awaitingResponse := self.awaitingResponse ++ [request] } := by
  have hentered :
      ({ self.popped rest with currentUpload := some request.taskId }.entered request).Steady
        parts := h.same rfl rfl
  have hnone : ¬ self.checkCompleted.currentUpload.isSome = true := by
    show ¬ self.currentUpload.isSome = true
    rw [hidle]
    exact Bool.false_ne_true
  rw [handle, if_neg hchecks]
  show self.checkCompleted.handleNetworkMonitorCanReach parts true .none = _
  unfold handleNetworkMonitorCanReach
  rw [if_neg hnone, show self.checkCompleted.uploadQueue = uploadTask :: rest from hqueue]
  dsimp only
  have hbody' : createRequestBody parts { self.checkCompleted with uploadQueue := rest } uploadTask
      (decide (RequestFault.none ≠ .timestamps)) = (some request, self.popped rest) := hbody
  rw [if_neg (by decide), hbody']
  show (({ self.popped rest with currentUpload := some request.taskId }.entered
    request).getHttpRequestUrl parts).map _ = _
  rw [hentered.getHttpRequestUrl]
  rfl

theorem requestKeepsFront (h : self.Steady parts) : self.RequestKeepsFront parts .uploadTimer := by
  show (self.getEnvironment parts).FlushKeepsFront parts
  rw [h.getEnvironment]
  intro hflushes
  have huploading := h.uploading
  rw [hflushes.2] at huploading
  cases huploading

theorem uploadTimer (h : self.Steady parts) :
    self.handle parts .uploadTimer = .ok { self.enqueued maxRequestPayload with
      outstandingChecks := self.outstandingChecks + 1 } := by
  have hqueued : (self.enqueued maxRequestPayload).Steady parts := h.same rfl rfl
  show ((self.getEnvironment parts).enqueued maxRequestPayload).dequeueAndDoUpload parts = _
  rw [h.getEnvironment]
  exact hqueued.dequeueAndDoUpload

end Steady

/-! ## 2. The sizes of requests -/

/-- The numbers and sizes of the queued tasks. -/
def QueuedAll (P : Nat → Nat → Prop) (self : EmerDaemon κ ε) : Prop :=
  ∀ uploadTask ∈ self.uploadQueue, P uploadTask.taskId uploadTask.maxUploadSize

namespace QueuedAll

variable {P : Nat → Nat → Prop}

theorem of_subset (h : self.QueuedAll P) (hqueue : next.uploadQueue ⊆ self.uploadQueue) :
    next.QueuedAll P :=
  fun uploadTask hmem => h uploadTask (hqueue hmem)

theorem of_eq (h : self.QueuedAll P) (hqueue : next.uploadQueue = self.uploadQueue) :
    next.QueuedAll P :=
  h.of_subset (hqueue ▸ List.Subset.refl _)

theorem enqueued (h : self.QueuedAll P) {maxUploadSize : Nat}
    (hsize : P self.nextTaskId maxUploadSize) : (self.enqueued maxUploadSize).QueuedAll P := by
  intro uploadTask hmem
  rcases List.mem_append.mp hmem with hmem | hmem
  · exact h uploadTask hmem
  · rw [List.mem_singleton.mp hmem]
    exact hsize

/-- The queue is kept or emptied. -/
theorem dequeueAndDoUpload (h : self.QueuedAll P) :
    (ofOutcome (self.dequeueAndDoUpload parts)).QueuedAll P := by
  have hurl := (sameTasks_withProvider parts self
    self.permissionsProvider.getServerUrl.2.1 self.permissionsProvider.getServerUrl.2.2).queue
  by_cases hpermits : self.Permits
  · rw [EmerDaemon.dequeueAndDoUpload, dequeueFrom_of_permits hpermits, getPingSocket]
    dsimp only
    split
    · exact h.of_eq hurl
    · exact h.of_eq hurl
  · obtain ⟨drained, hdrained, hempty, -⟩ := dequeueFrom_of_not_permits parts hpermits rfl
    rw [EmerDaemon.dequeueAndDoUpload, hdrained]
    intro uploadTask hmem
    rw [ofOutcome, hempty] at hmem
    cases hmem

theorem handleUploadFinished (h : self.QueuedAll P) :
    (ofOutcome (self.handleUploadFinished parts)).QueuedAll P := by
  unfold EmerDaemon.handleUploadFinished
  split
  · exact h
  · exact h.dequeueAndDoUpload

theorem finishNetworkCallback (h : self.QueuedAll P) :
    (ofOutcome (self.finishNetworkCallback parts)).QueuedAll P := by
  have hfinished : self.finished.QueuedAll P := h
  exact hfinished.handleUploadFinished

theorem sending (h : self.QueuedAll P) {uploadTask : UploadTask ε} {fault : RequestFault}
    {outcome : Outcome κ ε} (hsending : Sending parts self uploadTask fault outcome) :
    (ofOutcome outcome).QueuedAll P := by
  have hurl := (sameTasks_withProvider parts self
    self.permissionsProvider.getServerUrl.2.1 self.permissionsProvider.getServerUrl.2.2).queue
  cases hsending with
  | gaveUp hfault result =>
    have hreturned : (self.log (.returned uploadTask.taskId result)).QueuedAll P := h
    exact hreturned.finishNetworkCallback
  | sent hnext =>
    subst hnext
    exact h.of_eq hurl
  | aborted abort => exact h.of_eq hurl

/-- **Step lemma.** -/
theorem handled (h : self.QueuedAll P) {event : DaemonEvent ε} {outcome : Outcome κ ε}
    (hrequested : event = .uploadEvents → P self.nextTaskId gMaxsize)
    (htimer : event = .uploadTimer → P self.nextTaskId maxRequestPayload)
    (hhandled : Handled parts self event outcome) : (ofOutcome outcome).QueuedAll P := by
  cases hhandled with
  | ignored hsends => exact h
  | recorded hrecording => exact h.of_eq (sameTasks_bufferEvent parts self _).queue
  | configured provider notified hsends =>
    exact h.of_eq (sameTasks_withProvider parts self provider notified).queue
  | requested => exact (h.enqueued (hrequested rfl)).dequeueAndDoUpload
  | timerFired =>
    have hsame : SameTasks self (self.getEnvironment parts) := sameTasks_withProvider parts self _ _
    have hreloaded : (self.getEnvironment parts).QueuedAll P := h.of_eq hsame.queue
    have hsize := htimer rfl
    rw [← hsame.nextTaskId] at hsize
    exact (hreloaded.enqueued hsize).dequeueAndDoUpload
  | checkedWhileBusy hbusy => exact h
  | checkedEmptyQueue hchecks hidle hqueue => exact h
  | unreachableEmptyQueue hchecks hidle hqueue =>
    have hflushed : (self.checkCompleted.flushToPersistentCache parts).QueuedAll P :=
      h.of_eq (sameTasks_flush parts self.checkCompleted).queue
    exact hflushed.handleUploadFinished
  | @unreachable fault uploadTask rest hchecks hidle hqueue =>
    have hpopped : (self.popped rest).QueuedAll P :=
      h.of_subset (hqueue ▸ List.subset_cons_self _ _)
    have hreturned : (((self.popped rest).flushToPersistentCache parts).log
        (.returned uploadTask.taskId .unreachable)).QueuedAll P :=
      hpopped.of_eq (sameTasks_flush parts (self.popped rest)).queue
    exact hreturned.handleUploadFinished
  | @noTimestamps uploadTask rest hchecks hidle hqueue =>
    have hpopped : (self.popped rest).QueuedAll P :=
      h.of_subset (hqueue ▸ List.subset_cons_self _ _)
    have hreturned : (((self.popped rest).createRequestBody parts uploadTask false).2.log
        (.returned uploadTask.taskId .noTimestamps)).QueuedAll P :=
      hpopped.of_eq (sameTasks_createRequestBody parts (self.popped rest) uploadTask false).queue
    exact hreturned.handleUploadFinished
  | @started fault uploadTask request rest entering outcome hchecks hidle hqueue hfault hbody
      hsending =>
    have hpopped : (self.popped rest).QueuedAll P :=
      h.of_subset (hqueue ▸ List.subset_cons_self _ _)
    have hsame := (sameTasks_createRequestBody parts (self.popped rest) uploadTask true).queue
    rw [hbody] at hsame
    have hentered :
        ({ entering with currentUpload := some request.taskId }.entered request).QueuedAll P :=
      hpopped.of_eq hsame
    exact hentered.sending hsending
  | @removedPastEnd taskId uploadTask abort hfind hlive hremove =>
    obtain ⟨rfl, -⟩ := removeEvents_eq_error hremove
    exact h
  | @uploaded taskId uploadTask removed hfind hlive hremove =>
    obtain ⟨buffer, -, rfl⟩ := removeEvents_eq_ok hremove
    have hremoved : QueuedAll P { self.acknowledged parts uploadTask with buffer := buffer } := h
    have hreturned : (({ self.acknowledged parts uploadTask with
        buffer := buffer }.flushToPersistentCache parts).log
          (.returned uploadTask.taskId .uploaded)).QueuedAll P :=
      hremoved.of_eq (sameTasks_flush parts _).queue
    exact hreturned.finishNetworkCallback
  | @gaveUp taskId uploadTask response hfind hends hretry cancelledUploads result =>
    have hreturned : ({ self.responseReceived taskId with
        cancelledUploads := cancelledUploads }.log
          (.returned uploadTask.taskId result)).QueuedAll P := h
    exact hreturned.finishNetworkCallback
  | retried hfind hlive hattempts => exact h
  | @backoffGaveUp taskId uploadTask hfind =>
    have hreturned : ((self.backoffOver taskId).log
        (.returned uploadTask.taskId .noTimestamps)).QueuedAll P := h
    exact hreturned.finishNetworkCallback
  | @backoffSent taskId uploadTask fault outcome hfind hfault hsending =>
    have hentered : ((self.backoffOver taskId).entered uploadTask).QueuedAll P := h
    exact hentered.sending hsending

end QueuedAll

/-- A task may hold whatever single event the buffer takes. -/
def TaskSized (_taskId maxUploadSize : Nat) : Prop :=
  maxRequestPayload ≤ maxUploadSize ∧ maxUploadSize < 2 ^ 64

/-! ## 3. What a run keeps -/

variable {Contents : κ → List ε → Prop} {fits : List ε → List ε → Nat} {token : List ε → Nat}
  {start : List ε}

/-- What holds between two events of a run that keeps the front of the buffer. -/
structure Drainable (parts : DaemonParts κ ε) (Contents : κ → List ε → Prop)
    (token : List ε → Nat) (start : List ε) (daemon : EmerDaemon κ ε) : Prop where
  settled : daemon.Settled
  accounted : InFlight
    (fun upload self => ∃ cached, Accounted Contents token start cached upload self) daemon
  sendable : InFlight
    (Sendable parts (LawfulCache.AllOf Contents) (LawfulCache.TokenOf Contents token)) daemon
  sized : daemon.QueuedAll TaskSized

namespace Drainable

/-- **Step lemma.** -/
theorem handled (hlaws : LawfulCache parts.cache Contents fits token)
    (h : Drainable parts Contents token start self) {event : DaemonEvent ε}
    (hkeeps : self.RequestKeepsFront parts event) (hok : self.handle parts event = .ok next) :
    Drainable parts Contents token start next := by
  have hhandled := handle_handled parts self event
  have hnext : ofOutcome (self.handle parts event) = next := by
    rw [hok]
    rfl
  rw [← hnext]
  exact ⟨hnext ▸ (h.settled.handled hhandled).settled next hok,
    (accounted_uploadInvariant hlaws start).handled hhandled h.accounted hkeeps,
    (sendable_uploadInvariant hlaws.confined).handled hhandled h.sendable trivial,
    h.sized.handled (fun _ => ⟨by decide, by decide⟩) (fun _ => ⟨by decide, by decide⟩) hhandled⟩

theorem new (hlaws : LawfulCache parts.cache Contents fits token)
    (permissionsProvider : EmerPermissionsProvider) {persistentCache : κ}
    (hstart : Contents persistentCache start)
    (hsmall : ∀ event ∈ start, parts.cost event ≤ maxRequestPayload) {maxBytesBuffered : Nat}
    (hlimit : maxBytesBuffered + maxRequestPayload < 2 ^ 64) (pastEvents : List ε) :
    Drainable parts Contents token start
      (EmerDaemon.new parts permissionsProvider persistentCache maxBytesBuffered pastEvents) := by
  refine ⟨settled_new parts permissionsProvider persistentCache maxBytesBuffered pastEvents, ?_, ?_,
    ?_⟩
  · apply (accounted_uploadInvariant hlaws start).inFlight_new
    exact ⟨start, hstart, by simp [initial, Ledger.ofTrace], by simp, by simp⟩
  · apply (sendable_uploadInvariant hlaws.confined).inFlight_new
    exact ⟨⟨rfl, Nat.zero_le _, by simp [initial], hlimit⟩, ⟨start, hstart, hsmall⟩, by simp,
      by simp⟩
  · apply new_keeps (I := QueuedAll TaskSized)
    · intro uploadTask hmem
      cases hmem
    · exact fun self event h => h.of_eq (sameTasks_recordEvent parts self event).queue
    · exact fun self provider notified h =>
        h.of_eq (sameTasks_withProvider parts self provider notified).queue

/-- **Run lemma.** -/
theorem reached (hlaws : LawfulCache parts.cache Contents fits token)
    {events : List (DaemonEvent ε)} {outcome : Outcome κ ε}
    (h : ∀ self, outcome = .ok self → Drainable parts Contents token start self)
    (hkeeps : EachStep (step parts) (Meets (RequestKeepsFront parts)) outcome events)
    {reached : EmerDaemon κ ε} (hreached : run (step parts) outcome events = .ok reached) :
    Drainable parts Contents token start reached := by
  have hstep : ∀ (outcome : Outcome κ ε) (event : DaemonEvent ε),
      (∀ self, outcome = .ok self → Drainable parts Contents token start self) →
      Meets (RequestKeepsFront parts) outcome event →
      ∀ self, step parts outcome event = .ok self →
        Drainable parts Contents token start self := by
    intro outcome event hstate hmeets self hok
    cases outcome with
    | error abort => cases hok
    | ok before => exact (hstate before rfl).handled hlaws hmeets hok
  have hrun := throughout_of_step hstep h hkeeps
  exact hrun.last reached hreached

end Drainable

/-! ## 4. Stretches without recording and opting out -/

/-- Whether an action leaves what is kept as it is. -/
def KeepsLedger : Action ε → Prop
  | .accepted _ | .optedOut => False
  | .queueHttpRequest .. | .acknowledged .. | .returned .. => True

/-- Nothing is recorded or discarded on the way. -/
def Smooth (self next : EmerDaemon κ ε) : Prop :=
  ∃ actions, next.trace = self.trace ++ actions ∧ ∀ action ∈ actions, KeepsLedger action

namespace Smooth

theorem refl (self : EmerDaemon κ ε) : Smooth self self :=
  ⟨[], (List.append_nil _).symm, by simp⟩

theorem trans {first second third : EmerDaemon κ ε} (h : Smooth first second)
    (h' : Smooth second third) : Smooth first third := by
  obtain ⟨actions, htrace, hkeeps⟩ := h
  obtain ⟨actions', htrace', hkeeps'⟩ := h'
  refine ⟨actions ++ actions', by rw [htrace', htrace, List.append_assoc], ?_⟩
  intro action hmem
  rcases List.mem_append.mp hmem with hmem | hmem
  · exact hkeeps action hmem
  · exact hkeeps' action hmem

theorem kept_eq (h : Smooth self next) :
    (Ledger.ofTrace start next.trace).kept = (Ledger.ofTrace start self.trace).kept := by
  obtain ⟨actions, htrace, hkeeps⟩ := h
  rw [htrace]
  clear htrace
  induction actions using List.reverseRecOn with
  | nil => rw [List.append_nil]
  -- the last action changes nothing of what is kept
  | append_singleton actions action ih =>
    have hlast := hkeeps action (List.mem_append_right _ (List.mem_singleton_self action))
    rw [← List.append_assoc, Ledger.ofTrace_snoc]
    have hrest := ih fun action hmem => hkeeps action (List.mem_append_left _ hmem)
    cases action with
    | accepted event => exact hlast.elim
    | optedOut => exact hlast.elim
    | queueHttpRequest => exact hrest
    | acknowledged => exact hrest
    | returned => exact hrest

/-- What has been acknowledged since is what does not wait any more. -/
theorem balanced (h : Smooth self next) (hself : Drainable parts Contents token start self)
    (hnext : Drainable parts Contents token start next) :
    ∃ pending pending', Pending Contents self pending ∧ Pending Contents next pending' ∧
      (acknowledgedIn next.trace).flatten ++ pending' =
        (acknowledgedIn self.trace).flatten ++ pending := by
  obtain ⟨upload, -, cached, haccounted⟩ := hself.accounted
  obtain ⟨upload', -, cached', haccounted'⟩ := hnext.accounted
  refine ⟨_, _, ⟨cached, haccounted.contents, rfl⟩, ⟨cached', haccounted'.contents, rfl⟩, ?_⟩
  have hbefore := haccounted.balanced
  have hafter := haccounted'.balanced
  rw [h.kept_eq, ← hbefore, Ledger.acknowledged_ofTrace, Ledger.acknowledged_ofTrace] at hafter
  exact hafter

end Smooth

theorem Pending.unique (hlaws : LawfulCache parts.cache Contents fits token)
    {pending pending' : List ε} (h : Pending Contents self pending)
    (h' : Pending Contents self pending') : pending = pending' := by
  obtain ⟨cached, hcached, rfl⟩ := h
  obtain ⟨cached', hcached', rfl⟩ := h'
  rw [hlaws.unique hcached hcached']

theorem CurrentWaits.currentUpload_none (h : self.CurrentWaits) (hidle : self.waiting = []) :
    self.currentUpload = none := by
  obtain ⟨upload, hwaiting, hcurrent⟩ := h
  rw [hidle] at hwaiting
  cases upload with
  | none => exact hcurrent
  | some uploadTask => cases hwaiting

/-! ## 5. The steps of an upload that succeeds -/

/-- What the timer and a network without failures do. -/
def Succeeds (event : DaemonEvent ε) : Prop :=
  event = .uploadTimer ∨ event = .canReach true .none ∨
    (∃ taskId, event = .backoffTimer taskId .none) ∨
      ∃ taskId, event = .httpResponse taskId .successful

/-- The events of one upload. -/
theorem succeeds_round (taskId : Nat) :
    ∀ event ∈ ([.uploadTimer, .canReach true .none, .httpResponse taskId .successful] :
      List (DaemonEvent ε)), Succeeds event := by
  simp [Succeeds]

/-- One step of a stretch: the daemon goes on, still permitted to upload. -/
structure GoesOn (parts : DaemonParts κ ε) (Contents : κ → List ε → Prop) (token : List ε → Nat)
    (start : List ε) (before after : EmerDaemon κ ε) : Prop where
  drainable : Drainable parts Contents token start after
  steady : after.Steady parts
  smooth : Smooth before after

namespace Drainable

/-- The task whose timer expires is sent again. -/
theorem sentAgain (hlaws : LawfulCache parts.cache Contents fits token)
    (h : Drainable parts Contents token start self) (hsteady : self.Steady parts)
    {uploadTask : UploadTask ε} (hwaits : self.awaitingBackoff = [uploadTask]) :
    ∃ next, self.handle parts (.backoffTimer uploadTask.taskId .none) = .ok next ∧
      GoesOn parts Contents token start self next ∧ next.awaitingResponse = [uploadTask] ∧
      next.cancelledUploads = self.cancelledUploads ∧
      acknowledgedIn next.trace = acknowledgedIn self.trace := by
  have hfind : self.awaitingBackoff.find? (·.taskId = uploadTask.taskId) = some uploadTask := by
    rw [hwaits]
    simp
  obtain ⟨-, hnone, -⟩ := h.settled.current.ofBackoff hfind
  have hresponse : self.awaitingResponse = [] := (List.append_eq_nil_iff.mp hnone).1
  have hentered : ((self.backoffOver uploadTask.taskId).entered uploadTask).Steady parts :=
    hsteady.same rfl rfl
  have hhandle : self.handle parts (.backoffTimer uploadTask.taskId .none) =
      .ok { (self.backoffOver uploadTask.taskId).entered uploadTask with
        awaitingResponse := self.awaitingResponse ++ [uploadTask] } := by
    rw [handle, hfind]
    show (((self.backoffOver uploadTask.taskId).entered uploadTask).getHttpRequestUrl parts).map _ =
      _
    rw [hentered.getHttpRequestUrl]
    rfl
  refine ⟨_, hhandle, ⟨h.handled hlaws (by trivial) hhandle, hsteady.same rfl rfl, ?_⟩, ?_, rfl, ?_⟩
  · exact ⟨[_], rfl, by simp [KeepsLedger]⟩
  · dsimp only
    rw [hresponse]
    rfl
  · exact (acknowledgedIn_append self.trace [_]).trans (List.append_nil _)

/-- The timer makes an idle daemon send what waits first. -/
theorem sent (hlaws : LawfulCache parts.cache Contents fits token)
    (hreads : ReadsLongestPrefix parts Contents token)
    (h : Drainable parts Contents token start self) (hsteady : self.Steady parts)
    (hidle : self.waiting = []) :
    ∃ next request, run (step parts) (.ok self) [.uploadTimer, .canReach true .none] = .ok next ∧
      GoesOn parts Contents token start self next ∧ next.awaitingResponse = [request] ∧
      next.cancelledUploads = self.cancelledUploads ∧
      acknowledgedIn next.trace = acknowledgedIn self.trace ∧
      ∀ pending, Pending Contents self pending → pending ≠ [] → request.requestBody ≠ [] := by
  let checked : EmerDaemon κ ε := { self.enqueued maxRequestPayload with
    outstandingChecks := self.outstandingChecks + 1 }
  have hchecked : checked.Steady parts := hsteady.same rfl rfl
  have htimer : self.handle parts .uploadTimer = .ok checked := hsteady.uploadTimer
  have hdrainable : Drainable parts Contents token start checked :=
    h.handled hlaws hsteady.requestKeepsFront htimer
  have hnocurrent : checked.currentUpload = none := h.settled.current.currentUpload_none hidle
  -- there is a task in the queue now, which is as large as any event that waits
  obtain ⟨uploadTask, rest, hqueue⟩ : ∃ uploadTask rest, checked.uploadQueue = uploadTask :: rest :=
    List.exists_cons_of_ne_nil (List.append_ne_nil_of_right_ne_nil _ (List.cons_ne_nil _ _))
  obtain ⟨hlarge, hsize⟩ := hdrainable.sized uploadTask (by rw [hqueue]; exact List.mem_cons_self)
  obtain ⟨upload, -, hsendable⟩ := hdrainable.sendable
  obtain ⟨contents, hcontents, hsmall⟩ := hsendable.cached
  obtain ⟨request, hcreated, hbody⟩ : ∃ request : UploadTask ε,
      (checked.popped rest).createRequestBody parts uploadTask true =
        (some request, checked.popped rest) ∧
      request.requestBody = takeWithin parts.cost uploadTask.maxUploadSize
        (contents ++ self.buffer.variantArray) := by
    have hpopped : Contents (checked.popped rest).persistentCache contents := hcontents
    obtain ⟨buffered, hbody, hcreated⟩ :=
      createRequestBody_eq_takeWithin hlaws hreads hpopped uploadTask hsize rfl
    exact ⟨_, hcreated, hbody⟩
  have hstarted := hchecked.canReach_started hnocurrent (Nat.succ_ne_zero _) hqueue hcreated
  have hnone : checked.awaitingResponse = [] := (List.append_eq_nil_iff.mp hidle).1
  rw [hnone, List.nil_append] at hstarted
  let next : EmerDaemon κ ε :=
    { { checked.popped rest with currentUpload := some request.taskId }.entered request with
      awaitingResponse := [request] }
  have hnext : Drainable parts Contents token start next :=
    hdrainable.handled hlaws (by trivial) hstarted
  have hsmooth : Smooth self next := ⟨[_], rfl, by simp [KeepsLedger]⟩
  have hrun : run (step parts) (.ok self) [.uploadTimer, .canReach true .none] = .ok next := by
    rw [run_cons, run_cons, run_nil]
    show step parts (self.handle parts .uploadTimer) _ = _
    rw [htimer]
    exact hstarted
  refine ⟨next, request, hrun, ⟨hnext, hchecked.same rfl rfl, hsmooth⟩, rfl, rfl, ?_, ?_⟩
  · exact (acknowledgedIn_append self.trace [_]).trans (List.append_nil _)
  -- what waits first costs no more than the task may hold
  · rintro pending ⟨cached, hcached, rfl⟩ hwaiting
    obtain rfl := hlaws.unique hcached hcontents
    have hfits : ∀ event ∈ cached ++ self.buffer.variantArray,
        parts.cost event ≤ uploadTask.maxUploadSize := by
      intro event hevent
      refine le_trans ?_ hlarge
      rcases List.mem_append.mp hevent with hevent | hevent
      · exact hsmall event hevent
      · exact hsendable.buffered.small event hevent
    rw [hbody]
    generalize cached ++ self.buffer.variantArray = waiting at hwaiting hfits
    cases waiting with
    | nil => exact absurd rfl hwaiting
    | cons event waiting =>
      rw [takeWithin, if_pos (hfits event List.mem_cons_self)]
      exact List.cons_ne_nil _ _

/-- The answer of the server to the request that waits. -/
theorem answered (hlaws : LawfulCache parts.cache Contents fits token)
    (h : Drainable parts Contents token start self) (hsteady : self.Steady parts)
    {uploadTask : UploadTask ε} (hwaits : self.awaitingResponse = [uploadTask]) :
    ∃ next, self.handle parts (.httpResponse uploadTask.taskId .successful) = .ok next ∧
      GoesOn parts Contents token start self next ∧ next.waiting = [] ∧
      (next.cancelledUploads.length < self.cancelledUploads.length ∧
          acknowledgedIn next.trace = acknowledgedIn self.trace ∨
        next.cancelledUploads = self.cancelledUploads ∧
          acknowledgedIn next.trace = acknowledgedIn self.trace ++ [uploadTask.requestBody]) := by
  have hfind : self.awaitingResponse.find? (·.taskId = uploadTask.taskId) = some uploadTask := by
    rw [hwaits]
    simp
  obtain ⟨-, hnone, -⟩ := h.settled.current.ofResponse hfind
  by_cases hcancelled : uploadTask.taskId ∈ self.cancelledUploads
  -- the cancellable is reset, and the upload ends
  · let reset : EmerDaemon κ ε := { self.responseReceived uploadTask.taskId with
      cancelledUploads := self.cancelledUploads.filter (· ≠ uploadTask.taskId) }
    have hhandle : self.handle parts (.httpResponse uploadTask.taskId .successful) =
        (reset.log (.returned uploadTask.taskId .uploaded)).finishNetworkCallback parts := by
      rw [handle, hfind]
      exact if_pos hcancelled
    have hreset : (reset.log (.returned uploadTask.taskId .uploaded)).Steady parts :=
      hsteady.same rfl rfl
    obtain ⟨checks, hfinish⟩ := hreset.finishNetworkCallback
    rw [hfinish] at hhandle
    refine ⟨_, hhandle, ⟨h.handled hlaws (by trivial) hhandle, hsteady.same rfl rfl, ?_⟩, hnone,
      .inl ⟨?_, (acknowledgedIn_append self.trace [_]).trans (List.append_nil _)⟩⟩
    · exact ⟨[_], rfl, by simp [KeepsLedger]⟩
    · exact List.length_filter_lt_length_iff_exists.mpr ⟨_, hcancelled, by simp⟩
  · obtain ⟨upload, hupload, cached, haccounted⟩ := h.accounted
    obtain ⟨rfl, -⟩ := find_of_waiting hupload (hwaits ▸ List.mem_singleton_self uploadTask)
    obtain ⟨-, more, removed, hremove, -, -⟩ := haccounted.acknowledged hlaws hcancelled
    have hhandle : self.handle parts (.httpResponse uploadTask.taskId .successful) =
        ((removed.flushToPersistentCache parts).log
          (.returned uploadTask.taskId .uploaded)).finishNetworkCallback parts := by
      rw [handle, hfind]
      dsimp only [handleHttpResponse]
      rw [if_neg hcancelled]
      rw [EmerDaemon.acknowledged, responseReceived] at hremove
      rw [hremove]
    obtain ⟨buffer, -, hremoved⟩ := removeEvents_eq_ok hremove
    obtain ⟨cache, buffer', hflush⟩ := flushToPersistentCache_eq parts removed
    have hflushed : ((removed.flushToPersistentCache parts).log
        (.returned uploadTask.taskId .uploaded)).Steady parts := by
      rw [hflush, hremoved]
      exact hsteady.same rfl rfl
    obtain ⟨checks, hfinish⟩ := hflushed.finishNetworkCallback
    rw [hfinish, hflush, hremoved] at hhandle
    refine ⟨_, hhandle, ⟨h.handled hlaws (by trivial) hhandle, hsteady.same rfl rfl, ?_⟩, hnone,
      .inr ⟨rfl, ?_⟩⟩
    · refine ⟨[.acknowledged uploadTask.requestBody, .returned uploadTask.taskId .uploaded], ?_, ?_⟩
      · exact List.append_assoc _ _ _
      · simp [KeepsLedger]
    · show acknowledgedIn (self.trace ++ [.acknowledged uploadTask.requestBody] ++
        [.returned uploadTask.taskId .uploaded]) = _
      rw [acknowledgedIn_append, acknowledgedIn_append]
      exact List.append_nil _

end Drainable

/-! ## 6. As many uploads as it takes -/

/-- No more than so many uploads are needed: one for each event, and one for each cancellable that
has not been reset. -/
def Remaining (Contents : κ → List ε → Prop) (self : EmerDaemon κ ε) (n : Nat) : Prop :=
  ∀ pending, Pending Contents self pending → pending.length + self.cancelledUploads.length ≤ n

theorem GoesOn.trans {first second third : EmerDaemon κ ε}
    (h : GoesOn parts Contents token start first second)
    (h' : GoesOn parts Contents token start second third) :
    GoesOn parts Contents token start first third :=
  ⟨h'.drainable, h'.steady, h.smooth.trans h'.smooth⟩

/-- An answer brings the end nearer, unless its request was empty. -/
theorem GoesOn.remaining (hlaws : LawfulCache parts.cache Contents fits token)
    (hself : Drainable parts Contents token start self)
    (h : GoesOn parts Contents token start self next) {body : List ε}
    (hanswer : next.cancelledUploads.length < self.cancelledUploads.length ∧
        acknowledgedIn next.trace = acknowledgedIn self.trace ∨
      next.cancelledUploads = self.cancelledUploads ∧
        acknowledgedIn next.trace = acknowledgedIn self.trace ++ [body])
    {n : Nat} (hremaining : Remaining Contents self n) (pending' : List ε)
    (hpending' : Pending Contents next pending') :
    pending'.length + next.cancelledUploads.length + min 1 body.length ≤ n := by
  obtain ⟨pending, after, hpending, hafter, hbalanced⟩ := h.smooth.balanced hself h.drainable
  obtain rfl := hpending'.unique hlaws hafter
  have hbound := hremaining pending hpending
  -- a cancellable has been reset, or the events of the body wait no more
  rcases hanswer with ⟨hreset, hsame⟩ | ⟨hsame, hmore⟩
  · rw [hsame] at hbalanced
    have hlength := congrArg List.length (List.append_cancel_left hbalanced)
    omega
  · rw [hmore, List.flatten_append, List.append_assoc] at hbalanced
    have hlength := congrArg List.length (List.append_cancel_left hbalanced)
    simp only [List.flatten_singleton, List.length_append] at hlength
    rw [hsame]
    omega

theorem Drainable.exists_pending (h : Drainable parts Contents token start self) :
    ∃ pending, Pending Contents self pending := by
  obtain ⟨upload, -, cached, haccounted⟩ := h.accounted
  exact ⟨_, cached, haccounted.contents, rfl⟩

theorem Drainable.goesOn_refl (h : Drainable parts Contents token start self)
    (hsteady : self.Steady parts) : GoesOn parts Contents token start self self :=
  ⟨h, hsteady, .refl self⟩

/-- The upload that is under way ends. -/
theorem Drainable.ends (hlaws : LawfulCache parts.cache Contents fits token)
    (h : Drainable parts Contents token start self) (hsteady : self.Steady parts) {n : Nat}
    (hremaining : Remaining Contents self n) :
    ∃ events next, (∀ event ∈ events, Succeeds event) ∧ events.length ≤ 2 ∧
      run (step parts) (.ok self) events = .ok next ∧
      GoesOn parts Contents token start self next ∧ next.waiting = [] ∧
      Remaining Contents next n := by
  obtain ⟨upload, hwaiting, -⟩ := h.settled.current
  cases upload with
  | none => exact ⟨[], self, by simp, by simp, rfl, h.goesOn_refl hsteady, hwaiting, hremaining⟩
  | some uploadTask =>
    -- it waits for its backoff to be over or for its response
    rcases List.append_eq_singleton_iff.mp hwaiting with ⟨-, hbackoff⟩ | ⟨hresponse, -⟩
    · obtain ⟨resent, hresent, hgoes, hwaits, hcancelled, hanswers⟩ :=
        h.sentAgain hlaws hsteady hbackoff
      obtain ⟨next, hnext, hgoes', hidle, hanswer⟩ :=
        hgoes.drainable.answered hlaws hgoes.steady hwaits
      rw [hcancelled, hanswers] at hanswer
      have hall := hgoes.trans hgoes'
      refine ⟨[.backoffTimer uploadTask.taskId .none, .httpResponse uploadTask.taskId .successful],
        next, by simp [Succeeds], by simp, ?_, hall, hidle, ?_⟩
      · rw [run_cons, run_cons, run_nil]
        show step parts (self.handle parts (.backoffTimer uploadTask.taskId .none)) _ = _
        rw [hresent]
        exact hnext
      · intro pending hpending
        have hbound := hall.remaining hlaws h hanswer hremaining pending hpending
        omega
    · obtain ⟨next, hnext, hgoes, hidle, hanswer⟩ := h.answered hlaws hsteady hresponse
      refine ⟨[.httpResponse uploadTask.taskId .successful], next, by simp [Succeeds], by simp,
        hnext, hgoes, hidle, ?_⟩
      intro pending hpending
      have hbound := hgoes.remaining hlaws h hanswer hremaining pending hpending
      omega

/-- An idle daemon sends one request after the other. -/
theorem Drainable.drained (hlaws : LawfulCache parts.cache Contents fits token)
    (hreads : ReadsLongestPrefix parts Contents token) {n : Nat}
    (h : Drainable parts Contents token start self) (hsteady : self.Steady parts)
    (hidle : self.waiting = []) (hremaining : Remaining Contents self n) :
    ∃ events final, (∀ event ∈ events, Succeeds event) ∧ events.length ≤ 3 * n ∧
      run (step parts) (.ok self) events = .ok final ∧
      GoesOn parts Contents token start self final ∧ Pending Contents final [] := by
  obtain ⟨pending, hpending⟩ := h.exists_pending
  -- induction on the uploads that remain
  induction n generalizing self pending with
  | zero =>
    have hnone : pending.length = 0 := by
      have hbound := hremaining pending hpending
      omega
    rw [List.eq_nil_of_length_eq_zero hnone] at hpending
    exact ⟨[], self, by simp, by simp, rfl, h.goesOn_refl hsteady, hpending⟩
  | succ n ih =>
    by_cases hnone : pending = []
    · rw [hnone] at hpending
      exact ⟨[], self, by simp, by simp, rfl, h.goesOn_refl hsteady, hpending⟩
    -- one more upload, which removes an event at least
    · obtain ⟨requested, request, hrun, hgoes, hwaits, hcancelled, hanswers, hbody⟩ :=
        h.sent hlaws hreads hsteady hidle
      obtain ⟨next, hnext, hgoes', hidle', hanswer⟩ :=
        hgoes.drainable.answered hlaws hgoes.steady hwaits
      rw [hcancelled, hanswers] at hanswer
      have hall := hgoes.trans hgoes'
      have hremaining' : Remaining Contents next n := by
        intro pending' hpending'
        have hbound := hall.remaining hlaws h hanswer hremaining pending' hpending'
        have hpos := List.length_pos_iff.mpr (hbody pending hpending hnone)
        omega
      obtain ⟨pending', hpending'⟩ := hall.drainable.exists_pending
      obtain ⟨events, final, hevents, hlength, hfinal, hgoes'', hempty⟩ :=
        ih hall.drainable hall.steady hidle' hremaining' pending' hpending'
      refine ⟨[.uploadTimer, .canReach true .none, .httpResponse request.taskId .successful] ++
        events, final, ?_, ?_, ?_, hall.trans hgoes'', hempty⟩
      · intro event hmem
        rcases List.mem_append.mp hmem with hmem | hmem
        · exact succeeds_round request.taskId event hmem
        · exact hevents event hmem
      · rw [List.length_append]
        simp only [List.length_cons, List.length_nil]
        omega
      · have hround : run (step parts) (.ok self)
            ([.uploadTimer, .canReach true .none] ++
              [.httpResponse request.taskId .successful]) = .ok next := by
          rw [run_append, hrun]
          exact hnext
        rw [run_append]
        show run (step parts) (run (step parts) (.ok self) ([.uploadTimer, .canReach true .none] ++
          [.httpResponse request.taskId .successful])) events = _
        rw [hround]
        exact hfinal

/-- **What waits can be delivered.**  From every state that a run reaches, if uploads are permitted
and stay so, the timer and a network without failures bring the daemon to a state in which nothing
waits and the server has acknowledged, in order, everything that waited. -/
theorem waiting_can_be_delivered (hlaws : LawfulCache parts.cache Contents fits token)
    (hreads : ReadsLongestPrefix parts Contents token)
    (permissionsProvider : EmerPermissionsProvider) {persistentCache : κ}
    (hstart : Contents persistentCache start)
    (hsmall : ∀ event ∈ start, parts.cost event ≤ maxRequestPayload) {maxBytesBuffered : Nat}
    (hlimit : maxBytesBuffered + maxRequestPayload < 2 ^ 64) (pastEvents : List ε)
    {events : List (DaemonEvent ε)}
    (hkeeps : EachStep (step parts) (Meets (RequestKeepsFront parts))
      (.ok (new parts permissionsProvider persistentCache maxBytesBuffered pastEvents)) events)
    (hreached : run (step parts)
      (.ok (new parts permissionsProvider persistentCache maxBytesBuffered pastEvents)) events =
        .ok self)
    (hsteady : self.Steady parts) {pending : List ε} (hpending : Pending Contents self pending) :
    ∃ more final, (∀ event ∈ more, Succeeds event) ∧
      more.length ≤ 3 * (pending.length + self.cancelledUploads.length) + 2 ∧
      run (step parts) (.ok self) more = .ok final ∧ Pending Contents final [] ∧
      (acknowledgedIn final.trace).flatten = (acknowledgedIn self.trace).flatten ++ pending := by
  have hnew := Drainable.new hlaws permissionsProvider hstart hsmall hlimit pastEvents
  have hself : Drainable parts Contents token start self := by
    apply Drainable.reached hlaws _ hkeeps hreached
    intro daemon hok
    cases hok
    exact hnew
  have hremaining : Remaining Contents self (pending.length + self.cancelledUploads.length) := by
    intro pending' hpending'
    rw [hpending'.unique hlaws hpending]
  obtain ⟨first, idle, hfirst, htwo, hidleRun, hgoes, hidle, hremaining'⟩ :=
    hself.ends hlaws hsteady hremaining
  obtain ⟨rest, final, hrest, hthree, hfinal, hgoes', hempty⟩ :=
    hgoes.drainable.drained hlaws hreads hgoes.steady hidle hremaining'
  obtain ⟨before, after, hbefore, hafter, hbalanced⟩ :=
    (hgoes.trans hgoes').smooth.balanced hself hgoes'.drainable
  rw [hbefore.unique hlaws hpending, hafter.unique hlaws hempty, List.append_nil] at hbalanced
  refine ⟨first ++ rest, final, ?_, ?_, ?_, hempty, hbalanced⟩
  · intro event hmem
    rcases List.mem_append.mp hmem with hmem | hmem
    · exact hfirst event hmem
    · exact hrest event hmem
  · rw [List.length_append]
    omega
  · rw [run_append, hidleRun]
    exact hfinal

/-- A daemon over the small cache whose first request has failed, with another event recorded. -/
def interruptedRun : List (DaemonEvent (StorableVariant eventVariants .little)) :=
  [.recordEvent smallEvent, .uploadTimer, .canReach true .none, .httpResponse 0 .retryable,
    .recordEvent smallEvent]

def interruptedDaemon : EmerDaemon EmerPersistentCache (StorableVariant eventVariants .little) :=
  ofOutcome (run (step (storingParts eventVariants .little (fun _ => true) fun _ => true))
    (.ok (new (storingParts eventVariants .little (fun _ => true) fun _ => true)
      (emerPermissionsProviderNew (.parsed sampleConfigFile) none) smallSyncedCache 100000 []))
    interruptedRun)

theorem waiting_can_be_delivered_interruptedRun :
    ∃ more final, (∀ event ∈ more, Succeeds event) ∧
      more.length ≤ 3 * (2 + interruptedDaemon.cancelledUploads.length) + 2 ∧
      run (step (storingParts eventVariants .little (fun _ => true) fun _ => true))
        (.ok interruptedDaemon) more = .ok final ∧
      Pending (EmerPersistentCache.SyncedContents 256) final
        ([] : List (StorableVariant eventVariants .little)) ∧
      (acknowledgedIn final.trace).flatten =
        (acknowledgedIn interruptedDaemon.trace).flatten ++ [smallEvent, smallEvent] :=
  @waiting_can_be_delivered _ _ (storingParts eventVariants .little (fun _ => true) fun _ => true)
    interruptedDaemon _ _ _ _ (EmerPersistentCache.lawful_synced (by decide))
    (storingParts_readsLongestPrefix eventVariants_lawful.swapKeepsSize 256)
    (emerPermissionsProviderNew (.parsed sampleConfigFile) none) _ smallSyncedCache_empty (by simp)
    100000 (by decide) [] interruptedRun (by decide +kernel) rfl
    ⟨by decide +kernel, by decide +kernel, by decide +kernel, rfl, rfl, rfl⟩ _
    ⟨[], smallSyncedCache_empty, rfl⟩

end EmerDaemon

end EventRecorder
