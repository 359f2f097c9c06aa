import EventRecorder.Daemon.CacheLaws
import EventRecorder.Daemon.Handlers

/-!
# Reachability checks and queued tasks

Each check that completes while no upload is in flight takes one task.  Checks are started without
regard to those under way, so that more of them can be outstanding than there are tasks.
-/

namespace EventRecorder

open Theory

namespace EmerDaemon

variable {κ ε : Type*} {parts : DaemonParts κ ε} {self next : EmerDaemon κ ε}

/-- Every check that is under way will find a task. -/
def Covered (self : EmerDaemon κ ε) : Prop :=
  self.outstandingChecks ≤ self.uploadQueue.length

/-- When a check is started there are fewer under way than tasks, and when the queue is emptied
there are none. -/
def DequeuesCovered (self : EmerDaemon κ ε) : Prop :=
  if self.Permits then self.outstandingChecks < self.uploadQueue.length
  else self.outstandingChecks = 0

instance (self : EmerDaemon κ ε) : Decidable self.DequeuesCovered :=
  inferInstanceAs (Decidable (if self.Permits then
    self.outstandingChecks < self.uploadQueue.length else self.outstandingChecks = 0))

variable (parts) in
/-- The state in which an event makes the daemon dequeue, as far as the queue, the checks and the
permissions go. -/
def dequeues (self : EmerDaemon κ ε) : DaemonEvent ε → Option (EmerDaemon κ ε)
  | .uploadEvents => some (self.enqueued gMaxsize)
  | .uploadTimer => some ((self.getEnvironment parts).enqueued maxRequestPayload)
  | .canReach reachable fault =>
    if 0 < self.outstandingChecks ∧ self.currentUpload = none ∧
        ¬ (reachable = true ∧ fault = .none) then
      match self.uploadQueue with
      | _ :: uploadTask :: rest => some (self.popped (uploadTask :: rest))
      | _ => none
    else none
  | .httpResponse taskId response =>
    match self.awaitingResponse.find? (·.taskId = taskId), self.uploadQueue with
    | some uploadTask, _ :: _ =>
      if response = .retryable ∧ uploadTask.taskId ∉ self.cancelledUploads ∧
          uploadTask.attemptNum + 1 < networkAttemptLimit then none
      else some self
    | _, _ => none
  | .backoffTimer taskId fault =>
    match self.awaitingBackoff.find? (·.taskId = taskId), self.uploadQueue with
    | some _, _ :: _ => if fault = .none then none else some self
    | _, _ => none
  | _ => none

variable (parts) in
/-- Whenever a task is dequeued the checks stay covered. -/
def StaysCovered : Outcome κ ε → DaemonEvent ε → Prop
  | .ok self, event => ∀ dequeuing ∈ self.dequeues parts event, dequeuing.DequeuesCovered
  | .error _, _ => True

instance (outcome : Outcome κ ε) (event : DaemonEvent ε) :
    Decidable (StaysCovered parts outcome event) :=
  match outcome with
  | .ok self => inferInstanceAs (Decidable (∀ dequeuing ∈ self.dequeues parts event,
      dequeuing.DequeuesCovered))
  | .error _ => isTrue trivial

/-- A check that completes while no upload is in flight finds a task. -/
def PopsTask : Outcome κ ε → DaemonEvent ε → Prop
  | .ok self, .canReach _ _ =>
    0 < self.outstandingChecks → self.currentUpload = none → self.uploadQueue ≠ []
  | _, _ => True

/-! ## 1. What dequeuing does to the counts -/

/-- The same queue, checks and permissions. -/
structure SameQueue (before after : EmerDaemon κ ε) : Prop where
  queue : after.uploadQueue = before.uploadQueue
  checks : after.outstandingChecks = before.outstandingChecks
  recording : after.recordingEnabled = before.recordingEnabled
  provider : after.permissionsProvider = before.permissionsProvider

theorem SameQueue.covered (h : SameQueue self next) (hcovered : self.Covered) : next.Covered := by
  rw [Covered, h.queue, h.checks]
  exact hcovered

theorem SameQueue.dequeuesCovered (h : SameQueue self next) (hcovered : self.DequeuesCovered) :
    next.DequeuesCovered := by
  have hpermits : next.Permits ↔ self.Permits := by
    rw [Permits, h.recording, h.provider, Permits]
  simp only [DequeuesCovered, hpermits, h.queue, h.checks]
  exact hcovered

variable (parts) in
theorem sameQueue_flush (self : EmerDaemon κ ε) :
    SameQueue self (self.flushToPersistentCache parts) := by
  obtain ⟨cache, buffer, hflush⟩ := flushToPersistentCache_eq parts self
  rw [hflush]
  exact ⟨rfl, rfl, rfl, rfl⟩

variable (parts) in
theorem sameQueue_createRequestBody (self : EmerDaemon κ ε) (uploadTask : UploadTask ε)
    (timestamps : Bool) :
    SameQueue self (self.createRequestBody parts uploadTask timestamps).2 := by
  obtain ⟨cache, hbody⟩ := createRequestBody_eq parts self uploadTask timestamps
  rw [hbody]
  exact ⟨rfl, rfl, rfl, rfl⟩

variable (parts) in
/-- Reading the configuration again touches neither the queue nor the checks. -/
theorem counts_withProvider (self : EmerDaemon κ ε) (provider : EmerPermissionsProvider)
    (notified : List ProviderProperty) :
    (self.withProvider parts provider notified).uploadQueue = self.uploadQueue ∧
      (self.withProvider parts provider notified).outstandingChecks = self.outstandingChecks := by
  rcases self.withProvider_cases parts provider notified with ⟨recording, -, h⟩ | h
  · rw [h]
    exact ⟨rfl, rfl⟩
  · rw [h]
    exact ⟨rfl, rfl⟩

theorem covered_withProvider (h : self.Covered) (provider : EmerPermissionsProvider)
    (notified : List ProviderProperty) :
    (self.withProvider parts provider notified).Covered := by
  obtain ⟨hqueue, hchecks⟩ := counts_withProvider parts self provider notified
  rw [Covered, hqueue, hchecks]
  exact h

theorem covered_dequeueAndDoUpload (h : self.DequeuesCovered)
    (hok : self.dequeueAndDoUpload parts = .ok next) : next.Covered := by
  rw [DequeuesCovered] at h
  by_cases hpermits : self.Permits
  · rw [if_pos hpermits] at h
    rw [dequeueAndDoUpload, dequeueFrom_of_permits hpermits] at hok
    -- one more check for the same queue
    have hcounts := counts_withProvider parts self
      self.permissionsProvider.getServerUrl.2.1 self.permissionsProvider.getServerUrl.2.2
    unfold getPingSocket at hok
    dsimp only at hok
    split at hok
    · cases hok
      show (self.getServerUrl parts).2.outstandingChecks + 1 ≤
        (self.getServerUrl parts).2.uploadQueue.length
      have hqueue : (self.getServerUrl parts).2.uploadQueue = self.uploadQueue := hcounts.1
      have hchecks : (self.getServerUrl parts).2.outstandingChecks = self.outstandingChecks :=
        hcounts.2
      rw [hqueue, hchecks]
      exact h
    · cases hok
  · rw [if_neg hpermits] at h
    -- the queue is emptied, which is harmless while no check is under way
    obtain ⟨drained, hdrained, hqueue, hchecks, -⟩ :=
      dequeueFrom_of_not_permits parts hpermits (rfl : self.uploadQueue = self.uploadQueue)
    rw [dequeueAndDoUpload, hdrained] at hok
    cases hok
    rw [Covered, hchecks, h]
    exact Nat.zero_le _

theorem covered_handleUploadFinished (hcovered : self.Covered)
    (hdequeues : self.uploadQueue ≠ [] → self.DequeuesCovered)
    (hok : self.handleUploadFinished parts = .ok next) : next.Covered := by
  unfold handleUploadFinished at hok
  split at hok
  · cases hok
    exact hcovered
  · rename_i head tail hqueue
    apply covered_dequeueAndDoUpload (hdequeues _) hok
    rw [hqueue]
    exact List.cons_ne_nil head tail

/-! ## 2. The invariant -/

theorem covered_returned {taskId : Nat} {result : UploadResult} {dequeuing : EmerDaemon κ ε}
    (hsame : SameQueue dequeuing self) (hcovered : dequeuing.Covered)
    (hdequeues : dequeuing.uploadQueue ≠ [] → dequeuing.DequeuesCovered)
    (hok : (self.log (.returned taskId result)).handleUploadFinished parts = .ok next) :
    next.Covered := by
  have hlog : SameQueue dequeuing (self.log (.returned taskId result)) :=
    ⟨hsame.queue, hsame.checks, hsame.recording, hsame.provider⟩
  apply covered_handleUploadFinished (hlog.covered hcovered) _ hok
  intro hqueue
  rw [hlog.queue] at hqueue
  exact hlog.dequeuesCovered (hdequeues hqueue)

theorem covered_finished {taskId : Nat} {result : UploadResult} {dequeuing : EmerDaemon κ ε}
    (hsame : SameQueue dequeuing self) (hcovered : dequeuing.Covered)
    (hdequeues : dequeuing.uploadQueue ≠ [] → dequeuing.DequeuesCovered)
    (hok : (self.log (.returned taskId result)).finishNetworkCallback parts = .ok next) :
    next.Covered :=
  have hfinished : SameQueue dequeuing self.finished :=
    ⟨hsame.queue, hsame.checks, hsame.recording, hsame.provider⟩
  covered_returned hfinished hcovered hdequeues hok

/-- The upload is not retried, and the next task is dequeued. -/
theorem covered_sending {uploadTask : UploadTask ε} {fault : RequestFault} {outcome : Outcome κ ε}
    {dequeuing : EmerDaemon κ ε} (h : Sending parts self uploadTask fault outcome)
    (hsame : SameQueue dequeuing self) (hcovered : dequeuing.Covered)
    (hdequeues : fault ≠ .none → dequeuing.uploadQueue ≠ [] → dequeuing.DequeuesCovered)
    (hok : outcome = .ok next) : next.Covered := by
  cases h with
  | gaveUp hfault result => exact covered_finished hsame hcovered (hdequeues hfault) hok
  | @sent sent hsent =>
    cases hok
    have hkept : sent.Covered := by
      rw [hsent]
      exact covered_withProvider (hsame.covered hcovered) _ _
    exact hkept
  | aborted abort => cases hok

theorem covered_popped {uploadTask : UploadTask ε} {rest : List (UploadTask ε)}
    (hcovered : self.Covered) (hqueue : self.uploadQueue = uploadTask :: rest) :
    (self.popped rest).Covered := by
  rw [Covered, hqueue, List.length_cons] at hcovered
  show self.outstandingChecks - 1 ≤ rest.length
  omega

theorem dequeues_canReach {reachable : Bool} {fault : RequestFault} {uploadTask : UploadTask ε}
    {rest : List (UploadTask ε)} (hchecks : 0 < self.outstandingChecks)
    (hidle : self.currentUpload = none) (hqueue : self.uploadQueue = uploadTask :: rest)
    (hfails : ¬ (reachable = true ∧ fault = .none))
    (hstays : ∀ dequeuing ∈ self.dequeues parts (.canReach reachable fault),
      dequeuing.DequeuesCovered) : rest ≠ [] → (self.popped rest).DequeuesCovered := by
  intro hrest
  cases rest with
  | nil => exact absurd rfl hrest
  | cons nextTask tasks =>
    apply hstays
    rw [dequeues, if_pos ⟨hchecks, hidle, hfails⟩, hqueue]
    rfl

theorem dequeues_httpResponse {taskId : Nat} {response : HttpOutcome} {uploadTask : UploadTask ε}
    (hfind : self.awaitingResponse.find? (·.taskId = taskId) = some uploadTask)
    (hends : ¬ (response = .retryable ∧ uploadTask.taskId ∉ self.cancelledUploads ∧
      uploadTask.attemptNum + 1 < networkAttemptLimit))
    (hstays : ∀ dequeuing ∈ self.dequeues parts (.httpResponse taskId response),
      dequeuing.DequeuesCovered) : self.uploadQueue ≠ [] → self.DequeuesCovered := by
  intro hqueue
  apply hstays
  rw [dequeues, hfind]
  cases hq : self.uploadQueue with
  | nil => exact absurd hq hqueue
  | cons head tail =>
    dsimp only
    rw [if_neg hends]
    rfl

theorem dequeues_backoffTimer {taskId : Nat} {fault : RequestFault} {uploadTask : UploadTask ε}
    (hfind : self.awaitingBackoff.find? (·.taskId = taskId) = some uploadTask)
    (hfault : fault ≠ .none)
    (hstays : ∀ dequeuing ∈ self.dequeues parts (.backoffTimer taskId fault),
      dequeuing.DequeuesCovered) : self.uploadQueue ≠ [] → self.DequeuesCovered := by
  intro hqueue
  apply hstays
  rw [dequeues, hfind]
  cases hq : self.uploadQueue with
  | nil => exact absurd hq hqueue
  | cons head tail =>
    dsimp only
    rw [if_neg hfault]
    rfl

/-- **Step lemma.** -/
theorem covered_handled {event : DaemonEvent ε} {outcome : Outcome κ ε}
    (h : Handled parts self event outcome) (hcovered : self.Covered)
    (hstays : ∀ dequeuing ∈ self.dequeues parts event, dequeuing.DequeuesCovered)
    (hok : outcome = .ok next) : next.Covered := by
  cases h with
  | ignored hsends =>
    cases hok
    exact hcovered
  | recorded hrecording =>
    cases hok
    rw [bufferEvent_eq]
    exact hcovered
  | configured provider notified hsends =>
    cases hok
    exact covered_withProvider hcovered provider notified
  | requested => exact covered_dequeueAndDoUpload (hstays _ rfl) hok
  | timerFired => exact covered_dequeueAndDoUpload (hstays _ rfl) hok
  | checkedWhileBusy hbusy =>
    cases hok
    exact (Nat.sub_le _ 1).trans hcovered
  | checkedEmptyQueue hchecks hidle hqueue => cases hok
  -- a check that is under way has a task to find
  | unreachableEmptyQueue hchecks hidle hqueue =>
    rw [Covered, hqueue] at hcovered
    exact absurd hchecks (Nat.not_lt.mpr hcovered)
  | @unreachable fault uploadTask rest hchecks hidle hqueue =>
    have hdequeues := dequeues_canReach hchecks hidle hqueue
      (fun hreach => Bool.false_ne_true hreach.1) hstays
    exact covered_returned (sameQueue_flush parts (self.popped rest))
      (covered_popped hcovered hqueue)
      hdequeues hok
  | @noTimestamps uploadTask rest hchecks hidle hqueue =>
    have hdequeues := dequeues_canReach hchecks hidle hqueue (fun hnone => by cases hnone.2) hstays
    exact covered_returned (sameQueue_createRequestBody parts (self.popped rest) uploadTask false)
      (covered_popped hcovered hqueue) hdequeues hok
  | @started fault uploadTask request rest entering outcome hchecks hidle hqueue hfault hbody
      hsending =>
    have hbuilt := sameQueue_createRequestBody parts (self.popped rest) uploadTask true
    rw [hbody] at hbuilt
    have hsame : SameQueue (self.popped rest)
        ({ entering with currentUpload := some request.taskId }.entered request) :=
      ⟨hbuilt.queue, hbuilt.checks, hbuilt.recording, hbuilt.provider⟩
    apply covered_sending hsending hsame (covered_popped hcovered hqueue) _ hok
    intro hnone
    exact dequeues_canReach hchecks hidle hqueue (fun h => hnone h.2) hstays
  | removedPastEnd hfind hlive hremove => cases hok
  | @uploaded taskId uploadTask removed hfind hlive hremove =>
    obtain ⟨buffer, -, hremoved⟩ := removeEvents_eq_ok hremove
    have hflush := sameQueue_flush parts removed
    -- neither the removal nor the flush touches the queue or the checks
    have hsame : SameQueue self (removed.flushToPersistentCache parts) := by
      rw [hremoved] at hflush ⊢
      exact ⟨hflush.queue, hflush.checks, hflush.recording, hflush.provider⟩
    have hdequeues := dequeues_httpResponse hfind (fun hretry => by cases hretry.1) hstays
    exact covered_finished hsame hcovered hdequeues hok
  | @gaveUp taskId uploadTask response hfind hends hretry cancelledUploads result =>
    have hdequeues : self.uploadQueue ≠ [] → self.DequeuesCovered := by
      apply dequeues_httpResponse hfind _ hstays
      rintro ⟨hresponse, hlive, hattempts⟩
      rcases hretry hresponse with hcancelled | hlimit
      · exact hlive hcancelled
      · omega
    have hsame : SameQueue self
        { self.responseReceived taskId with cancelledUploads := cancelledUploads } :=
      ⟨rfl, rfl, rfl, rfl⟩
    exact covered_finished hsame hcovered hdequeues hok
  | retried hfind hlive hattempts =>
    cases hok
    exact hcovered
  | @backoffGaveUp taskId uploadTask hfind =>
    have hdequeues := dequeues_backoffTimer hfind (fun h => by cases h) hstays
    have hsame : SameQueue self (self.backoffOver taskId) := ⟨rfl, rfl, rfl, rfl⟩
    exact covered_finished hsame hcovered hdequeues hok
  | @backoffSent taskId uploadTask fault outcome hfind hfault hsending =>
    have hsame : SameQueue self ((self.backoffOver taskId).entered uploadTask) :=
      ⟨rfl, rfl, rfl, rfl⟩
    apply covered_sending hsending hsame hcovered _ hok
    intro hnone
    exact dequeues_backoffTimer hfind hnone hstays

/-! ## 3. Runs -/

def CoveredOutcome : Outcome κ ε → Prop
  | .ok self => self.Covered
  | .error _ => True

theorem coveredOutcome_step {outcome : Outcome κ ε} {event : DaemonEvent ε}
    (h : CoveredOutcome outcome) (hstays : StaysCovered parts outcome event) :
    CoveredOutcome (step parts outcome event) := by
  cases outcome with
  | error abort => trivial
  | ok self =>
    have hhandled := handle_handled parts self event
    show CoveredOutcome (self.handle parts event)
    cases hnext : self.handle parts event with
    | error abort => trivial
    | ok next => exact covered_handled hhandled h hstays hnext

theorem covered_new (permissionsProvider : EmerPermissionsProvider) (persistentCache : κ)
    (maxBytesBuffered : Nat) (pastEvents : List ε) :
    (new parts permissionsProvider persistentCache maxBytesBuffered pastEvents).Covered := by
  apply new_keeps
  · exact Nat.zero_le _
  · intro self event hself
    rw [recordEvent]
    split
    · rw [bufferEvent_eq]
      exact hself
    · exact hself
  · exact fun _ provider notified hself => covered_withProvider hself provider notified

/-- In every run of the daemon in which checks are started and the queue is emptied only while the
checks under way stay covered by tasks, each check that completes while no upload is in flight
finds a task to pop. -/
theorem popsTask_of_staysCovered (parts : DaemonParts κ ε)
    (permissionsProvider : EmerPermissionsProvider) (persistentCache : κ)
    (maxBytesBuffered : Nat) (pastEvents : List ε) (events : List (DaemonEvent ε))
    (hstays : EachStep (step parts) (StaysCovered parts)
      (.ok (new parts permissionsProvider persistentCache maxBytesBuffered pastEvents)) events) :
    EachStep (step parts) PopsTask
      (.ok (new parts permissionsProvider persistentCache maxBytesBuffered pastEvents))
      events := by
  have hstart : CoveredOutcome
      (.ok (new parts permissionsProvider persistentCache maxBytesBuffered pastEvents)) :=
    covered_new permissionsProvider persistentCache maxBytesBuffered pastEvents
  have hcovered := throughout_of_step (fun _ _ => coveredOutcome_step) hstart hstays
  intro pre event hpre
  -- the checks are covered in the state that the event is taken from
  have hreached := hcovered pre ((List.prefix_append pre [event]).trans hpre)
  revert hreached
  cases run (step parts) _ pre with
  | error abort => exact fun _ => trivial
  | ok self =>
    intro hreached
    cases event with
    | canReach reachable fault =>
      intro hchecks _ hqueue
      have hreached : self.outstandingChecks ≤ self.uploadQueue.length := hreached
      rw [hqueue] at hreached
      exact absurd hchecks (Nat.not_lt.mpr hreached)
    | _ => trivial

instance (outcome : Outcome κ ε) (event : DaemonEvent ε) : Decidable (PopsTask outcome event) :=
  match outcome, event with
  | .ok self, .canReach _ _ =>
    inferInstanceAs (Decidable (0 < self.outstandingChecks → self.currentUpload = none →
      self.uploadQueue ≠ []))
  | .ok _, .recordEvent _ | .ok _, .uploadEvents | .ok _, .uploadTimer
  | .ok _, .httpResponse _ _ | .ok _, .backoffTimer _ _ | .ok _, .setDaemonEnabled _
  | .ok _, .setUploadingEnabled _ | .ok _, .writeConfigFileIdle _ | .ok _, .configFileEdited _
  | .error _, _ => isTrue trivial

/-- One request whose check fails, and one that is sent and accepted. -/
def checkedOneByOne : List (DaemonEvent Nat) :=
  [.recordEvent 3, .uploadEvents, .canReach false .none, .uploadEvents, .canReach true .none,
    .httpResponse 1 .successful]

theorem popsTask_of_staysCovered_oneByOne :
    EachStep (step sampleParts) PopsTask (.ok sampleDaemon) checkedOneByOne :=
  popsTask_of_staysCovered sampleParts _ _ _ _ checkedOneByOne (by decide +kernel)

/-- Two requests whose checks both fail: the first failure starts a third check, which finds the
queue empty. -/
theorem thirdCheck_pops_null :
    ¬ EachStep (step sampleParts) PopsTask (.ok sampleDaemon)
      [.uploadEvents, .uploadEvents, .canReach false .none, .canReach false .none,
        .canReach true .none] := by
  decide +kernel

/-! ## 4. A surplus of checks -/

theorem currentUpload_housekept {mayFlush : Prop} (h : Housekept parts mayFlush self next) :
    next.currentUpload = self.currentUpload := by
  apply h.keeps (I := fun reached => reached.currentUpload = self.currentUpload) _ rfl
  intro reached reached' hstep hreached
  rw [← hreached]
  cases hstep with
  | flush =>
    obtain ⟨cache, buffer, hflush⟩ := flushToPersistentCache_eq parts reached
    rw [hflush]
  | provider provider notified =>
    rcases reached.withProvider_cases parts provider notified with ⟨recording, -, h⟩ | h
    · rw [h]
    · rw [h]
  | returned => rfl
  | dequeued => rfl
  | check => rfl

/-- More checks than tasks stay more than tasks. -/
theorem surplus_handleUploadFinished (hparses : ∀ url, parts.parsesPingSocket url = true)
    (hsurplus : self.uploadQueue.length < self.outstandingChecks) :
    ∃ next, self.handleUploadFinished parts = .ok next ∧
      next.currentUpload = self.currentUpload ∧
      next.uploadQueue.length ≤ self.uploadQueue.length ∧
      next.uploadQueue.length < next.outstandingChecks := by
  unfold handleUploadFinished
  split
  · rename_i hqueue
    exact ⟨self, rfl, rfl, le_refl _, hsurplus⟩
  -- another check is started, or the queue is emptied: the surplus does not shrink
  · by_cases hpermits : self.Permits
    · have hcounts := counts_withProvider parts self
        self.permissionsProvider.getServerUrl.2.1 self.permissionsProvider.getServerUrl.2.2
      have hqueue : (self.getServerUrl parts).2.uploadQueue = self.uploadQueue := hcounts.1
      have hchecks : (self.getServerUrl parts).2.outstandingChecks = self.outstandingChecks :=
        hcounts.2
      have hcurrent := currentUpload_housekept (getServerUrl_housekept parts True self)
      rw [dequeueAndDoUpload, dequeueFrom_of_permits hpermits, getPingSocket]
      dsimp only
      rw [if_pos (hparses _)]
      refine ⟨_, rfl, hcurrent, hqueue.symm ▸ le_refl _, ?_⟩
      show (self.getServerUrl parts).2.uploadQueue.length <
        (self.getServerUrl parts).2.outstandingChecks + 1
      rw [hqueue, hchecks]
      exact Nat.lt_succ_of_lt hsurplus
    · obtain ⟨drained, hdrained, hqueue, hchecks, hkept⟩ :=
        dequeueFrom_of_not_permits parts hpermits (rfl : self.uploadQueue = self.uploadQueue)
      refine ⟨drained, hdrained, currentUpload_housekept hkept, ?_, ?_⟩
      · rw [hqueue]
        exact Nat.zero_le _
      · rw [hqueue, hchecks]
        exact Nat.zero_lt_of_lt hsurplus

/-- Once there are more checks than tasks, failing checks empty the queue before the checks run
out. -/
theorem surplus_pops_null (hparses : ∀ url, parts.parsesPingSocket url = true)
    (hidle : self.currentUpload = none)
    (hsurplus : self.uploadQueue.length < self.outstandingChecks) :
    ∃ n, ¬ EachStep (step parts) PopsTask (.ok self)
      (List.replicate n (.canReach false .none)) := by
  -- each failing check takes at least one task
  induction hlength : self.uploadQueue.length using Nat.strong_induction_on generalizing self with
  | _ length ih =>
    have hchecks : 0 < self.outstandingChecks := Nat.zero_lt_of_lt hsurplus
    cases hqueue : self.uploadQueue with
    | nil =>
      refine ⟨1, fun heach => ?_⟩
      have hpops := ((eachStep_cons _ _ _ _ _).mp heach).1
      exact hpops hchecks hidle hqueue
    | cons uploadTask rest =>
      let returned := ((self.popped rest).flushToPersistentCache parts).log
        (.returned uploadTask.taskId .unreachable)
      have hsame := sameQueue_flush parts (self.popped rest)
      have hrest : returned.uploadQueue = rest := hsame.queue
      have hsurplus' : returned.uploadQueue.length < returned.outstandingChecks := by
        have hfewer : returned.outstandingChecks = self.outstandingChecks - 1 := hsame.checks
        rw [hrest, hfewer]
        rw [hqueue, List.length_cons] at hsurplus
        omega
      obtain ⟨next, hnext, hcurrent, hle, hnextSurplus⟩ :=
        surplus_handleUploadFinished hparses hsurplus'
      have hhandle : step parts (.ok self) (.canReach false .none) = .ok next := by
        show self.handle parts (.canReach false .none) = .ok next
        rw [handle, if_neg (Nat.ne_of_gt hchecks), handleNetworkMonitorCanReach, ← hnext]
        simp only [hidle, hqueue, Option.isSome_none, Bool.false_eq_true, if_false, Bool.not_false,
          if_true, returned, popped, checkCompleted]
      have hcurrent' : next.currentUpload = none := by
        rw [hcurrent]
        exact (currentUpload_housekept
          (.single (.flush (self.popped rest) trivial) : Housekept parts True _ _)).trans hidle
      have hshorter : next.uploadQueue.length < length := by
        rw [hqueue, List.length_cons] at hlength
        rw [hrest] at hle
        omega
      obtain ⟨n, hn⟩ := ih next.uploadQueue.length hshorter hcurrent' hnextSurplus rfl
      refine ⟨n + 1, fun heach => hn ?_⟩
      rw [List.replicate_succ, eachStep_cons, hhandle] at heach
      exact heach.2

end EmerDaemon

end EventRecorder
