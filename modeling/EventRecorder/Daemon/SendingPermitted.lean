import EventRecorder.Daemon.CacheLaws
import EventRecorder.Daemon.Handlers

/-!
# Sending without permission

Whether an upload is permitted is checked when its task is dequeued.  The request is entered later,
after a reachability check and again after each backoff, with whatever the permissions are by then.
-/

namespace EventRecorder

open Theory

namespace EmerDaemon

variable {κ ε : Type*} {parts : DaemonParts κ ε}

/-- The permissions at each entry into `queue_http_request`: recording, then uploading. -/
def permissionsAtSending (trace : List (Action ε)) : List (Bool × Bool) :=
  trace.filterMap fun
    | .queueHttpRequest _ _ recordingEnabled uploadingEnabled =>
      some (recordingEnabled, uploadingEnabled)
    | _ => none

/-- No request has left while recording or uploading was off. -/
def SentWithPermission (self : EmerDaemon κ ε) : Prop :=
  ∀ permissions ∈ permissionsAtSending self.trace, permissions = (true, true)

def permissionsAfter (self : EmerDaemon κ ε) (event : DaemonEvent ε) : List (Bool × Bool) :=
  permissionsAtSending self.trace ++
    if self.Sends event then
      [(self.recordingEnabled, self.permissionsProvider.getUploadingEnabled)] else []

/-! ## 1. One event enters at most once -/

theorem permissionsAtSending_append (trace trace' : List (Action ε)) :
    permissionsAtSending (trace ++ trace') =
      permissionsAtSending trace ++ permissionsAtSending trace' :=
  List.filterMap_append

/-- An action that is no entry. -/
theorem permissionsAtSending_log {self : EmerDaemon κ ε} {action : Action ε}
    (h : permissionsAtSending [action] = []) :
    permissionsAtSending (self.log action).trace = permissionsAtSending self.trace := by
  rw [log, permissionsAtSending_append, h, List.append_nil]

theorem permissionsAtSending_entered (self : EmerDaemon κ ε) (uploadTask : UploadTask ε) :
    permissionsAtSending (self.entered uploadTask).trace = permissionsAtSending self.trace ++
      [(self.recordingEnabled, self.permissionsProvider.getUploadingEnabled)] :=
  permissionsAtSending_append _ _

theorem permissionsAtSending_housekeeping {mayFlush : Prop} {entries : List (Bool × Bool)}
    {self next : EmerDaemon κ ε} (h : Housekeeping parts mayFlush self next)
    (hself : permissionsAtSending self.trace = entries) :
    permissionsAtSending next.trace = entries := by
  rw [← hself]
  -- an opt-out is logged too, but it is no entry
  cases h with
  | flush =>
    obtain ⟨cache, buffer, hflush⟩ := flushToPersistentCache_eq parts self
    rw [hflush]
  | provider provider notified =>
    rcases self.withProvider_cases parts provider notified with ⟨recording, -, h⟩ | h
    · rw [h]
    · rw [h]
      exact (permissionsAtSending_append _ _).trans (List.append_nil _)
  | returned taskId result => exact permissionsAtSending_log rfl
  | dequeued => rfl
  | check => rfl

theorem permissionsAtSending_housekept {mayFlush : Prop} {self next : EmerDaemon κ ε}
    (h : Housekept parts mayFlush self next) :
    permissionsAtSending next.trace = permissionsAtSending self.trace :=
  h.keeps permissionsAtSending_housekeeping rfl

theorem permissionsAtSending_sending {self : EmerDaemon κ ε} {uploadTask : UploadTask ε}
    {fault : RequestFault} {outcome : Outcome κ ε}
    (h : Sending parts self uploadTask fault outcome) :
    permissionsAtSending (ofOutcome outcome).trace = permissionsAtSending self.trace :=
  h.keeps permissionsAtSending_housekeeping (fun h => h) (fun _ h => h) rfl

/-- An event that does not send leaves no entry. -/
theorem eq_permissionsAfter {self next : EmerDaemon κ ε} {event : DaemonEvent ε}
    (hsends : ¬ self.Sends event)
    (h : permissionsAtSending next.trace = permissionsAtSending self.trace) :
    permissionsAtSending next.trace = self.permissionsAfter event := by
  rw [permissionsAfter, if_neg hsends, List.append_nil, h]

/-- An event that sends leaves one, if the permissions were not touched before. -/
theorem eq_permissionsAfter_of_sends {self next : EmerDaemon κ ε} {event : DaemonEvent ε}
    {uploadTask : UploadTask ε} {fault : RequestFault} {outcome : Outcome κ ε}
    (hsends : self.Sends event)
    (hsending : Sending parts (next.entered uploadTask) uploadTask fault outcome)
    (htrace : next.trace = self.trace) (hrecording : next.recordingEnabled = self.recordingEnabled)
    (hprovider : next.permissionsProvider = self.permissionsProvider) :
    permissionsAtSending (ofOutcome outcome).trace = self.permissionsAfter event := by
  rw [permissionsAtSending_sending hsending, permissionsAtSending_entered, permissionsAfter,
    if_pos hsends, htrace, hrecording, hprovider]

theorem permissionsAtSending_finish {self next : EmerDaemon κ ε} {taskId : Nat}
    {result : UploadResult}
    (h : permissionsAtSending next.trace = permissionsAtSending self.trace) :
    permissionsAtSending
        (ofOutcome ((next.log (.returned taskId result)).finishNetworkCallback parts)).trace =
      permissionsAtSending self.trace :=
  (permissionsAtSending_housekept (finish_returned_housekept next taskId result)).trans h

theorem permissionsAtSending_returned {self next : EmerDaemon κ ε} {taskId : Nat}
    {result : UploadResult}
    (h : permissionsAtSending next.trace = permissionsAtSending self.trace) :
    permissionsAtSending
        (ofOutcome ((next.log (.returned taskId result)).handleUploadFinished parts)).trace =
      permissionsAtSending self.trace := by
  rw [permissionsAtSending_housekept (handleUploadFinished_housekept _)]
  exact (permissionsAtSending_log rfl).trans h

/-- **Step lemma.**  The entries after an event are those before it, and one more with the
permissions of the moment if the event sends. -/
theorem permissionsAtSending_handled {self : EmerDaemon κ ε} {event : DaemonEvent ε}
    {outcome : Outcome κ ε} (h : Handled parts self event outcome) :
    permissionsAtSending (ofOutcome outcome).trace = self.permissionsAfter event := by
  -- one case per way that a callback can go: only the last check and the backoff timer send
  cases h with
  | ignored hsends => exact eq_permissionsAfter hsends rfl
  | @recorded event hrecording =>
    refine eq_permissionsAfter (fun h => h) ?_
    rw [ofOutcome, bufferEvent]
    split
    · exact permissionsAtSending_log rfl
    · rfl
  | configured provider notified hsends =>
    refine eq_permissionsAfter hsends ?_
    rw [ofOutcome]
    exact permissionsAtSending_housekept (withProvider_housekept False self provider notified)
  | requested =>
    refine eq_permissionsAfter (fun h => h) ?_
    rw [permissionsAtSending_housekept (dequeueAndDoUpload_housekept parts _)]
    rfl
  | timerFired =>
    refine eq_permissionsAfter (fun h => h) ?_
    rw [permissionsAtSending_housekept (dequeueAndDoUpload_housekept parts _)]
    show permissionsAtSending (self.getEnvironment parts).trace = _
    exact permissionsAtSending_housekept (getEnvironment_housekept parts False self)
  | checkedWhileBusy hbusy =>
    refine eq_permissionsAfter (fun hsends => ?_) rfl
    rw [hsends.2.1] at hbusy
    cases hbusy
  | checkedEmptyQueue hchecks hidle hqueue =>
    exact eq_permissionsAfter (fun hsends => hsends.2.2.1 hqueue) rfl
  | unreachableEmptyQueue hchecks hidle hqueue =>
    refine eq_permissionsAfter (fun hsends => hsends.2.2.1 hqueue) ?_
    rw [permissionsAtSending_housekept (handleUploadFinished_housekept _)]
    exact permissionsAtSending_housekeeping (.flush self.checkCompleted trivial) rfl
  | @unreachable fault uploadTask rest hchecks hidle hqueue =>
    refine eq_permissionsAfter (fun hsends => Bool.false_ne_true hsends.2.2.2.1) ?_
    exact permissionsAtSending_returned
      (permissionsAtSending_housekeeping (.flush (self.popped rest) trivial) rfl)
  | @noTimestamps uploadTask rest hchecks hidle hqueue =>
    refine eq_permissionsAfter (fun hsends => hsends.2.2.2.2 rfl) ?_
    obtain ⟨cache, hbody⟩ :=
      createRequestBody_eq parts (self.popped rest) uploadTask false
    rw [hbody]
    exact permissionsAtSending_returned rfl
  | @started fault uploadTask request rest next outcome hchecks hidle hqueue hfault hbody
      hsending =>
    obtain ⟨cache, hnext⟩ :=
      createRequestBody_eq parts (self.popped rest) uploadTask true
    rw [hbody] at hnext
    dsimp only at hnext
    subst hnext
    refine eq_permissionsAfter_of_sends ⟨hchecks, hidle, ?_, rfl, hfault⟩ hsending rfl rfl rfl
    rw [hqueue]
    exact List.cons_ne_nil _ _
  | @removedPastEnd taskId uploadTask abort hfind hlive hremove =>
    refine eq_permissionsAfter (fun h => h) ?_
    rw [(removeEvents_eq_error hremove).1]
    exact permissionsAtSending_log rfl
  | @uploaded taskId uploadTask next hfind hlive hremove =>
    obtain ⟨buffer, -, hnext⟩ := removeEvents_eq_ok hremove
    refine eq_permissionsAfter (fun h => h) (permissionsAtSending_finish ?_)
    rw [permissionsAtSending_housekeeping (.flush next trivial) rfl, hnext]
    exact permissionsAtSending_log rfl
  | gaveUp hfind hends hretry cancelledUploads result =>
    exact eq_permissionsAfter (fun h => h) (permissionsAtSending_finish rfl)
  | retried hfind hlive hattempts => exact eq_permissionsAfter (fun h => h) rfl
  | backoffGaveUp hfind =>
    exact eq_permissionsAfter (fun hsends => hsends.2 rfl) (permissionsAtSending_finish rfl)
  | @backoffSent taskId uploadTask fault outcome hfind hfault hsending =>
    refine eq_permissionsAfter_of_sends ⟨?_, hfault⟩ hsending rfl rfl rfl
    rw [hfind]
    rfl

/-! ## 2. The exact condition -/

/-- Whoever sends does so while recording and uploading are on. -/
def SendsOnlyPermitted : Outcome κ ε → DaemonEvent ε → Prop
  | .ok self, event => self.Sends event → self.Permits
  | .error _, _ => True

theorem sentWithPermission_handle_iff {self : EmerDaemon κ ε} (h : self.SentWithPermission)
    (event : DaemonEvent ε) :
    (ofOutcome (self.handle parts event)).SentWithPermission ↔
      (self.Sends event → self.Permits) := by
  have hstep := permissionsAtSending_handled (handle_handled parts self event)
  rw [SentWithPermission, hstep, permissionsAfter]
  -- the law so far covers the old entries, so only the new one is left to compare
  by_cases hsends : self.Sends event
  · rw [if_pos hsends]
    constructor
    · intro hall _
      have hnow := hall _ (List.mem_append_right _ List.mem_cons_self)
      exact Prod.mk.inj hnow
    · intro hpermits entry hentry
      rcases List.mem_append.mp hentry with hentry | hentry
      · exact h entry hentry
      · rw [List.mem_singleton.mp hentry]
        exact Prod.ext (hpermits hsends).1 (hpermits hsends).2
  · rw [if_neg hsends, List.append_nil]
    exact iff_of_true h fun hs => absurd hs hsends

theorem sentWithPermission_new (permissionsProvider : EmerPermissionsProvider)
    (persistentCache : κ) (maxBytesBuffered : Nat) (pastEvents : List ε) :
    (new parts permissionsProvider persistentCache maxBytesBuffered
      pastEvents).SentWithPermission := by
  have hnone : permissionsAtSending (new parts permissionsProvider persistentCache
      maxBytesBuffered pastEvents).trace = [] := by
    apply new_keeps (I := fun self => permissionsAtSending self.trace = []) rfl
    · intro self event hself
      rw [recordEvent, bufferEvent]
      split
      · split
        · exact (permissionsAtSending_log rfl).trans hself
        · exact hself
      · exact hself
    · intro self provider notified hself
      rw [permissionsAtSending_housekept (withProvider_housekept False self provider notified)]
      exact hself
  rw [SentWithPermission, hnone]
  exact fun _ hentry => absurd hentry List.not_mem_nil

/-- In every run of the daemon, over any cache, all requests leave with recording and uploading on
exactly if no reachability check and no backoff timer goes on to send while one of them is off. -/
theorem sentWithPermission_iff (parts : DaemonParts κ ε)
    (permissionsProvider : EmerPermissionsProvider) (persistentCache : κ)
    (maxBytesBuffered : Nat) (pastEvents : List ε) (events : List (DaemonEvent ε)) :
    let start : Outcome κ ε :=
      .ok (new parts permissionsProvider persistentCache maxBytesBuffered pastEvents)
    Throughout (step parts) (fun outcome => (ofOutcome outcome).SentWithPermission) start events ↔
      EachStep (step parts) SendsOnlyPermitted start events := by
  intro start
  have hstart : (ofOutcome start).SentWithPermission :=
    sentWithPermission_new permissionsProvider persistentCache maxBytesBuffered pastEvents
  refine throughout_iff_eachStep_of_law
    (P := fun outcome => (ofOutcome outcome).SentWithPermission) (fun outcome event h => ?_) hstart
    events
  cases outcome with
  | error abort => exact iff_of_true h trivial
  | ok self => exact sentWithPermission_handle_iff h event

/-- Uploading is switched off between the request for an upload and the end of its reachability
check: the request leaves with recording on and uploading off. -/
theorem sent_while_uploading_off :
    ¬ Throughout (step sampleParts) (fun outcome => (ofOutcome outcome).SentWithPermission)
      (.ok sampleDaemon)
      [.recordEvent 3, .uploadEvents, .setUploadingEnabled false, .canReach true .none] := by
  intro h
  have hentries : permissionsAtSending (ofOutcome (run (step sampleParts) (.ok sampleDaemon)
      [.recordEvent 3, .uploadEvents, .setUploadingEnabled false,
        .canReach true .none])).trace = [(true, false)] := by
    decide +kernel
  have hlast := h.last
  rw [SentWithPermission, hentries] at hlast
  have hfalse := hlast (true, false) List.mem_cons_self
  cases hfalse

end EmerDaemon

end EventRecorder
