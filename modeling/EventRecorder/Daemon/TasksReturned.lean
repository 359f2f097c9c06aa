import EventRecorder.Daemon.Scheduling

/-!
# Every task is returned

A task that was ever queued has been returned once, or it is still queued or under way.  None is
dropped and none is returned twice, in whatever order the callbacks come.
-/

namespace EventRecorder

open Theory

def Action.asReturned {ε : Type*} : Action ε → Option (Nat × UploadResult)
  | .returned taskId result => some (taskId, result)
  | _ => none

namespace EmerDaemon

variable {κ ε : Type*} {parts : DaemonParts κ ε} {self next : EmerDaemon κ ε}
  {given : Nat} {held held' : List Nat}

/-- The tasks that have been returned, with what they returned. -/
def results (self : EmerDaemon κ ε) : List (Nat × UploadResult) :=
  self.trace.filterMap Action.asReturned

theorem count_results (self : EmerDaemon κ ε) (taskId : Nat) :
    (self.results.map Prod.fst).count taskId = self.numReturns taskId := by
  unfold results numReturns
  induction self.trace with
  | nil => rfl
  | cons action trace ih =>
    cases action with
    | returned id result =>
      rw [List.filterMap_cons, Action.asReturned, List.map_cons, List.count_cons,
        List.countP_cons, ih]
      simp only [Action.returns, beq_iff_eq, decide_eq_true_eq]
    | accepted event => exact ih
    | optedOut => exact ih
    | queueHttpRequest id body recordingEnabled uploadingEnabled => exact ih
    | acknowledged body => exact ih

/-! ## 1. Tasks on the move -/

/-- Each task is returned, queued, under way or in the hands of a callback, which are `held`.  At
least `given` tasks were ever queued. -/
structure Conserved (given : Nat) (held : List Nat) (daemon : EmerDaemon κ ε) : Prop where
  balance : ∀ taskId, daemon.numReturns taskId + (held ++ daemon.taskIds).count taskId =
    if taskId < daemon.nextTaskId then 1 else 0
  given : given ≤ daemon.nextTaskId

namespace Conserved

variable {uploadTask : UploadTask ε}

/-- Tasks go from one place to another. -/
theorem moved (h : Conserved given held self)
    (hperm : (held' ++ next.taskIds).Perm (held ++ self.taskIds))
    (hreturns : ∀ taskId, next.numReturns taskId = self.numReturns taskId)
    (hnext : next.nextTaskId = self.nextTaskId) : Conserved given held' next := by
  refine ⟨fun taskId => ?_, hnext ▸ h.given⟩
  rw [hreturns, hperm.count_eq, hnext]
  exact h.balance taskId

theorem same (h : Conserved given held self) (hsame : SameTasks self next) :
    Conserved given held next := by
  obtain ⟨hqueue, ⟨hresponse, hbackoff⟩, -, hnext, -, hreturns, -⟩ := hsame
  apply h.moved _ hreturns hnext
  rw [taskIds, hqueue, hresponse, hbackoff, taskIds]

theorem returned (h : Conserved given (uploadTask.taskId :: held) self) (result : UploadResult) :
    Conserved given held (self.log (.returned uploadTask.taskId result)) := by
  refine ⟨fun taskId => ?_, h.given⟩
  have hself := h.balance taskId
  rw [List.cons_append, List.count_cons] at hself
  rw [numReturns_log_returned, List.count_singleton]
  show self.numReturns taskId + _ + (held ++ self.taskIds).count taskId =
    if taskId < self.nextTaskId then 1 else 0
  omega

theorem taken (h : Conserved given held self) {rest : List (UploadTask ε)}
    (hqueue : self.uploadQueue = uploadTask :: rest) (checks : Nat) :
    Conserved given (uploadTask.taskId :: held)
      { self with uploadQueue := rest, outstandingChecks := checks } := by
  refine h.moved ?_ (fun _ => rfl) rfl
  rw [taskIds, taskIds, hqueue]
  exact List.perm_middle.symm

theorem enqueued (h : Conserved given held self) (maxUploadSize : Nat) :
    Conserved (given + 1) held (self.enqueued maxUploadSize) := by
  refine ⟨fun taskId => ?_, Nat.succ_le_succ h.given⟩
  have hself := h.balance taskId
  have hcount : (held ++ (self.enqueued maxUploadSize).taskIds).count taskId =
      (held ++ self.taskIds).count taskId + [self.nextTaskId].count taskId := by
    simp only [taskIds, EmerDaemon.enqueued, List.map_append, List.count_append, List.map_cons,
      List.map_nil]
    omega
  rw [hcount, List.count_singleton]
  show self.numReturns taskId + _ = if taskId < self.nextTaskId + 1 then 1 else 0
  -- the new task was never given out before, so it is counted once, in the queue
  by_cases hnew : self.nextTaskId = taskId
  · subst hnew
    rw [if_neg (lt_irrefl _)] at hself
    rw [if_pos (Nat.lt_succ_self _)]
    simp only [beq_self_eq_true, if_true]
    omega
  · have hbelow : taskId < self.nextTaskId + 1 ↔ taskId < self.nextTaskId := by omega
    rw [if_neg (by simpa using hnew), Nat.add_zero]
    simp only [hbelow]
    exact hself

theorem awaitsResponse (h : Conserved given (uploadTask.taskId :: held) self) :
    Conserved given held
      { self with awaitingResponse := self.awaitingResponse ++ [uploadTask] } := by
  refine h.moved ?_ (fun _ => rfl) rfl
  rw [List.perm_iff_count]
  intro taskId
  simp only [taskIds, List.map_append, List.map_cons, List.map_nil, List.cons_append,
    List.count_append, List.count_cons, List.count_nil]
  omega

theorem awaitsBackoff (h : Conserved given (uploadTask.taskId :: held) self) :
    Conserved given held { self with awaitingBackoff := self.awaitingBackoff ++ [uploadTask] } := by
  refine h.moved ?_ (fun _ => rfl) rfl
  rw [List.perm_iff_count]
  intro taskId
  simp only [taskIds, List.map_append, List.map_cons, List.map_nil, List.cons_append,
    List.count_append, List.count_cons, List.count_nil]
  omega

theorem responseReceived (h : Conserved given held self)
    (hwaits : self.awaitingResponse = [uploadTask]) :
    Conserved given (uploadTask.taskId :: held) (self.responseReceived uploadTask.taskId) := by
  have hnone : (self.responseReceived uploadTask.taskId).awaitingResponse = [] := by
    show self.awaitingResponse.filter (·.taskId ≠ uploadTask.taskId) = []
    rw [hwaits]
    simp
  refine h.moved ?_ (fun _ => rfl) rfl
  -- one upload is in flight at most, so the task that is taken out is the only one there
  rw [taskIds, hnone, taskIds, hwaits, List.perm_iff_count]
  intro taskId
  simp only [EmerDaemon.responseReceived, List.map_append, List.map_cons, List.map_nil,
    List.cons_append, List.count_append, List.count_cons, List.count_nil]
  omega

theorem backoffOver (h : Conserved given held self)
    (hwaits : self.awaitingBackoff = [uploadTask]) :
    Conserved given (uploadTask.taskId :: held) (self.backoffOver uploadTask.taskId) := by
  have hnone : (self.backoffOver uploadTask.taskId).awaitingBackoff = [] := by
    show self.awaitingBackoff.filter (·.taskId ≠ uploadTask.taskId) = []
    rw [hwaits]
    simp
  refine h.moved ?_ (fun _ => rfl) rfl
  rw [taskIds, hnone, taskIds, hwaits, List.perm_iff_count]
  intro taskId
  simp only [EmerDaemon.backoffOver, List.map_append, List.map_cons, List.map_nil,
    List.cons_append, List.count_append, List.count_cons, List.count_nil]
  omega

end Conserved

/-! ## 2. Callbacks -/

/-- What holds after a callback that has not ended the process. -/
def Conserves (given : Nat) (outcome : Outcome κ ε) : Prop :=
  ∀ next, outcome = .ok next → Conserved given [] next

theorem Conserved.conserves (h : Conserved given [] self) : Conserves given (.ok self) := by
  intro next hok
  cases hok
  exact h

theorem conserves_error (abort : Abort × EmerDaemon κ ε) :
    Conserves given (.error abort : Outcome κ ε) := by
  intro next hok
  cases hok

theorem Conserves.mono {outcome : Outcome κ ε} {before : Nat} (h : Conserves given outcome)
    (hle : before ≤ given) : Conserves before outcome :=
  fun next hok => ⟨(h next hok).balance, hle.trans (h next hok).given⟩

namespace Conserved

variable {uploadTask : UploadTask ε}

/-- When uploads are not permitted each task of the queue is returned. -/
theorem dequeueFrom_of_not_permits {queue : List (UploadTask ε)} (h : Conserved given held self)
    (hpermits : ¬ self.Permits) (hqueue : self.uploadQueue = queue) {drained : EmerDaemon κ ε}
    (hdrained : dequeueFrom parts queue self = .ok drained) : Conserved given held drained := by
  induction queue generalizing self with
  | nil =>
    obtain ⟨result, refused, hrefused, -⟩ := uploadPermitted_of_not_permits parts hpermits
    have hsame := sameTasks_uploadPermitted parts self
    rw [hrefused] at hsame
    rw [dequeueFrom, hrefused] at hdrained
    cases hdrained
    exact h.same hsame
  | cons uploadTask rest ih =>
    obtain ⟨result, refused, hrefused, -, -, hrecording, hprovider, -⟩ :=
      uploadPermitted_of_not_permits parts hpermits
    have hsame := sameTasks_uploadPermitted parts self
    rw [hrefused] at hsame
    have hreturned := ((h.same hsame).taken (hsame.queue.trans hqueue)
      refused.outstandingChecks).returned result
    rw [dequeueFrom, hrefused] at hdrained
    cases rest with
    | nil =>
      cases hdrained
      exact hreturned
    | cons nextTask tasks =>
      apply ih hreturned _ rfl hdrained
      show ¬ (refused.recordingEnabled = true ∧
        refused.permissionsProvider.getUploadingEnabled = true)
      rw [hrecording, hprovider]
      exact hpermits

theorem dequeueAndDoUpload (h : Conserved given [] self) :
    Conserves given (self.dequeueAndDoUpload parts) := by
  by_cases hpermits : self.Permits
  · have hsame : SameTasks self (self.getServerUrl parts).2 :=
      sameTasks_withProvider parts self _ _
    rw [EmerDaemon.dequeueAndDoUpload, dequeueFrom_of_permits hpermits, getPingSocket]
    dsimp only
    split
    · have hpinged := h.same hsame
      have hchecked : Conserved given [] { (self.getServerUrl parts).2 with
          outstandingChecks := (self.getServerUrl parts).2.outstandingChecks + 1 } :=
        ⟨hpinged.balance, hpinged.given⟩
      exact hchecked.conserves
    · exact conserves_error _
  · intro drained hdrained
    exact h.dequeueFrom_of_not_permits hpermits rfl hdrained

theorem handleUploadFinished (h : Conserved given [] self) :
    Conserves given (self.handleUploadFinished parts) := by
  unfold EmerDaemon.handleUploadFinished
  split
  · exact h.conserves
  · exact h.dequeueAndDoUpload

/-- The upload in flight ends, with its task in the hands of the callback. -/
theorem finishNetworkCallback (h : Conserved given [uploadTask.taskId] self)
    (result : UploadResult) :
    Conserves given
      ((self.log (.returned uploadTask.taskId result)).finishNetworkCallback parts) := by
  have hreturned := h.returned result
  have hfinished : Conserved given [] (self.log (.returned uploadTask.taskId result)).finished :=
    ⟨hreturned.balance, hreturned.given⟩
  exact hfinished.handleUploadFinished

/-- A request that was entered is given up or sent. -/
theorem sending {fault : RequestFault} {outcome : Outcome κ ε}
    (hsending : Sending parts self uploadTask fault outcome)
    (h : Conserved given [uploadTask.taskId] self) : Conserves given outcome := by
  have hsame : SameTasks self (self.getServerUrl parts).2 := sameTasks_withProvider parts self _ _
  cases hsending with
  | gaveUp hfault result => exact h.finishNetworkCallback result
  | sent hnext =>
    subst hnext
    exact (h.same hsame).awaitsResponse.conserves
  | aborted abort => exact conserves_error _

/-! ## 3. Steps and runs -/

/-- **Step lemma.** -/
theorem handled (h : Conserved given [] self) (hsettled : self.Settled) {event : DaemonEvent ε}
    {outcome : Outcome κ ε} (hhandled : Handled parts self event outcome) :
    Conserves given outcome := by
  cases hhandled with
  | ignored hsends => exact h.conserves
  | recorded hrecording => exact (h.same (sameTasks_bufferEvent parts self _)).conserves
  | configured provider notified hsends =>
    exact (h.same (sameTasks_withProvider parts self provider notified)).conserves
  | requested => exact (h.enqueued gMaxsize).dequeueAndDoUpload.mono (Nat.le_succ given)
  | timerFired =>
    have hreloaded : SameTasks self (self.getEnvironment parts) :=
      sameTasks_withProvider parts self _ _
    have hqueued := (h.same hreloaded).enqueued maxRequestPayload
    exact hqueued.dequeueAndDoUpload.mono (Nat.le_succ given)
  | checkedWhileBusy hbusy =>
    have hcompleted : Conserved given [] self.checkCompleted := ⟨h.balance, h.given⟩
    exact hcompleted.conserves
  -- the process ends, and nothing is claimed of it
  | checkedEmptyQueue hchecks hidle hqueue => exact conserves_error _
  | unreachableEmptyQueue hchecks hidle hqueue =>
    have hcompleted : Conserved given [] self.checkCompleted := ⟨h.balance, h.given⟩
    exact (hcompleted.same (sameTasks_flush parts self.checkCompleted)).handleUploadFinished
  | @unreachable fault uploadTask rest hchecks hidle hqueue =>
    have htaken : Conserved given [uploadTask.taskId] (self.popped rest) := h.taken hqueue _
    exact ((htaken.same (sameTasks_flush parts (self.popped rest))).returned
      .unreachable).handleUploadFinished
  | @noTimestamps uploadTask rest hchecks hidle hqueue =>
    have htaken : Conserved given [uploadTask.taskId] (self.popped rest) := h.taken hqueue _
    exact ((htaken.same (sameTasks_createRequestBody parts (self.popped rest) uploadTask
      false)).returned .noTimestamps).handleUploadFinished
  | @started fault uploadTask request rest entering outcome hchecks hidle hqueue hfault hbody
      hsending =>
    have htaken : Conserved given [uploadTask.taskId] (self.popped rest) := h.taken hqueue _
    have hsame := sameTasks_createRequestBody parts (self.popped rest) uploadTask true
    have hsome : ((self.popped rest).createRequestBody parts uploadTask true).1 = some request := by
      rw [hbody]
    obtain ⟨buffered, -, -, hrequest⟩ := createRequestBody_eq_some hsome
    -- the request keeps the number of its task
    have hid : request.taskId = uploadTask.taskId := by rw [hrequest]
    rw [hbody] at hsame
    rw [← hid] at htaken
    have hkept := htaken.same hsame
    have hentered : Conserved given [request.taskId]
        ({ entering with currentUpload := some request.taskId }.entered request) := by
      refine hkept.moved (List.Perm.refl _) (fun taskId => ?_) rfl
      exact numReturns_entered { entering with currentUpload := some request.taskId } request taskId
    exact hentered.sending hsending
  | @removedPastEnd taskId uploadTask abort hfind hlive hremove => exact conserves_error _
  | @uploaded taskId uploadTask removed hfind hlive hremove =>
    obtain ⟨hresponses, -, -⟩ := hsettled.current.ofResponse hfind
    -- events leave the cache and the buffer, tasks stay where they are
    obtain ⟨buffer, -, rfl⟩ := removeEvents_eq_ok hremove
    have hacknowledged := sameTasks_acknowledged parts self uploadTask
    have hremoved : SameTasks (self.responseReceived uploadTask.taskId)
        { self.acknowledged parts uploadTask with buffer := buffer } :=
      ⟨rfl, ⟨rfl, rfl⟩, rfl, rfl, rfl, hacknowledged.returns, hacknowledged.requests⟩
    have hflushed := hremoved.trans (sameTasks_flush parts _)
    exact ((h.responseReceived hresponses).same hflushed).finishNetworkCallback .uploaded
  | @gaveUp taskId uploadTask response hfind hends hretry cancelledUploads result =>
    obtain ⟨hresponses, -, -⟩ := hsettled.current.ofResponse hfind
    obtain rfl := taskId_of_find hfind
    have hreceived := h.responseReceived hresponses
    have hcancelled : Conserved given [uploadTask.taskId]
        { self.responseReceived uploadTask.taskId with cancelledUploads := cancelledUploads } :=
      ⟨hreceived.balance, hreceived.given⟩
    exact hcancelled.finishNetworkCallback result
  | @retried taskId uploadTask hfind hlive hattempts =>
    obtain ⟨hresponses, -, -⟩ := hsettled.current.ofResponse hfind
    obtain rfl := taskId_of_find hfind
    -- it goes from one wait to the other
    let retried : UploadTask ε := { uploadTask with attemptNum := uploadTask.attemptNum + 1 }
    have hreceived := h.responseReceived hresponses
    have hheld : Conserved given [retried.taskId] (self.responseReceived uploadTask.taskId) :=
      hreceived
    exact hheld.awaitsBackoff.conserves
  | @backoffGaveUp taskId uploadTask hfind =>
    obtain ⟨hbackoffs, -, -⟩ := hsettled.current.ofBackoff hfind
    obtain rfl := taskId_of_find hfind
    exact (h.backoffOver hbackoffs).finishNetworkCallback .noTimestamps
  | @backoffSent taskId uploadTask fault outcome hfind hfault hsending =>
    obtain ⟨hbackoffs, -, -⟩ := hsettled.current.ofBackoff hfind
    obtain rfl := taskId_of_find hfind
    have hentered : Conserved given [uploadTask.taskId]
        ((self.backoffOver uploadTask.taskId).entered uploadTask) := by
      refine (h.backoffOver hbackoffs).moved (List.Perm.refl _) (fun taskId => ?_) rfl
      exact numReturns_entered (self.backoffOver uploadTask.taskId) uploadTask taskId
    exact hentered.sending hsending

end Conserved

variable (parts) in
/-- The daemon as it is constructed has no tasks. -/
theorem conserved_new (permissionsProvider : EmerPermissionsProvider) (persistentCache : κ)
    (maxBytesBuffered : Nat) (pastEvents : List ε) :
    Conserved 0 [] (new parts permissionsProvider persistentCache maxBytesBuffered pastEvents) := by
  apply new_keeps
  · exact ⟨fun _ => rfl, Nat.zero_le _⟩
  · intro self event h
    exact h.same (sameTasks_recordEvent parts self event)
  · intro self provider notified h
    exact h.same (sameTasks_withProvider parts self provider notified)

end EmerDaemon

end EventRecorder
