import EventRecorder.Daemon.UploadInFlight

/-!
# Upload scheduling is sound

A task is in one place: the queue, the hands of a callback, or the upload in flight.  It leaves by
being returned, and each request it sends is one more attempt.  A callback that ends an upload
starts a check for the tasks that are left, so none of them is stranded.
-/

namespace EventRecorder

open Theory

def Action.returns {ε : Type*} (taskId : Nat) : Action ε → Bool
  | .returned id _ => id = taskId
  | _ => false

def Action.requests {ε : Type*} (taskId : Nat) : Action ε → Bool
  | .queueHttpRequest id .. => id = taskId
  | _ => false

namespace EmerDaemon

variable {κ ε : Type*} {parts : DaemonParts κ ε} {self next : EmerDaemon κ ε} {held : List Nat}

def numReturns (self : EmerDaemon κ ε) (taskId : Nat) : Nat :=
  self.trace.countP (Action.returns taskId)

def numRequests (self : EmerDaemon κ ε) (taskId : Nat) : Nat :=
  self.trace.countP (Action.requests taskId)

/-- The tasks that are queued or under way. -/
def taskIds (self : EmerDaemon κ ε) : List Nat :=
  (self.uploadQueue ++ self.awaitingResponse ++ self.awaitingBackoff).map (·.taskId)

/-- What is said of every state of the daemon between two callbacks. -/
structure SchedulingSound (daemon : EmerDaemon κ ε) : Prop where
  inFlight : daemon.currentUpload.isSome = true ↔ daemon.waiting.length = 1
  atMostOne : daemon.waiting.length ≤ 1
  notStranded : daemon.uploadQueue ≠ [] → daemon.currentUpload = none → 0 < daemon.outstandingChecks

/-- Every task is returned once at most and sends so many requests at most. -/
def TasksBounded (self : EmerDaemon κ ε) : Prop :=
  ∀ taskId, self.numReturns taskId ≤ 1 ∧ self.numRequests taskId ≤ networkAttemptLimit

/-! ## 1. The invariant -/

/-- The tasks in the hands of a callback are `held`. -/
structure Scheduled (held : List Nat) (daemon : EmerDaemon κ ε) : Prop where
  once : ∀ taskId, daemon.numReturns taskId + (held ++ daemon.taskIds).count taskId ≤
    if taskId < daemon.nextTaskId then 1 else 0
  bounded : ∀ taskId, daemon.numRequests taskId ≤ networkAttemptLimit
  fresh : ∀ taskId, daemon.nextTaskId ≤ taskId → daemon.numRequests taskId = 0
  queued : ∀ uploadTask ∈ daemon.uploadQueue, daemon.numRequests uploadTask.taskId = 0
  responses : ∀ uploadTask ∈ daemon.awaitingResponse,
    daemon.numRequests uploadTask.taskId ≤ uploadTask.attemptNum + 1 ∧
      uploadTask.attemptNum < networkAttemptLimit
  backoffs : ∀ uploadTask ∈ daemon.awaitingBackoff,
    daemon.numRequests uploadTask.taskId ≤ uploadTask.attemptNum ∧
      uploadTask.attemptNum < networkAttemptLimit

/-- No upload is current and none waits, or the one that waits is current. -/
def CurrentWaits (self : EmerDaemon κ ε) : Prop :=
  ∃ upload : Option (UploadTask ε),
    self.waiting = upload.toList ∧ self.currentUpload = upload.map (·.taskId)

/-- The same tasks in the same places. -/
structure SameTasks (before after : EmerDaemon κ ε) : Prop where
  queue : after.uploadQueue = before.uploadQueue
  awaiting : SameAwaiting before after
  current : after.currentUpload = before.currentUpload
  nextTaskId : after.nextTaskId = before.nextTaskId
  checks : after.outstandingChecks = before.outstandingChecks
  returns : ∀ taskId, after.numReturns taskId = before.numReturns taskId
  requests : ∀ taskId, after.numRequests taskId = before.numRequests taskId

theorem Scheduled.tasksBounded (h : Scheduled held self) : self.TasksBounded := by
  intro taskId
  have honce := h.once taskId
  constructor
  · split at honce
    · omega
    · omega
  · exact h.bounded taskId

theorem Scheduled.same (h : Scheduled held self) (hsame : SameTasks self next) :
    Scheduled held next := by
  obtain ⟨hqueue, ⟨hresponse, hbackoff⟩, -, hnext, -, hreturns, hrequests⟩ := hsame
  constructor
  · intro taskId
    rw [hreturns, taskIds, hqueue, hresponse, hbackoff, hnext]
    exact h.once taskId
  · intro taskId
    rw [hrequests]
    exact h.bounded taskId
  · intro taskId hle
    rw [hrequests]
    rw [hnext] at hle
    exact h.fresh taskId hle
  · intro uploadTask hmem
    rw [hrequests]
    rw [hqueue] at hmem
    exact h.queued uploadTask hmem
  · intro uploadTask hmem
    rw [hrequests]
    rw [hresponse] at hmem
    exact h.responses uploadTask hmem
  · intro uploadTask hmem
    rw [hrequests]
    rw [hbackoff] at hmem
    exact h.backoffs uploadTask hmem

/-- Which upload is current, and how many checks are under way, is not part of the invariant. -/
theorem Scheduled.beside (h : Scheduled held self) (currentUpload : Option Nat)
    (outstandingChecks : Nat) :
    Scheduled held { self with
      currentUpload := currentUpload, outstandingChecks := outstandingChecks } :=
  ⟨h.once, h.bounded, h.fresh, h.queued, h.responses, h.backoffs⟩

theorem CurrentWaits.same (h : self.CurrentWaits) (hsame : SameTasks self next) :
    next.CurrentWaits := by
  obtain ⟨upload, hwaiting, hcurrent⟩ := h
  exact ⟨upload, hsame.awaiting.waiting_eq.trans hwaiting, hsame.current.trans hcurrent⟩

theorem SameTasks.trans {middle : EmerDaemon κ ε} (h : SameTasks self middle)
    (h' : SameTasks middle next) : SameTasks self next :=
  ⟨h'.queue.trans h.queue, ⟨h'.awaiting.1.trans h.awaiting.1, h'.awaiting.2.trans h.awaiting.2⟩,
    h'.current.trans h.current, h'.nextTaskId.trans h.nextTaskId, h'.checks.trans h.checks,
    fun taskId => (h'.returns taskId).trans (h.returns taskId),
    fun taskId => (h'.requests taskId).trans (h.requests taskId)⟩

/-! ## 2. What leaves the tasks where they are -/

variable (parts) in
theorem sameTasks_flush (self : EmerDaemon κ ε) :
    SameTasks self (self.flushToPersistentCache parts) := by
  obtain ⟨cache, buffer, hflush⟩ := flushToPersistentCache_eq parts self
  rw [hflush]
  exact ⟨rfl, ⟨rfl, rfl⟩, rfl, rfl, rfl, fun _ => rfl, fun _ => rfl⟩

variable (parts) in
theorem sameTasks_createRequestBody (self : EmerDaemon κ ε) (uploadTask : UploadTask ε)
    (timestamps : Bool) :
    SameTasks self (self.createRequestBody parts uploadTask timestamps).2 := by
  obtain ⟨cache, hbody⟩ := createRequestBody_eq parts self uploadTask timestamps
  rw [hbody]
  exact ⟨rfl, ⟨rfl, rfl⟩, rfl, rfl, rfl, fun _ => rfl, fun _ => rfl⟩

/-- An action that is no request and returns no task is not counted. -/
theorem sameTasks_log {action : Action ε} (hreturns : ∀ taskId, action.returns taskId = false)
    (hrequests : ∀ taskId, action.requests taskId = false) : SameTasks self (self.log action) := by
  refine ⟨rfl, ⟨rfl, rfl⟩, rfl, rfl, rfl, fun taskId => ?_, fun taskId => ?_⟩
  · show (self.trace ++ [action]).countP _ = self.trace.countP _
    rw [List.countP_append, List.countP_singleton, hreturns]
    rfl
  · show (self.trace ++ [action]).countP _ = self.trace.countP _
    rw [List.countP_append, List.countP_singleton, hrequests]
    rfl

variable (parts) in
/-- The server has accepted a request: nothing but the response is missing now. -/
theorem sameTasks_acknowledged (self : EmerDaemon κ ε) (uploadTask : UploadTask ε) :
    SameTasks (self.responseReceived uploadTask.taskId) (self.acknowledged parts uploadTask) := by
  have hlog : SameTasks (self.responseReceived uploadTask.taskId)
      ((self.responseReceived uploadTask.taskId).log (.acknowledged uploadTask.requestBody)) :=
    sameTasks_log (fun _ => rfl) fun _ => rfl
  exact ⟨rfl, ⟨rfl, rfl⟩, rfl, rfl, rfl, hlog.returns, hlog.requests⟩

variable (parts) in
theorem sameTasks_withProvider (self : EmerDaemon κ ε) (provider : EmerPermissionsProvider)
    (notified : List ProviderProperty) :
    SameTasks self (self.withProvider parts provider notified) := by
  rcases self.withProvider_cases parts provider notified with ⟨recording, -, h⟩ | h
  · rw [h]
    exact ⟨rfl, ⟨rfl, rfl⟩, rfl, rfl, rfl, fun _ => rfl, fun _ => rfl⟩
  · rw [h]
    have hlog : SameTasks self (self.log .optedOut) := sameTasks_log (fun _ => rfl) fun _ => rfl
    exact ⟨rfl, ⟨rfl, rfl⟩, rfl, rfl, rfl, hlog.returns, hlog.requests⟩

variable (parts) in
theorem sameTasks_bufferEvent (self : EmerDaemon κ ε) (event : ε) :
    SameTasks self (self.bufferEvent parts event) := by
  rw [bufferEvent_eq]
  have hlog : SameTasks self (self.log (.accepted event)) :=
    sameTasks_log (fun _ => rfl) fun _ => rfl
  split
  · exact ⟨rfl, ⟨rfl, rfl⟩, rfl, rfl, rfl, hlog.returns, hlog.requests⟩
  · rw [List.append_nil]
    exact ⟨rfl, ⟨rfl, rfl⟩, rfl, rfl, rfl, fun _ => rfl, fun _ => rfl⟩

variable (parts) in
theorem sameTasks_recordEvent (self : EmerDaemon κ ε) (event : ε) :
    SameTasks self (self.recordEvent parts event) := by
  rw [recordEvent]
  split
  · exact sameTasks_bufferEvent parts self event
  · exact ⟨rfl, ⟨rfl, rfl⟩, rfl, rfl, rfl, fun _ => rfl, fun _ => rfl⟩

variable (parts) in
theorem sameTasks_uploadPermitted (self : EmerDaemon κ ε) :
    SameTasks self (self.uploadPermitted parts).2 := by
  unfold uploadPermitted
  split
  · exact ⟨rfl, ⟨rfl, rfl⟩, rfl, rfl, rfl, fun _ => rfl, fun _ => rfl⟩
  split
  · exact sameTasks_flush parts self
  · exact ⟨rfl, ⟨rfl, rfl⟩, rfl, rfl, rfl, fun _ => rfl, fun _ => rfl⟩

/-! ## 3. Tasks on the move -/

theorem numReturns_log_returned (self : EmerDaemon κ ε) (id taskId : Nat) (result : UploadResult) :
    (self.log (.returned id result)).numReturns taskId =
      self.numReturns taskId + [id].count taskId := by
  show (self.trace ++ [_]).countP _ = self.trace.countP _ + _
  rw [List.countP_append, List.countP_singleton, List.count_singleton]
  simp [Action.returns]

theorem numRequests_entered (self : EmerDaemon κ ε) (uploadTask : UploadTask ε) (taskId : Nat) :
    (self.entered uploadTask).numRequests taskId =
      self.numRequests taskId + [uploadTask.taskId].count taskId := by
  show (self.trace ++ [_]).countP _ = self.trace.countP _ + _
  rw [List.countP_append, List.countP_singleton, List.count_singleton]
  simp [Action.requests]

theorem numRequests_log_returned (self : EmerDaemon κ ε) (id taskId : Nat)
    (result : UploadResult) :
    (self.log (.returned id result)).numRequests taskId = self.numRequests taskId := by
  show (self.trace ++ [_]).countP _ = self.trace.countP _
  rw [List.countP_append, List.countP_singleton]
  rfl

theorem numReturns_entered (self : EmerDaemon κ ε) (uploadTask : UploadTask ε) (taskId : Nat) :
    (self.entered uploadTask).numReturns taskId = self.numReturns taskId := by
  show (self.trace ++ [_]).countP _ = self.trace.countP _
  rw [List.countP_append, List.countP_singleton]
  rfl

namespace Scheduled

variable {uploadTask : UploadTask ε}

theorem returned (h : Scheduled (uploadTask.taskId :: held) self) (result : UploadResult) :
    Scheduled held (self.log (.returned uploadTask.taskId result)) := by
  refine ⟨fun taskId => ?_, ?_, ?_, ?_, ?_, ?_⟩
  · have honce := h.once taskId
    rw [List.cons_append, List.count_cons] at honce
    rw [numReturns_log_returned, List.count_singleton]
    show self.numReturns taskId + _ + (held ++ self.taskIds).count taskId ≤
      if taskId < self.nextTaskId then 1 else 0
    omega
  · intro taskId
    rw [numRequests_log_returned]
    exact h.bounded taskId
  · intro taskId hle
    rw [numRequests_log_returned]
    exact h.fresh taskId hle
  · intro task hmem
    rw [numRequests_log_returned]
    exact h.queued task hmem
  · intro task hmem
    rw [numRequests_log_returned]
    exact h.responses task hmem
  · intro task hmem
    rw [numRequests_log_returned]
    exact h.backoffs task hmem

/-- The first task is taken from the queue. -/
theorem taken (h : Scheduled held self) {rest : List (UploadTask ε)}
    (hqueue : self.uploadQueue = uploadTask :: rest) (checks : Nat) :
    Scheduled (uploadTask.taskId :: held)
      { self with uploadQueue := rest, outstandingChecks := checks } := by
  refine ⟨fun taskId => ?_, h.bounded, h.fresh, ?_, h.responses, h.backoffs⟩
  · have honce := h.once taskId
    rw [taskIds, hqueue] at honce
    have hperm : (held ++ ((uploadTask :: rest) ++ self.awaitingResponse ++
        self.awaitingBackoff).map (·.taskId)).Perm
        (uploadTask.taskId :: held ++ (rest ++ self.awaitingResponse ++
          self.awaitingBackoff).map (·.taskId)) := List.perm_middle
    rw [hperm.count_eq] at honce
    exact honce
  · intro task hmem
    exact h.queued task (by rw [hqueue]; exact List.mem_cons_of_mem _ hmem)

theorem enqueued (h : Scheduled held self) (maxUploadSize : Nat) :
    Scheduled held (self.enqueued maxUploadSize) := by
  refine ⟨fun taskId => ?_, h.bounded, ?_, ?_, h.responses, h.backoffs⟩
  · have honce := h.once taskId
    have hcount : (held ++ (self.enqueued maxUploadSize).taskIds).count taskId =
        (held ++ self.taskIds).count taskId + [self.nextTaskId].count taskId := by
      simp only [taskIds, EmerDaemon.enqueued, List.map_append, List.count_append, List.map_cons,
        List.map_nil]
      omega
    rw [hcount, List.count_singleton]
    show self.numReturns taskId + _ ≤ if taskId < self.nextTaskId + 1 then 1 else 0
    -- the new task has a number that was not given out before
    by_cases hnew : self.nextTaskId = taskId
    · subst hnew
      rw [if_neg (lt_irrefl _)] at honce
      rw [if_pos (Nat.lt_succ_self _)]
      simp only [beq_self_eq_true, if_true]
      omega
    · have hle : (if taskId < self.nextTaskId then 1 else 0) ≤
          if taskId < self.nextTaskId + 1 then 1 else 0 := by
        split <;> split <;> omega
      rw [if_neg (by simpa using hnew), Nat.add_zero]
      exact honce.trans hle
  · intro taskId hle
    exact h.fresh taskId (Nat.le_of_succ_le hle)
  · intro task hmem
    rcases List.mem_append.mp hmem with hmem | hmem
    · exact h.queued task hmem
    · rw [List.mem_singleton.mp hmem]
      exact h.fresh self.nextTaskId (le_refl _)

/-- A held task is not the same as one that is queued or waits. -/
theorem ne_of_held (h : Scheduled (uploadTask.taskId :: held) self) {taskId : Nat}
    (hmem : taskId ∈ self.taskIds) : ¬ uploadTask.taskId = taskId := by
  intro heq
  have honce := h.once taskId
  rw [List.cons_append, List.count_cons, List.count_append, heq] at honce
  have hpos := List.count_pos_iff.mpr hmem
  simp only [beq_self_eq_true, if_true] at honce
  split at honce
  · omega
  · omega

/-- `queue_http_request` is entered with a task that has an attempt left. -/
theorem entered (h : Scheduled (uploadTask.taskId :: held) self)
    (hattempts : self.numRequests uploadTask.taskId < networkAttemptLimit) :
    Scheduled (uploadTask.taskId :: held) (self.entered uploadTask) := by
  have hother : ∀ taskId, ¬ uploadTask.taskId = taskId →
      (self.entered uploadTask).numRequests taskId = self.numRequests taskId := by
    intro taskId hne
    rw [numRequests_entered, List.count_singleton]
    simp [hne]
  have hmem : ∀ {task : UploadTask ε},
      task ∈ self.uploadQueue ++ self.awaitingResponse ++ self.awaitingBackoff →
        ¬ uploadTask.taskId = task.taskId := by
    intro task htask
    exact h.ne_of_held (List.mem_map_of_mem htask)
  refine ⟨fun taskId => ?_, fun taskId => ?_, fun taskId hle => ?_, ?_, ?_, ?_⟩
  · rw [numReturns_entered]
    exact h.once taskId
  · by_cases heq : uploadTask.taskId = taskId
    · subst heq
      rw [numRequests_entered, List.count_singleton]
      simpa using hattempts
    · rw [hother taskId heq]
      exact h.bounded taskId
  · rw [hother taskId, h.fresh taskId hle]
    -- a task number that was not given out is not held
    intro heq
    have hnew : self.nextTaskId ≤ taskId := hle
    have honce := h.once taskId
    rw [List.cons_append, List.count_cons, heq, if_neg (Nat.not_lt_of_le hnew)] at honce
    simp at honce
  · intro task htask
    rw [hother _ (hmem (List.mem_append_left _ (List.mem_append_left _ htask)))]
    exact h.queued task htask
  · intro task htask
    rw [hother _ (hmem (List.mem_append_left _ (List.mem_append_right _ htask)))]
    exact h.responses task htask
  · intro task htask
    rw [hother _ (hmem (List.mem_append_right _ htask))]
    exact h.backoffs task htask

/-- A request has left, and its task waits for the response. -/
theorem awaitsResponse (h : Scheduled (uploadTask.taskId :: held) self)
    (hrequests : self.numRequests uploadTask.taskId ≤ uploadTask.attemptNum + 1)
    (hattempts : uploadTask.attemptNum < networkAttemptLimit) :
    Scheduled held { self with awaitingResponse := self.awaitingResponse ++ [uploadTask] } := by
  refine ⟨fun taskId => ?_, h.bounded, h.fresh, h.queued, ?_, h.backoffs⟩
  · have honce := h.once taskId
    apply Nat.le_trans (Nat.le_of_eq _) honce
    simp only [numReturns, taskIds, List.map_append, List.map_cons, List.map_nil, List.cons_append,
      List.count_append, List.count_cons, List.count_nil]
    omega
  · intro task hmem
    rcases List.mem_append.mp hmem with hmem | hmem
    · exact h.responses task hmem
    · rw [List.mem_singleton.mp hmem]
      exact ⟨hrequests, hattempts⟩

/-- A request has failed, and its task waits to send it again. -/
theorem awaitsBackoff (h : Scheduled (uploadTask.taskId :: held) self)
    (hrequests : self.numRequests uploadTask.taskId ≤ uploadTask.attemptNum)
    (hattempts : uploadTask.attemptNum < networkAttemptLimit) :
    Scheduled held { self with awaitingBackoff := self.awaitingBackoff ++ [uploadTask] } := by
  refine ⟨fun taskId => ?_, h.bounded, h.fresh, h.queued, h.responses, ?_⟩
  · have honce := h.once taskId
    apply Nat.le_trans (Nat.le_of_eq _) honce
    simp only [numReturns, taskIds, List.map_append, List.map_cons, List.map_nil, List.cons_append,
      List.count_append, List.count_cons, List.count_nil]
    omega
  · intro task hmem
    rcases List.mem_append.mp hmem with hmem | hmem
    · exact h.backoffs task hmem
    · rw [List.mem_singleton.mp hmem]
      exact ⟨hrequests, hattempts⟩

theorem responseReceived (h : Scheduled held self) (hwaits : self.awaitingResponse = [uploadTask]) :
    Scheduled (uploadTask.taskId :: held) (self.responseReceived uploadTask.taskId) := by
  have hnone : (self.responseReceived uploadTask.taskId).awaitingResponse = [] := by
    show self.awaitingResponse.filter (·.taskId ≠ uploadTask.taskId) = []
    rw [hwaits]
    simp
  refine ⟨fun taskId => ?_, h.bounded, h.fresh, h.queued, ?_, h.backoffs⟩
  · have honce := h.once taskId
    apply Nat.le_trans (Nat.le_of_eq _) honce
    rw [taskIds, hnone, taskIds, hwaits]
    simp only [numReturns, EmerDaemon.responseReceived, List.map_append, List.map_cons,
      List.map_nil, List.cons_append, List.count_append, List.count_cons, List.count_nil]
    omega
  · intro task hmem
    rw [hnone] at hmem
    cases hmem

theorem backoffOver (h : Scheduled held self) (hwaits : self.awaitingBackoff = [uploadTask]) :
    Scheduled (uploadTask.taskId :: held) (self.backoffOver uploadTask.taskId) := by
  have hnone : (self.backoffOver uploadTask.taskId).awaitingBackoff = [] := by
    show self.awaitingBackoff.filter (·.taskId ≠ uploadTask.taskId) = []
    rw [hwaits]
    simp
  refine ⟨fun taskId => ?_, h.bounded, h.fresh, h.queued, h.responses, ?_⟩
  · have honce := h.once taskId
    apply Nat.le_trans (Nat.le_of_eq _) honce
    rw [taskIds, hnone, taskIds, hwaits]
    simp only [numReturns, EmerDaemon.backoffOver, List.map_append, List.map_cons,
      List.map_nil, List.cons_append, List.count_append, List.count_cons, List.count_nil]
    omega
  · intro task hmem
    rw [hnone] at hmem
    cases hmem

end Scheduled

/-! ## 4. Callbacks -/

/-- What holds between two callbacks. -/
structure Settled (daemon : EmerDaemon κ ε) : Prop where
  scheduled : Scheduled [] daemon
  current : daemon.CurrentWaits
  notStranded : daemon.uploadQueue ≠ [] → daemon.currentUpload = none →
    0 < daemon.outstandingChecks

/-- What holds after a callback; when it has ended the process, of its trace. -/
structure Leaves (outcome : Outcome κ ε) : Prop where
  bounded : (ofOutcome outcome).TasksBounded
  settled : ∀ next, outcome = .ok next → next.Settled

theorem Settled.leaves (h : self.Settled) : Leaves (.ok self) where
  bounded := h.scheduled.tasksBounded
  settled := by
    intro next hok
    cases hok
    exact h

theorem Settled.same (h : self.Settled) (hsame : SameTasks self next) : next.Settled := by
  refine ⟨h.scheduled.same hsame, h.current.same hsame, ?_⟩
  rw [hsame.queue, hsame.current, hsame.checks]
  exact h.notStranded

theorem leaves_error (abort : Abort) (h : Scheduled held self) :
    Leaves (.error (abort, self) : Outcome κ ε) where
  bounded := h.tasksBounded
  settled := by
    intro next hok
    cases hok

theorem Settled.schedulingSound (h : self.Settled) : self.SchedulingSound := by
  obtain ⟨upload, hwaiting, hcurrent⟩ := h.current
  refine ⟨?_, ?_, h.notStranded⟩
  · rw [hwaiting, hcurrent]
    cases upload with
    | none => simp
    | some uploadTask => simp
  · rw [hwaiting]
    cases upload with
    | none => simp
    | some uploadTask => simp

/-- When uploads are not permitted each task of the queue is returned. -/
theorem Scheduled.dequeueFrom_of_not_permits {queue : List (UploadTask ε)}
    (h : Scheduled held self) (hpermits : ¬ self.Permits) (hqueue : self.uploadQueue = queue) :
    ∃ drained, dequeueFrom parts queue self = .ok drained ∧ Scheduled held drained ∧
      drained.uploadQueue = [] ∧ SameAwaiting self drained ∧
      drained.currentUpload = self.currentUpload := by
  induction queue generalizing self with
  | nil =>
    obtain ⟨result, refused, hrefused, -⟩ := uploadPermitted_of_not_permits parts hpermits
    have hsame := sameTasks_uploadPermitted parts self
    rw [hrefused] at hsame
    rw [dequeueFrom, hrefused]
    exact ⟨refused, rfl, h.same hsame, hsame.queue.trans hqueue, hsame.awaiting, hsame.current⟩
  | cons uploadTask rest ih =>
    obtain ⟨result, refused, hrefused, -, -, hrecording, hprovider, -⟩ :=
      uploadPermitted_of_not_permits parts hpermits
    have hsame := sameTasks_uploadPermitted parts self
    rw [hrefused] at hsame
    have hrefusedQueue : refused.uploadQueue = uploadTask :: rest := hsame.queue.trans hqueue
    have hreturned := ((h.same hsame).taken hrefusedQueue refused.outstandingChecks).returned result
    rw [dequeueFrom, hrefused]
    cases rest with
    | nil => exact ⟨_, rfl, hreturned, rfl, hsame.awaiting, hsame.current⟩
    | cons nextTask tasks =>
      have hrest : ¬ ({ refused with uploadQueue := nextTask :: tasks }.log
          (.returned uploadTask.taskId result)).Permits := by
        show ¬ (refused.recordingEnabled = true ∧
          refused.permissionsProvider.getUploadingEnabled = true)
        rw [hrecording, hprovider]
        exact hpermits
      obtain ⟨drained, hdrained, hscheduled, hempty, hawaiting, hcurrent⟩ := ih hreturned hrest rfl
      exact ⟨drained, hdrained, hscheduled, hempty,
        ⟨hawaiting.1.trans hsame.awaiting.1, hawaiting.2.trans hsame.awaiting.2⟩,
        hcurrent.trans hsame.current⟩

/-- A check is started, or no task is left. -/
theorem Scheduled.dequeueAndDoUpload (h : Scheduled [] self) (hcurrent : self.CurrentWaits) :
    Leaves (self.dequeueAndDoUpload parts) := by
  by_cases hpermits : self.Permits
  · have hsame : SameTasks self (self.getServerUrl parts).2 :=
      sameTasks_withProvider parts self _ _
    rw [EmerDaemon.dequeueAndDoUpload, dequeueFrom_of_permits hpermits, getPingSocket]
    dsimp only
    split
    · apply Settled.leaves
      have hwaits := hcurrent.same hsame
      exact ⟨(h.same hsame).beside _ _, hwaits, fun _ _ => Nat.succ_pos _⟩
    · exact leaves_error _ (h.same hsame)
  · obtain ⟨drained, hdrained, hscheduled, hempty, hawaiting, hsame⟩ :=
      h.dequeueFrom_of_not_permits hpermits rfl
    rw [EmerDaemon.dequeueAndDoUpload, hdrained]
    apply Settled.leaves
    obtain ⟨upload, hwaiting, hupload⟩ := hcurrent
    exact ⟨hscheduled, ⟨upload, hawaiting.waiting_eq.trans hwaiting, hsame.trans hupload⟩,
      fun hqueue _ => absurd hempty hqueue⟩

theorem Scheduled.handleUploadFinished (h : Scheduled [] self) (hcurrent : self.CurrentWaits) :
    Leaves (self.handleUploadFinished parts) := by
  unfold EmerDaemon.handleUploadFinished
  cases hqueue : self.uploadQueue with
  | nil =>
    apply Settled.leaves
    exact ⟨h, hcurrent, fun hne _ => absurd hqueue hne⟩
  | cons uploadTask rest => exact h.dequeueAndDoUpload hcurrent

/-- The upload in flight ends, with its task in the hands of the callback. -/
theorem Scheduled.finishNetworkCallback {uploadTask : UploadTask ε}
    (h : Scheduled [uploadTask.taskId] self) (hnone : self.waiting = []) (result : UploadResult) :
    Leaves ((self.log (.returned uploadTask.taskId result)).finishNetworkCallback parts) := by
  have hfinished : Scheduled []
      { self.log (.returned uploadTask.taskId result) with currentUpload := none } :=
    (h.returned result).beside none self.outstandingChecks
  exact hfinished.handleUploadFinished ⟨none, hnone, rfl⟩

/-- A request that was entered is given up or sent. -/
theorem Scheduled.sending {uploadTask : UploadTask ε} {fault : RequestFault}
    {outcome : Outcome κ ε} (hsending : Sending parts self uploadTask fault outcome)
    (h : Scheduled [uploadTask.taskId] self) (hnone : self.waiting = [])
    (hcurrent : self.currentUpload = some uploadTask.taskId)
    (hrequests : self.numRequests uploadTask.taskId ≤ uploadTask.attemptNum + 1)
    (hattempts : uploadTask.attemptNum < networkAttemptLimit) : Leaves outcome := by
  have hsame : SameTasks self (self.getServerUrl parts).2 := sameTasks_withProvider parts self _ _
  cases hsending with
  | gaveUp hfault result => exact h.finishNetworkCallback hnone result
  | sent hnext =>
    subst hnext
    have hkept := h.same hsame
    apply Settled.leaves
    refine ⟨hkept.awaitsResponse ?_ hattempts, ⟨some uploadTask, ?_, ?_⟩, ?_⟩
    · rw [hsame.requests]
      exact hrequests
    · obtain ⟨hresponse, hbackoff⟩ := List.append_eq_nil_iff.mp hnone
      show (self.getServerUrl parts).2.awaitingResponse ++ [uploadTask] ++
        (self.getServerUrl parts).2.awaitingBackoff = [uploadTask]
      rw [hsame.awaiting.1, hsame.awaiting.2, hresponse, hbackoff]
      rfl
    · exact hsame.current.trans hcurrent
    · intro _ hidle
      rw [hsame.current, hcurrent] at hidle
      cases hidle
  | aborted abort => exact leaves_error abort (h.same hsame)

/-- The task that has its response is the only one that waits. -/
theorem CurrentWaits.ofResponse (h : self.CurrentWaits) {taskId : Nat} {uploadTask : UploadTask ε}
    (hfind : self.awaitingResponse.find? (·.taskId = taskId) = some uploadTask) :
    self.awaitingResponse = [uploadTask] ∧
      (self.responseReceived uploadTask.taskId).waiting = [] ∧
      self.currentUpload = some uploadTask.taskId := by
  obtain ⟨upload, hwaiting, hcurrent⟩ := h
  obtain ⟨rfl, hbackoff, hfilter⟩ := eq_of_find hwaiting hfind
  have hid := taskId_of_find hfind
  subst hid
  refine ⟨?_, ?_, hcurrent⟩
  · rw [waiting, hbackoff, List.append_nil] at hwaiting
    exact hwaiting
  · show self.awaitingResponse.filter (·.taskId ≠ uploadTask.taskId) ++ self.awaitingBackoff = []
    rw [hbackoff, hfilter]
    rfl

theorem CurrentWaits.ofBackoff (h : self.CurrentWaits) {taskId : Nat} {uploadTask : UploadTask ε}
    (hfind : self.awaitingBackoff.find? (·.taskId = taskId) = some uploadTask) :
    self.awaitingBackoff = [uploadTask] ∧
      (self.backoffOver uploadTask.taskId).waiting = [] ∧
      self.currentUpload = some uploadTask.taskId := by
  obtain ⟨upload, hwaiting, hcurrent⟩ := h
  obtain ⟨rfl, hresponse, hfilter⟩ := eq_of_find (append_toList_comm hwaiting) hfind
  have hid := taskId_of_find hfind
  subst hid
  refine ⟨?_, ?_, hcurrent⟩
  · rw [waiting, hresponse, List.nil_append] at hwaiting
    exact hwaiting
  · show self.awaitingResponse ++ self.awaitingBackoff.filter (·.taskId ≠ uploadTask.taskId) = []
    rw [hresponse, hfilter]
    rfl

theorem CurrentWaits.idle (h : self.CurrentWaits) (hidle : self.currentUpload = none) :
    self.waiting = [] := by
  obtain ⟨upload, hwaiting, hcurrent⟩ := h
  cases upload with
  | none => exact hwaiting
  | some uploadTask =>
    rw [hidle] at hcurrent
    cases hcurrent

/-! ## 5. The ways of an upload -/

/-- A task is taken from the queue, and returned at once. -/
theorem Settled.returnedPopped (h : self.Settled) {uploadTask : UploadTask ε}
    {rest : List (UploadTask ε)} (hqueue : self.uploadQueue = uploadTask :: rest)
    (hsame : SameTasks (self.popped rest) next) (result : UploadResult) :
    Leaves ((next.log (.returned uploadTask.taskId result)).handleUploadFinished parts) := by
  have htaken : Scheduled [uploadTask.taskId] (self.popped rest) := h.scheduled.taken hqueue _
  have hpopped : (self.popped rest).CurrentWaits := h.current
  have hwaits := hpopped.same hsame
  exact ((htaken.same hsame).returned result).handleUploadFinished hwaits

/-- It is sent for the first time. -/
theorem Settled.started (h : self.Settled) (hidle : self.currentUpload = none)
    {uploadTask request : UploadTask ε} {rest : List (UploadTask ε)}
    (hqueue : self.uploadQueue = uploadTask :: rest) {entering : EmerDaemon κ ε}
    {fault : RequestFault} {outcome : Outcome κ ε}
    (hbody : (self.popped rest).createRequestBody parts uploadTask true = (some request, entering))
    (hsending : Sending parts
      ({ entering with currentUpload := some request.taskId }.entered request) request fault
      outcome) :
    Leaves outcome := by
  have htaken : Scheduled [uploadTask.taskId] (self.popped rest) := h.scheduled.taken hqueue _
  have hsame := sameTasks_createRequestBody parts (self.popped rest) uploadTask true
  have hsome : ((self.popped rest).createRequestBody parts uploadTask true).1 = some request := by
    rw [hbody]
  obtain ⟨buffered, -, -, hrequest⟩ := createRequestBody_eq_some hsome
  have hid : request.taskId = uploadTask.taskId := by rw [hrequest]
  have hattempt : request.attemptNum = 0 := by rw [hrequest]
  rw [hbody] at hsame
  -- it is the first request of this task
  have hfirst : entering.numRequests request.taskId = 0 := by
    rw [hsame.requests, hid]
    exact h.scheduled.queued uploadTask (by rw [hqueue]; exact List.mem_cons_self)
  rw [← hid] at htaken
  have hkept := (htaken.same hsame).beside (some request.taskId) entering.outstandingChecks
  have hlimit : entering.numRequests request.taskId < networkAttemptLimit := by
    rw [hfirst]
    decide
  have hnone : entering.waiting = [] := by
    rw [hsame.awaiting.waiting_eq]
    exact h.current.idle hidle
  apply (hkept.entered hlimit).sending hsending hnone rfl
  · rw [numRequests_entered, List.count_singleton_self]
    show entering.numRequests request.taskId + 1 ≤ request.attemptNum + 1
    rw [hfirst, hattempt]
  · rw [hattempt]
    decide

/-- Its events have been accepted. -/
theorem Settled.uploaded (h : self.Settled) {taskId : Nat} {uploadTask : UploadTask ε}
    (hfind : self.awaitingResponse.find? (·.taskId = taskId) = some uploadTask)
    {removed : EmerDaemon κ ε}
    (hremove : (self.acknowledged parts uploadTask).removeEvents parts
      uploadTask.numBufferEvents = .ok removed) (result : UploadResult) :
    Leaves (((removed.flushToPersistentCache parts).log
      (.returned uploadTask.taskId result)).finishNetworkCallback parts) := by
  obtain ⟨hresponses, hnone, -⟩ := h.current.ofResponse hfind
  obtain ⟨buffer, -, rfl⟩ := removeEvents_eq_ok hremove
  have hacknowledged := sameTasks_acknowledged parts self uploadTask
  have hremoved : SameTasks (self.responseReceived uploadTask.taskId)
      { self.acknowledged parts uploadTask with buffer := buffer } :=
    ⟨rfl, ⟨rfl, rfl⟩, rfl, rfl, rfl, hacknowledged.returns, hacknowledged.requests⟩
  have hflushed := hremoved.trans (sameTasks_flush parts _)
  apply ((h.scheduled.responseReceived hresponses).same hflushed).finishNetworkCallback
  rw [hflushed.awaiting.waiting_eq]
  exact hnone

/-- Its request has failed, and it waits to be sent again. -/
theorem Settled.retried (h : self.Settled) {uploadTask : UploadTask ε}
    (hfind : self.awaitingResponse.find? (·.taskId = uploadTask.taskId) = some uploadTask)
    (hattempts : uploadTask.attemptNum + 1 < networkAttemptLimit) :
    Settled { self.responseReceived uploadTask.taskId with
      awaitingBackoff := self.awaitingBackoff ++
        [{ uploadTask with attemptNum := uploadTask.attemptNum + 1 }] } := by
  obtain ⟨hresponses, hnone, hupload⟩ := h.current.ofResponse hfind
  have hmem : uploadTask ∈ self.awaitingResponse := by
    rw [hresponses]
    exact List.mem_cons_self
  obtain ⟨hresponse, hbackoff⟩ := List.append_eq_nil_iff.mp hnone
  let retried : UploadTask ε := { uploadTask with attemptNum := uploadTask.attemptNum + 1 }
  have hreceived := h.scheduled.responseReceived hresponses
  have hheld : Scheduled [retried.taskId] (self.responseReceived uploadTask.taskId) := hreceived
  refine ⟨hheld.awaitsBackoff (h.scheduled.responses uploadTask hmem).1 hattempts,
    ⟨some retried, ?_, hupload⟩, fun _ hidle => ?_⟩
  · show (self.responseReceived uploadTask.taskId).awaitingResponse ++
      (self.awaitingBackoff ++ [retried]) = [retried]
    have hempty : self.awaitingBackoff = [] := hbackoff
    rw [hresponse, hempty]
    rfl
  · have hnocurrent : self.currentUpload = none := hidle
    rw [hupload] at hnocurrent
    cases hnocurrent

theorem Settled.sentAgain (h : self.Settled) {uploadTask : UploadTask ε} {fault : RequestFault}
    {outcome : Outcome κ ε}
    (hfind : self.awaitingBackoff.find? (·.taskId = uploadTask.taskId) = some uploadTask)
    (hsending : Sending parts ((self.backoffOver uploadTask.taskId).entered uploadTask) uploadTask
      fault outcome) :
    Leaves outcome := by
  obtain ⟨hbackoffs, hnone, hupload⟩ := h.current.ofBackoff hfind
  have hmem : uploadTask ∈ self.awaitingBackoff := by
    rw [hbackoffs]
    exact List.mem_cons_self
  obtain ⟨hrequests, hattempts⟩ := h.scheduled.backoffs uploadTask hmem
  have hlimit : (self.backoffOver uploadTask.taskId).numRequests uploadTask.taskId <
      networkAttemptLimit := Nat.lt_of_le_of_lt hrequests hattempts
  apply ((h.scheduled.backoffOver hbackoffs).entered hlimit).sending hsending hnone hupload
  · rw [numRequests_entered, List.count_singleton_self]
    exact Nat.succ_le_succ hrequests
  · exact hattempts

/-! ## 6. Steps and runs -/

/-- **Step lemma.** -/
theorem Settled.handled {event : DaemonEvent ε} {outcome : Outcome κ ε}
    (hhandled : Handled parts self event outcome) (h : self.Settled) : Leaves outcome := by
  have hscheduled := h.scheduled
  have hcurrent := h.current
  cases hhandled with
  -- one case per way that a callback can go
  | ignored hsends => exact h.leaves
  | recorded hrecording => exact (h.same (sameTasks_bufferEvent parts self _)).leaves
  | configured provider notified hsends =>
    exact (h.same (sameTasks_withProvider parts self provider notified)).leaves
  | requested => exact (hscheduled.enqueued gMaxsize).dequeueAndDoUpload hcurrent
  | timerFired =>
    have hreloaded : SameTasks self (self.getEnvironment parts) :=
      sameTasks_withProvider parts self _ _
    have hqueued := (hscheduled.same hreloaded).enqueued maxRequestPayload
    have hwaits := hcurrent.same hreloaded
    exact hqueued.dequeueAndDoUpload hwaits
  | checkedWhileBusy hbusy =>
    apply Settled.leaves
    refine ⟨hscheduled.beside _ _, hcurrent, fun _ hidle => ?_⟩
    -- the upload under way will start the next check
    have hnone : self.currentUpload = none := hidle
    rw [hnone] at hbusy
    cases hbusy
  | checkedEmptyQueue hchecks hidle hqueue =>
    have hcompleted : Scheduled [] self.checkCompleted := hscheduled.beside _ _
    exact leaves_error _ hcompleted
  | unreachableEmptyQueue hchecks hidle hqueue =>
    have hcompleted : Scheduled [] self.checkCompleted := hscheduled.beside _ _
    have hflush := sameTasks_flush parts self.checkCompleted
    have hwaits : self.checkCompleted.CurrentWaits := hcurrent
    exact (hcompleted.same hflush).handleUploadFinished (hwaits.same hflush)
  | @unreachable fault uploadTask rest hchecks hidle hqueue =>
    exact h.returnedPopped hqueue (sameTasks_flush parts (self.popped rest)) .unreachable
  | @noTimestamps uploadTask rest hchecks hidle hqueue =>
    exact h.returnedPopped hqueue
      (sameTasks_createRequestBody parts (self.popped rest) uploadTask false) .noTimestamps
  | @started fault uploadTask request rest entering outcome hchecks hidle hqueue hfault hbody
      hsending =>
    exact h.started hidle hqueue hbody hsending
  | @removedPastEnd taskId uploadTask abort hfind hlive hremove =>
    obtain ⟨hresponses, -, -⟩ := hcurrent.ofResponse hfind
    obtain ⟨rfl, -⟩ := removeEvents_eq_error hremove
    have hreceived := hscheduled.responseReceived hresponses
    exact leaves_error _ (hreceived.same (sameTasks_acknowledged parts self uploadTask))
  | @uploaded taskId uploadTask removed hfind hlive hremove => exact h.uploaded hfind hremove _
  | @gaveUp taskId uploadTask response hfind hends hretry cancelledUploads result =>
    obtain ⟨hresponses, hnone, -⟩ := hcurrent.ofResponse hfind
    obtain rfl := taskId_of_find hfind
    have hsame : SameTasks (self.responseReceived uploadTask.taskId)
        { self.responseReceived uploadTask.taskId with cancelledUploads := cancelledUploads } :=
      ⟨rfl, ⟨rfl, rfl⟩, rfl, rfl, rfl, fun _ => rfl, fun _ => rfl⟩
    exact ((hscheduled.responseReceived hresponses).same hsame).finishNetworkCallback hnone result
  | @retried taskId uploadTask hfind hlive hattempts =>
    obtain rfl := taskId_of_find hfind
    exact (h.retried hfind hattempts).leaves
  | @backoffGaveUp taskId uploadTask hfind =>
    obtain ⟨hbackoffs, hnone, -⟩ := hcurrent.ofBackoff hfind
    obtain rfl := taskId_of_find hfind
    exact (hscheduled.backoffOver hbackoffs).finishNetworkCallback hnone .noTimestamps
  | @backoffSent taskId uploadTask fault outcome hfind hfault hsending =>
    obtain rfl := taskId_of_find hfind
    exact h.sentAgain hfind hsending

variable (parts) in
/-- The daemon as it is constructed has no tasks. -/
theorem settled_new (permissionsProvider : EmerPermissionsProvider) (persistentCache : κ)
    (maxBytesBuffered : Nat) (pastEvents : List ε) :
    (new parts permissionsProvider persistentCache maxBytesBuffered pastEvents).Settled := by
  apply new_keeps
  · refine ⟨⟨?_, ?_, ?_, ?_, ?_, ?_⟩, ⟨none, rfl, rfl⟩, fun hqueue _ => absurd rfl hqueue⟩
    all_goals simp [initial, numReturns, numRequests, taskIds]
  · intro self event h
    exact h.same (sameTasks_recordEvent parts self event)
  · intro self provider notified h
    exact h.same (sameTasks_withProvider parts self provider notified)

variable (parts) in
/-- **Run lemma.** -/
theorem leaves_throughout (permissionsProvider : EmerPermissionsProvider) (persistentCache : κ)
    (maxBytesBuffered : Nat) (pastEvents : List ε) (events : List (DaemonEvent ε)) :
    Throughout (step parts) Leaves
      (.ok (new parts permissionsProvider persistentCache maxBytesBuffered pastEvents)) events := by
  apply throughout_of_invariant
  · intro outcome event houtcome
    cases outcome with
    | error abort => exact houtcome
    | ok self => exact (houtcome.settled self rfl).handled (handle_handled parts self event)
  · exact (settled_new parts permissionsProvider persistentCache maxBytesBuffered
      pastEvents).leaves

/-- In every run, up to the end of the process, at most one upload is in flight, every task is
returned at most once and sends a bounded number of requests, and no queued task is stranded. -/
theorem uploadScheduling_sound (parts : DaemonParts κ ε)
    (permissionsProvider : EmerPermissionsProvider) (persistentCache : κ)
    (maxBytesBuffered : Nat) (pastEvents : List ε) (events : List (DaemonEvent ε)) :
    Throughout (step parts)
      (fun outcome => (ofOutcome outcome).TasksBounded ∧
        ∀ self, outcome = .ok self → self.SchedulingSound)
      (.ok (new parts permissionsProvider persistentCache maxBytesBuffered pastEvents)) events := by
  have hrun := leaves_throughout parts permissionsProvider persistentCache maxBytesBuffered
    pastEvents events
  exact hrun.mono fun outcome h =>
    ⟨h.bounded, fun self hok => (h.settled self hok).schedulingSound⟩

end EmerDaemon

end EventRecorder
