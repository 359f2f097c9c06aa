import EventRecorder.Daemon.Draining

/-!
# What a successful upload tells its caller

Whoever asks for an upload of everything is told of success when the server has accepted a request.
By then the server has all that was recorded before the call, unless recording was switched off in
between.
-/

namespace EventRecorder

open Theory

namespace EventBuffer

variable {ε : Type*} {cost : ε → Nat}

theorem maxBytesBuffered_removeEvents {self buffer : EventBuffer ε} {numEvents : Nat}
    (h : self.removeEvents cost numEvents = some buffer) :
    buffer.maxBytesBuffered = self.maxBytesBuffered := by
  unfold removeEvents at h
  split at h
  · cases h
    rfl
  · cases h

theorem maxBytesBuffered_bufferEvent (self : EventBuffer ε) (event : ε) :
    (self.bufferEvent cost event).maxBytesBuffered = self.maxBytesBuffered := by
  unfold bufferEvent
  dsimp only
  split
  · split
    · rfl
    · rfl
  · rfl

end EventBuffer

namespace EmerDaemon

variable {κ ε : Type*} {parts : DaemonParts κ ε} {self next : EmerDaemon κ ε}
  {answered : Option Nat}

/-! ## 1. What a callback reports -/

/-- What happens on the way from one state to another: no success is returned but that of the task
`answered`, and only an opt-out cancels the current upload. -/
structure Reports (answered : Option Nat) (before after : EmerDaemon κ ε)
    (actions : List (Action ε)) : Prop where
  trace : after.trace = before.trace ++ actions
  succeeded : ∀ taskId, .returned taskId .uploaded ∈ actions → answered = some taskId
  cancelled : ∀ taskId ∈ after.cancelledUploads, taskId ∈ before.cancelledUploads ∨
    .optedOut ∈ actions ∧ before.currentUpload = some taskId
  current : after.currentUpload = none ∨ after.currentUpload = before.currentUpload
  limit : after.buffer.maxBytesBuffered = before.buffer.maxBytesBuffered
  nextTaskId : before.nextTaskId ≤ after.nextTaskId

def Reporting (answered : Option Nat) (before after : EmerDaemon κ ε) : Prop :=
  ∃ actions, Reports answered before after actions

theorem Reporting.trans {first second third : EmerDaemon κ ε}
    (h : Reporting answered first second) (h' : Reporting answered second third) :
    Reporting answered first third := by
  obtain ⟨actions, h⟩ := h
  obtain ⟨actions', h'⟩ := h'
  refine ⟨actions ++ actions', ?_, ?_, ?_, ?_, h'.limit.trans h.limit,
    h.nextTaskId.trans h'.nextTaskId⟩
  · rw [h'.trace, h.trace, List.append_assoc]
  · intro taskId hmem
    cases List.mem_append.mp hmem with
    | inl hmem => exact h.succeeded taskId hmem
    | inr hmem => exact h'.succeeded taskId hmem
  · intro taskId hmem
    cases h'.cancelled taskId hmem with
    | inl hbefore =>
      exact (h.cancelled taskId hbefore).imp_right fun hopted =>
        ⟨List.mem_append_left _ hopted.1, hopted.2⟩
    | inr hopted =>
      -- the current upload of the second part was that of the first, unless none was left
      have hcurrent := hopted.2
      cases h.current with
      | inl hnone =>
        rw [hnone] at hcurrent
        cases hcurrent
      | inr hsame => exact .inr ⟨List.mem_append_right _ hopted.1, hsame ▸ hcurrent⟩
  · cases h'.current with
    | inl hnone => exact .inl hnone
    | inr hsame =>
      rw [hsame]
      exact h.current

/-- Nothing of what is reported changes. -/
theorem reporting_same (htrace : next.trace = self.trace)
    (hcancelled : next.cancelledUploads ⊆ self.cancelledUploads)
    (hcurrent : next.currentUpload = none ∨ next.currentUpload = self.currentUpload)
    (hlimit : next.buffer.maxBytesBuffered = self.buffer.maxBytesBuffered)
    (hnext : self.nextTaskId ≤ next.nextTaskId) : Reporting answered self next :=
  ⟨[], htrace.trans (List.append_nil _).symm, fun _ hmem => absurd hmem List.not_mem_nil,
    fun _ hmem => .inl (hcancelled hmem), hcurrent, hlimit, hnext⟩

theorem Reporting.refl (self : EmerDaemon κ ε) : Reporting answered self self :=
  reporting_same rfl (List.Subset.refl _) (.inr rfl) rfl (Nat.le_refl _)

theorem reporting_log (action : Action ε)
    (haction : ∀ taskId, action = .returned taskId .uploaded → answered = some taskId) :
    Reporting answered self (self.log action) := by
  refine ⟨[action], rfl, ?_, fun _ hmem => .inl hmem, .inr rfl, rfl, Nat.le_refl _⟩
  intro taskId hmem
  exact haction taskId (List.mem_singleton.mp hmem).symm

theorem reporting_returned (taskId : Nat) {result : UploadResult} (hresult : result ≠ .uploaded) :
    Reporting answered self (self.log (.returned taskId result)) := by
  apply reporting_log
  intro other heq
  cases heq
  exact absurd rfl hresult

theorem reporting_bufferEvent (self : EmerDaemon κ ε) (event : ε) :
    Reporting answered self (self.bufferEvent parts event) := by
  rw [bufferEvent_eq]
  refine ⟨_, rfl, ?_, fun _ hmem => .inl hmem, .inr rfl,
    EventBuffer.maxBytesBuffered_bufferEvent _ _, Nat.le_refl _⟩
  intro taskId hmem
  split at hmem
  · cases List.mem_singleton.mp hmem
  · cases hmem

theorem reporting_recordEvent (self : EmerDaemon κ ε) (event : ε) :
    Reporting answered self (self.recordEvent parts event) := by
  unfold recordEvent
  split
  · exact reporting_bufferEvent self event
  · exact .refl self

theorem reporting_flush (self : EmerDaemon κ ε) :
    Reporting answered self (self.flushToPersistentCache parts) := by
  rcases flushToPersistentCache_cases parts self with hflush | ⟨-, hflush⟩ |
      ⟨numEvents, buffer, -, hremove, hflush⟩
  · rw [hflush]
    exact .refl self
  · rw [hflush]
    exact reporting_same rfl (List.Subset.refl _) (.inr rfl) rfl (Nat.le_refl _)
  · rw [hflush]
    exact reporting_same rfl (List.Subset.refl _) (.inr rfl)
      (EventBuffer.maxBytesBuffered_removeEvents hremove) (Nat.le_refl _)

theorem reporting_withProvider (self : EmerDaemon κ ε) (provider : EmerPermissionsProvider)
    (notified : List ProviderProperty) :
    Reporting answered self (self.withProvider parts provider notified) := by
  rcases self.withProvider_cases parts provider notified with ⟨recording, -, h⟩ | h
  · rw [h]
    exact reporting_same rfl (List.Subset.refl _) (.inr rfl) rfl (Nat.le_refl _)
  · rw [h]
    -- an opt-out cancels the current upload and empties the buffer
    refine ⟨[.optedOut], rfl, ?_, ?_, .inr rfl, ?_, Nat.le_refl _⟩
    · intro taskId hmem
      cases List.mem_singleton.mp hmem
    · intro taskId hmem
      cases List.mem_append.mp hmem with
      | inl hcurrent =>
        exact .inr ⟨List.mem_singleton_self _, Option.mem_toList.mp hcurrent⟩
      | inr hbefore => exact .inl hbefore
    · obtain ⟨buffer, hremove⟩ : ∃ buffer,
          self.buffer.removeEvents parts.cost self.buffer.variantArray.length = some buffer :=
        EventBuffer.removeEvents_isSome (Nat.le_refl _)
      show (emptied parts self.buffer).maxBytesBuffered = _
      rw [emptied, hremove]
      exact EventBuffer.maxBytesBuffered_removeEvents hremove

theorem reporting_uploadPermitted (self : EmerDaemon κ ε) :
    Reporting answered self (self.uploadPermitted parts).2 ∧
      ∀ result, (self.uploadPermitted parts).1 = .error result → result ≠ .uploaded := by
  unfold uploadPermitted
  split
  · refine ⟨.refl self, ?_⟩
    rintro result hresult rfl
    cases hresult
  split
  · refine ⟨reporting_flush self, ?_⟩
    rintro result hresult rfl
    cases hresult
  · refine ⟨.refl self, ?_⟩
    intro result hresult
    cases hresult

theorem reporting_getPingSocket (self : EmerDaemon κ ε) :
    Reporting answered self (ofOutcome ((self.getPingSocket parts).map fun self =>
      { self with outstandingChecks := self.outstandingChecks + 1 })) := by
  have hurl : Reporting answered self (self.getServerUrl parts).2 :=
    reporting_withProvider self _ _
  unfold getPingSocket
  dsimp only
  split
  · exact hurl.trans (reporting_same rfl (List.Subset.refl _) (.inr rfl) rfl (Nat.le_refl _))
  · exact hurl

/-- Every task of the queue that is refused fails. -/
theorem reporting_dequeueFrom (queue : List (UploadTask ε)) (self : EmerDaemon κ ε) :
    Reporting answered self (ofOutcome (dequeueFrom parts queue self)) := by
  induction queue generalizing self with
  | nil =>
    obtain ⟨hpermitted, -⟩ := @reporting_uploadPermitted _ _ parts answered self
    rw [dequeueFrom]
    generalize self.uploadPermitted parts = permission at hpermitted
    obtain ⟨answer, refused⟩ := permission
    cases answer with
    | ok _ => exact hpermitted.trans (reporting_getPingSocket refused)
    | error result => exact hpermitted
  | cons uploadTask rest ih =>
    obtain ⟨hpermitted, hfails⟩ := @reporting_uploadPermitted _ _ parts answered self
    rw [dequeueFrom]
    generalize self.uploadPermitted parts = permission at hpermitted hfails
    obtain ⟨answer, refused⟩ := permission
    cases answer with
    | ok _ => exact hpermitted.trans (reporting_getPingSocket refused)
    -- the task is returned as failed, and the signal that follows takes the rest of the queue
    | error result =>
      have hpopped : Reporting answered refused { refused with uploadQueue := rest } :=
        reporting_same rfl (List.Subset.refl _) (.inr rfl) rfl (Nat.le_refl _)
      have hreturned := (hpermitted.trans hpopped).trans
        (reporting_returned uploadTask.taskId (hfails result rfl))
      cases rest with
      | nil => exact hreturned
      | cons nextTask tasks => exact hreturned.trans (ih _)

theorem reporting_handleUploadFinished (self : EmerDaemon κ ε) :
    Reporting answered self (ofOutcome (self.handleUploadFinished parts)) := by
  unfold handleUploadFinished
  split
  · exact .refl self
  · exact reporting_dequeueFrom _ self

theorem reporting_finishNetworkCallback (self : EmerDaemon κ ε) :
    Reporting answered self (ofOutcome (self.finishNetworkCallback parts)) := by
  have hfinished : Reporting answered self self.finished :=
    reporting_same rfl (List.Subset.refl _) (.inl rfl) rfl (Nat.le_refl _)
  exact hfinished.trans (reporting_handleUploadFinished self.finished)

theorem reporting_finish (self : EmerDaemon κ ε) (taskId : Nat) {result : UploadResult}
    (hresult : result ≠ .uploaded) :
    Reporting answered self
      (ofOutcome ((self.log (.returned taskId result)).finishNetworkCallback parts)) :=
  (reporting_returned taskId hresult).trans (reporting_finishNetworkCallback _)

theorem reporting_uploadEvents (self : EmerDaemon κ ε) (maxUploadSize : Nat) :
    Reporting answered self (ofOutcome (self.uploadEvents parts maxUploadSize)) := by
  have hqueued : Reporting answered self (self.enqueued maxUploadSize) :=
    reporting_same rfl (List.Subset.refl _) (.inr rfl) rfl (Nat.le_succ _)
  exact hqueued.trans (reporting_dequeueFrom _ (self.enqueued maxUploadSize))

theorem reporting_queueHttpRequest (self : EmerDaemon κ ε) (uploadTask : UploadTask ε)
    (fault : RequestFault) :
    Reporting answered self (ofOutcome (self.queueHttpRequest parts uploadTask fault)) := by
  have hentered : Reporting answered self (self.entered uploadTask) := by
    apply reporting_log
    intro taskId heq
    cases heq
  have hsent : Reporting answered (self.entered uploadTask)
      (ofOutcome (((self.entered uploadTask).getHttpRequestUrl parts).map fun self =>
        { self with awaitingResponse := self.awaitingResponse ++ [uploadTask] })) := by
    have hurl : Reporting answered (self.entered uploadTask)
        ((self.entered uploadTask).getServerUrl parts).2 := reporting_withProvider _ _ _
    unfold getHttpRequestUrl
    dsimp only
    split
    · exact hurl.trans (reporting_same rfl (List.Subset.refl _) (.inr rfl) rfl (Nat.le_refl _))
    · exact hurl
  cases fault with
  | none => exact hentered.trans hsent
  | timestamps => exact hentered.trans hsent
  | serialize => exact hentered.trans (reporting_finish _ _ (by decide))
  | compress => exact hentered.trans (reporting_finish _ _ (by decide))

/-! ## 2. What handling an event reports -/

/-- A success is returned only for the response that is handled, and the task that an opt-out
cancels is the current one or has just left the queue. -/
structure Effects (event : DaemonEvent ε) (before after : EmerDaemon κ ε)
    (actions : List (Action ε)) : Prop where
  trace : after.trace = before.trace ++ actions
  succeeded : ∀ taskId, .returned taskId .uploaded ∈ actions →
    event = .httpResponse taskId .successful
  cancelled : ∀ taskId ∈ after.cancelledUploads, taskId ∈ before.cancelledUploads ∨
    .optedOut ∈ actions ∧
      (before.currentUpload = some taskId ∨ taskId ∈ before.uploadQueue.map (·.taskId))
  limit : after.buffer.maxBytesBuffered = before.buffer.maxBytesBuffered
  nextTaskId : before.nextTaskId ≤ after.nextTaskId

theorem Reporting.effects {event : DaemonEvent ε} (h : Reporting answered self next)
    (hanswered : ∀ taskId, answered = some taskId → event = .httpResponse taskId .successful) :
    ∃ actions, Effects event self next actions := by
  obtain ⟨actions, h⟩ := h
  exact ⟨actions, h.trace, fun taskId hmem => hanswered taskId (h.succeeded taskId hmem),
    fun taskId hmem => (h.cancelled taskId hmem).imp_right fun hopted =>
      ⟨hopted.1, .inl hopted.2⟩, h.limit, h.nextTaskId⟩

/-- Without an answered task no success is returned. -/
theorem Reporting.effects_none {event : DaemonEvent ε} (h : Reporting none self next) :
    ∃ actions, Effects event self next actions :=
  h.effects fun _ heq => by cases heq

theorem effects_canReach (self : EmerDaemon κ ε) (reachable : Bool) (fault : RequestFault) :
    ∃ actions, Effects (.canReach reachable fault) self
      (ofOutcome (self.handleNetworkMonitorCanReach parts reachable fault)) actions := by
  unfold handleNetworkMonitorCanReach
  split
  · exact (Reporting.refl self).effects_none
  split
  · split
    · exact (Reporting.refl self).effects_none
    · exact ((reporting_flush self).trans (reporting_handleUploadFinished _)).effects_none
  · rename_i uploadTask rest hqueue
    have hpopped : Reporting none self { self with uploadQueue := rest } :=
      reporting_same rfl (List.Subset.refl _) (.inr rfl) rfl (Nat.le_refl _)
    dsimp only
    split
    · exact (((hpopped.trans (reporting_flush _)).trans
        (reporting_returned uploadTask.taskId (by decide))).trans
          (reporting_handleUploadFinished _)).effects_none
    obtain ⟨cache, hcache⟩ := createRequestBody_eq parts { self with uploadQueue := rest }
      uploadTask (fault ≠ .timestamps)
    have hbuilt : Reporting none self (createRequestBody parts { self with uploadQueue := rest }
        uploadTask (fault ≠ .timestamps)).2 := by
      rw [hcache]
      exact reporting_same rfl (List.Subset.refl _) (.inr rfl) rfl (Nat.le_refl _)
    split
    · rename_i entering hbody
      rw [hbody] at hbuilt
      exact ((hbuilt.trans (reporting_returned uploadTask.taskId (by decide))).trans
        (reporting_handleUploadFinished _)).effects_none
    · rename_i request entering hbody
      have hsome : (createRequestBody parts { self with uploadQueue := rest } uploadTask
          (fault ≠ .timestamps)).1 = some request := by rw [hbody]
      obtain ⟨buffered, -, -, hrequest⟩ := createRequestBody_eq_some hsome
      have hid : request.taskId = uploadTask.taskId := by rw [hrequest]
      rw [hbody] at hcache
      dsimp only at hcache
      subst hcache
      -- the task that is entered is the current one from here on
      obtain ⟨actions, h⟩ := @reporting_queueHttpRequest _ _ parts none
        { self with
          uploadQueue := rest, persistentCache := cache, currentUpload := some request.taskId }
        request fault
      refine ⟨actions, h.trace, ?_, ?_, h.limit, h.nextTaskId⟩
      · intro taskId hmem
        cases h.succeeded taskId hmem
      intro taskId hmem
      refine (h.cancelled taskId hmem).imp_right fun hopted => ⟨hopted.1, .inr ?_⟩
      rw [hqueue, ← Option.some.inj hopted.2, hid]
      exact List.mem_cons_self

theorem effects_httpResponse (self : EmerDaemon κ ε) (uploadTask : UploadTask ε)
    (outcome : HttpOutcome) :
    ∃ actions, Effects (.httpResponse uploadTask.taskId outcome) self
      (ofOutcome (self.handleHttpResponse parts uploadTask outcome)) actions := by
  unfold handleHttpResponse
  split
  · have hanswered : ∀ taskId, some uploadTask.taskId = some taskId →
        (DaemonEvent.httpResponse uploadTask.taskId .successful : DaemonEvent ε) =
          .httpResponse taskId .successful := by
      intro taskId heq
      rw [Option.some.inj heq]
    have hreturned : ∀ {reached : EmerDaemon κ ε},
        Reporting (some uploadTask.taskId) self reached →
        Reporting (some uploadTask.taskId) self (ofOutcome
          ((reached.log (.returned uploadTask.taskId .uploaded)).finishNetworkCallback parts)) := by
      intro reached hreached
      have hlog : Reporting (some uploadTask.taskId) reached
          (reached.log (.returned uploadTask.taskId .uploaded)) := by
        apply reporting_log
        intro taskId heq
        cases heq
        rfl
      exact (hreached.trans hlog).trans (reporting_finishNetworkCallback _)
    split
    -- a cancelled upload is reported as a success as well, though nothing is removed
    · have hreset : Reporting (some uploadTask.taskId) self { self with
          cancelledUploads := self.cancelledUploads.filter (· ≠ uploadTask.taskId) } :=
        reporting_same rfl (List.filter_subset_self _) (.inr rfl) rfl (Nat.le_refl _)
      exact (hreturned hreset).effects hanswered
    · have hlog : Reporting (some uploadTask.taskId) self
          (self.log (.acknowledged uploadTask.requestBody)) := by
        apply reporting_log
        intro taskId heq
        cases heq
      have hremoved : Reporting (some uploadTask.taskId) self
          ((self.log (.acknowledged uploadTask.requestBody)).removeFromPersistentCache parts
            uploadTask.token) :=
        hlog.trans (reporting_same rfl (List.Subset.refl _) (.inr rfl) rfl (Nat.le_refl _))
      dsimp only
      split
      -- the process ends before the task is returned
      · rename_i abort hremove
        obtain ⟨rfl, -⟩ := removeEvents_eq_error hremove
        exact hremoved.effects hanswered
      · rename_i removed hremove
        obtain ⟨buffer, hbuffer, rfl⟩ := removeEvents_eq_ok hremove
        have hbuffered : Reporting (some uploadTask.taskId) self
            { (self.log (.acknowledged uploadTask.requestBody)).removeFromPersistentCache parts
                uploadTask.token with buffer := buffer } :=
          hremoved.trans (reporting_same rfl (List.Subset.refl _) (.inr rfl)
            (EventBuffer.maxBytesBuffered_removeEvents hbuffer) (Nat.le_refl _))
        exact (hreturned (hbuffered.trans (reporting_flush _))).effects hanswered
  · split
    · exact (reporting_finish self _ (by decide)).effects_none
    dsimp only
    split
    · exact (reporting_finish self _ (by decide)).effects_none
    split
    · exact Reporting.effects_none
        (reporting_same rfl (List.Subset.refl _) (.inr rfl) rfl (Nat.le_refl _))
    · exact (reporting_finish self _ (by decide)).effects_none

/-- **Step lemma.** -/
theorem effects_handle (self : EmerDaemon κ ε) (event : DaemonEvent ε) :
    ∃ actions, Effects event self (ofOutcome (self.handle parts event)) actions := by
  cases event with
  | recordEvent event => exact (reporting_recordEvent self event).effects_none
  | uploadEvents => exact (reporting_uploadEvents self gMaxsize).effects_none
  | uploadTimer =>
    have hreloaded : Reporting none self (self.getEnvironment parts) :=
      reporting_withProvider self _ _
    exact (hreloaded.trans (reporting_uploadEvents _ maxRequestPayload)).effects_none
  | canReach reachable fault =>
    rw [handle]
    split
    · exact (Reporting.refl self).effects_none
    · obtain ⟨actions, h⟩ := @effects_canReach _ _ parts self.checkCompleted reachable fault
      exact ⟨actions, h.trace, h.succeeded, h.cancelled, h.limit, h.nextTaskId⟩
  | httpResponse taskId outcome =>
    rw [handle]
    split
    · exact (Reporting.refl self).effects_none
    · rename_i uploadTask hfind
      obtain rfl := taskId_of_find hfind
      obtain ⟨actions, h⟩ := @effects_httpResponse _ _ parts
        (self.responseReceived uploadTask.taskId) uploadTask outcome
      exact ⟨actions, h.trace, h.succeeded, h.cancelled, h.limit, h.nextTaskId⟩
  | backoffTimer taskId fault =>
    rw [handle]
    split
    · exact (Reporting.refl self).effects_none
    · rename_i uploadTask hfind
      have hover : Reporting none self (self.backoffOver taskId) :=
        reporting_same rfl (List.Subset.refl _) (.inr rfl) rfl (Nat.le_refl _)
      unfold handleBackoffTimer
      split
      · exact (hover.trans (reporting_finish _ _ (by decide))).effects_none
      · exact (hover.trans (reporting_queueHttpRequest _ _ _)).effects_none
  | setDaemonEnabled enabled =>
    have hset : Reporting none self (self.withProvider parts
        (self.permissionsProvider.setDaemonEnabled enabled).1
        (self.permissionsProvider.setDaemonEnabled enabled).2) := reporting_withProvider self _ _
    exact hset.effects_none
  | setUploadingEnabled enabled =>
    have hset : Reporting none self (self.withProvider parts
        (self.permissionsProvider.setUploadingEnabled enabled).1
        (self.permissionsProvider.setUploadingEnabled enabled).2) :=
      reporting_withProvider self _ _
    exact hset.effects_none
  | writeConfigFileIdle saved =>
    rw [handle]
    split
    · exact Reporting.effects_none
        (reporting_same rfl (List.Subset.refl _) (.inr rfl) rfl (Nat.le_refl _))
    · exact (Reporting.refl self).effects_none
  | configFileEdited file =>
    exact Reporting.effects_none
      (reporting_same rfl (List.Subset.refl _) (.inr rfl) rfl (Nat.le_refl _))

/-! ## 3. Where the requests under way come from -/

theorem mem_waiting_sending {uploadTask request : UploadTask ε} {fault : RequestFault}
    {outcome : Outcome κ ε} (h : Sending parts self uploadTask fault outcome)
    (hmem : request ∈ (ofOutcome outcome).waiting) :
    request ∈ self.waiting ∨ request = uploadTask := by
  have hurl := (sameAwaiting_housekept (getServerUrl_housekept parts True self)).waiting_eq
  cases h with
  | gaveUp hfault result =>
    have hkept := @finish_returned_housekept _ _ parts self uploadTask.taskId result
    rw [(sameAwaiting_housekept hkept).waiting_eq] at hmem
    exact .inl hmem
  | sent hnext =>
    subst hnext
    rw [← hurl]
    simp only [waiting, ofOutcome, List.mem_append, List.mem_singleton] at hmem ⊢
    rcases hmem with (hmem | hmem) | hmem
    · exact .inl (.inl hmem)
    · exact .inr hmem
    · exact .inl (.inr hmem)
  | aborted abort =>
    rw [← hurl]
    exact .inl hmem

/-- A request under way was under way before, or the head of the queue has just been made into
it. -/
def ComesFrom (parts : DaemonParts κ ε) (self : EmerDaemon κ ε) (request : UploadTask ε) : Prop :=
  (∃ uploadTask ∈ self.waiting, uploadTask.taskId = request.taskId ∧
      uploadTask.requestBody = request.requestBody) ∨
    ∃ uploadTask rest, self.currentUpload = none ∧ self.uploadQueue = uploadTask :: rest ∧
      ((self.popped rest).createRequestBody parts uploadTask true).1 = some request

theorem comesFrom_of_mem {request : UploadTask ε} (hmem : request ∈ self.waiting) :
    ComesFrom parts self request :=
  .inl ⟨request, hmem, rfl, rfl⟩

theorem comesFrom_housekept {mayFlush : Prop} {reached : EmerDaemon κ ε}
    (h : Housekept parts mayFlush reached next) (hreached : reached.waiting ⊆ self.waiting)
    {request : UploadTask ε} (hmem : request ∈ next.waiting) : ComesFrom parts self request := by
  rw [(sameAwaiting_housekept h).waiting_eq] at hmem
  exact comesFrom_of_mem (hreached hmem)

theorem waiting_responseReceived_subset (self : EmerDaemon κ ε) (taskId : Nat) :
    (self.responseReceived taskId).waiting ⊆ self.waiting :=
  List.append_subset.mpr ⟨fun _ hmem => List.mem_append_left _ (List.mem_of_mem_filter hmem),
    List.subset_append_right _ _⟩

theorem waiting_backoffOver_subset (self : EmerDaemon κ ε) (taskId : Nat) :
    (self.backoffOver taskId).waiting ⊆ self.waiting :=
  List.append_subset.mpr ⟨List.subset_append_left _ _,
    fun _ hmem => List.mem_append_right _ (List.mem_of_mem_filter hmem)⟩

theorem comesFrom_handled {event : DaemonEvent ε} {outcome : Outcome κ ε}
    (h : Handled parts self event outcome) {request : UploadTask ε}
    (hmem : request ∈ (ofOutcome outcome).waiting) : ComesFrom parts self request := by
  have hself : self.waiting ⊆ self.waiting := List.Subset.refl _
  cases h with
  | ignored hsends => exact comesFrom_of_mem hmem
  | recorded hrecording =>
    rw [ofOutcome, (sameTasks_bufferEvent parts self _).awaiting.waiting_eq] at hmem
    exact comesFrom_of_mem hmem
  | configured provider notified hsends =>
    exact comesFrom_housekept (withProvider_housekept True self provider notified) hself hmem
  | requested =>
    exact comesFrom_housekept (dequeueAndDoUpload_housekept parts (self.enqueued gMaxsize)) hself
      hmem
  | timerFired =>
    have hreloaded := (sameAwaiting_housekept (getEnvironment_housekept parts True self)).waiting_eq
    exact comesFrom_housekept (dequeueAndDoUpload_housekept parts
      ((self.getEnvironment parts).enqueued maxRequestPayload)) (hreloaded ▸ hself) hmem
  | checkedWhileBusy hbusy => exact comesFrom_of_mem hmem
  | checkedEmptyQueue hchecks hidle hqueue => exact comesFrom_of_mem hmem
  | unreachableEmptyQueue hchecks hidle hqueue =>
    have hflushed := (sameTasks_flush parts self.checkCompleted).awaiting.waiting_eq
    exact comesFrom_housekept (handleUploadFinished_housekept _) (hflushed ▸ hself) hmem
  | @unreachable fault uploadTask rest hchecks hidle hqueue =>
    have hflushed := (sameTasks_flush parts (self.popped rest)).awaiting.waiting_eq
    exact comesFrom_housekept (handleUploadFinished_housekept _) (hflushed ▸ hself) hmem
  | @noTimestamps uploadTask rest hchecks hidle hqueue =>
    have hbuilt :=
      (sameTasks_createRequestBody parts (self.popped rest) uploadTask false).awaiting.waiting_eq
    exact comesFrom_housekept (handleUploadFinished_housekept _) (hbuilt ▸ hself) hmem
  | @started fault uploadTask created rest entering outcome hchecks hidle hqueue hfault hbody
      hsending =>
    have hbuilt :=
      (sameTasks_createRequestBody parts (self.popped rest) uploadTask true).awaiting.waiting_eq
    rw [hbody] at hbuilt
    cases mem_waiting_sending hsending hmem with
    | inl hold => exact comesFrom_of_mem (hbuilt ▸ hold)
    -- the request that has just been made is the only new one
    | inr hnew =>
      rw [hnew]
      exact .inr ⟨uploadTask, rest, hidle, hqueue, by rw [hbody]⟩
  | @removedPastEnd taskId uploadTask abort hfind hlive hremove =>
    obtain ⟨rfl, -⟩ := removeEvents_eq_error hremove
    exact comesFrom_of_mem (waiting_responseReceived_subset self uploadTask.taskId hmem)
  | @uploaded taskId uploadTask removed hfind hlive hremove =>
    obtain ⟨buffer, -, rfl⟩ := removeEvents_eq_ok hremove
    have hflushed := (sameTasks_flush parts
      { self.acknowledged parts uploadTask with buffer := buffer }).awaiting.waiting_eq
    exact comesFrom_housekept (finish_returned_housekept _ _ _)
      (hflushed ▸ waiting_responseReceived_subset self uploadTask.taskId) hmem
  | @gaveUp taskId uploadTask response hfind hends hretry cancelledUploads result =>
    have hkept := @finish_returned_housekept _ _ parts
      { self.responseReceived taskId with cancelledUploads := cancelledUploads } uploadTask.taskId
      result
    have hreceived : (finished { self.responseReceived taskId with
        cancelledUploads := cancelledUploads }).waiting ⊆ self.waiting :=
      waiting_responseReceived_subset self taskId
    exact comesFrom_housekept hkept hreceived hmem
  | @retried taskId uploadTask hfind hlive hattempts =>
    simp only [waiting, ofOutcome, List.mem_append, List.mem_singleton] at hmem
    rcases hmem with hmem | hmem | hmem
    · exact comesFrom_of_mem (List.mem_append_left _ (List.mem_of_mem_filter hmem))
    · exact comesFrom_of_mem (List.mem_append_right _ hmem)
    -- the task that will be sent again has the same body
    · rw [hmem]
      exact .inl ⟨uploadTask, List.mem_append_left _ (List.mem_of_find?_eq_some hfind), rfl, rfl⟩
  | @backoffGaveUp taskId uploadTask hfind =>
    have hkept := @finish_returned_housekept _ _ parts (self.backoffOver taskId)
      uploadTask.taskId .noTimestamps
    have hover : (self.backoffOver taskId).finished.waiting ⊆ self.waiting :=
      waiting_backoffOver_subset self taskId
    exact comesFrom_housekept hkept hover hmem
  | @backoffSent taskId uploadTask fault outcome hfind hfault hsending =>
    cases mem_waiting_sending hsending hmem with
    | inl hold => exact comesFrom_of_mem (waiting_backoffOver_subset self taskId hold)
    | inr hnew =>
      rw [hnew]
      exact comesFrom_of_mem (List.mem_append_right _ (List.mem_of_find?_eq_some hfind))

/-! ## 4. What a request for everything covers -/

variable {Contents : κ → List ε → Prop} {fits : List ε → List ε → Nat} {token : List ε → Nat}
  {start : List ε} {limit : Nat}

theorem Scheduled.lt_nextTaskId {held : List Nat} (h : Scheduled held self) {taskId : Nat}
    (hmem : taskId ∈ self.taskIds) : taskId < self.nextTaskId := by
  by_contra hlarge
  have honce := h.once taskId
  have hcount := List.count_pos_iff.mpr (List.mem_append_right held hmem)
  rw [if_neg hlarge] at honce
  omega

theorem mem_taskIds_of_waiting {uploadTask : UploadTask ε} (hmem : uploadTask ∈ self.waiting) :
    uploadTask.taskId ∈ self.taskIds := by
  unfold taskIds
  rw [List.append_assoc]
  exact List.mem_map_of_mem (List.mem_append_right _ hmem)

theorem mem_taskIds_of_queue {uploadTask : UploadTask ε} (hmem : uploadTask ∈ self.uploadQueue) :
    uploadTask.taskId ∈ self.taskIds := by
  unfold taskIds
  rw [List.append_assoc]
  exact List.mem_map_of_mem (List.mem_append_left _ hmem)

theorem acknowledged_length_le (trace actions : List (Action ε)) :
    (acknowledgedIn trace).flatten.length ≤ (acknowledgedIn (trace ++ actions)).flatten.length := by
  rw [acknowledgedIn_append, List.flatten_append, List.length_append]
  exact Nat.le_add_right _ _

/-- Only an opt-out takes anything from what is kept. -/
theorem kept_isPrefix {trace actions : List (Action ε)} (hopted : .optedOut ∉ actions) :
    (Ledger.ofTrace start trace).kept <+: (Ledger.ofTrace start (trace ++ actions)).kept := by
  induction actions using List.reverseRecOn with
  | nil =>
    rw [List.append_nil]
  | append_singleton actions action ih =>
    have hrest := ih fun hmem => hopted (List.mem_append_left _ hmem)
    rw [← List.append_assoc, Ledger.ofTrace_snoc]
    cases action with
    | accepted event => exact hrest.trans (List.prefix_append _ _)
    | optedOut => exact absurd (List.mem_append_right _ (List.mem_singleton_self _)) hopted
    | queueHttpRequest => exact hrest
    | acknowledged body => exact hrest
    | returned taskId result => exact hrest

/-- What a run keeps, whoever has asked for an upload. -/
structure Reliable (parts : DaemonParts κ ε) (Contents : κ → List ε → Prop) (token : List ε → Nat)
    (start : List ε) (limit : Nat) (daemon : EmerDaemon κ ε) : Prop where
  drainable : Drainable parts Contents token start daemon
  cancelled : ∀ taskId ∈ daemon.cancelledUploads, taskId < daemon.nextTaskId
  limit : daemon.buffer.maxBytesBuffered = limit

namespace Reliable

/-- **Step lemma.** -/
theorem handled (hlaws : LawfulCache parts.cache Contents fits token)
    (h : Reliable parts Contents token start limit self) {event : DaemonEvent ε}
    (hkeeps : self.RequestKeepsFront parts event) (hok : self.handle parts event = .ok next) :
    Reliable parts Contents token start limit next := by
  obtain ⟨actions, heffects⟩ := @effects_handle _ _ parts self event
  rw [hok] at heffects
  refine ⟨h.drainable.handled hlaws hkeeps hok, ?_, heffects.limit.trans h.limit⟩
  intro taskId hmem
  apply Nat.lt_of_lt_of_le _ heffects.nextTaskId
  have hscheduled := h.drainable.settled.scheduled
  rcases heffects.cancelled taskId hmem with hbefore | ⟨-, hcurrent | hqueued⟩
  · exact h.cancelled taskId hbefore
  · obtain ⟨upload, hwaiting, hupload⟩ := h.drainable.settled.current
    rw [hcurrent] at hupload
    cases upload with
    | none => cases hupload
    | some uploadTask =>
      cases hupload
      apply hscheduled.lt_nextTaskId (mem_taskIds_of_waiting _)
      rw [hwaiting]
      exact List.mem_singleton_self _
  · obtain ⟨uploadTask, hqueue, rfl⟩ := List.mem_map.mp hqueued
    exact hscheduled.lt_nextTaskId (mem_taskIds_of_queue hqueue)

theorem new (hlaws : LawfulCache parts.cache Contents fits token)
    (permissionsProvider : EmerPermissionsProvider) {persistentCache : κ}
    (hstart : Contents persistentCache start)
    (hsmall : ∀ event ∈ start, parts.cost event ≤ maxRequestPayload)
    (hlimit : limit + maxRequestPayload < 2 ^ 64) (pastEvents : List ε) :
    Reliable parts Contents token start limit
      (EmerDaemon.new parts permissionsProvider persistentCache limit pastEvents) := by
  have hnew : Reporting none (initial permissionsProvider persistentCache limit)
      (EmerDaemon.new parts permissionsProvider persistentCache limit pastEvents) := by
    apply new_keeps (I := Reporting none (initial permissionsProvider persistentCache limit))
    · exact .refl _
    · exact fun self event h => h.trans (reporting_recordEvent self event)
    · exact fun self provider notified h =>
        h.trans (reporting_withProvider self provider notified)
  obtain ⟨actions, h⟩ := hnew
  refine ⟨Drainable.new hlaws permissionsProvider hstart hsmall hlimit pastEvents, ?_, h.limit⟩
  -- nothing is current yet, so nothing is cancelled
  intro taskId hmem
  rcases h.cancelled taskId hmem with hnone | ⟨-, hnone⟩
  · cases hnone
  · cases hnone

end Reliable

/-- A request of any size for all that waits has all of it, so that with what is acknowledged it
covers what is kept. -/
theorem Reliable.covers (hlaws : LawfulCache parts.cache Contents fits token)
    (hreads : ReadsLongestPrefix parts Contents token) {capacity : Nat}
    (hcost : ∀ {cache contents}, Contents cache contents →
      (contents.map parts.cost).sum ≤ capacity)
    (hroom : capacity + limit ≤ gMaxsize) (h : Reliable parts Contents token start limit self)
    {uploadTask request : UploadTask ε} {rest : List (UploadTask ε)}
    (hall : uploadTask.maxUploadSize = gMaxsize)
    (hbody : ((self.popped rest).createRequestBody parts uploadTask true).1 = some request) :
    (Ledger.ofTrace start self.trace).kept.length =
      (acknowledgedIn self.trace).flatten.length + request.requestBody.length := by
  obtain ⟨upload, hwaiting, cached, haccounted⟩ := h.drainable.accounted
  have hpopped : Contents (self.popped rest).persistentCache cached := haccounted.contents
  have hsize : uploadTask.maxUploadSize < 2 ^ 64 := by
    rw [hall]
    decide
  obtain ⟨buffered, htaken, hcreated⟩ :=
    createRequestBody_eq_takeWithin hlaws hreads hpopped uploadTask hsize rfl
  obtain ⟨_, -, hsendable⟩ := h.drainable.sendable
  have hcounted := hsendable.buffered.counted
  have hbounded := hsendable.buffered.bounded
  have hcached := hcost haccounted.contents
  have hlimit := h.limit
  have hsum : ((cached ++ self.buffer.variantArray).map parts.cost).sum ≤
      uploadTask.maxUploadSize := by
    rw [List.map_append, List.sum_append, hall]
    omega
  have heverything : takeWithin parts.cost uploadTask.maxUploadSize
      (cached ++ (self.popped rest).buffer.variantArray) = cached ++ self.buffer.variantArray :=
    takeWithin_of_sum_le hsum
  rw [hcreated] at hbody
  rw [← Option.some.inj hbody, ← haccounted.balanced, List.length_append,
    Ledger.acknowledged_ofTrace, ← heverything, ← htaken]

/-! ## 5. From the call to its success -/

/-- What holds of a call, whose task is `taskId`, for everything that was kept when it was made,
which were `asked` events.  No opt-out has followed. -/
structure Owed (start : List ε) (taskId asked : Nat) (daemon : EmerDaemon κ ε) : Prop where
  queued : daemon.QueuedAll fun id maxUploadSize => id = taskId → maxUploadSize = gMaxsize
  sent : ∀ uploadTask ∈ daemon.waiting, uploadTask.taskId = taskId →
    asked ≤ (acknowledgedIn daemon.trace).flatten.length + uploadTask.requestBody.length
  live : taskId ∉ daemon.cancelledUploads
  kept : asked ≤ (Ledger.ofTrace start daemon.trace).kept.length
  succeeded : .returned taskId .uploaded ∈ daemon.trace →
    asked ≤ (acknowledgedIn daemon.trace).flatten.length

/-- At the time of the call nobody has seen its task. -/
theorem Reliable.owed (h : Reliable parts Contents token start limit self) :
    Owed start self.nextTaskId (Ledger.ofTrace start self.trace).kept.length self := by
  have hscheduled := h.drainable.settled.scheduled
  constructor
  -- tasks are numbered in order, so whatever is there has a smaller number
  · intro uploadTask hmem heq
    have hlt := hscheduled.lt_nextTaskId (mem_taskIds_of_queue hmem)
    omega
  · intro uploadTask hmem heq
    have hlt := hscheduled.lt_nextTaskId (mem_taskIds_of_waiting hmem)
    omega
  · exact fun hmem => Nat.lt_irrefl _ (h.cancelled _ hmem)
  · exact Nat.le_refl _
  · intro hmem
    have honce := hscheduled.once self.nextTaskId
    have hreturned : 0 < self.numReturns self.nextTaskId :=
      List.countP_pos_iff.mpr ⟨_, hmem, decide_eq_true rfl⟩
    rw [if_neg (Nat.lt_irrefl _)] at honce
    omega

/-- A response that is a success for the caller takes note of its request. -/
theorem Reliable.acknowledges (hlaws : LawfulCache parts.cache Contents fits token)
    (h : Reliable parts Contents token start limit self) {uploadTask : UploadTask ε}
    (hmem : uploadTask ∈ self.awaitingResponse)
    (hlive : uploadTask.taskId ∉ self.cancelledUploads)
    (hok : self.handle parts (.httpResponse uploadTask.taskId .successful) = .ok next) :
    (acknowledgedIn self.trace).flatten.length + uploadTask.requestBody.length ≤
      (acknowledgedIn next.trace).flatten.length := by
  obtain ⟨-, _, removed, -, hremove, -, hhandle⟩ :=
    (exactRemoval_of_inFlight hlaws h.drainable.accounted).removes uploadTask hmem hlive
  have hremoved : removed.trace = self.trace ++ [.acknowledged uploadTask.requestBody] :=
    (acknowledgedIn_removeEvents hremove).2
  have hlog : Reporting (some uploadTask.taskId) (removed.flushToPersistentCache parts)
      ((removed.flushToPersistentCache parts).log (.returned uploadTask.taskId .uploaded)) := by
    apply reporting_log
    intro taskId heq
    cases heq
    rfl
  obtain ⟨actions, hreports⟩ := ((reporting_flush removed).trans hlog).trans
    (@reporting_finishNetworkCallback _ _ parts _ _)
  rw [← hhandle, hok] at hreports
  have htrace : next.trace = self.trace ++ [.acknowledged uploadTask.requestBody] ++ actions := by
    rw [← hremoved]
    exact hreports.trace
  have hmore := acknowledged_length_le (self.trace ++ [.acknowledged uploadTask.requestBody])
    actions
  rw [acknowledgedIn_append, List.flatten_append, List.length_append] at hmore
  rw [htrace]
  refine le_trans (le_of_eq ?_) hmore
  show _ = _ + (uploadTask.requestBody ++ []).length
  rw [List.append_nil]

/-- **Step lemma.** -/
theorem Owed.handled (hlaws : LawfulCache parts.cache Contents fits token)
    (hreads : ReadsLongestPrefix parts Contents token) {capacity : Nat}
    (hcost : ∀ {cache contents}, Contents cache contents →
      (contents.map parts.cost).sum ≤ capacity)
    (hroom : capacity + limit ≤ gMaxsize) {taskId asked : Nat} (h : Owed start taskId asked self)
    (hself : Reliable parts Contents token start limit self) {event : DaemonEvent ε}
    (htimer : event = .uploadTimer → self.nextTaskId ≠ taskId)
    (hok : self.handle parts event = .ok next) {actions : List (Action ε)}
    (heffects : Effects event self next actions) (hopted : .optedOut ∉ actions) :
    Owed start taskId asked next := by
  have hhandled := handle_handled parts self event
  have hmore := acknowledged_length_le self.trace actions
  rw [hok] at hhandled
  rw [← heffects.trace] at hmore
  constructor
  · refine h.queued.handled (fun _ _ => rfl) (fun hfired heq => ?_) hhandled
    exact absurd heq (htimer hfired)
  · intro request hmem heq
    rcases comesFrom_handled hhandled hmem with ⟨uploadTask, hwaiting, hid, hbody⟩ |
        ⟨uploadTask, rest, -, hqueue, hbody⟩
    -- its body stays what it was, while acknowledgements are only added
    · have hsent := h.sent uploadTask hwaiting (hid.trans heq)
      rw [hbody] at hsent
      omega
    · obtain ⟨buffered, -, -, hrequest⟩ := createRequestBody_eq_some hbody
      have hid : request.taskId = uploadTask.taskId := by rw [hrequest]
      have hall : uploadTask.maxUploadSize = gMaxsize :=
        h.queued uploadTask (by rw [hqueue]; exact List.mem_cons_self) (hid.symm.trans heq)
      -- a request of any size takes all that waits
      have hcovers := hself.covers hlaws hreads hcost hroom hall hbody
      have hkept := h.kept
      omega
  · intro hmem
    rcases heffects.cancelled taskId hmem with hbefore | ⟨hcancels, -⟩
    · exact h.live hbefore
    · exact hopted hcancels
  · rw [heffects.trace]
    exact h.kept.trans (kept_isPrefix hopted).length_le
  · intro hmem
    rw [heffects.trace, List.mem_append] at hmem
    rcases hmem with hbefore | hnew
    · exact (h.succeeded hbefore).trans hmore
    -- the caller's success is the response to its request
    · obtain rfl := heffects.succeeded taskId hnew
      cases hfind : self.awaitingResponse.find? (·.taskId = taskId) with
      | none =>
        rw [handle, hfind] at hok
        cases hok
        have hnone := List.append_right_eq_self.mp heffects.trace.symm
        rw [hnone] at hnew
        cases hnew
      | some uploadTask =>
        obtain rfl := taskId_of_find hfind
        have hwaits := List.mem_of_find?_eq_some hfind
        have hsent := h.sent uploadTask (List.mem_append_left _ hwaits) rfl
        exact hsent.trans (hself.acknowledges hlaws hwaits h.live hok)

/-- An opt-out has come between. -/
def OptedOutSince (before after : EmerDaemon κ ε) : Prop :=
  ∃ actions, after.trace = before.trace ++ actions ∧ .optedOut ∈ actions

/-- What holds from the first state after a call on. -/
structure Pursued (parts : DaemonParts κ ε) (Contents : κ → List ε → Prop) (token : List ε → Nat)
    (start : List ε) (limit : Nat) (before daemon : EmerDaemon κ ε) : Prop where
  reliable : Reliable parts Contents token start limit daemon
  newer : before.nextTaskId < daemon.nextTaskId
  since : OptedOutSince before daemon ∨ before.trace <+: daemon.trace ∧
    Owed start before.nextTaskId (Ledger.ofTrace start before.trace).kept.length daemon

theorem OptedOutSince.append {before : EmerDaemon κ ε} (h : OptedOutSince before self)
    {actions : List (Action ε)} (htrace : next.trace = self.trace ++ actions) :
    OptedOutSince before next := by
  obtain ⟨earlier, hself, hopted⟩ := h
  exact ⟨earlier ++ actions, by rw [htrace, hself, List.append_assoc],
    List.mem_append_left _ hopted⟩

/-- A step from the call itself or from a later state. -/
theorem Reliable.pursued (hlaws : LawfulCache parts.cache Contents fits token)
    (hreads : ReadsLongestPrefix parts Contents token) {capacity : Nat}
    (hcost : ∀ {cache contents}, Contents cache contents →
      (contents.map parts.cost).sum ≤ capacity)
    (hroom : capacity + limit ≤ gMaxsize) {before : EmerDaemon κ ε}
    (hself : Reliable parts Contents token start limit self)
    (hsince : OptedOutSince before self ∨ before.trace <+: self.trace ∧
      Owed start before.nextTaskId (Ledger.ofTrace start before.trace).kept.length self)
    {event : DaemonEvent ε} (htimer : event = .uploadTimer → self.nextTaskId ≠ before.nextTaskId)
    (hkeeps : self.RequestKeepsFront parts event) (hok : self.handle parts event = .ok next)
    (hnewer : before.nextTaskId < next.nextTaskId) :
    Pursued parts Contents token start limit before next := by
  refine ⟨hself.handled hlaws hkeeps hok, hnewer, ?_⟩
  obtain ⟨actions, heffects⟩ := @effects_handle _ _ parts self event
  rw [hok] at heffects
  rcases hsince with hopted | ⟨⟨earlier, htrace⟩, howed⟩
  · exact .inl (hopted.append heffects.trace)
  have hnext : next.trace = before.trace ++ (earlier ++ actions) := by
    rw [← List.append_assoc, htrace]
    exact heffects.trace
  -- an opt-out in this step settles the matter
  by_cases hopted : .optedOut ∈ actions
  · exact .inl ⟨_, hnext, List.mem_append_right _ hopted⟩
  · exact .inr ⟨⟨_, hnext.symm⟩,
      howed.handled hlaws hreads hcost hroom hself htimer hok heffects hopted⟩

/-- The call itself. -/
theorem Reliable.requested (hlaws : LawfulCache parts.cache Contents fits token)
    (hreads : ReadsLongestPrefix parts Contents token) {capacity : Nat}
    (hcost : ∀ {cache contents}, Contents cache contents →
      (contents.map parts.cost).sum ≤ capacity)
    (hroom : capacity + limit ≤ gMaxsize) (h : Reliable parts Contents token start limit self)
    (hkeeps : self.RequestKeepsFront parts .uploadEvents)
    (hok : self.handle parts .uploadEvents = .ok next) :
    Pursued parts Contents token start limit self next := by
  refine h.pursued hlaws hreads hcost hroom (.inr ⟨List.prefix_rfl, h.owed⟩) (fun hfired => ?_)
    hkeeps hok ?_
  · cases hfired
  · obtain ⟨actions, hreports⟩ := @reporting_dequeueFrom _ _ parts none
      (self.enqueued gMaxsize).uploadQueue (self.enqueued gMaxsize)
    have hrun : dequeueFrom parts (self.enqueued gMaxsize).uploadQueue (self.enqueued gMaxsize) =
        .ok next := hok
    rw [hrun] at hreports
    exact hreports.nextTaskId

/-- **Run lemma.** -/
theorem Pursued.reached (hlaws : LawfulCache parts.cache Contents fits token)
    (hreads : ReadsLongestPrefix parts Contents token) {capacity : Nat}
    (hcost : ∀ {cache contents}, Contents cache contents →
      (contents.map parts.cost).sum ≤ capacity)
    (hroom : capacity + limit ≤ gMaxsize) {before reached : EmerDaemon κ ε}
    (h : Pursued parts Contents token start limit before self) {events : List (DaemonEvent ε)}
    (hkeeps : EachStep (step parts) (Meets (RequestKeepsFront parts)) (.ok self) events)
    (hreached : run (step parts) (.ok self) events = .ok reached) :
    Pursued parts Contents token start limit before reached := by
  have hrun := throughout_of_step
    (I := fun outcome => ∀ self, outcome = .ok self →
      Pursued parts Contents token start limit before self) ?_ ?_ hkeeps
  · exact hrun.last reached hreached
  · intro outcome event houtcome hmeets next hok
    cases outcome with
    | error abort => cases hok
    | ok self =>
      have hself := houtcome self rfl
      have hnewer := hself.newer
      obtain ⟨actions, heffects⟩ := @effects_handle _ _ parts self event
      have hhandle : self.handle parts event = .ok next := hok
      rw [hhandle] at heffects
      exact hself.reliable.pursued hlaws hreads hcost hroom hself.since (fun _ => by omega) hmeets
        hok (hnewer.trans_le heffects.nextTaskId)
  · intro daemon hok
    cases hok
    exact h

/-! ## 6. The promise -/

theorem Reliable.reached (hlaws : LawfulCache parts.cache Contents fits token)
    (h : Reliable parts Contents token start limit self) {events : List (DaemonEvent ε)}
    (hkeeps : EachStep (step parts) (Meets (RequestKeepsFront parts)) (.ok self) events)
    (hreached : run (step parts) (.ok self) events = .ok next) :
    Reliable parts Contents token start limit next := by
  have hrun := throughout_of_step
    (I := fun outcome => ∀ self, outcome = .ok self →
      Reliable parts Contents token start limit self) ?_ ?_ hkeeps
  · exact hrun.last next hreached
  · intro outcome event houtcome hmeets next hok
    cases outcome with
    | error abort => cases hok
    | ok self => exact (houtcome self rfl).handled hlaws hmeets hok
  · intro daemon hok
    cases hok
    exact h

/-- An aborted daemon stays as it is. -/
theorem run_error (abort : Abort × EmerDaemon κ ε) (events : List (DaemonEvent ε)) :
    run (step parts) (.error abort) events = .error abort := by
  induction events with
  | nil => rfl
  | cons event events ih => exact ih

variable {glib : VariantLibrary} {order : ByteOrder}

open EmerPersistentCache in
/-- What a cache holds costs no more than it has room for. -/
theorem sum_cost_le_of_synced (hswap : glib.SwapKeepsSize)
    (parsesPingSocket parsesHttpRequestUrl : Text → Bool) {capacity : Nat}
    {cache : EmerPersistentCache} {contents : List (StorableVariant glib order)}
    (h : SyncedContents capacity cache contents) :
    (contents.map (storingParts glib order parsesPingSocket parsesHttpRequestUrl).cost).sum ≤
      capacity := by
  obtain ⟨hmaxSize, bytes, hholds⟩ := h.contents
  have hfits := hholds.fits
  have hsize := hholds.size_eq
  have hsum := sum_length_le_length_encode (contents.map StorableVariant.elem)
  have hcost : contents.map (storingParts glib order parsesPingSocket parsesHttpRequestUrl).cost =
      (contents.map StorableVariant.elem).map List.length := by
    rw [List.map_map]
    exact List.map_congr_left fun event _ => (event.length_elem hswap).symm
  rw [hcost]
  dsimp only at hsize
  omega

open EmerPersistentCache in
/-- **A successful upload has delivered everything.**  When a call of `UploadEvents` has succeeded,
whatever came between, the server has acknowledged all that was kept at the time of the call, in
order, unless recording has been switched off since. -/
theorem success_delivers_all (hswap : glib.SwapKeepsSize)
    (parsesPingSocket parsesHttpRequestUrl : Text → Bool) {capacity maxBytesBuffered : Nat}
    (hcapacity : capacity < 2 ^ 63) (hlimit : maxBytesBuffered < 2 ^ 63)
    (permissionsProvider : EmerPermissionsProvider) {cache : EmerPersistentCache}
    {contents pastEvents : List (StorableVariant glib order)}
    (hcontents : SyncedContents capacity cache contents)
    (hsmall : ∀ event ∈ contents, emerPersistentCacheCost event.variant ≤ maxRequestPayload)
    {events more : List (DaemonEvent (StorableVariant glib order))}
    {before after : EmerDaemon EmerPersistentCache (StorableVariant glib order)}
    (hkeeps : EachStep (step (storingParts glib order parsesPingSocket parsesHttpRequestUrl))
      (Meets (RequestKeepsFront
        (storingParts glib order parsesPingSocket parsesHttpRequestUrl)))
      (.ok (new (storingParts glib order parsesPingSocket parsesHttpRequestUrl)
        permissionsProvider cache maxBytesBuffered pastEvents)) (events ++ .uploadEvents :: more))
    (hbefore : run (step (storingParts glib order parsesPingSocket parsesHttpRequestUrl))
      (.ok (new (storingParts glib order parsesPingSocket parsesHttpRequestUrl)
        permissionsProvider cache maxBytesBuffered pastEvents)) events = .ok before)
    (hafter : run (step (storingParts glib order parsesPingSocket parsesHttpRequestUrl))
      (.ok before) (.uploadEvents :: more) = .ok after)
    (hsuccess : .returned before.nextTaskId .uploaded ∈ after.trace) :
    OptedOutSince before after ∨
      (Ledger.ofTrace contents before.trace).kept <+: (acknowledgedIn after.trace).flatten := by
  have hlaws := @lawful_synced glib order _ hcapacity
  have hreads := @storingParts_readsLongestPrefix glib order parsesPingSocket parsesHttpRequestUrl
    hswap capacity
  have hcost : ∀ {cache : EmerPersistentCache} {contents : List (StorableVariant glib order)},
      SyncedContents capacity cache contents →
      (contents.map (storingParts glib order parsesPingSocket parsesHttpRequestUrl).cost).sum ≤
        capacity := sum_cost_le_of_synced hswap parsesPingSocket parsesHttpRequestUrl
  have hroom : capacity + maxBytesBuffered ≤ gMaxsize := by
    rw [gMaxsize]
    omega
  have hnew := @Reliable.new _ _
    (storingParts glib order parsesPingSocket parsesHttpRequestUrl) _ _ _ _ maxBytesBuffered hlaws
    permissionsProvider _ hcontents hsmall (by rw [maxRequestPayload]; omega) pastEvents
  obtain ⟨hfirst, hrest⟩ := (eachStep_append _ _ _ _ _).mp hkeeps
  rw [hbefore] at hrest
  obtain ⟨hcall, hmore⟩ := (eachStep_cons _ _ _ _ _).mp hrest
  have hreliable := hnew.reached hlaws hfirst hbefore
  rw [run_cons] at hafter
  cases hhandle : step (storingParts glib order parsesPingSocket parsesHttpRequestUrl) (.ok before)
      .uploadEvents with
  | error abort =>
    rw [hhandle, run_error] at hafter
    cases hafter
  | ok called =>
    rw [hhandle] at hafter hmore
    have hcalled := hreliable.requested hlaws hreads hcost hroom hcall hhandle
    have hreached := hcalled.reached hlaws hreads hcost hroom hmore hafter
    rcases hreached.since with hopted | ⟨⟨actions, htrace⟩, howed⟩
    · exact .inl hopted
    by_cases hopted : .optedOut ∈ actions
    · exact .inl ⟨actions, htrace.symm, hopted⟩
    right
    -- what was kept then and what is acknowledged now both come first in what has been kept
    obtain ⟨_, -, cached, haccounted⟩ := hreached.reliable.drainable.accounted
    have hkept : (Ledger.ofTrace contents before.trace).kept <+:
        (Ledger.ofTrace contents after.trace).kept := by
      rw [← htrace]
      exact kept_isPrefix hopted
    have hacknowledged : (acknowledgedIn after.trace).flatten <+:
        (Ledger.ofTrace contents after.trace).kept := by
      rw [← haccounted.balanced, Ledger.acknowledged_ofTrace]
      exact List.prefix_append _ _
    exact List.prefix_of_prefix_length_le hkept hacknowledged (howed.succeeded hsuccess)

/-- The daemon over the small cache with an event in its buffer. -/
def callingDaemon : EmerDaemon EmerPersistentCache (StorableVariant eventVariants .little) :=
  ofOutcome (run (step (storingParts eventVariants .little (fun _ => true) fun _ => true))
    (.ok (new (storingParts eventVariants .little (fun _ => true) fun _ => true)
      (emerPermissionsProviderNew (.parsed sampleConfigFile) none) smallSyncedCache 100000 []))
    [.recordEvent smallEvent])

/-- The first request fails, and another event is recorded before the second one succeeds. -/
def retriedCall : List (DaemonEvent (StorableVariant eventVariants .little)) :=
  [.canReach true .none, .httpResponse 0 .retryable, .recordEvent smallEvent,
    .backoffTimer 0 .none, .httpResponse 0 .successful]

def answeredDaemon : EmerDaemon EmerPersistentCache (StorableVariant eventVariants .little) :=
  ofOutcome (run (step (storingParts eventVariants .little (fun _ => true) fun _ => true))
    (.ok callingDaemon) (.uploadEvents :: retriedCall))

theorem success_delivers_all_retriedCall :
    OptedOutSince callingDaemon answeredDaemon ∨
      (Ledger.ofTrace [] callingDaemon.trace).kept <+:
        (acknowledgedIn answeredDaemon.trace).flatten :=
  @success_delivers_all eventVariants .little eventVariants_lawful.swapKeepsSize (fun _ => true)
    (fun _ => true) 256 100000 (by decide) (by decide)
    (emerPermissionsProviderNew (.parsed sampleConfigFile) none) smallSyncedCache [] []
    smallSyncedCache_empty (by simp) [.recordEvent smallEvent] retriedCall callingDaemon
    answeredDaemon (by decide +kernel) rfl rfl (List.mem_of_getLast? rfl)

end EmerDaemon

end EventRecorder
