import EventRecorder.Daemon.ExactRemoval
import EventRecorder.Daemon.Wedged

/-!
# Delivery

A request can be lost on its way to the server, its answer can be lost on the way back, and a
request that nobody waits for any more can still arrive.  The daemon only goes by the answers that
it gets.  Through all of that, and through restarts, what the server is known to have comes in the
order of recording and without repetition, and what waits on the device comes after it.
-/

namespace EventRecorder

open Theory

variable {ε : Type*}

/-! ## 1. What a trace says -/

def Action.acceptedEvent? : Action ε → Option ε
  | .accepted event => some event
  | .optedOut | .queueHttpRequest .. | .acknowledged .. | .returned .. => none

def Action.acknowledgedBody? : Action ε → Option (List ε)
  | .acknowledged body => some body
  | .accepted .. | .optedOut | .queueHttpRequest .. | .returned .. => none

/-- The events that `buffer_event` kept. -/
def acceptedIn (trace : List (Action ε)) : List ε :=
  trace.filterMap Action.acceptedEvent?

/-- The bodies that the daemon knows the server to have, and so does not keep. -/
def acknowledgedIn (trace : List (Action ε)) : List (List ε) :=
  trace.filterMap Action.acknowledgedBody?

theorem acceptedIn_append (trace actions : List (Action ε)) :
    acceptedIn (trace ++ actions) = acceptedIn trace ++ acceptedIn actions :=
  List.filterMap_append

theorem acknowledgedIn_append (trace actions : List (Action ε)) :
    acknowledgedIn (trace ++ actions) = acknowledgedIn trace ++ acknowledgedIn actions :=
  List.filterMap_append

namespace Ledger

theorem acknowledged_ofTrace (start : List ε) (trace : List (Action ε)) :
    (ofTrace start trace).acknowledged = (acknowledgedIn trace).flatten := by
  induction trace using List.reverseRecOn with
  | nil => rfl
  | append_singleton trace action ih =>
    rw [ofTrace_snoc, acknowledgedIn_append, List.flatten_append, ← ih]
    cases action with
    | acknowledged body =>
      show _ ++ body = _ ++ (body ++ [])
      rw [List.append_nil]
    | accepted event => exact (List.append_nil _).symm
    | optedOut => exact (List.append_nil _).symm
    | queueHttpRequest => exact (List.append_nil _).symm
    | returned => exact (List.append_nil _).symm

/-- What is kept was there at the start or accepted since. -/
theorem kept_sublist (start : List ε) (trace : List (Action ε)) :
    List.Sublist (ofTrace start trace).kept (start ++ acceptedIn trace) := by
  induction trace using List.reverseRecOn with
  | nil =>
    rw [acceptedIn, List.filterMap_nil, List.append_nil]
    exact List.Sublist.refl _
  | append_singleton trace action ih =>
    rw [ofTrace_snoc, acceptedIn_append, ← List.append_assoc]
    cases action with
    | accepted event => exact ih.append (List.Sublist.refl [event])
    -- an opt-out leaves the part that is acknowledged already
    | optedOut => exact (List.take_sublist _ _).trans (ih.trans (List.sublist_append_left _ _))
    | acknowledged body => exact ih.trans (List.sublist_append_left _ _)
    | queueHttpRequest => exact ih.trans (List.sublist_append_left _ _)
    | returned => exact ih.trans (List.sublist_append_left _ _)

end Ledger

namespace EmerDaemon

variable {κ : Type*} {parts : DaemonParts κ ε} {self next : EmerDaemon κ ε} {mayFlush : Prop}

/-- Actions are only added, and none of them takes note of an answer. -/
def SameAnswers (before after : EmerDaemon κ ε) : Prop :=
  before.trace <+: after.trace ∧ acknowledgedIn after.trace = acknowledgedIn before.trace

theorem SameAnswers.refl (self : EmerDaemon κ ε) : SameAnswers self self :=
  ⟨List.prefix_rfl, rfl⟩

theorem SameAnswers.trans {first second third : EmerDaemon κ ε} (h : SameAnswers first second)
    (h' : SameAnswers second third) : SameAnswers first third :=
  ⟨h.1.trans h'.1, h'.2.trans h.2⟩

theorem sameAnswers_of_append {actions : List (Action ε)}
    (htrace : next.trace = self.trace ++ actions) (hnone : acknowledgedIn actions = []) :
    SameAnswers self next := by
  refine ⟨⟨actions, htrace.symm⟩, ?_⟩
  rw [htrace, acknowledgedIn_append, hnone, List.append_nil]

theorem sameAnswers_bufferEvent (self : EmerDaemon κ ε) (event : ε) :
    SameAnswers self (self.bufferEvent parts event) := by
  rw [bufferEvent_eq]
  apply sameAnswers_of_append rfl
  split
  · rfl
  · rfl

theorem sameAnswers_withProvider (self : EmerDaemon κ ε) (provider : EmerPermissionsProvider)
    (notified : List ProviderProperty) :
    SameAnswers self (self.withProvider parts provider notified) := by
  rcases self.withProvider_cases parts provider notified with ⟨recording, -, h⟩ | h
  · rw [h]
    exact .refl _
  · rw [h]
    exact sameAnswers_of_append rfl rfl

theorem sameAnswers_housekept (h : Housekept parts mayFlush self next) : SameAnswers self next := by
  apply h.keeps (I := fun reached => SameAnswers self reached)
  · intro reached later hstep hreached
    apply hreached.trans
    cases hstep with
    | flush =>
      obtain ⟨cache, buffer, hflush⟩ := flushToPersistentCache_eq parts reached
      rw [hflush]
      exact .refl _
    | provider provider notified => exact sameAnswers_withProvider reached provider notified
    | returned taskId result => exact sameAnswers_of_append rfl rfl
    | dequeued rest => exact .refl _
    | check => exact .refl _
  · exact .refl self

theorem sameAnswers_sending {uploadTask : UploadTask ε} {fault : RequestFault}
    {outcome : Outcome κ ε} (h : Sending parts self uploadTask fault outcome) :
    SameAnswers self (ofOutcome outcome) := by
  apply h.keeps (I := fun reached => SameAnswers self reached)
  · exact fun hstep hreached => hreached.trans (sameAnswers_housekept (.single hstep))
  · exact id
  · exact fun next hnext => hnext
  · exact .refl self

/-! ## 2. Which answers are taken note of -/

/-- What handling an event does to the requests that wait and to the answers taken note of. -/
inductive Answers (self : EmerDaemon κ ε) : DaemonEvent ε → EmerDaemon κ ε → Prop where
  | waitingStill {event : DaemonEvent ε} {next : EmerDaemon κ ε}
      (hsame : next.awaitingResponse = self.awaitingResponse) (hanswers : SameAnswers self next) :
      Answers self event next
  | noneWaited {event : DaemonEvent ε} {next : EmerDaemon κ ε} (hnone : self.awaitingResponse = [])
      (hanswers : SameAnswers self next) : Answers self event next
  | waitOver {event : DaemonEvent ε} {next : EmerDaemon κ ε} (hover : next.awaitingResponse = [])
      (hanswers : SameAnswers self next) : Answers self event next
  | acknowledged {uploadTask : UploadTask ε} {next : EmerDaemon κ ε}
      (hmem : uploadTask ∈ self.awaitingResponse) (hover : next.awaitingResponse = [])
      (htrace : self.trace <+: next.trace)
      (hanswers : acknowledgedIn next.trace =
        acknowledgedIn self.trace ++ [uploadTask.requestBody]) :
      Answers self (.httpResponse uploadTask.taskId .successful) next

/-- Housekeeping after a change that logs nothing. -/
theorem sameAnswers_since {moved : EmerDaemon κ ε} (hkept : Housekept parts mayFlush moved next)
    (htrace : moved.trace = self.trace) : SameAnswers self next := by
  have hanswers := sameAnswers_housekept hkept
  rw [SameAnswers, htrace] at hanswers
  exact hanswers

theorem answers_since {event : DaemonEvent ε} {moved : EmerDaemon κ ε}
    (hkept : Housekept parts mayFlush moved next) (htrace : moved.trace = self.trace)
    (hwaiting : moved.awaitingResponse = self.awaitingResponse) : Answers self event next :=
  .waitingStill ((sameAwaiting_housekept hkept).1.trans hwaiting) (sameAnswers_since hkept htrace)

/-- A request is sent only when none waits. -/
theorem answers_of_sending {event : DaemonEvent ε} {entered : EmerDaemon κ ε}
    {uploadTask : UploadTask ε} {fault : RequestFault} {outcome : Outcome κ ε}
    (hnone : self.awaitingResponse = []) (hentered : SameAnswers self entered)
    (h : Sending parts entered uploadTask fault outcome) :
    Answers self event (ofOutcome outcome) :=
  .noneWaited hnone (hentered.trans (sameAnswers_sending h))

theorem sameAnswers_createRequestBody (self : EmerDaemon κ ε) (uploadTask : UploadTask ε)
    (timestamps : Bool) :
    SameAnswers self (self.createRequestBody parts uploadTask timestamps).2 := by
  obtain ⟨cache, hbuilt⟩ := createRequestBody_eq parts self uploadTask timestamps
  rw [hbuilt]
  exact .refl self

/-- What remains of a list with one task when that task is answered. -/
theorem noneWaits_of_find {upload : Option (UploadTask ε)} {taskId : Nat}
    {uploadTask : UploadTask ε} (hupload : self.waiting = upload.toList)
    (hfind : self.awaitingResponse.find? (·.taskId = taskId) = some uploadTask) :
    (self.responseReceived taskId).awaitingResponse = [] :=
  (eq_of_find hupload hfind).2.2

/-- The answer to an upload that goes on to remove its events. -/
theorem acknowledgedIn_removeEvents {uploadTask : UploadTask ε} {outcome : Outcome κ ε}
    (hremove : (self.acknowledged parts uploadTask).removeEvents parts uploadTask.numBufferEvents =
      outcome) :
    (ofOutcome outcome).awaitingResponse =
        (self.responseReceived uploadTask.taskId).awaitingResponse ∧
      (ofOutcome outcome).trace = self.trace ++ [.acknowledged uploadTask.requestBody] := by
  cases outcome with
  | ok removed =>
    obtain ⟨buffer, -, rfl⟩ := removeEvents_eq_ok hremove
    exact ⟨rfl, rfl⟩
  | error abort =>
    obtain ⟨rfl, -⟩ := removeEvents_eq_error hremove
    exact ⟨rfl, rfl⟩

/-- **Step lemma.** -/
theorem answers_handled {event : DaemonEvent ε} {outcome : Outcome κ ε}
    {upload : Option (UploadTask ε)} (hupload : self.waiting = upload.toList)
    (hidle : self.currentUpload = none → self.awaitingResponse = [])
    (h : Handled parts self event outcome) : Answers self event (ofOutcome outcome) := by
  cases h with
  | ignored hsends => exact .waitingStill rfl (.refl self)
  | @recorded event hrecording =>
    have hsame : (self.bufferEvent parts event).awaitingResponse = self.awaitingResponse := by
      rw [bufferEvent_eq]
    exact .waitingStill hsame (sameAnswers_bufferEvent self event)
  | configured provider notified hsends =>
    have hkept : Housekept parts True self (self.withProvider parts provider notified) :=
      .single (.provider self provider notified)
    exact answers_since hkept rfl rfl
  | requested =>
    exact answers_since (dequeueAndDoUpload_housekept parts (self.enqueued gMaxsize)) rfl rfl
  | timerFired =>
    have hreloaded := getEnvironment_housekept parts True self
    have hkept := dequeueAndDoUpload_housekept parts
      ((self.getEnvironment parts).enqueued maxRequestPayload)
    have hanswers : SameAnswers (self.getEnvironment parts) (ofOutcome
        (((self.getEnvironment parts).enqueued maxRequestPayload).dequeueAndDoUpload parts)) :=
      sameAnswers_since hkept rfl
    exact .waitingStill
      ((sameAwaiting_housekept hkept).1.trans (sameAwaiting_housekept hreloaded).1)
      ((sameAnswers_housekept hreloaded).trans hanswers)
  | checkedWhileBusy hbusy => exact .waitingStill rfl (.refl self)
  | checkedEmptyQueue hchecks hidle hqueue => exact .waitingStill rfl (.refl self)
  | unreachableEmptyQueue hchecks hidle hqueue =>
    have hkept : Housekept parts True self.checkCompleted
        (self.checkCompleted.flushToPersistentCache parts) := .single (.flush _ trivial)
    have hfinished := hkept.trans ((handleUploadFinished_housekept _).mono fun _ => trivial)
    exact answers_since hfinished rfl rfl
  | @unreachable fault uploadTask rest hchecks hidle hqueue =>
    have hkept : Housekept parts True (self.popped rest)
        (((self.popped rest).flushToPersistentCache parts).log
          (.returned uploadTask.taskId .unreachable)) :=
      (Relation.ReflTransGen.single (.flush _ trivial)).tail (.returned _ _ _)
    have hfinished := hkept.trans ((handleUploadFinished_housekept _).mono fun _ => trivial)
    exact answers_since hfinished rfl rfl
  -- the body was built in vain, and no request is made of it
  | @noTimestamps uploadTask rest hchecks hcurrent hqueue =>
    have hbuilt : SameAnswers self
        ((self.popped rest).createRequestBody parts uploadTask false).2 :=
      sameAnswers_createRequestBody (self.popped rest) uploadTask false
    have hkept : Housekept parts True
        ((self.popped rest).createRequestBody parts uploadTask false).2
        (((self.popped rest).createRequestBody parts uploadTask false).2.log
          (.returned uploadTask.taskId .noTimestamps)) := .single (.returned _ _ _)
    have hfinished := hkept.trans ((handleUploadFinished_housekept _).mono fun _ => trivial)
    exact .noneWaited (hidle hcurrent) (hbuilt.trans (sameAnswers_housekept hfinished))
  | @started fault uploadTask request rest entering outcome hchecks hcurrent hqueue hfault hbody
      hsending =>
    have hbuilt : SameAnswers self entering := by
      have hsame := @sameAnswers_createRequestBody _ _ parts (self.popped rest) uploadTask true
      rw [hbody] at hsame
      exact hsame
    have hentered : SameAnswers entering
        ({ entering with currentUpload := some request.taskId }.entered request) :=
      sameAnswers_of_append rfl rfl
    exact answers_of_sending (hidle hcurrent) (hbuilt.trans hentered) hsending
  -- the answer is taken note of before the buffer turns out to be too short
  | @removedPastEnd taskId uploadTask abort hfind hlive hremove =>
    obtain ⟨hwaiting, htrace⟩ := acknowledgedIn_removeEvents hremove
    have hid := taskId_of_find hfind
    subst hid
    exact .acknowledged (List.mem_of_find?_eq_some hfind)
      (hwaiting.trans (noneWaits_of_find hupload hfind)) ⟨_, htrace.symm⟩
      (by rw [htrace, acknowledgedIn_append]; rfl)
  | @uploaded taskId uploadTask removed hfind hlive hremove =>
    obtain ⟨hwaiting, htrace⟩ := acknowledgedIn_removeEvents hremove
    have hid := taskId_of_find hfind
    subst hid
    have hflushed : Housekept parts True removed (removed.flushToPersistentCache parts) :=
      .single (.flush removed trivial)
    have hkept := @finish_returned_housekept _ _ parts (removed.flushToPersistentCache parts)
      uploadTask.taskId .uploaded
    have hanswers := (sameAnswers_housekept hflushed).trans
      (sameAnswers_since hkept rfl)
    refine .acknowledged (List.mem_of_find?_eq_some hfind) ?_ ?_ ?_
    · exact (sameAwaiting_housekept hkept).1.trans ((sameAwaiting_housekept hflushed).1.trans
        (hwaiting.trans (noneWaits_of_find hupload hfind)))
    · exact List.IsPrefix.trans ⟨_, htrace.symm⟩ hanswers.1
    · rw [hanswers.2]
      show acknowledgedIn (ofOutcome (.ok removed)).trace = _
      rw [htrace, acknowledgedIn_append]
      rfl
  -- a success after a cancellation ends here too, and is not taken note of
  | @gaveUp taskId uploadTask response hfind hends hretry cancelledUploads result =>
    have hkept := @finish_returned_housekept _ _ parts
      { self.responseReceived taskId with cancelledUploads := cancelledUploads } uploadTask.taskId
      result
    exact .waitOver ((sameAwaiting_housekept hkept).1.trans (noneWaits_of_find hupload hfind))
      (sameAnswers_since hkept rfl)
  -- whether the server has the request stays open until it is sent again
  | @retried taskId uploadTask hfind hlive hattempts =>
    exact .waitOver (noneWaits_of_find hupload hfind) (.refl self)
  | @backoffGaveUp taskId uploadTask hfind =>
    have hkept := @finish_returned_housekept _ _ parts (self.backoffOver taskId)
      uploadTask.taskId .noTimestamps
    exact answers_since hkept rfl rfl
  | @backoffSent taskId uploadTask fault outcome hfind hfault hsending =>
    obtain ⟨-, hnone, -⟩ := eq_of_find (append_toList_comm hupload) hfind
    have hentered : SameAnswers self ((self.backoffOver taskId).entered uploadTask) :=
      sameAnswers_of_append rfl rfl
    exact answers_of_sending hnone hentered hsending

/-! ## 3. What is sent was recorded -/

/-- An upload under way has only what was in the cache at the start or accepted since. -/
def SendsRecorded (start : List ε) (upload : Option (UploadTask ε)) (daemon : EmerDaemon κ ε) :
    Prop :=
  ∀ uploadTask ∈ upload,
    List.Sublist uploadTask.requestBody (start ++ acceptedIn daemon.trace)

theorem SendsRecorded.extended {start : List ε} {upload : Option (UploadTask ε)}
    (h : SendsRecorded start upload self) (htrace : self.trace <+: next.trace) :
    SendsRecorded start upload next := by
  obtain ⟨actions, htrace⟩ := htrace
  intro uploadTask hmem
  rw [← htrace, acceptedIn_append, ← List.append_assoc]
  exact (h uploadTask hmem).trans (List.sublist_append_left _ _)

/-- What the requests of a daemon have, and what the ledger says. -/
def Delivering (Contents : κ → List ε → Prop) (token : List ε → Nat) (start : List ε)
    (upload : Option (UploadTask ε)) (daemon : EmerDaemon κ ε) : Prop :=
  (∃ cached, Accounted Contents token start cached upload daemon) ∧
    SendsRecorded start upload daemon

section Delivering

variable {Contents : κ → List ε → Prop} {fits : List ε → List ε → Nat} {token : List ε → Nat}
  {start : List ε}

/-- What a request has is what waits at the front. -/
theorem Describes.isPrefix {uploadTask : UploadTask ε} {cached buffered : List ε}
    (h : Describes token uploadTask cached buffered) :
    uploadTask.requestBody <+: cached ++ buffered := by
  obtain ⟨stored, more, sent, rest, rfl, rfl, hbody, -, -, hexhausts⟩ := h
  rw [hbody]
  rcases hexhausts with rfl | rfl
  · rw [List.append_nil, List.append_assoc]
    exact List.prefix_append _ _
  · rw [List.append_nil, ← List.append_assoc]
    exact List.prefix_append _ _

/-- What waits was recorded. -/
theorem Accounted.pending_sublist {cached : List ε} {upload : Option (UploadTask ε)}
    (h : Accounted Contents token start cached upload self) :
    List.Sublist ((acknowledgedIn self.trace).flatten ++ (cached ++ self.buffer.variantArray))
      (start ++ acceptedIn self.trace) := by
  have hkept := Ledger.kept_sublist start self.trace
  rw [← h.balanced, Ledger.acknowledged_ofTrace] at hkept
  exact hkept

theorem delivering_uploadInvariant (hlaws : LawfulCache parts.cache Contents fits token)
    (start : List ε) :
    UploadInvariant parts (RequestKeepsFront parts) (Delivering Contents token start) where
  same := by
    rintro upload self next hsame ⟨haccounted, hsends⟩
    refine ⟨(accounted_uploadInvariant hlaws start).same hsame haccounted, ?_⟩
    exact hsends.extended (by rw [hsame.trace])
  current := fun h => (accounted_uploadInvariant hlaws start).current h.1
  recorded := by
    rintro upload self event ⟨haccounted, hsends⟩ hrecording
    refine ⟨(accounted_uploadInvariant hlaws start).recorded haccounted hrecording, ?_⟩
    exact hsends.extended (sameAnswers_bufferEvent self event).1
  housekeeping := by
    rintro upload self next hstep ⟨haccounted, hsends⟩
    refine ⟨(accounted_uploadInvariant hlaws start).housekeeping hstep haccounted, ?_⟩
    exact hsends.extended (sameAnswers_housekept (.single hstep)).1
  requested := by
    rintro upload self hupload ⟨haccounted, hsends⟩ hok
    refine ⟨(accounted_uploadInvariant hlaws start).requested hupload haccounted hok, ?_⟩
    exact hsends.extended
      (sameAnswers_since (dequeueAndDoUpload_housekept parts (self.enqueued gMaxsize)) rfl).1
  timerFired := by
    rintro upload self hupload ⟨haccounted, hsends⟩ hok
    refine ⟨(accounted_uploadInvariant hlaws start).timerFired hupload haccounted hok, ?_⟩
    have hreloaded := sameAnswers_housekept (getEnvironment_housekept parts True self)
    exact (hsends.extended hreloaded.1).extended (sameAnswers_since
      (dequeueAndDoUpload_housekept parts
        ((self.getEnvironment parts).enqueued maxRequestPayload)) rfl).1
  notStarted := by
    rintro self uploadTask ⟨haccounted, -⟩
    exact ⟨(accounted_uploadInvariant hlaws start).notStarted haccounted, by simp [SendsRecorded]⟩
  started := by
    rintro self next uploadTask request ⟨haccounted, -⟩ hbody
    refine ⟨(accounted_uploadInvariant hlaws start).started haccounted hbody, ?_⟩
    -- what the new request takes from the front was recorded as all that waits
    obtain ⟨cached, haccounted⟩ := haccounted
    have hsome : (self.createRequestBody parts uploadTask true).1 = some request := by rw [hbody]
    have hwaiting := (haccounted.requestDescribes hlaws hsome).isPrefix.sublist
    have hrecorded : List.Sublist request.requestBody (start ++ acceptedIn self.trace) :=
      hwaiting.trans ((List.sublist_append_right _ _).trans haccounted.pending_sublist)
    have hbuilt := @sameAnswers_createRequestBody _ _ parts self uploadTask true
    rw [hbody] at hbuilt
    have hsends : SendsRecorded start (some request) self := by
      intro uploadTask hmem
      rw [← Option.mem_some.mp hmem]
      exact hrecorded
    exact hsends.extended (hbuilt.1.trans (List.prefix_append _ _))
  retried := by
    rintro uploadTask self attemptNum ⟨haccounted, hsends⟩
    refine ⟨(accounted_uploadInvariant hlaws start).retried attemptNum haccounted, ?_⟩
    intro retried hmem
    rw [← Option.mem_some.mp hmem]
    exact hsends uploadTask rfl
  sentAgain := by
    rintro uploadTask self fault ⟨haccounted, hsends⟩ hfind hfault hok
    refine ⟨(accounted_uploadInvariant hlaws start).sentAgain haccounted hfind hfault hok, ?_⟩
    exact hsends.extended (List.prefix_append _ _)
  acknowledged := by
    rintro uploadTask self outcome ⟨haccounted, -⟩ hlive hremove
    exact ⟨(accounted_uploadInvariant hlaws start).acknowledged haccounted hlive hremove,
      by simp [SendsRecorded]⟩
  ended := by
    rintro uploadTask self ⟨haccounted, -⟩
    exact ⟨(accounted_uploadInvariant hlaws start).ended haccounted, by simp [SendsRecorded]⟩
  finished := by
    rintro self cancelledUploads ⟨haccounted, -⟩
    exact ⟨(accounted_uploadInvariant hlaws start).finished self cancelledUploads haccounted,
      by simp [SendsRecorded]⟩

end Delivering

end EmerDaemon

/-! ## 4. A device and its server -/

/-- A device, through all the daemons that run on it, and what the server has of it. -/
structure Delivery (glib : VariantLibrary) (order : ByteOrder) where
  life : Option (Outcome EmerPersistentCache (StorableVariant glib order))
  /-- What the first cache held, and what the daemons that have ended accepted. -/
  recordedBefore : List (StorableVariant glib order)
  /-- What the daemons that have ended knew the server to have. -/
  acknowledgedBefore : List (List (StorableVariant glib order))
  /-- What the server has taken in, in the order of arrival. -/
  received : List (List (StorableVariant glib order))
  /-- The requests that the server has and a daemon waits for. -/
  answered : List Nat
  /-- The requests that nobody waits for and the server may still take in. -/
  inTransit : List (List (StorableVariant glib order))

inductive DeliveryEvent (ε : Type*) where
  | life (event : LifeEvent ε)
  /-- The server takes in a request that is waited for. -/
  | received (taskId : Nat)
  | receivedLate (index : Nat)

namespace Delivery

open EmerDaemon EmerPersistentCache

variable {glib : VariantLibrary} {order : ByteOrder}

def awaiting (life : Option (Outcome EmerPersistentCache (StorableVariant glib order))) :
    List (UploadTask (StorableVariant glib order)) :=
  life.elim [] fun outcome => (ofOutcome outcome).awaitingResponse

def traceOf (life : Option (Outcome EmerPersistentCache (StorableVariant glib order))) :
    List (Action (StorableVariant glib order)) :=
  life.elim [] fun outcome => (ofOutcome outcome).trace

def recorded (delivery : Delivery glib order) : List (StorableVariant glib order) :=
  delivery.recordedBefore ++ acceptedIn (traceOf delivery.life)

def acknowledged (delivery : Delivery glib order) : List (List (StorableVariant glib order)) :=
  delivery.acknowledgedBefore ++ acknowledgedIn (traceOf delivery.life)

/-- Only a server that has a request answers that it does.  Anything else may happen to it. -/
def Possible (delivery : Delivery glib order) : DaemonEvent (StorableVariant glib order) → Prop
  | .httpResponse taskId .successful => taskId ∈ delivery.answered
  | _ => True

instance (delivery : Delivery glib order) : DecidablePred delivery.Possible
  | .httpResponse _ .successful => inferInstanceAs (Decidable (_ ∈ _))
  | .httpResponse _ .retryable | .httpResponse _ .fatal | .recordEvent .. | .uploadEvents
  | .uploadTimer | .canReach .. | .backoffTimer .. | .setDaemonEnabled .. | .setUploadingEnabled ..
  | .writeConfigFileIdle .. | .configFileEdited .. => isTrue trivial

def WaitsFor (life : Option (Outcome EmerPersistentCache (StorableVariant glib order)))
    (taskId : Nat) : Prop :=
  ∃ uploadTask ∈ awaiting life, uploadTask.taskId = taskId

instance (life : Option (Outcome EmerPersistentCache (StorableVariant glib order))) (taskId : Nat) :
    Decidable (WaitsFor life taskId) :=
  inferInstanceAs (Decidable (∃ uploadTask ∈ awaiting life, _))

/-- The device goes on to its next state.  A request that is not waited for any more may be on its
way still, and its answer is not. -/
def goesOn (delivery : Delivery glib order)
    (life : Option (Outcome EmerPersistentCache (StorableVariant glib order))) :
    Delivery glib order :=
  let abandoned := (awaiting delivery.life).filter fun uploadTask =>
    uploadTask.taskId ∉ delivery.answered ∧ ¬ WaitsFor life uploadTask.taskId
  { delivery with
    life := life
    answered := delivery.answered.filter fun taskId => WaitsFor life taskId
    inTransit := delivery.inTransit ++ abandoned.map (·.requestBody) }

variable (parts : DaemonParts EmerPersistentCache (StorableVariant glib order))
  (uninitialised : Nat → UInt8)

def step (delivery : Delivery glib order) :
    DeliveryEvent (StorableVariant glib order) → Delivery glib order
  | .life (.daemon event) =>
    if delivery.Possible event then
      delivery.goesOn (lifeStep parts uninitialised delivery.life (.daemon event))
    else delivery
  | .life (.restart next) =>
    { delivery.goesOn (lifeStep parts uninitialised delivery.life (.restart next)) with
      recordedBefore := delivery.recorded
      acknowledgedBefore := delivery.acknowledged }
  | .received taskId =>
    match (awaiting delivery.life).find? (·.taskId = taskId) with
    | none => delivery
    -- a request is taken in once for every time that it is sent
    | some uploadTask =>
      if taskId ∈ delivery.answered then delivery
      else
        { delivery with
          received := delivery.received ++ [uploadTask.requestBody]
          answered := taskId :: delivery.answered }
  | .receivedLate index =>
    match delivery.inTransit[index]? with
    | none => delivery
    | some body =>
      { delivery with
        received := delivery.received ++ [body]
        inTransit := delivery.inTransit.eraseIdx index }

/-- No refused request moves buffered events from under an upload, and restarts are admissible. -/
def KeepsFront (delivery : Delivery glib order) :
    DeliveryEvent (StorableVariant glib order) → Prop
  | .life (.daemon event) =>
    ∀ outcome ∈ delivery.life, Meets (RequestKeepsFront parts) outcome event
  | .life (.restart next) => (LifeEvent.restart next).Admissible
  | .received _ | .receivedLate _ => True

instance (delivery : Delivery glib order) : DecidablePred (delivery.KeepsFront parts)
  | .life (.daemon event) =>
    inferInstanceAs (Decidable (∀ outcome ∈ delivery.life, Meets _ outcome event))
  | .life (.restart next) => inferInstanceAs (Decidable (LifeEvent.restart next).Admissible)
  | .received _ | .receivedLate _ => isTrue trivial

/-- A device whose first daemon starts over a cache with some contents. -/
def new (permissionsProvider : EmerPermissionsProvider) (cache : EmerPersistentCache)
    (contents : List (StorableVariant glib order)) (maxBytesBuffered : Nat)
    (pastEvents : List (StorableVariant glib order)) : Delivery glib order where
  life := some (.ok (EmerDaemon.new parts permissionsProvider cache maxBytesBuffered pastEvents))
  recordedBefore := contents
  acknowledgedBefore := []
  received := []
  answered := []
  inTransit := []

/-- What the server is known to have is what it has taken in, and with what waits on the device it
is in the order of recording.  A request has what waits first. -/
structure InOrder (delivery : Delivery glib order) : Prop where
  pending : ∃ outcome capacity pending, delivery.life = some outcome ∧
    Pending (SyncedContents capacity) (ofOutcome outcome) pending ∧
    List.Sublist (delivery.acknowledged.flatten ++ pending) delivery.recorded ∧
    ∀ uploadTask ∈ (ofOutcome outcome).waiting,
      uploadTask.taskId ∉ (ofOutcome outcome).cancelledUploads →
        uploadTask.requestBody <+: pending
  acknowledged : List.Sublist delivery.acknowledged delivery.received
  received : ∀ body ∈ delivery.received, List.Sublist body delivery.recorded

/-! ## 5. The invariant -/

/-- What the daemon of a life started with comes after what those before it delivered. -/
def LifeDelivers (life : Option (Outcome EmerPersistentCache (StorableVariant glib order)))
    (recordedBefore : List (StorableVariant glib order))
    (acknowledgedBefore : List (List (StorableVariant glib order))) : Prop :=
  ∃ outcome capacity start, life = some outcome ∧ capacity < 2 ^ 63 ∧
    InFlight (Delivering (SyncedContents capacity) tokenFor start) (ofOutcome outcome) ∧
    List.Sublist (acknowledgedBefore.flatten ++ start) recordedBefore

/-- The answers on their way are to requests that the server took in last. -/
structure Delivered (delivery : Delivery glib order) : Prop where
  device : LifeDelivers delivery.life delivery.recordedBefore delivery.acknowledgedBefore
  acknowledged : List.Sublist delivery.acknowledged delivery.received
  promised : ∀ uploadTask ∈ awaiting delivery.life, uploadTask.taskId ∈ delivery.answered →
    List.Sublist (delivery.acknowledged ++ [uploadTask.requestBody]) delivery.received
  waits : ∀ taskId ∈ delivery.answered, WaitsFor delivery.life taskId
  known : ∀ body ∈ delivery.received ++ delivery.inTransit, List.Sublist body delivery.recorded

namespace Delivered

variable {delivery : Delivery glib order}
  {outcome : Outcome EmerPersistentCache (StorableVariant glib order)}
  {parsesPingSocket parsesHttpRequestUrl : Text → Bool}

/-- What waits on the device comes after what the server is known to have. -/
theorem inOrder (h : Delivered delivery) : InOrder delivery := by
  obtain ⟨outcome, capacity, start, hlife, -, ⟨upload, hupload, ⟨cached, haccounted⟩, -⟩, hstart⟩ :=
    h.device
  refine ⟨⟨outcome, capacity, _, hlife, ⟨cached, haccounted.contents, rfl⟩, ?_, ?_⟩,
    h.acknowledged, fun body hmem => h.known body (List.mem_append_left _ hmem)⟩
  · have hpending := haccounted.pending_sublist
    unfold Delivery.acknowledged recorded
    rw [hlife, List.flatten_append, List.append_assoc]
    have hall := (List.Sublist.refl delivery.acknowledgedBefore.flatten).append hpending
    rw [← List.append_assoc _ start] at hall
    exact hall.trans (hstart.append (List.Sublist.refl _))
  · intro uploadTask hmem hlive
    rw [hupload, Option.mem_toList] at hmem
    exact (haccounted.describes uploadTask hmem hlive).isPrefix

/-- A request that is under way was recorded. -/
theorem sends_recorded (h : Delivered delivery)
    {uploadTask : UploadTask (StorableVariant glib order)}
    (hmem : uploadTask ∈ awaiting delivery.life) :
    List.Sublist uploadTask.requestBody delivery.recorded := by
  obtain ⟨outcome, capacity, start, hlife, -, ⟨upload, hupload, -, hsends⟩, hstart⟩ := h.device
  rw [hlife] at hmem
  have hsent := hsends uploadTask (find_of_waiting hupload hmem).1
  unfold recorded
  rw [hlife]
  exact hsent.trans (((List.sublist_append_right _ _).trans hstart).append (List.Sublist.refl _))

/-- Two requests that wait are the same. -/
theorem eq_of_awaiting (h : Delivered delivery)
    {uploadTask uploadTask' : UploadTask (StorableVariant glib order)}
    (hmem : uploadTask ∈ awaiting delivery.life) (hmem' : uploadTask' ∈ awaiting delivery.life) :
    uploadTask = uploadTask' := by
  obtain ⟨outcome, capacity, start, hlife, -, ⟨upload, hupload, -⟩, -⟩ := h.device
  rw [hlife] at hmem hmem'
  have hsome := (find_of_waiting hupload hmem).1
  rw [(find_of_waiting hupload hmem').1] at hsome
  exact (Option.some.inj hsome).symm

theorem received (h : Delivered delivery) {taskId : Nat}
    {uploadTask : UploadTask (StorableVariant glib order)}
    (hfind : (awaiting delivery.life).find? (·.taskId = taskId) = some uploadTask) :
    Delivered { delivery with
      received := delivery.received ++ [uploadTask.requestBody]
      answered := taskId :: delivery.answered } := by
  have hmem : uploadTask ∈ awaiting delivery.life := List.mem_of_find?_eq_some hfind
  refine ⟨h.device, h.acknowledged.trans (List.sublist_append_left _ _), ?_, ?_, ?_⟩
  · intro waiting hwaiting _
    rw [← h.eq_of_awaiting hmem hwaiting]
    exact h.acknowledged.append (List.Sublist.refl _)
  · intro answered hanswered
    rcases List.mem_cons.mp hanswered with rfl | hanswered
    · exact ⟨uploadTask, hmem, taskId_of_find hfind⟩
    · exact h.waits answered hanswered
  · intro body hbody
    simp only [List.append_assoc, List.mem_append, List.mem_singleton] at hbody
    rcases hbody with hbody | rfl | hbody
    · exact h.known body (List.mem_append_left _ hbody)
    · exact h.sends_recorded hmem
    · exact h.known body (List.mem_append_right _ hbody)

theorem receivedLate (h : Delivered delivery) {index : Nat}
    {body : List (StorableVariant glib order)} (hbody : delivery.inTransit[index]? = some body) :
    Delivered { delivery with
      received := delivery.received ++ [body]
      inTransit := delivery.inTransit.eraseIdx index } := by
  have hgrows : List.Sublist delivery.received (delivery.received ++ [body]) :=
    List.sublist_append_left _ _
  refine ⟨h.device, h.acknowledged.trans hgrows,
    fun uploadTask hmem hanswered => (h.promised uploadTask hmem hanswered).trans hgrows, h.waits,
    ?_⟩
  intro known hknown
  apply h.known known
  simp only [List.append_assoc, List.mem_append, List.mem_singleton] at hknown ⊢
  rcases hknown with hknown | rfl | hknown
  · exact .inl hknown
  · exact .inr (List.mem_of_getElem? hbody)
  · exact .inr (List.mem_of_mem_eraseIdx hknown)

/-- What the device's next state has to show for the server's part to go on. -/
theorem goesOn (h : Delivered delivery)
    {life : Option (Outcome EmerPersistentCache (StorableVariant glib order))}
    {recordedBefore : List (StorableVariant glib order)}
    {acknowledgedBefore : List (List (StorableVariant glib order))}
    (hdevice : LifeDelivers life recordedBefore acknowledgedBefore)
    (hacknowledged : List.Sublist (acknowledgedBefore ++ acknowledgedIn (traceOf life))
      delivery.received)
    (hpromised : ∀ uploadTask ∈ awaiting life, uploadTask.taskId ∈ delivery.answered →
      List.Sublist (acknowledgedBefore ++ acknowledgedIn (traceOf life) ++
        [uploadTask.requestBody]) delivery.received)
    (hgrows : List.Sublist delivery.recorded (recordedBefore ++ acceptedIn (traceOf life))) :
    Delivered { delivery.goesOn life with
      recordedBefore := recordedBefore
      acknowledgedBefore := acknowledgedBefore } := by
  refine ⟨hdevice, hacknowledged, ?_, ?_, ?_⟩
  · intro uploadTask hmem hanswered
    exact hpromised uploadTask hmem (List.mem_of_mem_filter hanswered)
  · intro taskId hanswered
    obtain ⟨-, hwaits⟩ := List.mem_filter.mp hanswered
    exact of_decide_eq_true hwaits
  · intro body hbody
    refine List.Sublist.trans ?_ hgrows
    rcases List.mem_append.mp hbody with hreceived | htransit
    · exact h.known body (List.mem_append_left _ hreceived)
    rcases List.mem_append.mp htransit with htransit | habandoned
    · exact h.known body (List.mem_append_right _ htransit)
    · obtain ⟨uploadTask, hmem, rfl⟩ := List.mem_map.mp habandoned
      exact h.sends_recorded (List.mem_of_mem_filter hmem)

/-- The device handles an event, after which requests wait and answers are noted as may be. -/
theorem answered (h : Delivered delivery) {event : DaemonEvent (StorableVariant glib order)}
    (hpossible : delivery.Possible event) (hlife : delivery.life = some outcome)
    {next : Outcome EmerPersistentCache (StorableVariant glib order)}
    {reached : EmerDaemon EmerPersistentCache (StorableVariant glib order)}
    (hreached : ofOutcome next = reached)
    (hanswers : EmerDaemon.Answers (ofOutcome outcome) event reached)
    (hdevice : LifeDelivers (some next) delivery.recordedBefore delivery.acknowledgedBefore) :
    Delivered (delivery.goesOn (some next)) := by
  have hbefore : delivery.acknowledged =
      delivery.acknowledgedBefore ++ acknowledgedIn (ofOutcome outcome).trace := by
    unfold Delivery.acknowledged
    rw [hlife]
    rfl
  have hgrows : (ofOutcome outcome).trace <+: reached.trace →
      List.Sublist delivery.recorded (delivery.recordedBefore ++ acceptedIn reached.trace) := by
    rintro ⟨actions, hactions⟩
    unfold recorded
    rw [hlife, ← hactions, acceptedIn_append, ← List.append_assoc]
    exact List.sublist_append_left _ _
  have hwaiting : awaiting delivery.life = (ofOutcome outcome).awaitingResponse := by
    rw [hlife]
    rfl
  -- without a request that waits no answer is on its way
  have hnone : (ofOutcome outcome).awaitingResponse = [] → delivery.answered = [] := by
    intro hnone
    rw [List.eq_nil_iff_forall_not_mem]
    intro taskId hanswered
    obtain ⟨uploadTask, hmem, -⟩ := h.waits taskId hanswered
    rw [hwaiting, hnone] at hmem
    cases hmem
  have hover : reached.awaitingResponse = [] → ∀ uploadTask ∈ awaiting (some next),
      uploadTask.taskId ∈ delivery.answered →
      List.Sublist (delivery.acknowledgedBefore ++ acknowledgedIn (traceOf (some next)) ++
        [uploadTask.requestBody]) delivery.received := by
    intro hover uploadTask hmem
    rw [show awaiting (some next) = reached.awaitingResponse from by rw [← hreached]; rfl,
      hover] at hmem
    cases hmem
  have hacknowledged := h.acknowledged
  rw [hbefore] at hacknowledged
  have htrace : traceOf (some next) = reached.trace := by
    rw [← hreached]
    rfl
  rw [← htrace] at hgrows
  cases hanswers with
  | waitingStill hsame hanswers =>
    have hsent := hanswers.2
    rw [← htrace] at hsent
    apply h.goesOn hdevice _ _ (hgrows (htrace ▸ hanswers.1))
    · rw [hsent]
      exact hacknowledged
    -- whoever waits has waited before
    · intro uploadTask hmem hanswered
      rw [hsent, ← hbefore]
      apply h.promised uploadTask _ hanswered
      rw [hwaiting, ← hsame, ← hreached]
      exact hmem
  | noneWaited hnoneWaited hanswers =>
    have hsent := hanswers.2
    rw [← htrace] at hsent
    apply h.goesOn hdevice _ _ (hgrows (htrace ▸ hanswers.1))
    · rw [hsent]
      exact hacknowledged
    · intro uploadTask _ hanswered
      rw [hnone hnoneWaited] at hanswered
      cases hanswered
  | waitOver hwaitOver hanswers =>
    have hsent := hanswers.2
    rw [← htrace] at hsent
    apply h.goesOn hdevice _ (hover hwaitOver) (hgrows (htrace ▸ hanswers.1))
    rw [hsent]
    exact hacknowledged
  | @acknowledged uploadTask _ hmem hwaitOver hprefix hanswers =>
    rw [← htrace] at hanswers
    apply h.goesOn hdevice _ (hover hwaitOver) (hgrows (htrace ▸ hprefix))
    -- the answer could only come because the server had taken the request in
    rw [hanswers, ← List.append_assoc, ← hbefore]
    exact h.promised uploadTask (hwaiting ▸ hmem) hpossible

theorem handled (h : Delivered delivery) {event : DaemonEvent (StorableVariant glib order)}
    (hpossible : delivery.Possible event)
    (hkeeps : delivery.KeepsFront (storingParts glib order parsesPingSocket parsesHttpRequestUrl)
      (.life (.daemon event))) :
    Delivered (delivery.goesOn (lifeStep
      (storingParts glib order parsesPingSocket parsesHttpRequestUrl) uninitialised delivery.life
      (.daemon event))) := by
  obtain ⟨outcome, capacity, start, hlife, hcapacity, hflight, hstart⟩ := h.device
  have hI := @delivering_uploadInvariant _ _
    (storingParts glib order parsesPingSocket parsesHttpRequestUrl) _ _ _
    (lawful_synced hcapacity) start
  have hmeets := hkeeps outcome (hlife ▸ rfl)
  rw [hlife]
  cases outcome with
  -- a daemon that was aborted handles nothing any more
  | error abort =>
    exact h.answered hpossible hlife rfl (.waitingStill rfl (.refl _))
      ⟨_, capacity, start, rfl, hcapacity, hflight, hstart⟩
  | ok self =>
    have hhandled :=
      handle_handled (storingParts glib order parsesPingSocket parsesHttpRequestUrl) self event
    have hnext := hI.handled hhandled hflight hmeets
    obtain ⟨upload, hupload, hself⟩ := hflight
    have hanswers := answers_handled hupload
      (fun hidle => (hI.idle ⟨upload, hupload, hself⟩ hidle).2.1) hhandled
    exact h.answered hpossible hlife rfl hanswers
      ⟨_, capacity, start, rfl, hcapacity, hnext, hstart⟩

/-- What an ended daemon leaves in its cache comes after what it knew the server to have. -/
theorem closed_sublist {capacity : Nat} (hcapacity : capacity < 2 ^ 63)
    {start : List (StorableVariant glib order)}
    (hflight : InFlight (Delivering (SyncedContents capacity) tokenFor start) (ofOutcome outcome))
    (finalized : Bool) :
    ∃ closed, SyncedContents capacity
        (closedCache (storingParts glib order parsesPingSocket parsesHttpRequestUrl) finalized
          outcome) closed ∧
      List.Sublist ((acknowledgedIn (ofOutcome outcome).trace).flatten ++ closed)
        (start ++ acceptedIn (ofOutcome outcome).trace) := by
  obtain ⟨upload, -, ⟨cached, haccounted⟩, -⟩ := hflight
  -- a process that is killed loses what only its buffer had
  have hfront : ∀ {cached buffered body : List (StorableVariant glib order)},
      List.Sublist (body ++ cached) (body ++ (cached ++ buffered)) := fun {cached buffered body} =>
    (List.Sublist.refl body).append (List.sublist_append_left cached buffered)
  have hcached := hfront.trans haccounted.pending_sublist
  cases outcome with
  | error abort => exact ⟨cached, haccounted.contents, hcached⟩
  | ok self =>
    cases finalized with
    | false => exact ⟨cached, haccounted.contents, hcached⟩
    | true =>
      -- the last flush leaves more in the cache, none of it out of order
      have hquiet : Quiet (numFittingElems capacity) cached none self := by
        intro uploadTask hmem
        cases hmem
      obtain ⟨flushed, haccounted', -⟩ := @Accounted.flush _ _
        (storingParts glib order parsesPingSocket parsesHttpRequestUrl) _ _ _ _ _ _ _
        (lawful_synced hcapacity) haccounted.ended hquiet
      have htrace : (self.flushToPersistentCache
          (storingParts glib order parsesPingSocket parsesHttpRequestUrl)).trace = self.trace := by
        obtain ⟨cache, buffer, hflush⟩ := flushToPersistentCache_eq
          (storingParts glib order parsesPingSocket parsesHttpRequestUrl) self
        rw [hflush]
      have hflushed := hfront.trans haccounted'.pending_sublist
      dsimp only [ofOutcome] at hflushed
      rw [htrace] at hflushed
      exact ⟨flushed, haccounted'.contents, hflushed⟩

/-- A daemon that starts has not sent anything. -/
theorem new_sends_nothing (parts : DaemonParts EmerPersistentCache (StorableVariant glib order))
    (permissionsProvider : EmerPermissionsProvider) (cache : EmerPersistentCache)
    (maxBytesBuffered : Nat) (pastEvents : List (StorableVariant glib order)) :
    (EmerDaemon.new parts permissionsProvider cache maxBytesBuffered
        pastEvents).awaitingResponse = [] ∧
      acknowledgedIn (EmerDaemon.new parts permissionsProvider cache maxBytesBuffered
        pastEvents).trace = [] := by
  apply new_keeps (I := fun self => self.awaitingResponse = [] ∧ acknowledgedIn self.trace = [])
  · exact ⟨rfl, rfl⟩
  · rintro self event ⟨hwaiting, hanswers⟩
    unfold recordEvent
    split
    · have hsame := @sameAnswers_bufferEvent _ _ parts self event
      refine ⟨?_, hsame.2.trans hanswers⟩
      rw [bufferEvent_eq]
      exact hwaiting
    · exact ⟨hwaiting, hanswers⟩
  · rintro self provider notified ⟨hwaiting, hanswers⟩
    have hkept : Housekept parts True self (self.withProvider parts provider notified) :=
      .single (.provider self provider notified)
    exact ⟨(sameAwaiting_housekept hkept).1.trans hwaiting,
      (sameAnswers_housekept hkept).2.trans hanswers⟩

theorem restarted (h : Delivered delivery) {next : Restart (StorableVariant glib order)}
    (hadmissible : (LifeEvent.restart next).Admissible) :
    Delivered { delivery.goesOn (lifeStep
        (storingParts glib order parsesPingSocket parsesHttpRequestUrl) uninitialised delivery.life
        (.restart next)) with
      recordedBefore := delivery.recorded
      acknowledgedBefore := delivery.acknowledged } := by
  obtain ⟨outcome, capacity, start, hlife, hcapacity, hflight, hstart⟩ := h.device
  obtain ⟨hpos, hsize, -⟩ := hadmissible
  obtain ⟨closed, hclosed, hsublist⟩ := @closed_sublist _ _ _ parsesPingSocket
    parsesHttpRequestUrl _ hcapacity _ hflight next.finalized
  obtain ⟨opened, kept, hopened, hkept, hsynced⟩ :=
    hclosed.reopen hpos hsize uninitialised next.discarded
  have hrestarted : lifeStep (storingParts glib order parsesPingSocket parsesHttpRequestUrl)
      uninitialised (some outcome) (.restart next) =
        some (.ok (EmerDaemon.new
          (storingParts glib order parsesPingSocket parsesHttpRequestUrl)
          next.permissionsProvider opened next.maxBytesBuffered next.pastEvents)) := by
    show EmerDaemon.restarted _ uninitialised outcome next = _
    unfold EmerDaemon.restarted
    rw [hopened]
  obtain ⟨hwaiting, hanswers⟩ := new_sends_nothing
    (storingParts glib order parsesPingSocket parsesHttpRequestUrl) next.permissionsProvider opened
    next.maxBytesBuffered next.pastEvents
  have hdelivering : Delivering (SyncedContents next.cacheSize) tokenFor kept none
      (initial next.permissionsProvider opened next.maxBytesBuffered) :=
    ⟨⟨kept, hsynced, by simp [initial, Ledger.ofTrace], by simp, by simp⟩, by simp [SendsRecorded]⟩
  have hI := @delivering_uploadInvariant _ _
    (storingParts glib order parsesPingSocket parsesHttpRequestUrl) _ _ _ (lawful_synced hsize) kept
  have hstarted := hI.inFlight_new hdelivering next.pastEvents
  -- what the ended daemons leave, followed by what the new one opens
  have hbefore : List.Sublist (delivery.acknowledged.flatten ++ kept) delivery.recorded := by
    unfold Delivery.acknowledged recorded
    rw [hlife, List.flatten_append, List.append_assoc]
    have hleft : List.Sublist ((acknowledgedIn (ofOutcome outcome).trace).flatten ++ kept)
        (start ++ acceptedIn (ofOutcome outcome).trace) :=
      ((List.Sublist.refl _).append hkept.sublist).trans hsublist
    have hall := (List.Sublist.refl delivery.acknowledgedBefore.flatten).append hleft
    rw [← List.append_assoc _ start] at hall
    exact hall.trans (hstart.append (List.Sublist.refl _))
  rw [hlife, hrestarted]
  have htrace : acknowledgedIn (traceOf (some (.ok (EmerDaemon.new
      (storingParts glib order parsesPingSocket parsesHttpRequestUrl) next.permissionsProvider
      opened next.maxBytesBuffered next.pastEvents)))) = [] := hanswers
  have hdevice : LifeDelivers (some (.ok (EmerDaemon.new
      (storingParts glib order parsesPingSocket parsesHttpRequestUrl) next.permissionsProvider
      opened next.maxBytesBuffered next.pastEvents))) delivery.recorded delivery.acknowledged :=
    ⟨_, next.cacheSize, kept, rfl, hsize, hstarted, hbefore⟩
  apply h.goesOn hdevice
  · rw [htrace, List.append_nil]
    exact h.acknowledged
  · intro uploadTask hmem
    rw [awaiting, Option.elim_some, ofOutcome, hwaiting] at hmem
    cases hmem
  · exact List.sublist_append_left _ _

/-- **Step lemma.** -/
theorem step (h : Delivered delivery) {event : DeliveryEvent (StorableVariant glib order)}
    (hkeeps : delivery.KeepsFront (storingParts glib order parsesPingSocket parsesHttpRequestUrl)
      event) :
    Delivered (delivery.step (storingParts glib order parsesPingSocket parsesHttpRequestUrl)
      uninitialised event) := by
  cases event with
  | life event =>
    cases event with
    | daemon event =>
      unfold Delivery.step
      dsimp only
      split
      · rename_i hpossible
        exact h.handled uninitialised hpossible hkeeps
      · exact h
    | restart next => exact h.restarted uninitialised hkeeps
  | received taskId =>
    unfold Delivery.step
    dsimp only
    split
    · exact h
    · rename_i uploadTask hfind
      split
      · exact h
      · exact h.received hfind
  | receivedLate index =>
    unfold Delivery.step
    dsimp only
    split
    · exact h
    · rename_i body hbody
      exact h.receivedLate hbody

theorem new {capacity : Nat} (hcapacity : capacity < 2 ^ 63) {cache : EmerPersistentCache}
    {contents : List (StorableVariant glib order)}
    (hcontents : SyncedContents capacity cache contents)
    (permissionsProvider : EmerPermissionsProvider) (maxBytesBuffered : Nat)
    (pastEvents : List (StorableVariant glib order)) :
    Delivered (Delivery.new (storingParts glib order parsesPingSocket parsesHttpRequestUrl)
      permissionsProvider cache contents maxBytesBuffered pastEvents) := by
  obtain ⟨hwaiting, hanswers⟩ := new_sends_nothing
    (storingParts glib order parsesPingSocket parsesHttpRequestUrl) permissionsProvider cache
    maxBytesBuffered pastEvents
  have hdelivering : Delivering (SyncedContents capacity) tokenFor contents none
      (initial permissionsProvider cache maxBytesBuffered) :=
    ⟨⟨contents, hcontents, by simp [initial, Ledger.ofTrace], by simp, by simp⟩,
      by simp [SendsRecorded]⟩
  have hI := @delivering_uploadInvariant _ _
    (storingParts glib order parsesPingSocket parsesHttpRequestUrl) _ _ _ (lawful_synced hcapacity)
    contents
  have hstarted := hI.inFlight_new hdelivering pastEvents
  refine ⟨⟨_, capacity, contents, rfl, hcapacity, hstarted, List.Sublist.refl _⟩, ?_, ?_, ?_, ?_⟩
  · show List.Sublist ([] ++ acknowledgedIn (EmerDaemon.new _ _ _ _ _).trace) []
    rw [hanswers]
    exact List.Sublist.refl _
  · intro uploadTask hmem hanswered
    cases hanswered
  · intro taskId hanswered
    cases hanswered
  · intro body hbody
    cases hbody

end Delivered

/-! ## 6. Runs -/

/-- **Deliveries are in order.**  Through any recording, uploading, losing of requests and answers,
late arrivals and restarts, what the server is known to have is what it has taken in, and with what
waits on the device after it, nothing is out of the order of recording or there twice. -/
theorem deliveries_in_order (parsesPingSocket parsesHttpRequestUrl : Text → Bool) {capacity : Nat}
    (hcapacity : capacity < 2 ^ 63) {cache : EmerPersistentCache}
    {contents : List (StorableVariant glib order)}
    (hcontents : SyncedContents capacity cache contents)
    (permissionsProvider : EmerPermissionsProvider) (maxBytesBuffered : Nat)
    (pastEvents : List (StorableVariant glib order))
    {events : List (DeliveryEvent (StorableVariant glib order))}
    (hkeeps : EachStep
      (step (storingParts glib order parsesPingSocket parsesHttpRequestUrl) uninitialised)
      (KeepsFront (storingParts glib order parsesPingSocket parsesHttpRequestUrl))
      (new (storingParts glib order parsesPingSocket parsesHttpRequestUrl) permissionsProvider cache
        contents maxBytesBuffered pastEvents) events) :
    Throughout (step (storingParts glib order parsesPingSocket parsesHttpRequestUrl) uninitialised)
      InOrder
      (new (storingParts glib order parsesPingSocket parsesHttpRequestUrl) permissionsProvider cache
        contents maxBytesBuffered pastEvents) events := by
  have hrun := throughout_of_step (I := Delivered)
    (fun delivery event h hkeeps => h.step uninitialised hkeeps)
    (.new hcapacity hcontents permissionsProvider maxBytesBuffered pastEvents) hkeeps
  exact hrun.mono fun delivery h => h.inOrder

/-- The first answer is lost and the request sent again, the daemon is killed while it waits, and
the last request arrives when nobody waits for it. -/
def lossyRun : List (DeliveryEvent (StorableVariant eventVariants .little)) :=
  [.life (.daemon (.recordEvent smallEvent)), .life (.daemon .uploadTimer),
    .life (.daemon (.canReach true .none)), .received 0,
    .life (.daemon (.httpResponse 0 .retryable)), .life (.daemon (.backoffTimer 0 .none)),
    .received 0, .life (.daemon (.httpResponse 0 .successful)),
    .life (.daemon (.recordEvent smallEvent)), .life (.daemon .uploadTimer),
    .life (.daemon (.canReach true .none)),
    .life (.restart ⟨false, 128, false, emerPermissionsProviderNew (.parsed sampleConfigFile) none,
      100000, []⟩),
    .receivedLate 0]

theorem deliveries_in_order_lossyRun :
    Throughout (step (storingParts eventVariants .little (fun _ => true) fun _ => true) fun _ => 0)
      InOrder
      (new (storingParts eventVariants .little (fun _ => true) fun _ => true)
        (emerPermissionsProviderNew (.parsed sampleConfigFile) none) smallSyncedCache [] 100000 [])
      lossyRun :=
  deliveries_in_order (fun _ => 0) (fun _ => true) (fun _ => true) (by decide)
    smallSyncedCache_empty (emerPermissionsProviderNew (.parsed sampleConfigFile) none) 100000 []
    (by decide +kernel)

end Delivery

end EventRecorder
