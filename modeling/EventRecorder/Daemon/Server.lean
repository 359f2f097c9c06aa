import EventRecorder.Daemon.HoldsNothing
import EventRecorder.Daemon.PermissionsKept
import EventRecorder.Daemon.TasksReturned
import EventRecorder.Theory.Simulation

/-!
# The D-Bus server

Clients reach the daemon through the methods of `com.endlessm.Metrics`.  A privileged method is
checked with PolicyKit in a thread of its own, while the main loop goes on.  Most calls are answered
by their handler; `UploadEvents` is answered when its task has been returned.
-/

namespace EventRecorder

open Theory

/-! ## 1. Methods -/

/-- The arguments of `RecordSingularEvent`; `bootOffset` is what the persistent cache answers when
it is asked for the boot offset. -/
structure RecordSingularEvent where
  eventId : GVariant
  relativeTimestamp : Int
  hasPayload : Bool
  payload : GVariant
  bootOffset : Except GError Int

/-- The members of `(aysxmv)`. -/
structure SingularEvent where
  eventId : Bytes
  osVersion : Text
  relativeTimestamp : Int
  payload : Option GVariant
  deriving DecidableEq, Repr

/-- What the server is built from.  `gVariantNew` makes the variant of an event. -/
structure ServerParts (κ ε : Type*) extends RecorderParts κ ε where
  osVersion : Text
  gVariantNew : SingularEvent → ε

/-- `emer_daemon_record_singular_event`, up to the buffer: the event, if it is not dropped. -/
def singularEvent {κ ε : Type*} (parts : ServerParts κ ε) (call : RecordSingularEvent) :
    Option ε :=
  if call.payload.typeString ≠ gVariantTypeVariant then none
  else if !isUuid call.eventId then none
  else
    match call.bootOffset with
    | .error _ => none
    | .ok bootOffset =>
      some (parts.gVariantNew
        { eventId := call.eventId.data
          osVersion := parts.osVersion
          relativeTimestamp := (call.relativeTimestamp + bootOffset).bmod (2 ^ 64)
          payload := getNullablePayload call.payload call.hasPayload })

/-- A call on the object of the server.  The arguments that no handler reads are left out. -/
inductive MethodCall where
  | recordSingularEvent (call : RecordSingularEvent)
  | recordAggregateEvent
  | recordEventSequence
  | setEnabled (enabled : Bool)
  | startAggregateTimer (call : StartAggregateTimer)
  | uploadEvents

def MethodCall.methodName : MethodCall → String
  | .recordSingularEvent _ => "RecordSingularEvent"
  | .recordAggregateEvent => "RecordAggregateEvent"
  | .recordEventSequence => "RecordEventSequence"
  | .setEnabled _ => "SetEnabled"
  | .startAggregateTimer _ => "StartAggregateTimer"
  | .uploadEvents => "UploadEvents"

def MethodCall.isSetEnabled : MethodCall → Bool
  | .setEnabled _ => true
  | _ => false

structure AuthorizedMethod where
  methodName : String
  methodFullName : String
  errorMessage : String
  deriving DecidableEq, Repr

def authorizedMethods : List AuthorizedMethod :=
  [{ methodName := "SetEnabled"
     methodFullName := "com.endlessm.Metrics.SetEnabled"
     errorMessage := "Disabling metrics is only allowed from system settings" },
   { methodName := "ResetTrackingId"
     methodFullName := "com.endlessm.Metrics.ResetTrackingId"
     errorMessage := "Only privileged users can reset the tracking ID" }]

def lookupAuthorizedMethod (methodName : String) : Option AuthorizedMethod :=
  authorizedMethods.find? (·.methodName = methodName)

/-- What PolicyKit says about an action, with the messages of its errors. -/
inductive PolkitAnswer where
  | noAuthority (message : String)
  | noResult (message : String)
  | result (isAuthorized : Bool)
  deriving DecidableEq, Repr

inductive Reply where
  | completed
  | timerObjectPath (path : String)
  | timerNotStarted (error : StartError)
  | timerNotStopped (error : EmerSqliteError)
  | uploadFailed (result : UploadResult)
  | notChecked (message : String)
  | authFailed (message : String)
  deriving DecidableEq, Repr

def onAuthorizeMethodCheck (call : MethodCall) (polkit : String → PolkitAnswer) :
    Except Reply Unit :=
  match lookupAuthorizedMethod call.methodName with
  | none => .ok ()
  | some authorizedMethod =>
    match polkit authorizedMethod.methodFullName with
    | .noAuthority message => .error (.notChecked message)
    | .noResult message => .error (.notChecked message)
    | .result false => .error (.authFailed authorizedMethod.errorMessage)
    | .result true => .ok ()

/-! ## 2. The server -/

structure Server (κ ε : Type*) where
  recorder : Recorder κ ε
  nextInvocation : Nat
  /-- The calls that have not been dispatched to their handlers. -/
  unchecked : List (Nat × MethodCall)
  /-- The tasks that `handle_upload_finished` waits for, each with its invocation. -/
  callbackData : List (Nat × Nat)
  replies : List (Nat × Reply)

/-- Whether an event of the main loop is no method call. -/
def RecorderEvent.IsCallback {ε : Type*} : RecorderEvent ε → Prop
  | .daemon (.recordEvent _) | .daemon .uploadEvents | .daemon (.setDaemonEnabled _)
  | .daemon (.setUploadingEnabled _) => False
  | .timer (.startAggregateTimer _) | .timer (.stopTimer _ _ _) => False
  | _ => True

inductive ServerEvent (ε : Type*) where
  | methodCall (call : MethodCall)
  /-- The check of a call is over, and the call is dispatched if it is allowed. -/
  | authorizeMethod (invocation : Nat) (polkit : String → PolkitAnswer)
  /-- `StopTimer` is called on the object of a timer. -/
  | stopTimer (timerId : Nat) (now : GDateTime) (nowMonotonicUs : Int)
  /-- The callback of a task that has been returned. -/
  | uploadFinished (taskId : Nat)
  | callback (event : RecorderEvent ε) (h : event.IsCallback)

namespace Server

variable {κ ε : Type*} (parts : ServerParts κ ε) (server : Server κ ε)

def reply (invocation : Nat) (reply : Reply) : Server κ ε :=
  { server with replies := server.replies ++ [(invocation, reply)] }

/-- Without a result when the process ends. -/
def carryOut (events : List (RecorderEvent ε)) : Option (Server κ ε) :=
  (run (Recorder.step parts.toRecorderParts) (some server.recorder) events).map fun recorder =>
    { server with recorder := recorder }

def onRecordSingularEvent (invocation : Nat) (call : RecordSingularEvent) :
    Option (Server κ ε) :=
  (server.carryOut parts ((singularEvent parts call).toList.map fun event =>
    .daemon (.recordEvent event))).map (·.reply invocation .completed)

/-- The event is ignored. -/
def onRecordAggregateEvent (invocation : Nat) : Server κ ε :=
  server.reply invocation .completed

/-- `emer_daemon_record_event_sequence` is empty. -/
def onRecordEventSequence (invocation : Nat) : Server κ ε :=
  server.reply invocation .completed

def onSetEnabled (invocation : Nat) (enabled : Bool) : Option (Server κ ε) :=
  (server.carryOut parts
    [.daemon (.setDaemonEnabled enabled), .daemon (.setUploadingEnabled enabled)]).map
    (·.reply invocation .completed)

def onStartAggregateTimer (invocation : Nat) (call : StartAggregateTimer) :
    Option (Server κ ε) :=
  match server.recorder.registry.startAggregateTimer parts.uuidGenerateSha1 call with
  | .error error => some (server.reply invocation (.timerNotStarted error))
  | .ok (timerObjectPath, _) =>
    (server.carryOut parts [.timer (.startAggregateTimer call)]).map
      (·.reply invocation (.timerObjectPath timerObjectPath))

def onUploadEvents (invocation : Nat) : Option (Server κ ε) :=
  { server with
    callbackData := server.callbackData ++
      [(server.recorder.daemon.nextTaskId, invocation)] }.carryOut parts [.daemon .uploadEvents]

/-- `emer_daemon_upload_events_finish` and what is made of its result. -/
def uploadReply : UploadResult → Reply
  | .uploaded => .completed
  | failed => .uploadFailed failed

/-- The callback is not run before its task is returned, and not a second time. -/
def handleUploadFinished (taskId : Nat) : Server κ ε :=
  match server.callbackData.find? (·.1 = taskId),
      server.recorder.daemon.results.find? (·.1 = taskId) with
  | some (_, invocation), some (_, result) =>
    { server with
      callbackData := server.callbackData.filter (·.1 ≠ taskId) }.reply invocation
      (uploadReply result)
  | _, _ => server

def onTimerStoppedCb (timerImpl : EmerAggregateTimerImpl) (now : GDateTime)
    (nowMonotonicUs : Int) : Option (Server κ ε) :=
  let answer : Reply :=
    match (timerImpl.stop (Recorder.tallyOps parts.toRecorderParts) now nowMonotonicUs
      server.recorder.registry.aggregateTally).1 with
    | .error error => .timerNotStopped error
    | .ok () => .completed
  let called : Server κ ε := { server with nextInvocation := server.nextInvocation + 1 }
  (called.carryOut parts [.timer (.stopTimer timerImpl.timerId now nowMonotonicUs)]).map
    (·.reply server.nextInvocation answer)

def dispatch (invocation : Nat) : MethodCall → Option (Server κ ε)
  | .recordSingularEvent call => server.onRecordSingularEvent parts invocation call
  | .recordAggregateEvent => some (server.onRecordAggregateEvent invocation)
  | .recordEventSequence => some (server.onRecordEventSequence invocation)
  | .setEnabled enabled => server.onSetEnabled parts invocation enabled
  | .startAggregateTimer call => server.onStartAggregateTimer parts invocation call
  | .uploadEvents => server.onUploadEvents parts invocation

def handle : ServerEvent ε → Option (Server κ ε)
  | .methodCall call =>
    some { server with
      nextInvocation := server.nextInvocation + 1
      unchecked := server.unchecked ++ [(server.nextInvocation, call)] }
  | .authorizeMethod invocation polkit =>
    match server.unchecked.find? (·.1 = invocation) with
    | none => some server
    | some (_, call) =>
      let checked := { server with unchecked := server.unchecked.filter (·.1 ≠ invocation) }
      match onAuthorizeMethodCheck call polkit with
      | .error refusal => some (checked.reply invocation refusal)
      | .ok () => checked.dispatch parts invocation call
  | .stopTimer timerId now nowMonotonicUs =>
    match server.recorder.registry.findTimer timerId with
    -- GDBus itself answers for an object that is not exported
    | none => some server
    | some timerImpl => server.onTimerStoppedCb parts timerImpl now nowMonotonicUs
  | .uploadFinished taskId => some (server.handleUploadFinished taskId)
  | .callback event _ => server.carryOut parts [event]

def step (server : Option (Server κ ε)) (event : ServerEvent ε) : Option (Server κ ε) :=
  server.bind fun server => server.handle parts event

/-- `on_bus_acquired`. -/
def new (recorder : Recorder κ ε) : Server κ ε where
  recorder := recorder
  nextInvocation := 0
  unchecked := []
  callbackData := []
  replies := []

/-! ## 3. What the recorder does for the server -/

variable {parts} {server} {next : Server κ ε} {events : List (RecorderEvent ε)} {invocation : Nat}
  {held : List Nat}

/-- **Invariant rule.** Only the recorder has changed, and it keeps what its events keep. -/
theorem carryOut_keeps {I : Recorder κ ε → Prop}
    (hstep : ∀ recorder event, event ∈ events → I recorder → ∀ after,
      recorder.handle parts.toRecorderParts event = some after → I after)
    (h : I server.recorder) (hcarry : server.carryOut parts events = some next) :
    I next.recorder ∧ next = { server with recorder := next.recorder } := by
  obtain ⟨recorder, hrun, rfl⟩ := Option.map_eq_some_iff.mp hcarry
  refine ⟨?_, rfl⟩
  -- induction on the events, over every recorder that they can start from
  clear hcarry
  generalize server.recorder = start at h hrun
  induction events generalizing start with
  | nil =>
    cases hrun
    exact h
  | cons event events ih =>
    obtain ⟨after, hhandle, hrest⟩ :=
      @run_bind_cons _ _ (Recorder.handle parts.toRecorderParts) _ _ _ _ hrun
    exact ih (fun recorder event hmem => hstep recorder event (List.mem_cons_of_mem _ hmem))
      after (hstep start event List.mem_cons_self h after hhandle) hrest

/-- What the events of the upload machine and recording keep of it, the recorder keeps. -/
theorem handle_daemon_keeps {I : EmerDaemon κ ε → Prop} {recorder after : Recorder κ ε}
    {event : RecorderEvent ε}
    (hrecord : ∀ daemon event, I daemon → I (daemon.recordEvent parts.toDaemonParts event))
    (hdaemon : ∀ daemonEvent, event = .daemon daemonEvent → ∀ daemon,
      recorder.daemon.handle parts.toDaemonParts daemonEvent = .ok daemon → I daemon)
    (h : I recorder.daemon)
    (hhandle : recorder.handle parts.toRecorderParts event = some after) : I after.daemon := by
  cases event with
  | daemon daemonEvent =>
    rw [Recorder.handle] at hhandle
    split at hhandle
    · cases hhandle
    · rename_i daemon hok
      cases hhandle
      exact hdaemon daemonEvent rfl daemon hok
  | timer timerEvent =>
    have hrecorded : ∀ registry, I (Recorder.recordAggregates parts.toRecorderParts
        recorder.daemon registry).daemon := by
      intro registry
      rw [Recorder.recordAggregates, ← List.foldl_map]
      exact EmerDaemon.foldl_recordEvent_keeps hrecord _ h
    cases timerEvent with
    -- changed permissions only start or stop timers; other events may record aggregates
    | permissionsChanged enabled =>
      cases hhandle
      exact h
    | _ =>
      simp only [Recorder.handle, Option.map_eq_some_iff] at hhandle
      obtain ⟨registry, -, rfl⟩ := hhandle
      exact hrecorded registry

/-! ## 4. Every call is answered -/

/-- Each call has been answered once or waits in one place.  An upload that waits has a task of its
own, which has been returned once, or else is queued or under way. -/
structure CallsAnswered (server : Server κ ε) : Prop where
  placed : (server.replies.map Prod.fst ++ server.unchecked.map Prod.fst ++
    server.callbackData.map Prod.snd).Perm (List.range server.nextInvocation)
  ownTasks : (server.callbackData.map Prod.fst).Nodup
  tasks : ∀ callback ∈ server.callbackData,
    (server.recorder.daemon.results.map Prod.fst ++
      server.recorder.daemon.taskIds).count callback.1 = 1

variable (parts) in
/-- The callbacks that are due answer everything, once the daemon is idle. -/
def AnsweredWhenIdle (server : Server κ ε) : Prop :=
  server.unchecked = [] → server.recorder.daemon.taskIds = [] →
    ∃ answered, run (step parts) (some server)
        (server.callbackData.map fun callback => .uploadFinished callback.1) = some answered ∧
      answered.recorder = server.recorder ∧
      (answered.replies.map Prod.fst).Perm (List.range server.nextInvocation)

/-- The tasks of the upload machine are settled and conserved. -/
def TasksSound (given : Nat) (recorder : Recorder κ ε) : Prop :=
  recorder.daemon.Settled ∧ recorder.daemon.Conserved given []

theorem TasksSound.handle {given : Nat} {recorder after : Recorder κ ε}
    (h : TasksSound given recorder) {event : RecorderEvent ε}
    (hhandle : recorder.handle parts.toRecorderParts event = some after) :
    TasksSound given after := by
  apply handle_daemon_keeps (I := fun daemon => daemon.Settled ∧ daemon.Conserved given [])
    (fun daemon event hdaemon => ?_) (fun daemonEvent hevent daemon hok => ?_) h hhandle
  · have hsame := EmerDaemon.sameTasks_recordEvent parts.toDaemonParts daemon event
    exact ⟨hdaemon.1.same hsame, hdaemon.2.same hsame⟩
  · have hhandled := EmerDaemon.handle_handled parts.toDaemonParts recorder.daemon daemonEvent
    exact ⟨(h.1.handled hhandled).settled daemon hok, h.2.handled h.1 hhandled daemon hok⟩

/-- An upload that is requested has a task that was not given out before. -/
theorem TasksSound.uploadEvents {given : Nat} {recorder after : Recorder κ ε}
    (h : TasksSound given recorder)
    (hhandle : recorder.handle parts.toRecorderParts (.daemon .uploadEvents) = some after) :
    TasksSound (given + 1) after := by
  rw [Recorder.handle] at hhandle
  split at hhandle
  · cases hhandle
  · rename_i daemon hok
    cases hhandle
    have hhandled := EmerDaemon.handle_handled parts.toDaemonParts recorder.daemon .uploadEvents
    exact ⟨(h.1.handled hhandled).settled daemon hok,
      (h.2.enqueued gMaxsize).dequeueAndDoUpload daemon hok⟩

/-- What is found under a key that occurs once is taken out of a list by that key. -/
theorem perm_cons_filter {α : Type*} {key : α → Nat} {entries : List α}
    (hnodup : (entries.map key).Nodup) {k : Nat} {entry : α}
    (hfind : entries.find? (key · = k) = some entry) :
    entries.Perm (entry :: entries.filter (key · ≠ k)) := by
  induction entries with
  | nil => cases hfind
  | cons first entries ih =>
    rw [List.map_cons, List.nodup_cons] at hnodup
    by_cases hfirst : key first = k
    · rw [List.find?_cons_of_pos (by simpa using hfirst)] at hfind
      cases hfind
      rw [List.filter_cons_of_neg (by simpa using hfirst), List.filter_eq_self.mpr]
      intro other hother
      -- the key occurs once, so none of the rest is filtered out
      have hne : key other ≠ k := fun heq =>
        hnodup.1 (List.mem_map.mpr ⟨other, hother, heq.trans hfirst.symm⟩)
      simpa using hne
    · rw [List.find?_cons_of_neg (by simpa using hfirst)] at hfind
      rw [List.filter_cons_of_pos (by simpa using hfirst)]
      exact ((ih hnodup.2 hfind).cons first).trans (List.Perm.swap entry first _)

/-- What holds between two events.  The calls in the hands of a handler are `held`. -/
structure Accounted (held : List Nat) (server : Server κ ε) : Prop where
  sound : TasksSound 0 server.recorder
  placed : (held ++ (server.replies.map Prod.fst ++ server.unchecked.map Prod.fst ++
    server.callbackData.map Prod.snd)).Perm (List.range server.nextInvocation)
  ownTasks : (server.callbackData.map Prod.fst).Nodup
  given : ∀ callback ∈ server.callbackData, callback.1 < server.recorder.daemon.nextTaskId

namespace Accounted

theorem replied (h : Accounted (invocation :: held) server) (answer : Reply) :
    Accounted held (server.reply invocation answer) := by
  refine ⟨h.sound, ?_, h.ownTasks, h.given⟩
  apply List.Perm.trans _ h.placed
  rw [List.perm_iff_count]
  intro i
  simp only [Server.reply, List.map_append, List.map_cons, List.map_nil, List.cons_append,
    List.count_append, List.count_cons, List.count_nil]
  omega

/-- The recorder handles events that are not of the server's making. -/
theorem carriedOut (h : Accounted held server) (hcarry : server.carryOut parts events = some next) :
    Accounted held next := by
  have hsound : TasksSound server.recorder.daemon.nextTaskId server.recorder :=
    ⟨h.sound.1, h.sound.2.balance, le_refl _⟩
  obtain ⟨hafter, hnext⟩ := carryOut_keeps (fun recorder event _ hrecorder after hhandle =>
    TasksSound.handle hrecorder hhandle) hsound hcarry
  rw [hnext]
  refine ⟨⟨hafter.1, hafter.2.balance, Nat.zero_le _⟩, h.placed, h.ownTasks, ?_⟩
  intro callback hcallback
  exact Nat.lt_of_lt_of_le (h.given callback hcallback) hafter.2.given

theorem called (h : Accounted held server) (call : MethodCall) :
    Accounted held { server with
      nextInvocation := server.nextInvocation + 1
      unchecked := server.unchecked ++ [(server.nextInvocation, call)] } := by
  refine ⟨h.sound, ?_, h.ownTasks, h.given⟩
  rw [List.range_succ]
  apply List.Perm.trans _ (h.placed.append_right [server.nextInvocation])
  rw [List.perm_iff_count]
  intro i
  simp only [List.map_append, List.map_cons, List.map_nil, List.count_append]
  omega

/-- A call whose check is over is in the hands of a handler. -/
theorem checked (h : Accounted held server) {call : MethodCall} {found : Nat}
    (hfind : server.unchecked.find? (·.1 = invocation) = some (found, call)) :
    Accounted (invocation :: held)
      { server with unchecked := server.unchecked.filter (·.1 ≠ invocation) } := by
  have hfound : found = invocation := by simpa using List.find?_some hfind
  have hnodup : (server.unchecked.map Prod.fst).Nodup := by
    have hall := h.placed.nodup_iff.mpr List.nodup_range
    exact hall.sublist (((List.sublist_append_right _ _).trans
      (List.sublist_append_left _ _)).trans (List.sublist_append_right _ _))
  -- the call moves from the unchecked to the handler
  have htaken := (perm_cons_filter hnodup hfind).map Prod.fst
  refine ⟨h.sound, ?_, h.ownTasks, h.given⟩
  apply List.Perm.trans _ h.placed
  rw [List.perm_iff_count]
  intro i
  have hcount := htaken.count_eq i
  simp only [List.map_cons, List.count_cons, hfound] at hcount
  simp only [List.cons_append, List.count_append, List.count_cons]
  omega

theorem numbered (h : Accounted held server) :
    Accounted (server.nextInvocation :: held)
      { server with nextInvocation := server.nextInvocation + 1 } := by
  refine ⟨h.sound, ?_, h.ownTasks, h.given⟩
  rw [List.range_succ]
  exact (List.Perm.cons _ h.placed).trans (List.perm_append_singleton _ _).symm

/-- The invocation waits for a task of its own. -/
theorem uploadEvents (h : Accounted (invocation :: held) server)
    (hupload : server.onUploadEvents parts invocation = some next) : Accounted held next := by
  have hsound : TasksSound server.recorder.daemon.nextTaskId server.recorder :=
    ⟨h.sound.1, h.sound.2.balance, le_refl _⟩
  obtain ⟨recorder, hrun, rfl⟩ := Option.map_eq_some_iff.mp hupload
  have hafter : TasksSound (server.recorder.daemon.nextTaskId + 1) recorder :=
    hsound.uploadEvents hrun
  refine ⟨⟨hafter.1, hafter.2.balance, Nat.zero_le _⟩, ?_, ?_, ?_⟩
  · apply List.Perm.trans _ h.placed
    rw [List.perm_iff_count]
    intro i
    simp only [List.map_append, List.map_cons, List.map_nil, List.cons_append, List.count_append,
      List.count_cons, List.count_nil]
    omega
  -- the task is newer than every task that a callback waits for
  · rw [List.map_append, List.nodup_append]
    refine ⟨h.ownTasks, List.nodup_singleton _, fun taskId hmem other hother heq => ?_⟩
    obtain ⟨callback, hcallback, rfl⟩ := List.mem_map.mp hmem
    rw [List.mem_singleton.mp hother] at heq
    exact Nat.ne_of_lt (h.given callback hcallback) heq
  · intro callback hcallback
    rcases List.mem_append.mp hcallback with hcallback | hcallback
    · exact (Nat.lt_succ_of_lt (h.given callback hcallback)).trans_le hafter.2.given
    · rw [List.mem_singleton.mp hcallback]
      exact hafter.2.given

theorem uploadFinished (h : Accounted held server) (taskId : Nat) :
    Accounted held (server.handleUploadFinished taskId) := by
  unfold handleUploadFinished
  split
  · rename_i found invocation returnedTask result hfind hresult
    have htaken := perm_cons_filter h.ownTasks hfind
    have hheld : Accounted (invocation :: held)
        { server with callbackData := server.callbackData.filter (·.1 ≠ taskId) } := by
      refine ⟨h.sound, ?_, ?_, fun callback hcallback => ?_⟩
      · apply List.Perm.trans _ h.placed
        rw [List.perm_iff_count]
        intro i
        have hcount := (htaken.map Prod.snd).count_eq i
        simp only [List.map_cons, List.count_cons] at hcount
        simp only [List.cons_append, List.count_append, List.count_cons]
        omega
      · exact h.ownTasks.sublist (List.filter_sublist.map _)
      · exact h.given callback (List.mem_of_mem_filter hcallback)
    exact hheld.replied _
  · exact h

theorem timerStopped (h : Accounted held server) {timerImpl : EmerAggregateTimerImpl}
    {now : GDateTime} {nowMonotonicUs : Int}
    (hstopped : server.onTimerStoppedCb parts timerImpl now nowMonotonicUs = some next) :
    Accounted held next := by
  obtain ⟨after, hcarry, rfl⟩ := Option.map_eq_some_iff.mp hstopped
  exact (h.numbered.carriedOut hcarry).replied _

theorem dispatched (h : Accounted (invocation :: held) server) {call : MethodCall}
    (hdispatch : server.dispatch parts invocation call = some next) : Accounted held next := by
  cases call with
  | recordSingularEvent call =>
    obtain ⟨after, hcarry, rfl⟩ := Option.map_eq_some_iff.mp hdispatch
    exact (h.carriedOut hcarry).replied _
  | recordAggregateEvent =>
    cases hdispatch
    exact h.replied _
  | recordEventSequence =>
    cases hdispatch
    exact h.replied _
  | setEnabled enabled =>
    rw [dispatch, onSetEnabled] at hdispatch
    obtain ⟨after, hcarry, rfl⟩ := Option.map_eq_some_iff.mp hdispatch
    exact (h.carriedOut hcarry).replied _
  | startAggregateTimer call =>
    rw [dispatch, onStartAggregateTimer] at hdispatch
    split at hdispatch
    · cases hdispatch
      exact h.replied _
    · obtain ⟨after, hcarry, rfl⟩ := Option.map_eq_some_iff.mp hdispatch
      exact (h.carriedOut hcarry).replied _
  | uploadEvents => exact h.uploadEvents hdispatch

/-- **Step lemma.** -/
theorem handle (h : Accounted [] server) {event : ServerEvent ε}
    (hhandle : server.handle parts event = some next) : Accounted [] next := by
  cases event with
  | methodCall call =>
    cases hhandle
    exact h.called call
  | authorizeMethod invocation polkit =>
    rw [Server.handle] at hhandle
    split at hhandle
    · cases hhandle
      exact h
    · rename_i found call hfind
      dsimp only at hhandle
      split at hhandle
      · cases hhandle
        exact (h.checked hfind).replied _
      · exact (h.checked hfind).dispatched hhandle
  | stopTimer timerId now nowMonotonicUs =>
    rw [Server.handle] at hhandle
    split at hhandle
    · cases hhandle
      exact h
    · exact h.timerStopped hhandle
  | uploadFinished taskId =>
    cases hhandle
    exact h.uploadFinished taskId
  | callback event hcallback => exact h.carriedOut hhandle

theorem callsAnswered (h : Accounted [] server) : server.CallsAnswered := by
  refine ⟨h.placed, h.ownTasks, fun callback hcallback => ?_⟩
  have hbalance := h.sound.2.balance callback.1
  rw [if_pos (h.given callback hcallback), List.nil_append] at hbalance
  rw [List.count_append, EmerDaemon.count_results]
  exact hbalance

end Accounted

/-- The callbacks that are due are run one after the other. -/
theorem run_uploadFinished {callbacks : List (Nat × Nat)} (h : Accounted [] server)
    (hcallbacks : server.callbackData = callbacks) (hidle : server.recorder.daemon.taskIds = []) :
    ∃ answered, run (step parts) (some server)
        (callbacks.map fun callback => .uploadFinished callback.1) = some answered ∧
      Accounted [] answered ∧ answered.recorder = server.recorder ∧
      answered.unchecked = server.unchecked ∧
      answered.nextInvocation = server.nextInvocation ∧ answered.callbackData = [] := by
  induction callbacks generalizing server with
  | nil => exact ⟨server, rfl, h, rfl, rfl, rfl, hcallbacks⟩
  | cons callback callbacks ih =>
    have hmem : callback ∈ server.callbackData := hcallbacks ▸ List.mem_cons_self
    have hfind : server.callbackData.find? (·.1 = callback.1) = some callback := by
      rw [hcallbacks]
      exact List.find?_cons_of_pos (by simp)
    -- its task is not queued and not under way, so it has been returned
    have hcount := h.callsAnswered.tasks callback hmem
    rw [hidle, List.append_nil] at hcount
    have hreturned : callback.1 ∈ server.recorder.daemon.results.map Prod.fst :=
      List.count_pos_iff.mp (by omega)
    obtain ⟨result, hresult⟩ : ∃ result,
        server.recorder.daemon.results.find? (·.1 = callback.1) = some result := by
      rw [← Option.isSome_iff_exists, List.find?_isSome]
      obtain ⟨result, hmem, heq⟩ := List.mem_map.mp hreturned
      exact ⟨result, hmem, by simpa using heq⟩
    have hrest : server.callbackData.filter (·.1 ≠ callback.1) = callbacks := by
      have htaken := h.ownTasks
      rw [hcallbacks, List.map_cons, List.nodup_cons] at htaken
      rw [hcallbacks, List.filter_cons_of_neg (by simp), List.filter_eq_self.mpr]
      intro other hother
      have hne : other.1 ≠ callback.1 := fun heq =>
        htaken.1 (List.mem_map.mpr ⟨other, hother, heq⟩)
      simpa using hne
    have hnext : server.handleUploadFinished callback.1 =
        { server with callbackData := callbacks }.reply callback.2 (uploadReply result.2) := by
      unfold handleUploadFinished
      rw [hfind, hresult]
      dsimp only
      rw [hrest]
    have hafter := h.uploadFinished callback.1
    rw [hnext] at hafter
    obtain ⟨answered, hrun, hanswered⟩ := ih hafter rfl hidle
    refine ⟨answered, ?_, hanswered⟩
    rw [List.map_cons, run_cons, step, Option.bind_some, Server.handle, hnext]
    exact hrun

theorem Accounted.answeredWhenIdle (h : Accounted [] server) : server.AnsweredWhenIdle parts := by
  intro hunchecked hidle
  obtain ⟨answered, hrun, hafter, hrecorder, hsame, hnumber, hdone⟩ :=
    run_uploadFinished h rfl hidle
  refine ⟨answered, hrun, hrecorder, ?_⟩
  have hplaced := hafter.placed
  rw [hsame, hunchecked, hdone, hnumber] at hplaced
  simpa using hplaced

theorem accounted_new (parts : ServerParts κ ε) (permissionsProvider : EmerPermissionsProvider)
    (persistentCache : κ) (maxBytesBuffered : Nat) (tally : EmerAggregateTally)
    (date now : GDateTime) :
    Accounted [] (.new (.new parts.toRecorderParts permissionsProvider persistentCache
      maxBytesBuffered tally date now) : Server κ ε) :=
  ⟨⟨EmerDaemon.settled_new _ _ _ _ _, EmerDaemon.conserved_new _ _ _ _ _⟩, List.Perm.refl _,
    List.nodup_nil, fun callback hcallback => by cases hcallback⟩

/-- In every run each call is answered once at most, and is not forgotten: it waits for its check
or for its own upload, and an idle daemon has an answer for every call. -/
theorem calls_answered_once (parts : ServerParts κ ε)
    (permissionsProvider : EmerPermissionsProvider) (persistentCache : κ)
    (maxBytesBuffered : Nat) (tally : EmerAggregateTally) (date now : GDateTime)
    (events : List (ServerEvent ε)) :
    Throughout (step parts)
      (fun state => ∀ server ∈ state, server.CallsAnswered ∧ server.AnsweredWhenIdle parts)
      (some (.new (.new parts.toRecorderParts permissionsProvider persistentCache maxBytesBuffered
        tally date now))) events := by
  have hrun : Throughout (step parts) (fun state => ∀ server ∈ state, Accounted [] server)
      (some (.new (.new parts.toRecorderParts permissionsProvider persistentCache maxBytesBuffered
        tally date now))) events := by
    apply throughout_of_invariant
    · intro state event hstate next hnext
      obtain ⟨server, hserver, hhandle⟩ := Option.bind_eq_some_iff.mp hnext
      exact (hstate server hserver).handle hhandle
    · intro server hserver
      cases hserver
      exact accounted_new _ _ _ _ _ _ _
  exact hrun.mono fun state hstate server hserver =>
    ⟨(hstate server hserver).callsAnswered, (hstate server hserver).answeredWhenIdle⟩

/-! ## 5. Permissions are in authorized hands -/

/-- `SetEnabled` is called with authorization, or the config file is edited. -/
def SetsPermissions (server : Server κ ε) : ServerEvent ε → Prop
  | .authorizeMethod invocation polkit =>
    (server.unchecked.find? (·.1 = invocation)).any (·.2.isSetEnabled) = true ∧
      polkit "com.endlessm.Metrics.SetEnabled" = .result true
  | .callback (.daemon (.configFileEdited _)) _ => True
  | _ => False

instance (server : Server κ ε) : DecidablePred server.SetsPermissions
  | .authorizeMethod .. => inferInstanceAs (Decidable (_ ∧ _))
  | .callback (.daemon (.configFileEdited _)) _ => isTrue trivial
  | .methodCall _ | .stopTimer .. | .uploadFinished _ => isFalse id
  | .callback (.timer _) _ => isFalse id
  | .callback (.daemon .uploadTimer) _ | .callback (.daemon (.canReach ..)) _
  | .callback (.daemon (.httpResponse ..)) _ | .callback (.daemon (.backoffTimer ..)) _
  | .callback (.daemon (.writeConfigFileIdle _)) _ => isFalse id

/-- An event that leaves the permissions alone, wherever it comes from. -/
def SparesPermissions : RecorderEvent ε → Prop
  | .daemon event => EmerDaemon.LeavesPermissions event
  | .timer _ => True

section Guarded

variable {daemonEnabled uploadingEnabled : Bool}

theorem guarded_carryOut
    (h : server.recorder.daemon.Guarded daemonEnabled uploadingEnabled)
    (hspares : ∀ event ∈ events, SparesPermissions event)
    (hcarry : server.carryOut parts events = some next) :
    next.recorder.daemon.Guarded daemonEnabled uploadingEnabled := by
  apply (carryOut_keeps (I := fun recorder =>
    recorder.daemon.Guarded daemonEnabled uploadingEnabled) _ h hcarry).1
  intro recorder event hmem hrecorder after hhandle
  apply handle_daemon_keeps (I := fun daemon => daemon.Guarded daemonEnabled uploadingEnabled)
    (fun daemon event hdaemon => hdaemon.recordEvent event) _ hrecorder hhandle
  rintro daemonEvent rfl daemon hok
  have hkept : (EmerDaemon.ofOutcome (recorder.daemon.handle parts.toDaemonParts
      daemonEvent)).Guarded daemonEnabled uploadingEnabled := hrecorder.handle (hspares _ hmem)
  rw [hok] at hkept
  exact hkept

/-- A method that is not `SetEnabled`. -/
theorem guarded_dispatch (h : server.recorder.daemon.Guarded daemonEnabled uploadingEnabled)
    {call : MethodCall} (hcall : call.isSetEnabled = false)
    (hdispatch : server.dispatch parts invocation call = some next) :
    next.recorder.daemon.Guarded daemonEnabled uploadingEnabled := by
  cases call with
  | recordSingularEvent call =>
    obtain ⟨after, hcarry, rfl⟩ := Option.map_eq_some_iff.mp hdispatch
    apply guarded_carryOut h _ hcarry
    intro event hmem
    obtain ⟨recorded, -, rfl⟩ := List.mem_map.mp hmem
    exact trivial
  | recordAggregateEvent =>
    cases hdispatch
    exact h
  | recordEventSequence =>
    cases hdispatch
    exact h
  | setEnabled enabled => cases hcall
  | startAggregateTimer call =>
    rw [dispatch, onStartAggregateTimer] at hdispatch
    split at hdispatch
    · cases hdispatch
      exact h
    · obtain ⟨after, hcarry, rfl⟩ := Option.map_eq_some_iff.mp hdispatch
      apply guarded_carryOut h _ hcarry
      intro event hmem
      rw [List.mem_singleton.mp hmem]
      exact trivial
  | uploadEvents =>
    apply guarded_carryOut _ _ hdispatch
    · exact h
    · intro event hmem
      rw [List.mem_singleton.mp hmem]
      exact trivial

/-- PolicyKit is asked before `SetEnabled` is dispatched. -/
theorem authorized_of_check {call : MethodCall} (hcall : call.isSetEnabled = true)
    {polkit : String → PolkitAnswer} (hcheck : onAuthorizeMethodCheck call polkit = .ok ()) :
    polkit "com.endlessm.Metrics.SetEnabled" = .result true := by
  cases call with
  | setEnabled enabled =>
    -- it is in the table, so no answer of PolicyKit but this one lets it through
    have hlookup : lookupAuthorizedMethod "SetEnabled" =
        some ⟨"SetEnabled", "com.endlessm.Metrics.SetEnabled",
          "Disabling metrics is only allowed from system settings"⟩ := by decide
    rw [onAuthorizeMethodCheck, MethodCall.methodName, hlookup] at hcheck
    dsimp only at hcheck
    split at hcheck
    · cases hcheck
    · cases hcheck
    · cases hcheck
    · assumption
  | _ => cases hcall

/-- **Step lemma.** -/
theorem guarded_handle (h : server.recorder.daemon.Guarded daemonEnabled uploadingEnabled)
    {event : ServerEvent ε} (hevent : ¬ server.SetsPermissions event)
    (hhandle : server.handle parts event = some next) :
    next.recorder.daemon.Guarded daemonEnabled uploadingEnabled := by
  cases event with
  | methodCall call =>
    cases hhandle
    exact h
  | authorizeMethod invocation polkit =>
    rw [Server.handle] at hhandle
    split at hhandle
    · cases hhandle
      exact h
    · rename_i found call hfind
      dsimp only at hhandle
      split at hhandle
      · cases hhandle
        exact h
      -- the call is allowed, so it is not `SetEnabled`
      · rename_i hcheck
        have hcall : call.isSetEnabled = false := by
          rw [Bool.eq_false_iff]
          intro hset
          apply hevent
          refine ⟨?_, authorized_of_check hset hcheck⟩
          rw [hfind]
          exact hset
        apply guarded_dispatch _ hcall hhandle
        exact h
  | stopTimer timerId now nowMonotonicUs =>
    rw [Server.handle] at hhandle
    split at hhandle
    · cases hhandle
      exact h
    · obtain ⟨after, hcarry, rfl⟩ := Option.map_eq_some_iff.mp hhandle
      apply guarded_carryOut _ _ hcarry
      · exact h
      · intro event hmem
        rw [List.mem_singleton.mp hmem]
        exact trivial
  | uploadFinished taskId =>
    cases hhandle
    unfold handleUploadFinished
    split
    · exact h
    · exact h
  | callback event hcallback =>
    apply guarded_carryOut h _ hhandle
    intro other hmem
    rw [List.mem_singleton.mp hmem]
    cases event with
    | timer event => exact trivial
    | daemon event =>
      cases event with
      | recordEvent event => exact trivial
      | uploadEvents => exact trivial
      -- these are no callbacks: they come from `SetEnabled` alone
      | setDaemonEnabled enabled => exact hcallback
      | setUploadingEnabled enabled => exact hcallback
      | configFileEdited file => exact hevent trivial
      | _ => exact trivial

end Guarded

/-- In every run in which PolicyKit allows no `SetEnabled` and nobody edits the config file, the
permissions stay those of the file, and nobody's recording is switched off. -/
theorem permissions_need_authorization (parts : ServerParts κ ε) (contents : KeyFile)
    (ostreeUrl : Option Text) (persistentCache : κ) (maxBytesBuffered : Nat)
    (tally : EmerAggregateTally) (date now : GDateTime) (events : List (ServerEvent ε)) :
    let start : Option (Server κ ε) :=
      some (.new (.new parts.toRecorderParts (emerPermissionsProviderNew (.parsed contents)
        ostreeUrl) persistentCache maxBytesBuffered tally date now))
    EachStep (step parts) (fun state event => ∀ server ∈ state, ¬ server.SetsPermissions event)
        start events →
      Throughout (step parts)
        (fun state => ∀ server ∈ state, server.recorder.daemon.Guarded (daemonEnabledIn contents)
          (uploadingEnabledIn contents)) start events := by
  intro start hevents
  refine throughout_of_step ?_ ?_ hevents
  · intro state event hstate hspares next hnext
    obtain ⟨server, hserver, hhandle⟩ := Option.bind_eq_some_iff.mp hnext
    exact guarded_handle (hstate server hserver) (hspares server hserver) hhandle
  · intro server hserver
    rw [← Option.some.inj hserver]
    exact EmerDaemon.guarded_new _ _ _ _ _ _

end Server

/-- The events of the sample daemon are numbers; a recorded one is the length of its event ID. -/
def sampleServerParts : ServerParts (List Nat) Nat where
  toRecorderParts := sampleRecorderParts
  osVersion := "4.0".toList
  gVariantNew := fun event => event.eventId.length

/-- An event is recorded and uploaded while a client tries to opt out. -/
def refusedOptOut : List (ServerEvent Nat) :=
  [.methodCall (.recordSingularEvent
      ⟨⟨gVariantTypeBytestring, List.replicate 16 7⟩, 5, true, ⟨gVariantTypeVariant, [1]⟩, .ok 3⟩),
    .methodCall (.setEnabled false), .authorizeMethod 0 fun _ => .result false,
    .methodCall .uploadEvents, .authorizeMethod 2 fun _ => .result false,
    .authorizeMethod 1 fun _ => .result false, .callback (.daemon (.canReach true .none)) trivial,
    .callback (.daemon (.httpResponse 0 .successful)) trivial, .uploadFinished 0]

theorem permissions_need_authorization_refusedOptOut :
    Throughout (Server.step sampleServerParts)
      (fun state => ∀ server ∈ state, server.recorder.daemon.Guarded
        (daemonEnabledIn sampleConfigFile) (uploadingEnabledIn sampleConfigFile))
      (some (.new (.new sampleServerParts.toRecorderParts
        (emerPermissionsProviderNew (.parsed sampleConfigFile) none) [2] 100 ⟨[]⟩ ⟨2021, 9, 22⟩
        ⟨2021, 9, 22⟩)))
      refusedOptOut :=
  Server.permissions_need_authorization sampleServerParts sampleConfigFile none [2] 100 ⟨[]⟩
    ⟨2021, 9, 22⟩ ⟨2021, 9, 22⟩ refusedOptOut (by decide +kernel)

example : (run (Server.step sampleServerParts)
    (some (.new (.new sampleServerParts.toRecorderParts
      (emerPermissionsProviderNew (.parsed sampleConfigFile) none) [2] 100 ⟨[]⟩ ⟨2021, 9, 22⟩
      ⟨2021, 9, 22⟩)))
    refusedOptOut).map (·.replies) =
      some [(0, .completed),
        (1, .authFailed "Disabling metrics is only allowed from system settings"),
        (2, .completed)] := by
  decide +kernel

end EventRecorder
