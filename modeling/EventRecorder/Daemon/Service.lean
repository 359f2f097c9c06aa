import EventRecorder.Daemon.FullUpload
import EventRecorder.Daemon.Server
import EventRecorder.Theory.Simulation

/-!
# The service and its parts

A run of the service is a run of its upload machine too, so what holds of that machine holds of the
service.  A client that is told of a successful upload can so be told what that means: its call has
reached the upload machine on the way, and the machine has kept its promise.
-/

namespace EventRecorder

open Theory

/-! ## 1. Runs of the upload machine -/

namespace EmerDaemon

variable {κ ε : Type*} {parts : DaemonParts κ ε} {self next : EmerDaemon κ ε}

/-- The trace only grows. -/
theorem trace_isPrefix_run {events : List (DaemonEvent ε)}
    (hrun : run (step parts) (.ok self) events = .ok next) : self.trace <+: next.trace := by
  induction events generalizing self with
  | nil =>
    cases hrun
    exact List.prefix_rfl
  | cons event events ih =>
    rw [run_cons] at hrun
    obtain ⟨actions, heffects⟩ := @effects_handle _ _ parts self event
    cases hhandle : step parts (.ok self) event with
    | error abort =>
      rw [hhandle, run_error] at hrun
      cases hrun
    | ok after =>
      rw [hhandle] at hrun
      have hok : self.handle parts event = .ok after := hhandle
      rw [hok] at heffects
      exact List.IsPrefix.trans ⟨actions, heffects.trace.symm⟩ (ih hrun)

/-- Recording one event after the other is a run. -/
theorem run_recordEvents (events : List ε) (self : EmerDaemon κ ε) :
    run (step parts) (.ok self) (events.map .recordEvent) =
      .ok (events.foldl (fun daemon event => daemon.recordEvent parts event) self) := by
  induction events generalizing self with
  | nil => rfl
  | cons event events ih => exact ih (self.recordEvent parts event)

/-- No such run asks for an upload. -/
theorem eachStep_recordEvents (events : List ε) (outcome : Outcome κ ε) :
    EachStep (step parts) (Meets (RequestKeepsFront parts)) outcome
      (events.map .recordEvent) := by
  intro pre event hpre
  obtain ⟨recorded, -, rfl⟩ := List.mem_map.mp (hpre.subset (by simp : event ∈ pre ++ [event]))
  cases run (step parts) outcome pre with
  | ok self => exact trivial
  | error abort => exact trivial

end EmerDaemon

/-! ## 2. The upload machine of the recorder -/

namespace Recorder

variable {κ ε : Type*} (parts : RecorderParts κ ε) (recorder : Recorder κ ε)

/-- The rows that are taken out of the tally to be recorded. -/
def takenOut : TimerEvent → List TallyIterArgs
  | .permissionsChanged _ => []
  | event =>
    ((handleTimerEvent (tallyOps parts) parts.uuidGenerateSha1 recorder.registry event).map
      (·.aggregateTally.2)).getD []

/-- What an event is for the upload machine. -/
def daemonEvents : RecorderEvent ε → List (DaemonEvent ε)
  | .daemon event => [event]
  | .timer event =>
    ((recorder.takenOut parts event).map parts.aggregate).map .recordEvent

/-- A request for an upload keeps what an upload under way has sent. -/
def KeepsFront : RecorderEvent ε → Prop
  | .daemon event => recorder.daemon.RequestKeepsFront parts.toDaemonParts event
  | .timer _ => True

instance : DecidablePred (recorder.KeepsFront parts)
  | .daemon event =>
    inferInstanceAs (Decidable (recorder.daemon.RequestKeepsFront parts.toDaemonParts event))
  | .timer _ => isTrue trivial

variable {parts} {recorder} {next : Recorder κ ε}

/-- A timer's event is handled by the registry, and the rows taken out are recorded. -/
theorem handle_timer {event : TimerEvent}
    (hnext : recorder.handle parts (.timer event) = some next) :
    (∃ enabled, event = .permissionsChanged enabled) ∧ next = recorder ∨
      (∀ enabled, event ≠ .permissionsChanged enabled) ∧
        ∃ registry, handleTimerEvent (tallyOps parts) parts.uuidGenerateSha1 recorder.registry
            event = some registry ∧ recorder.takenOut parts event = registry.aggregateTally.2 ∧
          next = recordAggregates parts recorder.daemon registry := by
  by_cases hevent : ∃ enabled, event = .permissionsChanged enabled
  · obtain ⟨enabled, rfl⟩ := hevent
    cases hnext
    exact .inl ⟨⟨enabled, rfl⟩, rfl⟩
  · have hmap : (handleTimerEvent (tallyOps parts) parts.uuidGenerateSha1 recorder.registry
        event).map (recordAggregates parts recorder.daemon) = some next := by
      cases event with
      | permissionsChanged enabled => exact absurd ⟨enabled, rfl⟩ hevent
      | _ => exact hnext
    have htaken : recorder.takenOut parts event =
        ((handleTimerEvent (tallyOps parts) parts.uuidGenerateSha1 recorder.registry event).map
          (·.aggregateTally.2)).getD [] := by
      cases event with
      | permissionsChanged enabled => exact absurd ⟨enabled, rfl⟩ hevent
      | _ => rfl
    obtain ⟨registry, hregistry, rfl⟩ := Option.map_eq_some_iff.mp hmap
    refine .inr ⟨fun enabled heq => hevent ⟨enabled, heq⟩, registry, hregistry, ?_, rfl⟩
    rw [htaken, hregistry]
    rfl

/-- The upload machine takes its events. -/
theorem run_daemonEvents {event : RecorderEvent ε}
    (hnext : recorder.handle parts event = some next) :
    run (EmerDaemon.step parts.toDaemonParts) (.ok recorder.daemon)
      (recorder.daemonEvents parts event) = .ok next.daemon := by
  cases event with
  | daemon event =>
    rw [Recorder.handle] at hnext
    split at hnext
    · cases hnext
    · rename_i daemon hok
      cases hnext
      exact hok
  | timer event =>
    rcases handle_timer hnext with ⟨⟨enabled, rfl⟩, rfl⟩ | ⟨-, registry, -, htaken, rfl⟩
    · rfl
    · rw [daemonEvents, htaken, EmerDaemon.run_recordEvents, List.foldl_map]
      rfl

theorem eachStep_daemonEvents {event : RecorderEvent ε} (h : recorder.KeepsFront parts event) :
    EachStep (EmerDaemon.step parts.toDaemonParts)
      (EmerDaemon.Meets (EmerDaemon.RequestKeepsFront parts.toDaemonParts)) (.ok recorder.daemon)
      (recorder.daemonEvents parts event) := by
  cases event with
  | daemon event => exact (eachStep_cons _ _ _ _ _).mpr ⟨h, eachStep_nil _ _ _⟩
  | timer event => exact EmerDaemon.eachStep_recordEvents _ _

end Recorder

/-! ## 3. The recorder of the server -/

namespace Server

variable {κ ε : Type*} (parts : ServerParts κ ε) (server : Server κ ε)

/-- What the handler of a call has the recorder do. -/
def callEvents : MethodCall → List (RecorderEvent ε)
  | .recordSingularEvent call =>
    (singularEvent parts call).toList.map fun event => .daemon (.recordEvent event)
  | .recordAggregateEvent => []
  | .recordEventSequence => []
  | .setEnabled enabled =>
    [.daemon (.setDaemonEnabled enabled), .daemon (.setUploadingEnabled enabled)]
  | .startAggregateTimer call =>
    match server.recorder.registry.startAggregateTimer parts.uuidGenerateSha1 call with
    | .error _ => []
    | .ok _ => [.timer (.startAggregateTimer call)]
  | .uploadEvents => [.daemon .uploadEvents]

/-- What an event is for the recorder. -/
def recorderEvents : ServerEvent ε → List (RecorderEvent ε)
  | .methodCall _ => []
  | .authorizeMethod invocation polkit =>
    match server.unchecked.find? (·.1 = invocation) with
    | none => []
    | some (_, call) =>
      match onAuthorizeMethodCheck call polkit with
      | .error _ => []
      | .ok () => server.callEvents parts call
  | .stopTimer timerId now nowMonotonicUs =>
    match server.recorder.registry.findTimer timerId with
    | none => []
    | some timerImpl => [.timer (.stopTimer timerImpl.timerId now nowMonotonicUs)]
  | .uploadFinished _ => []
  | .callback event _ => [event]

/-- What an event is for the upload machine. -/
def daemonEvents (event : ServerEvent ε) : List (DaemonEvent ε) :=
  along (Recorder.step parts.toRecorderParts)
    (whileOn (Recorder.daemonEvents parts.toRecorderParts)) (some server.recorder)
    (server.recorderEvents parts event)

/-- The requests for an upload among the events of the recorder keep what an upload under way has
sent. -/
def KeepsFront (event : ServerEvent ε) : Prop :=
  EachStep (Recorder.step parts.toRecorderParts)
    (fun state event => ∀ recorder ∈ state, recorder.KeepsFront parts.toRecorderParts event)
    (some server.recorder) (server.recorderEvents parts event)

instance : DecidablePred (server.KeepsFront parts) := fun event =>
  inferInstanceAs (Decidable (EachStep (Recorder.step parts.toRecorderParts)
    (fun state event => ∀ recorder ∈ state, recorder.KeepsFront parts.toRecorderParts event)
    (some server.recorder) (server.recorderEvents parts event)))

variable {parts} {server} {next : Server κ ε}

/-- The recorder does what it is given, and nothing else of the server takes part in it. -/
theorem run_of_carryOut {events : List (RecorderEvent ε)}
    (hcarry : server.carryOut parts events = some next) :
    run (Recorder.step parts.toRecorderParts) (some server.recorder) events =
      some next.recorder := by
  obtain ⟨recorder, hrun, rfl⟩ := Option.map_eq_some_iff.mp hcarry
  exact hrun

theorem run_callEvents {invocation : Nat} {call : MethodCall}
    (hdispatch : server.dispatch parts invocation call = some next) :
    run (Recorder.step parts.toRecorderParts) (some server.recorder)
      (server.callEvents parts call) = some next.recorder := by
  cases call with
  | recordSingularEvent call =>
    obtain ⟨after, hcarry, rfl⟩ := Option.map_eq_some_iff.mp hdispatch
    have hrun := run_of_carryOut hcarry
    exact hrun
  | recordAggregateEvent =>
    cases hdispatch
    rfl
  | recordEventSequence =>
    cases hdispatch
    rfl
  -- both permissions are set before the call is answered
  | setEnabled enabled =>
    rw [dispatch, onSetEnabled] at hdispatch
    obtain ⟨after, hcarry, rfl⟩ := Option.map_eq_some_iff.mp hdispatch
    have hrun := run_of_carryOut hcarry
    exact hrun
  | startAggregateTimer call =>
    rw [dispatch, onStartAggregateTimer] at hdispatch
    rw [callEvents]
    cases hstart : server.recorder.registry.startAggregateTimer parts.uuidGenerateSha1 call with
    | error error =>
      rw [hstart] at hdispatch
      cases hdispatch
      rfl
    | ok started =>
      rw [hstart] at hdispatch
      obtain ⟨after, hcarry, rfl⟩ := Option.map_eq_some_iff.mp hdispatch
      have hrun := run_of_carryOut hcarry
      exact hrun
  | uploadEvents =>
    have hrun := run_of_carryOut hdispatch
    exact hrun

/-- The recorder takes its events. -/
theorem run_recorderEvents {event : ServerEvent ε}
    (hnext : server.handle parts event = some next) :
    run (Recorder.step parts.toRecorderParts) (some server.recorder)
      (server.recorderEvents parts event) = some next.recorder := by
  cases event with
  | methodCall call =>
    cases hnext
    rfl
  | authorizeMethod invocation polkit =>
    rw [Server.handle] at hnext
    rw [recorderEvents]
    cases hfind : server.unchecked.find? (·.1 = invocation) with
    | none =>
      rw [hfind] at hnext
      cases hnext
      rfl
    | some found =>
      obtain ⟨found, call⟩ := found
      rw [hfind] at hnext
      dsimp only at hnext ⊢
      cases hcheck : onAuthorizeMethodCheck call polkit with
      | error refusal =>
        rw [hcheck] at hnext
        cases hnext
        rfl
      -- what is dispatched is left out of the calls that wait, which no handler looks at
      | ok checked =>
        rw [hcheck] at hnext
        have hrun := run_callEvents hnext
        exact hrun
  | stopTimer timerId now nowMonotonicUs =>
    rw [Server.handle] at hnext
    rw [recorderEvents]
    cases hfind : server.recorder.registry.findTimer timerId with
    | none =>
      rw [hfind] at hnext
      cases hnext
      rfl
    | some timerImpl =>
      rw [hfind] at hnext
      obtain ⟨after, hcarry, rfl⟩ := Option.map_eq_some_iff.mp hnext
      have hrun := run_of_carryOut hcarry
      exact hrun
  | uploadFinished taskId =>
    cases hnext
    unfold handleUploadFinished
    split
    · rfl
    · rfl
  | callback event hcallback =>
    have hrun := run_of_carryOut hnext
    exact hrun

/-- The upload machine takes its events. -/
theorem run_daemonEvents {event : ServerEvent ε} (hnext : server.handle parts event = some next) :
    run (EmerDaemon.step parts.toDaemonParts) (.ok server.recorder.daemon)
      (server.daemonEvents parts event) = .ok next.recorder.daemon :=
  @run_whileOn _ _ _ _ (Recorder.handle parts.toRecorderParts)
    (EmerDaemon.step parts.toDaemonParts) (Recorder.daemonEvents parts.toRecorderParts)
    (fun recorder => .ok recorder.daemon) (fun _ _ _ hnext => Recorder.run_daemonEvents hnext)
    _ _ _ (run_recorderEvents hnext)

theorem eachStep_daemonEvents {event : ServerEvent ε} (h : server.KeepsFront parts event) :
    EachStep (EmerDaemon.step parts.toDaemonParts)
      (EmerDaemon.Meets (EmerDaemon.RequestKeepsFront parts.toDaemonParts))
      (.ok server.recorder.daemon) (server.daemonEvents parts event) :=
  @eachStep_whileOn _ _ _ _ (Recorder.handle parts.toRecorderParts)
    (EmerDaemon.step parts.toDaemonParts) (Recorder.daemonEvents parts.toRecorderParts)
    (fun recorder => .ok recorder.daemon) (fun _ _ _ hnext => Recorder.run_daemonEvents hnext)
    _ _ (fun _ _ hkeeps => Recorder.eachStep_daemonEvents hkeeps) _ _ h

variable (parts) (server) in
/-- What a run of the server is for the upload machine. -/
def daemonRun (events : List (ServerEvent ε)) : List (DaemonEvent ε) :=
  along (step parts) (whileOn (daemonEvents parts)) (some server) events

variable (parts) in
/-- In a run of the server. -/
def KeptFront (state : Option (Server κ ε)) (event : ServerEvent ε) : Prop :=
  ∀ server ∈ state, server.KeepsFront parts event

instance (state : Option (Server κ ε)) (event : ServerEvent ε) :
    Decidable (KeptFront parts state event) :=
  inferInstanceAs (Decidable (∀ server ∈ state, server.KeepsFront parts event))

/-- **Projection.**  The upload machine runs along with the server. -/
theorem run_daemonRun {events : List (ServerEvent ε)}
    (hrun : run (step parts) (some server) events = some next) :
    run (EmerDaemon.step parts.toDaemonParts) (.ok server.recorder.daemon)
      (server.daemonRun parts events) = .ok next.recorder.daemon :=
  @run_whileOn _ _ _ _ (Server.handle parts) (EmerDaemon.step parts.toDaemonParts)
    (daemonEvents parts) (fun server => .ok server.recorder.daemon)
    (fun _ _ _ hnext => run_daemonEvents hnext) _ _ _ hrun

theorem eachStep_daemonRun {events : List (ServerEvent ε)}
    (hkeeps : EachStep (step parts) (KeptFront parts) (some server) events) :
    EachStep (EmerDaemon.step parts.toDaemonParts)
      (EmerDaemon.Meets (EmerDaemon.RequestKeepsFront parts.toDaemonParts))
      (.ok server.recorder.daemon) (server.daemonRun parts events) :=
  @eachStep_whileOn _ _ _ _ (Server.handle parts) (EmerDaemon.step parts.toDaemonParts)
    (daemonEvents parts) (fun server => .ok server.recorder.daemon)
    (fun _ _ _ hnext => run_daemonEvents hnext) _ _
    (fun _ _ hkeeps => eachStep_daemonEvents hkeeps) _ _ hkeeps

/-- The run goes on from the state that is reached. -/
theorem daemonRun_append {events : List (ServerEvent ε)}
    (hrun : run (step parts) (some server) events = some next) (more : List (ServerEvent ε)) :
    server.daemonRun parts (events ++ more) =
      server.daemonRun parts events ++ next.daemonRun parts more := by
  rw [daemonRun, along_append, hrun]
  rfl

/-! ## 4. Calls on their way -/

/-- A handler takes nothing away. -/
structure KeepsBooks (server next : Server κ ε) : Prop where
  unchecked : next.unchecked = server.unchecked
  callbackData : server.callbackData ⊆ next.callbackData
  replies : server.replies ⊆ next.replies

theorem keepsBooks_reply (server : Server κ ε) (invocation : Nat) (answer : Reply) :
    KeepsBooks server (server.reply invocation answer) :=
  ⟨rfl, List.Subset.refl _, List.subset_append_left _ _⟩

theorem keepsBooks_carryOut {events : List (RecorderEvent ε)}
    (hcarry : server.carryOut parts events = some next) : KeepsBooks server next := by
  obtain ⟨recorder, -, rfl⟩ := Option.map_eq_some_iff.mp hcarry
  exact ⟨rfl, List.Subset.refl _, List.Subset.refl _⟩

theorem KeepsBooks.trans {later : Server κ ε} (h : KeepsBooks server next)
    (h' : KeepsBooks next later) : KeepsBooks server later :=
  ⟨h'.unchecked.trans h.unchecked, List.Subset.trans h.callbackData h'.callbackData,
    List.Subset.trans h.replies h'.replies⟩

theorem keepsBooks_carriedOut {events : List (RecorderEvent ε)} {invocation : Nat}
    {answer : Reply} (hcarry : (server.carryOut parts events).map (·.reply invocation answer) =
      some next) : KeepsBooks server next := by
  obtain ⟨after, hafter, rfl⟩ := Option.map_eq_some_iff.mp hcarry
  exact (keepsBooks_carryOut hafter).trans (keepsBooks_reply after invocation answer)

theorem keepsBooks_dispatch {invocation : Nat} {call : MethodCall}
    (hdispatch : server.dispatch parts invocation call = some next) :
    KeepsBooks server next := by
  cases call with
  | recordSingularEvent call => exact keepsBooks_carriedOut hdispatch
  | recordAggregateEvent =>
    cases hdispatch
    exact keepsBooks_reply server _ _
  | recordEventSequence =>
    cases hdispatch
    exact keepsBooks_reply server _ _
  | setEnabled enabled =>
    rw [dispatch, onSetEnabled] at hdispatch
    exact keepsBooks_carriedOut hdispatch
  | startAggregateTimer call =>
    rw [dispatch, onStartAggregateTimer] at hdispatch
    split at hdispatch
    · cases hdispatch
      exact keepsBooks_reply server _ _
    · exact keepsBooks_carriedOut hdispatch
  -- one more callback waits
  | uploadEvents =>
    obtain ⟨recorder, -, rfl⟩ := Option.map_eq_some_iff.mp hdispatch
    exact ⟨rfl, List.subset_append_left _ _, List.Subset.refl _⟩

theorem keepsBooks_timerStopped {timerImpl : EmerAggregateTimerImpl} {now : GDateTime}
    {nowMonotonicUs : Int}
    (hstopped : server.onTimerStoppedCb parts timerImpl now nowMonotonicUs = some next) :
    KeepsBooks server next := by
  have hbooks := keepsBooks_carriedOut hstopped
  exact ⟨hbooks.unchecked, hbooks.callbackData, hbooks.replies⟩

/-- A call waits until it is dispatched. -/
theorem unchecked_handle {invocation : Nat} {call : MethodCall}
    (hmem : (invocation, call) ∈ server.unchecked) {event : ServerEvent ε}
    (hevent : ∀ polkit, event ≠ .authorizeMethod invocation polkit)
    (hnext : server.handle parts event = some next) : (invocation, call) ∈ next.unchecked := by
  cases event with
  | methodCall other =>
    cases hnext
    exact List.mem_append_left _ hmem
  | authorizeMethod other polkit =>
    have hne : invocation ≠ other := by
      rintro rfl
      exact hevent polkit rfl
    have hchecked : (invocation, call) ∈ server.unchecked.filter (·.1 ≠ other) :=
      List.mem_filter.mpr ⟨hmem, by simpa using hne⟩
    rw [Server.handle] at hnext
    split at hnext
    · cases hnext
      exact hmem
    dsimp only at hnext
    split at hnext
    · cases hnext
      exact hchecked
    · rw [(keepsBooks_dispatch hnext).unchecked]
      exact hchecked
  | stopTimer timerId now nowMonotonicUs =>
    rw [Server.handle] at hnext
    split at hnext
    · cases hnext
      exact hmem
    · rw [(keepsBooks_timerStopped hnext).unchecked]
      exact hmem
  | uploadFinished taskId =>
    cases hnext
    unfold handleUploadFinished
    split
    · exact hmem
    · exact hmem
  | callback event hcallback =>
    rw [(keepsBooks_carryOut hnext).unchecked]
    exact hmem

/-- Only its own callback ends the wait of an upload. -/
theorem books_handle {event : ServerEvent ε} (hevent : ∀ taskId, event ≠ .uploadFinished taskId)
    (hnext : server.handle parts event = some next) :
    server.callbackData ⊆ next.callbackData ∧ server.replies ⊆ next.replies := by
  cases event with
  | methodCall other =>
    cases hnext
    exact ⟨List.Subset.refl _, List.Subset.refl _⟩
  | authorizeMethod other polkit =>
    rw [Server.handle] at hnext
    split at hnext
    · cases hnext
      exact ⟨List.Subset.refl _, List.Subset.refl _⟩
    dsimp only at hnext
    split at hnext
    · cases hnext
      exact ⟨List.Subset.refl _, List.subset_append_left _ _⟩
    · have hbooks := keepsBooks_dispatch hnext
      exact ⟨hbooks.callbackData, hbooks.replies⟩
  | stopTimer timerId now nowMonotonicUs =>
    rw [Server.handle] at hnext
    split at hnext
    · cases hnext
      exact ⟨List.Subset.refl _, List.Subset.refl _⟩
    · have hbooks := keepsBooks_timerStopped hnext
      exact ⟨hbooks.callbackData, hbooks.replies⟩
  | uploadFinished taskId => exact absurd rfl (hevent taskId)
  | callback event hcallback =>
    have hbooks := keepsBooks_carryOut hnext
    exact ⟨hbooks.callbackData, hbooks.replies⟩

namespace Accounted

/-- What has been answered waits nowhere. -/
theorem not_waiting (h : Accounted [] server) {invocation : Nat} {answer : Reply}
    (hreply : (invocation, answer) ∈ server.replies) :
    invocation ∉ server.unchecked.map Prod.fst ∧ invocation ∉ server.callbackData.map Prod.snd := by
  have hnodup : (server.replies.map Prod.fst ++ (server.unchecked.map Prod.fst ++
      server.callbackData.map Prod.snd)).Nodup := by
    rw [← List.append_assoc]
    exact h.placed.nodup_iff.mpr List.nodup_range
  have hanswered : invocation ∈ server.replies.map Prod.fst :=
    List.mem_map_of_mem (f := Prod.fst) hreply
  have hdisjoint := (List.nodup_append'.mp hnodup).2.2 hanswered
  exact not_or.mp fun hwaits => hdisjoint (List.mem_append.mpr hwaits)

/-- A call is answered once. -/
theorem reply_unique (h : Accounted [] server) {invocation : Nat} {answer other : Reply}
    (hreply : (invocation, answer) ∈ server.replies)
    (hother : (invocation, other) ∈ server.replies) : answer = other := by
  have hnodup : (server.replies.map Prod.fst).Nodup :=
    (h.placed.nodup_iff.mpr List.nodup_range).sublist
      ((List.sublist_append_left _ _).trans (List.sublist_append_left _ _))
  have hsame := List.inj_on_of_nodup_map hnodup hreply hother rfl
  exact congrArg Prod.snd hsame

/-- A call that waits is found by its invocation. -/
theorem find_unchecked (h : Accounted [] server) {invocation : Nat} {call : MethodCall}
    (hmem : (invocation, call) ∈ server.unchecked) :
    server.unchecked.find? (·.1 = invocation) = some (invocation, call) := by
  have hnodup : (server.unchecked.map Prod.fst).Nodup :=
    (h.placed.nodup_iff.mpr List.nodup_range).sublist
      ((List.sublist_append_right _ _).trans (List.sublist_append_left _ _))
  cases hfind : server.unchecked.find? (·.1 = invocation) with
  | none =>
    have hnone := List.find?_eq_none.mp hfind (invocation, call) hmem
    simp at hnone
  | some found =>
    have hfound : found.1 = invocation := by simpa using List.find?_some hfind
    have hsame := List.inj_on_of_nodup_map hnodup (List.mem_of_find?_eq_some hfind) hmem hfound
    rw [hsame]

theorem find_callbackData (h : Accounted [] server) {taskId invocation : Nat}
    (hmem : (taskId, invocation) ∈ server.callbackData) :
    server.callbackData.find? (·.1 = taskId) = some (taskId, invocation) := by
  cases hfind : server.callbackData.find? (·.1 = taskId) with
  | none =>
    have hnone := List.find?_eq_none.mp hfind (taskId, invocation) hmem
    simp at hnone
  | some found =>
    have hfound : found.1 = taskId := by simpa using List.find?_some hfind
    have hsame := List.inj_on_of_nodup_map h.ownTasks (List.mem_of_find?_eq_some hfind) hmem hfound
    rw [hsame]

/-- A call that has been answered was dispatched in between. -/
theorem dispatched_of_replied (h : Accounted [] server) {invocation : Nat} {call : MethodCall}
    (hmem : (invocation, call) ∈ server.unchecked) {events : List (ServerEvent ε)}
    (hrun : run (step parts) (some server) events = some next) {answer : Reply}
    (hreply : (invocation, answer) ∈ next.replies) :
    ∃ front polkit rest middle, events = front ++ .authorizeMethod invocation polkit :: rest ∧
      run (step parts) (some server) front = some middle ∧ Accounted [] middle ∧
      (invocation, call) ∈ middle.unchecked := by
  -- induction on the events, for as long as the call waits
  induction events generalizing server with
  | nil =>
    cases hrun
    exact absurd (List.mem_map_of_mem (f := Prod.fst) hmem) (h.not_waiting hreply).1
  | cons event events ih =>
    by_cases hevent : ∃ polkit, event = .authorizeMethod invocation polkit
    · obtain ⟨polkit, rfl⟩ := hevent
      exact ⟨[], polkit, events, server, rfl, rfl, h, hmem⟩
    -- any other event leaves the call where it is
    obtain ⟨after, hhandle, hrest⟩ := @run_bind_cons _ _ (Server.handle parts) _ _ _ _ hrun
    have hstep : step parts (some server) event = some after := hhandle
    have hwaits := unchecked_handle hmem (fun polkit heq => hevent ⟨polkit, heq⟩) hhandle
    obtain ⟨front, polkit, rest, middle, rfl, hfront, hmiddle⟩ :=
      ih (h.handle hhandle) hwaits hrest
    refine ⟨event :: front, polkit, rest, middle, rfl, ?_, hmiddle⟩
    rw [run_cons, hstep]
    exact hfront

end Accounted

/-! ## 5. What a successful reply tells the client -/

/-- An upload that is called for waits for its task, or is answered with what became of that. -/
def AwaitsUpload (taskId invocation : Nat) (server : Server κ ε) : Prop :=
  (taskId, invocation) ∈ server.callbackData ∨
    ∃ result, (taskId, result) ∈ server.recorder.daemon.results ∧
      (invocation, uploadReply result) ∈ server.replies

/-- Results are only added. -/
theorem results_handle {event : ServerEvent ε} (hnext : server.handle parts event = some next) :
    server.recorder.daemon.results ⊆ next.recorder.daemon.results := by
  obtain ⟨actions, htrace⟩ := EmerDaemon.trace_isPrefix_run (run_daemonEvents hnext)
  rw [EmerDaemon.results, EmerDaemon.results, ← htrace, List.filterMap_append]
  exact List.subset_append_left _ _

theorem uploadReply_eq_completed {result : UploadResult} (h : uploadReply result = .completed) :
    result = .uploaded := by
  cases result with
  | uploaded => rfl
  | _ => cases h

/-- **Step lemma.** -/
theorem AwaitsUpload.handle {taskId invocation : Nat} (h : server.AwaitsUpload taskId invocation)
    (haccounted : Accounted [] server) {event : ServerEvent ε}
    (hnext : server.handle parts event = some next) : next.AwaitsUpload taskId invocation := by
  by_cases hevent : ∃ finished, event = .uploadFinished finished
  · obtain ⟨finished, rfl⟩ := hevent
    cases hnext
    rcases h with hwaits | ⟨result, hresult, hreply⟩
    · unfold handleUploadFinished
      by_cases hfinished : finished = taskId
      -- it is the callback of this task
      · subst hfinished
        rw [haccounted.find_callbackData hwaits]
        cases hfind : server.recorder.daemon.results.find? (·.1 = finished) with
        | none => exact .inl hwaits
        | some found =>
          obtain ⟨returnedTask, result⟩ := found
          have hreturned : returnedTask = finished := by simpa using List.find?_some hfind
          subst hreturned
          exact .inr ⟨result, List.mem_of_find?_eq_some hfind,
            List.mem_append_right _ (List.mem_singleton_self _)⟩
      · split
        · refine .inl (List.mem_filter.mpr ⟨hwaits, ?_⟩)
          simpa using Ne.symm hfinished
        · exact .inl hwaits
    · unfold handleUploadFinished
      split
      · exact .inr ⟨result, hresult, List.mem_append_left _ hreply⟩
      · exact .inr ⟨result, hresult, hreply⟩
  · obtain ⟨hcallbacks, hreplies⟩ := books_handle (fun taskId heq => hevent ⟨taskId, heq⟩) hnext
    rcases h with hwaits | ⟨result, hresult, hreply⟩
    · exact .inl (hcallbacks hwaits)
    · exact .inr ⟨result, results_handle hnext hresult, hreplies hreply⟩

/-- **Run lemma.** -/
theorem AwaitsUpload.reached {taskId invocation : Nat}
    (h : server.AwaitsUpload taskId invocation) (haccounted : Accounted [] server)
    {events : List (ServerEvent ε)} (hrun : run (step parts) (some server) events = some next) :
    Accounted [] next ∧ next.AwaitsUpload taskId invocation := by
  refine @run_bind_keeps _ _ (Server.handle parts) _ _ _
    (fun server => Accounted [] server ∧ server.AwaitsUpload taskId invocation) ?_
    ⟨haccounted, h⟩ hrun
  intro server next event hserver hnext
  exact ⟨hserver.1.handle hnext, hserver.2.handle hserver.1 hnext⟩

/-- A call of `UploadEvents` needs no authorization, and its task is that of the daemon's next
upload. -/
theorem handle_uploadEvents (h : Accounted [] server) {invocation : Nat}
    (hmem : (invocation, .uploadEvents) ∈ server.unchecked) {polkit : String → PolkitAnswer}
    (hnext : server.handle parts (.authorizeMethod invocation polkit) = some next) :
    server.daemonEvents parts (.authorizeMethod invocation polkit) = [.uploadEvents] ∧
      next.AwaitsUpload server.recorder.daemon.nextTaskId invocation := by
  have hfind := h.find_unchecked hmem
  have hcheck : onAuthorizeMethodCheck .uploadEvents polkit = .ok () := rfl
  constructor
  · rw [daemonEvents, recorderEvents, hfind]
    dsimp only
    rw [hcheck]
    rfl
  · rw [Server.handle, hfind] at hnext
    dsimp only at hnext
    rw [hcheck] at hnext
    obtain ⟨recorder, -, rfl⟩ := Option.map_eq_some_iff.mp hnext
    exact .inl (List.mem_append_right _ (List.mem_singleton_self _))

theorem Accounted.reached (h : Accounted [] server) {events : List (ServerEvent ε)}
    (hrun : run (step parts) (some server) events = some next) : Accounted [] next :=
  @run_bind_keeps _ _ (Server.handle parts) _ _ _ (Accounted [])
    (fun _ _ _ hserver hnext => hserver.handle hnext) h hrun

/-- Where the task of a call that has succeeded comes from: the call was dispatched on the way, to
the upload machine's next upload, and that has returned a success. -/
theorem Accounted.uploaded_of_completed (h : Accounted [] server) {invocation : Nat}
    (hmem : (invocation, .uploadEvents) ∈ server.unchecked) {events : List (ServerEvent ε)}
    (hrun : run (step parts) (some server) events = some next)
    (hreply : (invocation, .completed) ∈ next.replies) :
    ∃ front event rest middle, events = front ++ event :: rest ∧
      run (step parts) (some server) front = some middle ∧
      middle.daemonEvents parts event = [.uploadEvents] ∧
      .returned middle.recorder.daemon.nextTaskId .uploaded ∈ next.recorder.daemon.trace := by
  obtain ⟨front, polkit, rest, middle, rfl, hfront, hmiddle, hwaits⟩ :=
    h.dispatched_of_replied hmem hrun hreply
  rw [run_append, hfront] at hrun
  obtain ⟨dispatched, hhandle, hrest⟩ := @run_bind_cons _ _ (Server.handle parts) _ _ _ _ hrun
  obtain ⟨hevents, hawaits⟩ := handle_uploadEvents hmiddle hwaits hhandle
  obtain ⟨haccounted, hanswered⟩ := hawaits.reached (hmiddle.handle hhandle) hrest
  refine ⟨front, _, rest, middle, rfl, hfront, hevents, ?_⟩
  rcases hanswered with hcallback | ⟨result, hresult, hother⟩
  -- an answered call waits for no callback
  · exact absurd (List.mem_map_of_mem (f := Prod.snd) hcallback)
      (haccounted.not_waiting hreply).2
  · have huploaded := uploadReply_eq_completed (haccounted.reply_unique hother hreply)
    subst huploaded
    obtain ⟨action, haction, hreturned⟩ := List.mem_filterMap.mp hresult
    cases action with
    | returned taskId result =>
      cases hreturned
      exact haction
    | _ => cases hreturned

/-- The daemon that the server starts with. -/
theorem daemon_new (parts : ServerParts κ ε) (permissionsProvider : EmerPermissionsProvider)
    (persistentCache : κ) (maxBytesBuffered : Nat) (tally : EmerAggregateTally)
    (date now : GDateTime) :
    (.new (.new parts.toRecorderParts permissionsProvider persistentCache maxBytesBuffered tally
      date now) : Server κ ε).recorder.daemon =
      EmerDaemon.new parts.toDaemonParts permissionsProvider persistentCache maxBytesBuffered
        ((Recorder.takePastAggregates parts.toRecorderParts tally now).2.map parts.aggregate) :=
  rfl

open EmerPersistentCache in
/-- **A successful reply means delivery.**  When a call of `UploadEvents` has been answered without
an error, whatever came between, the server has acknowledged all that was kept when the call came
in, in order, unless recording has been switched off since. -/
theorem upload_reply_delivers_all {glib : VariantLibrary} {order : ByteOrder}
    (hswap : glib.SwapKeepsSize) (parsesPingSocket parsesHttpRequestUrl : Text → Bool)
    {parts : ServerParts EmerPersistentCache (StorableVariant glib order)}
    (hparts : parts.toDaemonParts =
      EmerDaemon.storingParts glib order parsesPingSocket parsesHttpRequestUrl)
    {capacity maxBytesBuffered : Nat} (hcapacity : capacity < 2 ^ 63)
    (hlimit : maxBytesBuffered < 2 ^ 63) (permissionsProvider : EmerPermissionsProvider)
    {cache : EmerPersistentCache} {contents : List (StorableVariant glib order)}
    (hcontents : SyncedContents capacity cache contents)
    (hsmall : ∀ event ∈ contents, emerPersistentCacheCost event.variant ≤ maxRequestPayload)
    (tally : EmerAggregateTally) (date now : GDateTime)
    {events more : List (ServerEvent (StorableVariant glib order))}
    {before after : Server EmerPersistentCache (StorableVariant glib order)}
    (hkeeps : EachStep (step parts) (KeptFront parts)
      (some (.new (.new parts.toRecorderParts permissionsProvider cache maxBytesBuffered tally
        date now))) (events ++ .methodCall .uploadEvents :: more))
    (hbefore : run (step parts)
      (some (.new (.new parts.toRecorderParts permissionsProvider cache maxBytesBuffered tally
        date now))) events = some before)
    (hafter : run (step parts) (some before) (.methodCall .uploadEvents :: more) = some after)
    (hreply : (before.nextInvocation, .completed) ∈ after.replies) :
    EmerDaemon.OptedOutSince before.recorder.daemon after.recorder.daemon ∨
      (Ledger.ofTrace contents before.recorder.daemon.trace).kept <+:
        (acknowledgedIn after.recorder.daemon.trace).flatten := by
  have haccounted := (accounted_new parts permissionsProvider cache maxBytesBuffered tally
    date now).reached hbefore
  have hcalled := haccounted.called .uploadEvents
  obtain ⟨front, event, rest, middle, rfl, hfront, hevents, hreturned⟩ :=
    hcalled.uploaded_of_completed (List.mem_append_right _ (List.mem_singleton_self _)) hafter
      hreply
  have hmiddle : run (step parts) (some before) (.methodCall .uploadEvents :: front) =
    some middle := hfront
  have hreached : run (step parts)
      (some (.new (.new parts.toRecorderParts permissionsProvider cache maxBytesBuffered tally
        date now))) (events ++ .methodCall .uploadEvents :: front) = some middle := by
    rw [run_append, hbefore]
    exact hmiddle
  -- the run of the upload machine: up to the dispatch of the call, the call, and the rest
  have hrest : run (step parts) (some middle) (event :: rest) = some after := by
    have hall := hafter
    rw [← List.cons_append, run_append, hmiddle] at hall
    exact hall
  have hdispatched : middle.daemonRun parts (event :: rest) = .uploadEvents ::
      along (step parts) (whileOn (daemonEvents parts)) (step parts (some middle) event) rest := by
    rw [daemonRun, along_cons, whileOn, hevents]
    rfl
  have hlive := eachStep_daemonRun hkeeps
  rw [show events ++ .methodCall .uploadEvents :: (front ++ event :: rest) =
      (events ++ .methodCall .uploadEvents :: front) ++ event :: rest by simp,
    daemonRun_append hreached, hdispatched, daemon_new, hparts] at hlive
  have hmachine := run_daemonRun hreached
  have hdelivers := run_daemonRun hrest
  rw [hdispatched] at hdelivers
  rw [daemon_new, hparts] at hmachine
  rw [hparts] at hdelivers
  obtain ⟨earlier, hearlier⟩ := EmerDaemon.trace_isPrefix_run (run_daemonRun hmiddle)
  rcases EmerDaemon.success_delivers_all hswap parsesPingSocket parsesHttpRequestUrl hcapacity
    hlimit permissionsProvider hcontents hsmall hlive hmachine hdelivers hreturned with
    ⟨actions, htrace, hopted⟩ | hdelivered
  · refine .inl ⟨earlier ++ actions, ?_, List.mem_append_right _ hopted⟩
    rw [htrace, ← hearlier, List.append_assoc]
  · by_cases hopted : .optedOut ∈ earlier
    · obtain ⟨later, hlater⟩ := EmerDaemon.trace_isPrefix_run (run_daemonRun hrest)
      refine .inl ⟨earlier ++ later, ?_, List.mem_append_left _ hopted⟩
      rw [← hlater, ← hearlier, List.append_assoc]
    -- what was kept when the call came in is still kept when it is dispatched
    · right
      have hkept : (Ledger.ofTrace contents before.recorder.daemon.trace).kept <+:
          (Ledger.ofTrace contents middle.recorder.daemon.trace).kept := by
        rw [← hearlier]
        exact EmerDaemon.kept_isPrefix hopted
      exact hkept.trans hdelivered

end Server

/-- A server over the small cache, of events with one ID and without a payload. -/
def storingServerParts :
    ServerParts EmerPersistentCache (StorableVariant eventVariants .little) where
  toDaemonParts := EmerDaemon.storingParts eventVariants .little (fun _ => true) fun _ => true
  glib := eventVariants
  order := .little
  select := .byRowId
  uuidGenerateSha1 := fun eventId _ => eventId
  aggregate := fun row => storedAggregate row.counter
  osVersion := "4.0.1".toList
  gVariantNew := fun event => storedSingular event.relativeTimestamp.toNat

def startedServer : Server EmerPersistentCache (StorableVariant eventVariants .little) :=
  .new (.new storingServerParts.toRecorderParts
    (emerPermissionsProviderNew (.parsed sampleConfigFile) none) EmerDaemon.smallSyncedCache 100000
    ⟨[]⟩ ⟨2021, 9, 22⟩ ⟨2021, 9, 22⟩)

def sampleSingularEvent : RecordSingularEvent :=
  ⟨⟨gVariantTypeBytestring, sampleEventId⟩, 5, false, ⟨gVariantTypeVariant, [1]⟩, .ok 3⟩

def recordedCall : List (ServerEvent (StorableVariant eventVariants .little)) :=
  [.methodCall (.recordSingularEvent sampleSingularEvent),
    .authorizeMethod 0 fun _ => .result false]

/-- Another event is recorded while the first request of the upload has failed. -/
def answeredCall : List (ServerEvent (StorableVariant eventVariants .little)) :=
  [.authorizeMethod 1 fun _ => .result false, .callback (.daemon (.canReach true .none)) trivial,
    .callback (.daemon (.httpResponse 0 .retryable)) trivial,
    .methodCall (.recordSingularEvent sampleSingularEvent),
    .authorizeMethod 2 fun _ => .result false,
    .callback (.daemon (.backoffTimer 0 .none)) trivial,
    .callback (.daemon (.httpResponse 0 .successful)) trivial, .uploadFinished 0]

def callingServer : Server EmerPersistentCache (StorableVariant eventVariants .little) :=
  (run (Server.step storingServerParts) (some startedServer) recordedCall).getD startedServer

def answeringServer : Server EmerPersistentCache (StorableVariant eventVariants .little) :=
  (run (Server.step storingServerParts) (some callingServer)
    (.methodCall .uploadEvents :: answeredCall)).getD callingServer

theorem upload_reply_delivers_all_answeredCall :
    EmerDaemon.OptedOutSince callingServer.recorder.daemon answeringServer.recorder.daemon ∨
      (Ledger.ofTrace [] callingServer.recorder.daemon.trace).kept <+:
        (acknowledgedIn answeringServer.recorder.daemon.trace).flatten :=
  @Server.upload_reply_delivers_all eventVariants .little eventVariants_lawful.swapKeepsSize
    (fun _ => true) (fun _ => true) storingServerParts rfl 256 100000 (by decide) (by decide)
    (emerPermissionsProviderNew (.parsed sampleConfigFile) none) EmerDaemon.smallSyncedCache []
    EmerDaemon.smallSyncedCache_empty (by simp) ⟨[]⟩ ⟨2021, 9, 22⟩ ⟨2021, 9, 22⟩ recordedCall
    answeredCall callingServer answeringServer (by decide +kernel) rfl rfl
    (List.mem_of_getLast? rfl)

end EventRecorder
