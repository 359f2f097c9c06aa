import EventRecorder.Aggregate.TallySums
import EventRecorder.Daemon.Restrained

/-!
# While recording is disabled nothing is held

An opt-out empties every store of the daemon, and the daemon starts with one when recording is not
enabled, since reading the environment notifies the permission.  Until recording is enabled again
no entry point writes to a store.
-/

namespace EventRecorder

open Theory

variable {κ ε : Type*} {Contents : κ → List ε → Prop} {fits : List ε → List ε → Nat}
  {token : List ε → Nat}

/-! ## 1. The timers and the tally -/

namespace TimerRegistry

/-- No timer runs, no sender is watched and the tally has no rows. -/
structure IsClear (registry : TimerRegistry QueueingTally) : Prop where
  timers : registry.aggregateTimers = []
  senders : registry.monitoredSenders = fun _ => none
  rows : registry.aggregateTally.1.rows = []

end TimerRegistry

section Tally

variable {glib : VariantLibrary} {order : ByteOrder} {select : SelectOrder}

/-- An iteration over a tally without rows hands nothing over. -/
theorem iter_queueingTally_of_empty {tally : QueueingTally} (hrows : tally.1.rows = [])
    (tallyType : EmerTallyType) (datetime : GDateTime) :
    (queueingTally glib order select).iter tally tallyType datetime = tally := by
  obtain ⟨⟨rows⟩, queued⟩ := tally
  dsimp only at hrows
  subst hrows
  have hselect : select.reorder [] = [] := List.perm_nil.mp (select.perm [])
  show (EmerAggregateTally.iter ⟨[]⟩ glib order EmerAggregateTally.collect true select tallyType
    datetime queued).2 = _
  rw [EmerAggregateTally.iter, EmerAggregateTally.iterInternal]
  simp [hselect, EmerAggregateTally.iterRows]

variable {uuidGenerateSha1 : Bytes → Text → Bytes} {registry next : TimerRegistry QueueingTally}
  {event : TimerEvent}

theorem recordingEnabled_stopTimers {κ : Type*} (ops : AggregateTally κ) (now : GDateTime)
    (mono : Int) (timerIds : List Nat) {registry next : TimerRegistry κ}
    (hstopped : TimerRegistry.stopTimers ops now mono timerIds registry = some next) :
    next.recordingEnabled = registry.recordingEnabled := by
  induction timerIds generalizing registry with
  | nil =>
    cases hstopped
    rfl
  | cons timerId timerIds ih =>
    rw [TimerRegistry.stopTimers] at hstopped
    cases hfind : registry.findTimer timerId with
    | none =>
      rw [hfind] at hstopped
      cases hstopped
    | some timerImpl =>
      rw [hfind] at hstopped
      -- stopping one timer changes the tally and the set only
      exact @ih ((registry.stopTimerImpl ops timerImpl now mono).removeTimer timerId) hstopped

/-- Only a permission changes whether recording is enabled. -/
theorem recordingEnabled_handleTimerEvent {κ : Type*} {ops : AggregateTally κ}
    {registry next : TimerRegistry κ} (hevent : ∀ enabled, event ≠ .permissionsChanged enabled)
    (hhandle : handleTimerEvent ops uuidGenerateSha1 registry event = some next) :
    next.recordingEnabled = registry.recordingEnabled := by
  cases event with
  | startAggregateTimer call =>
    rw [handleTimerEvent] at hhandle
    cases hstart : registry.startAggregateTimer uuidGenerateSha1 call with
    | error error =>
      rw [hstart] at hhandle
      cases hhandle
      rfl
    | ok started =>
      rw [hstart] at hhandle
      cases hhandle
      unfold TimerRegistry.startAggregateTimer at hstart
      split at hstart
      · cases hstart
      split at hstart
      · cases hstart
      split at hstart
      · cases hstart
      · cases hstart
        rfl
  | stopTimer timerId now mono =>
    rw [handleTimerEvent] at hhandle
    cases hfind : registry.findTimer timerId with
    | none =>
      rw [hfind] at hhandle
      cases hhandle
      rfl
    | some timerImpl =>
      rw [hfind] at hhandle
      unfold TimerRegistry.onTimerStoppedCb at hhandle
      cases hsender : registry.monitoredSenders timerImpl.senderName with
      | none =>
        simp only [hsender] at hhandle
        cases hhandle
      | some senderData =>
        simp only [hsender] at hhandle
        cases hhandle
        rfl
  | senderNameVanished name now mono =>
    rw [handleTimerEvent] at hhandle
    split at hhandle
    · cases hhandle
      rfl
    unfold TimerRegistry.senderNameVanishedCb at hhandle
    cases hsender : registry.monitoredSenders name with
    | none =>
      simp only [hsender] at hhandle
      cases hhandle
    | some senderData =>
      simp only [hsender] at hhandle
      obtain ⟨stopped, hstopped, rfl⟩ := Option.map_eq_some_iff.mp hhandle
      show stopped.recordingEnabled = registry.recordingEnabled
      exact recordingEnabled_stopTimers ops now mono senderData hstopped
  | clockTickedMidnight mono now rescheduled =>
    cases hhandle
    rw [TimerRegistry.clockTickedMidnightCb_eq]
  | permissionsChanged enabled => exact absurd rfl (hevent enabled)
  | shutdown now mono =>
    cases hhandle
    rw [TimerRegistry.shutdown_eq]

/-- While recording is disabled no event of the timers puts anything into an empty store. -/
theorem isClear_handleTimerEvent (hdisabled : registry.recordingEnabled = false)
    (hclear : registry.IsClear)
    (hevent : ∀ enabled, event ≠ .permissionsChanged enabled)
    (hhandle : handleTimerEvent (queueingTally glib order select) uuidGenerateSha1 registry event =
      some next) :
    next.IsClear ∧ next.aggregateTally = registry.aggregateTally := by
  cases event with
  | startAggregateTimer call =>
    rw [handleTimerEvent, TimerRegistry.startAggregateTimer, if_pos (by simp [hdisabled])]
      at hhandle
    cases hhandle
    exact ⟨hclear, rfl⟩
  | stopTimer timerId now mono =>
    have hfind : registry.findTimer timerId = none := by
      rw [TimerRegistry.findTimer, hclear.timers]
      rfl
    rw [handleTimerEvent, hfind] at hhandle
    cases hhandle
    exact ⟨hclear, rfl⟩
  | senderNameVanished name now mono =>
    have hsender : (registry.monitoredSenders name).isNone = true := by rw [hclear.senders]; rfl
    rw [handleTimerEvent, if_pos hsender] at hhandle
    cases hhandle
    exact ⟨hclear, rfl⟩
  | clockTickedMidnight mono now rescheduled =>
    cases hhandle
    -- no timer has anything to save, so the tally is iterated over as it is
    have hsave : ∀ tallyType date, TimerRegistry.tallyAfterSave (queueingTally glib order select)
        tallyType date mono registry.aggregateTimers registry.aggregateTally =
          registry.aggregateTally := by
      intro tallyType date
      rw [hclear.timers]
      rfl
    have htally : (registry.clockTickedMidnightCb (queueingTally glib order select) mono now
        rescheduled).aggregateTally = registry.aggregateTally := by
      rw [TimerRegistry.clockTickedMidnightCb_eq]
      simp only [hsave, iter_queueingTally_of_empty hclear.rows, ite_self]
    refine ⟨⟨?_, ?_, ?_⟩, htally⟩
    · rw [TimerRegistry.clockTickedMidnightCb_eq]
      show registry.aggregateTimers.map _ = []
      rw [hclear.timers, List.map_nil]
    · rw [TimerRegistry.clockTickedMidnightCb_eq]
      exact hclear.senders
    · rw [htally]
      exact hclear.rows
  | permissionsChanged enabled => exact absurd rfl (hevent enabled)
  | shutdown now mono =>
    cases hhandle
    rw [TimerRegistry.shutdown_eq, hclear.timers]
    exact ⟨⟨rfl, rfl, hclear.rows⟩, rfl⟩

end Tally

/-! ## 2. The daemon -/

namespace Recorder

variable {parts : RecorderParts κ ε} {recorder next : Recorder κ ε}

/-- The stores of the daemon are empty. -/
structure HoldsNothing (Contents : κ → List ε → Prop) (recorder : Recorder κ ε) : Prop where
  variantArray : recorder.daemon.buffer.variantArray = []
  numBytesBuffered : recorder.daemon.buffer.numBytesBuffered = 0
  persistentCache : Contents recorder.daemon.persistentCache []
  aggregateTally : recorder.registry.aggregateTally.1.rows = []
  aggregateTimers : recorder.registry.aggregateTimers = []
  monitoredSenders : recorder.registry.monitoredSenders = fun _ => none

/-- While recording is disabled the stores are empty, and so is the list of rows to record. -/
structure Quiet (cost : ε → Nat) (Contents : κ → List ε → Prop) (token : List ε → Nat)
    (recorder : Recorder κ ε) : Prop where
  restrained : recorder.daemon.InFlight (EmerDaemon.Restrained cost Contents token 0 True True)
  agrees : recorder.registry.recordingEnabled = recorder.daemon.recordingEnabled
  recorded : recorder.registry.aggregateTally.2 = []
  cleared : recorder.daemon.recordingEnabled = false → recorder.registry.IsClear

theorem Quiet.holdsNothing (h : recorder.Quiet parts.cost Contents token)
    (hdisabled : recorder.daemon.recordingEnabled = false) : recorder.HoldsNothing Contents := by
  obtain ⟨upload, -, hrestrained⟩ := h.restrained
  obtain ⟨hbuffer, hcache⟩ := hrestrained.empty trivial hdisabled
  have hclear := h.cleared hdisabled
  exact ⟨hbuffer, hrestrained.counted.numBytesBuffered_eq_zero hbuffer, hcache, hclear.rows,
    hclear.timers, hclear.senders⟩

variable (parts) in
theorem isClear_follow {before after : EmerDaemon κ ε} {registry : TimerRegistry QueueingTally}
    (h : registry.IsClear ∨
      (after.trace.drop before.trace.length).any Action.isOptedOut = true) :
    (follow parts before after registry).IsClear := by
  unfold follow
  by_cases hany : (after.trace.drop before.trace.length).any Action.isOptedOut = true
  · rw [if_pos hany]
    exact ⟨rfl, rfl, rfl⟩
  · rw [if_neg hany]
    obtain ⟨htimers, hsenders, hrows⟩ := h.resolve_right hany
    exact ⟨htimers, hsenders, hrows⟩

variable (parts) in
theorem recorded_follow {before after : EmerDaemon κ ε} {registry : TimerRegistry QueueingTally}
    (h : registry.aggregateTally.2 = []) :
    (follow parts before after registry).aggregateTally.2 = [] := by
  unfold follow
  split
  · exact h
  · exact h

variable (hcache : LawfulCache parts.cache Contents fits token)

include hcache

theorem inFlight_recordEvent {daemon : EmerDaemon κ ε} {seen : Nat} {excused settled : Prop}
    (h : daemon.InFlight (EmerDaemon.Restrained parts.cost Contents token seen excused settled))
    (event : ε) :
    (daemon.recordEvent parts.toDaemonParts event).InFlight
      (EmerDaemon.Restrained parts.cost Contents token seen excused settled) :=
  (EmerDaemon.restrained_uploadInvariant seen excused settled hcache).handled
    (EmerDaemon.handle_handled parts.toDaemonParts daemon (.recordEvent event)) h trivial

omit hcache in
theorem recordingEnabled_recordEvent (daemon : EmerDaemon κ ε) (event : ε) :
    (daemon.recordEvent parts.toDaemonParts event).recordingEnabled = daemon.recordingEnabled := by
  rw [EmerDaemon.recordEvent]
  split
  · rw [EmerDaemon.bufferEvent_eq]
  · rfl

/-- **Step lemma** for the events of the upload machine. -/
theorem Quiet.daemonEvent (h : recorder.Quiet parts.cost Contents token)
    {event : DaemonEvent ε} {daemon : EmerDaemon κ ε}
    (hhandle : recorder.daemon.handle parts.toDaemonParts event = .ok daemon) :
    (⟨daemon, follow parts recorder.daemon daemon recorder.registry⟩ :
      Recorder κ ε).Quiet parts.cost Contents token := by
  obtain ⟨upload, hupload, hself⟩ := h.restrained
  -- from here on, recording that was enabled ends with an opt-out only
  have hstart : recorder.daemon.InFlight (EmerDaemon.Restrained parts.cost Contents token
      recorder.daemon.trace.length (recorder.daemon.recordingEnabled = false) True) :=
    ⟨upload, hupload, hself.counted, hself.cached, hself.empty, hself.current, hself.live,
      le_refl _, .inl⟩
  have hhandled := EmerDaemon.handle_handled parts.toDaemonParts recorder.daemon event
  rw [hhandle] at hhandled
  obtain ⟨upload', hupload', hnext⟩ := (EmerDaemon.restrained_uploadInvariant
    recorder.daemon.trace.length (recorder.daemon.recordingEnabled = false) True hcache).handled
    hhandled hstart trivial
  refine ⟨⟨upload', hupload', hnext.counted, hnext.cached, hnext.empty, hnext.current, hnext.live,
    Nat.zero_le _, fun _ => .inl trivial⟩, rfl, recorded_follow parts h.recorded, ?_⟩
  intro hdisabled
  apply isClear_follow parts
  exact (hnext.heard hdisabled).imp_left h.cleared

/-- **Step lemma** for the events of the timers. -/
theorem Quiet.timerEvent (h : recorder.Quiet parts.cost Contents token)
    {event : TimerEvent} (hevent : ∀ enabled, event ≠ .permissionsChanged enabled)
    {registry : TimerRegistry QueueingTally}
    (hhandle : handleTimerEvent (tallyOps parts) parts.uuidGenerateSha1 recorder.registry event =
      some registry) :
    (recordAggregates parts recorder.daemon registry).Quiet parts.cost Contents token := by
  have hagrees := recordingEnabled_handleTimerEvent hevent hhandle
  have hrecorded : (recordAggregates parts recorder.daemon registry).daemon.InFlight
        (EmerDaemon.Restrained parts.cost Contents token 0 True True) ∧
      (recordAggregates parts recorder.daemon registry).daemon.recordingEnabled =
        recorder.daemon.recordingEnabled := by
    rw [recordAggregates, ← List.foldl_map]
    apply EmerDaemon.foldl_recordEvent_keeps (I := fun daemon => daemon.InFlight
        (EmerDaemon.Restrained parts.cost Contents token 0 True True) ∧
      daemon.recordingEnabled = recorder.daemon.recordingEnabled)
    · intro daemon event hdaemon
      exact ⟨inFlight_recordEvent hcache hdaemon.1 event,
        (recordingEnabled_recordEvent daemon event).trans hdaemon.2⟩
    · exact ⟨h.restrained, rfl⟩
  refine ⟨hrecorded.1, ?_, rfl, ?_⟩
  · rw [hrecorded.2, ← h.agrees]
    exact hagrees
  · intro hdisabled
    rw [hrecorded.2] at hdisabled
    obtain ⟨hclear, -⟩ := isClear_handleTimerEvent (h.agrees.trans hdisabled)
      (h.cleared hdisabled) hevent hhandle
    exact ⟨hclear.timers, hclear.senders, hclear.rows⟩

/-- **Step lemma.** -/
theorem Quiet.handle (h : recorder.Quiet parts.cost Contents token) {event : RecorderEvent ε}
    (hhandle : recorder.handle parts event = some next) :
    next.Quiet parts.cost Contents token := by
  cases event with
  | daemon event =>
    rw [Recorder.handle] at hhandle
    cases hdaemon : recorder.daemon.handle parts.toDaemonParts event with
    | error abort =>
      rw [hdaemon] at hhandle
      cases hhandle
    | ok daemon =>
      rw [hdaemon] at hhandle
      cases hhandle
      exact h.daemonEvent hcache hdaemon
  | timer event =>
    by_cases hevent : ∃ enabled, event = .permissionsChanged enabled
    · obtain ⟨enabled, rfl⟩ := hevent
      cases hhandle
      exact h
    · have hmap : (handleTimerEvent (tallyOps parts) parts.uuidGenerateSha1 recorder.registry
          event).map (recordAggregates parts recorder.daemon) = some next := by
        cases event with
        | permissionsChanged enabled => exact absurd ⟨enabled, rfl⟩ hevent
        | startAggregateTimer call => exact hhandle
        | stopTimer timerId now mono => exact hhandle
        | senderNameVanished name now mono => exact hhandle
        | clockTickedMidnight mono now rescheduled => exact hhandle
        | shutdown now mono => exact hhandle
      obtain ⟨registry, hregistry, rfl⟩ := Option.map_eq_some_iff.mp hmap
      exact h.timerEvent hcache (fun enabled heq => hevent ⟨enabled, heq⟩) hregistry

/-- The daemon as it is constructed: it has read the environment, which settles the permission. -/
theorem quiet_new (permissionsProvider : EmerPermissionsProvider) {persistentCache : κ}
    {contents : List ε} (hcontents : Contents persistentCache contents) (maxBytesBuffered : Nat)
    (tally : EmerAggregateTally) (date now : GDateTime) :
    (new parts permissionsProvider persistentCache maxBytesBuffered tally date now).Quiet parts.cost
      Contents token := by
  have hinitial : (EmerDaemon.initial permissionsProvider persistentCache
      maxBytesBuffered).InFlight
        (EmerDaemon.Restrained parts.cost Contents token 0 True False) :=
    ⟨none, rfl, rfl, ⟨contents, hcontents⟩, False.elim, by simp, by simp, Nat.zero_le _,
      fun _ => .inl trivial⟩
  obtain ⟨upload, hupload, hrecorded⟩ := EmerDaemon.foldl_recordEvent_keeps
    (I := fun daemon => daemon.InFlight
      (EmerDaemon.Restrained parts.cost Contents token 0 True False))
    (fun daemon event hdaemon => inFlight_recordEvent hcache hdaemon event)
    ((takePastAggregates parts tally now).2.map parts.aggregate) hinitial
  have hsettled := hrecorded.getEnvironment hcache
  have hwaiting := EmerDaemon.sameAwaiting_housekept
    (EmerDaemon.getEnvironment_housekept parts.toDaemonParts True
      (List.foldl (fun daemon event => daemon.recordEvent parts.toDaemonParts event)
        (EmerDaemon.initial permissionsProvider persistentCache maxBytesBuffered)
        ((takePastAggregates parts tally now).2.map parts.aggregate)))
  refine ⟨⟨upload, hwaiting.waiting_eq.trans hupload, hsettled.counted, hsettled.cached,
    hsettled.empty, hsettled.current, hsettled.live, Nat.zero_le _, fun _ => .inl trivial⟩, rfl,
    recorded_follow parts rfl, ?_⟩
  intro hdisabled
  apply isClear_follow parts
  exact .inr ((hsettled.heard hdisabled).resolve_left id)

/-! ## 3. Runs -/

/-- Throughout every run over a cache whose operations succeed, the daemon holds nothing while
recording is disabled. -/
theorem holdsNothing_while_disabled (permissionsProvider : EmerPermissionsProvider)
    {persistentCache : κ} {contents : List ε} (hcontents : Contents persistentCache contents)
    (maxBytesBuffered : Nat) (tally : EmerAggregateTally) (date now : GDateTime)
    (events : List (RecorderEvent ε)) :
    Throughout (step parts)
      (fun state => ∀ recorder ∈ state, recorder.daemon.recordingEnabled = false →
        recorder.HoldsNothing Contents)
      (some (new parts permissionsProvider persistentCache maxBytesBuffered tally date now))
      events := by
  have hrun : Throughout (step parts)
      (fun state => ∀ recorder ∈ state, recorder.Quiet parts.cost Contents token)
      (some (new parts permissionsProvider persistentCache maxBytesBuffered tally date now))
      events := by
    apply throughout_of_invariant
    · intro state event hstate next hnext
      obtain ⟨recorder, hrecorder, hhandle⟩ := Option.bind_eq_some_iff.mp hnext
      exact (hstate recorder hrecorder).handle hcache hhandle
    · intro recorder hrecorder
      rw [← Option.some.inj hrecorder]
      exact quiet_new hcache permissionsProvider hcontents maxBytesBuffered tally date now
  exact hrun.mono fun state hstate recorder hrecorder hdisabled =>
    (hstate recorder hrecorder).holdsNothing hdisabled

end Recorder

/-- A daemon whose events are numbers, and whose aggregates are their counters. -/
def sampleRecorderParts : RecorderParts (List Nat) Nat where
  toDaemonParts := sampleParts
  glib := boxedNumbers
  order := .little
  select := .byRowId
  uuidGenerateSha1 := fun eventId _ => eventId
  aggregate := fun args => args.counter

/-- An event, a timer and an upload are under way when recording is disabled; the response, the
midnight tick and the vanishing of the sender come afterwards. -/
def disabledUnderWay : List (RecorderEvent Nat) :=
  [.daemon (.recordEvent 3),
    .timer (.startAggregateTimer ⟨":1.7".toList, 1001,
      ⟨gVariantTypeBytestring, List.replicate 16 7⟩, false, boxed 1, true, 0⟩),
    .timer (.clockTickedMidnight 5000000 ⟨2021, 9, 23⟩ ⟨2021, 9, 23⟩),
    .daemon .uploadEvents, .daemon (.canReach true .none), .daemon (.recordEvent 5),
    .daemon (.setDaemonEnabled false), .daemon (.recordEvent 8),
    .timer (.clockTickedMidnight 9000000 ⟨2021, 9, 24⟩ ⟨2021, 9, 24⟩),
    .timer (.senderNameVanished ":1.7".toList ⟨2021, 9, 24⟩ 10000000),
    .daemon (.httpResponse 0 .successful)]

theorem holdsNothing_while_disabled_underWay :
    Throughout (Recorder.step sampleRecorderParts)
      (fun state => ∀ recorder ∈ state, recorder.daemon.recordingEnabled = false →
        recorder.HoldsNothing (fun cache contents => cache = contents))
      (some (.new sampleRecorderParts
        (emerPermissionsProviderNew (.parsed sampleConfigFile) none) [2] 100 ⟨[]⟩ ⟨2021, 9, 22⟩
        ⟨2021, 9, 22⟩))
      disabledUnderWay :=
  Recorder.holdsNothing_while_disabled (fifoCache_lawful id 1000) _ rfl _ _ _ _ _

end EventRecorder
