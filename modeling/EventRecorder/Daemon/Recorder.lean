import EventRecorder.Aggregate.Registry
import EventRecorder.Aggregate.Tally
import EventRecorder.Daemon.Basic

/-!
# The whole daemon

The upload machine and the timer registry are parts of one daemon.  A permission that the upload
machine hears of is the registry's as well, and the rows that the registry takes out of the tally
are recorded as events by the upload machine.
-/

namespace EventRecorder

open Theory

/-- What the daemon is built from, with the event that an aggregate becomes. -/
structure RecorderParts (κ ε : Type*) extends DaemonParts κ ε where
  glib : VariantLibrary
  order : ByteOrder
  select : SelectOrder
  uuidGenerateSha1 : Bytes → Text → Bytes
  aggregate : TallyIterArgs → ε

/-- The tally, and the rows that an iteration has handed over to be buffered as events. -/
abbrev QueueingTally := EmerAggregateTally × List TallyIterArgs

/-- `buffer_aggregate_event_to_queue` always continues. -/
def queueingTally (glib : VariantLibrary) (order : ByteOrder) (select : SelectOrder) :
    AggregateTally QueueingTally where
  storeEvent state increment := (state.1.storeEvent increment).map (·, state.2)
  iter state tallyType datetime :=
    (state.1.iter glib order EmerAggregateTally.collect true select tallyType datetime state.2).2
  clear state := (state.1.clear, state.2)

structure Recorder (κ ε : Type*) where
  daemon : EmerDaemon κ ε
  registry : TimerRegistry QueueingTally

inductive RecorderEvent (ε : Type*) where
  | daemon (event : DaemonEvent ε)
  | timer (event : TimerEvent)

def Action.isOptedOut {ε : Type*} : Action ε → Bool
  | .optedOut => true
  | _ => false

namespace Recorder

variable {κ ε : Type*} (parts : RecorderParts κ ε)

def tallyOps : AggregateTally QueueingTally :=
  queueingTally parts.glib parts.order parts.select

/-- The registry after the upload machine has handled an event: `on_permissions_changed` clears both
of them. -/
def follow (before after : EmerDaemon κ ε) (registry : TimerRegistry QueueingTally) :
    TimerRegistry QueueingTally :=
  let cleared :=
    if (after.trace.drop before.trace.length).any Action.isOptedOut then
      registry.onPermissionsChanged (tallyOps parts) false
    else registry
  { cleared with recordingEnabled := after.recordingEnabled }

/-- The rows taken out of the tally become events. -/
def recordAggregates (daemon : EmerDaemon κ ε) (registry : TimerRegistry QueueingTally) :
    Recorder κ ε where
  daemon := registry.aggregateTally.2.foldl
    (fun daemon args => daemon.recordEvent parts.toDaemonParts (parts.aggregate args)) daemon
  registry := { registry with aggregateTally := (registry.aggregateTally.1, []) }

/-- Without a result when the process ends. -/
def handle (recorder : Recorder κ ε) : RecorderEvent ε → Option (Recorder κ ε)
  | .daemon event =>
    match recorder.daemon.handle parts.toDaemonParts event with
    | .error _ => none
    | .ok daemon => some ⟨daemon, follow parts recorder.daemon daemon recorder.registry⟩
  -- the registry hears of permissions through the events of the daemon
  | .timer (.permissionsChanged _) => some recorder
  | .timer event =>
    (handleTimerEvent (tallyOps parts) parts.uuidGenerateSha1 recorder.registry event).map
      (recordAggregates parts recorder.daemon)

def step (recorder : Option (Recorder κ ε)) (event : RecorderEvent ε) : Option (Recorder κ ε) :=
  recorder.bind fun recorder => recorder.handle parts event

/-- `buffer_past_aggregate_events`: the tally and the rows of earlier periods. -/
def takePastAggregates (tally : EmerAggregateTally) (now : GDateTime) : QueueingTally :=
  let (_, tally, past) := tally.iterBefore parts.glib parts.order EmerAggregateTally.collect true
    parts.select .dailyEvents now []
  let (_, tally, past) := tally.iterBefore parts.glib parts.order EmerAggregateTally.collect true
    parts.select .monthlyEvents now past
  (tally, past)

/-- `emer_daemon_new_full` over a cache and a tally as they were left.  The clock is read when the
daemon is initialised, for the date that it remembers, and once more when it is constructed. -/
def new (permissionsProvider : EmerPermissionsProvider) (persistentCache : κ)
    (maxBytesBuffered : Nat) (tally : EmerAggregateTally) (date now : GDateTime) :
    Recorder κ ε :=
  let (tally, past) := takePastAggregates parts tally now
  let daemon := EmerDaemon.new parts.toDaemonParts permissionsProvider persistentCache
    maxBytesBuffered (past.map parts.aggregate)
  ⟨daemon, follow parts (.initial permissionsProvider persistentCache maxBytesBuffered) daemon
    (timerRegistryNew permissionsProvider.getDaemonEnabled date (tally, []))⟩

end Recorder

end EventRecorder
