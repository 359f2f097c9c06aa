import EventRecorder.PersistentCache.Basic
import EventRecorder.Theory.KeyFile

/-!
# Aggregate timers

A timer counts the seconds between its start and its stop.  The registry of the daemon keeps the
running timers and, for each sender that is watched, the timers it started.  The tally that the
counters are stored in is a parameter, and so is the hash that makes the monthly event ID.
-/

namespace EventRecorder

open Theory

inductive EmerTallyType where
  | dailyEvents
  | monthlyEvents
  deriving DecidableEq, Repr

/-- The part of a `GDateTime` that aggregates are dated with. -/
structure GDateTime where
  year : Nat
  month : Nat
  dayOfMonth : Nat
  deriving DecidableEq, Repr

def monthChanged (a b : GDateTime) : Bool :=
  a.year != b.year || a.month != b.month

def gUsecPerSec : Int := 1000000
def gMaxuint32 : Nat := 2 ^ 32 - 1
def uuidLength : Nat := 16

/-- The arguments of `emer_aggregate_tally_store_event`.  The tally does not see the timer. -/
structure TallyIncrement where
  timerId : Nat
  tallyType : EmerTallyType
  unixUserId : Nat
  eventId : Bytes
  payload : Option GVariant
  counter : Nat
  datetime : GDateTime
  deriving DecidableEq, Repr

/-- `code` is a result code of SQLite. -/
structure EmerSqliteError where
  code : Int
  deriving DecidableEq, Repr

/-- What the timers use of the aggregate tally.  `iter` is the iteration at midnight, which buffers
the rows of a period as events and deletes them. -/
structure AggregateTally (κ : Type*) where
  storeEvent : κ → TallyIncrement → Except EmerSqliteError κ
  iter : κ → EmerTallyType → GDateTime → κ
  clear : κ → κ

/-- The object at the D-Bus path of number `timerId`. -/
structure EmerAggregateTimerImpl where
  timerId : Nat
  startMonotonicUs : Int
  unixUserId : Nat
  eventId : Bytes
  monthlyEventId : Bytes
  payload : Option GVariant
  senderName : Text
  deriving DecidableEq, Repr

/-- The arguments of `StartAggregateTimer`; `exported` says whether the timer could be exported on
the bus. -/
structure StartAggregateTimer where
  senderName : Text
  unixUserId : Nat
  eventId : GVariant
  hasPayload : Bool
  payload : GVariant
  exported : Bool
  monotonicTimeUs : Int

inductive StartError where
  | metricsDisabled
  | invalidEventId
  | notExported
  deriving DecidableEq, Repr

/-- The type string `ay`. -/
def gVariantTypeBytestring : Bytes := [97, 121]

def isUuid (variant : GVariant) : Bool :=
  variant.typeString = gVariantTypeBytestring ∧ variant.data.length = uuidLength

def getNullablePayload (payload : GVariant) (hasPayload : Bool) : Option GVariant :=
  if hasPayload then some payload else none

/-! ## 1. One timer -/

/-- `CLAMP (difference / G_USEC_PER_SEC, 0, G_MAXUINT32)`, with the division of C. -/
def elapsedSeconds (startMonotonicUs monotonicTimeUs : Int) : Nat :=
  min ((monotonicTimeUs - startMonotonicUs).tdiv gUsecPerSec).toNat gMaxuint32

namespace EmerAggregateTimerImpl

variable {κ : Type*} (ops : AggregateTally κ) (self : EmerAggregateTimerImpl)

def increment (tallyType : EmerTallyType) (datetime : GDateTime) (monotonicTimeUs : Int) :
    TallyIncrement where
  timerId := self.timerId
  tallyType := tallyType
  unixUserId := self.unixUserId
  eventId :=
    match tallyType with
    | .dailyEvents => self.eventId
    | .monthlyEvents => self.monthlyEventId
  payload := self.payload
  counter := elapsedSeconds self.startMonotonicUs monotonicTimeUs
  datetime := datetime

def store (tallyType : EmerTallyType) (datetime : GDateTime) (monotonicTimeUs : Int) (tally : κ) :
    Except EmerSqliteError κ :=
  ops.storeEvent tally (self.increment tallyType datetime monotonicTimeUs)

def split (monotonicTimeUs : Int) : EmerAggregateTimerImpl :=
  { self with startMonotonicUs := monotonicTimeUs }

/-- Without the monthly counter when the daily one could not be stored. -/
def stop (datetime : GDateTime) (monotonicTimeUs : Int) (tally : κ) :
    Except EmerSqliteError Unit × κ :=
  match ops.storeEvent tally (self.increment .dailyEvents datetime monotonicTimeUs) with
  | .error e => (.error e, tally)
  | .ok tally =>
    match ops.storeEvent tally (self.increment .monthlyEvents datetime monotonicTimeUs) with
    | .error e => (.error e, tally)
    | .ok tally => (.ok (), tally)

end EmerAggregateTimerImpl

/-! ## 2. The registry -/

/-- The members of the daemon that the timers use.  The running timers stand in the order in which
their hash table is iterated. -/
structure TimerRegistry (κ : Type*) where
  recordingEnabled : Bool
  aggregateTimers : List EmerAggregateTimerImpl
  monitoredSenders : Text → Option (List Nat)
  nextTimerId : Nat
  currentAggregateTallyDate : GDateTime
  aggregateTally : κ

namespace TimerRegistry

variable {κ : Type*} (ops : AggregateTally κ) (self : TimerRegistry κ)

def findTimer (timerId : Nat) : Option EmerAggregateTimerImpl :=
  self.aggregateTimers.find? (·.timerId = timerId)

/-- `g_ptr_array_remove_fast`: the last element takes the place of the one that is removed. -/
def removeFast (timerIds : List Nat) (timerId : Nat) : List Nat :=
  match timerIds.idxOf? timerId, timerIds.getLast? with
  | some i, some last => (timerIds.set i last).dropLast
  | _, _ => timerIds

/-- A timer that is not in the set is only warned about. -/
def removeTimer (timerId : Nat) : TimerRegistry κ :=
  { self with aggregateTimers := self.aggregateTimers.filter (·.timerId ≠ timerId) }

/-- A stop whose counters could not be stored is answered with the error or warned about: the timer
goes all the same. -/
def stopTimerImpl (timerImpl : EmerAggregateTimerImpl) (now : GDateTime)
    (nowMonotonicUs : Int) : TimerRegistry κ :=
  { self with aggregateTally := (timerImpl.stop ops now nowMonotonicUs self.aggregateTally).2 }

def timerObjectPath (timerId : Nat) : String :=
  s!"/com/endlessm/Metrics/AggregateTimer{timerId}"

/-- `emer_daemon_start_aggregate_timer`, with the path of the timer's object. -/
def startAggregateTimer (uuidGenerateSha1 : Bytes → Text → Bytes) (call : StartAggregateTimer) :
    Except StartError (String × TimerRegistry κ) :=
  if !self.recordingEnabled then .error .metricsDisabled
  else if !isUuid call.eventId then .error .invalidEventId
  else if !call.exported then .error .notExported
  else
    let timerImpl : EmerAggregateTimerImpl :=
      { timerId := self.nextTimerId
        startMonotonicUs := call.monotonicTimeUs
        unixUserId := call.unixUserId
        eventId := call.eventId.data
        monthlyEventId := uuidGenerateSha1 call.eventId.data "monthly".toList
        payload := getNullablePayload call.payload call.hasPayload
        senderName := call.senderName }
    -- a sender is watched from its first timer on
    let senderData := (self.monitoredSenders call.senderName).getD []
    .ok (timerObjectPath self.nextTimerId,
      { self with
        aggregateTimers := self.aggregateTimers ++ [timerImpl]
        monitoredSenders := Function.update self.monitoredSenders call.senderName
          (some (senderData ++ [timerImpl.timerId]))
        nextTimerId := self.nextTimerId + 1 })

/-- Without a result when the assertion that the sender is watched fails. -/
def onTimerStoppedCb (timerImpl : EmerAggregateTimerImpl) (now : GDateTime)
    (nowMonotonicUs : Int) : Option (TimerRegistry κ) :=
  let stopped := self.stopTimerImpl ops timerImpl now nowMonotonicUs
  match self.monitoredSenders timerImpl.senderName with
  | none => none
  | some senderData =>
    -- the sender is not watched any more after its last timer
    let senderData := removeFast senderData timerImpl.timerId
    some ({ stopped with
      monitoredSenders := Function.update self.monitoredSenders timerImpl.senderName
        (if senderData.length = 0 then none else some senderData) }.removeTimer timerImpl.timerId)

/-- The loop over a vanished sender's timers.  Without a result when a timer does not exist any
more. -/
def stopTimers (now : GDateTime) (nowMonotonicUs : Int) :
    List Nat → TimerRegistry κ → Option (TimerRegistry κ)
  | [], self => some self
  -- each timer of the array is removed from the set right after it was stopped
  | timerId :: timerIds, self =>
    match self.findTimer timerId with
    | none => none
    | some timerImpl =>
      stopTimers now nowMonotonicUs timerIds
        ((self.stopTimerImpl ops timerImpl now nowMonotonicUs).removeTimer timerId)

/-- Without a result when the assertion that the sender is watched fails. -/
def senderNameVanishedCb (senderName : Text) (now : GDateTime) (nowMonotonicUs : Int) :
    Option (TimerRegistry κ) :=
  match self.monitoredSenders senderName with
  | none => none
  | some senderData =>
    (stopTimers ops now nowMonotonicUs senderData self).map fun stopped =>
      { stopped with monitoredSenders := Function.update stopped.monitoredSenders senderName none }

def shutdown (now : GDateTime) (nowMonotonicUs : Int) : TimerRegistry κ :=
  let stopped := self.aggregateTimers.foldl
    (fun r timerImpl => r.stopTimerImpl ops timerImpl now nowMonotonicUs) self
  { stopped with aggregateTimers := [], monitoredSenders := fun _ => none }

def saveAggregateTimersToTally (tallyType : EmerTallyType) (datetime : GDateTime)
    (monotonicTimeUs : Int) : TimerRegistry κ :=
  { self with
    aggregateTally := self.aggregateTimers.foldl
      (fun tally timerImpl =>
        -- erroring here does not stop the loop
        match timerImpl.store ops tallyType datetime monotonicTimeUs tally with
        | .error _ => tally
        | .ok tally => tally)
      self.aggregateTally }

def splitAggregateTimers (monotonicTimeUs : Int) : TimerRegistry κ :=
  { self with aggregateTimers := self.aggregateTimers.map (·.split monotonicTimeUs) }

def iterTally (tallyType : EmerTallyType) (datetime : GDateTime) : TimerRegistry κ :=
  { self with aggregateTally := ops.iter self.aggregateTally tallyType datetime }

/-- `now` is read before the month is compared and `rescheduled` when the next tick is set up. -/
def clockTickedMidnightCb (nowMonotonicUs : Int) (now rescheduled : GDateTime) :
    TimerRegistry κ :=
  let date := self.currentAggregateTallyDate
  let daily :=
    (self.saveAggregateTimersToTally ops .dailyEvents date nowMonotonicUs).iterTally
      ops .dailyEvents date
  -- the monthly counters are only stored when the month is over
  let monthly :=
    if monthChanged now date then
      (daily.saveAggregateTimersToTally ops .monthlyEvents date nowMonotonicUs).iterTally
        ops .monthlyEvents date
    else daily
  -- but every timer is split, at the end of a month or not
  { monthly.splitAggregateTimers nowMonotonicUs with currentAggregateTallyDate := rescheduled }

/-- What `on_permissions_changed` does to the timers and the tally. -/
def onPermissionsChanged (daemonEnabled : Bool) : TimerRegistry κ :=
  if daemonEnabled then { self with recordingEnabled := true }
  else
    { self with
      recordingEnabled := false
      aggregateTimers := []
      monitoredSenders := fun _ => none
      aggregateTally := ops.clear self.aggregateTally }

end TimerRegistry

/-! ## 3. The machine -/

inductive TimerEvent where
  | startAggregateTimer (call : StartAggregateTimer)
  | stopTimer (timerId : Nat) (now : GDateTime) (nowMonotonicUs : Int)
  | senderNameVanished (senderName : Text) (now : GDateTime) (nowMonotonicUs : Int)
  | clockTickedMidnight (nowMonotonicUs : Int) (now rescheduled : GDateTime)
  | permissionsChanged (daemonEnabled : Bool)
  | shutdown (now : GDateTime) (nowMonotonicUs : Int)

/-- The daemon after it was constructed on a day. -/
def timerRegistryNew {κ : Type*} (recordingEnabled : Bool) (date : GDateTime) (tally : κ) :
    TimerRegistry κ where
  recordingEnabled := recordingEnabled
  aggregateTimers := []
  monitoredSenders := fun _ => none
  nextTimerId := 0
  currentAggregateTallyDate := date
  aggregateTally := tally

/-- Handle one event.  GDBus delivers no call to a timer that is not exported any more and no
vanishing of a sender that is not watched any more. -/
def handleTimerEvent {κ : Type*} (ops : AggregateTally κ)
    (uuidGenerateSha1 : Bytes → Text → Bytes) (r : TimerRegistry κ) :
    TimerEvent → Option (TimerRegistry κ)
  | .startAggregateTimer call =>
    match r.startAggregateTimer uuidGenerateSha1 call with
    | .error _ => some r
    | .ok (_, started) => some started
  | .stopTimer timerId now nowMonotonicUs =>
    match r.findTimer timerId with
    | none => some r
    | some timerImpl => r.onTimerStoppedCb ops timerImpl now nowMonotonicUs
  | .senderNameVanished senderName now nowMonotonicUs =>
    if (r.monitoredSenders senderName).isNone then some r
    else r.senderNameVanishedCb ops senderName now nowMonotonicUs
  | .clockTickedMidnight nowMonotonicUs now rescheduled =>
    some (r.clockTickedMidnightCb ops nowMonotonicUs now rescheduled)
  | .permissionsChanged daemonEnabled => some (r.onPermissionsChanged ops daemonEnabled)
  | .shutdown now nowMonotonicUs => some (r.shutdown ops now nowMonotonicUs)

/-- A run goes on until an assertion fails. -/
def timerStep {κ : Type*} (ops : AggregateTally κ) (uuidGenerateSha1 : Bytes → Text → Bytes)
    (r : Option (TimerRegistry κ)) (event : TimerEvent) : Option (TimerRegistry κ) :=
  r.bind fun r => handleTimerEvent ops uuidGenerateSha1 r event

end EventRecorder
