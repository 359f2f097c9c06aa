import EventRecorder.Aggregate.Registry
import EventRecorder.Aggregate.TallyIteration
import EventRecorder.Daemon.EventBuffer

/-!
# Aggregates on their way from the tally to the event buffer

At start-up and at midnight the rows of periods that are over become events, and are deleted.  The
callback of these iterations always continues, whether or not the buffer has kept the event, and
the iteration deletes whatever it has visited.
-/

namespace EventRecorder

open Theory EmerAggregateTally

/-! ## 1. The callback -/

/-- The members of `(ayssumv)`. -/
structure AggregateEvent where
  eventId : Bytes
  osVersion : Text
  periodStart : Text
  count : Nat
  payload : Option GVariant
  deriving DecidableEq, Repr

/-- What turns rows into events.  `gVariantNew` makes the variant and `cost` is
`emer_persistent_cache_cost`. -/
structure AggregateParts (ε : Type*) where
  glib : VariantLibrary
  order : ByteOrder
  select : SelectOrder
  osVersion : Text
  gVariantNew : AggregateEvent → ε
  cost : ε → Nat

/-- The tally and the event buffer, with the rows that the iterations have deleted. -/
structure AggregateQueue (ε : Type*) where
  tally : EmerAggregateTally
  buffer : EventBuffer ε
  deleted : List TallyRow

section Handlers

variable {ε : Type*} (parts : AggregateParts ε) (recordingEnabled : Bool)

/-- The event of a row that is handed over. -/
def AggregateParts.event (args : TallyIterArgs) : ε :=
  parts.gVariantNew
    { eventId := args.eventId, osVersion := parts.osVersion, periodStart := args.date,
      count := args.counter, payload := args.payload }

def enqueueAggregateEvent (buffer : EventBuffer ε) (args : TallyIterArgs) : EventBuffer ε :=
  if args.payload.any (·.typeString ≠ gVariantTypeVariant) then buffer
  else if !recordingEnabled then buffer
  else if args.eventId.length ≠ uuidLength then buffer
  else buffer.bufferEvent parts.cost (parts.event args)

def bufferAggregateEventToQueue (buffer : EventBuffer ε) (args : TallyIterArgs) :
    EmerTallyIterResult × EventBuffer ε :=
  (.iterContinue, enqueueAggregateEvent parts recordingEnabled buffer args)

namespace AggregateQueue

/-- An iteration with `EMER_TALLY_ITER_FLAG_DELETE`. -/
def iterate (query : TallyQuery) (tallyType : EmerTallyType) (datetime : GDateTime)
    (queue : AggregateQueue ε) : AggregateQueue ε :=
  let (_, tally, buffer) :=
    query.run parts.glib parts.order (bufferAggregateEventToQueue parts recordingEnabled) true
      parts.select tallyType datetime queue.buffer queue.tally
  ⟨tally, buffer, queue.deleted ++ queue.tally.rows.filter (· ∉ tally.rows)⟩

def bufferPastAggregateEvents (now : GDateTime) (queue : AggregateQueue ε) : AggregateQueue ε :=
  (queue.iterate parts recordingEnabled .iterBefore .dailyEvents now).iterate
    parts recordingEnabled .iterBefore .monthlyEvents now

/-- The tally of the timers, whose iteration fills the buffer. -/
def tallyOps : AggregateTally (AggregateQueue ε) where
  storeEvent queue increment :=
    (queue.tally.storeEvent increment).map fun tally => { queue with tally := tally }
  iter queue tallyType datetime := queue.iterate parts recordingEnabled .iter tallyType datetime
  clear queue := { queue with tally := queue.tally.clear }

end AggregateQueue

end Handlers

/-! ## 2. What the iterations of a handler visit -/

/-- An iteration of a handler, with the counters that are stored right before. -/
structure Sweep where
  saved : List TallyIncrement
  query : TallyQuery
  tallyType : EmerTallyType
  datetime : GDateTime

/-- `buffer_past_aggregate_events`. -/
def pastSweeps (now : GDateTime) : List Sweep :=
  [⟨[], .iterBefore, .dailyEvents, now⟩, ⟨[], .iterBefore, .monthlyEvents, now⟩]

/-- `clock_ticked_midnight_cb`. -/
def midnightSweeps (aggregateTimers : List EmerAggregateTimerImpl) (date : GDateTime)
    (nowMonotonicUs : Int) (now : GDateTime) : List Sweep :=
  let sweep := fun tallyType =>
    ⟨aggregateTimers.map (·.increment tallyType date nowMonotonicUs), .iter, tallyType, date⟩
  if monthChanged now date then [sweep .dailyEvents, sweep .monthlyEvents]
  else [sweep .dailyEvents]

/-- A counter that cannot be stored is warned about only. -/
def EmerAggregateTally.storeAll (tally : EmerAggregateTally) (saved : List TallyIncrement) :
    EmerAggregateTally :=
  saved.foldl (fun tally increment => ((tally.storeEvent increment).toOption).getD tally) tally

def AggregateQueue.sweep {ε : Type*} (parts : AggregateParts ε) (recordingEnabled : Bool)
    (queue : AggregateQueue ε) (sweep : Sweep) : AggregateQueue ε :=
  iterate parts recordingEnabled sweep.query sweep.tallyType sweep.datetime
    { queue with tally := queue.tally.storeAll sweep.saved }

/-- The rows that the iterations visit one after the other. -/
def sweptRows (select : SelectOrder) : List Sweep → EmerAggregateTally → List TallyRow
  | [], _ => []
  | sweep :: sweeps, tally =>
    let stored := tally.storeAll sweep.saved
    let rows := sweep.query.matching select sweep.tallyType sweep.datetime stored
    rows ++ sweptRows select sweeps ⟨stored.rows.filter (· ∉ rows)⟩

/-- The buffer has room for all of the costs, one after the other. -/
def RoomForAll (maxBytesBuffered : Nat) : Nat → List Nat → Prop
  | _, [] => True
  | numBytesBuffered, cost :: costs =>
    cost ≤ maxRequestPayload ∧ (numBytesBuffered + cost) % 2 ^ 64 ≤ maxBytesBuffered ∧
      RoomForAll maxBytesBuffered ((numBytesBuffered + cost) % 2 ^ 64) costs

/-- The deleted rows are those whose events were appended, each once; a row whose event is not among
these has not been deleted. -/
def SafelyQueued {ε : Type*} (parts : AggregateParts ε) (before after : AggregateQueue ε) : Prop :=
  ∃ queued : List TallyRow, queued.Perm after.deleted ∧
    after.buffer.variantArray =
      before.buffer.variantArray ++
        queued.map fun row => parts.event (rowArgs parts.glib parts.order row)

/-! ## 3. The buffer -/

namespace EventBuffer

variable {ε : Type*} {cost : ε → Nat}

theorem accepts_iff_roomForAll (buffer : EventBuffer ε) (event : ε) (events : List ε) :
    RoomForAll buffer.maxBytesBuffered buffer.numBytesBuffered ((event :: events).map cost) ↔
      buffer.accepts cost event ∧
        RoomForAll (buffer.bufferEvent cost event).maxBytesBuffered
          (buffer.bufferEvent cost event).numBytesBuffered (events.map cost) := by
  rw [List.map_cons, RoomForAll, accepts, and_assoc]
  apply and_congr_right
  intro hsmall
  apply and_congr_right
  intro hroom
  rw [bufferEvent, if_neg (by omega)]

/-- What the buffer keeps of events is in order, and all of them exactly when there is room. -/
theorem foldl_bufferEvent (events : List ε) (buffer : EventBuffer ε) :
    ∃ kept : List ε, kept.Sublist events ∧
      (events.foldl (·.bufferEvent cost ·) buffer).variantArray = buffer.variantArray ++ kept ∧
      (kept.length = events.length ↔
        RoomForAll buffer.maxBytesBuffered buffer.numBytesBuffered (events.map cost)) := by
  induction events generalizing buffer with
  | nil =>
    refine ⟨[], List.Sublist.refl _, ?_, iff_of_true rfl trivial⟩
    rw [List.append_nil]
    rfl
  | cons event events ih =>
    obtain ⟨kept, hsublist, hkept, hroom⟩ := ih (buffer.bufferEvent cost event)
    rw [variantArray_bufferEvent] at hkept
    rw [accepts_iff_roomForAll, List.foldl_cons]
    by_cases haccepts : buffer.accepts cost event
    · rw [if_pos haccepts] at hkept
      refine ⟨event :: kept, hsublist.cons_cons event, ?_, ?_⟩
      · rw [hkept, List.append_assoc]
        rfl
      · rw [List.length_cons, List.length_cons, Nat.add_right_cancel_iff, hroom]
        exact (and_iff_right haccepts).symm
    · rw [if_neg haccepts] at hkept
      refine ⟨kept, hsublist.cons event, hkept, ?_⟩
      apply iff_of_false
      · have hle := hsublist.length_le
        rw [List.length_cons]
        omega
      · exact fun h => haccepts h.1

end EventBuffer

/-! ## 4. One iteration -/

/-- Swapping the bytes of a variant keeps its type. -/
def SwapKeepsType (glib : VariantLibrary) : Prop :=
  ∀ variant, (glib.byteswap variant).typeString = variant.typeString

section Iterate

variable {ε : Type*} {parts : AggregateParts ε} (hswap : SwapKeepsType parts.glib)

include hswap

/-- No row is turned away before the buffer is asked. -/
theorem enqueueAggregateEvent_rowArgs (buffer : EventBuffer ε) (row : TallyRow) :
    enqueueAggregateEvent parts true buffer (rowArgs parts.glib parts.order row) =
      buffer.bufferEvent parts.cost (parts.event (rowArgs parts.glib parts.order row)) := by
  have hpayload : (rowArgs parts.glib parts.order row).payload.any
      (·.typeString ≠ gVariantTypeVariant) = false := by
    show (columnToVariant parts.glib parts.order row.key.payload).any _ = false
    unfold columnToVariant
    split
    · rfl
    · cases horder : parts.order with
      | little => rfl
      | big => simp [swapBytesIfBigEndian, hswap ⟨gVariantTypeVariant, row.key.payload⟩]
  have hevent : (rowArgs parts.glib parts.order row).eventId.length = uuidLength := by
    show (columnToUuid row.key.eventId).length = uuidLength
    unfold columnToUuid
    split
    · assumption
    · exact List.length_replicate
  rw [enqueueAggregateEvent, hpayload, if_neg Bool.false_ne_true, if_neg (by decide),
    if_neg (not_not.mpr hevent)]

theorem foldl_afterRow_buffer (rows : List TallyRow) (buffer : EventBuffer ε) :
    rows.foldl (afterRow parts.glib parts.order (bufferAggregateEventToQueue parts true)) buffer =
      (rows.map fun row => parts.event (rowArgs parts.glib parts.order row)).foldl
        (·.bufferEvent parts.cost ·) buffer := by
  rw [List.foldl_map]
  congr 1
  funext buffer row
  exact enqueueAggregateEvent_rowArgs hswap buffer row

/-- An iteration takes the rows that match out of the table and puts them before the buffer. -/
theorem AggregateQueue.iterate_eq (query : TallyQuery) (tallyType : EmerTallyType)
    (datetime : GDateTime) {queue : AggregateQueue ε} (hids : queue.tally.HasRowIds) :
    let rows := query.matching parts.select tallyType datetime queue.tally
    (queue.iterate parts true query tallyType datetime).tally =
        ⟨queue.tally.rows.filter (· ∉ rows)⟩ ∧
      (queue.iterate parts true query tallyType datetime).buffer =
        (rows.map fun row => parts.event (rowArgs parts.glib parts.order row)).foldl
          (·.bufferEvent parts.cost ·) queue.buffer ∧
      (queue.iterate parts true query tallyType datetime).deleted.Perm (queue.deleted ++ rows) := by
  dsimp only
  have hmem : ∀ row ∈ query.matching parts.select tallyType datetime queue.tally,
      row ∈ queue.tally.rows := fun row hrow => TallyQuery.mem_of_matching hrow
  have hnodup : queue.tally.rows.Nodup := List.Nodup.of_map _ hids
  have hmatching : (query.matching parts.select tallyType datetime queue.tally).Nodup :=
    (parts.select.perm _).nodup_iff.mpr (hnodup.filter _)
  -- the callback never stops
  have hvisited : ∀ (rows : List TallyRow) (buffer : EventBuffer ε),
      NeverStops parts.glib parts.order (bufferAggregateEventToQueue parts true) rows buffer ∧
        visitedRows parts.glib parts.order (bufferAggregateEventToQueue parts true) rows buffer =
          rows := by
    intro rows
    induction rows with
    | nil => exact fun _ => ⟨trivial, rfl⟩
    | cons row rows ih =>
      intro buffer
      have hcontinue : ¬ StopsAt parts.glib parts.order (bufferAggregateEventToQueue parts true)
          buffer row := EmerTallyIterResult.noConfusion
      obtain ⟨hnever, hrows⟩ := ih (afterRow parts.glib parts.order
        (bufferAggregateEventToQueue parts true) buffer row)
      refine ⟨⟨hcontinue, hnever⟩, ?_⟩
      rw [visitedRows, if_neg hcontinue, hrows]
  have hrun : query.run parts.glib parts.order (bufferAggregateEventToQueue parts true) true
      parts.select tallyType datetime queue.buffer queue.tally =
        (none, ⟨queue.tally.rows.filter
            (· ∉ query.matching parts.select tallyType datetime queue.tally)⟩,
          ((query.matching parts.select tallyType datetime queue.tally).map fun row =>
            parts.event (rowArgs parts.glib parts.order row)).foldl
            (·.bufferEvent parts.cost ·) queue.buffer) := by
    rw [TallyQuery.run_eq]
    dsimp only
    rw [if_neg (not_not.mpr (iterRows_ret _ _ |>.mpr (hvisited _ _).1)), iterRows_rowsToDelete,
      iterRows_state, (hvisited _ _).2, hids.filter_eq true hmem, foldl_afterRow_buffer hswap]
    simp
  rw [AggregateQueue.iterate, hrun]
  refine ⟨rfl, rfl, ?_⟩
  apply List.Perm.append_left
  apply (List.perm_ext_iff_of_nodup (hnodup.filter _) hmatching).mpr
  intro row
  rw [List.mem_filter, decide_eq_true_eq, List.mem_filter, decide_eq_true_eq]
  constructor
  · intro h
    exact not_not.mp fun hrow => h.2 ⟨h.1, hrow⟩
  · intro h
    exact ⟨hmem row h, fun hkept => hkept.2 h⟩

/-! ## 5. The handlers -/

omit hswap in
theorem EmerAggregateTally.HasRowIds.storeAll {tally : EmerAggregateTally}
    (hids : tally.HasRowIds) (saved : List TallyIncrement) : (tally.storeAll saved).HasRowIds := by
  induction saved generalizing tally with
  | nil => exact hids
  | cons increment saved ih =>
    apply ih
    dsimp only
    cases hstored : tally.storeEvent increment with
    | error e => exact hids
    | ok stored => exact hids.storeEvent hstored

/-- **Run lemma.**  The sweeps put what they visit before the buffer, and delete it. -/
theorem AggregateQueue.foldl_sweep (sweeps : List Sweep) {queue : AggregateQueue ε}
    (hids : queue.tally.HasRowIds) :
    let rows := sweptRows parts.select sweeps queue.tally
    (sweeps.foldl (sweep parts true) queue).buffer =
        (rows.map fun row => parts.event (rowArgs parts.glib parts.order row)).foldl
          (·.bufferEvent parts.cost ·) queue.buffer ∧
      (sweeps.foldl (sweep parts true) queue).deleted.Perm (queue.deleted ++ rows) := by
  dsimp only
  induction sweeps generalizing queue with
  | nil =>
    rw [sweptRows, List.append_nil]
    exact ⟨rfl, List.Perm.refl _⟩
  | cons next sweeps ih =>
    have hstored := hids.storeAll next.saved
    obtain ⟨htally, hbuffer, hdeleted⟩ := @iterate_eq _ parts hswap next.query next.tallyType
      next.datetime { queue with tally := queue.tally.storeAll next.saved } hstored
    have hkept : (queue.sweep parts true next).tally.HasRowIds := by
      rw [sweep, htally]
      exact hstored.filter _
    obtain ⟨hrest, hrestDeleted⟩ := ih hkept
    rw [List.foldl_cons, sweptRows]
    constructor
    · rw [hrest, List.map_append, List.foldl_append, sweep, hbuffer, htally]
    · apply hrestDeleted.trans
      rw [sweep, htally, ← List.append_assoc]
      exact hdeleted.append_right _

/-- Sweeps delete only what is queued exactly when the buffer has room for all that they visit. -/
theorem AggregateQueue.safelyQueued_sweep (sweeps : List Sweep) {tally : EmerAggregateTally}
    (hids : tally.HasRowIds) (buffer : EventBuffer ε) :
    SafelyQueued parts ⟨tally, buffer, []⟩ (sweeps.foldl (sweep parts true) ⟨tally, buffer, []⟩) ↔
      RoomForAll buffer.maxBytesBuffered buffer.numBytesBuffered
        ((sweptRows parts.select sweeps tally).map fun row =>
          parts.cost (parts.event (rowArgs parts.glib parts.order row))) := by
  obtain ⟨hbuffer, hdeleted⟩ := @foldl_sweep _ parts hswap sweeps ⟨tally, buffer, []⟩ hids
  rw [List.nil_append] at hdeleted
  obtain ⟨kept, hsublist, hkept, hroom⟩ := @EventBuffer.foldl_bufferEvent _ parts.cost
    ((sweptRows parts.select sweeps tally).map fun row =>
      parts.event (rowArgs parts.glib parts.order row)) buffer
  rw [List.map_map] at hroom
  apply Iff.trans _ hroom
  rw [SafelyQueued, hbuffer, hkept]
  constructor
  · intro h
    obtain ⟨queued, hperm, happended⟩ := h
    have hlength := congrArg List.length (List.append_cancel_left happended)
    rw [hlength, List.length_map, List.length_map, (hperm.trans hdeleted).length_eq]
  · intro hlength
    refine ⟨sweptRows parts.select sweeps tally, hdeleted.symm, ?_⟩
    rw [hsublist.eq_of_length hlength]

omit hswap in
theorem AggregateQueue.bufferPastAggregateEvents_eq (now : GDateTime)
    (queue : AggregateQueue ε) :
    queue.bufferPastAggregateEvents parts true now =
      (pastSweeps now).foldl (sweep parts true) queue := rfl

omit hswap in
theorem AggregateQueue.tallyAfterSave_eq (tallyType : EmerTallyType) (date : GDateTime)
    (mono : Int) (timers : List EmerAggregateTimerImpl) (queue : AggregateQueue ε) :
    TimerRegistry.tallyAfterSave (tallyOps parts true) tallyType date mono timers queue =
      { queue with
        tally := queue.tally.storeAll (timers.map (·.increment tallyType date mono)) } := by
  induction timers generalizing queue with
  | nil => rfl
  | cons timer timers ih =>
    rw [TimerRegistry.tallyAfterSave, List.foldl_cons]
    show TimerRegistry.tallyAfterSave (tallyOps parts true) tallyType date mono timers _ = _
    rw [ih, EmerAggregateTimerImpl.store, tallyOps]
    dsimp only
    rw [List.map_cons, storeAll, storeAll, List.foldl_cons]
    cases hstored : queue.tally.storeEvent (timer.increment tallyType date mono) with
    | error e => rfl
    | ok stored => rfl

omit hswap in
theorem AggregateQueue.clockTickedMidnightCb_eq (registry : TimerRegistry (AggregateQueue ε))
    (mono : Int) (now rescheduled : GDateTime) :
    (registry.clockTickedMidnightCb (tallyOps parts true) mono now rescheduled).aggregateTally =
      (midnightSweeps registry.aggregateTimers registry.currentAggregateTallyDate mono now).foldl
        (sweep parts true) registry.aggregateTally := by
  rw [TimerRegistry.clockTickedMidnightCb_eq, midnightSweeps]
  dsimp only
  split
  · rw [tallyAfterSave_eq, tallyAfterSave_eq]
    rfl
  · rw [tallyAfterSave_eq]
    rfl

/-- **The handlers delete only rows whose events are queued exactly when the buffer has room for
the events of all rows that they visit.** -/
theorem handlers_safelyQueued_iff {tally : EmerAggregateTally} (hids : tally.HasRowIds)
    (buffer : EventBuffer ε) (now : GDateTime) :
    (SafelyQueued parts ⟨tally, buffer, []⟩
        (AggregateQueue.bufferPastAggregateEvents parts true now ⟨tally, buffer, []⟩) ↔
      RoomForAll buffer.maxBytesBuffered buffer.numBytesBuffered
        ((sweptRows parts.select (pastSweeps now) tally).map fun row =>
          parts.cost (parts.event (rowArgs parts.glib parts.order row)))) ∧
    ∀ (registry : TimerRegistry (AggregateQueue ε)) (mono : Int) (rescheduled : GDateTime),
      registry.aggregateTally = ⟨tally, buffer, []⟩ →
      (SafelyQueued parts ⟨tally, buffer, []⟩
          (registry.clockTickedMidnightCb (AggregateQueue.tallyOps parts true) mono now
            rescheduled).aggregateTally ↔
        RoomForAll buffer.maxBytesBuffered buffer.numBytesBuffered
          ((sweptRows parts.select (midnightSweeps registry.aggregateTimers
              registry.currentAggregateTallyDate mono now) tally).map fun row =>
            parts.cost (parts.event (rowArgs parts.glib parts.order row)))) := by
  constructor
  · rw [AggregateQueue.bufferPastAggregateEvents_eq]
    exact AggregateQueue.safelyQueued_sweep hswap _ hids buffer
  · intro registry mono rescheduled hqueue
    rw [AggregateQueue.clockTickedMidnightCb_eq, hqueue]
    exact AggregateQueue.safelyQueued_sweep hswap _ hids buffer

end Iterate

/-- Events that cost 60 bytes each. -/
def sixtyByteEvents : AggregateParts AggregateEvent where
  glib := unswappedVariants
  order := .little
  select := .byRowId
  osVersion := "eos".toList
  gVariantNew event := event
  cost _ := 60

/-- Two rows of a day that is over, before a buffer of a size. -/
def twoPastRows (maxBytesBuffered : Nat) : AggregateQueue AggregateEvent where
  tally :=
    ⟨[⟨1, ⟨"2021-09-22".toList, List.replicate 16 7, 1001, []⟩, .integer 5⟩,
      ⟨2, ⟨"2021-09-22".toList, List.replicate 16 8, 1001, []⟩, .integer 6⟩]⟩
  buffer := ⟨[], 0, maxBytesBuffered, false⟩
  deleted := []

/-- The buffer has room for one of the two events, and both rows are deleted. -/
theorem twoPastRows_not_safelyQueued :
    ¬ SafelyQueued sixtyByteEvents (twoPastRows 100)
      ((twoPastRows 100).bufferPastAggregateEvents sixtyByteEvents true ⟨2021, 9, 23⟩) := by
  intro h
  obtain ⟨queued, hperm, happended⟩ := h
  have hlength := congrArg List.length happended
  rw [List.length_append, List.length_map, hperm.length_eq] at hlength
  exact absurd hlength (by decide)

theorem handlers_safelyQueued_iff_twoPastRows :
    SafelyQueued sixtyByteEvents (twoPastRows 120)
      ((twoPastRows 120).bufferPastAggregateEvents sixtyByteEvents true ⟨2021, 9, 23⟩) :=
  (@handlers_safelyQueued_iff _ sixtyByteEvents (fun _ => rfl) (twoPastRows 120).tally
    (by unfold HasRowIds; decide) (twoPastRows 120).buffer ⟨2021, 9, 23⟩).1.mpr
    ⟨by decide, by decide, by decide, by decide, trivial⟩

end EventRecorder
