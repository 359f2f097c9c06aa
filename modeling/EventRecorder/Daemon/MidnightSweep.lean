import EventRecorder.Aggregate.MonthlyDaily
import EventRecorder.Aggregate.Periods
import EventRecorder.Daemon.AggregateQueue

/-!
# What a midnight leaves behind

A midnight sweeps the rows of the date that was remembered when it was scheduled, while a timer that
stops stores its rows under the date of the clock.  The two differ once the clock has jumped, and
rows of the date in between stay until the daemon starts anew.
-/

namespace EventRecorder

open Theory TimerRegistry EmerAggregateTally

/-! ## 1. Runs and the dates of what they store -/

/-- The tally has no row for a period before that of `now`. -/
def NoPastRows (now : GDateTime) (tally : EmerAggregateTally) : Prop :=
  ∀ row ∈ tally.rows, ∀ (tallyType : EmerTallyType) (stored : GDateTime),
    row.key.date = formatDatetimeForTallyType stored tallyType → ¬ tallyType.Before stored now

/-- What a timer that stops stores counters for. -/
def storesOf (now : GDateTime) : List (EmerTallyType × GDateTime) :=
  [(.dailyEvents, now), (.monthlyEvents, now)]

/-- The date under which an event stops timers, if it stops any. -/
def TimerRegistry.stopDate {κ : Type*} (self : TimerRegistry κ) : TimerEvent → Option GDateTime
  | .stopTimer timerId now _ => if (self.findTimer timerId).isSome then some now else none
  | .senderNameVanished senderName now _ =>
    if (self.monitoredSenders senderName).isSome then some now else none
  | .shutdown now _ => if self.aggregateTimers = [] then none else some now
  | _ => none

/-- A tick takes the periods of its remembered date, the month only when it is over. -/
def TimerRegistry.Sweeps {κ : Type*} (self : TimerRegistry κ) (now : GDateTime)
    (stored : EmerTallyType × GDateTime) : Prop :=
  stored.1.SamePeriod stored.2 self.currentAggregateTallyDate ∧
    (stored.1 = .monthlyEvents → monthChanged now self.currentAggregateTallyDate = true)

instance {κ : Type*} (self : TimerRegistry κ) (now : GDateTime)
    (stored : EmerTallyType × GDateTime) : Decidable (self.Sweeps now stored) :=
  inferInstanceAs (Decidable (_ ∧ (_ → _)))

/-- A run of the registry over the tally and the event buffer, beside the dates of stops that no
tick has taken since. -/
structure SweepTrace (ε : Type*) where
  registry : Option (TimerRegistry (AggregateQueue ε))
  unswept : List (EmerTallyType × GDateTime)

namespace SweepTrace

variable {ε : Type*} (parts : AggregateParts ε) (sha1 : Bytes → Text → Bytes)

/-- The dates that are left after an event. -/
def leave (registry : TimerRegistry (AggregateQueue ε))
    (unswept : List (EmerTallyType × GDateTime)) (event : TimerEvent) :
    List (EmerTallyType × GDateTime) :=
  match event with
  | .clockTickedMidnight _ now _ => unswept.filter fun stored => ¬ registry.Sweeps now stored
  | event => unswept ++ ((registry.stopDate event).map storesOf).getD []

def step (trace : SweepTrace ε) (event : TimerEvent) : SweepTrace ε where
  registry := timerStep (AggregateQueue.tallyOps parts true) sha1 trace.registry event
  unswept := (trace.registry.map fun registry => leave registry trace.unswept event).getD
    trace.unswept

/-- A daemon that starts over an empty tally. -/
def start (date : GDateTime) (buffer : EventBuffer ε) : SweepTrace ε :=
  ⟨some (timerRegistryNew true date ⟨⟨[]⟩, buffer, []⟩), []⟩

end SweepTrace

/-- What D-Bus delivers while recording is enabled: a payload is of the type in the interface. -/
def TimerEvent.WhileRecording : TimerEvent → Prop
  | .startAggregateTimer call => call.payload.typeString = gVariantTypeVariant
  | .permissionsChanged _ => False
  | _ => True

/-! ## 2. The dates in the table -/

/-- The table has a row of the date. -/
def EmerAggregateTally.HasDate (tally : EmerAggregateTally) (date : Text) : Prop :=
  ∃ row ∈ tally.rows, row.key.date = date

/-- The rows of a date, in their order. -/
def EmerAggregateTally.rowsOf (tally : EmerAggregateTally) (date : Text) : List TallyRow :=
  tally.rows.filter (·.key.date = date)

/-- What a timer needs for its counters to be stored. -/
structure EmerAggregateTimerImpl.IsStorable (timerImpl : EmerAggregateTimerImpl) : Prop where
  eventId_length : timerImpl.eventId.length = uuidLength
  monthlyEventId_length : timerImpl.monthlyEventId.length = uuidLength
  payload_type : ∀ payload ∈ timerImpl.payload, payload.typeString = gVariantTypeVariant

theorem hasDate_upsert (id : Nat) (key : TallyKey) (counter : SqlNumber) (rows : List TallyRow)
    (date : Text) :
    EmerAggregateTally.HasDate ⟨upsert id key counter rows⟩ date ↔
      EmerAggregateTally.HasDate ⟨rows⟩ date ∨ key.date = date := by
  have hmap : ∀ rows : List TallyRow, EmerAggregateTally.HasDate ⟨rows⟩ date ↔
      ∃ key ∈ rows.map (·.key), key.date = date := by
    intro rows
    simp [HasDate]
  rw [hmap, hmap]
  simp only [mem_map_key_upsert]
  constructor
  · intro h
    obtain ⟨found, hfound, hdate⟩ := h
    cases hfound with
    | inl hold => exact .inl ⟨found, hold, hdate⟩
    | inr hnew => exact .inr (hnew ▸ hdate)
  · intro h
    cases h with
    | inl hold =>
      obtain ⟨found, hfound, hdate⟩ := hold
      exact ⟨found, .inl hfound, hdate⟩
    | inr hnew => exact ⟨key, .inr rfl, hnew⟩

/-- A call with an event ID and a payload of the right types is stored. -/
theorem exists_storeEvent_eq {increment : TallyIncrement}
    (hevent : increment.eventId.length = uuidLength)
    (hpayload : ∀ payload ∈ increment.payload, payload.typeString = gVariantTypeVariant)
    {tally : EmerAggregateTally} (hids : tally.HasRowIds) :
    ∃ stored, tally.storeEvent increment = .ok stored ∧ stored.HasRowIds ∧
      ∀ date, stored.HasDate date ↔ tally.HasDate date ∨ increment.key.date = date := by
  have htype : increment.payload.any (·.typeString ≠ gVariantTypeVariant) = false := by
    cases hp : increment.payload with
    | none => rfl
    | some payload => simp [hpayload payload hp]
  have hstored : tally.storeEvent increment =
      .ok ⟨upsert (nextRowId tally.rows) increment.key (.integer increment.counter)
        tally.rows⟩ := by
    rw [EmerAggregateTally.storeEvent, htype, if_neg Bool.false_ne_true,
      if_neg (not_not.mpr hevent)]
  exact ⟨_, hstored, hids.storeEvent hstored, hasDate_upsert _ _ _ _⟩

theorem hasDate_iff_rowsOf (tally : EmerAggregateTally) (date : Text) :
    tally.HasDate date ↔ tally.rowsOf date ≠ [] := by
  rw [rowsOf, ne_eq, List.filter_eq_nil_iff]
  simp [HasDate]

/-- Counting a call changes no row of another date. -/
theorem rowsOf_upsert_of_ne {key : TallyKey} {date : Text} (hne : key.date ≠ date) (id : Nat)
    (counter : SqlNumber) (rows : List TallyRow) :
    EmerAggregateTally.rowsOf ⟨upsert id key counter rows⟩ date =
      EmerAggregateTally.rowsOf ⟨rows⟩ date := by
  unfold rowsOf
  induction rows with
  | nil => simp [upsert, hne]
  | cons row rows ih =>
    rw [upsert]
    split
    · rename_i hkey
      have hrow : row.key.date ≠ date := by rwa [hkey]
      simp [hrow]
    · rw [List.filter_cons, List.filter_cons, ih]

/-- Whatever becomes of a call, no row of another date does. -/
theorem rowsOf_storeAll_of_ne {date : Text} {saved : List TallyIncrement}
    (hne : ∀ increment ∈ saved, increment.key.date ≠ date) (tally : EmerAggregateTally) :
    (tally.storeAll saved).rowsOf date = tally.rowsOf date := by
  induction saved generalizing tally with
  | nil => rfl
  | cons increment saved ih =>
    rw [storeAll, List.foldl_cons]
    apply (ih (fun i hi => hne i (List.mem_cons_of_mem _ hi)) _).trans
    unfold EmerAggregateTally.storeEvent
    split
    · rfl
    · split
      · rfl
      · exact rowsOf_upsert_of_ne (hne increment List.mem_cons_self) _ _ _

section Stops

variable {ε : Type*} {parts : AggregateParts ε}

theorem hasDate_stop {t : EmerAggregateTimerImpl} (ht : t.IsStorable) (now : GDateTime)
    (mono : Int) {queue : AggregateQueue ε} (hids : queue.tally.HasRowIds) :
    ((t.stop (AggregateQueue.tallyOps parts true) now mono queue).2.tally).HasRowIds ∧
      ∀ date, ((t.stop (AggregateQueue.tallyOps parts true) now mono queue).2.tally).HasDate date ↔
        queue.tally.HasDate date ∨
          ∃ stored ∈ storesOf now, formatDatetimeForTallyType stored.2 stored.1 = date := by
  obtain ⟨daily, hdaily, hdailyIds, hdailyDates⟩ :=
    @exists_storeEvent_eq (t.increment .dailyEvents now mono) ht.eventId_length ht.payload_type _
      hids
  obtain ⟨monthly, hmonthly, hmonthlyIds, hmonthlyDates⟩ :=
    @exists_storeEvent_eq (t.increment .monthlyEvents now mono) ht.monthlyEventId_length
      ht.payload_type _ hdailyIds
  have hstop : (t.stop (AggregateQueue.tallyOps parts true) now mono queue).2 =
      { queue with tally := monthly } := by
    simp only [EmerAggregateTimerImpl.stop, AggregateQueue.tallyOps, hdaily, hmonthly, Except.map]
  rw [hstop]
  refine ⟨hmonthlyIds, fun date => ?_⟩
  show monthly.HasDate date ↔ _
  rw [hmonthlyDates, hdailyDates, storesOf, or_assoc]
  simp only [List.mem_cons, List.not_mem_nil, or_false, exists_eq_or_imp, exists_eq_left]
  rfl

theorem hasDate_tallyAfterStops {timers : List EmerAggregateTimerImpl} (hne : timers ≠ [])
    (htimers : ∀ t ∈ timers, t.IsStorable) (now : GDateTime) (mono : Int)
    {queue : AggregateQueue ε} (hids : queue.tally.HasRowIds) :
    (tallyAfterStops (AggregateQueue.tallyOps parts true) now mono timers queue).tally.HasRowIds ∧
      ∀ date, (tallyAfterStops (AggregateQueue.tallyOps parts true) now mono timers
          queue).tally.HasDate date ↔
        queue.tally.HasDate date ∨
          ∃ stored ∈ storesOf now, formatDatetimeForTallyType stored.2 stored.1 = date := by
  induction timers generalizing queue with
  | nil => exact absurd rfl hne
  | cons t timers ih =>
    obtain ⟨hstopIds, hstopDates⟩ :=
      @hasDate_stop _ parts _ (htimers t List.mem_cons_self) now mono _ hids
    rw [tallyAfterStops, List.foldl_cons]
    by_cases hlast : timers = []
    · rw [hlast]
      exact ⟨hstopIds, hstopDates⟩
    · obtain ⟨hrestIds, hrestDates⟩ :=
        ih hlast (fun u hu => htimers u (List.mem_cons_of_mem _ hu)) hstopIds
      refine ⟨hrestIds, fun date => ?_⟩
      -- the timers that follow store under the same dates
      apply (hrestDates date).trans
      rw [hstopDates, or_assoc, or_self]

end Stops

/-! ## 3. One event -/

section Run

variable {ε : Type*} {parts : AggregateParts ε} (hswap : SwapKeepsType parts.glib)

include hswap

/-- A sweep stores counters for the period that it then takes out of the table, and leaves the rows
of every other date as they are. -/
theorem rowsOf_sweep {queue : AggregateQueue ε} (hids : queue.tally.HasRowIds)
    {saved : List TallyIncrement} {tallyType : EmerTallyType} {datetime : GDateTime}
    (hsaved : ∀ increment ∈ saved,
      increment.key.date = formatDatetimeForTallyType datetime tallyType) :
    (queue.sweep parts true ⟨saved, .iter, tallyType, datetime⟩).tally.HasRowIds ∧
      ∀ date, (queue.sweep parts true ⟨saved, .iter, tallyType, datetime⟩).tally.rowsOf date =
        if formatDatetimeForTallyType datetime tallyType = date then []
        else queue.tally.rowsOf date := by
  have hstored := hids.storeAll saved
  have htally := (@AggregateQueue.iterate_eq _ parts hswap .iter tallyType datetime
    { queue with tally := queue.tally.storeAll saved } hstored).1
  rw [AggregateQueue.sweep, htally]
  refine ⟨hstored.filter _, fun date => ?_⟩
  have hmatching : ∀ row ∈ (queue.tally.storeAll saved).rows,
      row ∈ TallyQuery.iter.matching parts.select tallyType datetime (queue.tally.storeAll saved) ↔
        row.key.date = formatDatetimeForTallyType datetime tallyType := by
    intro row hrow
    rw [TallyQuery.matching, (parts.select.perm _).mem_iff, List.mem_filter, and_iff_right hrow,
      TallyQuery.selects, decide_eq_true_eq]
  by_cases hswept : formatDatetimeForTallyType datetime tallyType = date
  · rw [if_pos hswept, rowsOf, List.filter_eq_nil_iff]
    intro row hrow hdate
    obtain ⟨hrow, hkept⟩ := List.mem_filter.mp hrow
    rw [decide_eq_true_eq, hmatching row hrow] at hkept
    exact hkept ((of_decide_eq_true hdate).trans hswept.symm)
  · have hother : ∀ increment ∈ saved, increment.key.date ≠ date := by
      intro increment hincrement
      rwa [hsaved increment hincrement]
    rw [if_neg hswept, ← rowsOf_storeAll_of_ne hother queue.tally, rowsOf, rowsOf,
      List.filter_filter]
    apply List.filter_congr
    intro row hrow
    rw [← Bool.decide_and, decide_eq_decide, and_iff_left_iff_imp, hmatching row hrow]
    intro hdate hsame
    exact hswept (hsame.symm.trans hdate)

/-- A tick takes the rows of the periods that it sweeps, and leaves the others as they are. -/
theorem rowsOf_clockTickedMidnightCb {registry : TimerRegistry (AggregateQueue ε)}
    (hids : registry.aggregateTally.tally.HasRowIds) (mono : Int) (now rescheduled : GDateTime) :
    let next :=
      registry.clockTickedMidnightCb (AggregateQueue.tallyOps parts true) mono now rescheduled
    next.aggregateTally.tally.HasRowIds ∧
      ∀ date, next.aggregateTally.tally.rowsOf date =
        if formatDatetimeForTallyType registry.currentAggregateTallyDate .dailyEvents = date ∨
          monthChanged now registry.currentAggregateTallyDate = true ∧
            formatDatetimeForTallyType registry.currentAggregateTallyDate .monthlyEvents = date
        then []
        else registry.aggregateTally.tally.rowsOf date := by
  have hsaved : ∀ tallyType, ∀ increment ∈ registry.aggregateTimers.map
      (·.increment tallyType registry.currentAggregateTallyDate mono),
      increment.key.date =
        formatDatetimeForTallyType registry.currentAggregateTallyDate tallyType := by
    intro tallyType increment hmem
    obtain ⟨t, -, rfl⟩ := List.mem_map.mp hmem
    rfl
  obtain ⟨hdailyIds, hdaily⟩ := rowsOf_sweep hswap hids (hsaved .dailyEvents)
  obtain ⟨hmonthlyIds, hmonthly⟩ := rowsOf_sweep hswap hdailyIds (hsaved .monthlyEvents)
  dsimp only
  rw [AggregateQueue.clockTickedMidnightCb_eq, midnightSweeps]
  split
  · rename_i hchanged
    refine ⟨hmonthlyIds, fun date => (hmonthly date).trans ?_⟩
    rw [hdaily]
    split
    · simp [*]
    · simp [*]
  · rename_i hchanged
    refine ⟨hdailyIds, fun date => (hdaily date).trans ?_⟩
    simp [hchanged]

omit hswap in
/-- A start that is not refused adds a timer with an event ID and a payload of the right types. -/
theorem storable_of_start {registry started : TimerRegistry (AggregateQueue ε)}
    {sha1 : Bytes → Text → Bytes} (hsha1 : ∀ eventId name, (sha1 eventId name).length = uuidLength)
    {call : StartAggregateTimer} (hpayload : call.payload.typeString = gVariantTypeVariant)
    {path : String} (hstart : registry.startAggregateTimer sha1 call = .ok (path, started)) :
    ∀ t ∈ started.aggregateTimers, t ∈ registry.aggregateTimers ∨ t.IsStorable := by
  unfold TimerRegistry.startAggregateTimer at hstart
  split at hstart
  · cases hstart
  split at hstart
  · cases hstart
  rename_i huuid
  split at hstart
  · cases hstart
  cases hstart
  intro t ht
  cases List.mem_append.mp ht with
  | inl hold => exact .inl hold
  | inr hnew =>
    rw [List.mem_singleton.mp hnew]
    have hevent : isUuid call.eventId = true := by simpa using huuid
    rw [isUuid, decide_eq_true_eq] at hevent
    refine .inr ⟨hevent.2, hsha1 _ _, ?_⟩
    intro payload hmem
    dsimp only [getNullablePayload] at hmem
    split at hmem
    · cases hmem
      exact hpayload
    · cases hmem

/-- The dates in the table are those that the stops have left. -/
structure SweepTrace.Holds (registry : TimerRegistry (AggregateQueue ε))
    (unswept : List (EmerTallyType × GDateTime)) : Prop where
  consistent : registry.Consistent
  storable : ∀ t ∈ registry.aggregateTimers, t.IsStorable
  rowIds : registry.aggregateTally.tally.HasRowIds
  dates : ∀ date, registry.aggregateTally.tally.HasDate date ↔
    ∃ stored ∈ unswept, formatDatetimeForTallyType stored.2 stored.1 = date

namespace SweepTrace.Holds

variable {registry : TimerRegistry (AggregateQueue ε)}
  {unswept : List (EmerTallyType × GDateTime)}

omit hswap

theorem afterStops (h : Holds registry unswept) {timers : List EmerAggregateTimerImpl}
    (hne : timers ≠ []) (hmem : ∀ t ∈ timers, t ∈ registry.aggregateTimers) {now : GDateTime}
    {mono : Int} {next : TimerRegistry (AggregateQueue ε)} (hconsistent : next.Consistent)
    (htimers : ∀ t ∈ next.aggregateTimers, t ∈ registry.aggregateTimers)
    (htally : next.aggregateTally =
      tallyAfterStops (AggregateQueue.tallyOps parts true) now mono timers
        registry.aggregateTally) : Holds next (unswept ++ storesOf now) := by
  obtain ⟨hids, hdates⟩ := @hasDate_tallyAfterStops _ parts _ hne
    (fun t ht => h.storable t (hmem t ht)) now mono _ h.rowIds
  rw [← htally] at hids hdates
  refine ⟨hconsistent, fun t ht => h.storable t (htimers t ht), hids, fun date => ?_⟩
  rw [hdates, h.dates]
  simp only [List.mem_append, or_and_right, exists_or]

/-- A date is taken exactly when one of the sweeps is for its period. -/
theorem swept_clockTickedMidnight (h : Holds registry unswept) (mono : Int)
    (now rescheduled : GDateTime) (date : Text) :
    (∃ stored ∈ leave registry unswept (.clockTickedMidnight mono now rescheduled),
        formatDatetimeForTallyType stored.2 stored.1 = date) ↔
      registry.aggregateTally.tally.HasDate date ∧
        formatDatetimeForTallyType registry.currentAggregateTallyDate .dailyEvents ≠ date ∧
        (monthChanged now registry.currentAggregateTallyDate = true →
          formatDatetimeForTallyType registry.currentAggregateTallyDate .monthlyEvents ≠ date) := by
  have hperiod : ∀ (stored : EmerTallyType × GDateTime) (tallyType : EmerTallyType),
      formatDatetimeForTallyType registry.currentAggregateTallyDate tallyType =
          formatDatetimeForTallyType stored.2 stored.1 ↔
        stored.1 = tallyType ∧
          stored.1.SamePeriod stored.2 registry.currentAggregateTallyDate := by
    intro stored tallyType
    rw [eq_comm, formatDatetimeForTallyType_eq_iff]
  rw [h.dates]
  constructor
  · intro hleft
    obtain ⟨stored, hmem, rfl⟩ := hleft
    obtain ⟨hmem, hnot⟩ := List.mem_filter.mp hmem
    rw [decide_eq_true_eq] at hnot
    refine ⟨⟨stored, hmem, rfl⟩, fun hsame => hnot ?_, fun hchanged hsame => hnot ?_⟩
    · obtain ⟨htype, hsame⟩ := (hperiod stored _).mp hsame
      exact ⟨hsame, fun hmonthly => absurd (htype.symm.trans hmonthly) (by decide)⟩
    · exact ⟨((hperiod stored _).mp hsame).2, fun _ => hchanged⟩
  · intro hkept
    obtain ⟨⟨stored, hmem, rfl⟩, hdaily, hmonthly⟩ := hkept
    refine ⟨stored, ?_, rfl⟩
    apply List.mem_filter.mpr
    refine ⟨hmem, decide_eq_true fun hsweeps => ?_⟩
    cases htype : stored.1 with
    | dailyEvents => exact hdaily ((hperiod stored _).mpr ⟨htype, hsweeps.1⟩)
    | monthlyEvents =>
      exact hmonthly (hsweeps.2 htype) ((hperiod stored _).mpr ⟨htype, hsweeps.1⟩)

include hswap in
/-- A tick takes the dates that it sweeps, and no others. -/
theorem clockTickedMidnight (h : Holds registry unswept) (mono : Int)
    (now rescheduled : GDateTime) :
    Holds (registry.clockTickedMidnightCb (AggregateQueue.tallyOps parts true) mono now rescheduled)
      (leave registry unswept (.clockTickedMidnight mono now rescheduled)) := by
  have hstorable : ∀ t ∈ (registry.clockTickedMidnightCb (AggregateQueue.tallyOps parts true) mono
      now rescheduled).aggregateTimers, t.IsStorable := by
    rw [clockTickedMidnightCb_eq]
    intro t ht
    obtain ⟨u, hu, rfl⟩ := List.mem_map.mp ht
    have hu := h.storable u hu
    exact ⟨hu.eventId_length, hu.monthlyEventId_length, hu.payload_type⟩
  obtain ⟨hids, hrows⟩ := rowsOf_clockTickedMidnightCb hswap h.rowIds mono now rescheduled
  refine ⟨h.consistent.clockTickedMidnightCb mono now rescheduled, hstorable, hids, fun date => ?_⟩
  rw [h.swept_clockTickedMidnight, hasDate_iff_rowsOf, hasDate_iff_rowsOf, hrows]
  split
  · rename_i hswept
    refine iff_of_false (not_not.mpr rfl) fun hkept => ?_
    exact hswept.elim hkept.2.1 fun hmonthly => hkept.2.2 hmonthly.1 hmonthly.2
  · rename_i hkept
    rw [not_or, not_and] at hkept
    exact (and_iff_left hkept).symm

variable {sha1 : Bytes → Text → Bytes}
  (hsha1 : ∀ eventId name, (sha1 eventId name).length = uuidLength)

include hswap hsha1

/-- **Step lemma.** -/
theorem handleTimerEvent (h : Holds registry unswept) {event : TimerEvent}
    (hevent : event.WhileRecording) :
    ∃ next, EventRecorder.handleTimerEvent (AggregateQueue.tallyOps parts true) sha1 registry
        event = some next ∧ Holds next (leave registry unswept event) := by
  have hsame : Holds registry (unswept ++ []) := by
    rw [List.append_nil]
    exact h
  cases event with
  | startAggregateTimer call =>
    rw [EventRecorder.handleTimerEvent]
    cases hstart : registry.startAggregateTimer sha1 call with
    | error e => exact ⟨registry, rfl, hsame⟩
    | ok answer =>
      obtain ⟨path, started⟩ := answer
      obtain ⟨new, -, -, -, -, -, -, -, htally⟩ := startAggregateTimer_eq hstart
      refine ⟨started, rfl, h.consistent.startAggregateTimer hstart, ?_, ?_, ?_⟩
      · intro t ht
        exact (storable_of_start hsha1 hevent hstart t ht).elim (h.storable t) fun hnew => hnew
      · rw [htally]
        exact h.rowIds
      · rw [htally]
        exact hsame.dates
  | stopTimer timerId now mono =>
    rw [EventRecorder.handleTimerEvent]
    show ∃ next, _ ∧ Holds next (unswept ++
      ((registry.stopDate (.stopTimer timerId now mono)).map storesOf).getD [])
    rw [stopDate]
    cases hfind : registry.findTimer timerId with
    | none => exact ⟨registry, rfl, hsame⟩
    | some t =>
      obtain ⟨ht, -⟩ := mem_of_findTimer hfind
      obtain ⟨senderData, hsender, -⟩ := h.consistent.watched ht
      obtain ⟨stopped, hstopped, htimers, -, -, -, htally⟩ :=
        onTimerStoppedCb_eq (AggregateQueue.tallyOps parts true) hsender now mono
      refine ⟨stopped, hstopped, ?_⟩
      apply h.afterStops (List.cons_ne_nil t [])
      · intro u hu
        rw [List.mem_singleton.mp hu]
        exact ht
      · exact h.consistent.onTimerStoppedCb ht hstopped
      · intro u hu
        rw [htimers] at hu
        exact List.mem_of_mem_filter hu
      · exact htally
  | senderNameVanished senderName now mono =>
    rw [EventRecorder.handleTimerEvent]
    show ∃ next, _ ∧ Holds next (unswept ++
      ((registry.stopDate (.senderNameVanished senderName now mono)).map storesOf).getD [])
    rw [stopDate]
    cases hsender : registry.monitoredSenders senderName with
    | none => exact ⟨registry, rfl, hsame⟩
    | some senderData =>
      obtain ⟨stopped, timers, hstopped, htimers, -, -, -, hids, hmem, htally⟩ :=
        senderNameVanishedCb_eq (AggregateQueue.tallyOps parts true) h.consistent hsender now mono
      refine ⟨stopped, hstopped, ?_⟩
      apply h.afterStops _ hmem (h.consistent.senderNameVanishedCb hsender hstopped) _ htally
      -- a watched sender has a timer
      · intro hempty
        rw [hempty, List.map_nil] at hids
        rw [← hids] at hsender
        exact h.consistent.nonempty _ hsender
      · intro u hu
        rw [htimers] at hu
        exact List.mem_of_mem_filter hu
  | clockTickedMidnight mono now rescheduled =>
    exact ⟨_, rfl, h.clockTickedMidnight hswap mono now rescheduled⟩
  | permissionsChanged daemonEnabled => exact absurd hevent id
  | shutdown now mono =>
    refine ⟨_, rfl, ?_⟩
    show Holds _ (unswept ++ ((registry.stopDate (.shutdown now mono)).map storesOf).getD [])
    rw [stopDate, shutdown_eq]
    by_cases hempty : registry.aggregateTimers = []
    · rw [if_pos hempty, hempty]
      exact ⟨consistent_of_empty rfl rfl, fun t ht => absurd ht List.not_mem_nil, h.rowIds,
        hsame.dates⟩
    · rw [if_neg hempty]
      exact h.afterStops hempty (fun t ht => ht) (consistent_of_empty rfl rfl)
        (fun t ht => absurd ht List.not_mem_nil) rfl

/-- **Run lemma.** -/
theorem run (date : GDateTime) (buffer : EventBuffer ε) {events : List TimerEvent}
    (hevents : ∀ event ∈ events, event.WhileRecording) :
    ∃ registry unswept,
      Theory.run (step parts sha1) (start date buffer) events = ⟨some registry, unswept⟩ ∧
        Holds registry unswept := by
  induction events using List.reverseRecOn with
  | nil =>
    refine ⟨_, [], rfl, consistent_new _ _ _, fun t ht => absurd ht List.not_mem_nil,
      List.nodup_nil, fun date => ?_⟩
    exact iff_of_false (fun h => h.elim fun row hrow => List.not_mem_nil hrow.1)
      fun h => h.elim fun stored hstored => List.not_mem_nil hstored.1
  | append_singleton events event ih =>
    obtain ⟨registry, unswept, hrun, hholds⟩ := ih fun e he => hevents e (List.mem_append_left _ he)
    obtain ⟨next, hnext, hnextHolds⟩ := hholds.handleTimerEvent hswap hsha1
      (hevents event (List.mem_append_right _ (List.mem_singleton_self _)))
    refine ⟨next, leave registry unswept event, ?_, hnextHolds⟩
    rw [run_append, hrun, run_cons, run_nil, step, timerStep, Option.bind_some, hnext]
    rfl

end SweepTrace.Holds

/-! ## 4. What is left behind -/

omit hswap in
/-- Being before a period depends on the period only. -/
theorem before_congr {tallyType : EmerTallyType} {a b c : GDateTime}
    (h : tallyType.SamePeriod a b) : tallyType.Before a c ↔ tallyType.Before b c := by
  cases tallyType with
  | dailyEvents =>
    obtain rfl : a = b := h
    exact Iff.rfl
  | monthlyEvents =>
    show _ ∨ _ ∧ _ ↔ _ ∨ _ ∧ _
    rw [h.1, h.2]

/-- **A tick leaves no row of an earlier period behind exactly when every timer that was stopped
under a date of an earlier period was stopped under a period that a tick has remembered since.** -/
theorem noPastRows_iff {sha1 : Bytes → Text → Bytes}
    (hsha1 : ∀ eventId name, (sha1 eventId name).length = uuidLength) (date : GDateTime)
    (buffer : EventBuffer ε) {events : List TimerEvent}
    (hevents : ∀ event ∈ events, event.WhileRecording) :
    ∃ registry unswept,
      run (SweepTrace.step parts sha1) (SweepTrace.start date buffer) events =
          ⟨some registry, unswept⟩ ∧
        ∀ (mono : Int) (now rescheduled : GDateTime),
          NoPastRows now (registry.clockTickedMidnightCb (AggregateQueue.tallyOps parts true) mono
              now rescheduled).aggregateTally.tally ↔
            ∀ stored ∈ unswept, stored.1.Before stored.2 now →
              stored.1.SamePeriod stored.2 registry.currentAggregateTallyDate := by
  obtain ⟨registry, unswept, hrun, hholds⟩ :=
    @SweepTrace.Holds.run _ parts hswap _ hsha1 date buffer _ hevents
  refine ⟨registry, unswept, hrun, fun mono now rescheduled => ?_⟩
  have hdates := (hholds.clockTickedMidnight hswap mono now rescheduled).dates
  constructor
  · intro hpast stored hmem hbefore
    apply not_not.mp
    intro hother
    -- what is not of the remembered period is not swept
    have hleft : stored ∈ SweepTrace.leave registry unswept
        (.clockTickedMidnight mono now rescheduled) :=
      List.mem_filter.mpr ⟨hmem, decide_eq_true fun hsweeps => hother hsweeps.1⟩
    obtain ⟨row, hrow, hdate⟩ := (hdates _).mpr ⟨stored, hleft, rfl⟩
    exact hpast row hrow stored.1 stored.2 hdate hbefore
  · intro hremembered row hrow tallyType stored hdate hbefore
    obtain ⟨other, hleft, heq⟩ := (hdates row.key.date).mp ⟨row, hrow, rfl⟩
    obtain ⟨hmem, hnot⟩ := List.mem_filter.mp hleft
    rw [decide_eq_true_eq] at hnot
    rw [hdate, formatDatetimeForTallyType_eq_iff] at heq
    obtain ⟨htype, hsame⟩ := heq
    rw [← htype] at hbefore
    have hbefore := (before_congr hsame).mpr hbefore
    have hperiod := hremembered other hmem hbefore
    apply hnot
    refine ⟨hperiod, fun hmonthly => ?_⟩
    -- a month before that of the tick is not the same one
    have hmonth := (before_congr hperiod).mp hbefore
    rw [hmonthly] at hmonth
    rw [monthChanged, Bool.or_eq_true, bne_iff_ne, bne_iff_ne]
    rcases hmonth with hyear | hyear
    · exact .inl (Nat.ne_of_gt hyear)
    · exact .inr (Nat.ne_of_gt hyear.2)

end Run

def sameHash : Bytes → Text → Bytes := fun _ _ => List.replicate uuidLength 5

/-- A timer of September that is stopped on a day. -/
def stoppedOn (now : GDateTime) : List TimerEvent :=
  [.startAggregateTimer callAtZero, .stopTimer 0 now 3000000]

def stoppedTrace (now : GDateTime) : SweepTrace AggregateEvent :=
  run (SweepTrace.step sixtyByteEvents sameHash)
    (SweepTrace.start ⟨2021, 9, 1⟩ ⟨[], 0, 1000, false⟩) (stoppedOn now)

/-- The clock jumps into October before the stop.  The next tick comes on the day after. -/
theorem jump_leaves_pastRow :
    ∃ registry, (stoppedTrace ⟨2021, 10, 5⟩).registry = some registry ∧
      ¬ NoPastRows ⟨2021, 10, 6⟩
        (registry.clockTickedMidnightCb (AggregateQueue.tallyOps sixtyByteEvents true) 50000000
          ⟨2021, 10, 6⟩ ⟨2021, 10, 6⟩).aggregateTally.tally := by
  refine ⟨_, rfl, fun h => ?_⟩
  apply h ⟨1, ⟨"2021-10-05".toList, List.replicate 16 3, 1000, []⟩, .integer 3⟩ _ .dailyEvents
    ⟨2021, 10, 5⟩ (by decide) (by decide)
  decide +kernel

theorem noPastRows_iff_stoppedOn :
    ∃ registry, (stoppedTrace ⟨2021, 9, 1⟩).registry = some registry ∧
      NoPastRows ⟨2021, 9, 2⟩
        (registry.clockTickedMidnightCb (AggregateQueue.tallyOps sixtyByteEvents true) 50000000
          ⟨2021, 9, 2⟩ ⟨2021, 9, 2⟩).aggregateTally.tally := by
  have hevents : ∀ event ∈ stoppedOn ⟨2021, 9, 1⟩, event.WhileRecording := by
    intro event hmem
    simp only [stoppedOn, List.mem_cons, List.not_mem_nil, or_false] at hmem
    rcases hmem with rfl | rfl
    · rfl
    · trivial
  obtain ⟨registry, unswept, hrun, hiff⟩ := @noPastRows_iff _ sixtyByteEvents (fun _ => rfl)
    sameHash (fun _ _ => List.length_replicate) ⟨2021, 9, 1⟩ ⟨[], 0, 1000, false⟩
    (stoppedOn ⟨2021, 9, 1⟩) hevents
  have hregistry : (stoppedTrace ⟨2021, 9, 1⟩).registry = some registry :=
    congrArg SweepTrace.registry hrun
  have hunswept : storesOf ⟨2021, 9, 1⟩ = unswept := congrArg SweepTrace.unswept hrun
  have hdate : some registry.currentAggregateTallyDate = some ⟨2021, 9, 1⟩ :=
    congrArg (Option.map TimerRegistry.currentAggregateTallyDate) hregistry.symm
  refine ⟨registry, hregistry, (hiff _ _ _).mpr ?_⟩
  rw [Option.some.inj hdate, ← hunswept]
  decide

end EventRecorder
