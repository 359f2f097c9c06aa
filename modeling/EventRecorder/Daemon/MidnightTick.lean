import EventRecorder.Daemon.MidnightClock

/-!
# Midnights in runs of the clocks

As long as the wall clock is not set back, a midnight sweeps a day that is over.  As long as the
date is not left before the tick has come, no day is left out either.
-/

namespace EventRecorder

open Theory TimerRegistry EmerAggregateTally

/-! ## 1. The rest of the daemon -/

/-- What D-Bus delivers while recording is enabled. -/
def ClockedEvent.WhileRecording : ClockedEvent → Prop
  | .call timerCall => ∀ now, (timerCall.on now).WhileRecording
  | _ => True

/-- Nobody sets the wall clock back. -/
def ClockedEvent.SetsForward (clocks : Clocks) : ClockedEvent → Prop
  | .setRealTime realOffsetNs => clocks.realOffsetNs ≤ realOffsetNs
  | _ => True

def ClockedEvent.ReadSucceeds : ClockedEvent → Prop
  | .dispatch readSucceeds _ _ => readSucceeds = true
  | _ => True

/-- Only a tick changes the date that is remembered. -/
theorem currentAggregateTallyDate_call {κ : Type*} {ops : AggregateTally κ}
    {sha1 : Bytes → Text → Bytes} {registry next : TimerRegistry κ} (h : registry.Consistent)
    {now : GDateTime} {call : RegistryCall}
    (hnext : handleTimerEvent ops sha1 registry (call.on now) = some next) :
    next.currentAggregateTallyDate = registry.currentAggregateTallyDate := by
  cases call with
  | startAggregateTimer call =>
    rw [RegistryCall.on, handleTimerEvent] at hnext
    cases hstart : registry.startAggregateTimer sha1 call with
    | error e =>
      rw [hstart] at hnext
      cases hnext
      rfl
    | ok answer =>
      rw [hstart] at hnext
      cases hnext
      obtain ⟨_, -, -, -, -, -, -, hdate, -⟩ := startAggregateTimer_eq hstart
      exact hdate
  | stopTimer timerId mono =>
    rw [RegistryCall.on, handleTimerEvent] at hnext
    cases hfind : registry.findTimer timerId with
    | none =>
      rw [hfind] at hnext
      cases hnext
      rfl
    | some t =>
      rw [hfind] at hnext
      obtain ⟨senderData, hsender, -⟩ := h.watched (mem_of_findTimer hfind).1
      obtain ⟨stopped, hstopped, -, -, -, hdate, -⟩ := onTimerStoppedCb_eq ops hsender now mono
      rw [show registry.onTimerStoppedCb ops t now mono = some next from hnext] at hstopped
      cases hstopped
      exact hdate
  | senderNameVanished senderName mono =>
    rw [RegistryCall.on, handleTimerEvent] at hnext
    cases hsender : registry.monitoredSenders senderName with
    | none =>
      rw [hsender] at hnext
      cases hnext
      rfl
    | some senderData =>
      obtain ⟨stopped, _, hstopped, -, -, -, hdate, -⟩ :=
        senderNameVanishedCb_eq ops h hsender now mono
      rw [hsender, Option.isNone_some, if_neg Bool.false_ne_true, hstopped] at hnext
      cases hnext
      exact hdate
  | shutdown mono =>
    rw [RegistryCall.on, handleTimerEvent, shutdown_eq] at hnext
    cases hnext
    rfl

/-- What a call leaves to be swept is of its day. -/
theorem mem_leave_call {ε : Type*} {registry : TimerRegistry (AggregateQueue ε)}
    {unswept : List (EmerTallyType × GDateTime)} {now : GDateTime} {call : RegistryCall}
    {stored : EmerTallyType × GDateTime}
    (hmem : stored ∈ SweepTrace.leave registry unswept (call.on now)) :
    stored ∈ unswept ∨ stored.2 = now := by
  have hstop : registry.stopDate (call.on now) = none ∨
      registry.stopDate (call.on now) = some now := by
    cases call with
    | startAggregateTimer call => exact .inl rfl
    | stopTimer timerId mono =>
      rw [RegistryCall.on, stopDate]
      split <;> simp
    | senderNameVanished senderName mono =>
      rw [RegistryCall.on, stopDate]
      split <;> simp
    | shutdown mono =>
      rw [RegistryCall.on, stopDate]
      split <;> simp
  have hleave : SweepTrace.leave registry unswept (call.on now) =
      unswept ++ ((registry.stopDate (call.on now)).map storesOf).getD [] := by
    -- what is left to be swept grows by what a stop stores, for every call alike
    cases call <;> rfl
  rw [hleave] at hmem
  cases List.mem_append.mp hmem with
  | inl hold => exact .inl hold
  | inr hnew =>
    right
    rcases hstop with hnone | hsome
    · rw [hnone] at hnew
      exact absurd hnew List.not_mem_nil
    · rw [hsome] at hnew
      rcases List.mem_cons.mp hnew with rfl | hnew
      · rfl
      · rw [List.mem_singleton.mp hnew]

/-! ## 2. The daemon when it is constructed -/

section Constructed

variable {ε : Type*} {parts : AggregateParts ε}

/-- What is left at the start is of no earlier period. -/
theorem bufferPastAggregateEvents_rows (hswap : SwapKeepsType parts.glib) (now : GDateTime)
    {queue : AggregateQueue ε} (hids : queue.tally.HasRowIds) :
    (queue.bufferPastAggregateEvents parts true now).tally.HasRowIds ∧
      ∀ row ∈ (queue.bufferPastAggregateEvents parts true now).tally.rows,
        row ∈ queue.tally.rows ∧
          ∀ tallyType, TallyQuery.iterBefore.selects tallyType now row = false := by
  -- an iteration leaves what it does not select
  have hiterate : ∀ (tallyType : EmerTallyType) {queue : AggregateQueue ε},
      queue.tally.HasRowIds →
      (queue.iterate parts true .iterBefore tallyType now).tally.HasRowIds ∧
        ∀ row ∈ (queue.iterate parts true .iterBefore tallyType now).tally.rows,
          row ∈ queue.tally.rows ∧ TallyQuery.iterBefore.selects tallyType now row = false := by
    intro tallyType queue hids
    rw [(AggregateQueue.iterate_eq hswap .iterBefore tallyType now hids).1]
    refine ⟨hids.filter _, fun row hrow => ?_⟩
    obtain ⟨hrow, hkept⟩ := List.mem_filter.mp hrow
    rw [decide_eq_true_eq, TallyQuery.matching, (parts.select.perm _).mem_iff,
      List.mem_filter] at hkept
    exact ⟨hrow, Bool.eq_false_iff.mpr fun hselects => hkept ⟨hrow, hselects⟩⟩
  obtain ⟨hdailyIds, hdaily⟩ := hiterate .dailyEvents hids
  obtain ⟨hmonthlyIds, hmonthly⟩ := hiterate .monthlyEvents hdailyIds
  refine ⟨hmonthlyIds, fun row hrow => ?_⟩
  obtain ⟨hrow, hnotMonthly⟩ := hmonthly row hrow
  obtain ⟨hrow, hnotDaily⟩ := hdaily row hrow
  refine ⟨hrow, fun tallyType => ?_⟩
  cases tallyType with
  | dailyEvents => exact hnotDaily
  | monthlyEvents => exact hnotMonthly

/-- The dates of a table, from the calls that filled it. -/
theorem FilledBy.exists_dates {earlier : List TallyIncrement} {tally : EmerAggregateTally}
    (hfilled : FilledBy earlier tally) :
    ∃ unswept : List (EmerTallyType × GDateTime),
      (∀ date, tally.HasDate date ↔
        ∃ stored ∈ unswept, formatDatetimeForTallyType stored.2 stored.1 = date) ∧
      ∀ stored ∈ unswept, ∃ row ∈ tally.rows, ∃ increment ∈ earlier,
        row.key = increment.key ∧ stored = (increment.tallyType, increment.datetime) := by
  -- the calls whose counter is still there
  refine ⟨(earlier.filter fun increment => ∃ row ∈ tally.rows, row.key = increment.key).map
    fun increment => (increment.tallyType, increment.datetime), fun date => ?_, ?_⟩
  · constructor
    · intro h
      obtain ⟨row, hrow, rfl⟩ := h
      obtain ⟨increment, hmem, hkey⟩ := hfilled row hrow
      refine ⟨_, List.mem_map.mpr ⟨increment, List.mem_filter.mpr ⟨hmem, ?_⟩, rfl⟩, ?_⟩
      · exact decide_eq_true ⟨row, hrow, hkey⟩
      · rw [hkey]
        rfl
    · intro h
      obtain ⟨stored, hmem, rfl⟩ := h
      obtain ⟨increment, hincrement, rfl⟩ := List.mem_map.mp hmem
      obtain ⟨row, hrow, hkey⟩ := of_decide_eq_true (List.mem_filter.mp hincrement).2
      refine ⟨row, hrow, ?_⟩
      rw [hkey]
      rfl
  · intro stored hmem
    obtain ⟨increment, hincrement, rfl⟩ := List.mem_map.mp hmem
    obtain ⟨hincrement, hfound⟩ := List.mem_filter.mp hincrement
    obtain ⟨row, hrow, hkey⟩ := of_decide_eq_true hfound
    exact ⟨row, hrow, increment, hincrement, hkey, rfl⟩

/-- What the daemon starts with. -/
theorem holds_clockedDaemonNew (hswap : SwapKeepsType parts.glib) (zone : LocalTime)
    (clocks : Clocks) (armNs : Nat) {earlier : List TallyIncrement} {tally : EmerAggregateTally}
    (hids : tally.HasRowIds) (hfilled : FilledBy earlier tally) (buffer : EventBuffer ε) :
    let new := clockedDaemonNew parts zone clocks armNs tally buffer
    ∃ unswept, SweepTrace.Holds new.timers unswept ∧
      ∀ stored ∈ unswept, ∃ row ∈ tally.rows, ∃ increment ∈ earlier,
        row.key = increment.key ∧ stored = (increment.tallyType, increment.datetime) ∧
          ∀ tallyType, TallyQuery.iterBefore.selects tallyType (new.today zone) row = false := by
  dsimp only
  let queue : AggregateQueue ε := ⟨tally, buffer, []⟩
  let today := (clockedDaemonNew parts zone clocks armNs tally buffer).today zone
  have hpast := @bufferPastAggregateEvents_rows _ parts hswap today queue hids
  have hkept : FilledBy earlier (queue.bufferPastAggregateEvents parts true today).tally :=
    fun row hrow => hfilled row (hpast.2 row hrow).1
  obtain ⟨unswept, hdates, hrows⟩ := hkept.exists_dates
  refine ⟨unswept, ⟨consistent_new true _ _, fun t ht => absurd ht List.not_mem_nil, hpast.1,
    hdates⟩, fun stored hmem => ?_⟩
  obtain ⟨row, hrow, increment, hincrement, hkey, hstored⟩ := hrows stored hmem
  obtain ⟨hrow, hselects⟩ := hpast.2 row hrow
  exact ⟨row, hrow, increment, hincrement, hkey, hstored, hselects⟩

end Constructed

/-- Days of UTC, from the last one of a September on. -/
def lastOfSeptember : LocalTime where
  start n := 1632960000000000 + n * 86400000000
  start_strictMono := by
    intro m n hlt
    show (1632960000000000 : ℤ) + m * 86400000000 < 1632960000000000 + n * 86400000000
    omega
  epoch := ⟨2021, 9, 30⟩
  start_lt := by
    intro day
    push_cast
    omega

/-- Two hours before midnight, a minute after the machine was started. -/
def eveningClocks : Clocks := ⟨60000000000, 1633039140000000000⟩

def eveningIncrement : TallyIncrement :=
  { timerId := 0, tallyType := .dailyEvents, unixUserId := 1000, eventId := List.replicate 16 3,
    payload := none, counter := 5, datetime := ⟨2021, 9, 30⟩ }

/-- A counter of the day, from a life of the daemon that ended on it. -/
def eveningTally : EmerAggregateTally := ⟨[⟨1, eveningIncrement.key, .integer 5⟩]⟩

theorem hasRowIds_eveningTally : eveningTally.HasRowIds := by
  unfold HasRowIds
  decide

theorem filledBy_eveningTally : FilledBy [eveningIncrement] eveningTally := by
  intro row hrow
  rw [List.mem_singleton.mp hrow]
  exact ⟨_, List.mem_cons_self, rfl⟩

def evening : ClockedDaemon (AggregateQueue AggregateEvent) :=
  clockedDaemonNew sixtyByteEvents lastOfSeptember eveningClocks 0 eveningTally ⟨[], 0, 1000, false⟩

def threeHoursNs : Nat := 10800000000000

theorem dayAt_evening : lastOfSeptember.dayAt eveningClocks.realTimeUs = 0 :=
  Days.dayAt_eq (by decide) (by decide)

theorem today_evening : evening.today lastOfSeptember = ⟨2021, 9, 30⟩ := by
  show lastOfSeptember.date (lastOfSeptember.dayAt eveningClocks.realTimeUs) = _
  rw [dayAt_evening]
  rfl

theorem remembered_evening :
    evening.timers.currentAggregateTallyDate = ⟨2021, 9, 30⟩ := by
  rw [evening, remembered_clockedDaemonNew, LocalTime.dateAt, dayAt_evening]
  rfl

theorem due_evening : (evening.elapse threeHoursNs).due = true := by
  have hexpires : (evening.elapse threeHoursNs).expiresNs = some 7260000000000 := by
    rw [ClockedDaemon.expiresNs_elapse, evening, expiresNs_clockedDaemonNew,
      LocalTime.timeToNextMidnightUs, dayAt_evening]
    decide
  have hboottime : (evening.elapse threeHoursNs).clocks.boottimeNs = 10860000000000 := by
    decide
  rw [ClockedDaemon.due, hexpires, hboottime]
  decide

theorem today_evening_elapse :
    (evening.elapse threeHoursNs).today lastOfSeptember = ⟨2021, 10, 1⟩ := by
  have hday : lastOfSeptember.dayAt (eveningClocks.elapse threeHoursNs).realTimeUs = 1 :=
    Days.dayAt_eq (by decide) (by decide)
  show lastOfSeptember.date
    (lastOfSeptember.dayAt (eveningClocks.elapse threeHoursNs).realTimeUs) = _
  rw [hday]
  rfl

/-! ## 3. The tick and its day -/

section Runs

variable {ε : Type*} {parts : AggregateParts ε} (hswap : SwapKeepsType parts.glib)
  {sha1 : Bytes → Text → Bytes} (hsha1 : ∀ eventId name, (sha1 eventId name).length = uuidLength)
  {zone : LocalTime} {self : ClockedDaemon (AggregateQueue ε)}
  {unswept : List (EmerTallyType × GDateTime)}

include hswap

theorem SweepTrace.Holds.clockTickedMidnightCb (h : SweepTrace.Holds self.timers unswept)
    (mono : Int) (times : MidnightTimes) :
    SweepTrace.Holds
      (self.clockTickedMidnightCb (AggregateQueue.tallyOps parts true) zone mono times).timers
      (SweepTrace.leave self.timers unswept (.clockTickedMidnight mono
        ((self.elapse times.dailyNs).today zone)
        (((self.elapse times.dailyNs).elapse times.monthlyNs).today zone))) :=
  h.clockTickedMidnight hswap mono _ _

include hsha1

theorem SweepTrace.Holds.call (h : SweepTrace.Holds self.timers unswept) {call : RegistryCall}
    (hevent : (ClockedEvent.call call).WhileRecording) :
    ∃ timers, self.handle (AggregateQueue.tallyOps parts true) sha1 zone (.call call) =
        some { self with timers := timers } ∧
      SweepTrace.Holds timers
        (SweepTrace.leave self.timers unswept (call.on (self.today zone))) ∧
      timers.currentAggregateTallyDate = self.timers.currentAggregateTallyDate := by
  obtain ⟨timers, hnext, hholds⟩ := h.handleTimerEvent hswap hsha1 (hevent (self.today zone))
  refine ⟨timers, ?_, hholds, currentAggregateTallyDate_call h.consistent hnext⟩
  rw [ClockedDaemon.handle, hnext]
  rfl

/-- **Step lemma.**  While nobody sets the wall clock back, the next tick stays set up for a later
day. -/
theorem ClockedDaemon.OnTime.handle (h : self.OnTime zone)
    (hholds : SweepTrace.Holds self.timers unswept) {event : ClockedEvent}
    (hevent : event.WhileRecording) (hforward : event.SetsForward self.clocks) :
    ∃ next unswept,
      self.handle (AggregateQueue.tallyOps parts true) sha1 zone event = some next ∧
        next.OnTime zone ∧ SweepTrace.Holds next.timers unswept ∧
          (event.ReadSucceeds → self.expiresNs.isSome → next.expiresNs.isSome) := by
  cases event with
  | elapse ns =>
    exact ⟨_, unswept, rfl, h.goOn (ahead_elapse _ ns) rfl (.inl rfl), hholds, fun _ hsome => hsome⟩
  | setRealTime realOffsetNs =>
    exact ⟨_, unswept, rfl, h.goOn ⟨le_rfl, hforward⟩ rfl (.inl rfl), hholds, fun _ hsome => hsome⟩
  | call call =>
    obtain ⟨timers, hnext, hleave, hdate⟩ := @SweepTrace.Holds.call _ parts hswap _ hsha1 zone _ _
      hholds _ hevent
    exact ⟨_, _, hnext, h.goOn ⟨le_rfl, le_rfl⟩ hdate (.inl rfl), hleave, fun _ hsome => hsome⟩
  | dispatch readSucceeds mono times =>
    rw [ClockedDaemon.handle]
    cases hdue : self.due with
    | false => exact ⟨self, unswept, rfl, h, hholds, fun _ hsome => hsome⟩
    | true =>
      cases readSucceeds with
      | false =>
        refine ⟨_, unswept, rfl, h.goOn ⟨le_rfl, le_rfl⟩ rfl (.inr rfl), hholds, ?_⟩
        intro hread
        cases hread
      | true =>
        have hstart : zone.start 0 ≤
            ((self.clocks.elapse times.dailyNs).elapse times.monthlyNs).realTimeUs :=
          (h.started.trans (ahead_elapse _ _).realTimeUs_le).trans
            (ahead_elapse _ _).realTimeUs_le
        refine ⟨_, _, rfl, ?_, hholds.clockTickedMidnightCb hswap mono times, fun _ _ => ?_⟩
        -- whatever was due, the next tick is set up by the clock as it stands
        · exact ClockedDaemon.OnTime.scheduleNextMidnightTick hstart times.armNs
        · exact ClockedDaemon.isSome_scheduleNextMidnightTick hstart times.armNs

/-- **Run lemma.** -/
theorem ClockedDaemon.OnTime.run {clocks : Clocks} (hstart : zone.start 0 ≤ clocks.realTimeUs)
    (armNs : Nat) {earlier : List TallyIncrement} {tally : EmerAggregateTally}
    (hids : tally.HasRowIds) (hfilled : FilledBy earlier tally) (buffer : EventBuffer ε)
    {events : List ClockedEvent} (hevents : ∀ event ∈ events, event.WhileRecording)
    (hforward : EachStep (ClockedDaemon.step (AggregateQueue.tallyOps parts true) sha1 zone)
      (fun state event => ∀ self ∈ state, event.SetsForward self.clocks)
      (some (clockedDaemonNew parts zone clocks armNs tally buffer)) events) :
    ∃ self unswept,
      Theory.run (ClockedDaemon.step (AggregateQueue.tallyOps parts true) sha1 zone)
          (some (clockedDaemonNew parts zone clocks armNs tally buffer)) events = some self ∧
        self.OnTime zone ∧ SweepTrace.Holds self.timers unswept ∧
          ((∀ event ∈ events, event.ReadSucceeds) → self.expiresNs.isSome) := by
  induction events using List.reverseRecOn with
  | nil =>
    obtain ⟨unswept, hholds, -⟩ :=
      holds_clockedDaemonNew hswap zone clocks armNs hids hfilled buffer
    refine ⟨_, unswept, rfl, ?_, hholds, fun _ => ?_⟩
    · exact ClockedDaemon.OnTime.goOn (ClockedDaemon.OnTime.scheduleNextMidnightTick hstart armNs)
        ⟨le_rfl, le_rfl⟩ rfl (.inl rfl)
    · exact ClockedDaemon.isSome_scheduleNextMidnightTick hstart armNs
  | append_singleton events event ih =>
    obtain ⟨hfront, hlast⟩ := (eachStep_append _ _ _ _ _).mp hforward
    obtain ⟨self, unswept, hrun, honTime, hholds, harmed⟩ :=
      ih (fun e he => hevents e (List.mem_append_left _ he)) hfront
    rw [hrun, eachStep_cons] at hlast
    obtain ⟨next, left, hnext, honTime, hholds, hkept⟩ := honTime.handle hswap hsha1 hholds
      (hevents event (List.mem_append_right _ (List.mem_singleton_self _)))
      (hlast.1 self (Option.mem_some_self _))
    refine ⟨next, left, ?_, honTime, hholds, fun hreads => ?_⟩
    · rw [run_append, hrun, run_cons, run_nil]
      exact hnext
    · exact hkept (hreads event (List.mem_append_right _ (List.mem_singleton_self _)))
        (harmed fun e he => hreads e (List.mem_append_left _ he))

/-- **As long as nobody sets the wall clock back, every midnight tick comes on a later day than the
one that it sweeps, so that the rows of a day or a month that is not over stay as they are; and as
long as the timer can be read, there always is a next tick.** -/
theorem midnight_sweeps_earlier_day {clocks : Clocks} (hstart : zone.start 0 ≤ clocks.realTimeUs)
    (armNs : Nat) {earlier : List TallyIncrement} {tally : EmerAggregateTally}
    (hids : tally.HasRowIds) (hfilled : FilledBy earlier tally) (buffer : EventBuffer ε)
    {events : List ClockedEvent} (hevents : ∀ event ∈ events, event.WhileRecording)
    (hforward : EachStep (ClockedDaemon.step (AggregateQueue.tallyOps parts true) sha1 zone)
      (fun state event => ∀ self ∈ state, event.SetsForward self.clocks)
      (some (clockedDaemonNew parts zone clocks armNs tally buffer)) events) :
    ∃ self, run (ClockedDaemon.step (AggregateQueue.tallyOps parts true) sha1 zone)
        (some (clockedDaemonNew parts zone clocks armNs tally buffer)) events = some self ∧
      ((∀ event ∈ events, event.ReadSucceeds) → self.expiresNs.isSome) ∧
      (self.due = true → ∀ (mono : Int) (times : MidnightTimes),
        let now := (self.elapse times.dailyNs).today zone
        let next := self.clockTickedMidnightCb (AggregateQueue.tallyOps parts true) zone mono times
        EmerTallyType.dailyEvents.Before self.timers.currentAggregateTallyDate now ∧
          ∀ tallyType,
            next.timers.aggregateTally.tally.rowsOf (formatDatetimeForTallyType now tallyType) =
              self.timers.aggregateTally.tally.rowsOf
                (formatDatetimeForTallyType now tallyType)) := by
  obtain ⟨self, unswept, hrun, honTime, hholds, harmed⟩ :=
    ClockedDaemon.OnTime.run hswap hsha1 hstart armNs hids hfilled buffer hevents hforward
  refine ⟨self, hrun, harmed, fun hdue mono times => ?_⟩
  dsimp only
  have hbefore := honTime.before_today hdue times.dailyNs
  refine ⟨hbefore, fun tallyType => ?_⟩
  obtain ⟨-, hrows⟩ := rowsOf_clockTickedMidnightCb hswap hholds.rowIds mono
    ((self.elapse times.dailyNs).today zone)
    (((self.elapse times.dailyNs).elapse times.monthlyNs).today zone)
  apply (hrows _).trans
  apply if_neg
  -- neither of the periods that are swept is the one of the tick
  rintro (hsame | ⟨hchanged, hsame⟩)
  · obtain ⟨-, hsame⟩ := (formatDatetimeForTallyType_eq_iff _ _ _ _).mp hsame
    exact not_samePeriod_of_before hbefore hsame
  · obtain ⟨-, hyear, hmonth⟩ := (formatDatetimeForTallyType_eq_iff _ _ _ _).mp hsame
    rw [monthChanged, ← hyear, ← hmonth] at hchanged
    simp at hchanged

end Runs

theorem midnight_sweeps_earlier_day_evening :
    ∃ self, run (ClockedDaemon.step (AggregateQueue.tallyOps sixtyByteEvents true) sameHash
        lastOfSeptember) (some evening) [.elapse threeHoursNs] = some self ∧
      self.due = true ∧
      EmerTallyType.dailyEvents.Before self.timers.currentAggregateTallyDate
        (self.today lastOfSeptember) := by
  have hforward : EachStep (ClockedDaemon.step (AggregateQueue.tallyOps sixtyByteEvents true)
      sameHash lastOfSeptember) (fun state event => ∀ self ∈ state, event.SetsForward self.clocks)
      (some evening) [.elapse threeHoursNs] :=
    (eachStep_cons _ _ _ _ _).mpr ⟨fun _ _ => trivial, eachStep_nil _ _ _⟩
  have hevents : ∀ event ∈ [ClockedEvent.elapse threeHoursNs], event.WhileRecording := by
    intro event hmem
    rw [List.mem_singleton.mp hmem]
    trivial
  obtain ⟨self, hrun, -, htick⟩ := @midnight_sweeps_earlier_day _ sixtyByteEvents (fun _ => rfl)
    sameHash (fun _ _ => List.length_replicate) lastOfSeptember eveningClocks (by decide) 0
    [eveningIncrement] eveningTally hasRowIds_eveningTally filledBy_eveningTally
    ⟨[], 0, 1000, false⟩ _ hevents hforward
  have hself : evening.elapse threeHoursNs = self := Option.some.inj hrun
  have hdue : self.due = true := hself ▸ due_evening
  have hbefore := (htick hdue 0 ⟨0, 0, 0⟩).1
  rw [ClockedDaemon.elapse_zero] at hbefore
  exact ⟨self, hrun, hdue, hbefore⟩

/-! ## 4. The periods in the tally -/

namespace ClockedDaemon

variable {κ : Type*} (zone : LocalTime) (self : ClockedDaemon κ)

/-- A wall clock that has left the remembered day keeps its date. -/
def Stays (next : ClockedDaemon κ) : Prop :=
  self.today zone = self.timers.currentAggregateTallyDate ∨ next.today zone = self.today zone

/-- Once the wall clock has left the remembered day, its date stays until the tick has come, and the
tick reads one date only. -/
def InTime : ClockedEvent → Prop
  | .elapse ns => self.Stays zone (self.elapse ns)
  | .setRealTime realOffsetNs =>
    self.Stays zone { self with clocks := { self.clocks with realOffsetNs := realOffsetNs } }
  | .call _ => True
  | .dispatch _ _ times =>
    let daily := self.elapse times.dailyNs
    self.due = true →
      self.Stays zone daily ∧ (daily.elapse times.monthlyNs).today zone = daily.today zone

/-- What is left to be swept is of the remembered day or of today. -/
def OfPeriods (unswept : List (EmerTallyType × GDateTime)) : Prop :=
  ∀ stored ∈ unswept,
    stored.1.SamePeriod stored.2 self.timers.currentAggregateTallyDate ∨
      stored.1.SamePeriod stored.2 (self.today zone)

variable {zone self} {unswept : List (EmerTallyType × GDateTime)}

theorem OfPeriods.stays (h : self.OfPeriods zone unswept) {next : ClockedDaemon κ}
    (hstays : self.Stays zone next)
    (hdate : next.timers.currentAggregateTallyDate = self.timers.currentAggregateTallyDate) :
    next.OfPeriods zone unswept := by
  intro stored hmem
  rw [hdate]
  rcases hstays with htoday | htoday
  · left
    have := h stored hmem
    rwa [htoday, or_self] at this
  · rw [htoday]
    exact h stored hmem

end ClockedDaemon

theorem samePeriod_refl (tallyType : EmerTallyType) (a : GDateTime) : tallyType.SamePeriod a a := by
  cases tallyType with
  | dailyEvents => rfl
  | monthlyEvents => exact ⟨rfl, rfl⟩

section Periods

variable {ε : Type*} {zone : LocalTime} {self : ClockedDaemon (AggregateQueue ε)}
  {unswept : List (EmerTallyType × GDateTime)}

theorem ClockedDaemon.OfPeriods.call (h : self.OfPeriods zone unswept) {call : RegistryCall}
    {timers : TimerRegistry (AggregateQueue ε)}
    (hdate : timers.currentAggregateTallyDate = self.timers.currentAggregateTallyDate) :
    ClockedDaemon.OfPeriods zone { self with timers := timers }
      (SweepTrace.leave self.timers unswept (call.on (self.today zone))) := by
  intro stored hmem
  show _ ∨ stored.1.SamePeriod stored.2 (self.today zone)
  rw [hdate]
  cases mem_leave_call hmem with
  | inl hold => exact h stored hold
  | inr hnew =>
    rw [hnew]
    exact .inr (samePeriod_refl _ _)

/-- What a tick leaves is of its own day. -/
theorem ClockedDaemon.OfPeriods.leave (h : self.OfPeriods zone unswept) {mono : Int}
    {now rescheduled : GDateTime}
    (hstays : self.today zone = self.timers.currentAggregateTallyDate ∨ now = self.today zone)
    {stored : EmerTallyType × GDateTime}
    (hmem : stored ∈ SweepTrace.leave self.timers unswept
      (.clockTickedMidnight mono now rescheduled)) :
    stored.1.SamePeriod stored.2 now := by
  obtain ⟨hmem, hkept⟩ := List.mem_filter.mp hmem
  have hkept : ¬ self.timers.Sweeps now stored := of_decide_eq_true hkept
  have hperiod : stored.1.SamePeriod stored.2 self.timers.currentAggregateTallyDate ∨
      stored.1.SamePeriod stored.2 now := by
    have := h stored hmem
    rcases hstays with htoday | htoday
    · left
      rwa [htoday, or_self] at this
    · rwa [htoday]
  rcases hperiod with hremembered | hnow
  -- a month that is not swept goes on
  · obtain ⟨htype, hsame⟩ : stored.1 = .monthlyEvents ∧
        ¬ monthChanged now self.timers.currentAggregateTallyDate = true := by
      rw [TimerRegistry.Sweeps, and_iff_right hremembered] at hkept
      exact Classical.not_imp.mp hkept
    rw [monthChanged, Bool.or_eq_true, bne_iff_ne, bne_iff_ne, not_or, not_not, not_not] at hsame
    rw [htype] at hremembered ⊢
    exact ⟨hremembered.1.trans hsame.1.symm, hremembered.2.trans hsame.2.symm⟩
  · exact hnow

/-- A table whose dates are all of one day or another has a row of no earlier day. -/
theorem noPastRows_of_dates {now : GDateTime} {tally : EmerAggregateTally}
    (hdates : ∀ date, tally.HasDate date →
      ∃ stored ∈ unswept, formatDatetimeForTallyType stored.2 stored.1 = date)
    (hperiods : ∀ stored ∈ unswept, stored.1.SamePeriod stored.2 now) : NoPastRows now tally := by
  intro row hrow tallyType stored hdate hbefore
  obtain ⟨other, hmem, heq⟩ := hdates _ ⟨row, hrow, rfl⟩
  have hother := hperiods other hmem
  rw [hdate, formatDatetimeForTallyType_eq_iff] at heq
  obtain ⟨htype, hsame⟩ := heq
  rw [htype] at hsame hother
  exact not_samePeriod_of_before ((before_congr hsame).mpr hbefore) hother

variable {parts : AggregateParts ε} (hswap : SwapKeepsType parts.glib)
  {sha1 : Bytes → Text → Bytes} (hsha1 : ∀ eventId name, (sha1 eventId name).length = uuidLength)

include hswap hsha1

/-- **Step lemma.** -/
theorem ClockedDaemon.OfPeriods.handle (h : self.OfPeriods zone unswept)
    (hholds : SweepTrace.Holds self.timers unswept) {event : ClockedEvent}
    (hevent : event.WhileRecording) (hinTime : self.InTime zone event) :
    ∃ next left,
      self.handle (AggregateQueue.tallyOps parts true) sha1 zone event = some next ∧
        next.OfPeriods zone left ∧ SweepTrace.Holds next.timers left := by
  cases event with
  | elapse ns => exact ⟨_, unswept, rfl, h.stays hinTime rfl, hholds⟩
  | setRealTime realOffsetNs => exact ⟨_, unswept, rfl, h.stays hinTime rfl, hholds⟩
  | call call =>
    obtain ⟨timers, hnext, hleave, hdate⟩ := @SweepTrace.Holds.call _ parts hswap _ hsha1 zone _ _
      hholds _ hevent
    exact ⟨_, _, hnext, h.call hdate, hleave⟩
  | dispatch readSucceeds mono times =>
    rw [ClockedDaemon.handle]
    cases hdue : self.due with
    | false => exact ⟨self, unswept, rfl, h, hholds⟩
    | true =>
      cases readSucceeds with
      | false => exact ⟨_, unswept, rfl, h, hholds⟩
      | true =>
        obtain ⟨hstays, hsame⟩ := hinTime hdue
        refine ⟨_, _, rfl, fun stored hmem => .inl ?_,
          hholds.clockTickedMidnightCb hswap mono times⟩
        -- the date that is remembered from now on is the one that the tick has read
        show stored.1.SamePeriod stored.2
          (((self.elapse times.dailyNs).elapse times.monthlyNs).today zone)
        rw [hsame]
        exact h.leave hstays hmem

/-- **Run lemma.** -/
theorem ClockedDaemon.OfPeriods.run (h : self.OfPeriods zone unswept)
    (hholds : SweepTrace.Holds self.timers unswept) {events : List ClockedEvent}
    (hevents : ∀ event ∈ events, event.WhileRecording)
    (hinTime : EachStep (ClockedDaemon.step (AggregateQueue.tallyOps parts true) sha1 zone)
      (fun state event => ∀ self ∈ state, self.InTime zone event) (some self) events) :
    ∃ last left,
      Theory.run (ClockedDaemon.step (AggregateQueue.tallyOps parts true) sha1 zone) (some self)
          events = some last ∧
        last.OfPeriods zone left ∧ SweepTrace.Holds last.timers left := by
  induction events generalizing self unswept with
  | nil => exact ⟨self, unswept, rfl, h, hholds⟩
  | cons event events ih =>
    rw [eachStep_cons] at hinTime
    obtain ⟨next, left, hnext, hperiods, hleft⟩ := h.handle hswap hsha1 hholds
      (hevents event List.mem_cons_self) (hinTime.1 self (Option.mem_some_self _))
    have hstep : ClockedDaemon.step (AggregateQueue.tallyOps parts true) sha1 zone (some self)
        event = some next := hnext
    rw [hstep] at hinTime
    rw [run_cons, hstep]
    exact ih hperiods hleft (fun e he => hevents e (List.mem_cons_of_mem _ he)) hinTime.2

/-- **However the clocks go, as long as the wall clock keeps its date from when it has left the
remembered day until the tick has come, the tally holds counters of the remembered day and of today
only, and no tick leaves a row of an earlier period behind.** -/
theorem tally_holds_current_periods {clocks : Clocks} {armNs : Nat}
    {earlier : List TallyIncrement} {tally : EmerAggregateTally} (hids : tally.HasRowIds)
    (hfilled : FilledBy earlier tally) {buffer : EventBuffer ε}
    (hrange : ((clockedDaemonNew parts zone clocks armNs tally buffer).today zone).InRange)
    (hearlier : ∀ increment ∈ earlier, increment.datetime.InRange ∧
      ¬ increment.tallyType.Before
        ((clockedDaemonNew parts zone clocks armNs tally buffer).today zone) increment.datetime)
    {events : List ClockedEvent} (hevents : ∀ event ∈ events, event.WhileRecording)
    (hinTime : EachStep (ClockedDaemon.step (AggregateQueue.tallyOps parts true) sha1 zone)
      (fun state event => ∀ self ∈ state, self.InTime zone event)
      (some (clockedDaemonNew parts zone clocks armNs tally buffer)) events) :
    ∃ self, Theory.run (ClockedDaemon.step (AggregateQueue.tallyOps parts true) sha1 zone)
        (some (clockedDaemonNew parts zone clocks armNs tally buffer)) events = some self ∧
      (∀ row ∈ self.timers.aggregateTally.tally.rows, ∃ tallyType,
        row.key.date =
            formatDatetimeForTallyType self.timers.currentAggregateTallyDate tallyType ∨
          row.key.date = formatDatetimeForTallyType (self.today zone) tallyType) ∧
      ∀ (mono : Int) (times : MidnightTimes), self.due = true →
        self.InTime zone (.dispatch true mono times) →
          NoPastRows ((self.elapse times.dailyNs).today zone)
            (self.clockTickedMidnightCb (AggregateQueue.tallyOps parts true) zone mono
              times).timers.aggregateTally.tally := by
  obtain ⟨unswept, hholds, hrows⟩ :=
    @holds_clockedDaemonNew _ parts hswap zone clocks armNs _ _ hids hfilled buffer
  have hperiods : ClockedDaemon.OfPeriods zone
      (clockedDaemonNew parts zone clocks armNs tally buffer) unswept := by
    intro stored hmem
    obtain ⟨row, -, increment, hincrement, hkey, rfl, hselects⟩ := hrows stored hmem
    obtain ⟨hinRange, hnotLater⟩ := hearlier increment hincrement
    right
    -- what is of an earlier period was taken at the start
    rcases before_trichotomy increment.tallyType increment.datetime
      ((clockedDaemonNew parts zone clocks armNs tally buffer).today zone) with
      hbefore | hsame | hlater
    · have hpast := ((period_of_key hinRange hrange hkey).1).mpr ⟨rfl, hbefore⟩
      rw [hselects] at hpast
      cases hpast
    · exact hsame
    · exact absurd hlater hnotLater
  obtain ⟨self, left, hrun, hperiods, hholds⟩ :=
    hperiods.run hswap hsha1 hholds hevents hinTime
  refine ⟨self, hrun, fun row hrow => ?_, fun mono times hdue hinTime => ?_⟩
  · obtain ⟨stored, hmem, hdate⟩ := (hholds.dates row.key.date).mp ⟨row, hrow, rfl⟩
    refine ⟨stored.1, ?_⟩
    rw [← hdate, formatDatetimeForTallyType_eq_iff, formatDatetimeForTallyType_eq_iff,
      and_iff_right rfl, and_iff_right rfl]
    exact hperiods stored hmem
  · obtain ⟨hstays, -⟩ := hinTime hdue
    exact noPastRows_of_dates
      (fun date => ((hholds.clockTickedMidnightCb hswap mono times).dates date).mp)
      fun stored hmem => hperiods.leave hstays hmem

end Periods

theorem tally_holds_current_periods_evening :
    ∃ self, run (ClockedDaemon.step (AggregateQueue.tallyOps sixtyByteEvents true) sameHash
        lastOfSeptember) (some evening) [.elapse threeHoursNs] = some self ∧
      self.due = true ∧
      NoPastRows ⟨2021, 10, 1⟩
        (self.clockTickedMidnightCb (AggregateQueue.tallyOps sixtyByteEvents true) lastOfSeptember
          0 ⟨0, 0, 0⟩).timers.aggregateTally.tally := by
  have hinTime : EachStep (ClockedDaemon.step (AggregateQueue.tallyOps sixtyByteEvents true)
      sameHash lastOfSeptember) (fun state event => ∀ self ∈ state,
        self.InTime lastOfSeptember event) (some evening) [.elapse threeHoursNs] := by
    rw [eachStep_cons]
    refine ⟨fun self hself => .inl ?_, eachStep_nil _ _ _⟩
    cases hself
    exact today_evening.trans remembered_evening.symm
  have hevents : ∀ event ∈ [ClockedEvent.elapse threeHoursNs], event.WhileRecording := by
    intro event hmem
    rw [List.mem_singleton.mp hmem]
    trivial
  have hrange : GDateTime.InRange ⟨2021, 9, 30⟩ := by constructor <;> decide
  have hearlier : ∀ increment ∈ [eveningIncrement], increment.datetime.InRange ∧
      ¬ increment.tallyType.Before (evening.today lastOfSeptember) increment.datetime := by
    intro increment hmem
    rw [List.mem_singleton.mp hmem, today_evening]
    exact ⟨hrange, by decide⟩
  obtain ⟨self, hrun, -, htick⟩ := @tally_holds_current_periods _ lastOfSeptember sixtyByteEvents
    (fun _ => rfl) sameHash (fun _ _ => List.length_replicate) eveningClocks 0 [eveningIncrement]
    eveningTally hasRowIds_eveningTally filledBy_eveningTally ⟨[], 0, 1000, false⟩
    (today_evening ▸ hrange) hearlier _ hevents hinTime
  have hself : evening.elapse threeHoursNs = self := Option.some.inj hrun
  have hdue : self.due = true := hself ▸ due_evening
  have htoday : self.today lastOfSeptember = ⟨2021, 10, 1⟩ := hself ▸ today_evening_elapse
  have hpast := htick 0 ⟨0, 0, 0⟩ hdue fun _ => ⟨.inr rfl, rfl⟩
  rw [ClockedDaemon.elapse_zero, htoday] at hpast
  exact ⟨self, hrun, hdue, hpast⟩

end EventRecorder
