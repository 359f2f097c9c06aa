import EventRecorder.Aggregate.Registry

/-!
# Monthly and daily aggregates

A midnight splits every timer but stores its monthly counter only when the month is over.  The
seconds of a split inside a month therefore reach the daily aggregates and never the monthly one.
-/

namespace EventRecorder

open Theory TimerRegistry

/-- The tally as the list of counters stored in it.  No write fails. -/
def countersStored : AggregateTally (List TallyIncrement) where
  storeEvent := fun stored increment => .ok (stored ++ [increment])
  iter := fun stored _ _ => stored
  clear := fun stored => stored

@[simp] theorem iter_countersStored (stored : List TallyIncrement) (tallyType : EmerTallyType)
    (date : GDateTime) : countersStored.iter stored tallyType date = stored := rfl

@[simp] theorem clear_countersStored (stored : List TallyIncrement) :
    countersStored.clear stored = stored := rfl

def GDateTime.calendarMonth (datetime : GDateTime) : Nat × Nat :=
  (datetime.year, datetime.month)

/-- The total of the counters stored under one type for the days of a month, or for the month. -/
def periodTotal (tallyType : EmerTallyType) (month : Nat × Nat) (counters : List TallyIncrement) :
    Nat :=
  ((counters.filter fun c => c.tallyType = tallyType ∧ c.datetime.calendarMonth = month).map
    (·.counter)).sum

def countersOf (timerId : Nat) (counters : List TallyIncrement) : List TallyIncrement :=
  counters.filter (·.timerId = timerId)

def isMidnight : TimerEvent → Bool
  | .clockTickedMidnight .. => true
  | _ => false

/-- The seconds of a month, up to the last of the midnights, that a timer had run when a midnight
inside the month split it. -/
def secondsSplitInside (month : Nat × Nat) : Int → GDateTime → List TimerEvent → Nat
  | _, _, [] => 0
  | startMonotonicUs, date, .clockTickedMidnight mono now rescheduled :: es =>
    (if monthChanged now date = false ∧ date.calendarMonth = month then
      elapsedSeconds startMonotonicUs mono else 0) + secondsSplitInside month mono rescheduled es
  | startMonotonicUs, date, _ :: es => secondsSplitInside month startMonotonicUs date es

/-- The events that stop a timer and store its counters. -/
def Stops (timerId : Nat) (senderName : Text) : TimerEvent → Prop
  | .stopTimer stopped _ _ => stopped = timerId
  | .senderNameVanished vanished _ _ => vanished = senderName
  | .shutdown _ _ => True
  | _ => False

/-- The readings of the clocks with which an event stops timers. -/
def stopReading : TimerEvent → Option (GDateTime × Int)
  | .stopTimer _ now nowMonotonicUs => some (now, nowMonotonicUs)
  | .senderNameVanished _ now nowMonotonicUs => some (now, nowMonotonicUs)
  | .shutdown now nowMonotonicUs => some (now, nowMonotonicUs)
  | _ => none

/-- For each month the two totals of a timer differ by at most some seconds. -/
def AgreesWithin (seconds timerId : Nat) (stored : List TallyIncrement) : Prop :=
  ∀ month,
    let monthly := periodTotal .monthlyEvents month (countersOf timerId stored)
    let daily := periodTotal .dailyEvents month (countersOf timerId stored)
    monthly ≤ daily + seconds ∧ daily ≤ monthly + seconds

def midnights (es : List TimerEvent) : Nat := es.countP isMidnight

/-- Whether a timer of this number runs. -/
def RunsTimer {κ : Type*} (timerId : Nat) (r : Option (TimerRegistry κ)) : Prop :=
  ∃ running, r = some running ∧ ∃ t ∈ running.aggregateTimers, t.timerId = timerId

/-! ## 1. The counters of one timer -/

@[simp] theorem periodTotal_nil (tallyType : EmerTallyType) (month : Nat × Nat) :
    periodTotal tallyType month [] = 0 := rfl

theorem periodTotal_cons (tallyType : EmerTallyType) (month : Nat × Nat) (c : TallyIncrement)
    (counters : List TallyIncrement) :
    periodTotal tallyType month (c :: counters) =
      (if c.tallyType = tallyType ∧ c.datetime.calendarMonth = month then c.counter else 0) +
        periodTotal tallyType month counters := by
  rw [periodTotal, List.filter_cons]
  by_cases hperiod : c.tallyType = tallyType ∧ c.datetime.calendarMonth = month
  · rw [if_pos (decide_eq_true hperiod), if_pos hperiod, List.map_cons, List.sum_cons]
    rfl
  · rw [if_neg (by simpa using hperiod), if_neg hperiod, Nat.zero_add]
    rfl

theorem periodTotal_append (tallyType : EmerTallyType) (month : Nat × Nat)
    (counters counters' : List TallyIncrement) :
    periodTotal tallyType month (counters ++ counters') =
      periodTotal tallyType month counters + periodTotal tallyType month counters' := by
  simp [periodTotal]

theorem countersOf_append (timerId : Nat) (counters counters' : List TallyIncrement) :
    countersOf timerId (counters ++ counters') =
      countersOf timerId counters ++ countersOf timerId counters' := by
  simp [countersOf]

/-- What an operation stores for timers of other numbers. -/
theorem countersOf_flatMap_of_absent {f : EmerAggregateTimerImpl → List TallyIncrement}
    (hf : ∀ t, ∀ c ∈ f t, c.timerId = t.timerId) {timerId : Nat}
    {timers : List EmerAggregateTimerImpl} (habsent : ∀ t ∈ timers, t.timerId ≠ timerId) :
    countersOf timerId (timers.flatMap f) = [] := by
  rw [countersOf, List.filter_eq_nil_iff]
  intro c hc
  obtain ⟨t, ht, hct⟩ := List.mem_flatMap.mp hc
  simpa [hf t c hct] using habsent t ht

/-- What an operation stores for one of its timers. -/
theorem countersOf_flatMap {f : EmerAggregateTimerImpl → List TallyIncrement}
    (hf : ∀ t, ∀ c ∈ f t, c.timerId = t.timerId) {timers : List EmerAggregateTimerImpl}
    (hnodup : (timers.map (·.timerId)).Nodup) {t : EmerAggregateTimerImpl} (ht : t ∈ timers) :
    countersOf t.timerId (timers.flatMap f) = f t := by
  induction timers with
  | nil => cases ht
  | cons u timers ih =>
    obtain ⟨hnotMem, hrest⟩ := List.nodup_cons.mp hnodup
    rw [List.flatMap_cons, countersOf_append]
    rcases List.mem_cons.mp ht with rfl | ht
    -- the timer is the first, and no other has its number
    · rw [countersOf_flatMap_of_absent hf, List.append_nil, countersOf, List.filter_eq_self]
      · intro c hc
        simpa using hf t c hc
      · intro u hu hid
        exact hnotMem (List.mem_map.mpr ⟨u, hu, hid⟩)
    · have hne : u.timerId ≠ t.timerId := by
        intro hid
        exact hnotMem (List.mem_map.mpr ⟨t, ht, hid.symm⟩)
      rw [ih hrest ht, countersOf, List.filter_eq_nil_iff.mpr, List.nil_append]
      intro c hc
      simpa [hf u c hc] using hne

/-- The two counters of a stop. -/
def stopCounters (now : GDateTime) (mono : Int) (t : EmerAggregateTimerImpl) :
    List TallyIncrement :=
  [t.increment .dailyEvents now mono, t.increment .monthlyEvents now mono]

theorem timerId_stopCounters (now : GDateTime) (mono : Int) (t : EmerAggregateTimerImpl) :
    ∀ c ∈ stopCounters now mono t, c.timerId = t.timerId := by
  simp [stopCounters, EmerAggregateTimerImpl.increment]

/-- The counters of a midnight for one timer. -/
def midnightCounters (now date : GDateTime) (mono : Int) (t : EmerAggregateTimerImpl) :
    List TallyIncrement :=
  t.increment .dailyEvents date mono ::
    if monthChanged now date then [t.increment .monthlyEvents date mono] else []

/-- Both counters of a stop fall into the same month. -/
theorem periodTotal_stopCounters (now : GDateTime) (mono : Int) (t : EmerAggregateTimerImpl)
    (month : Nat × Nat) :
    periodTotal .dailyEvents month (stopCounters now mono t) =
      periodTotal .monthlyEvents month (stopCounters now mono t) := by
  simp [stopCounters, periodTotal_cons, EmerAggregateTimerImpl.increment]

/-- The daily counter of a midnight has a monthly one beside it only at the end of a month. -/
theorem periodTotal_midnightCounters (now date : GDateTime) (mono : Int)
    (t : EmerAggregateTimerImpl) (month : Nat × Nat) :
    periodTotal .dailyEvents month (midnightCounters now date mono t) =
      periodTotal .monthlyEvents month (midnightCounters now date mono t) +
        if monthChanged now date = false ∧ date.calendarMonth = month then
          elapsedSeconds t.startMonotonicUs mono else 0 := by
  by_cases hchanged : monthChanged now date
  · simp [midnightCounters, hchanged, periodTotal_cons, EmerAggregateTimerImpl.increment]
  · simp [midnightCounters, hchanged, periodTotal_cons, EmerAggregateTimerImpl.increment]

theorem tallyAfterStops_countersStored (now : GDateTime) (mono : Int)
    (timers : List EmerAggregateTimerImpl) (stored : List TallyIncrement) :
    tallyAfterStops countersStored now mono timers stored =
      stored ++ timers.flatMap (stopCounters now mono) := by
  induction timers generalizing stored with
  | nil => simp [tallyAfterStops]
  | cons t timers ih =>
    -- since no write fails, a stop stores both of its counters
    have hstop : (t.stop countersStored now mono stored).2 =
        stored ++ stopCounters now mono t := by
      simp [EmerAggregateTimerImpl.stop, countersStored, stopCounters]
    rw [List.flatMap_cons, ← List.append_assoc, ← hstop]
    exact ih _

theorem tallyAfterSave_countersStored (tallyType : EmerTallyType) (date : GDateTime) (mono : Int)
    (timers : List EmerAggregateTimerImpl) (stored : List TallyIncrement) :
    tallyAfterSave countersStored tallyType date mono timers stored =
      stored ++ timers.flatMap fun t => [t.increment tallyType date mono] := by
  induction timers generalizing stored with
  | nil => simp [tallyAfterSave]
  | cons t timers ih =>
    rw [List.flatMap_cons, ← List.append_assoc]
    exact ih _

/-! ## 2. What an event does to the timers and the counters -/

abbrev RecordedTimers := TimerRegistry (List TallyIncrement)

inductive Effect (r : RecordedTimers) : TimerEvent → RecordedTimers → Prop where
  | started {call : StartAggregateTimer} {r' : RecordedTimers} (t : EmerAggregateTimerImpl)
      (id : t.timerId = r.nextTimerId)
      (timers : r'.aggregateTimers = r.aggregateTimers ++ [t])
      (next : r'.nextTimerId = r.nextTimerId + 1)
      (date : r'.currentAggregateTallyDate = r.currentAggregateTallyDate)
      (tally : r'.aggregateTally = r.aggregateTally) :
      Effect r (.startAggregateTimer call) r'
  /-- Some timers go, and those among them that are stopped leave both counters. -/
  | stopped {event : TimerEvent} {r' : RecordedTimers} (now : GDateTime) (mono : Int)
      (gone : List EmerAggregateTimerImpl) (keep : EmerAggregateTimerImpl → Bool)
      (notMidnight : isMidnight event = false)
      (nodup : (gone.map (·.timerId)).Nodup) (mem : ∀ t ∈ gone, t ∈ r.aggregateTimers)
      (notKept : ∀ t ∈ gone, keep t = false)
      (reading : ∀ t ∈ gone, stopReading event = some (now, mono))
      (stops : ∀ t ∈ r.aggregateTimers, Stops t.timerId t.senderName event → t ∈ gone)
      (timers : r'.aggregateTimers = r.aggregateTimers.filter keep)
      (next : r'.nextTimerId = r.nextTimerId)
      (date : r'.currentAggregateTallyDate = r.currentAggregateTallyDate)
      (tally : r'.aggregateTally = r.aggregateTally ++ gone.flatMap (stopCounters now mono)) :
      Effect r event r'
  | ticked {r' : RecordedTimers} (mono : Int) (now rescheduled : GDateTime)
      (timers : r'.aggregateTimers = r.aggregateTimers.map (·.split mono))
      (next : r'.nextTimerId = r.nextTimerId)
      (date : r'.currentAggregateTallyDate = rescheduled)
      (tally : r'.aggregateTally = r.aggregateTally ++
        r.aggregateTimers.flatMap
          (fun t => [t.increment .dailyEvents r.currentAggregateTallyDate mono]) ++
        r.aggregateTimers.flatMap
          (fun t => if monthChanged now r.currentAggregateTallyDate then
            [t.increment .monthlyEvents r.currentAggregateTallyDate mono] else [])) :
      Effect r (.clockTickedMidnight mono now rescheduled) r'

/-- An event that leaves all timers and counters alone. -/
theorem Effect.unchanged {r : RecordedTimers} {event : TimerEvent}
    (hmidnight : isMidnight event = false)
    (hstops : ∀ t ∈ r.aggregateTimers, ¬ Stops t.timerId t.senderName event) :
    Effect r event r :=
  .stopped ⟨0, 0, 0⟩ 0 [] (fun _ => true) hmidnight List.nodup_nil (by simp) (by simp) (by simp)
    (fun t ht hstop => absurd hstop (hstops t ht)) (by simp) rfl rfl (by simp)

section

variable {sha1 : Bytes → Text → Bytes} {r r' : RecordedTimers}

theorem effect_startAggregateTimer {call : StartAggregateTimer}
    (hstep : handleTimerEvent countersStored sha1 r (.startAggregateTimer call) = some r') :
    Effect r (.startAggregateTimer call) r' := by
  rw [handleTimerEvent] at hstep
  cases hstart : r.startAggregateTimer sha1 call with
  | error e =>
    rw [hstart] at hstep
    cases hstep
    exact .unchanged rfl fun _ _ => id
  | ok started =>
    rw [hstart] at hstep
    cases hstep
    obtain ⟨t, hid, -, -, htimers, -, hnext, hdate, htally⟩ := startAggregateTimer_eq hstart
    exact .started t hid htimers hnext hdate htally

theorem effect_stopTimer (h : r.Consistent) {timerId : Nat} {now : GDateTime} {mono : Int}
    (hstep : handleTimerEvent countersStored sha1 r (.stopTimer timerId now mono) = some r') :
    Effect r (.stopTimer timerId now mono) r' := by
  rw [handleTimerEvent] at hstep
  cases hfind : r.findTimer timerId with
  | none =>
    -- no timer of that number runs, so the event stops none
    rw [hfind] at hstep
    cases hstep
    apply Effect.unchanged rfl
    intro t ht hstop
    have hstop : timerId = t.timerId := hstop
    rw [hstop, findTimer_eq_some h.nodup ht] at hfind
    cases hfind
  | some t =>
    rw [hfind] at hstep
    obtain ⟨ht, hid⟩ := mem_of_findTimer hfind
    obtain ⟨senderData, hsender, -⟩ := h.watched ht
    obtain ⟨stopped, hstopped, htimers, -, hnext, hdate, htally⟩ :=
      onTimerStoppedCb_eq countersStored hsender now mono
    simp only [hstopped] at hstep
    cases hstep
    refine .stopped now mono [t] (·.timerId ≠ t.timerId) rfl (by simp) (by simpa using ht)
      (by simp) (fun _ _ => rfl) ?_ htimers hnext hdate ?_
    · intro u hu hstop
      have hstop : timerId = u.timerId := hstop
      rw [List.mem_singleton]
      exact eq_of_timerId_eq h.nodup hu ht (by rw [← hstop, hid])
    · rw [htally]
      simp [EmerAggregateTimerImpl.stop, countersStored, stopCounters]

theorem effect_senderNameVanished (h : r.Consistent) {name : Text} {now : GDateTime} {mono : Int}
    (hstep : handleTimerEvent countersStored sha1 r (.senderNameVanished name now mono) =
      some r') : Effect r (.senderNameVanished name now mono) r' := by
  rw [handleTimerEvent] at hstep
  cases hsender : r.monitoredSenders name with
  | none =>
    -- the sender of a running timer is watched, so this one has none
    rw [hsender] at hstep
    cases hstep
    apply Effect.unchanged rfl
    intro t ht hstop
    have hstop : name = t.senderName := hstop
    obtain ⟨senderData, hwatched, -⟩ := h.watched ht
    rw [← hstop, hsender] at hwatched
    cases hwatched
  | some senderData =>
    rw [hsender] at hstep
    obtain ⟨stopped, timers, hstopped, hfilter, -, hnext, hdate, hmap, hmem, htally⟩ :=
      senderNameVanishedCb_eq countersStored h hsender now mono
    rw [Option.isNone_some, if_neg Bool.false_ne_true, hstopped] at hstep
    cases hstep
    have harray := h.arrays name
    rw [hsender] at harray
    refine .stopped now mono timers (·.timerId ∉ senderData) rfl ?_ hmem ?_ (fun _ _ => rfl) ?_
      hfilter hnext hdate ?_
    · rw [hmap]
      exact harray.nodup_iff.mpr (timersOf_nodup name h.nodup)
    · intro t ht
      have : t.timerId ∈ senderData := hmap ▸ List.mem_map.mpr ⟨t, ht, rfl⟩
      simpa using this
    · intro t ht hstop
      have hstop : name = t.senderName := hstop
      have hid := (h.mem_array_iff hsender ht).mpr hstop.symm
      rw [← hmap] at hid
      obtain ⟨u, hu, heq⟩ := List.mem_map.mp hid
      rwa [← eq_of_timerId_eq h.nodup (hmem u hu) ht heq]
    · rw [htally, tallyAfterStops_countersStored]

/-- Every event of a consistent registry has one of these effects. -/
theorem effect_of_handleTimerEvent (h : r.Consistent) {event : TimerEvent}
    (hstep : handleTimerEvent countersStored sha1 r event = some r') : Effect r event r' := by
  cases event with
  | startAggregateTimer call => exact effect_startAggregateTimer hstep
  | stopTimer timerId now mono => exact effect_stopTimer h hstep
  | senderNameVanished name now mono => exact effect_senderNameVanished h hstep
  | clockTickedMidnight mono now rescheduled =>
    rw [handleTimerEvent, clockTickedMidnightCb_eq] at hstep
    cases hstep
    refine .ticked mono now rescheduled rfl rfl rfl ?_
    simp only [iter_countersStored, tallyAfterSave_countersStored]
    split <;> simp
  | permissionsChanged daemonEnabled =>
    rw [handleTimerEvent, onPermissionsChanged] at hstep
    cases daemonEnabled with
    | true =>
      cases hstep
      exact .stopped ⟨0, 0, 0⟩ 0 [] (fun _ => true) rfl List.nodup_nil (by simp) (by simp)
        (by simp) (fun _ _ => False.elim) (by simp) rfl rfl (by simp)
    | false =>
      -- all timers go, and none of them is stopped
      cases hstep
      exact .stopped ⟨0, 0, 0⟩ 0 [] (fun _ => false) rfl List.nodup_nil (by simp) (by simp)
        (by simp) (fun _ _ => False.elim) (by simp) rfl rfl (by simp)
  | shutdown now mono =>
    rw [handleTimerEvent, shutdown_eq] at hstep
    cases hstep
    exact .stopped now mono r.aggregateTimers (fun _ => false) rfl h.nodup (fun _ => id)
      (fun _ _ => rfl) (fun _ _ => rfl) (fun _ ht _ => ht) (by simp) rfl rfl
      (tallyAfterStops_countersStored now mono r.aggregateTimers r.aggregateTally)

end

/-! ## 3. One timer over a run -/

/-- What the midnights of a run store for a timer that runs through it. -/
def midnightsCounters : EmerAggregateTimerImpl → GDateTime → List TimerEvent → List TallyIncrement
  | _, _, [] => []
  | t, date, .clockTickedMidnight mono now rescheduled :: es =>
    midnightCounters now date mono t ++ midnightsCounters (t.split mono) rescheduled es
  | t, date, _ :: es => midnightsCounters t date es

/-- The timer as the last midnight of a run has split it. -/
def lastSplit : EmerAggregateTimerImpl → List TimerEvent → EmerAggregateTimerImpl
  | t, [] => t
  | t, .clockTickedMidnight mono _ _ :: es => lastSplit (t.split mono) es
  | t, _ :: es => lastSplit t es

/-- The daily counters get ahead by exactly the seconds that midnights inside a month split off. -/
theorem periodTotal_midnightsCounters (t : EmerAggregateTimerImpl) (date : GDateTime)
    (es : List TimerEvent) (month : Nat × Nat) :
    periodTotal .dailyEvents month (midnightsCounters t date es) =
      periodTotal .monthlyEvents month (midnightsCounters t date es) +
        secondsSplitInside month t.startMonotonicUs date es := by
  induction es generalizing t date with
  | nil => rfl
  | cons event es ih =>
    cases event with
    | clockTickedMidnight mono now rescheduled =>
      have hrest := ih (t.split mono) rescheduled
      have hstart : (t.split mono).startMonotonicUs = mono := rfl
      rw [hstart] at hrest
      rw [midnightsCounters, secondsSplitInside, periodTotal_append, periodTotal_append,
        periodTotal_midnightCounters, hrest]
      omega
    | _ => exact ih t date

namespace Effect

variable {r r' : RecordedTimers} {event : TimerEvent}

theorem nextTimerId_le (h : Effect r event r') : r.nextTimerId ≤ r'.nextTimerId := by
  cases h with
  | started t id timers next => omega
  | stopped now mono gone keep notMidnight nodup mem notKept reading stops timers next => omega
  | ticked mono now rescheduled timers next => omega

/-- A timer that does not run starts only if its number is the next one. -/
theorem absent (h : Effect r event r') {timerId : Nat}
    (habsent : ∀ t ∈ r.aggregateTimers, t.timerId ≠ timerId) (hne : r.nextTimerId ≠ timerId) :
    ∀ t ∈ r'.aggregateTimers, t.timerId ≠ timerId := by
  cases h with
  | started t id timers =>
    intro u hu
    rw [timers, List.mem_append, List.mem_singleton] at hu
    rcases hu with hu | rfl
    · exact habsent u hu
    · rwa [id]
  | stopped now mono gone keep notMidnight nodup mem notKept reading stops timers =>
    intro u hu
    rw [timers] at hu
    exact habsent u (List.mem_of_mem_filter hu)
  | ticked mono now rescheduled timers =>
    intro u hu
    rw [timers] at hu
    obtain ⟨t, ht, rfl⟩ := List.mem_map.mp hu
    exact habsent t ht

/-- Nothing is stored for a timer that does not run. -/
theorem countersOf_of_absent (h : Effect r event r') {timerId : Nat}
    (habsent : ∀ t ∈ r.aggregateTimers, t.timerId ≠ timerId) :
    countersOf timerId r'.aggregateTally = countersOf timerId r.aggregateTally := by
  cases h with
  | started t id timers next date tally => rw [tally]
  | stopped now mono gone keep notMidnight nodup mem notKept reading stops timers next date tally =>
    rw [tally, countersOf_append,
      countersOf_flatMap_of_absent (timerId_stopCounters now mono)
        (fun t ht => habsent t (mem t ht)), List.append_nil]
  | ticked mono now rescheduled timers next date tally =>
    rw [tally, countersOf_append, countersOf_append, countersOf_flatMap_of_absent _ habsent,
      countersOf_flatMap_of_absent _ habsent, List.append_nil, List.append_nil]
    · intro t c hc
      split at hc
      · rw [List.mem_singleton.mp hc]
        rfl
      · cases hc
    · intro t c hc
      rw [List.mem_singleton.mp hc]
      rfl

/-- **Step lemma.**  While a timer runs, only the midnights store counters for it, and split it. -/
theorem kept (h : Effect r event r') (hr : r.Consistent) {t : EmerAggregateTimerImpl}
    (ht : t ∈ r.aggregateTimers) (hruns : ∃ u ∈ r'.aggregateTimers, u.timerId = t.timerId) :
    ∃ t' ∈ r'.aggregateTimers, t'.timerId = t.timerId ∧ t'.senderName = t.senderName ∧
      ∃ new, countersOf t.timerId r'.aggregateTally =
          countersOf t.timerId r.aggregateTally ++ new ∧
        ∀ es,
          midnightsCounters t r.currentAggregateTallyDate (event :: es) =
              new ++ midnightsCounters t' r'.currentAggregateTallyDate es ∧
            lastSplit t (event :: es) = lastSplit t' es := by
  cases h with
  | started new id timers next date tally =>
    refine ⟨t, ?_, rfl, rfl, [], by rw [tally, List.append_nil], ?_⟩
    · rw [timers]
      exact List.mem_append_left _ ht
    · intro es
      rw [date]
      exact ⟨rfl, rfl⟩
  | stopped now mono gone keep notMidnight nodup mem notKept reading stops timers next date tally =>
    obtain ⟨u, hu, hid⟩ := hruns
    rw [timers, List.mem_filter] at hu
    -- the timer that still runs is the one it was, so it is not among those that go
    obtain rfl := eq_of_timerId_eq hr.nodup hu.1 ht hid
    have habsent : ∀ v ∈ gone, v.timerId ≠ u.timerId := by
      intro v hv hid
      rw [eq_of_timerId_eq hr.nodup (mem v hv) ht hid] at hv
      exact Bool.noConfusion ((notKept u hv).symm.trans hu.2)
    refine ⟨u, ?_, rfl, rfl, [], ?_, ?_⟩
    · rw [timers]
      exact List.mem_filter.mpr hu
    · rw [tally, countersOf_append,
        countersOf_flatMap_of_absent (timerId_stopCounters now mono) habsent]
    · intro es
      rw [date]
      cases event with
      | clockTickedMidnight => cases notMidnight
      | _ => exact ⟨rfl, rfl⟩
  | ticked mono now rescheduled timers next date tally =>
    refine ⟨t.split mono, ?_, rfl, rfl, midnightCounters now r.currentAggregateTallyDate mono t,
      ?_, ?_⟩
    · rw [timers]
      exact List.mem_map_of_mem ht
    -- the daily counter of this tick, and the monthly one at the end of a month
    · rw [tally, countersOf_append, countersOf_append, countersOf_flatMap _ hr.nodup ht,
        countersOf_flatMap _ hr.nodup ht, List.append_assoc]
      · rfl
      · intro u c hc
        split at hc
        · rw [List.mem_singleton.mp hc]
          rfl
        · cases hc
      · intro u c hc
        rw [List.mem_singleton.mp hc]
        rfl
    · intro es
      rw [date]
      exact ⟨rfl, rfl⟩

/-- A stop stores the same seconds for the day and for the month. -/
theorem stop (h : Effect r event r') (hr : r.Consistent) {t : EmerAggregateTimerImpl}
    (ht : t ∈ r.aggregateTimers) (hstops : Stops t.timerId t.senderName event) :
    (∀ u ∈ r'.aggregateTimers, u.timerId ≠ t.timerId) ∧
      ∃ now mono, stopReading event = some (now, mono) ∧
        countersOf t.timerId r'.aggregateTally =
          countersOf t.timerId r.aggregateTally ++ stopCounters now mono t := by
  cases h with
  | started => cases hstops
  | stopped now mono gone keep notMidnight nodup mem notKept reading stops timers next date tally =>
    have hgone : t ∈ gone := stops t ht hstops
    constructor
    · intro u hu hid
      rw [timers, List.mem_filter] at hu
      rw [eq_of_timerId_eq hr.nodup hu.1 ht hid, notKept t hgone] at hu
      exact Bool.false_ne_true hu.2
    · refine ⟨now, mono, reading t hgone, ?_⟩
      rw [tally, countersOf_append,
        countersOf_flatMap (timerId_stopCounters now mono) nodup hgone]
  | ticked => cases hstops

end Effect

variable (sha1 : Bytes → Text → Bytes)

/-- The registry that the daemon starts with reaches a consistent one, and nothing is stored yet
under numbers that have not been given out. -/
theorem reached_of_run {recordingEnabled : Bool} {date : GDateTime} {es : List TimerEvent}
    {r : RecordedTimers}
    (hrun : run (timerStep countersStored sha1)
      (some (timerRegistryNew recordingEnabled date [])) es = some r) :
    r.Consistent ∧ ∀ timerId, r.nextTimerId ≤ timerId →
      countersOf timerId r.aggregateTally = [] := by
  let I : Option RecordedTimers → Prop := fun s => ∃ r, s = some r ∧ r.Consistent ∧
    ∀ timerId, r.nextTimerId ≤ timerId → countersOf timerId r.aggregateTally = []
  have hstep : ∀ s e, I s → I (timerStep countersStored sha1 s e) := by
    rintro s e ⟨r, rfl, hr, hfresh⟩
    obtain ⟨r', hstep, hr'⟩ := hr.handleTimerEvent countersStored sha1 e
    have heffect := effect_of_handleTimerEvent hr hstep
    refine ⟨r', hstep, hr', ?_⟩
    intro timerId hle
    have hold : r.nextTimerId ≤ timerId := heffect.nextTimerId_le.trans hle
    -- a number that was not given out belongs to no running timer
    rw [heffect.countersOf_of_absent fun t ht => by have := hr.fresh t ht; omega]
    exact hfresh timerId hold
  have hinit : I (some (timerRegistryNew recordingEnabled date [])) :=
    ⟨_, rfl, consistent_new recordingEnabled date [], fun _ _ => rfl⟩
  obtain ⟨r', heq, hr, hfresh⟩ := (throughout_of_invariant hstep es hinit).last
  rw [hrun] at heq
  cases heq
  exact ⟨hr, hfresh⟩

/-- **Run lemma.**  A timer that goes on running is split by the midnights, which store its
counters. -/
theorem counters_of_running {r : RecordedTimers} (hr : r.Consistent)
    {t : EmerAggregateTimerImpl} (ht : t ∈ r.aggregateTimers) {mid : List TimerEvent}
    (hruns : Throughout (timerStep countersStored sha1) (RunsTimer t.timerId) (some r) mid) :
    ∃ r', run (timerStep countersStored sha1) (some r) mid = some r' ∧ r'.Consistent ∧
      lastSplit t mid ∈ r'.aggregateTimers ∧ (lastSplit t mid).timerId = t.timerId ∧
      (lastSplit t mid).senderName = t.senderName ∧
      countersOf t.timerId r'.aggregateTally =
        countersOf t.timerId r.aggregateTally ++
          midnightsCounters t r.currentAggregateTallyDate mid := by
  induction mid generalizing r t with
  | nil => exact ⟨r, rfl, hr, ht, rfl, rfl, (List.append_nil _).symm⟩
  | cons e mid ih =>
    obtain ⟨-, hrest⟩ := (throughout_cons _ _ _ e mid).mp hruns
    obtain ⟨r₁, hstep, hr₁⟩ := hr.handleTimerEvent countersStored sha1 e
    have hnext : timerStep countersStored sha1 (some r) e = some r₁ := hstep
    rw [hnext] at hrest
    obtain ⟨running, heq, hrunning⟩ := hrest [] List.nil_prefix
    cases heq
    -- the first event adds its part, and the rest of the run goes on from the timer it leaves
    obtain ⟨t₁, ht₁, hid₁, hsender₁, new₁, hnew₁, hfirst⟩ :=
      (effect_of_handleTimerEvent hr hstep).kept hr ht hrunning
    obtain ⟨hcounters, hsplit⟩ := hfirst mid
    rw [← hid₁] at hrest
    obtain ⟨r₂, hrun, hr₂, ht₂, hid₂, hsender₂, hnew₂⟩ := ih hr₁ ht₁ hrest
    rw [hsplit, hcounters]
    refine ⟨r₂, ?_, hr₂, ht₂, hid₂.trans hid₁, hsender₂.trans hsender₁, ?_⟩
    · rw [run_cons, hnext, hrun]
    · rw [← hid₁, hnew₂, hid₁, hnew₁, List.append_assoc]

/-- After a timer has gone nothing more is stored for it. -/
theorem countersOf_run_of_gone {r : RecordedTimers} (hr : r.Consistent) {timerId : Nat}
    (habsent : ∀ t ∈ r.aggregateTimers, t.timerId ≠ timerId) (hlt : timerId < r.nextTimerId)
    (es : List TimerEvent) :
    ∃ r', run (timerStep countersStored sha1) (some r) es = some r' ∧
      countersOf timerId r'.aggregateTally = countersOf timerId r.aggregateTally := by
  induction es generalizing r with
  | nil => exact ⟨r, rfl, rfl⟩
  | cons e es ih =>
    obtain ⟨r₁, hstep, hr₁⟩ := hr.handleTimerEvent countersStored sha1 e
    have heffect := effect_of_handleTimerEvent hr hstep
    have hnext := heffect.nextTimerId_le
    obtain ⟨r', hrun, hcounters⟩ := ih hr₁ (heffect.absent habsent (by omega)) (by omega)
    refine ⟨r', ?_, hcounters.trans (heffect.countersOf_of_absent habsent)⟩
    rw [run_cons]
    exact (congrArg (fun s => run (timerStep countersStored sha1) s es) hstep).trans hrun

/-- All that is stored for a timer from its start on: the counters of the midnights that it runs
through and those of its stop. -/
theorem counters_of_stopped {recordingEnabled : Bool} {date : GDateTime}
    {pre mid post : List TimerEvent} {r started : RecordedTimers} {call : StartAggregateTimer}
    {path : String} {event : TimerEvent}
    (hpre : run (timerStep countersStored sha1)
      (some (timerRegistryNew recordingEnabled date [])) pre = some r)
    (hstart : r.startAggregateTimer sha1 call = .ok (path, started))
    (hruns : Throughout (timerStep countersStored sha1) (RunsTimer r.nextTimerId) (some started)
      mid)
    (hstops : Stops r.nextTimerId call.senderName event) :
    ∃ (t : EmerAggregateTimerImpl) (final : RecordedTimers),
      t.startMonotonicUs = call.monotonicTimeUs ∧ t.timerId = r.nextTimerId ∧
        run (timerStep countersStored sha1) (some started) (mid ++ event :: post) = some final ∧
        ∃ now mono, stopReading event = some (now, mono) ∧
          countersOf r.nextTimerId final.aggregateTally =
            midnightsCounters t r.currentAggregateTallyDate mid ++
              stopCounters now mono (lastSplit t mid) := by
  obtain ⟨hr, hfresh⟩ := reached_of_run sha1 hpre
  have hstarted := hr.startAggregateTimer hstart
  obtain ⟨t, hid, hmono, hsender, htimers, -, hnext, hdate, htally⟩ :=
    startAggregateTimer_eq hstart
  have ht : t ∈ started.aggregateTimers := by
    rw [htimers]
    exact List.mem_append_right _ List.mem_cons_self
  have hnone : countersOf r.nextTimerId started.aggregateTally = [] := by
    rw [htally]
    exact hfresh r.nextTimerId le_rfl
  rw [← hid] at hruns hstops hnone ⊢
  rw [← hsender] at hstops
  -- up to the stop, by the run lemma
  obtain ⟨r₁, hrun₁, hr₁, ht₁, hid₁, hsender₁, hmids⟩ :=
    counters_of_running sha1 hstarted ht hruns
  -- the stop itself
  rw [← hid₁, ← hsender₁] at hstops
  obtain ⟨r₂, hstep₂, hr₂⟩ := hr₁.handleTimerEvent countersStored sha1 event
  have heffect := effect_of_handleTimerEvent hr₁ hstep₂
  obtain ⟨hgone, now, mono, hreading, hstop⟩ := heffect.stop hr₁ ht₁ hstops
  -- and whatever comes later
  have hlt : (lastSplit t mid).timerId < r₂.nextTimerId :=
    (hr₁.fresh _ ht₁).trans_le heffect.nextTimerId_le
  obtain ⟨final, hrun₂, hlater⟩ := countersOf_run_of_gone sha1 hr₂ hgone hlt post
  refine ⟨t, final, hmono, rfl, ?_, now, mono, hreading, ?_⟩
  · rw [run_append, hrun₁, run_cons]
    exact (congrArg (fun s => run (timerStep countersStored sha1) s post) hstep₂).trans hrun₂
  · rw [hid₁] at hlater hstop
    rw [hlater, hstop, hmids, hnone, List.nil_append, hdate]

/-! ## 4. Agreement of the totals -/

/-- Take a timer that is started in any registry the daemon reaches, runs through `mid` and is
stopped by `event`.  Its monthly and daily totals agree up to one second for each midnight it ran
through exactly if, in each month, the midnights inside that month split off no more than that. -/
theorem monthlyAgreesDaily_iff {recordingEnabled : Bool} {date : GDateTime}
    {pre mid post : List TimerEvent} {r started : RecordedTimers} {call : StartAggregateTimer}
    {path : String} {event : TimerEvent}
    (hpre : run (timerStep countersStored sha1)
      (some (timerRegistryNew recordingEnabled date [])) pre = some r)
    (hstart : r.startAggregateTimer sha1 call = .ok (path, started))
    (hruns : Throughout (timerStep countersStored sha1) (RunsTimer r.nextTimerId) (some started)
      mid)
    (hstops : Stops r.nextTimerId call.senderName event) :
    ∃ final, run (timerStep countersStored sha1) (some started) (mid ++ event :: post) =
        some final ∧
      (AgreesWithin (midnights mid) r.nextTimerId final.aggregateTally ↔
        ∀ month, secondsSplitInside month call.monotonicTimeUs r.currentAggregateTallyDate mid ≤
          midnights mid) := by
  obtain ⟨t, final, hmono, -, hrun, now, mono, -, hcounters⟩ :=
    counters_of_stopped sha1 hpre hstart hruns hstops
  refine ⟨final, hrun, ?_⟩
  rw [AgreesWithin, hcounters]
  apply forall_congr'
  intro month
  rw [periodTotal_append, periodTotal_append, periodTotal_stopCounters,
    periodTotal_midnightsCounters, hmono]
  omega

/-- A caller of `StartAggregateTimer` at monotonic time 0. -/
def callAtZero : StartAggregateTimer where
  senderName := ":1.7".toList
  unixUserId := 1000
  eventId := ⟨gVariantTypeBytestring, List.replicate uuidLength 3⟩
  hasPayload := false
  payload := ⟨[118], []⟩
  exported := true
  monotonicTimeUs := 0

def noHash : Bytes → Text → Bytes := fun eventId _ => eventId

/-- One midnight at the end of June, after an hour, and a stop an hour later. -/
theorem monthlyAgreesDaily_iff_monthEnd :
    ∃ final : RecordedTimers, run (timerStep countersStored noHash)
        (some (timerRegistryNew true ⟨2024, 6, 30⟩ []))
        [.startAggregateTimer callAtZero,
          .clockTickedMidnight 3600000000 ⟨2024, 7, 1⟩ ⟨2024, 7, 1⟩,
          .stopTimer 0 ⟨2024, 7, 1⟩ 7200000000] = some final ∧
      AgreesWithin 1 0 final.aggregateTally := by
  have hruns : Throughout (timerStep countersStored noHash) (RunsTimer 0)
      (timerStep countersStored noHash (some (timerRegistryNew true ⟨2024, 6, 30⟩ []))
        (.startAggregateTimer callAtZero))
      [.clockTickedMidnight 3600000000 ⟨2024, 7, 1⟩ ⟨2024, 7, 1⟩] := by
    rw [throughout_cons, throughout_nil]
    exact ⟨⟨_, rfl, _, List.mem_cons_self, rfl⟩, ⟨_, rfl, _, List.mem_cons_self, rfl⟩⟩
  obtain ⟨final, hrun, hagrees⟩ := @monthlyAgreesDaily_iff noHash true ⟨2024, 6, 30⟩ []
    [.clockTickedMidnight 3600000000 ⟨2024, 7, 1⟩ ⟨2024, 7, 1⟩] [] _ _ callAtZero _
    (.stopTimer 0 ⟨2024, 7, 1⟩ 7200000000) rfl rfl hruns rfl
  refine ⟨final, hrun, hagrees.mpr ?_⟩
  intro month
  have hchanged : monthChanged ⟨2024, 7, 1⟩ ⟨2024, 6, 30⟩ = true := rfl
  show secondsSplitInside month 0 ⟨2024, 6, 30⟩ [.clockTickedMidnight _ _ _] ≤ 1
  simp [secondsSplitInside, hchanged]

/-- The same with the midnight inside June: the day gets 7200 seconds and the month 3600. -/
theorem monthly_behind_daily_midMonth :
    ∃ final : RecordedTimers, run (timerStep countersStored noHash)
        (some (timerRegistryNew true ⟨2024, 6, 10⟩ []))
        [.startAggregateTimer callAtZero,
          .clockTickedMidnight 3600000000 ⟨2024, 6, 11⟩ ⟨2024, 6, 11⟩,
          .stopTimer 0 ⟨2024, 6, 11⟩ 7200000000] = some final ∧
      periodTotal .dailyEvents (2024, 6) (countersOf 0 final.aggregateTally) = 7200 ∧
      periodTotal .monthlyEvents (2024, 6) (countersOf 0 final.aggregateTally) = 3600 ∧
      ¬ AgreesWithin 1 0 final.aggregateTally := by
  refine ⟨_, rfl, by decide +kernel, by decide +kernel, ?_⟩
  intro hagrees
  have hjune := (hagrees (2024, 6)).2
  revert hjune
  decide +kernel

end EventRecorder
