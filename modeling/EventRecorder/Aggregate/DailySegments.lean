import EventRecorder.Aggregate.MonthlyDaily

/-!
# The daily seconds of a timer

The midnights cut the time that a timer runs into segments.  Every store of a daily counter is
paired with the split or the end of the timer, so each segment reaches the daily tally once, rounded
down to seconds, and what is lost is less than a second for each of them.
-/

namespace EventRecorder

open Theory TimerRegistry

/-! ## 1. Segments -/

/-- A stretch of monotonic time, and the date that its seconds belong to. -/
structure DaySegment where
  startUs : Int
  endUs : Int
  date : GDateTime
  deriving DecidableEq, Repr

def DaySegment.lengthUs (segment : DaySegment) : Int := segment.endUs - segment.startUs

/-- The counter of the code for a segment. -/
def DaySegment.seconds (segment : DaySegment) : Nat :=
  elapsedSeconds segment.startUs segment.endUs

/-- The segments that the midnights of a run close. -/
def closedSegments : Int → GDateTime → List TimerEvent → List DaySegment
  | _, _, [] => []
  | startUs, date, .clockTickedMidnight mono _ rescheduled :: es =>
    ⟨startUs, mono, date⟩ :: closedSegments mono rescheduled es
  | startUs, date, _ :: es => closedSegments startUs date es

/-- The reading of the last midnight. -/
def lastMidnight : Int → List TimerEvent → Int
  | startUs, [] => startUs
  | _, .clockTickedMidnight mono _ _ :: es => lastMidnight mono es
  | startUs, _ :: es => lastMidnight startUs es

/-- All segments of a timer that runs through `mid` and is stopped after it. -/
def daySegments (startUs : Int) (date : GDateTime) (mid : List TimerEvent) (now : GDateTime)
    (endUs : Int) : List DaySegment :=
  closedSegments startUs date mid ++ [⟨lastMidnight startUs mid, endUs, now⟩]

/-- The daily counters that were stored for a timer. -/
def dailyCounters (timerId : Nat) (counters : List TallyIncrement) : List TallyIncrement :=
  (countersOf timerId counters).filter (·.tallyType = .dailyEvents)

/-- What a daily counter adds, and to which date. -/
def TallyIncrement.dated (counter : TallyIncrement) : GDateTime × Nat :=
  (counter.datetime, counter.counter)

theorem length_daySegments (startUs : Int) (date : GDateTime) (mid : List TimerEvent)
    (now : GDateTime) (endUs : Int) :
    (daySegments startUs date mid now endUs).length = midnights mid + 1 := by
  have hclosed : ∀ (startUs : Int) (date : GDateTime),
      (closedSegments startUs date mid).length = midnights mid := by
    induction mid with
    | nil => exact fun _ _ => rfl
    | cons event mid ih =>
      intro startUs date
      rw [midnights, List.countP_cons]
      cases event with
      | clockTickedMidnight mono now rescheduled =>
        rw [closedSegments, List.length_cons, ih]
        rfl
      | _ => exact ih startUs date
  rw [daySegments, List.length_append, hclosed]
  rfl

/-- The segments join up. -/
theorem sum_lengthUs_daySegments (startUs : Int) (date : GDateTime) (mid : List TimerEvent)
    (now : GDateTime) (endUs : Int) :
    ((daySegments startUs date mid now endUs).map (·.lengthUs)).sum = endUs - startUs := by
  induction mid generalizing startUs date with
  | nil => simp [daySegments, closedSegments, lastMidnight, DaySegment.lengthUs]
  | cons event mid ih =>
    cases event with
    | clockTickedMidnight mono now' rescheduled =>
      have hrest := ih mono rescheduled
      show DaySegment.lengthUs ⟨startUs, mono, date⟩ +
        ((daySegments mono rescheduled mid now endUs).map (·.lengthUs)).sum = _
      rw [hrest, DaySegment.lengthUs]
      dsimp only
      omega
    | _ => exact ih startUs date

/-! ## 2. Rounding -/

theorem elapsedSeconds_le (startUs endUs : Int) : elapsedSeconds startUs endUs ≤ gMaxuint32 :=
  Nat.min_le_right _ _

/-- A segment that is not too long counts its whole seconds. -/
theorem DaySegment.seconds_eq {segment : DaySegment} (hle : segment.startUs ≤ segment.endUs)
    (hshort : segment.lengthUs < 2 ^ 32 * gUsecPerSec) :
    (segment.seconds : Int) = segment.lengthUs / gUsecPerSec := by
  have hnonneg : 0 ≤ segment.endUs - segment.startUs := by omega
  rw [DaySegment.lengthUs, gUsecPerSec] at hshort
  rw [DaySegment.seconds, elapsedSeconds, DaySegment.lengthUs, gUsecPerSec, gMaxuint32,
    Int.tdiv_eq_ediv_of_nonneg hnonneg]
  omega

/-- Less than a second is lost for each segment. -/
theorem sum_seconds_bounds {segments : List DaySegment}
    (hseconds : ∀ segment ∈ segments,
      (segment.seconds : Int) = segment.lengthUs / gUsecPerSec) :
    gUsecPerSec * (segments.map (·.seconds)).sum ≤ (segments.map (·.lengthUs)).sum ∧
      (segments.map (·.lengthUs)).sum ≤
        gUsecPerSec * (segments.map (·.seconds)).sum +
          (gUsecPerSec - 1) * segments.length := by
  induction segments with
  | nil => decide
  | cons segment segments ih =>
    obtain ⟨hlow, hhigh⟩ := ih fun s hs => hseconds s (List.mem_cons_of_mem _ hs)
    have hfirst := hseconds segment List.mem_cons_self
    simp only [List.map_cons, List.sum_cons, List.length_cons, gUsecPerSec, Nat.cast_add,
      Nat.cast_one] at hlow hhigh hfirst ⊢
    omega

/-! ## 3. What is stored -/

section Counters

variable (t : EmerAggregateTimerImpl)

theorem startMonotonicUs_lastSplit (es : List TimerEvent) :
    (lastSplit t es).startMonotonicUs = lastMidnight t.startMonotonicUs es := by
  induction es generalizing t with
  | nil => rfl
  | cons event es ih =>
    cases event with
    | clockTickedMidnight mono now rescheduled => exact ih (t.split mono)
    | _ => exact ih t

/-- Each midnight stores one daily counter. -/
theorem daily_midnightsCounters (date : GDateTime) (es : List TimerEvent) :
    ((midnightsCounters t date es).filter (·.tallyType = .dailyEvents)).map (·.dated) =
      (closedSegments t.startMonotonicUs date es).map fun s => (s.date, s.seconds) := by
  induction es generalizing t date with
  | nil => rfl
  | cons event es ih =>
    cases event with
    | clockTickedMidnight mono now rescheduled =>
      have hmidnight : (midnightCounters now date mono t).filter (·.tallyType = .dailyEvents) =
          [t.increment .dailyEvents date mono] := by
        rw [midnightCounters]
        split <;> rfl
      rw [midnightsCounters, closedSegments, List.filter_append, List.map_append, hmidnight, ih]
      rfl
    | _ => exact ih t date

/-- And so does a stop. -/
theorem daily_stopCounters (now : GDateTime) (mono : Int) :
    ((stopCounters now mono t).filter (·.tallyType = .dailyEvents)).map (·.dated) =
      [(now, elapsedSeconds t.startMonotonicUs mono)] := rfl

/-- Every counter is an elapsed time. -/
theorem counter_midnightsCounters_le (date : GDateTime) (es : List TimerEvent) :
    ∀ c ∈ midnightsCounters t date es, c.counter ≤ gMaxuint32 := by
  induction es generalizing t date with
  | nil => exact fun c hc => absurd hc List.not_mem_nil
  | cons event es ih =>
    cases event with
    | clockTickedMidnight mono now rescheduled =>
      intro c hc
      cases List.mem_append.mp hc with
      | inl hfirst =>
        rw [midnightCounters, List.mem_cons] at hfirst
        cases hfirst with
        | inl h =>
          rw [h]
          exact elapsedSeconds_le _ _
        | inr h =>
          split at h
          · rw [List.mem_singleton.mp h]
            exact elapsedSeconds_le _ _
          · cases h
      | inr hrest => exact ih _ _ c hrest
    | _ => exact ih t date

end Counters

/-- **The daily seconds of a timer are neither lost nor counted twice.**  A timer that is started in
any registry the daemon reaches, runs through `mid` and is stopped by `event` has one daily counter
for each segment, dated with it.  When the readings do not decrease and no segment is too long, each
counter is the whole seconds of its segment, and less than a second is lost for each of them. -/
theorem daily_time_kept (sha1 : Bytes → Text → Bytes) {recordingEnabled : Bool} {date : GDateTime}
    {pre mid post : List TimerEvent} {r started : RecordedTimers} {call : StartAggregateTimer}
    {path : String} {event : TimerEvent} {now : GDateTime} {endUs : Int}
    (hpre : run (timerStep countersStored sha1)
      (some (timerRegistryNew recordingEnabled date [])) pre = some r)
    (hstart : r.startAggregateTimer sha1 call = .ok (path, started))
    (hruns : Throughout (timerStep countersStored sha1) (RunsTimer r.nextTimerId) (some started)
      mid)
    (hstops : Stops r.nextTimerId call.senderName event)
    (hreading : stopReading event = some (now, endUs)) :
    ∃ final, run (timerStep countersStored sha1) (some started) (mid ++ event :: post) =
        some final ∧
      let segments := daySegments call.monotonicTimeUs r.currentAggregateTallyDate mid now endUs
      let stored := dailyCounters r.nextTimerId final.aggregateTally
      let total : Nat := (stored.map (·.counter)).sum
      stored.map (·.dated) = segments.map (fun s => (s.date, s.seconds)) ∧
        (∀ c ∈ countersOf r.nextTimerId final.aggregateTally, c.counter ≤ 2 ^ 32 - 1) ∧
        ((∀ s ∈ segments, s.startUs ≤ s.endUs ∧ s.lengthUs < 2 ^ 32 * gUsecPerSec) →
          (∀ s ∈ segments, (s.seconds : Int) = s.lengthUs / gUsecPerSec) ∧
            endUs - call.monotonicTimeUs < gUsecPerSec * (total + (midnights mid + 1)) ∧
            gUsecPerSec * total ≤ endUs - call.monotonicTimeUs) := by
  obtain ⟨t, final, hmono, -, hrun, now', mono', hreading', hcounters⟩ :=
    counters_of_stopped sha1 hpre hstart hruns hstops
  obtain ⟨rfl, rfl⟩ := Prod.mk.inj (Option.some.inj (hreading.symm.trans hreading'))
  refine ⟨final, hrun, ?_⟩
  dsimp only
  have hstored : (dailyCounters r.nextTimerId final.aggregateTally).map (·.dated) =
      (daySegments call.monotonicTimeUs r.currentAggregateTallyDate mid now endUs).map
        (fun s => (s.date, s.seconds)) := by
    rw [dailyCounters, hcounters, List.filter_append, List.map_append, daily_midnightsCounters,
      daily_stopCounters, startMonotonicUs_lastSplit, hmono, daySegments, List.map_append]
    rfl
  -- the counters alone
  have htotal : (dailyCounters r.nextTimerId final.aggregateTally).map (·.counter) =
      (daySegments call.monotonicTimeUs r.currentAggregateTallyDate mid now endUs).map
        (·.seconds) := by
    have hsnd := congrArg (List.map Prod.snd) hstored
    rw [List.map_map, List.map_map] at hsnd
    exact hsnd
  refine ⟨hstored, ?_, ?_⟩
  · intro c hc
    rw [hcounters] at hc
    cases List.mem_append.mp hc with
    | inl hmid => exact counter_midnightsCounters_le t _ _ c hmid
    | inr hstop =>
      rw [stopCounters] at hstop
      simp only [List.mem_cons, List.not_mem_nil, or_false] at hstop
      cases hstop with
      | inl h =>
        rw [h]
        exact elapsedSeconds_le _ _
      | inr h =>
        rw [h]
        exact elapsedSeconds_le _ _
  · intro hordered
    have hseconds : ∀ s ∈ daySegments call.monotonicTimeUs r.currentAggregateTallyDate mid now
        endUs, (s.seconds : Int) = s.lengthUs / gUsecPerSec :=
      fun s hs => DaySegment.seconds_eq (hordered s hs).1 (hordered s hs).2
    obtain ⟨hlow, hhigh⟩ := sum_seconds_bounds hseconds
    rw [sum_lengthUs_daySegments] at hlow hhigh
    rw [length_daySegments] at hhigh
    rw [htotal]
    refine ⟨hseconds, ?_, hlow⟩
    rw [gUsecPerSec] at hhigh ⊢
    push_cast at hhigh ⊢
    omega

/-- A midnight after an hour and a half second, and a stop an hour later. -/
theorem daily_time_kept_monthEnd :
    ∃ final : RecordedTimers, run (timerStep countersStored noHash)
        (some (timerRegistryNew true ⟨2024, 6, 30⟩ []))
        [.startAggregateTimer callAtZero,
          .clockTickedMidnight 3600500000 ⟨2024, 7, 1⟩ ⟨2024, 7, 1⟩,
          .stopTimer 0 ⟨2024, 7, 1⟩ 7200000000] = some final ∧
      7200000000 < gUsecPerSec *
        (((dailyCounters 0 final.aggregateTally).map (·.counter)).sum + (1 + 1)) := by
  have hruns : Throughout (timerStep countersStored noHash) (RunsTimer 0)
      (timerStep countersStored noHash (some (timerRegistryNew true ⟨2024, 6, 30⟩ []))
        (.startAggregateTimer callAtZero))
      [.clockTickedMidnight 3600500000 ⟨2024, 7, 1⟩ ⟨2024, 7, 1⟩] := by
    rw [throughout_cons, throughout_nil]
    exact ⟨⟨_, rfl, _, List.mem_cons_self, rfl⟩, ⟨_, rfl, _, List.mem_cons_self, rfl⟩⟩
  obtain ⟨final, hrun, -, -, hkept⟩ := @daily_time_kept noHash true ⟨2024, 6, 30⟩ []
    [.clockTickedMidnight 3600500000 ⟨2024, 7, 1⟩ ⟨2024, 7, 1⟩] [] _ _ callAtZero _
    (.stopTimer 0 ⟨2024, 7, 1⟩ 7200000000) ⟨2024, 7, 1⟩ 7200000000 rfl rfl hruns rfl rfl
  refine ⟨final, hrun, (hkept ?_).2.1⟩
  show ∀ s ∈ [DaySegment.mk 0 3600500000 ⟨2024, 6, 30⟩,
    DaySegment.mk 3600500000 7200000000 ⟨2024, 7, 1⟩], _
  decide

end EventRecorder
