import EventRecorder.Aggregate.Registry

/-!
# Every timer is stopped at most once

The registry beside the calls that its handlers make on its timers.  A timer is stopped while it is
in the set, and whatever stops it takes it out of the set.
-/

namespace EventRecorder

open Theory TimerRegistry

inductive TimerCall where
  /-- `emer_aggregate_timer_impl_stop`. -/
  | stop (timerId : Nat)
  /-- `remove_timer`, and whether the timer was in the set. -/
  | removeTimer (timerId : Nat) (found : Bool)
  deriving DecidableEq, Repr

def TimerCall.stopped? : TimerCall → Option Nat
  | .stop timerId => some timerId
  | .removeTimer _ _ => none

namespace TimerRegistry

variable {κ : Type*} (ops : AggregateTally κ) (self : TimerRegistry κ)

/-! ## 1. The calls of each handler -/

def onTimerStoppedCalls (timerImpl : EmerAggregateTimerImpl) : List TimerCall :=
  match self.monitoredSenders timerImpl.senderName with
  -- the assertion stands between the two calls
  | none => [.stop timerImpl.timerId]
  | some _ =>
    [.stop timerImpl.timerId,
      .removeTimer timerImpl.timerId (self.findTimer timerImpl.timerId).isSome]

/-- The calls of `stopTimers`. -/
def stopTimersCalls (now : GDateTime) (nowMonotonicUs : Int) :
    List Nat → TimerRegistry κ → List TimerCall
  | [], _ => []
  | timerId :: timerIds, self =>
    match self.findTimer timerId with
    | none => []
    | some timerImpl =>
      .stop timerId :: .removeTimer timerId (self.findTimer timerId).isSome ::
        stopTimersCalls now nowMonotonicUs timerIds
          ((self.stopTimerImpl ops timerImpl now nowMonotonicUs).removeTimer timerId)

def shutdownCalls : List TimerCall :=
  self.aggregateTimers.map fun timerImpl => .stop timerImpl.timerId

/-- The calls while an event is handled.  A midnight tick stops no timer, and an opt-out drops them
without a stop. -/
def calls : TimerEvent → List TimerCall
  | .startAggregateTimer _ => []
  | .stopTimer timerId _ _ =>
    match self.findTimer timerId with
    | none => []
    | some timerImpl => self.onTimerStoppedCalls timerImpl
  | .senderNameVanished senderName now nowMonotonicUs =>
    match self.monitoredSenders senderName with
    | none => []
    | some senderData => stopTimersCalls ops now nowMonotonicUs senderData self
  | .clockTickedMidnight _ _ _ => []
  | .permissionsChanged _ => []
  | .shutdown _ _ => self.shutdownCalls

end TimerRegistry

/-- A run of the registry with all calls on its timers so far. -/
structure TimerTrace (κ : Type*) where
  registry : Option (TimerRegistry κ)
  calls : List TimerCall

namespace TimerTrace

variable {κ : Type*} (ops : AggregateTally κ) (sha1 : Bytes → Text → Bytes)

def start (recordingEnabled : Bool) (date : GDateTime) (tally : κ) : TimerTrace κ :=
  ⟨some (timerRegistryNew recordingEnabled date tally), []⟩

def step (trace : TimerTrace κ) (event : TimerEvent) : TimerTrace κ where
  registry := timerStep ops sha1 trace.registry event
  calls := trace.calls ++ (trace.registry.map (·.calls ops event)).getD []

end TimerTrace

/-! ## 2. What holds of the registry -/

/-- The running timers are the disjoint union of the arrays of the watched senders. -/
structure TimerRegistry.Partitioned {κ : Type*} (r : TimerRegistry κ) : Prop where
  distinct : (r.aggregateTimers.map (·.timerId)).Nodup
  union : ∀ timerId, timerId ∈ r.aggregateTimers.map (·.timerId) ↔
    ∃ senderName senderData, r.monitoredSenders senderName = some senderData ∧ timerId ∈ senderData
  disjoint : ∀ senderName senderName' senderData senderData',
    r.monitoredSenders senderName = some senderData →
    r.monitoredSenders senderName' = some senderData' → senderName ≠ senderName' →
    senderData.Disjoint senderData'
  own : ∀ t ∈ r.aggregateTimers, ∃ senderData,
    r.monitoredSenders t.senderName = some senderData ∧ senderData.count t.timerId = 1
  nonempty : ∀ senderName, r.monitoredSenders senderName ≠ some []

/-- No assertion has failed, the registry is partitioned, every removal has found its timer, and no
timer has been stopped twice. -/
def TimerTrace.Sound {κ : Type*} (trace : TimerTrace κ) : Prop :=
  (∃ r, trace.registry = some r ∧ r.Partitioned) ∧
    (∀ timerId found, .removeTimer timerId found ∈ trace.calls → found = true) ∧
    ∀ timerId, trace.calls.count (.stop timerId) ≤ 1

namespace TimerRegistry

variable {κ : Type*} {ops : AggregateTally κ} {sha1 : Bytes → Text → Bytes} {r : TimerRegistry κ}

theorem Consistent.partitioned (h : r.Consistent) : r.Partitioned where
  distinct := h.nodup
  union := by
    intro timerId
    constructor
    · intro hrunning
      obtain ⟨t, ht, rfl⟩ := List.mem_map.mp hrunning
      obtain ⟨senderData, hsender, hmem⟩ := h.watched ht
      exact ⟨t.senderName, senderData, hsender, hmem⟩
    · intro hwatched
      obtain ⟨senderName, senderData, hsender, hmem⟩ := hwatched
      have harray := h.arrays senderName
      rw [hsender] at harray
      exact (List.filter_sublist.map _).subset (harray.mem_iff.mp hmem)
  disjoint := by
    intro senderName senderName' senderData senderData' hsender hsender' hne timerId hmem hmem'
    have harray := h.arrays senderName
    rw [hsender] at harray
    obtain ⟨t, ht, rfl⟩ := List.mem_map.mp (harray.mem_iff.mp hmem)
    have ht := List.mem_of_mem_filter ht
    -- a timer in two arrays would have two senders
    apply hne
    rw [← (h.mem_array_iff hsender ht).mp hmem, ← (h.mem_array_iff hsender' ht).mp hmem']
  own := by
    intro t ht
    obtain ⟨senderData, hsender, hmem⟩ := h.watched ht
    have harray := h.arrays t.senderName
    rw [hsender] at harray
    have hnodup : senderData.Nodup := harray.nodup_iff.mpr (timersOf_nodup t.senderName h.nodup)
    exact ⟨senderData, hsender, List.count_eq_one_of_mem hnodup hmem⟩
  nonempty := h.nonempty

/-! ## 3. The calls of one event -/

/-- The numbers of the timers that some calls stop. -/
def stoppedIds (calls : List TimerCall) : List Nat :=
  calls.filterMap TimerCall.stopped?

/-- The timers that are stopped were all running and are gone, no new timer has an old number, and
every removal finds its timer. -/
structure StopsOnce (r r' : TimerRegistry κ) (calls : List TimerCall) : Prop where
  nodup : (stoppedIds calls).Nodup
  running : ∀ timerId ∈ stoppedIds calls, timerId ∈ r.aggregateTimers.map (·.timerId)
  gone : ∀ timerId ∈ stoppedIds calls, timerId ∉ r'.aggregateTimers.map (·.timerId)
  kept : ∀ t ∈ r'.aggregateTimers, t.timerId ∈ r.aggregateTimers.map (·.timerId) ∨
    r.nextTimerId ≤ t.timerId
  later : r.nextTimerId ≤ r'.nextTimerId
  found : ∀ timerId found, .removeTimer timerId found ∈ calls → found = true

/-- Without a stop, only the timers matter. -/
theorem stopsOnce_nil {r' : TimerRegistry κ}
    (hkept : ∀ t ∈ r'.aggregateTimers, t.timerId ∈ r.aggregateTimers.map (·.timerId) ∨
      r.nextTimerId ≤ t.timerId)
    (hlater : r.nextTimerId ≤ r'.nextTimerId) : StopsOnce r r' [] where
  nodup := List.nodup_nil
  running := fun _ h => by cases h
  gone := fun _ h => by cases h
  kept := hkept
  later := hlater
  found := fun _ _ h => by cases h

variable (ops) in
theorem stopTimersCalls_eq (now : GDateTime) (mono : Int) {timerIds : List Nat}
    (hnodup : timerIds.Nodup) (htimers : (r.aggregateTimers.map (·.timerId)).Nodup)
    (hrun : ∀ i ∈ timerIds, ∃ t ∈ r.aggregateTimers, t.timerId = i) :
    stopTimersCalls ops now mono timerIds r =
      timerIds.flatMap fun timerId => [.stop timerId, .removeTimer timerId true] := by
  induction timerIds generalizing r with
  | nil => rfl
  | cons i timerIds ih =>
    obtain ⟨t, ht, rfl⟩ := hrun i List.mem_cons_self
    obtain ⟨hnotMem, hrest⟩ := List.nodup_cons.mp hnodup
    rw [stopTimersCalls, findTimer_eq_some htimers ht, List.flatMap_cons]
    simp only
    rw [ih hrest]
    · rfl
    · exact htimers.sublist (List.filter_sublist.map _)
    · intro j hj
      obtain ⟨u, hu, rfl⟩ := hrun j (List.mem_cons_of_mem _ hj)
      refine ⟨u, List.mem_filter.mpr ⟨hu, ?_⟩, rfl⟩
      exact decide_eq_true fun heq => hnotMem (heq ▸ hj)

theorem stoppedIds_flatMap (timerIds : List Nat) :
    stoppedIds (timerIds.flatMap fun timerId => [.stop timerId, .removeTimer timerId true]) =
      timerIds := by
  induction timerIds with
  | nil => rfl
  | cons i timerIds ih =>
    rw [List.flatMap_cons, stoppedIds, List.filterMap_append]
    exact congrArg (i :: ·) ih

theorem stoppedIds_shutdownCalls (r : TimerRegistry κ) :
    stoppedIds r.shutdownCalls = r.aggregateTimers.map (·.timerId) := by
  unfold stoppedIds shutdownCalls
  rw [List.filterMap_map]
  exact congrFun (@List.filterMap_eq_map _ _ fun t : EmerAggregateTimerImpl => t.timerId) _

/-- Running timers are stopped and removed one after the other. -/
theorem stopsOnce_of_removed {r' : TimerRegistry κ} {timerIds : List Nat}
    (hnodup : timerIds.Nodup) (hrun : ∀ i ∈ timerIds, ∃ t ∈ r.aggregateTimers, t.timerId = i)
    (htimers : r'.aggregateTimers = r.aggregateTimers.filter (·.timerId ∉ timerIds))
    (hlater : r'.nextTimerId = r.nextTimerId) :
    StopsOnce r r'
      (timerIds.flatMap fun timerId => [.stop timerId, .removeTimer timerId true]) := by
  constructor
  · rw [stoppedIds_flatMap]
    exact hnodup
  · intro i hi
    rw [stoppedIds_flatMap] at hi
    obtain ⟨t, ht, rfl⟩ := hrun i hi
    exact List.mem_map_of_mem ht
  · intro i hi hrunning
    rw [stoppedIds_flatMap] at hi
    obtain ⟨u, hu, rfl⟩ := List.mem_map.mp hrunning
    rw [htimers, List.mem_filter] at hu
    exact of_decide_eq_true hu.2 hi
  · intro u hu
    rw [htimers] at hu
    exact .inl (List.mem_map_of_mem (List.mem_of_mem_filter hu))
  · exact hlater.symm.le
  · intro i found hcall
    obtain ⟨j, -, hj⟩ := List.mem_flatMap.mp hcall
    cases List.mem_cons.mp hj with
    | inl hstop => cases hstop
    | inr hremove =>
      cases List.mem_singleton.mp hremove
      rfl

theorem Consistent.onTimerStopped_stopsOnce (h : r.Consistent) {t : EmerAggregateTimerImpl}
    (ht : t ∈ r.aggregateTimers) {now : GDateTime} {mono : Int} {stopped : TimerRegistry κ}
    (hstopped : r.onTimerStoppedCb ops t now mono = some stopped) :
    StopsOnce r stopped (r.onTimerStoppedCalls t) := by
  obtain ⟨senderData, hsender, -⟩ := h.watched ht
  obtain ⟨s, hs, htimers, -, hlater, -⟩ := onTimerStoppedCb_eq ops hsender now mono
  obtain rfl := Option.some.inj (hstopped.symm.trans hs)
  have hcalls : r.onTimerStoppedCalls t =
      [t.timerId].flatMap fun timerId => [.stop timerId, .removeTimer timerId true] := by
    unfold onTimerStoppedCalls
    rw [hsender, findTimer_eq_some h.nodup ht]
    rfl
  rw [hcalls]
  apply stopsOnce_of_removed (List.nodup_singleton _)
  · intro i hi
    exact ⟨t, ht, (List.mem_singleton.mp hi).symm⟩
  · rw [htimers]
    simp only [List.mem_singleton]
  · exact hlater

theorem Consistent.senderNameVanished_stopsOnce (h : r.Consistent) {name : Text}
    {senderData : List Nat} (hsender : r.monitoredSenders name = some senderData) {now : GDateTime}
    {mono : Int} {stopped : TimerRegistry κ}
    (hstopped : r.senderNameVanishedCb ops name now mono = some stopped) :
    StopsOnce r stopped (stopTimersCalls ops now mono senderData r) := by
  obtain ⟨s, timers, hs, htimers, -, hlater, -, hmap, hmem, -⟩ :=
    senderNameVanishedCb_eq ops h hsender now mono
  obtain rfl := Option.some.inj (hstopped.symm.trans hs)
  have harray := h.arrays name
  rw [hsender] at harray
  have hnodup : senderData.Nodup := harray.nodup_iff.mpr (timersOf_nodup name h.nodup)
  have hrun : ∀ i ∈ senderData, ∃ t ∈ r.aggregateTimers, t.timerId = i := by
    intro i hi
    rw [← hmap] at hi
    obtain ⟨t, ht, hid⟩ := List.mem_map.mp hi
    exact ⟨t, hmem t ht, hid⟩
  rw [stopTimersCalls_eq ops now mono hnodup h.nodup hrun]
  exact stopsOnce_of_removed hnodup hrun htimers hlater

/-- **Step lemma.**  One event stops running timers only, each once, and they are gone
afterwards. -/
theorem Consistent.stopsOnce (h : r.Consistent) {event : TimerEvent} {r' : TimerRegistry κ}
    (hnext : EventRecorder.handleTimerEvent ops sha1 r event = some r') :
    StopsOnce r r' (r.calls ops event) := by
  have hsame : ∀ t ∈ r.aggregateTimers, t.timerId ∈ r.aggregateTimers.map (·.timerId) ∨
      r.nextTimerId ≤ t.timerId := fun t ht => .inl (List.mem_map_of_mem ht)
  cases event with
  | startAggregateTimer call =>
    rw [EventRecorder.handleTimerEvent] at hnext
    cases hstart : r.startAggregateTimer sha1 call with
    | error e =>
      rw [hstart] at hnext
      cases hnext
      exact stopsOnce_nil hsame le_rfl
    | ok started =>
      rw [hstart] at hnext
      cases hnext
      obtain ⟨new, hid, -, -, htimers, -, hlater, -⟩ := startAggregateTimer_eq hstart
      apply stopsOnce_nil
      · intro t ht
        rw [htimers, List.mem_append, List.mem_singleton] at ht
        cases ht with
        | inl hold => exact hsame t hold
        | inr hnew =>
          rw [hnew, hid]
          exact .inr le_rfl
      · rw [hlater]
        exact Nat.le_succ _
  | stopTimer timerId now mono =>
    rw [EventRecorder.handleTimerEvent] at hnext
    rw [calls]
    cases hfind : r.findTimer timerId with
    | none =>
      rw [hfind] at hnext
      cases hnext
      exact stopsOnce_nil hsame le_rfl
    | some t =>
      rw [hfind] at hnext
      exact h.onTimerStopped_stopsOnce (mem_of_findTimer hfind).1 hnext
  | senderNameVanished name now mono =>
    rw [EventRecorder.handleTimerEvent] at hnext
    rw [calls]
    cases hsender : r.monitoredSenders name with
    | none =>
      rw [hsender] at hnext
      cases hnext
      exact stopsOnce_nil hsame le_rfl
    | some senderData =>
      rw [hsender] at hnext
      exact h.senderNameVanished_stopsOnce hsender hnext
  | clockTickedMidnight mono now rescheduled =>
    cases hnext
    apply stopsOnce_nil
    · rw [clockTickedMidnightCb_eq]
      intro t ht
      obtain ⟨u, hu, rfl⟩ := List.mem_map.mp ht
      exact hsame u hu
    · rw [clockTickedMidnightCb_eq]
  | permissionsChanged daemonEnabled =>
    cases hnext
    cases daemonEnabled with
    | true => exact stopsOnce_nil hsame le_rfl
    | false => exact stopsOnce_nil (fun t ht => by cases ht) le_rfl
  | shutdown now mono =>
    cases hnext
    rw [shutdown_eq, calls]
    constructor
    · rw [stoppedIds_shutdownCalls]
      exact h.nodup
    · rw [stoppedIds_shutdownCalls]
      exact fun _ hi => hi
    · exact fun _ _ hmem => by cases hmem
    · exact fun _ ht => by cases ht
    · exact le_rfl
    · intro i found hcall
      obtain ⟨t, -, heq⟩ := List.mem_map.mp hcall
      cases heq

end TimerRegistry

/-! ## 4. The whole run -/

namespace TimerTrace

variable {κ : Type*} {ops : AggregateTally κ} {sha1 : Bytes → Text → Bytes} {trace : TimerTrace κ}

/-- Timers that have been stopped have old numbers and are not running any more. -/
structure Tracked (trace : TimerTrace κ) (r : TimerRegistry κ) : Prop where
  registry_eq : trace.registry = some r
  consistent : r.Consistent
  nodup : (stoppedIds trace.calls).Nodup
  old : ∀ timerId ∈ stoppedIds trace.calls, timerId < r.nextTimerId
  gone : ∀ timerId ∈ stoppedIds trace.calls, timerId ∉ r.aggregateTimers.map (·.timerId)
  found : ∀ timerId found, .removeTimer timerId found ∈ trace.calls → found = true

theorem Tracked.step {r : TimerRegistry κ} (h : trace.Tracked r) (event : TimerEvent) :
    ∃ r', (trace.step ops sha1 event).Tracked r' := by
  obtain ⟨r', hnext, hconsistent⟩ := h.consistent.handleTimerEvent ops sha1 event
  have honce := h.consistent.stopsOnce hnext
  have hcalls : (trace.step ops sha1 event).calls = trace.calls ++ r.calls ops event := by
    unfold TimerTrace.step
    rw [h.registry_eq]
    rfl
  have hstopped : stoppedIds (trace.step ops sha1 event).calls =
      stoppedIds trace.calls ++ stoppedIds (r.calls ops event) := by
    rw [hcalls]
    exact List.filterMap_append
  have hold : ∀ timerId ∈ r.aggregateTimers.map (·.timerId), timerId < r.nextTimerId := by
    intro timerId hrunning
    obtain ⟨t, ht, rfl⟩ := List.mem_map.mp hrunning
    exact h.consistent.fresh t ht
  refine ⟨r', ?_, hconsistent, ?_, ?_, ?_, ?_⟩
  · show timerStep ops sha1 trace.registry event = some r'
    rw [h.registry_eq]
    exact hnext
  · rw [hstopped]
    -- what is stopped now is still running, so it has not been stopped before
    exact h.nodup.append honce.nodup fun i hbefore hnow => h.gone i hbefore (honce.running i hnow)
  · intro i hi
    rw [hstopped, List.mem_append] at hi
    apply lt_of_lt_of_le _ honce.later
    cases hi with
    | inl hbefore => exact h.old i hbefore
    | inr hnow => exact hold i (honce.running i hnow)
  · intro i hi hrunning
    rw [hstopped, List.mem_append] at hi
    cases hi with
    | inl hbefore =>
      obtain ⟨t, ht, rfl⟩ := List.mem_map.mp hrunning
      cases honce.kept t ht with
      | inl hkept => exact h.gone _ hbefore hkept
      | inr hnew => exact absurd (h.old _ hbefore) (Nat.not_lt.mpr hnew)
    | inr hnow => exact honce.gone i hnow hrunning
  · intro i found hcall
    rw [hcalls, List.mem_append] at hcall
    cases hcall with
    | inl hbefore => exact h.found i found hbefore
    | inr hnow => exact honce.found i found hnow

theorem count_stop (calls : List TimerCall) (timerId : Nat) :
    calls.count (.stop timerId) = (stoppedIds calls).count timerId := by
  induction calls with
  | nil => rfl
  | cons call calls ih =>
    cases call with
    | stop i =>
      rw [List.count_cons, ih, show stoppedIds (.stop i :: calls) = i :: stoppedIds calls from rfl,
        List.count_cons]
      by_cases hi : i = timerId <;> simp [hi]
    | removeTimer i found =>
      rw [List.count_cons_of_ne (by simp), ih]
      rfl

theorem Tracked.sound {r : TimerRegistry κ} (h : trace.Tracked r) : trace.Sound := by
  refine ⟨⟨r, h.registry_eq, h.consistent.partitioned⟩, h.found, fun timerId => ?_⟩
  rw [count_stop]
  exact List.nodup_iff_count_le_one.mp h.nodup timerId

/-- In every run, whoever starts, stops and vanishes, the running timers stay the disjoint union of
the arrays of their senders, no assertion about senders fails, every removal finds its timer, and no
timer is stopped twice. -/
theorem timers_stopped_at_most_once (ops : AggregateTally κ) (sha1 : Bytes → Text → Bytes)
    (recordingEnabled : Bool) (date : GDateTime) (tally : κ) (events : List TimerEvent) :
    Throughout (TimerTrace.step ops sha1) Sound (start recordingEnabled date tally) events := by
  have hstart : ∃ r, (start recordingEnabled date tally).Tracked r :=
    ⟨_, rfl, consistent_new recordingEnabled date tally, List.nodup_nil, (fun _ h => by cases h),
      (fun _ h => by cases h), fun _ _ h => by cases h⟩
  have htracked : Throughout (TimerTrace.step ops sha1) (fun trace => ∃ r, trace.Tracked r)
      (start recordingEnabled date tally) events :=
    throughout_of_invariant (fun _ event h => h.elim fun _ h => h.step event) events hstart
  exact htracked.mono fun _ h => h.elim fun _ h => h.sound

end TimerTrace

end EventRecorder
