import EventRecorder.Aggregate.Timer
import EventRecorder.Theory.Run

/-!
# The timer registry is consistent

The running timers are the disjoint union of the arrays of the watched senders.  Every event keeps
it so, and none of the assertions about senders fails.
-/

namespace EventRecorder

open Theory

namespace TimerRegistry

variable {κ : Type*} {ops : AggregateTally κ} {r : TimerRegistry κ}

/-- The running timers of a sender. -/
def timersOf (timers : List EmerAggregateTimerImpl) (name : Text) : List Nat :=
  (timers.filter (·.senderName = name)).map (·.timerId)

structure Consistent (r : TimerRegistry κ) : Prop where
  nodup : (r.aggregateTimers.map (·.timerId)).Nodup
  fresh : ∀ t ∈ r.aggregateTimers, t.timerId < r.nextTimerId
  arrays : ∀ name, ((r.monitoredSenders name).getD []).Perm (timersOf r.aggregateTimers name)
  nonempty : ∀ name, r.monitoredSenders name ≠ some []

/-! ## 1. Arrays of timers -/

theorem removeFast_perm_erase (timerIds : List Nat) (timerId : Nat) :
    (removeFast timerIds timerId).Perm (timerIds.erase timerId) := by
  rw [List.erase_eq_eraseIdx, removeFast]
  cases hidx : timerIds.idxOf? timerId with
  | none => exact List.Perm.refl _
  | some i =>
    obtain ⟨hlt, -⟩ := List.idxOf?_eq_some_iff.mp hidx
    have hne : timerIds ≠ [] := List.ne_nil_of_length_pos (by omega)
    rw [List.getLast?_eq_getLast_of_ne_nil hne]
    -- the array still ends with its last element when that element is also put at `i`
    have hset : timerIds.set i (timerIds.getLast hne) ≠ [] := by simpa using hne
    have hlast : (timerIds.set i (timerIds.getLast hne)).getLast hset = timerIds.getLast hne := by
      simp only [List.getLast_eq_getElem, List.length_set, List.getElem_set, ite_self]
    have hperm := List.set_perm_cons_eraseIdx hlt (timerIds.getLast hne)
    rw [← List.dropLast_append_getLast hset, hlast] at hperm
    exact List.Perm.cons_inv ((List.perm_append_singleton _ _).symm.trans hperm)

/-- Taking timers away leaves the array of a sender who keeps all of its timers. -/
theorem timersOf_filter_of_keep {timers : List EmerAggregateTimerImpl}
    {keep : EmerAggregateTimerImpl → Bool} {name : Text}
    (hkeep : ∀ t ∈ timers, t.senderName = name → keep t) :
    timersOf (timers.filter keep) name = timersOf timers name := by
  rw [timersOf, timersOf, List.filter_filter]
  congr 1
  apply List.filter_congr
  intro t ht
  by_cases hname : t.senderName = name
  · simp [hname, hkeep t ht hname]
  · simp [hname]

theorem timersOf_nodup {timers : List EmerAggregateTimerImpl} (name : Text)
    (h : (timers.map (·.timerId)).Nodup) : (timersOf timers name).Nodup :=
  h.sublist (List.filter_sublist.map _)

theorem timersOf_filter_ne {timers : List EmerAggregateTimerImpl} (name : Text) (timerId : Nat)
    (h : (timers.map (·.timerId)).Nodup) :
    timersOf (timers.filter (·.timerId ≠ timerId)) name = (timersOf timers name).erase timerId := by
  rw [(timersOf_nodup name h).erase_eq_filter, timersOf, timersOf, List.filter_map,
    List.filter_filter, List.filter_filter]
  -- filtering by number before or after taking the timers of the sender is the same
  congr 1
  apply List.filter_congr
  intro t _
  by_cases hid : t.timerId = timerId <;> simp [hid]

/-- Timers with the same number are the same timer. -/
theorem eq_of_timerId_eq {timers : List EmerAggregateTimerImpl}
    (h : (timers.map (·.timerId)).Nodup) {t u : EmerAggregateTimerImpl} (ht : t ∈ timers)
    (hu : u ∈ timers) (hid : t.timerId = u.timerId) : t = u :=
  List.inj_on_of_nodup_map h ht hu hid

theorem findTimer_eq_some (h : (r.aggregateTimers.map (·.timerId)).Nodup)
    {t : EmerAggregateTimerImpl} (ht : t ∈ r.aggregateTimers) : r.findTimer t.timerId = some t := by
  rw [findTimer]
  cases hfind : r.aggregateTimers.find? (·.timerId = t.timerId) with
  | none =>
    have := List.find?_eq_none.mp hfind t ht
    simp at this
  -- the first timer found has the number, and no other has
  | some u =>
    have hid : u.timerId = t.timerId := by simpa using List.find?_some hfind
    rw [eq_of_timerId_eq h (List.mem_of_find?_eq_some hfind) ht hid]

theorem mem_of_findTimer {timerId : Nat} {t : EmerAggregateTimerImpl}
    (h : r.findTimer timerId = some t) : t ∈ r.aggregateTimers ∧ t.timerId = timerId :=
  ⟨List.mem_of_find?_eq_some h, by simpa using List.find?_some h⟩

/-! ## 2. Each operation keeps the registry consistent -/

theorem consistent_new (recordingEnabled : Bool) (date : GDateTime) (tally : κ) :
    (timerRegistryNew recordingEnabled date tally).Consistent where
  nodup := List.nodup_nil
  fresh := by simp [timerRegistryNew]
  arrays := fun _ => List.Perm.refl _
  nonempty := by simp [timerRegistryNew]

/-- Taking timers of one sender away, with its array brought up to date. -/
theorem Consistent.removeFrom (h : r.Consistent) {r' : TimerRegistry κ} {name : Text}
    {keep : EmerAggregateTimerImpl → Bool} {senderData : Option (List Nat)}
    (htimers : r'.aggregateTimers = r.aggregateTimers.filter keep)
    (hsenders : r'.monitoredSenders = Function.update r.monitoredSenders name senderData)
    (hnext : r'.nextTimerId = r.nextTimerId)
    (hothers : ∀ t ∈ r.aggregateTimers, t.senderName ≠ name → keep t)
    (harray : (senderData.getD []).Perm (timersOf (r.aggregateTimers.filter keep) name))
    (hnonempty : senderData ≠ some []) : r'.Consistent where
  nodup := by
    rw [htimers]
    exact h.nodup.sublist (List.filter_sublist.map _)
  fresh := by
    intro t ht
    rw [htimers] at ht
    rw [hnext]
    exact h.fresh t (List.mem_of_mem_filter ht)
  arrays := by
    intro other
    rw [htimers, hsenders]
    by_cases hother : other = name
    · subst hother
      rw [Function.update_self]
      exact harray
    -- another sender keeps its array and all of its timers
    · rw [Function.update_of_ne hother, timersOf_filter_of_keep]
      · exact h.arrays other
      · intro t ht hname
        exact hothers t ht (hname ▸ hother)
  nonempty := by
    intro other
    rw [hsenders]
    by_cases hother : other = name
    · subst hother
      rw [Function.update_self]
      exact hnonempty
    · rw [Function.update_of_ne hother]
      exact h.nonempty other

/-- The array of a sender whose timer runs. -/
theorem Consistent.watched (h : r.Consistent) {t : EmerAggregateTimerImpl}
    (ht : t ∈ r.aggregateTimers) :
    ∃ senderData, r.monitoredSenders t.senderName = some senderData ∧ t.timerId ∈ senderData := by
  have hmem : t.timerId ∈ timersOf r.aggregateTimers t.senderName :=
    List.mem_map.mpr ⟨t, List.mem_filter.mpr ⟨ht, by simp⟩, rfl⟩
  have harray := (h.arrays t.senderName).mem_iff.mpr hmem
  cases hsender : r.monitoredSenders t.senderName with
  | none => simp [hsender] at harray
  | some senderData =>
    rw [hsender] at harray
    exact ⟨senderData, rfl, harray⟩

/-- What a start that is not refused adds. -/
theorem startAggregateTimer_eq {sha1 : Bytes → Text → Bytes} {call : StartAggregateTimer}
    {path : String} {started : TimerRegistry κ}
    (hstart : r.startAggregateTimer sha1 call = .ok (path, started)) :
    ∃ t : EmerAggregateTimerImpl, t.timerId = r.nextTimerId ∧
      t.startMonotonicUs = call.monotonicTimeUs ∧ t.senderName = call.senderName ∧
      started.aggregateTimers = r.aggregateTimers ++ [t] ∧
      started.monitoredSenders = Function.update r.monitoredSenders call.senderName
        (some ((r.monitoredSenders call.senderName).getD [] ++ [r.nextTimerId])) ∧
      started.nextTimerId = r.nextTimerId + 1 ∧
      started.currentAggregateTallyDate = r.currentAggregateTallyDate ∧
      started.aggregateTally = r.aggregateTally := by
  unfold TimerRegistry.startAggregateTimer at hstart
  split at hstart
  · cases hstart
  split at hstart
  · cases hstart
  split at hstart
  · cases hstart
  cases hstart
  exact ⟨_, rfl, rfl, rfl, rfl, rfl, rfl, rfl, rfl⟩

theorem Consistent.startAggregateTimer (h : r.Consistent) {sha1 : Bytes → Text → Bytes}
    {call : StartAggregateTimer} {path : String} {started : TimerRegistry κ}
    (hstart : r.startAggregateTimer sha1 call = .ok (path, started)) : started.Consistent := by
  obtain ⟨new, hid, -, hsender, htimers, hsenders, hnext, -⟩ := startAggregateTimer_eq hstart
  constructor
  · rw [htimers, List.map_append]
    apply List.Nodup.append h.nodup (List.nodup_singleton _)
    -- the new number is beyond those given out
    intro i hi hnew
    obtain ⟨t, ht, rfl⟩ := List.mem_map.mp hi
    have := h.fresh t ht
    have : t.timerId = new.timerId := List.mem_singleton.mp hnew
    omega
  · intro t ht
    rw [htimers, List.mem_append, List.mem_singleton] at ht
    rw [hnext]
    rcases ht with ht | rfl
    · exact Nat.lt_succ_of_lt (h.fresh t ht)
    · exact Nat.lt_succ_of_le hid.le
  · intro name
    have harray := h.arrays name
    rw [htimers, hsenders, timersOf, List.filter_append, List.map_append]
    by_cases hname : name = call.senderName
    · subst hname
      rw [Function.update_self]
      simpa [hsender, hid, timersOf] using harray.append_right _
    · have hother : ¬ new.senderName = name := fun heq => hname (heq.symm.trans hsender)
      rw [Function.update_of_ne hname]
      simpa [hother, timersOf] using harray
  · intro name
    rw [hsenders]
    by_cases hname : name = call.senderName
    · subst hname
      simp
    · rw [Function.update_of_ne hname]
      exact h.nonempty name

variable (ops) in
/-- What a stop changes when its sender is watched. -/
theorem onTimerStoppedCb_eq {t : EmerAggregateTimerImpl} {senderData : List Nat}
    (hsender : r.monitoredSenders t.senderName = some senderData) (now : GDateTime) (mono : Int) :
    ∃ stopped, r.onTimerStoppedCb ops t now mono = some stopped ∧
      stopped.aggregateTimers = r.aggregateTimers.filter (·.timerId ≠ t.timerId) ∧
      stopped.monitoredSenders = Function.update r.monitoredSenders t.senderName
        (if (removeFast senderData t.timerId).length = 0 then none
          else some (removeFast senderData t.timerId)) ∧
      stopped.nextTimerId = r.nextTimerId ∧
      stopped.currentAggregateTallyDate = r.currentAggregateTallyDate ∧
      stopped.aggregateTally = (t.stop ops now mono r.aggregateTally).2 := by
  rw [TimerRegistry.onTimerStoppedCb, hsender]
  exact ⟨_, rfl, rfl, rfl, rfl, rfl, rfl⟩

theorem Consistent.onTimerStoppedCb (h : r.Consistent) {t : EmerAggregateTimerImpl}
    (ht : t ∈ r.aggregateTimers) {now : GDateTime} {mono : Int} {stopped : TimerRegistry κ}
    (hstopped : r.onTimerStoppedCb ops t now mono = some stopped) : stopped.Consistent := by
  obtain ⟨senderData, hsender, -⟩ := h.watched ht
  have harray := h.arrays t.senderName
  rw [hsender] at harray
  obtain ⟨s, hs, htimers, hsenders, hnext, -⟩ := onTimerStoppedCb_eq ops hsender now mono
  rw [hstopped] at hs
  cases hs
  have hothers : ∀ u ∈ r.aggregateTimers, u.senderName ≠ t.senderName →
      decide (u.timerId ≠ t.timerId) = true := by
    intro u hu hname
    have hne : u.timerId ≠ t.timerId := by
      intro hid
      exact hname (congrArg (·.senderName) (eq_of_timerId_eq h.nodup hu ht hid))
    exact decide_eq_true hne
  have herase := (removeFast_perm_erase senderData t.timerId).trans (harray.erase t.timerId)
  rw [← timersOf_filter_ne _ _ h.nodup] at herase
  -- an array that has become empty takes its sender out of the table
  by_cases hempty : (removeFast senderData t.timerId).length = 0
  · rw [if_pos hempty] at hsenders
    rw [List.length_eq_zero_iff.mp hempty] at herase
    exact h.removeFrom htimers hsenders hnext hothers herase (by simp)
  · rw [if_neg hempty] at hsenders
    apply h.removeFrom htimers hsenders hnext hothers herase
    intro heq
    apply hempty
    rw [Option.some.inj heq]
    rfl

/-! ## 3. Stopping all timers of a sender -/

/-- The tally after a list of timers has been stopped. -/
def tallyAfterStops (ops : AggregateTally κ) (now : GDateTime) (mono : Int)
    (timers : List EmerAggregateTimerImpl) (tally : κ) : κ :=
  timers.foldl (fun tally t => (t.stop ops now mono tally).2) tally

variable (ops) in
/-- The loop over the timers of a sender stops each of them and changes nothing else. -/
theorem stopTimers_eq (now : GDateTime) (mono : Int) {timerIds : List Nat}
    (hnodup : timerIds.Nodup) (htimers : (r.aggregateTimers.map (·.timerId)).Nodup)
    (hrun : ∀ i ∈ timerIds, ∃ t ∈ r.aggregateTimers, t.timerId = i) :
    ∃ stopped timers, stopTimers ops now mono timerIds r = some stopped ∧
      stopped.aggregateTimers = r.aggregateTimers.filter (·.timerId ∉ timerIds) ∧
      stopped.monitoredSenders = r.monitoredSenders ∧ stopped.nextTimerId = r.nextTimerId ∧
      stopped.currentAggregateTallyDate = r.currentAggregateTallyDate ∧
      timers.map (·.timerId) = timerIds ∧ (∀ t ∈ timers, t ∈ r.aggregateTimers) ∧
      stopped.aggregateTally = tallyAfterStops ops now mono timers r.aggregateTally := by
  -- the loop runs over a copy of the array that does not change on the way
  induction timerIds generalizing r with
  | nil => exact ⟨r, [], rfl, by simp, rfl, rfl, rfl, rfl, by simp, rfl⟩
  | cons i timerIds ih =>
    obtain ⟨t, ht, rfl⟩ := hrun i List.mem_cons_self
    obtain ⟨hnotMem, hrest⟩ := List.nodup_cons.mp hnodup
    rw [stopTimers, findTimer_eq_some htimers ht]
    -- the loop goes on without this timer
    let next := (r.stopTimerImpl ops t now mono).removeTimer t.timerId
    have hnext : next.aggregateTimers = r.aggregateTimers.filter (·.timerId ≠ t.timerId) := rfl
    have hnextNodup : (next.aggregateTimers.map (·.timerId)).Nodup :=
      htimers.sublist (List.filter_sublist.map _)
    have hnextRun : ∀ i ∈ timerIds, ∃ u ∈ next.aggregateTimers, u.timerId = i := by
      intro i hi
      obtain ⟨u, hu, rfl⟩ := hrun i (List.mem_cons_of_mem _ hi)
      refine ⟨u, ?_, rfl⟩
      rw [hnext, List.mem_filter]
      exact ⟨hu, decide_eq_true fun heq => hnotMem (heq ▸ hi)⟩
    obtain ⟨stopped, timers, hstopped, hfilter, hsenders, hid, hdate, hmap, hmem, htally⟩ :=
      ih hrest hnextNodup hnextRun
    refine ⟨stopped, t :: timers, hstopped, ?_, hsenders, hid, hdate, ?_, ?_, htally⟩
    · rw [hfilter, hnext, List.filter_filter]
      apply List.filter_congr
      intro u _
      by_cases hu : u.timerId = t.timerId <;> simp [hu]
    · rw [List.map_cons, hmap]
    · intro u hu
      rcases List.mem_cons.mp hu with rfl | hu
      · exact ht
      · exact List.mem_of_mem_filter (hmem u hu)

variable (ops) in
theorem senderNameVanishedCb_eq (h : r.Consistent) {name : Text} {senderData : List Nat}
    (hsender : r.monitoredSenders name = some senderData) (now : GDateTime) (mono : Int) :
    ∃ stopped timers, r.senderNameVanishedCb ops name now mono = some stopped ∧
      stopped.aggregateTimers = r.aggregateTimers.filter (·.timerId ∉ senderData) ∧
      stopped.monitoredSenders = Function.update r.monitoredSenders name none ∧
      stopped.nextTimerId = r.nextTimerId ∧
      stopped.currentAggregateTallyDate = r.currentAggregateTallyDate ∧
      timers.map (·.timerId) = senderData ∧ (∀ t ∈ timers, t ∈ r.aggregateTimers) ∧
      stopped.aggregateTally = tallyAfterStops ops now mono timers r.aggregateTally := by
  have harray := h.arrays name
  rw [hsender] at harray
  have hnodup : senderData.Nodup := harray.nodup_iff.mpr (timersOf_nodup name h.nodup)
  -- the array holds running timers only, so none of them is missing from the set
  have hrun : ∀ i ∈ senderData, ∃ t ∈ r.aggregateTimers, t.timerId = i := by
    intro i hi
    obtain ⟨t, ht, hid⟩ := List.mem_map.mp (harray.mem_iff.mp hi)
    exact ⟨t, List.mem_of_mem_filter ht, hid⟩
  obtain ⟨stopped, timers, hstopped, hfilter, hsenders, hid, hdate, hmap, hmem, htally⟩ :=
    stopTimers_eq ops now mono hnodup h.nodup hrun
  rw [TimerRegistry.senderNameVanishedCb, hsender]
  simp only [hstopped, Option.map_some]
  exact ⟨_, timers, rfl, hfilter, by rw [hsenders], hid, hdate, hmap, hmem, htally⟩

theorem Consistent.mem_array_iff (h : r.Consistent) {name : Text} {senderData : List Nat}
    (hsender : r.monitoredSenders name = some senderData) {t : EmerAggregateTimerImpl}
    (ht : t ∈ r.aggregateTimers) : t.timerId ∈ senderData ↔ t.senderName = name := by
  have harray := h.arrays name
  rw [hsender] at harray
  constructor
  · intro hmem
    obtain ⟨u, hu, hid⟩ := List.mem_map.mp (harray.mem_iff.mp hmem)
    rw [eq_of_timerId_eq h.nodup ht (List.mem_of_mem_filter hu) hid.symm]
    simpa using (List.mem_filter.mp hu).2
  · intro hname
    apply harray.mem_iff.mpr
    exact List.mem_map.mpr ⟨t, List.mem_filter.mpr ⟨ht, by simpa using hname⟩, rfl⟩

theorem Consistent.senderNameVanishedCb (h : r.Consistent) {name : Text} {senderData : List Nat}
    (hsender : r.monitoredSenders name = some senderData) {now : GDateTime} {mono : Int}
    {stopped : TimerRegistry κ}
    (hstopped : r.senderNameVanishedCb ops name now mono = some stopped) :
    stopped.Consistent := by
  obtain ⟨s, timers, hs, hfilter, hsenders, hid, -⟩ :=
    senderNameVanishedCb_eq ops h hsender now mono
  rw [hstopped] at hs
  cases hs
  apply h.removeFrom hfilter hsenders hid
  · intro t ht hname
    exact decide_eq_true fun hmem => hname ((h.mem_array_iff hsender ht).mp hmem)
  · rw [timersOf, List.filter_filter, List.filter_eq_nil_iff.mpr]
    · exact List.Perm.refl _
    · intro t ht
      by_cases hname : t.senderName = name
      · simp [(h.mem_array_iff hsender ht).mpr hname]
      · simp [hname]
  · simp

/-! ## 4. The whole machine -/

/-- Stopping every timer moves the tally only; the timers go afterwards. -/
theorem shutdown_eq (now : GDateTime) (mono : Int) :
    r.shutdown ops now mono =
      { r with
        aggregateTimers := []
        monitoredSenders := fun _ => none
        aggregateTally := tallyAfterStops ops now mono r.aggregateTimers r.aggregateTally } := by
  have hfold : ∀ (timers : List EmerAggregateTimerImpl) (r : TimerRegistry κ),
      timers.foldl (fun r t => r.stopTimerImpl ops t now mono) r =
        { r with aggregateTally := tallyAfterStops ops now mono timers r.aggregateTally } := by
    intro timers
    induction timers with
    | nil => exact fun _ => rfl
    | cons t timers ih => exact fun r => ih (r.stopTimerImpl ops t now mono)
  rw [TimerRegistry.shutdown, hfold]

/-- A registry without timers and senders. -/
theorem consistent_of_empty (htimers : r.aggregateTimers = [])
    (hsenders : r.monitoredSenders = fun _ => none) : r.Consistent where
  nodup := by simp [htimers]
  fresh := by simp [htimers]
  arrays := by simp [htimers, hsenders, timersOf]
  nonempty := by simp [hsenders]

/-- The tally after a counter of each timer has been stored. -/
def tallyAfterSave (ops : AggregateTally κ) (tallyType : EmerTallyType) (date : GDateTime)
    (mono : Int) (timers : List EmerAggregateTimerImpl) (tally : κ) : κ :=
  timers.foldl (fun tally t => ((t.store ops tallyType date mono tally).toOption).getD tally) tally

theorem saveAggregateTimersToTally_eq (tallyType : EmerTallyType) (date : GDateTime)
    (mono : Int) :
    r.saveAggregateTimersToTally ops tallyType date mono =
      { r with
        aggregateTally :=
          tallyAfterSave ops tallyType date mono r.aggregateTimers r.aggregateTally } := by
  rw [TimerRegistry.saveAggregateTimersToTally, tallyAfterSave]
  -- a counter that cannot be stored leaves the tally as it was
  congr 2
  funext tally t
  cases t.store ops tallyType date mono tally <;> rfl

/-- A tick stores the daily counters, the monthly ones when the month is over, and splits the
timers either way. -/
theorem clockTickedMidnightCb_eq (mono : Int) (now rescheduled : GDateTime) :
    let date := r.currentAggregateTallyDate
    let save := fun tallyType tally =>
      ops.iter (tallyAfterSave ops tallyType date mono r.aggregateTimers tally) tallyType date
    r.clockTickedMidnightCb ops mono now rescheduled =
      { r with
        aggregateTimers := r.aggregateTimers.map (·.split mono)
        currentAggregateTallyDate := rescheduled
        aggregateTally :=
          if monthChanged now date then
            save .monthlyEvents (save .dailyEvents r.aggregateTally)
          else save .dailyEvents r.aggregateTally } := by
  dsimp only
  rw [TimerRegistry.clockTickedMidnightCb]
  split <;> simp only [saveAggregateTimersToTally_eq, iterTally, splitAggregateTimers]

theorem Consistent.clockTickedMidnightCb (h : r.Consistent) (mono : Int)
    (now rescheduled : GDateTime) :
    (r.clockTickedMidnightCb ops mono now rescheduled).Consistent := by
  -- a split only moves the start of a timer
  have hids : (r.aggregateTimers.map (·.split mono)).map (·.timerId) =
      r.aggregateTimers.map (·.timerId) := by
    rw [List.map_map]
    rfl
  rw [clockTickedMidnightCb_eq]
  constructor
  · show ((r.aggregateTimers.map (·.split mono)).map (·.timerId)).Nodup
    rw [hids]
    exact h.nodup
  · intro t ht
    obtain ⟨u, hu, rfl⟩ := List.mem_map.mp ht
    exact h.fresh u hu
  · intro name
    show ((r.monitoredSenders name).getD []).Perm
      (timersOf (r.aggregateTimers.map (·.split mono)) name)
    rw [timersOf, List.filter_map, List.map_map]
    exact h.arrays name
  · exact h.nonempty

variable (ops) (sha1 : Bytes → Text → Bytes)

/-- **Step lemma.**  No event fails an assertion, and each keeps the registry consistent. -/
theorem Consistent.handleTimerEvent (h : r.Consistent) (event : TimerEvent) :
    ∃ r', handleTimerEvent ops sha1 r event = some r' ∧ r'.Consistent := by
  cases event with
  | startAggregateTimer call =>
    rw [EventRecorder.handleTimerEvent]
    cases hstart : r.startAggregateTimer sha1 call with
    | error e => exact ⟨r, rfl, h⟩
    | ok started => exact ⟨started.2, rfl, h.startAggregateTimer hstart⟩
  | stopTimer timerId now mono =>
    rw [EventRecorder.handleTimerEvent]
    cases hfind : r.findTimer timerId with
    | none => exact ⟨r, rfl, h⟩
    | some t =>
      obtain ⟨ht, -⟩ := mem_of_findTimer hfind
      obtain ⟨senderData, hsender, -⟩ := h.watched ht
      obtain ⟨stopped, hstopped, -⟩ := onTimerStoppedCb_eq ops hsender now mono
      exact ⟨stopped, hstopped, h.onTimerStoppedCb ht hstopped⟩
  | senderNameVanished name now mono =>
    rw [EventRecorder.handleTimerEvent]
    cases hsender : r.monitoredSenders name with
    | none => exact ⟨r, rfl, h⟩
    | some senderData =>
      obtain ⟨stopped, timers, hstopped, -⟩ := senderNameVanishedCb_eq ops h hsender now mono
      exact ⟨stopped, hstopped, h.senderNameVanishedCb hsender hstopped⟩
  | clockTickedMidnight mono now rescheduled =>
    exact ⟨_, rfl, h.clockTickedMidnightCb mono now rescheduled⟩
  | permissionsChanged daemonEnabled =>
    refine ⟨_, rfl, ?_⟩
    rw [onPermissionsChanged]
    split
    · exact ⟨h.nodup, h.fresh, h.arrays, h.nonempty⟩
    · exact consistent_of_empty rfl rfl
  | shutdown now mono =>
    refine ⟨_, rfl, ?_⟩
    rw [shutdown_eq]
    exact consistent_of_empty rfl rfl

/-- **Run lemma.** -/
theorem Consistent.run (h : r.Consistent) (es : List TimerEvent) :
    ∃ r', Theory.run (timerStep ops sha1) (some r) es = some r' ∧ r'.Consistent := by
  induction es generalizing r with
  | nil => exact ⟨r, rfl, h⟩
  | cons e es ih =>
    obtain ⟨r', hstep, h'⟩ := h.handleTimerEvent ops sha1 e
    rw [run_cons, timerStep, Option.bind_some, hstep]
    exact ih h'

end TimerRegistry

end EventRecorder
